/-
This file names the ways in which access to files fails, and gives them the words of the operating
system.
-/

namespace Codebook

/-- Why a file cannot be opened, read or written. -/
inductive FileError
  | notFound
  | notAFolder
  | isAFolder
  | alreadyExists
  | nameTooLong
  | busy
  | invalidArgument
  /-- The name holds a zero character, which no file name can. -/
  | zeroInName
  /-- The bytes are not UTF-8. -/
  | notText
  /-- Anything else, by the number and the words of the operating system. -/
  | other (number : Nat) (words : String)
deriving DecidableEq, Repr

namespace FileError

/-- The words and the number of an error of the operating system. -/
def system (words : String) (number : Nat) : String :=
  s!"{words} (os error {number})"

def message : FileError → String
  | notFound => system "No such file or directory" 2
  | notAFolder => system "Not a directory" 20
  | isAFolder => system "Is a directory" 21
  | alreadyExists => system "File exists" 17
  | nameTooLong => system "File name too long" 36
  | busy => system "Device or resource busy" 16
  | invalidArgument => system "Invalid argument" 22
  | zeroInName => "file name contained an unexpected NUL byte"
  | notText => "stream did not contain valid UTF-8"
  | other number words => system words number

end FileError

/-- What is found under a name. A folder can be opened as well, but not read. -/
inductive Contents
  | file (bytes : ByteArray)
  | folder

def Contents.bytes : Contents → Except FileError ByteArray
  | file bytes => .ok bytes
  | folder => .error .isAFolder

def Contents.text (contents : Contents) : Except FileError String := do
  match String.fromUTF8? (← contents.bytes) with
  | some text => return text
  | none => .error .notText

/-- Access to files, in whatever way `m` stands for: a disk, or a value that describes one. -/
structure FileAccess (m : Type → Type) where
  /-- Opens what stands under a name. -/
  fetch : String → m (Except FileError Contents)
  /-- Puts a file with the given bytes in place of what stands under a name. Folders that are
  missing on the way are added, and nobody ever sees half a file. -/
  replace : String → ByteArray → m (Except FileError Unit)

end Codebook
