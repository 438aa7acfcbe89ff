/-
This file connects the command line to the operating system. Everything a command decides is decided
elsewhere; here files are opened and replaced, and output is written.
-/

import Codebook.CommandLine.Run
import Codebook.Files.Folders
import Codebook.Files.Name

namespace Codebook

/-- The error of a failed action on a file. -/
def fileErrorOf (error : IO.Error) : FileError :=
  match error with
  | .noFileOrDirectory .. => .notFound
  | .alreadyExists .. => .alreadyExists
  | .resourceBusy .. => .busy
  | .inappropriateType _ number words =>
    if number = 21 then .isAFolder else if number = 20 then .notAFolder
    else .other number.toNat words
  | .invalidArgument _ number words =>
    if number = 36 then .nameTooLong else .other number.toNat words
  | .permissionDenied _ number words => .other number.toNat words
  | .otherError number words => .other number.toNat words
  | other => .other 0 other.toString

/-- Runs an action on a file and catches its error. -/
def caught {Value : Type} (action : IO Value) : IO (Except FileError Value) := do
  try
    return .ok (← action)
  catch error =>
    return .error (fileErrorOf error)

/-- Opens what stands under a name. -/
def openFile (name : String) : IO (Except FileError Contents) := caught do
  let handle ← IO.FS.Handle.mk name .read
  try
    return .file (← handle.readBinToEnd)
  catch error =>
    if fileErrorOf error = .isAFolder then return .folder else throw error

/-- Adds the folder of a name, unless there is one already. -/
def ensureFolder (name : String) : IO (Except FileError Unit) := do
  match ← caught (IO.FS.createDir name) with
  | .ok () => return .ok ()
  | .error error =>
    match ← openFile name with
    | .ok .folder => return .ok ()
    | _ => return .error error

/-- Adds the folder of a name and those on the way to it. -/
def addFolder (name : List Char) : IO (Except FileError Unit) :=
  let start := if FileName.isAbsolute name then ['/'] else []
  let components := (FileName.components name).filter fun component => !FileName.isIdle component
  let named := fun components : List (List Char) =>
    String.ofList (start ++ ['/'].intercalate components.reverse)
  addFolders (fun components => ensureFolder (named components)) components.reverse

/-- Access to the files of the machine. A new file is written beside the one it replaces and then
moved into its place. -/
def machineFiles : FileAccess IO where
  fetch := openFile
  replace name bytes := do
    let folder := (FileName.parent? name.toList).getD []
    match ← addFolder folder with
    | .error error => return .error error
    | .ok () => caught do
      let draft := (if folder.isEmpty then "." else String.ofList folder) ++ "/.snapshot-draft"
      try
        IO.FS.writeBinFile draft bytes
        IO.FS.rename draft name
      catch error =>
        try IO.FS.removeFile draft catch _ => pure ()
        throw error

end Codebook

/-- Carries out the command line and exits with the code of its effect. -/
def main (arguments : List String) : IO UInt32 := do
  let effect ← Codebook.CommandLine.run Codebook.machineFiles arguments
  IO.print effect.output
  IO.eprint effect.errors
  return effect.code.toUInt32
