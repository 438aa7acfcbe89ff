/-
This file describes a disk as a value: a table of numbered entries, and for every folder the numbers
of what stands in it. It gives `FileAccess` without a real disk, with the errors a real one would
give. Entries are only ever added, so a number stays good; replacing a file gives its component a
new number.
-/

import Codebook.Files.Folders
import Codebook.Files.Name
import Std.Data.HashMap

namespace Codebook

/-- What stands under a number. A folder knows the folder it lies in; the root lies in itself. -/
inductive Disk.Entry
  | file (bytes : ByteArray)
  | folder (parent : Nat)

/-- The folders and files of a disk by their numbers, and the members of folders: what stands in a
folder under a component, by its number. -/
structure Disk where
  entries : Array Disk.Entry
  members : Std.HashMap (Nat × String) Nat

namespace Disk

def root : Nat := 0

def empty : Disk :=
  ⟨#[.folder root], ∅⟩

def at? (disk : Disk) (number : Nat) : Option Entry :=
  disk.entries[number]?

/-- The number of what stands in a folder under a component. -/
def member? (disk : Disk) (folder : Nat) (component : String) : Option Nat :=
  disk.members[(folder, component)]?

/-- The disk with a new entry in a folder, in place of what stood there under its component. -/
def add (disk : Disk) (folder : Nat) (component : String) (entry : Entry) : Disk :=
  ⟨disk.entries.push entry, disk.members.insert (folder, component) disk.entries.size⟩

/-- A new entry takes the next number, and all others keep theirs. -/
theorem at?_add (disk : Disk) (folder : Nat) (component : String) (entry : Entry) (number : Nat) :
    (disk.add folder component entry).at? number =
      if number = disk.entries.size then some entry else disk.at? number := by
  simp [at?, add, Array.getElem?_push]

/-- A new entry is found under its component, and nothing else is moved. -/
theorem member?_add (disk : Disk) (folder : Nat) (component : String) (entry : Entry)
    (other : Nat) (name : String) :
    (disk.add folder component entry).member? other name =
      if other = folder ∧ name = component then some disk.entries.size
      else disk.member? other name := by
  by_cases same : other = folder ∧ name = component
  · obtain ⟨rfl, rfl⟩ := same
    simp [member?, add]
  · have apart : ((folder, component) == (other, name)) = false := by
      simpa using fun folders components => same ⟨Eq.symm folders, Eq.symm components⟩
    simp [member?, add, Std.HashMap.getElem?_insert, apart, same]

/-! ### Names -/

/-- Those components that stand for something. -/
def meaningful (components : List (List Char)) : List String :=
  (components.filter fun component => !FileName.isIdle component).map String.ofList

/-- The components of a name that stand for something. -/
def components (name : List Char) : List String :=
  meaningful (FileName.components name)

/-- Whether a name can only stand for a folder: it ends with a slash or a lone dot. -/
def namesFolder (name : List Char) : Bool :=
  (FileName.components name).getLast?.any FileName.isIdle

/-- The folder at which the way of a name starts: the root, or the folder one works in. -/
def startOf (workingIn : Nat) (name : List Char) : Nat :=
  if FileName.isAbsolute name then root else workingIn

/-! ### Walking -/

/-- Makes sure that a number is that of a folder. -/
def expectFolder (disk : Disk) (number : Nat) : Except FileError Nat :=
  match disk.at? number with
  | none => .error .notFound
  | some (.file _) => .error .notAFolder
  | some (.folder _) => .ok number

/-- What a component leads to; nothing but a folder leads anywhere. -/
def step (disk : Disk) (number : Nat) (component : String) : Except FileError Nat :=
  match disk.at? number with
  | none => .error .notFound
  | some (.file _) => .error .notAFolder
  | some (.folder parent) =>
    if component = ".." then .ok parent
    else if FileName.componentLimit < component.utf8ByteSize then .error .nameTooLong
    else (disk.member? number component).elim (.error .notFound) .ok

/-- What components lead to, one after the other. -/
def follow (disk : Disk) (start : Nat) (components : List String) : Except FileError Nat :=
  components.foldlM disk.step start

/-- The folder that components lead to. -/
def enter (disk : Disk) (start : Nat) (components : List String) : Except FileError Nat := do
  disk.expectFolder (← disk.follow start components)

/-! ### Reading -/

/-- Opens what stands under a name. -/
def fetch (disk : Disk) (workingIn : Nat) (name : List Char) : Except FileError Contents := do
  if name.contains '\x00' then throw .zeroInName
  if name.isEmpty then throw .notFound
  if FileName.isTooLong name then throw .nameTooLong
  match disk.at? (← disk.follow (startOf workingIn name) (components name)) with
  | none => throw .notFound
  | some (.folder _) => return .folder
  | some (.file bytes) => if namesFolder name then throw .notAFolder else return .file bytes

/-! ### Writing -/

/-- Adds a folder under a last component where components lead to. Nothing may stand there yet; a
last component that leads back does not name anything new. -/
def makeFolder (disk : Disk) (start : Nat) (components : List String) (last : String) :
    Except FileError Disk := do
  let folder ← disk.enter start components
  if last = ".." then throw .alreadyExists
  if FileName.componentLimit < last.utf8ByteSize then throw .nameTooLong
  match disk.member? folder last with
  | some _ => throw .alreadyExists
  | none => return disk.add folder last (.folder folder)

/-- Adds the folder that components lead to, which are given from last to first, unless there is one
already. -/
def ensureFolder (disk : Disk) (start : Nat) : List String → Except FileError Unit × Disk
  | [] => (.ok (), disk)
  | last :: before =>
    match disk.makeFolder start before.reverse last with
    | .ok made => (.ok (), made)
    | .error error =>
      match disk.enter start (last :: before).reverse with
      | .ok _ => (.ok (), disk)
      | .error _ => (.error error, disk)

/-- Adds the folder of a name and those on the way to it. -/
def addFolder (disk : Disk) (workingIn : Nat) (name : List Char) : Except FileError Unit × Disk :=
  if name.contains '\x00' then (.error .zeroInName, disk)
  else if FileName.isTooLong name then (.error .nameTooLong, disk)
  else
    let ensure : List String → StateM Disk (Except FileError Unit) := fun components =>
      modifyGet fun disk => disk.ensureFolder (startOf workingIn name) components
    (addFolders ensure (components name).reverse).run disk

/-- Moves a new file under a name. The name must lead to a folder that is there, and no further than
to something in it: a last component of dots is refused, and so is one that names a folder. -/
def moveInto (disk : Disk) (workingIn : Nat) (name : List Char) (bytes : ByteArray) :
    Except FileError Disk := do
  if name.contains '\x00' then throw .invalidArgument
  if FileName.isTooLong name then throw .nameTooLong
  let named := (FileName.components name).filter fun component => !component.isEmpty
  let some last := named.getLast? | throw .busy
  let folder ← disk.enter (startOf workingIn name) (meaningful named.dropLast)
  if last = ['.'] ∨ last = ['.', '.'] then throw .busy
  let last := String.ofList last
  if FileName.componentLimit < last.utf8ByteSize then throw .nameTooLong
  if namesFolder name then throw .notAFolder
  match (disk.member? folder last).bind disk.at? with
  | some (.folder _) => throw .isAFolder
  | _ => return disk.add folder last (.file bytes)

/-- Replaces what stands under a name, and adds the folders on the way to it. Folders that have been
added stay even if the file itself cannot be put in place. -/
def replace (disk : Disk) (workingIn : Nat) (name : List Char) (bytes : ByteArray) :
    Except FileError Unit × Disk :=
  match disk.addFolder workingIn ((FileName.parent? name).getD []) with
  | (.error error, prepared) => (.error error, prepared)
  | (.ok (), prepared) =>
    match prepared.moveInto workingIn name bytes with
    | .error error => (.error error, prepared)
    | .ok written => (.ok (), written)

/-- A disk with files and folders under names taken relative to a folder; a name that ends with a
slash is a folder's. Folders on the way are added. -/
def withFiles (disk : Disk) (workingIn : Nat) (files : List (String × ByteArray)) : Disk :=
  files.foldl
    (fun disk (name, bytes) =>
      if name.toList.getLast? = some '/' then (disk.addFolder workingIn name.toList).2
      else (disk.replace workingIn name.toList bytes).2)
    disk

def withHome (component : String) : Disk :=
  empty.add root component (.folder root)

/-- The number of the folder of `withHome`. -/
def home : Nat := 1

/-- The home is the folder in the root. -/
theorem member?_withHome (component : String) :
    (withHome component).member? root component = some home := by
  simp [withHome, member?_add, empty, home]

/-- Access to the files of a disk from the folder one works in. -/
def access (workingIn : Nat) : FileAccess (StateM Disk) where
  fetch name := do return (← get).fetch workingIn name.toList
  replace name bytes := modifyGet fun disk => disk.replace workingIn name.toList bytes

end Disk

end Codebook
