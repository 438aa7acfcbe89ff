/-
This file fixes the order in which the folders on the way to a file are added. It shows in what is
refused: a file in the way is met either from within, as no folder, or when its own turn comes, as
something that is there already.
-/

import Codebook.Files.Error

namespace Codebook

/-- Adds the folder that components lead to, which are given from last to first. Adding a single
folder, where one that is there will do, is left to `ensure`. It is tried on the whole way first;
only if something on the way is missing is the folder before it added, and then the folder itself.
Folders that have been added before an error stay. -/
def addFolders {m : Type → Type} [Monad m] {Component : Type}
    (ensure : List Component → m (Except FileError Unit)) :
    List Component → m (Except FileError Unit)
  | [] => return .ok ()
  | last :: before => do
    match ← ensure (last :: before) with
    | .error .notFound =>
      match ← addFolders ensure before with
      | .ok () => ensure (last :: before)
      | failed => return failed
    | result => return result

end Codebook
