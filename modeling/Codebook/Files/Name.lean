/-
This file works on the names of files as texts: slashes separate the components, a slash at the
start makes a name absolute. Names are never tidied up; they stay as they were written.
-/

import Codebook.Text.Pieces

namespace Codebook.FileName

open Text

def isAbsolute (name : List Char) : Bool :=
  name.head? = some '/'

/-- The name that `name` has when it is taken relative to the folder `base`. An absolute name stays
as it is. -/
def resolve (base name : List Char) : List Char :=
  if isAbsolute name ∨ base.isEmpty then name
  else if base.getLast? = some '/' then base ++ name
  else base ++ '/' :: name

/-- The most bytes a name may have. -/
def limit : Nat := 4095

/-- The most bytes a component may have. -/
def componentLimit : Nat := 255

/-- Whether a name has more bytes than a name may have. -/
def isTooLong (name : List Char) : Bool :=
  limit < (String.ofList name).utf8ByteSize

/-- The components of a name, those included that stand for nothing. -/
def components (name : List Char) : List (List Char) :=
  pieces (· == '/') name

/-- Whether a component stands for nothing: it is empty or a dot. -/
def isIdle (component : List Char) : Bool :=
  component.isEmpty || component == ['.']

/-- The components without those at the end that stand for nothing. -/
def dropIdleEnd (components : List (List Char)) : List (List Char) :=
  (components.reverse.dropWhile isIdle).reverse

/-- What a name starts with that is no ordinary component: the slash of an absolute name, or a dot
at the start of a relative one. -/
def anchor : List Char → List Char
  | '/' :: _ => ['/']
  | ['.'] => ['.']
  | '.' :: '/' :: _ => ['.']
  | _ => []

/-- The folder a name lies in, as far as it is named. The root and the empty name have none. -/
def parent? (name : List Char) : Option (List Char) :=
  let anchor := anchor name
  let components := dropIdleEnd (components (name.drop anchor.length))
  if components.isEmpty then
    if anchor = ['.'] then some [] else none
  else some (anchor ++ ['/'].intercalate (dropIdleEnd components.dropLast))

example : (parent? "conf/lexicon.toml".toList).map String.ofList = some "conf" := by decide

example : (parent? "lexicon.toml".toList).map String.ofList = some "" := by decide

end Codebook.FileName
