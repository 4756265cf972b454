/-!
# Paths

A path is a text; slashes divide it into segments. Empty segments and single dots say nothing,
except that a leading dot is kept. `components` is a path without such differences of spelling:
two paths are the same if their components are, and listings are ordered by components.
-/

namespace ApiDocs.Path

/-- The parts of a text between its slashes. -/
def splitSlash : List Char → List (List Char)
  | [] => [[]]
  | c :: rest =>
    if c = '/' then [] :: splitSlash rest
    else
      match splitSlash rest with
      | [] => [[c]]
      | part :: parts => (c :: part) :: parts

/-- The segments of a path; empty ones count. -/
def segments (path : String) : List String := (splitSlash path.toList).map String.ofList

/-- Whether a path starts at the root. -/
def isAbsolute (path : String) : Bool := path.toList.head? == some '/'

/-- A part of a path that says something. -/
inductive Component where
  | root
  /-- The directory that a relative path starts at. -/
  | here
  /-- The directory above. -/
  | up
  | name (s : String)
  deriving DecidableEq, Repr

/-- The component of a segment, if it says something. -/
def Component.ofSegment? (segment : String) : Option Component :=
  if segment = "" ∨ segment = "." then none
  else if segment = ".." then some .up
  else some (.name segment)

/-- The components of a path. -/
def components (path : String) : List Component :=
  let parts := (segments path).filterMap Component.ofSegment?
  if isAbsolute path then .root :: parts
  else if (segments path).head? = some "." then .here :: parts
  else parts

/-- The rank of a component in listings. -/
def Component.rank : Component → Nat
  | root => 0
  | here => 1
  | up => 2
  | name _ => 3

/-- Whether a component goes before another one. -/
def Component.lt : Component → Component → Bool
  | name a, name b => a < b
  | a, b => a.rank < b.rank

/-- The order of listings on components, the first difference deciding. -/
def componentsLE : List Component → List Component → Bool
  | [], _ => true
  | _ :: _, [] => false
  | a :: as, b :: bs => if a = b then componentsLE as bs else a.lt b

/-- The order of paths in listings. -/
def le (a b : String) : Bool := componentsLE (components a) (components b)

/-- A path below a directory; an absolute path stays as it is. -/
def join (dir path : String) : String :=
  if isAbsolute path then path
  else if dir.isEmpty || dir.toList.getLast? = some '/' then dir ++ path
  else dir ++ "/" ++ path

/-- The name that a path ends with, if it ends with one. -/
def fileName? (path : String) : Option String :=
  match (components path).getLast? with
  | some (.name s) => some s
  | _ => none

/-- The segments of a path from the last one on, each with whether it says something. -/
def markedSegments (path : String) : List (String × Bool) :=
  let parts := segments path
  let saysLater := parts.map fun s => (s, (Component.ofSegment? s).isSome)
  match saysLater with
  | (".", _) :: rest => ((".", true) :: rest).reverse
  | other => other.reverse

/-- The path without its last component; the root and the empty path have none above. -/
def parent? (path : String) : Option String :=
  match (markedSegments path).dropWhile (!·.2) with
  | [] => none
  | _ :: above =>
    match ((above.dropWhile (!·.2)).map (·.1)).reverse with
    | [] => some (if isAbsolute path then "/" else "")
    | parts => some ("/".intercalate parts)

/-! ### Limits -/

/-- Whether a path is too long to be followed: it may take up 4095 bytes. -/
def tooLong (path : String) : Bool := 4095 < path.utf8ByteSize

/-- Whether a name is too long to be looked up: it may take up 255 bytes. -/
def nameTooLong (name : String) : Bool := 255 < name.utf8ByteSize

/-! ### Places -/

/-- Goes one segment on from a place, which is given by the names on the way to it from the
root. -/
def onward (place : List String) (segment : String) : List String :=
  if segment = "" ∨ segment = "." then place
  else if segment = ".." then place.dropLast
  else place ++ [segment]

/-- The places on the way along segments, both ends included. -/
def routeFrom (place : List String) : List String → List (List String)
  | [] => [place]
  | segment :: rest => place :: routeFrom (onward place segment) rest

end ApiDocs.Path
