import ApiDocs.Files.Path
import ApiDocs.Text.Case

/-!
# File trees

A file tree is a file or a directory of named trees, in no particular order. Some of it may be out
of reach: a file that cannot be read, a directory that cannot be listed or entered, or a name that
leads nowhere. Such a place carries the `DiskError` that one meets there. A link stands for what it
leads to, as often as it can be followed.

`Node.sources` walks a tree for the files of a given extension: the files of a directory come
before those of its subdirectories, both in order of their names. The first directory that cannot
be listed ends the walk.
-/

namespace ApiDocs

/-- Why an operation on a disk fails. -/
inductive DiskError where
  | notFound
  | alreadyExists
  | notADirectory
  | isADirectory
  /-- The right to read a file, or to list or enter a directory, is missing. -/
  | permissionDenied
  /-- A link that leads to itself. -/
  | tooManyLinks
  /-- A name in the path, or the path itself, is too long. -/
  | nameTooLong
  /-- A path with a NUL in it. -/
  | invalidName
  /-- Any other reason, in the words of the system. -/
  | other (text : String)
  deriving DecidableEq, Repr

/-- The wording of a failure. -/
def DiskError.message : DiskError → String
  | notFound => "No such file or directory (os error 2)"
  | alreadyExists => "File exists (os error 17)"
  | notADirectory => "Not a directory (os error 20)"
  | isADirectory => "Is a directory (os error 21)"
  | permissionDenied => "Permission denied (os error 13)"
  | tooManyLinks => "Too many levels of symbolic links (os error 40)"
  | nameTooLong => "File name too long (os error 36)"
  | invalidName => "file name contained an unexpected NUL byte"
  | other text => text

/-- What a name in a directory leads to. -/
inductive Node where
  /-- A file; `unreadable` says why it cannot be read, if it cannot. -/
  | file (bytes : ByteArray) (unreadable : Option DiskError := none)
  /-- A directory; `unlisted` says why its entries cannot be listed and `closed` why none of them
  can be reached, if they cannot. -/
  | dir (entries : List (String × Node)) (unlisted closed : Option DiskError := none)
  /-- Nothing: the name is that of a link that cannot be followed. -/
  | lost (cause : DiskError)

namespace Node

/-- Whether a node is a directory. -/
def isDir : Node → Bool
  | dir .. => true
  | _ => false

/-- The entries of a directory; nothing else has any. -/
def entries : Node → List (String × Node)
  | dir es _ _ => es
  | _ => []

/-- The node at a place below another. -/
def at? (n : Node) : List String → Option Node
  | [] => some n
  | name :: rest =>
    match n.entries.lookup name with
    | none => none
    | some child => child.at? rest

/-- Replaces the entry of a name, or adds it at the end. -/
def setEntry (name : String) (child : Node) : List (String × Node) → List (String × Node)
  | [] => [(name, child)]
  | e :: rest => if e.1 = name then (name, child) :: rest else e :: setEntry name child rest

/-- Replaces an entry of a directory, or adds it at the end. -/
def setChild (n : Node) (name : String) (child : Node) : Node :=
  match n with
  | dir es unlisted closed => dir (setEntry name child es) unlisted closed
  | _ => n

/-- Puts a node at a place below another; missing directories on the way are created. -/
def put (n : Node) : List String → Node → Node
  | [], new => new
  | name :: rest, new =>
    n.setChild name (put ((n.entries.lookup name).getD (dir [])) rest new)

/-! ### Trees as seen from a path -/

mutual

/-- The tree with `stub` in the place of every directory below it that cannot be reached, either
because its path is too long to be followed or because it is in a closed directory; `path` gives
the path of an entry. -/
def prune (stub : Node) (path : String → String) : Node → Node
  | dir es unlisted closed => dir (pruneIn stub path closed.isSome es) unlisted closed
  | n => n

/-- The entries of a directory, pruned. -/
def pruneIn (stub : Node) (path : String → String) (closed : Bool) :
    List (String × Node) → List (String × Node)
  | [] => []
  | (name, n) :: rest =>
    (name, if n.isDir && (closed || Path.tooLong (path name)) then stub
      else prune stub (Path.join (path name)) n) :: pruneIn stub path closed rest

end

/-! ### Walking a tree -/

/-- Whether a file name ends with an extension, upper and lower case being the same. -/
def hasExtension (extension name : String) : Bool :=
  (Text.lower extension).toList.isSuffixOf (Text.lower name).toList

/-- A directory that the walk comes to and that cannot be listed. -/
structure Unlisted where
  path : String
  cause : DiskError
  deriving DecidableEq, Repr

/-- What an entry of a directory contributes to the walk: a directory contributes the files found
below it, and anything else is counted as a file or not. -/
inductive Found where
  | file (counted : Bool)
  | dir (below : Except Unlisted (List String))

/-- The files below the directories among the entries of a directory, up to the first of them that
could not be walked through. -/
def gatherBelow : List (String × Found) → Except Unlisted (List String)
  | [] => .ok []
  | (_, .file _) :: rest => gatherBelow rest
  | (_, .dir below) :: rest =>
    match below with
    | .error e => .error e
    | .ok files => (gatherBelow rest).map (files ++ ·)

/-- What the entries of a directory contribute, put together: the counted files first, then what
is below the directories, both by name. -/
def gather (path : String) (parts : List (String × Found)) : Except Unlisted (List String) :=
  let sorted := parts.mergeSort fun a b => a.1 ≤ b.1
  let own := sorted.filterMap fun
    | (name, .file true) => some (Path.join path name)
    | _ => none
  (gatherBelow sorted).map (own ++ ·)

mutual

/-- The paths of the files of an extension below a directory, which has the given path. -/
def sources (extension path : String) : Node → Except Unlisted (List String)
  | dir _ (some cause) _ => .error ⟨path, cause⟩
  | dir es none _ => gather path (foundIn extension path es)
  | _ => .ok []

/-- What each entry of a directory contributes. -/
def foundIn (extension path : String) : List (String × Node) → List (String × Found)
  | [] => []
  | (name, n) :: rest =>
    (name, if n.isDir then .dir (sources extension (Path.join path name) n)
      else .file (hasExtension extension name)) :: foundIn extension path rest

end

mutual

/-- Everything that listings show below a directory: path, name, and whether it is a
directory. -/
def descendants (path : String → String) : Node → List (String × String × Bool)
  | dir es none _ => descendantsIn path es
  | _ => []

/-- The entries of a directory and everything below them. -/
def descendantsIn (path : String → String) : List (String × Node) → List (String × String × Bool)
  | [] => []
  | (name, n) :: rest =>
    (path name, name, n.isDir) :: descendants (Path.join (path name)) n
      ++ descendantsIn path rest

end

mutual

/-- The files at and below a node with their places, below the place of the node. -/
def files (place : List String) : Node → List (List String × ByteArray)
  | file bytes _ => [(place, bytes)]
  | dir es _ _ => filesIn place es
  | lost _ => []

/-- The files at and below the entries of a directory. -/
def filesIn (place : List String) : List (String × Node) → List (List String × ByteArray)
  | [] => []
  | (name, n) :: rest => files (place ++ [name]) n ++ filesIn place rest

end

mutual

/-- The directories at and below a node. -/
def dirs (place : List String) : Node → List (List String)
  | dir es _ _ => place :: dirsIn place es
  | _ => []

/-- The directories at and below the entries of a directory. -/
def dirsIn (place : List String) : List (String × Node) → List (List String)
  | [] => []
  | (name, n) :: rest => dirs (place ++ [name]) n ++ dirsIn place rest

end

end Node

end ApiDocs
