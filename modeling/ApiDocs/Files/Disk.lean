import ApiDocs.Files.Spot

/-!
# Disks

A `Disk` is a file tree together with the current directory, from which relative paths start. Its
operations follow a path segment by segment, so that a name must exist before one can go on from
it or back up, and fail with the reasons that a file system gives. Of the rights that a file system
knows, the tree has those to read a file and to list or enter a directory.
-/

namespace ApiDocs

/-- A file tree and the place of the current directory in it. -/
structure Disk where
  root : Node
  here : List String

namespace Disk

/-! ### Following paths -/

/-- Goes one segment on. A slash at the end of a path does not enter the directory before it. -/
def step (s : Spot) (segment : String) : Except DiskError Spot :=
  match s.node with
  | .file .. => .error .notADirectory
  | .lost cause => .error cause
  | .dir _ _ closed =>
    if segment = "" then .ok s
    else if let some cause := closed then .error cause
    else if segment = "." then .ok s
    else if segment = ".." then .ok s.up
    else if Path.nameTooLong segment then .error .nameTooLong
    else
      match s.down? segment with
      | some child => .ok child
      | none => .error .notFound

/-- Goes along segments. -/
def follow (s : Spot) : List String → Except DiskError Spot
  | [] => .ok s
  | segment :: rest =>
    match step s segment with
    | .error e => .error e
    | .ok s => follow s rest

/-- The spot that a path starts from; some paths cannot be followed at all. -/
def startOf (d : Disk) (path : String) : Except DiskError Spot :=
  if '\x00' ∈ path.toList then .error .invalidName
  else if path.isEmpty then .error .notFound
  else if Path.tooLong path then .error .nameTooLong
  else
    match (Spot.top d.root).descend? (if Path.isAbsolute path then [] else d.here) with
    | some s => .ok s
    | none => .error .notFound

/-- The spot that a path names, which may be a name that leads nowhere. -/
def findName (d : Disk) (path : String) : Except DiskError Spot :=
  match d.startOf path with
  | .error e => .error e
  | .ok s => follow s (Path.segments path)

/-- The spot that a path leads to. -/
def find (d : Disk) (path : String) : Except DiskError Spot :=
  match d.findName path with
  | .error e => .error e
  | .ok s =>
    match s.node with
    | .lost cause => .error cause
    | _ => .ok s

/-- The node that a path leads to. -/
def node? (d : Disk) (path : String) : Option Node :=
  match d.find path with
  | .error _ => none
  | .ok s => some s.node

/-- Whether a path leads to something. -/
def exists? (d : Disk) (path : String) : Bool := (d.node? path).isSome

/-- Whether a path names something, even if the name leads nowhere. -/
def isName (d : Disk) (path : String) : Bool := (d.findName path).isOk

/-- Whether a path leads to a directory. -/
def isDir (d : Disk) (path : String) : Bool := (d.node? path).any (·.isDir)

/-- Whether a path leads to a file. -/
def isFile (d : Disk) (path : String) : Bool := (d.node? path).any (!·.isDir)

/-- The directory that a path leads to, if it can be listed. -/
def readDir (d : Disk) (path : String) : Except DiskError Node :=
  match d.find path with
  | .error e => .error e
  | .ok s =>
    match s.node with
    | .dir es none closed => .ok (.dir es none closed)
    | .dir _ (some cause) _ => .error cause
    | _ => .error .notADirectory

/-- The content of the file that a path leads to. -/
def read (d : Disk) (path : String) : Except DiskError ByteArray :=
  match d.find path with
  | .error e => .error e
  | .ok s =>
    match s.node with
    | .file bytes none => .ok bytes
    | .file _ (some cause) | .lost cause => .error cause
    | .dir _ unlisted _ => .error (unlisted.getD .isADirectory)

/-! ### Changes -/

/-- The segments of a path before the last one, the last one, and whether a slash follows it. -/
def splitLast (path : String) : List String × String × Bool :=
  let backwards := (Path.segments path).reverse
  let slash := backwards.head? = some ""
  match backwards.dropWhile (· = "") with
  | [] => ([], "", slash)
  | last :: before => (before.reverse, last, slash)

/-- The directory in which the last segment of a path is to be made, and its entries. -/
def findParent (d : Disk) (path : String) : Except DiskError (Spot × List (String × Node)) :=
  match d.startOf path with
  | .error e => .error e
  | .ok s =>
    match follow s (splitLast path).1 with
    | .error e => .error e
    | .ok s =>
      match s.node with
      | .dir es _ none => .ok (s, es)
      | .dir _ _ (some cause) | .lost cause => .error cause
      | .file .. => .error .notADirectory

/-- Sets an entry of the directory at a spot. -/
def setEntry (d : Disk) (s : Spot) (name : String) (n : Node) : Disk :=
  { d with root := s.replace (s.node.setChild name n) }

/-- Makes a directory. -/
def makeDir (d : Disk) (path : String) : Except DiskError Disk :=
  match d.findParent path with
  | .error e => .error e
  | .ok (s, es) =>
    let name := (splitLast path).2.1
    if name = "" ∨ name = "." ∨ name = ".." then .error .alreadyExists
    else if Path.nameTooLong name then .error .nameTooLong
    else if (es.lookup name).isSome then .error .alreadyExists
    else .ok (d.setEntry s name (.dir []))

/-- Makes a directory unless it is there. -/
def ensureDir (d : Disk) (path : String) : Except DiskError Disk :=
  match d.makeDir path with
  | .ok d => .ok d
  | .error e => if d.isDir path then .ok d else .error e

/-- Makes a directory with all directories above it, as far as they are missing; `fuel` bounds
the number of directories above. -/
def makeDirsUpTo : Nat → Disk → String → Except DiskError Disk
  | 0, d, path => d.ensureDir path
  | fuel + 1, d, path =>
    if path.isEmpty then .ok d
    else
      match d.makeDir path with
      | .ok d => .ok d
      | .error .notFound =>
        match Path.parent? path with
        | none => .error .notFound
        | some above =>
          match makeDirsUpTo fuel d above with
          | .error e => .error e
          | .ok d => d.ensureDir path
      | .error e => if d.isDir path then .ok d else .error e

/-- Makes a directory with all directories above it, as far as they are missing. -/
def makeDirs (d : Disk) (path : String) : Except DiskError Disk :=
  makeDirsUpTo (Path.segments path).length d path

/-- Writes a file, which may exist. A link to something that is missing is a file from then on. -/
def write (d : Disk) (path : String) (content : String) : Except DiskError Disk :=
  match d.findParent path with
  | .error e => .error e
  | .ok (s, es) =>
    let (_, name, slash) := splitLast path
    if slash ∨ name = "" ∨ name = "." ∨ name = ".." then .error .isADirectory
    else if Path.nameTooLong name then .error .nameTooLong
    else
      match es.lookup name with
      | some (.dir ..) => .error .isADirectory
      | some (.file _ unreadable) =>
        .ok (d.setEntry s name (.file content.toUTF8 unreadable))
      | some (.lost .notFound) | none => .ok (d.setEntry s name (.file content.toUTF8))
      | some (.lost cause) => .error cause

end Disk

end ApiDocs
