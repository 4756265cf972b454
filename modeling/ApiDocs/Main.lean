import ApiDocs.Cli.Reach
import ApiDocs.Cli.Run

/-!
# The program

The outer layer of the program: it fetches the part of the file system that a run looks at, runs,
writes back what has changed, and prints. Everything else is decided by `Cli.run`.
-/

open ApiDocs ApiDocs.Cli

namespace ApiDocs

/-- The absolute path of a place. -/
def pathOf (place : List String) : String := "/" ++ "/".intercalate place

/-- The place as an entry of the directory above it. -/
def entryOf (place : List String) : IO.FS.DirEntry :=
  { root := pathOf place.dropLast, fileName := place.getLastD "" }

/-- The reason for an error of the system. -/
def DiskError.ofSystem : IO.Error → DiskError
  | .noFileOrDirectory .. => .notFound
  | .permissionDenied .. => .permissionDenied
  | .inappropriateType .. => .notADirectory
  | .invalidArgument _ code text =>
    -- Some operations of the system give the number of an error negated.
    match min code (-code) with
    | 36 => .nameTooLong
    | 40 => .tooManyLinks
    | code => .other s!"{text} (os error {code})"
  | e => .other (toString e)

/-- The result of an action, or the reason why it fails. -/
def attempt {α : Type} (act : IO α) : IO (Except DiskError α) := do
  try
    return .ok (← act)
  catch e => return .error (.ofSystem e)

/-- The reason why an action fails, if it does. -/
def refusal? {α : Type} (act : IO α) : IO (Option DiskError) := do
  match ← attempt act with
  | .error cause => return some cause
  | .ok _ => return none

/-- What an entry of a directory leads to; of a directory only the topmost node if it is not to be
read in depth. Links are followed as far as the system follows them, and what cannot be read, listed
or entered keeps the reason. -/
partial def fetch (deep : Bool) (e : IO.FS.DirEntry) : IO Node := do
  match ← attempt e.path.metadata with
  | .error cause => return .lost cause
  | .ok info =>
    if info.type != .dir then
      match ← attempt (IO.FS.readBinFile e.path) with
      | .error cause => return .file .empty cause
      | .ok bytes => return .file bytes
    let closed ← refusal? (e.path / ".").metadata
    match ← attempt e.path.readDir with
    | .error cause => return .dir [] cause closed
    | .ok below =>
      let below := if deep then below.toList else []
      return .dir (← below.mapM fun e => return (e.fileName, ← fetch deep e)) none closed

/-- Adds what is at a place to a tree, unless there is nothing, not even a link. -/
def addPlace (deep : Bool) (root : Node) (place : List String) : IO Node := do
  if !deep && (root.at? place).isSome then return root
  if (← refusal? (entryOf place).path.symlinkMetadata).isSome then return root
  return root.put place (← fetch deep (entryOf place))

/-- Adds what is on a route and below its end to a tree. -/
def addRoute (root : Node) (route : List (List String)) : IO Node := do
  let root ← route.foldlM (addPlace false) root
  route.getLast?.toList.foldlM (addPlace true) root

/-- Makes the directories and writes the files of a tree that another one lacks. -/
def save (before after : Node) : IO Unit := do
  for place in after.dirs [] do
    if (before.at? place).isNone then IO.FS.createDirAll (pathOf place)
  for (place, bytes) in after.files [] do
    match before.at? place with
    | some (.file old _) => if old != bytes then IO.FS.writeBinFile (pathOf place) bytes
    | _ => IO.FS.writeBinFile (pathOf place) bytes

end ApiDocs

/-- Runs the program in the current directory. -/
def main (args : List String) : IO UInt32 := do
  let here := (Path.segments (← IO.currentDir).toString).filter (!·.isEmpty)
  let routes := match Options.parse args with
    | .ok o => o.routes here
    | .error _ => []
  let root ← routes.foldlM addRoute (.dir [])
  let report := run args { root, here }
  save root report.disk.root
  IO.print report.stdout
  IO.eprint report.stderr
  return report.exitCode
