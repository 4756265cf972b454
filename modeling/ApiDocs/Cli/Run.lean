import ApiDocs.Cli.Args
import ApiDocs.Files.Glob
import ApiDocs.Page.Basic
import ApiDocs.Page.Highlight
import ApiDocs.Session.Script
import ApiDocs.Model.ChangeEvent
import ApiDocs.Text.Bytes

/-!
# A run

`run` is the whole program as a function: from the arguments and the disk it gives the exit code,
what is written to the two channels, and the disk afterwards. All sources are read before
anything is written, so that a run that fails on its sources leaves the disk as it was.
-/

namespace ApiDocs.Cli

/-- Why a run fails. -/
inductive Failure where
  | badPattern (pattern : String) (e : Glob.PatternError)
  | noRoots
  | unreadableDir (path : String) (e : DiskError)
  | unreadableFile (path : String) (e : DiskError)
  | unplacedComment (root : String) (fault : Fault)
  | noOutputDir (path : String) (e : DiskError)
  | noPageDir (path : String) (e : DiskError)
  | unwritten (path : String) (e : DiskError)

namespace Failure

/-- What failed. -/
def message : Failure → String
  | badPattern pattern _ => s!"invalid glob pattern: {pattern}"
  | noRoots => "no input roots found"
  | unreadableDir path _ => s!"failed to read directory: {path}"
  | unreadableFile path _ => s!"failed to read {path}"
  | unplacedComment root _ => s!"failed to parse {root}"
  | noOutputDir path _ => s!"failed to create output directory: {path}"
  | noPageDir path _ => s!"failed to create directory: {path}"
  | unwritten path _ => s!"failed to write {path}"

/-- Why it failed, if there is more to say. -/
def cause? : Failure → Option String
  | badPattern _ e => some e.message
  | noRoots => none
  | unplacedComment _ fault => some fault.message
  | unreadableDir _ e | unreadableFile _ e | noOutputDir _ e | noPageDir _ e | unwritten _ e =>
    some e.message

/-- A text with every line but the first indented. -/
def indentLines (text : String) : String :=
  .ofList (text.toList.flatMap fun c => if c = '\n' then ['\n', ' ', ' ', ' ', ' '] else [c])

/-- The report of a failure, at the end of the diagnostics. -/
def report (f : Failure) : String :=
  match f.cause? with
  | none => "Error: " ++ f.message ++ "\n"
  | some cause =>
    "Error: " ++ f.message ++ "\n\nCaused by:\n    " ++ indentLines cause ++ "\n"

end Failure

/-! ### Finding and reading the sources -/

/-- The paths that an input stands for: a path that exists, or the matches of a pattern in
order. -/
def matchInput (d : Disk) (input : String) : Except Failure (List String) :=
  if d.exists? input then .ok [input]
  else
    match Glob.expand d input with
    | .error e => .error (.badPattern input e)
    | .ok paths => .ok (paths.mergeSort Path.le)

/-- The roots that the inputs stand for, and the notes about inputs without any. -/
def matchInputs (d : Disk) : List String → List Note × Except Failure (List String)
  | [] => ([], .ok [])
  | input :: rest =>
    match matchInput d input with
    | .error e => ([], .error e)
    | .ok paths =>
      let tail := matchInputs d rest
      (if paths.isEmpty then .noInputs input :: tail.1 else tail.1, tail.2.map (paths ++ ·))

/-- The paths without those that only spell an earlier one differently. -/
def distinctPaths (seen : List (List Path.Component)) : List String → List String
  | [] => []
  | path :: rest =>
    if Path.components path ∈ seen then distinctPaths seen rest
    else path :: distinctPaths (Path.components path :: seen) rest

/-- The sources of a root: the root itself if it is a file, or else the files below it, all of
whose directories must be listed. A directory that cannot be reached is taken for a file. -/
def sourcePaths (d : Disk) (extension root : String) : Except Failure (List String) :=
  if d.isFile root then .ok [root]
  else
    match d.readDir root with
    | .error e => .error (.unreadableDir root e)
    | .ok n =>
      match (Node.prune (.file .empty) (Path.join root) n).sources extension root with
      | .error e => .error (.unreadableDir e.path e.cause)
      | .ok paths => .ok paths

/-- Reads a source file. -/
def readSource (d : Disk) (path : String) : Except Failure Source :=
  match d.read path with
  | .error e => .error (.unreadableFile path e)
  | .ok bytes =>
    .ok { name := (Path.fileName? path).getD path, path, text := Text.decode bytes.toList }

/-- Reads source files. -/
def readSources (d : Disk) : List String → Except Failure (List Source)
  | [] => .ok []
  | path :: rest =>
    match readSource d path with
    | .error e => .error e
    | .ok f => (readSources d rest).map (f :: ·)

/-- Reads the sources of a root into the session. -/
def readRoot (d : Disk) (extension : String) (s : Session) (root : String) :
    Session × Except Failure (List Source) :=
  match sourcePaths d extension root with
  | .error e => (s, .error e)
  | .ok paths =>
    let s := if paths.isEmpty then s.log [.noSources extension root] else s
    match readSources d paths with
    | .error e => (s, .error e)
    | .ok files =>
      match s.readRoot files with
      | (s, .ok ()) => (s, .ok files)
      | (s, .error fault) => (s, .error (.unplacedComment root fault))

/-- Reads the sources of the roots, one root after the other. -/
def readRoots (d : Disk) (extension : String) (s : Session) :
    List String → Session × Except Failure (List Source)
  | [] => (s, .ok [])
  | root :: rest =>
    match readRoot d extension s root with
    | (s, .error e) => (s, .error e)
    | (s, .ok files) =>
      let tail := readRoots d extension s rest
      (tail.1, tail.2.map (files ++ ·))

/-- Finds and reads all sources of a run. -/
def readAll (d : Disk) (o : Options) : Session × Except Failure (List Source) :=
  let start := Session.start o.version (majorVersion o.libraryVersion o.version)
  let found := matchInputs d o.inputs
  let s := start.log found.1
  match found.2 with
  | .error e => (s, .error e)
  | .ok [] => (s, .error .noRoots)
  | .ok roots => readRoots d o.extension s (distinctPaths [] roots)

/-! ### Writing the outputs -/

/-- Makes the directory that a page goes to. -/
def makePageDir (d : Disk) (path : String) : Except Failure Disk :=
  match Path.parent? path with
  | none => .ok d
  | some above =>
    match d.makeDirs above with
    | .error e => .error (.noPageDir above e)
    | .ok d => .ok d

/-- Writes a page below the output directory. The second part says whether it was written; a
directory that was made for it stays in either case. -/
def writePage (d : Disk) (dir : String) (page : Page) : Disk × Except Failure Unit :=
  let path := Path.join dir page.path
  match makePageDir d path with
  | .error e => (d, .error e)
  | .ok d =>
    match d.write path page.content with
    | .error e => (d, .error (.unwritten path e))
    | .ok d => (d, .ok ())

/-- Writes pages up to the first failure. -/
def writePages (d : Disk) (dir : String) : List Page → Disk × Except Failure Unit
  | [] => (d, .ok ())
  | page :: rest =>
    match writePage d dir page with
    | (d, .error e) => (d, .error e)
    | (d, .ok ()) => writePages d dir rest

/-- Writes outputs up to the first failure. -/
def writeOutputs (o : Options) (m : Model) (d : Disk) (notes : List Note) :
    List Output → Disk × List Note × Except Failure Unit
  | [] => (d, notes, .ok ())
  | output :: rest =>
    let made := output.pages { modelFile := o.modelFile, showPrivate := o.showPrivate } m
    match writePages d o.outputDir made.1 with
    | (d, .error e) => (d, notes ++ made.2, .error e)
    | (d, .ok ()) => writeOutputs o m d (notes ++ made.2) rest

/-- The note about a source that cannot be shown. -/
def highlightNotes (f : Source) : List Note :=
  match Highlight.markup f.path f.text with
  | .ok _ => []
  | .error reason => [.notHighlighted reason]

/-- Writes highlighted copies of sources up to the first failure. -/
def writeHighlights (o : Options) (d : Disk) (notes : List Note) :
    List Source → Disk × List Note × Except Failure Unit
  | [] => (d, notes, .ok ())
  | f :: rest =>
    let path := Path.join o.outputDir (f.name ++ o.highlightExtension)
    match d.write path (Highlight.page f.path f.text) with
    | .error e => (d, notes ++ highlightNotes f, .error (.unwritten path e))
    | .ok d => writeHighlights o d (notes ++ highlightNotes f) rest

/-- The outputs that are asked for. -/
def Options.outputs (o : Options) : List Output :=
  [.model] ++ (if o.classMap then [.classMap] else []) ++
    (if o.classPages then [.classPages] else [])

/-- Writes everything that is asked for. -/
def writeAll (d : Disk) (o : Options) (s : Session) (files : List Source) :
    Disk × List Note × Except Failure Unit :=
  let count := s.context.warnings.length
  let notes := if count = 0 then s.notes else s.notes ++ [.warningCount count]
  match d.makeDirs o.outputDir with
  | .error e => (d, notes, .error (.noOutputDir o.outputDir e))
  | .ok d =>
    match writeOutputs o s.model d notes o.outputs with
    | (d, notes, .error e) => (d, notes, .error e)
    | (d, notes, .ok ()) =>
      if o.highlight then writeHighlights o d notes files else (d, notes, .ok ())

/-! ### The whole -/

/-- The least grave rank of notes that are shown. -/
def Options.logRank (o : Options) : Nat :=
  if o.quiet then 0
  else if o.verbosity = 0 then Level.info.rank
  else if o.verbosity = 1 then Level.debug.rank
  else Level.trace.rank

/-- The log as it is shown. -/
def showLog (o : Options) (notes : List Note) : String :=
  String.join ((notes.filter fun n => n.level.rank ≤ o.logRank).map Note.line)

/-- What is left of a run. -/
structure Report where
  exitCode : UInt32
  stdout : String := ""
  stderr : String := ""
  disk : Disk

/-- How the program is called. -/
def usage : String :=
  "Usage: apidocs [OPTIONS] <INPUTS>...\n\n"
    ++ "  -o, --outputdir <DIR>      output directory [out]\n"
    ++ "  -f, --file <NAME>          name of the model file [parsed.json]\n"
    ++ "  -e, --extension <EXT>      read files ending in this only [.js]\n"
    ++ "  -v, --version <VERSION>    version of the documented project\n"
    ++ "  -Y, --yuiversion <VERSION> version of the documented library\n"
    ++ "  -s, --showprivate          show private classes and members\n"
    ++ "      --classmap             write classmap.json\n"
    ++ "      --pages                write a page for each class\n"
    ++ "      --highlight            write highlighted copies of the sources\n"
    ++ "  -n, --newextension <EXT>   suffix of highlighted copies [.highlighted]\n"
    ++ "      --verbose              more diagnostics\n"
    ++ "  -q, --quiet                no diagnostics\n"
    ++ "  -h, --help                 this text\n"

/-- Runs the program with options. -/
def runWith (o : Options) (d : Disk) : Report :=
  match readAll d o with
  | (s, .error e) =>
    { exitCode := 1, stderr := showLog o s.notes ++ e.report, disk := d }
  | (s, .ok files) =>
    match writeAll d o s files with
    | (d, notes, .error e) =>
      { exitCode := 1, stderr := showLog o notes ++ e.report, disk := d }
    | (d, notes, .ok ()) => { exitCode := 0, stderr := showLog o notes, disk := d }

/-- Runs the program. -/
def run (args : List String) (d : Disk) : Report :=
  match Options.parse args with
  | .error .help => { exitCode := 0, stdout := usage, disk := d }
  | .error .usage => { exitCode := 2, stderr := usage, disk := d }
  | .ok o => runWith o d

end ApiDocs.Cli
