/-!
# Command line arguments

`Options.parse` reads the arguments of a run. Options with a value take it from the same argument
(`-ovalue`, `-o=value`, `--outputdir=value`) or from the next one, which then must not begin with
a hyphen. Short flags can be joined. Each option may be given once, except for the one that asks
for more diagnostics. After two hyphens alone everything is an input.
-/

namespace ApiDocs.Cli

/-- What a run is asked to do. -/
structure Options where
  /-- The source trees, as paths or patterns. -/
  inputs : List String := []
  outputDir : String := "out"
  modelFile : String := "parsed.json"
  extension : String := ".js"
  /-- The version of the documented project. -/
  version : String := ""
  /-- The version of the library that the project builds on. -/
  libraryVersion : Option String := none
  showPrivate : Bool := false
  classMap : Bool := false
  classPages : Bool := false
  highlight : Bool := false
  highlightExtension : String := ".highlighted"
  /-- How often more diagnostics were asked for. -/
  verbosity : Nat := 0
  quiet : Bool := false
  deriving DecidableEq, Repr

/-- Why the arguments do not give options. -/
inductive Refusal where
  /-- The arguments ask for help. -/
  | help
  | usage
  deriving DecidableEq, Repr

/-- The options that take a value. -/
inductive Setting where
  | outputDir
  | modelFile
  | extension
  | version
  | libraryVersion
  | highlightExtension
  deriving DecidableEq, Repr

/-- The options without a value. -/
inductive Flag where
  | showPrivate
  | classMap
  | classPages
  | highlight
  | verbose
  | quiet
  | help
  deriving DecidableEq, Repr

/-- An option. -/
inductive Opt where
  | setting (s : Setting)
  | flag (f : Flag)
  deriving DecidableEq, Repr

/-- The options by their long names. -/
def longNames : List (String × Opt) := [
  ("outputdir", .setting .outputDir), ("file", .setting .modelFile),
  ("extension", .setting .extension), ("version", .setting .version),
  ("yuiversion", .setting .libraryVersion), ("newextension", .setting .highlightExtension),
  ("showprivate", .flag .showPrivate), ("classmap", .flag .classMap),
  ("pages", .flag .classPages), ("highlight", .flag .highlight), ("verbose", .flag .verbose),
  ("quiet", .flag .quiet), ("help", .flag .help)]

/-- The options by their short names. -/
def shortNames : List (Char × Opt) := [
  ('o', .setting .outputDir), ('f', .setting .modelFile), ('e', .setting .extension),
  ('v', .setting .version), ('Y', .setting .libraryVersion),
  ('n', .setting .highlightExtension), ('s', .flag .showPrivate), ('q', .flag .quiet),
  ('h', .flag .help)]

/-- The options read so far, and which of them were given. -/
structure Scan where
  options : Options := {}
  given : List Opt := []

namespace Scan

/-- Notes that an option was given. -/
def once (s : Scan) (o : Opt) : Except Refusal Scan :=
  if o ∈ s.given then .error .usage else .ok { s with given := o :: s.given }

/-- Sets an option with a value. The output directory must have a name. -/
def set (s : Scan) (setting : Setting) (value : String) : Except Refusal Scan :=
  match s.once (.setting setting) with
  | .error e => .error e
  | .ok s =>
    let o := s.options
    match setting with
    | .outputDir =>
      if value.isEmpty then .error .usage
      else .ok { s with options := { o with outputDir := value } }
    | .modelFile => .ok { s with options := { o with modelFile := value } }
    | .extension => .ok { s with options := { o with extension := value } }
    | .version => .ok { s with options := { o with version := value } }
    | .libraryVersion => .ok { s with options := { o with libraryVersion := some value } }
    | .highlightExtension => .ok { s with options := { o with highlightExtension := value } }

/-- Sets a flag. -/
def raise (s : Scan) (flag : Flag) : Except Refusal Scan :=
  let o := s.options
  match flag with
  | .help => .error .help
  | .verbose => .ok { s with options := { o with verbosity := o.verbosity + 1 } }
  | _ =>
    match s.once (.flag flag) with
    | .error e => .error e
    | .ok s =>
      .ok { s with options := match flag with
        | .showPrivate => { o with showPrivate := true }
        | .classMap => { o with classMap := true }
        | .classPages => { o with classPages := true }
        | .highlight => { o with highlight := true }
        | .quiet => { o with quiet := true }
        | .verbose | .help => o }

/-- Adds an input. -/
def input (s : Scan) (path : String) : Scan :=
  { s with options := { s.options with inputs := s.options.inputs ++ [path] } }

end Scan

/-- What has become of an argument: it is done with, or an option waits for its value. -/
inductive Progress where
  | done (s : Scan)
  | waiting (s : Scan) (setting : Setting)

/-- Reads joined short options. What follows an option with a value is its value. -/
def scanShort (s : Scan) : List Char → Except Refusal Progress
  | [] => .ok (.done s)
  | c :: rest =>
    match shortNames.lookup c with
    | none => .error .usage
    | some (.flag flag) =>
      match s.raise flag with
      | .error e => .error e
      | .ok s => scanShort s rest
    | some (.setting setting) =>
      match rest with
      | [] => .ok (.waiting s setting)
      | '=' :: value => (s.set setting (.ofList value)).map .done
      | value => (s.set setting (.ofList value)).map .done

/-- Reads a long option, given without its hyphens. -/
def scanLong (s : Scan) (cs : List Char) : Except Refusal Progress :=
  let name := String.ofList (cs.takeWhile (· ≠ '='))
  let value := cs.dropWhile (· ≠ '=')
  match longNames.lookup name, value with
  | none, _ => .error .usage
  | some (.flag flag), [] => (s.raise flag).map .done
  | some (.flag _), _ :: _ => .error .usage
  | some (.setting setting), [] => .ok (.waiting s setting)
  | some (.setting setting), _ :: value => (s.set setting (.ofList value)).map .done

/-- Reads one argument. -/
def scanArg (s : Scan) (arg : String) : Except Refusal Progress :=
  match arg.toList with
  | '-' :: '-' :: cs => scanLong s cs
  | '-' :: c :: cs => scanShort s (c :: cs)
  | _ => .ok (.done (s.input arg))

/-- Whether an argument can be the value of the option before it. -/
def isValue (arg : String) : Bool := arg = "-" || arg.toList.head? != some '-'

/-- Reads arguments, the first of which may be the value of an option that waits for it. -/
def scan (s : Scan) (waiting : Option Setting) : List String → Except Refusal Scan
  | [] => if waiting.isSome then .error .usage else .ok s
  | arg :: rest =>
    match waiting with
    | some setting =>
      if isValue arg then
        match s.set setting arg with
        | .error e => .error e
        | .ok s => scan s none rest
      else .error .usage
    | none =>
      if arg = "--" then .ok (rest.foldl Scan.input s)
      else
        match scanArg s arg with
        | .error e => .error e
        | .ok (.done s) => scan s none rest
        | .ok (.waiting s setting) => scan s (some setting) rest

/-- Reads the arguments of a run. There must be an input. -/
def Options.parse (args : List String) : Except Refusal Options :=
  match scan {} none args with
  | .error e => .error e
  | .ok s => if s.options.inputs.isEmpty then .error .usage else .ok s.options

end ApiDocs.Cli
