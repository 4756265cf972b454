import ApiDocs.Files.Disk

/-!
# Path patterns

A pattern is a path with wildcards: a question mark stands for one character, a star for any
number of them, a set in brackets for one of its characters (or, after an exclamation mark, for
any other), and two stars as a segment of their own for any depth of directories. `expand` gives
the paths that match a pattern. A pattern that is not well formed gives a `PatternError`.
-/

namespace ApiDocs.Glob

/-- What is wrong with a pattern. -/
inductive PatternError.Cause where
  | tooManyStars
  | starsInName
  | badSet
  deriving DecidableEq, Repr

/-- A pattern that is not well formed, with the place of the mistake. -/
structure PatternError where
  position : Nat
  cause : PatternError.Cause
  deriving DecidableEq, Repr

/-- The wording for a mistake in a pattern. -/
def PatternError.message (e : PatternError) : String :=
  let what := match e.cause with
    | .tooManyStars => "wildcards are either regular `*` or recursive `**`"
    | .starsInName => "recursive wildcards must form a single path component"
    | .badSet => "invalid range pattern"
  s!"Pattern syntax error near position {e.position}: {what}"

/-- A member of a set of characters. -/
inductive SetItem where
  | one (c : Char)
  | range (lo hi : Char)
  deriving DecidableEq, Repr

/-- A part of a pattern. -/
inductive Token where
  | char (c : Char)
  | anyChar
  | anySequence
  /-- Any depth of directories. -/
  | anyDepth
  | within (items : List SetItem)
  | without (items : List SetItem)
  deriving DecidableEq, Repr

/-- The members of a set; a hyphen between two characters makes a range. -/
def setItems : List Char → List SetItem
  | lo :: '-' :: hi :: rest => .range lo hi :: setItems rest
  | c :: rest => .one c :: setItems rest
  | [] => []

/-- The set after an opening bracket, and the number of characters up to its closing bracket. The
first character of a set is a member whatever it is. -/
def set? (cs : List Char) : Option (Token × Nat) :=
  match cs with
  | '!' :: c :: rest =>
    match rest.findIdx? (· = ']') with
    | some n => some (.without (setItems (c :: rest.take n)), n + 3)
    | none => none
  | '!' :: [] => none
  | c :: rest =>
    match rest.findIdx? (· = ']') with
    | some n => some (.within (setItems (c :: rest.take n)), n + 2)
    | none => none
  | [] => none

/-- Whether two stars may begin after a character: at the start, or after a slash. -/
def startsSegment (before : Option Char) : Bool := before = none || before = some '/'

/-- The parts of a pattern from a position on; `before` is the character before it. -/
def parseFrom (position : Nat) (before : Option Char) (cs : List Char) :
    Except PatternError (List Token) :=
  match cs with
  | [] => .ok []
  | '?' :: rest => (parseFrom (position + 1) (some '?') rest).map (.anyChar :: ·)
  | '*' :: '*' :: '*' :: _ => .error ⟨position + 2, .tooManyStars⟩
  | '*' :: '*' :: rest =>
    if !startsSegment before then .error ⟨position - 1, .starsInName⟩
    else
      match rest with
      | [] => .ok [.anyDepth]
      | '/' :: rest' => (parseFrom (position + 3) (some '/') rest').map (.anyDepth :: ·)
      | _ => .error ⟨position + 2, .starsInName⟩
  | '*' :: rest => (parseFrom (position + 1) (some '*') rest).map (.anySequence :: ·)
  | '[' :: rest =>
    match set? rest with
    | some (token, n) => (parseFrom (position + 1 + n) (some ']') (rest.drop n)).map (token :: ·)
    | none => .error ⟨position, .badSet⟩
  | c :: rest => (parseFrom (position + 1) (some c) rest).map (.char c :: ·)
termination_by cs.length
decreasing_by all_goals simp only [List.length_cons, List.length_drop]; omega

/-- The parts of a pattern. -/
def parse (pattern : String) : Except PatternError (List Token) :=
  parseFrom 0 none pattern.toList

/-- Whether a character is in a set. -/
def inSet (items : List SetItem) (c : Char) : Bool :=
  items.any fun
    | .one d => c = d
    | .range lo hi => lo ≤ c && c ≤ hi

/-- Whether a character is one that a part of a pattern stands for. -/
def Token.accepts : Token → Char → Bool
  | char d, c => c = d
  | anyChar, _ => true
  | within items, c => inSet items c
  | without items, c => !inSet items c
  | anySequence, _ => true
  | anyDepth, _ => true

/-- The ends of a name, the whole name first. -/
def ends : List Char → List (List Char)
  | [] => [[]]
  | c :: cs => (c :: cs) :: ends cs

/-- What may be left of a name after a part of a pattern, if one of the given ends of the name, the
longest first, was left before it. -/
def Token.leave (t : Token) (left : List (List Char)) : List (List Char) :=
  match t with
  | anySequence =>
    match left with
    | [] => []
    | longest :: _ => ends longest
  | _ => left.filterMap fun
    | [] => none
    | c :: cs => if t.accepts c then some cs else none

/-- Whether a name matches the parts of a pattern: nothing may be left of it. -/
def matchesName (tokens : List Token) (name : List Char) : Bool :=
  (tokens.foldl (fun left t => t.leave left) [name]).any List.isEmpty

/-- A segment of a pattern. -/
inductive Segment where
  | literal (s : String)
  | wild (tokens : List Token)
  | anyDepth
  deriving DecidableEq, Repr

/-- The text of parts that are all plain characters. -/
def plainText? : List Token → Option (List Char)
  | [] => some []
  | .char c :: rest => (plainText? rest).map (c :: ·)
  | _ => none

/-- The segment that its parts make up. -/
def Segment.ofTokens (tokens : List Token) : Segment :=
  match plainText? tokens with
  | some cs => .literal (.ofList cs)
  | none => if tokens = [.anyDepth] then .anyDepth else .wild tokens

/-- Whether a name matches a segment. -/
def Segment.accepts : Segment → String → Bool
  | literal s, name => s = name
  | wild tokens, name => matchesName tokens name.toList
  | anyDepth, _ => true

/-- The segments of a pattern. -/
def parseSegments : List String → Except PatternError (List Segment)
  | [] => .ok []
  | part :: rest =>
    match parse part with
    | .error e => .error e
    | .ok tokens => (parseSegments rest).map (.ofTokens tokens :: ·)

/-- One segment for any depth does the work of several. -/
def collapse : List Segment → List Segment
  | .anyDepth :: .anyDepth :: rest => collapse (.anyDepth :: rest)
  | segment :: rest => segment :: collapse rest
  | [] => []

/-- The path of an entry: entries of the current directory are named without it. -/
def childPath (dir name : String) : String :=
  if Path.components dir = [.here] then name else Path.join dir name

/-- The special entries that a pattern with a leading dot may match. -/
def specialNames (tokens : List Token) : List String :=
  if tokens.head? = some (.char '.') then
    ["..", "."].filter fun name => matchesName tokens name.toList
  else []

/-- A path that has been reached, and whether it is a directory. -/
structure Reached where
  path : String
  isDir : Bool
  deriving DecidableEq, Repr

/-- What a path leads to. -/
def Reached.ofPath (d : Disk) (path : String) : Reached := ⟨path, d.isDir path⟩

/-- The directory that has been reached, if it can be listed. -/
def Reached.node? (d : Disk) (r : Reached) : Option Node :=
  if r.isDir then (d.readDir r.path).toOption else none

/-- The entries of a directory that match the parts of a pattern. The special ones come first, since
the first spelling of a path is the one that counts. -/
def Reached.matching (d : Disk) (tokens : List Token) (r : Reached) : List Reached :=
  match r.node? d with
  | none => []
  | some n =>
    let named := n.entries.filter fun e => matchesName tokens e.1.toList
    (specialNames tokens).map (fun name => .ofPath d (Path.join r.path name)) ++
      named.map fun e => ⟨childPath r.path e.1, e.2.isDir⟩

/-- Everything below a directory, each with its name. Directories that cannot be reached or listed
show no entries. -/
def Reached.descendants (d : Disk) (r : Reached) : List (String × Reached) :=
  match r.node? d with
  | none => []
  | some n =>
    let seen := Node.prune (.dir []) (childPath r.path) n
    (seen.descendants (childPath r.path)).map fun e => (e.2.1, ⟨e.1, e.2.2⟩)

/-- What matches segments below something that has been reached. With `onlyDirs` a match must be
a directory. -/
def below (d : Disk) (onlyDirs : Bool) : List Segment → Reached → List String
  | [], r => if !onlyDirs || r.isDir then [r.path] else []
  | .literal s :: rest, r =>
    let next := childPath r.path s
    let there := if s = "." ∨ s = ".." then r.isDir else d.isName next
    if there then below d onlyDirs rest (.ofPath d next) else []
  | .wild tokens :: rest, r => (r.matching d tokens).flatMap (below d onlyDirs rest)
  | [.anyDepth], r => ((r.descendants d).filter (·.2.isDir)).map (·.2.path)
  | .anyDepth :: segment :: rest, r =>
    ((r.descendants d).filter (segment.accepts ·.1)).flatMap fun e => below d onlyDirs rest e.2

/-- The parts of a pattern between its slashes, without the empty part after a last slash. -/
def patternParts (pattern : String) : List String :=
  let parts := Path.segments pattern
  if parts.getLast? = some "" then parts.dropLast else parts

/-- The paths that match a pattern. -/
def expand (d : Disk) (pattern : String) : Except PatternError (List String) :=
  match parse pattern with
  | .error e => .error e
  | .ok _ =>
    let absolute := Path.isAbsolute pattern
    let parts := if absolute then (patternParts pattern).drop 1 else patternParts pattern
    match parseSegments parts with
    | .error e => .error e
    | .ok segments =>
      let onlyDirs := pattern.toList.getLast? = some '/'
      let start := Reached.ofPath d (if absolute then "/" else ".")
      .ok (if segments.isEmpty then [] else below d onlyDirs (collapse segments) start)

end ApiDocs.Glob
