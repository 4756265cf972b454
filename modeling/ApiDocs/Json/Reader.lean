import ApiDocs.Dict
import ApiDocs.Json.Numeral

/-!
# Reading JSON into typed values

A `Reader α` takes a value of type `α` from the front of a JSON text and leaves the rest. Values
are checked against their type while they are read, so that of several faults the first one in
the text is reported: the text may not be JSON (`malformed`), or the value may not be of the type
that is expected (`mistyped`).

Records are read by their `RecordField`s. A **closed** record passes over members it does not
know, and may also be given as an array of its fields in order. An **open** record collects
unknown members, which must be texts. In both a field may be left out and may not be given twice.
-/

namespace ApiDocs.Json

/-- Why a JSON text does not give a value of the expected type. -/
inductive Fault where
  /-- The text is not JSON, or goes on after the value, or nests too deeply. -/
  | malformed
  /-- A value is not of the type that is expected in its place. -/
  | mistyped
  deriving DecidableEq, Repr

/-- Takes a value from the front of a text, and gives the rest of the text with it. -/
abbrev Reader (α : Type) := List Char → Except Fault (α × List Char)

/-! ### Lexical parts -/

/-- White space between the parts of a JSON text. -/
def isSpace (c : Char) : Bool := c == ' ' || c == '\n' || c == '\t' || c == '\r'

/-- The text without leading white space. -/
def skipSpace (cs : List Char) : List Char := cs.dropWhile isSpace

/-- The value of a hexadecimal digit. -/
def hexValue (c : Char) : Option Nat :=
  if '0' ≤ c && c ≤ '9' then some (c.toNat - '0'.toNat)
  else if 'a' ≤ c && c ≤ 'f' then some (c.toNat - 'a'.toNat + 10)
  else if 'A' ≤ c && c ≤ 'F' then some (c.toNat - 'A'.toNat + 10)
  else none

/-- The code unit that four hexadecimal digits at the front of the text name. -/
def codeUnit : List Char → Option Nat
  | a :: b :: c :: d :: _ => do
    return (((← hexValue a) * 16 + (← hexValue b)) * 16 + (← hexValue c)) * 16 + (← hexValue d)
  | _ => none

/-- The character that an escape by a single letter stands for. -/
def letterEscape : Char → Option Char
  | '"' => some '"'
  | '\\' => some '\\'
  | '/' => some '/'
  | 'b' => some '\x08'
  | 'f' => some '\x0c'
  | 'n' => some '\n'
  | 'r' => some '\r'
  | 't' => some '\t'
  | _ => none

/-- The character that an escape stands for and the number of characters after the backslash that
make it up. The two halves of a pair of surrogates must stand together. -/
def strictEscape : List Char → Option (Char × Nat)
  | [] => none
  | c :: rest =>
    if c = 'u' then
      match codeUnit rest with
      | none => none
      | some unit =>
        if 0xD800 ≤ unit && unit ≤ 0xDBFF then
          match rest.drop 4 with
          | '\\' :: 'u' :: rest' =>
            match codeUnit rest' with
            | none => none
            | some low =>
              if 0xDC00 ≤ low && low ≤ 0xDFFF then
                some (.ofNat (0x10000 + (unit - 0xD800) * 0x400 + (low - 0xDC00)), 11)
              else none
          | _ => none
        else if 0xDC00 ≤ unit && unit ≤ 0xDFFF then none
        else some (.ofNat unit, 5)
    else (letterEscape c).map fun d => (d, 1)

/-- An escape in a value that is passed over: every code unit is accepted. -/
def looseEscape : List Char → Option (Char × Nat)
  | [] => none
  | c :: rest =>
    if c = 'u' then (codeUnit rest).map fun unit => (.ofNat unit, 5)
    else (letterEscape c).map fun d => (d, 1)

/-- The characters up to the closing quote of a text, and what follows the quote. -/
def textTail (escape : List Char → Option (Char × Nat)) :
    List Char → Option (List Char × List Char)
  | [] => none
  | c :: rest =>
    if c = '"' then some ([], rest)
    else if c = '\\' then
      match escape rest with
      | none => none
      | some (d, n) => (textTail escape (rest.drop n)).map fun t => (d :: t.1, t.2)
    else if c.toNat < 0x20 then none
    else (textTail escape rest).map fun t => (c :: t.1, t.2)
termination_by cs => cs.length
decreasing_by all_goals simp only [List.length_cons, List.length_drop]; omega

/-- The rest of the text after a given word. -/
def word (w : List Char) (cs : List Char) : Option (List Char) :=
  if w.isPrefixOf cs then some (cs.drop w.length) else none

/-- The fault of a value of another type than the expected one at the front of the text: a simple
value must be complete to count as mistyped. -/
def mismatch (cs : List Char) : Fault :=
  match cs with
  | [] => .malformed
  | c :: rest =>
    if c = '[' ∨ c = '\x7b' then .mistyped
    else if c = '"' then if (textTail strictEscape rest).isSome then .mistyped else .malformed
    else if c = 'n' then if (word ['n', 'u', 'l', 'l'] cs).isSome then .mistyped else .malformed
    else if c = 't' then if (word ['t', 'r', 'u', 'e'] cs).isSome then .mistyped else .malformed
    else if c = 'f' then
      if (word ['f', 'a', 'l', 's', 'e'] cs).isSome then .mistyped else .malformed
    else
      match numeral cs with
      | some (n, _) => if n.inRange then .mistyped else .malformed
      | none => .malformed

/-! ### Simple values -/

/-- A text. -/
def readText : Reader String := fun cs =>
  match skipSpace cs with
  | '"' :: rest =>
    match textTail strictEscape rest with
    | some (s, rest) => .ok (.ofList s, rest)
    | none => .error .malformed
  | cs => .error (mismatch cs)

/-- A truth value. -/
def readBool : Reader Bool := fun cs =>
  let cs := skipSpace cs
  match word ['t', 'r', 'u', 'e'] cs with
  | some rest => .ok (true, rest)
  | none =>
    match word ['f', 'a', 'l', 's', 'e'] cs with
    | some rest => .ok (false, rest)
    | none => .error (mismatch cs)

/-- A number that fits into 32 bits. -/
def readUInt32 : Reader UInt32 := fun cs =>
  let cs := skipSpace cs
  match numeral cs with
  | none => .error (mismatch cs)
  | some (n, rest) =>
    if !n.inRange then .error .malformed
    else
      match n.toNat? with
      | some k => if k < UInt32.size then .ok (.ofNat k, rest) else .error .mistyped
      | none => .error .mistyped

/-- A value that may be `null`. -/
def readOption {α : Type} (value : Reader α) : Reader (Option α) := fun cs =>
  match skipSpace cs with
  | 'n' :: rest =>
    match word ['u', 'l', 'l'] rest with
    | some rest => .ok (none, rest)
    | none => .error .malformed
  | cs => (value cs).map fun r => (some r.1, r.2)

/-! ### Arrays and objects -/

/-- The start of the next item of an array or member of an object: at the front for the first one,
after a comma for a further one. -/
def nextPart (first : Bool) (cs : List Char) : Except Fault (List Char) :=
  if first then .ok cs
  else
    match cs with
    | ',' :: rest => .ok (skipSpace rest)
    | _ => .error .malformed

/-- The items of an array up to its closing bracket. Every item takes a character at least, so
that `bound`, the text after the opening bracket, bounds their number. -/
def itemsFrom {α : Type} (item : Reader α) (bound : List Char) (first : Bool) (cs : List Char) :
    Except Fault (List α × List Char) :=
  match bound with
  | [] => .error .malformed
  | _ :: bound =>
    match skipSpace cs with
    | ']' :: rest => .ok ([], rest)
    | start =>
      match nextPart first start with
      | .error e => .error e
      | .ok start =>
        match item start with
        | .error e => .error e
        | .ok (a, rest) => (itemsFrom item bound false rest).map fun r => (a :: r.1, r.2)

/-- An array. -/
def readList {α : Type} (item : Reader α) : Reader (List α) := fun cs =>
  match skipSpace cs with
  | '[' :: rest => itemsFrom item rest true rest
  | cs => .error (mismatch cs)

/-- The name of a member of an object; it is a text with the given escapes. -/
def memberName (escape : List Char → Option (Char × Nat)) (cs : List Char) :
    Except Fault (String × List Char) :=
  match skipSpace cs with
  | '"' :: start =>
    match textTail escape start with
    | none => .error .malformed
    | some (name, rest) => .ok (.ofList name, rest)
  | _ => .error .malformed

/-- The text after the colon between the name and the value of a member. -/
def afterColon (cs : List Char) : Except Fault (List Char) :=
  match skipSpace cs with
  | ':' :: rest => .ok rest
  | _ => .error .malformed

/-- The members of an object up to its closing brace. From the name alone `member` decides how
the value is read, or refuses the name. As with arrays, `bound` is the text after the opening
brace. -/
def membersFrom {σ : Type} (member : σ → String → Except Fault (Reader σ)) (bound : List Char)
    (first : Bool) (acc : σ) (cs : List Char) : Except Fault (σ × List Char) :=
  match bound with
  | [] => .error .malformed
  | _ :: bound =>
    match skipSpace cs with
    | '\x7d' :: rest => .ok (acc, rest)
    | start => do
      let start ← nextPart first start
      let (name, rest) ← memberName strictEscape start
      let value ← member acc name
      let (acc, rest) ← value (← afterColon rest)
      membersFrom member bound false acc rest

/-- An object whose members are all of one type; a later member replaces an earlier one of its
name. -/
def readDict {α : Type} (value : Reader α) : Reader (Dict α) := fun cs =>
  match skipSpace cs with
  | '\x7b' :: rest =>
    membersFrom (fun acc name => .ok fun cs => (value cs).map fun r => (acc.insert name r.1, r.2))
      rest true Dict.empty rest
  | cs => .error (mismatch cs)

/-! ### Values of any type -/

/-- The rest of the text after `null`, `true` or `false`. -/
def afterWord (cs : List Char) : Option (List Char) :=
  word ['n', 'u', 'l', 'l'] cs <|> word ['t', 'r', 'u', 'e'] cs
    <|> word ['f', 'a', 'l', 's', 'e'] cs

/-- A value of any type in which at most `depth` brackets are open at a time; the result is the
text if the value is one. -/
def readAny : Nat → Reader (Option String)
  | depth, cs =>
    let cs := skipSpace cs
    match cs with
    | [] => .error .malformed
    | c :: rest =>
      if c = '[' then
        match depth with
        | 0 => .error .malformed
        | depth + 1 => (itemsFrom (readAny depth) rest true rest).map fun r => (none, r.2)
      else if c = '\x7b' then
        match depth with
        | 0 => .error .malformed
        | depth + 1 =>
          (membersFrom (fun (_ : Unit) _ => .ok fun cs =>
            (readAny depth cs).map fun r => ((), r.2)) rest true () rest).map fun r => (none, r.2)
      else if c = '"' then
        match textTail strictEscape rest with
        | some (s, rest) => .ok (some (.ofList s), rest)
        | none => .error .malformed
      else
        match afterWord cs with
        | some rest => .ok (none, rest)
        | none =>
          match numeral cs with
          | some (n, rest) => if n.inRange then .ok (none, rest) else .error .malformed
          | none => .error .malformed

/-! ### Values that are passed over

Nothing is made of a value that is passed over, so it is read loosely: its texts may hold half a
pair of surrogates, its numbers may be of any size, and its brackets may be nested to any depth.
-/

/-- An open bracket. -/
inductive Bracket where
  | array
  | object
  deriving DecidableEq, Repr

namespace Bracket

/-- The bracket that a character opens. -/
def ofOpening? (c : Char) : Option Bracket :=
  if c = '[' then some .array else if c = '\x7b' then some .object else none

/-- The character that closes a bracket. -/
def closing : Bracket → Char
  | array => ']'
  | object => '\x7d'

/-- The text from the value of the next part on: an item is a value, a member has a name before
it. -/
def partValue (b : Bracket) (cs : List Char) : Except Fault (List Char) :=
  match b with
  | array => .ok cs
  | object => do
    let (_, rest) ← memberName looseEscape cs
    afterColon rest

end Bracket

/-- Goes on after a value inside the given open brackets, the innermost first: closes brackets
until none is open or a further value follows. -/
def afterValue : List Bracket → List Char → Except Fault (List Bracket × List Char)
  | [], cs => .ok ([], cs)
  | b :: around, cs =>
    match skipSpace cs with
    | [] => .error .malformed
    | c :: rest =>
      if c = b.closing then afterValue around rest
      else if c = ',' then (b.partValue rest).map fun rest => (b :: around, rest)
      else .error .malformed

/-- Goes on after an opening bracket: to its first value, or beyond the closing bracket. -/
def afterOpening (b : Bracket) (around : List Bracket) (cs : List Char) :
    Except Fault (List Bracket × List Char) :=
  match skipSpace cs with
  | [] => .error .malformed
  | c :: rest =>
    if c = b.closing then afterValue around rest
    else (b.partValue (c :: rest)).map fun rest => (b :: around, rest)

/-- The rest of the text after a value that is neither an array nor an object. -/
def afterSimple (cs : List Char) : Except Fault (List Char) :=
  let rest? := match cs with
    | '"' :: rest => (textTail looseEscape rest).map (·.2)
    | _ => afterWord cs <|> (numeral cs).map (·.2)
  match rest? with
  | some rest => .ok rest
  | none => .error .malformed

/-- Passes over a value inside the given open brackets, and over all that follows it inside them.
Every value takes a character at least, so that `bound`, the text from the first one on, bounds
their number. -/
def skipFrom (bound : List Char) (around : List Bracket) (cs : List Char) :
    Except Fault (List Char) :=
  match bound with
  | [] => .error .malformed
  | _ :: bound =>
    let cs := skipSpace cs
    let next := match cs.head?.bind Bracket.ofOpening? with
      | some b => afterOpening b around cs.tail
      | none => afterSimple cs >>= afterValue around
    match next with
    | .error e => .error e
    | .ok ([], rest) => .ok rest
    | .ok (around, rest) => skipFrom bound around rest

/-- Passes over a value. -/
def skipValue : Reader Unit := fun cs => (skipFrom cs [] cs).map fun rest => ((), rest)

/-! ### Records -/

/-- A field of a record: its name, and how its value is read and stored. -/
structure RecordField (σ : Type) where
  name : String
  read : σ → Reader σ

/-- A field that is stored by `set`. -/
def field {σ α : Type} (name : String) (value : Reader α) (set : σ → α → σ) : RecordField σ :=
  ⟨name, fun acc cs => (value cs).map fun r => (set acc r.1, r.2)⟩

/-- What has been read of a record: its fields, and the names given so far and the unknown members,
the latest first. -/
structure Partial (σ : Type) where
  fields : σ
  given : List String
  unknown : List (String × Option String)

/-- Reads the member of a known name; the name may be given only once. Other members are left to
`other`. -/
def Partial.member {σ : Type} (fields : List (RecordField σ))
    (other : Partial σ → String → Reader (Partial σ)) (p : Partial σ) (name : String) :
    Except Fault (Reader (Partial σ)) :=
  match fields.find? (·.name = name) with
  | none => .ok (other p name)
  | some f =>
    if name ∈ p.given then .error .mistyped
    else .ok fun cs =>
      (f.read p.fields cs).map fun r => (⟨r.1, name :: p.given, p.unknown⟩, r.2)

/-- The fields of a record given as an array: in order, the last ones may be missing. -/
def fieldsFrom {σ : Type} : List (RecordField σ) → Bool → σ → Reader σ
  | fields, first, acc, cs =>
    match skipSpace cs with
    | ']' :: rest => .ok (acc, rest)
    | start =>
      match fields with
      | [] => .error .malformed
      | f :: fields =>
        match nextPart first start with
        | .error e => .error e
        | .ok start =>
          match f.read acc start with
          | .error e => .error e
          | .ok (acc, rest) => fieldsFrom fields false acc rest

/-- A closed record. -/
def readClosed {σ : Type} (fields : List (RecordField σ)) (blank : σ) : Reader σ := fun cs =>
  match skipSpace cs with
  | '\x7b' :: rest =>
    let other : Partial σ → String → Reader (Partial σ) :=
      fun p _ cs => (skipValue cs).map fun r => (p, r.2)
    (membersFrom (Partial.member fields other) rest true ⟨blank, [], []⟩ rest).map
      fun r => (r.1.fields, r.2)
  | '[' :: rest => fieldsFrom fields true blank rest
  | cs => .error (mismatch cs)

/-- The unknown members of an open record, if all of them are texts. -/
def unknownTexts (unknown : List (String × Option String)) : Option (Dict String) :=
  if unknown.all (·.2.isSome) then some (.ofList (unknown.map fun e => (e.1, e.2.getD "")))
  else none

/-- An open record; its unknown members may hold `depth` open brackets. -/
def readOpen {σ : Type} (depth : Nat) (fields : List (RecordField σ)) (blank : σ)
    (setUnknown : σ → Dict String → σ) : Reader σ := fun cs =>
  match skipSpace cs with
  | '\x7b' :: rest =>
    let other : Partial σ → String → Reader (Partial σ) := fun p name cs =>
      (readAny depth cs).map fun r => (⟨p.fields, p.given, (name, r.1) :: p.unknown⟩, r.2)
    match membersFrom (Partial.member fields other) rest true ⟨blank, [], []⟩ rest with
    | .error e => .error e
    | .ok (p, rest) =>
      match unknownTexts p.unknown.reverse with
      | some unknown => .ok (setUnknown p.fields unknown, rest)
      | none => .error .mistyped
  | cs => .error (mismatch cs)

/-- One of several words, given as a text or as an object with the word as its only member and
`null` as its value. -/
def readWord {α : Type} (words : List (String × α)) : Reader α := fun cs =>
  match skipSpace cs with
  | '"' :: rest =>
    match textTail strictEscape rest with
    | none => .error .malformed
    | some (w, rest) =>
      match words.lookup (.ofList w) with
      | some a => .ok (a, rest)
      | none => .error .mistyped
  | '\x7b' :: rest =>
    match memberName strictEscape rest with
    | .error e => .error e
    | .ok (w, rest) =>
      match words.lookup w with
      | none => .error .mistyped
      | some a => do
        let rest := skipSpace (← afterColon rest)
        match word ['n', 'u', 'l', 'l'] rest with
        | none => .error (mismatch rest)
        | some rest =>
          match skipSpace rest with
          | '\x7d' :: rest => .ok (a, rest)
          | _ => .error .malformed
  | _ => .error .malformed

/-- A whole document: a value with nothing but white space after it. -/
def readDocument {α : Type} (value : Reader α) (document : String) : Except Fault α :=
  match value document.toList with
  | .error e => .error e
  | .ok (a, rest) => if (skipSpace rest).isEmpty then .ok a else .error .malformed

end ApiDocs.Json
