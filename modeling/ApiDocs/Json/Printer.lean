import ApiDocs.Text.Decimal

/-!
# JSON documents

`Json` is a JSON value whose objects keep the order of their members (a name may even occur
twice), and `Json.document` writes it over several lines, two blanks further in for each level.
In texts the quote, the backslash and the characters below the space are escaped, all others
stand for themselves.
-/

namespace ApiDocs

/-- A JSON value; the members of an object are in the order in which they are written. -/
inductive Json where
  | bool (b : Bool)
  | num (n : Nat)
  | str (s : String)
  | arr (items : List Json)
  | obj (members : List (String × Json))
  deriving Repr

namespace Json

open Text

/-- How one character is written in a JSON text. -/
def escaped (c : Char) : List Char :=
  if c = '"' then ['\\', '"']
  else if c = '\\' then ['\\', '\\']
  else if c = '\x08' then ['\\', 'b']
  else if c = '\x0c' then ['\\', 'f']
  else if c = '\n' then ['\\', 'n']
  else if c = '\r' then ['\\', 'r']
  else if c = '\t' then ['\\', 't']
  else if c.toNat < 0x20 then
    ['\\', 'u', '0', '0', Nat.digitChar (c.toNat / 16), Nat.digitChar (c.toNat % 16)]
  else [c]

/-- A JSON text. -/
def text (s : String) : List Char := ['"'] ++ s.toList.flatMap escaped ++ ['"']

/-- A line end, and the indentation of the next line. -/
def newline (depth : Nat) : List Char := '\n' :: List.replicate (2 * depth) ' '

mutual

/-- The value as it is written at a level of indentation. -/
def write (depth : Nat) : Json → List Char
  | bool b => if b then ['t', 'r', 'u', 'e'] else ['f', 'a', 'l', 's', 'e']
  | num n => decimal n
  | str s => text s
  | arr [] => ['[', ']']
  | arr (v :: vs) =>
    ['['] ++ newline (depth + 1) ++ write (depth + 1) v ++ writeItems (depth + 1) vs
      ++ newline depth ++ [']']
  | obj [] => ['\x7b', '\x7d']
  | obj (m :: ms) =>
    ['\x7b'] ++ newline (depth + 1) ++ text m.1 ++ [':', ' '] ++ write (depth + 1) m.2
      ++ writeMembers (depth + 1) ms ++ newline depth ++ ['\x7d']

/-- The further items of an array, each after a comma on a line of its own. -/
def writeItems (depth : Nat) : List Json → List Char
  | [] => []
  | v :: vs => [','] ++ newline depth ++ write depth v ++ writeItems depth vs

/-- The further members of an object, each after a comma on a line of its own. -/
def writeMembers (depth : Nat) : List (String × Json) → List Char
  | [] => []
  | m :: ms =>
    [','] ++ newline depth ++ text m.1 ++ [':', ' '] ++ write depth m.2 ++ writeMembers depth ms

end

/-- The value as a document, without a line end after it. -/
def document (v : Json) : String := .ofList (write 0 v)

/-! ### Building objects -/

/-- A member that is written always. -/
def member (name : String) (v : Json) : List (String × Json) := [(name, v)]

/-- A member that is left out when there is nothing to say. -/
def member? (name : String) (v : Option Json) : List (String × Json) :=
  match v with
  | none => []
  | some v => [(name, v)]

/-- A list of texts. -/
def strs (items : List String) : Json := arr (items.map str)

/-- A member with a list that is left out when the list is empty. -/
def memberList (name : String) (items : List Json) : List (String × Json) :=
  if items.isEmpty then [] else [(name, arr items)]

/-- A member with a mark that is written only if the mark is set. -/
def flag (name : String) (b : Bool) : List (String × Json) :=
  if b then [(name, bool true)] else []

end Json

end ApiDocs
