import ApiDocs.Diagnostic
import ApiDocs.Text.Trim

/-!
# Parameters and return values

The value of a tag for a parameter or a return value gives a type in braces and a text, in either
order: `{Type} name description`, `name {Type} description`, or `name description` without a type.
`splitBody` separates the type from the text. Of a parameter's text the first word is its name.
-/

namespace ApiDocs.Signature

open Text

/-- The text before the first opening brace, between it and the last closing brace, and after
that; `none` unless an opening brace is followed by a closing one. -/
def splitBraces (cs : List Char) : Option (List Char × List Char × List Char) :=
  match cs.dropWhile (· ≠ '\x7b') with
  | [] => none
  | _ :: tail =>
    match tail.reverse.dropWhile (· ≠ '\x7d') with
    | [] => none
    | _ :: inside =>
      some (cs.takeWhile (· ≠ '\x7b'), inside.reverse,
        (tail.reverse.takeWhile (· ≠ '\x7d')).reverse)

/-- The type and the text of a body. Without braces the body must begin with a word, blanks
aside, and has no type; `none` if neither is the case. -/
def splitBody (body : String) : Option (String × String) :=
  match splitBraces body.toList with
  | some (before, inside, after) =>
    some (.ofList (strip inside), .ofList (strip (before ++ after)))
  | none =>
    match dropBlanks body.toList with
    | [] => none
    | c :: rest => if isWord c then some ("", .ofList (c :: rest)) else none

/-- The parameter with the given type and text; `none` if the text is blank. -/
def param? (typeName text : String) : Option Param :=
  (firstWord text.toList).map fun (name, description) =>
    { name := .ofList name, typeName, description := .ofList description }

/-- The parameters of the bodies, in order, or the first body that cannot be split. A body without
a name gives no parameter. -/
def params : List String → Except String (List Param)
  | [] => .ok []
  | body :: rest =>
    match splitBody body with
    | none => .error body
    | some (typeName, text) =>
      (params rest).map fun ps =>
        match param? typeName text with
        | some p => p :: ps
        | none => ps

/-- The notes about bodies without a name, up to the first body that cannot be split. -/
def paramNotes : List String → List Note
  | [] => []
  | body :: rest =>
    match splitBody body with
    | none => []
    | some (typeName, text) =>
      match param? typeName text with
      | some _ => paramNotes rest
      | none => .paramSkipped typeName text :: paramNotes rest

/-- The return value of a body, or the body if it cannot be split. -/
def returns (body : String) : Except String Return :=
  match splitBody body with
  | some (typeName, text) => .ok { typeName, description := trim text }
  | none => .error body

end ApiDocs.Signature
