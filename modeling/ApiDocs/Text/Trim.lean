import ApiDocs.Text.Classes

/-!
# Trimming and cutting at blanks

Removal of leading and trailing blanks, on lists of characters (`dropBlanks`, `strip`) and on
strings (`trimStart`, `trim`), and the first word of a text with what follows it (`firstWord`).
-/

namespace ApiDocs.Text

/-- The text without its leading blanks. -/
def dropBlanks (cs : List Char) : List Char := cs.dropWhile isBlank

/-- The text without its leading and trailing blanks. -/
def strip (cs : List Char) : List Char := (dropBlanks (dropBlanks cs).reverse).reverse

/-- The string without its leading blanks. -/
def trimStart (s : String) : String := .ofList (dropBlanks s.toList)

/-- The string without its leading and trailing blanks. -/
def trim (s : String) : String := .ofList (strip s.toList)

/-- The text up to the first blank, and the text after that blank. Without a blank the whole text
is the first part. -/
def cutAtBlank (cs : List Char) : List Char × List Char :=
  (cs.takeWhile (!isBlank ·), (cs.dropWhile (!isBlank ·)).drop 1)

/-- The first maximal run of characters that are not blank, and what follows it, trimmed; `none`
for a blank text. -/
def firstWord (cs : List Char) : Option (List Char × List Char) :=
  match dropBlanks cs with
  | [] => none
  | word => some (word.takeWhile (!isBlank ·), strip (word.dropWhile (!isBlank ·)))

@[simp] theorem dropBlanks_nil : dropBlanks [] = [] := rfl

@[simp] theorem strip_nil : strip [] = [] := rfl

theorem dropBlanks_cons (c : Char) (cs : List Char) :
    dropBlanks (c :: cs) = if isBlank c then dropBlanks cs else c :: cs := by
  simp [dropBlanks, List.dropWhile_cons]

@[simp] theorem toList_trim (s : String) : (trim s).toList = strip s.toList := by
  simp [trim]

@[simp] theorem toList_trimStart (s : String) : (trimStart s).toList = dropBlanks s.toList := by
  simp [trimStart]

end ApiDocs.Text
