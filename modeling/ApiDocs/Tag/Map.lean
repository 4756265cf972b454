import ApiDocs.Dict
import ApiDocs.Text.Quoted

/-!
# Tag maps

A comment carries tags, each possibly several times. A `TagMap` keeps for every tag the values
given for it, in the order of the comment. Placing a comment takes the tags it uses out of the map;
what is left is copied to the documented entity with the first value of each tag (`leftovers`).
-/

namespace ApiDocs

/-- The tags of a comment, each with its values in the order of the comment. -/
abbrev TagMap := Dict (List String)

namespace TagMap

/-- The values given for a tag. -/
def all (t : TagMap) (tag : String) : List String := (t.get? tag).getD []

/-- The first value given for a tag. -/
def first (t : TagMap) (tag : String) : Option String := (t.get? tag).bind List.head?

/-- Adds a value for a tag. -/
def push (t : TagMap) (tag value : String) : TagMap := t.insert tag (t.all tag ++ [value])

/-- The first value of a tag that names something; an empty name is none. -/
def name? (t : TagMap) (tag : String) : Option String := (t.first tag).filter (!·.isEmpty)

/-- The tags with their first values, in order of the tags. -/
def leftovers (t : TagMap) : List (String × String) :=
  t.entries.filterMap fun e => e.2.head?.map fun value => (e.1, value)

/-- The map as it is shown with a fault: a line for each tag. -/
def dump (t : TagMap) : String :=
  String.join (t.entries.map fun e => "  @" ++ e.1 ++ ": " ++ Text.quotedList e.2 ++ "\n")

end TagMap

end ApiDocs
