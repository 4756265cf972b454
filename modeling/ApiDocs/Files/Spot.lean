import ApiDocs.Files.Tree

/-!
# Spots in a file tree

A `Spot` is a node together with the way that led to it, so that one can go on to an entry, go
back up, and put another node in its place, each without walking the tree from its top again.
`Spot.node_descend?` and `Spot.replace_descend?` say that looking at a spot and replacing its node
is looking and putting at its place in the tree.
-/

namespace ApiDocs

/-- A node and the way to it: the directories above, the nearest first, each with the name of the
entry that was taken. -/
structure Spot where
  node : Node
  above : List (String × Node)

namespace Spot

/-- The top of a tree. -/
def top (root : Node) : Spot := ⟨root, []⟩

/-- The directory above; the top has only itself above. -/
def up (s : Spot) : Spot :=
  match s.above with
  | [] => s
  | (_, n) :: above => ⟨n, above⟩

/-- The entry of a name. -/
def down? (s : Spot) (name : String) : Option Spot :=
  (s.node.entries.lookup name).map fun child => ⟨child, (name, s.node) :: s.above⟩

/-- The spot at a place below. -/
def descend? (s : Spot) : List String → Option Spot
  | [] => some s
  | name :: rest => (s.down? name).bind (·.descend? rest)

/-- The whole tree with another node at the spot. -/
def replace (s : Spot) (new : Node) : Node :=
  s.above.foldl (fun n d => d.2.setChild d.1 n) new

/-- The spot at a place shows the node at that place. -/
theorem node_descend? (s : Spot) (place : List String) :
    (s.descend? place).map node = s.node.at? place := by
  induction place generalizing s with
  | nil => rfl
  | cons name rest ih =>
    cases h : s.node.entries.lookup name with
    | none => simp [descend?, down?, Node.at?, h]
    | some child => simp [descend?, down?, Node.at?, h, ih]

/-- Replacing the node at a place below a spot is putting a node at that place. -/
theorem replace_descend? {s t : Spot} {place : List String} (h : s.descend? place = some t)
    (new : Node) : t.replace new = s.replace (s.node.put place new) := by
  induction place generalizing s with
  | nil => cases h; rfl
  | cons name rest ih =>
    cases hc : s.node.entries.lookup name with
    | none => simp [descend?, down?, hc] at h
    | some child =>
      simp only [descend?, down?, hc, Option.map_some, Option.bind_some] at h
      rw [ih h]
      simp [replace, Node.put, hc]

end Spot

end ApiDocs
