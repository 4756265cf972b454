import ApiDocs.Diagnostic
import ApiDocs.Text.Case

/-!
# Inherited members

A class inherits from its superclass and from the classes it uses, and from theirs. `ancestors`
walks these classes, each once: first the superclass with everything above it, then each class
used. Unknown classes contribute nothing, and a private class hides what is above it unless
private entries are shown. `Inherited.ofClass` lists for each kind of member what every ancestor
contributes; static members are not inherited.
-/

namespace ApiDocs

/-- A class met on the walk over the ancestors. -/
inductive Ancestor where
  /-- A class of the model. -/
  | known (doc : ClassDoc)
  /-- A name without a class. -/
  | unknown (name : String)
  deriving DecidableEq, Repr

/-- The classes that a class inherits from directly: its superclass, then the classes it uses. -/
def ClassDoc.parents (c : ClassDoc) : List String := c.superclass.toList ++ c.uses

/-- Whether an entry with an access is shown. -/
def Access.shown (access : Access) (showPrivate : Bool) : Bool :=
  showPrivate || access != .priv

/-- The number of names that are not visited yet. Over the names of all classes it bounds the
walk. -/
def unvisited (visited names : List String) : Nat := names.countP fun k => decide (k ∉ visited)

/-- One more visited name leaves no more names unvisited. -/
theorem unvisited_cons_le (visited names : List String) (name : String) :
    unvisited (name :: visited) names ≤ unvisited visited names := by
  refine List.countP_mono_left fun k _ hk => ?_
  simp only [List.mem_cons, not_or, decide_eq_true_eq] at hk ⊢
  exact hk.2

/-- Visiting one of the names leaves fewer of them unvisited. -/
theorem unvisited_cons_lt {visited names : List String} {name : String} (h : name ∈ names)
    (hv : name ∉ visited) : unvisited (name :: visited) names < unvisited visited names := by
  induction names with
  | nil => simp at h
  | cons k rest ih =>
    have le := unvisited_cons_le visited rest name
    by_cases hk : k = name
    · subst hk
      have gone : decide (k ∉ k :: visited) = false := by simp
      have fresh : decide (k ∉ visited) = true := by simpa using hv
      simp only [unvisited, List.countP_cons, gone, fresh, Bool.false_eq_true, if_false,
        if_true] at le ⊢
      omega
    · have hrest : name ∈ rest := by
        rcases List.mem_cons.1 h with h | h
        · exact absurd h.symm hk
        · exact h
      have lt := ih hrest
      by_cases hkv : k ∈ visited
      · simpa [unvisited, List.countP_cons, hk, hkv] using lt
      · simpa [unvisited, List.countP_cons, hk, hkv] using lt

/-- The ancestors met when the names in `todo` are visited in order, each followed by what is
above it. A name is passed over once it is visited. -/
def ancestors (classes : Dict ClassDoc) (showPrivate : Bool) (visited : List String) :
    List String → List Ancestor
  | [] => []
  | name :: todo =>
    if hv : name ∈ visited then ancestors classes showPrivate visited todo
    else
      have := unvisited_cons_le visited classes.keys name
      match hc : classes.get? name with
      | none => .unknown name :: ancestors classes showPrivate (name :: visited) todo
      | some c =>
        have := unvisited_cons_lt (Dict.mem_keys_of_get? hc) hv
        if c.access.shown showPrivate then
          .known c :: ancestors classes showPrivate (name :: visited) (c.parents ++ todo)
        else ancestors classes showPrivate (name :: visited) todo
termination_by todo => (unvisited visited classes.keys, todo.length)
decreasing_by
  · exact Prod.Lex.right _ (by simp)
  · rcases Nat.lt_or_eq_of_le this with h | h
    · exact Prod.Lex.left _ _ h
    · rw [h]; exact Prod.Lex.right _ (by simp)
  · exact Prod.Lex.left _ _ this
  · exact Prod.Lex.left _ _ this

/-- The ancestors of a class. The class itself counts as visited. -/
def ClassDoc.ancestors (c : ClassDoc) (classes : Dict ClassDoc) (showPrivate : Bool) :
    List Ancestor :=
  ApiDocs.ancestors classes showPrivate [c.name] c.parents

/-- A member that is inherited, as it is listed. -/
structure InheritedMember where
  name : String
  access : Access
  deprecated : Bool
  deriving DecidableEq, Repr

/-- The members that a class passes on, by name. -/
def inheritable (showPrivate : Bool) (ms : Dict MemberDoc) : List InheritedMember :=
  Text.sortByName (·.name) <|
    (ms.values.filter fun m => !m.isStatic && m.access.shown showPrivate).map fun m =>
      { name := m.name, access := m.access, deprecated := m.deprecated.isSome }

/-- What a class inherits: for each kind of member what each ancestor contributes, and all
ancestors in the order of the walk. -/
structure Inherited where
  properties : Dict (List InheritedMember) := ∅
  methods : Dict (List InheritedMember) := ∅
  events : Dict (List InheritedMember) := ∅
  configs : Dict (List InheritedMember) := ∅
  superclassChain : List String := []
  deriving DecidableEq, Repr

namespace Inherited

/-- The members of one kind, by ancestor. -/
def members (i : Inherited) : MemberKind → Dict (List InheritedMember)
  | .method => i.methods
  | .event => i.events
  | .property => i.properties
  | .config => i.configs

/-- The classes of the model among the ancestors. -/
def knownDocs (walk : List Ancestor) : List ClassDoc :=
  walk.filterMap fun
    | .known doc => some doc
    | .unknown _ => none

/-- What the ancestors contribute to one kind of member. An ancestor that contributes nothing is
not listed. -/
def contributions (showPrivate : Bool) (docs : List ClassDoc) (kind : MemberKind) :
    Dict (List InheritedMember) :=
  docs.foldl (fun d doc =>
    let ms := inheritable showPrivate (doc.members kind)
    if ms.isEmpty then d else d.insert doc.name ms) ∅

/-- What a class inherits. -/
def ofClass (c : ClassDoc) (classes : Dict ClassDoc) (showPrivate : Bool) : Inherited :=
  let docs := knownDocs (c.ancestors classes showPrivate)
  { properties := contributions showPrivate docs .property
    methods := contributions showPrivate docs .method
    events := contributions showPrivate docs .event
    configs := contributions showPrivate docs .config
    superclassChain := docs.map (·.name) }

/-- The notes about ancestors that are not in the model. -/
def notes (walk : List Ancestor) : List Note :=
  walk.filterMap fun
    | .known _ => none
    | .unknown name => some (.unknownAncestor name)

/-- The number of lists of contributions, over all kinds. -/
def listCount (i : Inherited) : Nat :=
  i.properties.keys.length + i.methods.keys.length + i.events.keys.length
    + i.configs.keys.length

end Inherited

end ApiDocs
