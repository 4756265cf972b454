import ApiDocs.Proofs.Session.Growth
import ApiDocs.Proofs.Session.MissingClass
import ApiDocs.Proofs.Session.Separate

/-!
# Comments whose tags shadow a field

The tags that are left of a comment are copied to what it documents, and a tag that has the name of
a field but does not fill it ends up beside the field. Which tags can do so depends on the comment:
placing it uses up the tags of its subject, a method has its return value read where an event has
not, and a constructor takes the tags of its signature with it. `Subject.shadowable` lists, for
every subject, the fields that are left open to this.

**A model reads back as itself if and only if no comment of the run had such a tag**
(`readsBack_run_iff`): a comment that has one, is about something with a name, and can be placed
makes the attributes collide with the fields for good, and no other comment does.
-/

namespace ApiDocs

/-! ### Which fields are open -/

/-- The fields of what a comment documents that its tags can shadow, by the subject of the comment
and whether it has a constructor, too. -/
def Subject.shadowable : Subject → Bool → List String
  | cls, _ => ["name", "file", "superclass", "access", "methods", "events", "properties", "configs",
      "constructors"]
  | mod, _ => ["name", "submodules"]
  | method, _ | event, true | property, true | attr, true | config, true =>
    ["name", "access", "params", "synthetic"]
  | event, false | property, false | attr, false | config, false =>
    ["name", "access", "params", "return", "synthetic"]
  | file, _ | nothing, _ => []

/-- The tags that placing a constructor uses up. -/
def constructorTags : Bool → List String
  | true => ["constructor", "param", "return"]
  | false => []

/-- The fields among `unfilled` that a tag can reach once those in `used` are gone: tags are in
lower case, and the namespace is taken before a comment is placed. -/
def openFields (unfilled used : List String) : List String :=
  unfilled.filter fun field => field ∉ used ∧ Text.LowerCase field ∧ field ≠ "namespace"

/-- The fields of a class that its own tags leave open. -/
private theorem openFields_class : ∀ constructor, openFields ClassDoc.unfilled
    (["class", "module", "extends", "uses"] ++ constructorTags constructor) =
      Subject.shadowable .cls constructor := by
  decide +kernel

/-- The fields of a module that its own tags leave open. -/
private theorem openFields_module : ∀ constructor, openFields ModuleDoc.unfilled
    (["module"] ++ constructorTags constructor) = Subject.shadowable .mod constructor := by
  decide +kernel

/-- The fields of a member that its own tags leave open. -/
private theorem openFields_member {subject : Subject} {kind : MemberKind}
    (h : subject.memberKind? = some kind) : ∀ constructor, openFields MemberDoc.unfilled
      (kind.ownTags ++ kind.signatureTags ++ constructorTags constructor) =
        subject.shadowable constructor := by
  cases subject with
  | method | event | property | attr | config =>
    cases h
    decide +kernel
  | file | cls | mod | nothing => cases h

/-! ### Tags before a comment is placed -/

namespace Dict

variable {α : Type}

/-- A tag that is still there was there, and is not the one taken out. -/
private theorem contains_of_erase {d : Dict α} {key k : String}
    (h : (d.erase key).contains k = true) :
    k ≠ key ∧ d.contains k = true := by
  by_cases hk : k = key
  · rw [contains, get?_erase, if_pos hk] at h
    cases h
  · exact ⟨hk, (d.contains_erase_of_ne hk).symm.trans h⟩

end Dict

namespace TagMap

variable {tags : TagMap}

/-- Taking out some tags leaves the others as they are. -/
private theorem first_foldl_erase (keys : List String) (t : TagMap) (tag : String) :
    TagMap.first (keys.foldl Dict.erase t) tag = if tag ∈ keys then none else t.first tag := by
  induction keys generalizing t with
  | nil => simp
  | cons key keys ih =>
    rw [List.foldl_cons, ih, first_erase]
    by_cases htag : tag = key
    · simp [htag]
    · simp [htag]

/-- **What is known of tags that are about to be placed**: each of them has a value and is in lower
case, and the namespace is not among them. -/
structure Prepared (tags : TagMap) : Prop where
  value : ∀ tag, tags.contains tag = true → (tags.first tag).isSome = true
  lowerCase : ∀ tag, tags.contains tag = true → Text.LowerCase tag
  noNamespace : tags.contains "namespace" = false

namespace Prepared

/-- Prepared tags have a value wherever they are there. -/
private theorem first_isSome_iff (h : tags.Prepared) {tag : String} :
    (tags.first tag).isSome = true ↔ tags.contains tag = true := by
  refine ⟨fun hfirst => ?_, h.value tag⟩
  obtain ⟨value, hvalue⟩ := Option.isSome_iff_exists.1 hfirst
  obtain ⟨values, hget, -⟩ := Option.bind_eq_some_iff.1 hvalue
  exact Dict.contains_of_get? hget

/-- Tags stay prepared when one is taken out. -/
private theorem erase (h : tags.Prepared) (key : String) : TagMap.Prepared (tags.erase key) where
  value tag htag := by
    obtain ⟨hne, htag⟩ := Dict.contains_of_erase htag
    rw [first_erase, if_neg hne]
    exact h.value tag htag
  lowerCase tag htag := h.lowerCase tag (Dict.contains_of_erase htag).2
  noNamespace := by
    rw [Bool.eq_false_iff]
    intro htag
    have hold := (Dict.contains_of_erase htag).2
    rw [h.noNamespace] at hold
    cases hold

/-- Tags stay prepared when one is added. -/
private theorem push (h : tags.Prepared) {tag : String} (hlower : Text.LowerCase tag)
    (hne : "namespace" ≠ tag) (value : String) : (tags.push tag value).Prepared where
  value k hk := by
    rw [TagMap.push, Dict.contains_insert, Bool.or_eq_true, beq_iff_eq] at hk
    rw [first, TagMap.push, Dict.get?_insert]
    split
    · simp
    · rename_i hkey
      exact h.value k (hk.resolve_left hkey)
  lowerCase k hk := by
    rw [TagMap.push, Dict.contains_insert, Bool.or_eq_true, beq_iff_eq] at hk
    rcases hk with rfl | hk
    · exact hlower
    · exact h.lowerCase k hk
  noNamespace := by
    rw [TagMap.push, Dict.contains_insert, h.noNamespace, Bool.or_false]
    exact beq_eq_false_iff_ne.2 hne

end Prepared

/-- The tags of a comment are prepared once its namespace is known. -/
private theorem prepared_collect (tokens : List String) :
    TagMap.Prepared ((collect tokens).tags.erase "namespace") where
  value tag htag := by
    obtain ⟨hne, htag⟩ := Dict.contains_of_erase htag
    rw [first_erase, if_neg hne, ← contains_collect]
    exact htag
  lowerCase tag htag := lowerCase_of_contains_collect (Dict.contains_of_erase htag).2
  noNamespace := by
    rw [Dict.contains, Dict.get?_erase, if_pos rfl]
    rfl

end TagMap

namespace Session

/-- **The tags of every comment are prepared** when it is placed. -/
theorem prepared_prepare (s : Session) (tokens : List String) (following : Option String) :
    TagMap.Prepared (s.prepare tokens following).2 := by
  have hguess (s : Session) (tags : TagMap) (h : tags.Prepared) :
      TagMap.Prepared (s.guessSubject tags following).2 := by
    rw [guessSubject]
    split
    · exact h
    · split
      · exact h
      · rename_i d _
        cases d with
        | method name => exact h.push (by decide) (by decide) name
        | property name => exact h.push (by decide) (by decide) name
  have hcollect := TagMap.prepared_collect tokens
  rw [prepare]
  split
  · split
    · exact hguess _ _ hcollect
    · exact hguess _ _ (hcollect.erase "for")
  · exact hguess _ _ hcollect

end Session

/-! ### Tags after the subject was placed -/

/-- A comment gives the name of the class, the member or the module that it is about. -/
def namesSubject (tags : TagMap) : Bool :=
  match Subject.ofTags tags with
  | .cls => (tags.name? "class").isSome
  | .mod => !tags.moduleNames.isEmpty
  | .file | .nothing => false
  | member => (tags.name? member.word).isSome

/-- A comment about a member names its subject with the tag of that member. -/
private theorem namesSubject_member {tags : TagMap} {kind : MemberKind}
    (h : (Subject.ofTags tags).memberKind? = some kind) :
    namesSubject tags = (tags.name? (Subject.ofTags tags).word).isSome := by
  rw [namesSubject]
  cases hsubject : Subject.ofTags tags with
  | method | event | property | attr | config => rfl
  | file | cls | mod | nothing =>
    rw [hsubject] at h
    cases h

/-- **A comment has a tag that shadows a field** of what it documents. -/
def ShadowsField (tags : TagMap) : Prop :=
  namesSubject tags = true ∧
    ∃ field ∈ (Subject.ofTags tags).shadowable (tags.contains "constructor"),
      tags.contains field = true

instance (tags : TagMap) : Decidable (ShadowsField tags) := inferInstanceAs (Decidable (_ ∧ _))

/-- What placing the subject of a comment leaves to be copied: nothing that could shadow a field, or
the tags but for those in `used`. -/
inductive Leaves (tags : TagMap) (p : Placed) : Prop
  | nothing (unnamed : namesSubject tags = false)
      (unfilled : ∀ target, p.target = some target → target.unfilled = [])
  | tags (named : namesSubject tags = true) (target : Target) (documents : p.target = some target)
      (used : List String)
      (left : ∀ field ∈ target.unfilled,
        p.tags.first field = if field ∈ used then none else tags.first field)
      (shadowable : ∀ constructor,
        openFields target.unfilled (used ++ constructorTags constructor) =
          (Subject.ofTags tags).shadowable constructor)

/-- **Whether a tag that is left shadows a field** is known from the comment, once its constructor
was placed as well. -/
theorem Leaves.shadows_iff {tags : TagMap} {p : Placed} (h : Leaves tags p)
    (htags : tags.Prepared) :
    ({ p with tags := (constructorTags (tags.contains "constructor")).foldl Dict.erase p.tags } :
      Placed).Shadows ↔ ShadowsField tags := by
  cases h with
  | nothing unnamed unfilled =>
    refine iff_of_false ?_ fun h => Bool.false_ne_true (unnamed.symm.trans h.1)
    rintro ⟨target, htarget, field, hfield, -⟩
    rw [unfilled target htarget] at hfield
    cases hfield
  | tags named target documents used left shadowable =>
    rw [ShadowsField, ← shadowable, and_iff_right named, Placed.Shadows]
    simp only [documents, Option.some.injEq, exists_eq_left', openFields, List.mem_filter,
      decide_eq_true_eq, TagMap.first_foldl_erase]
    refine exists_congr fun field => ?_
    constructor
    · rintro ⟨hfield, hfirst⟩
      split at hfirst
      · cases hfirst
      · rename_i hconstructor
        rw [left field hfield] at hfirst
        split at hfirst
        · cases hfirst
        · rename_i hused
          have hcontains := htags.first_isSome_iff.1 hfirst
          refine ⟨⟨hfield, ?_, htags.lowerCase field hcontains, ?_⟩, hcontains⟩
          · exact fun hmem => (List.mem_append.1 hmem).elim hused hconstructor
          · rintro rfl
            rw [htags.noNamespace] at hcontains
            cases hcontains
    · rintro ⟨⟨hfield, hunused, -, -⟩, hcontains⟩
      rw [List.mem_append, not_or] at hunused
      refine ⟨hfield, ?_⟩
      rw [if_neg hunused.2, left field hfield, if_neg hunused.1]
      exact htags.first_isSome_iff.2 hcontains

namespace Session

variable {s : Session} (tokens : List String) {tags : TagMap}

/-- Describing a part takes out the tags that it uses, and no others. -/
private theorem first_describePart (mod : String) (alone : Bool) {field : String}
    (hsub : field ≠ "submodule") (hdescription : field ≠ "description") :
    TagMap.first (s.describePart tokens mod tags alone).2 field = tags.first field := by
  rw [describePart]
  split
  · cases alone with
    | true =>
      dsimp only
      rw [if_pos rfl, TagMap.first_erase, if_neg hdescription, TagMap.first_erase, if_neg hsub]
    | false =>
      dsimp only
      rw [if_neg Bool.false_ne_true, TagMap.first_erase, if_neg hsub]
  · rfl

/-- Placing a module takes out the module tags. -/
private theorem first_placeModule (alone : Bool) {field : String}
    (hsub : field ≠ "submodule") (hdescription : field ≠ "description") :
    (s.placeModule tokens tags alone).2.tags.first field =
      if field = "module" then none else tags.first field := by
  rw [placeModule]
  dsimp only
  split
  · exact TagMap.first_erase tags "module" field
  · dsimp only
    rw [first_describePart tokens _ alone hsub hdescription]
    exact TagMap.first_erase tags "module" field

/-- The module tags of a comment about a class are taken out. -/
private theorem first_placeOwnModule {field : String}
    (hsub : field ≠ "submodule") (hdescription : field ≠ "description") :
    TagMap.first (s.placeOwnModule tokens tags).2 field =
      if field = "module" then none else tags.first field := by
  rw [placeOwnModule]
  split
  · exact first_placeModule tokens false hsub hdescription
  · rename_i hmodule
    split
    · rename_i hfield
      subst hfield
      rw [TagMap.first]
      rw [Dict.contains, Option.not_isSome_iff_eq_none] at hmodule
      rw [hmodule]
      rfl
    · rfl

/-- A comment about a class leaves all tags but its own. -/
private theorem leaves_placeClassComment (h : Subject.ofTags tags = .cls) (inner : Option String) :
    Leaves tags (s.placeClassComment tokens tags inner).2 := by
  rw [placeClassComment]
  cases hname : tags.name? "class" with
  | none =>
    have hunnamed : namesSubject tags = false := by
      rw [namesSubject, h, hname]
      rfl
    exact .nothing hunnamed fun target htarget => by cases htarget
  | some name =>
    have hnamed : namesSubject tags = true := by
      rw [namesSubject, h, hname]
      rfl
    refine .tags hnamed _ rfl ["class", "module", "extends", "uses"] (fun field hfield => ?_)
      fun constructor => by rw [h]; exact openFields_class constructor
    have hother : ∀ field ∈ ClassDoc.unfilled, field ≠ "submodule" ∧ field ≠ "description" := by
      decide
    obtain ⟨hsub, hdescription⟩ := hother field hfield
    dsimp only
    rw [TagMap.first_erase, TagMap.first_erase, first_placeOwnModule tokens hsub hdescription,
      TagMap.first_erase]
    by_cases hused : field ∈ ["class", "module", "extends", "uses"]
    · rw [if_pos hused]
      simp only [List.mem_cons, List.not_mem_nil, or_false] at hused
      rcases hused with rfl | rfl | rfl | rfl <;> rfl
    · rw [if_neg hused]
      simp only [List.mem_cons, List.not_mem_nil, or_false, not_or] at hused
      rw [if_neg hused.2.2.2, if_neg hused.2.2.1, if_neg hused.2.1, if_neg hused.1]

/-- A comment about a module leaves all tags but its own. -/
private theorem leaves_placeModule (h : Subject.ofTags tags = .mod) :
    Leaves tags (s.placeModule tokens tags true).2 := by
  have hfirst (field : String) (hfield : field ∈ ModuleDoc.unfilled) :
      (s.placeModule tokens tags true).2.tags.first field =
        if field ∈ ["module"] then none else tags.first field := by
    have hother : ∀ field ∈ ModuleDoc.unfilled, field ≠ "submodule" ∧ field ≠ "description" := by
      decide
    obtain ⟨hsub, hdescription⟩ := hother field hfield
    rw [first_placeModule tokens true hsub hdescription]
    simp only [List.mem_singleton]
  rw [placeModule, ← TagMap.moduleNames] at hfirst ⊢
  dsimp only at hfirst ⊢
  cases hnames : tags.moduleNames.getLast? with
  | none =>
    have hunnamed : namesSubject tags = false := by
      rw [namesSubject, h, List.getLast?_eq_none_iff.1 hnames]
      rfl
    exact .nothing hunnamed fun target htarget => by cases htarget
  | some mod =>
    rw [hnames] at hfirst
    have hnamed : namesSubject tags = true := by
      rw [namesSubject, h]
      cases hlist : tags.moduleNames with
      | nil =>
        rw [hlist] at hnames
        cases hnames
      | cons => rfl
    exact .tags hnamed (.mod mod) rfl ["module"] hfirst fun constructor => by
      rw [h]
      exact openFields_module constructor

/-- A comment about a member leaves all tags but its own. -/
private theorem leaves_placeMember {kind : MemberKind}
    (h : (Subject.ofTags tags).memberKind? = some kind)
    {s₁ : Session} {p : Placed}
    (hp : s.placeMember tokens tags (Subject.ofTags tags) kind = (s₁, .ok p)) : Leaves tags p := by
  have hnames := namesSubject_member h
  rw [placeMember, withClass] at hp
  cases hname : tags.name? (Subject.ofTags tags).word with
  | none =>
    rw [hname] at hp hnames
    cases hp
    exact .nothing hnames fun target htarget => by cases htarget
  | some name =>
    rw [hname] at hp hnames
    dsimp only at hp
    split at hp
    · cases hp
    · split at hp
      · cases hp
      · cases hp
        refine .tags hnames _ rfl (kind.ownTags ++ kind.signatureTags) (fun field _ => ?_)
          (openFields_member h)
        dsimp only
        rw [← List.foldl_append, TagMap.first_foldl_erase]

/-- **What the subject of a comment leaves**, if it can be placed. -/
theorem leaves_placeSubject {outer : Option String} {s₁ : Session} {p : Placed}
    (hp : s.placeSubject tokens tags outer = (s₁, .ok p)) : Leaves tags p := by
  cases hkind : (Subject.ofTags tags).memberKind? with
  | some kind =>
    rw [placeSubject_eq_placeMember tokens tags hkind] at hp
    exact leaves_placeMember tokens hkind hp
  | none =>
    rw [placeSubject] at hp
    cases h : Subject.ofTags tags with
    | file =>
      rw [h] at hp
      cases hp
      refine .nothing (by rw [namesSubject, h]) fun target htarget => ?_
      split at htarget
      · cases htarget
      · cases htarget
        rfl
    | cls =>
      rw [h] at hp
      cases hp
      exact leaves_placeClassComment tokens h outer
    | mod =>
      rw [h] at hp
      cases hp
      exact leaves_placeModule tokens h
    | nothing =>
      rw [h] at hp
      refine .nothing (by rw [namesSubject, h]) fun target htarget => ?_
      dsimp only at hp
      split at hp <;> cases hp <;> cases htarget
    | method | event | property | attr | config =>
      rw [h] at hkind
      cases hkind

/-! ### What a comment documents -/

/-- The class that a comment is about is the current one when it was placed. -/
private theorem inClass_placeClassComment {inner : Option String} {cls : String}
    (h : (s.placeClassComment tokens tags inner).2.target = some (.cls cls)) :
    (s.placeClassComment tokens tags inner).1.context.inClass = some cls := by
  rw [placeClassComment] at h ⊢
  cases hname : tags.name? "class" with
  | none =>
    rw [hname] at h
    cases h
  | some name =>
    rw [hname] at h
    cases h
    have hown := ((s.defineClass tokens name).keeps_placeOwnModule tokens (tags.erase "class")).1
    rw [(context_defineClass s tokens name).1] at hown
    dsimp only
    rw [inClass_class, hown]

/-- Only a comment about a class documents one. -/
private theorem inClass_of_target {outer : Option String} {s₁ : Session} {p : Placed} {cls : String}
    (hp : s.placeSubject tokens tags outer = (s₁, .ok p)) (htarget : p.target = some (.cls cls)) :
    s₁.context.inClass = some cls := by
  revert hp
  refine s.placeSubject_cases tokens tags outer
    (P := fun o => o = (s₁, .ok p) → s₁.context.inClass = some cls) (fun _ o h hp => ?_)
    (fun _ hp => ?_) (fun _ hp => ?_) (fun _ hp => ?_) fun _ s' _ hp => ?_
  · subst hp
    cases h <;> cases htarget
  · cases hp
    rw [placeFileMarker] at htarget
    split at htarget <;> cases htarget
  · cases hp
    exact inClass_placeClassComment tokens htarget
  · cases hp
    rw [placeModule] at htarget
    dsimp only at htarget
    split at htarget <;> cases htarget
  · cases hp
    cases htarget

/-- What a comment documents is there once its subject was placed. -/
private theorem holds_placeSubject (known : s.ContextKnown) {outer : Option String} {s₁ : Session}
    {p : Placed} (hp : s.placeSubject tokens tags outer = (s₁, .ok p)) : s₁.Holds p.target := by
  have hplaces := places_subject tokens tags known outer
  rw [hp] at hplaces
  have hknown : s₁.ContextKnown := hplaces.changes.contextKnown known
  have hready := hplaces.ready p rfl
  cases htarget : p.target with
  | none => trivial
  | some target =>
    cases target with
    | mod name => trivial
    | file => trivial
    | member cls kind name => exact hready cls kind name htarget
    | cls cls => exact hknown.inClass cls (inClass_of_target tokens hp htarget)

/-- What is there stays. -/
private theorem Changes.holds {s' : Session} (h : Changes s s') {target : Option Target}
    (hs : s.Holds target) : s'.Holds target := by
  cases target with
  | none => trivial
  | some target =>
    cases target with
    | cls name => exact h.knows hs
    | member cls kind name => exact h.written hs
    | mod name => trivial
    | file => trivial

/-! ### Whole comments -/

/-- A constructor uses up the tags of its signature. -/
private theorem tags_placeConstructor {s₁ : Session} {rest : TagMap}
    (h : s.placeConstructor tokens tags = (s₁, .ok rest)) :
    rest = (tags.erase "param").erase "return" := by
  rw [placeConstructor] at h
  split at h
  · cases h
  · split at h
    · cases h
    · split at h
      · cases h
      · cases h
        rfl

/-- **Placing a comment keeps a model separate** unless it succeeds and a tag shadows a field. -/
theorem separate_place_iff (known : s.ContextKnown) (hs : s.model.Separate)
    (htags : tags.Prepared) (outer : Option String) :
    (s.place tokens tags outer).1.model.Separate ↔
      ¬((s.place tokens tags outer).2.isOk = true ∧ ShadowsField tags) := by
  have hsubject := separate_placeSubject tokens tags hs outer
  have hseeks : s.SeeksClass tags (s.placeSubject tokens tags outer) :=
    seeksClass_placeSubject tokens known outer
  have hconstructor := hseeks.constructor
  have hholds (s₁ : Session) (p : Placed) (hp : s.placeSubject tokens tags outer = (s₁, .ok p)) :=
    holds_placeSubject tokens known hp
  have hleaves (s₁ : Session) (p : Placed) (hp : s.placeSubject tokens tags outer = (s₁, .ok p)) :=
    (leaves_placeSubject tokens hp).shadows_iff htags
  have hknown : (s.placeSubject tokens tags outer).1.ContextKnown :=
    (places_subject tokens tags known outer).changes.contextKnown known
  rw [place]
  generalize s.placeSubject tokens tags outer = o at hsubject hconstructor hholds hleaves hknown ⊢
  obtain ⟨s₁, r⟩ := o
  cases r with
  | error e => exact iff_of_true hsubject fun h => Bool.false_ne_true h.1
  | ok p =>
    have hp := hholds s₁ p rfl
    have hshadows := hleaves s₁ p rfl
    have hsome := hconstructor p rfl
    rw [← hsome] at hshadows
    dsimp only
    split
    · rename_i hcontains
      rw [hcontains] at hshadows
      have hafter := separate_placeConstructor tokens (p.tags.erase "constructor") hsubject
      have hchanges := changes_placeConstructor tokens (p.tags.erase "constructor") hknown
      split
      · rename_i heq
        rw [heq] at hafter
        exact iff_of_true hafter fun h => Bool.false_ne_true h.1
      · rename_i s₂ rest heq
        rw [heq] at hafter hchanges
        rw [separate_applyLeftovers (p := { p with tags := rest }) (hchanges.holds hp),
          and_iff_right hafter, tags_placeConstructor tokens heq, ← hshadows]
        exact (not_congr (and_iff_right rfl)).symm
    · rename_i hcontains
      rw [Bool.eq_false_iff.2 hcontains] at hshadows
      rw [separate_applyLeftovers hp, and_iff_right hsubject, ← hshadows]
      exact (not_congr (and_iff_right rfl)).symm

/-- A comment can be read if it can be placed. -/
private theorem isOk_readComment (following : Option String) :
    (s.readComment tokens following).2.isOk =
      ((s.prepare tokens following).1.place tokens (s.prepare tokens following).2
        (TagMap.first (s.prepare tokens following).2 "for")).2.isOk := by
  rw [readComment]
  dsimp only
  split
  · rename_i heq
    rw [heq]
    rfl
  · rename_i heq
    rw [heq]
    rfl

/-! ### Runs -/

/-- **An input shadows a field**: it is a comment that can be read and has such a tag. -/
def Shadows (s : Session) : Input → Prop
  | .comment tokens following =>
    (s.readComment tokens following).2.isOk = true ∧ ShadowsField (s.prepare tokens following).2
  | .root => False

instance (s : Session) (i : Input) : Decidable (s.Shadows i) :=
  match i with
  | .comment _ _ => inferInstanceAs (Decidable (_ ∧ _))
  | .root => inferInstanceAs (Decidable False)

/-- A model that is separate stays so exactly if the input shadows nothing. -/
theorem separate_step_iff (known : s.ContextKnown) (hs : s.model.Separate) (i : Input) :
    (s.step i).model.Separate ↔ ¬s.Shadows i := by
  cases i with
  | root => exact iff_of_true hs not_false
  | comment tokens following =>
    have hknown : (s.prepare tokens following).1.ContextKnown :=
      (changes_prepare s tokens following).contextKnown known
    rw [step, readComment_fst, separate_place_iff tokens hknown
      (separate_prepare tokens hs following) (s.prepared_prepare tokens following),
      ← isOk_readComment]
    exact Iff.rfl

private theorem separate_start (version : String) (v : UInt32) : (start version v).model.Separate :=
  ⟨fun _ he => absurd he List.not_mem_nil, fun _ he => absurd he List.not_mem_nil⟩

/-- **A model is separate** if and only if no comment of the run has shadowed a field. -/
theorem separate_run_iff (version : String) (v : UInt32) (inputs : List Input) :
    ((start version v).run inputs).model.Separate ↔
      ∀ earlier i, earlier ++ [i] <+: inputs → ¬((start version v).run earlier).Shadows i := by
  have hshadowed : ¬((start version v).run inputs).model.Separate ↔
      ∃ earlier i, earlier ++ [i] <+: inputs ∧ ((start version v).run earlier).Shadows i := by
    refine run_iff_exists (P := fun s => ¬s.model.Separate)
      (not_not.2 (separate_start version v)) (fun inputs i => ?_) inputs
    have hstart := contextKnown_start version v
    have hknown := (changes_run hstart inputs).contextKnown hstart
    by_cases hold : ((start version v).run inputs).model.Separate
    · rw [separate_step_iff hknown hold i, not_not, or_iff_right (not_not.2 hold)]
    · -- what is shadowed stays shadowed, since no attribute is lost
      have hgrows := Changes.grows_of_run (changes_step hknown i)
      exact iff_of_true (fun h => hold (hgrows.separate h)) (.inl hold)
  rw [← not_not (a := ((start version v).run inputs).model.Separate), hshadowed]
  simp only [not_exists, not_and]

/-- **A model reads back as itself** if and only if none of its attributes has the name of a field,
and so if and only if no comment of the run has shadowed one. -/
theorem readsBack_run_iff (version : String) (v : UInt32) (inputs : List Input) :
    let m := ((start version v).run inputs).model
    (Model.ofDocument m.document = .ok m ↔ m.Separate) ∧
      (m.Separate ↔ ∀ earlier i, earlier ++ [i] <+: inputs →
        ¬((start version v).run earlier).Shadows i) :=
  ⟨⟨Model.separate_of_ofDocument, Model.ofDocument_document⟩, separate_run_iff version v inputs⟩

/-- What an event returns shadows a field; what a method returns is read. -/
example :
    let s := (start "1.0.0" 3).run [.comment ["@class A"] none]
    s.Shadows (.comment ["@event e", "@return {T} d"] none) ∧
      ¬s.Shadows (.comment ["@method m", "@return {T} d"] none) := by
  decide +kernel

end Session

end ApiDocs
