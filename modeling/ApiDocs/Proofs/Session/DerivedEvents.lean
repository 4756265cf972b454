import ApiDocs.Proofs.Session.Run

/-!
# Events derived from configs

A config derives events, and an author may write an event of the same name before or after it.
`ClassDoc.EventsAgree` says how the two fit together in one class: every config has its events,
every derived event is one that some config derives, unchanged, and nothing but an event is ever
derived. It holds of all classes after every run, and an event once written stays a written one
(`eventsAgree_run`).
-/

namespace ApiDocs

namespace ClassDoc

/-- **The events and configs of a class agree**, in a model of major version `v`. -/
structure EventsAgree (v : UInt32) (c : ClassDoc) : Prop where
  /-- Every event that a config derives has its name taken. -/
  derived : ∀ config, c.configs.contains config = true → ∀ e ∈ changeEvents config v,
    c.events.contains e.name = true
  /-- A derived event is under its own name, and some config derives it as it is. -/
  synthetic : ∀ name e, c.events.get? name = some e → e.synthetic = true →
    e.name = name ∧ ∃ config, c.configs.contains config = true ∧ e ∈ changeEvents config v
  /-- Members of the other kinds are written. -/
  others : ∀ kind name m, kind ≠ .event → (c.members kind).get? name = some m →
    m.synthetic = false

namespace EventsAgree

variable {v : UInt32} {key : String} {c c' : ClassDoc}

private theorem of_fresh (h : c.Fresh key) : c.EventsAgree v := by
  obtain ⟨ns, name, -, hc⟩ := h
  rw [hc]
  refine ⟨fun config h => absurd h (by simp [Dict.contains]), fun name e h => absurd h (by simp),
    fun kind name m _ h => ?_⟩
  cases kind <;> exact absurd h (by simp [members])

/-- Only the members matter. -/
private theorem of_members_eq (h : c.EventsAgree v) (hm : c'.members = c.members) :
    c'.EventsAgree v := by
  have hevents : c'.events = c.events := congrFun hm .event
  have hconfigs : c'.configs = c.configs := congrFun hm .config
  refine ⟨?_, ?_, ?_⟩
  · rw [hevents, hconfigs]
    exact h.derived
  · rw [hevents, hconfigs]
    exact h.synthetic
  · rw [hm]
    exact h.others

/-- One member becomes a written one, and no config is new. -/
private theorem of_written_at (h : c.EventsAgree v) (kind : MemberKind) (name : String)
    {doc : MemberDoc}
    (written : doc.synthetic = false)
    (old : kind = .config → c.configs.contains name = true)
    (hget : ∀ k n, (c'.members k).get? n =
      if k = kind ∧ n = name then some doc else (c.members k).get? n) : c'.EventsAgree v := by
  have hevents : ∀ n, c'.events.get? n = _ := hget .event
  have hconfigs : ∀ n, c'.configs.contains n = c.configs.contains n := by
    intro n
    have hn : c'.configs.get? n = _ := hget .config n
    rw [Dict.contains, hn]
    split
    · rename_i hk
      rw [hk.2, old hk.1.symm, Option.isSome_some]
    · rfl
  refine ⟨fun config hc e he => ?_, fun n e hn hs => ?_, fun k n m hk hn => ?_⟩
  · rw [hconfigs] at hc
    have hev := h.derived config hc e he
    rw [Dict.contains, hevents]
    split
    · rfl
    · exact hev
  · rw [hevents] at hn
    split at hn
    · cases hn
      exact absurd hs (by simp [written])
    · obtain ⟨hname, config, hc, he⟩ := h.synthetic n e hn hs
      exact ⟨hname, config, by rwa [hconfigs], he⟩
  · rw [hget] at hn
    split at hn
    · cases hn
      exact written
    · exact h.others k n m hk hn

/-- A written member goes to a place of its own or takes that of a derived event. -/
private theorem insertMember (h : c.EventsAgree v) {kind : MemberKind} {doc : MemberDoc}
    (notConfig : kind ≠ .config) (written : doc.synthetic = false) :
    (c.setMembers kind ((c.members kind).insert doc.name doc)).EventsAgree v := by
  refine h.of_written_at kind doc.name written (fun hk => absurd hk notConfig) fun k n => ?_
  rw [members_setMembers]
  by_cases hk : k = kind
  · subst hk
    simp [Dict.get?_insert]
  · simp [hk]

/-- Tags are copied to a written member only, so a derived event stays as it was derived. -/
private theorem tagMember (h : c.EventsAgree v) {kind : MemberKind} {name : String}
    (tags : List (String × String)) (hw : c.HasWritten kind name) :
    (c.modifyMember kind name (·.applyTags tags)).EventsAgree v := by
  obtain ⟨doc, hdoc, hs⟩ := hw
  refine h.of_written_at kind name ((synthetic_applyTags doc tags).trans hs) ?_ fun k n => ?_
  · rintro rfl
    exact Dict.contains_of_get? hdoc
  · rw [modifyMember, members_setMembers]
    by_cases hk : k = kind
    · subst hk
      by_cases hn : n = name
      · subst hn
        simp [Dict.get?_modify, hdoc]
      · simp [Dict.get?_modify, hn]
    · simp [hk]

/-- The events of one config are added. Before that, all other configs have theirs. -/
private theorem addEvents (config : String) (hconfig : c.configs.contains config = true)
    (derived : ∀ config', c.configs.contains config' = true → config' ≠ config →
      ∀ e ∈ changeEvents config' v, c.events.contains e.name = true)
    (synthetic : ∀ name e, c.events.get? name = some e → e.synthetic = true →
      e.name = name ∧ ∃ config, c.configs.contains config = true ∧ e ∈ changeEvents config v)
    (others : ∀ kind name m, kind ≠ .event → (c.members kind).get? name = some m →
      m.synthetic = false) :
    (c.addNewEvents (changeEvents config v)).EventsAgree v := by
  have hconfigs : (c.addNewEvents (changeEvents config v)).configs = c.configs :=
    members_addNewEvents c (changeEvents config v) (by decide : MemberKind.config ≠ .event)
  refine ⟨fun config' hc e he => ?_, fun n e hn hs => ?_, fun k n m hk hn => ?_⟩
  · rw [hconfigs] at hc
    rw [Dict.contains, get?_events_addNewEvents, Option.isSome_or, Bool.or_eq_true]
    -- the events of this config are the new ones; those of the others are there
    by_cases heq : config' = config
    · subst heq
      refine .inr (List.find?_isSome.2 ⟨e, he, by simp⟩)
    · exact .inl (derived config' hc heq e he)
  · rw [get?_events_addNewEvents, Option.or_eq_some_iff] at hn
    rw [hconfigs]
    rcases hn with hn | ⟨-, hn⟩
    · exact synthetic n e hn hs
    · exact ⟨by simpa using List.find?_some hn, config, hconfig, List.mem_of_find?_eq_some hn⟩
  · rw [members_addNewEvents c _ hk] at hn
    exact others k n m hk hn

/-- A config comes with its events. -/
private theorem insertConfig (h : c.EventsAgree v) (name : String) :
    (addNewEvents { c with configs := c.configs.insert name { name } }
      (changeEvents name v)).EventsAgree v := by
  refine addEvents name (by simp) (fun config' hc hne e he => ?_) (fun n e hn hs => ?_)
    fun k n m hk hn => ?_
  · exact h.derived config' (by simpa [hne] using hc) e he
  · obtain ⟨hname, config, hc, he⟩ := h.synthetic n e hn hs
    exact ⟨hname, config, by simp [hc], he⟩
  · by_cases hkind : k = .config
    · subst hkind
      have hn' : (c.configs.insert name { name }).get? n = some m := hn
      rw [Dict.get?_insert] at hn'
      split at hn'
      · cases hn'
        rfl
      · exact h.others .config n m hk hn'
    · refine h.others k n m hk ?_
      cases k with
      | config => exact absurd rfl hkind
      | method => exact hn
      | event => exact hn
      | property => exact hn

/-- **Edits keep events and configs in agreement.** -/
theorem edit (h : c.EventsAgree v) (e : Edit v key c c') : c'.EventsAgree v := by
  cases e with
  | setModule mod => exact h.of_members_eq rfl
  | setFile file => exact h.of_members_eq rfl
  | addInner inner other => exact h.of_members_eq rfl
  | relate tags inner other => exact h.of_members_eq rfl
  | insertMember kind doc notConfig written free => exact h.insertMember notConfig written
  | insertConfig name free => exact h.insertConfig name
  | repeatConfig name taken =>
    obtain ⟨doc, hdoc, -⟩ := taken
    exact addEvents name (Dict.contains_of_get? hdoc) (fun config hc _ => h.derived config hc)
      h.synthetic h.others
  | addConstructor doc => exact h.of_members_eq rfl
  | applyTags tags => exact h.of_members_eq (members_applyTags c tags)
  | tagMember kind name tags written => exact h.tagMember tags written

end EventsAgree

end ClassDoc

namespace Session

/-- A comment is about an event and puts it into a class: the class is found and the parameters
can be read. What its remaining tags do does not matter. -/
def PlacesEvent (s : Session) (tokens : List String) (following : Option String)
    (cls event : String) : Prop :=
  Subject.ofTags (s.prepare tokens following).2 = .event ∧
    ((s.prepare tokens following).1.placeEvent tokens
      (s.prepare tokens following).2).2.toOption.bind Placed.target =
        some (.member cls .event event)

instance (s : Session) (tokens : List String) (following : Option String) (cls event : String) :
    Decidable (s.PlacesEvent tokens following cls event) :=
  inferInstanceAs (Decidable (_ ∧ _))

/-- An event is a written one right after the comment that places it. -/
private theorem PlacesEvent.written {s : Session} (hs : s.ContextKnown) {tokens : List String}
    {following : Option String} {cls event : String}
    (h : s.PlacesEvent tokens following cls event) :
    (s.step (.comment tokens following)).Written cls .event event := by
  obtain ⟨hsubject, hplaced⟩ := h
  obtain ⟨s', p, hplace, htarget⟩ : ∃ s' p,
      (s.prepare tokens following).1.placeEvent tokens (s.prepare tokens following).2 =
        (s', .ok p) ∧ p.target = some (.member cls .event event) := by
    cases hplace : (s.prepare tokens following).1.placeEvent tokens
        (s.prepare tokens following).2 with
    | mk s' r =>
      rw [hplace] at hplaced
      cases r with
      | error e => cases hplaced
      | ok p => exact ⟨s', p, rfl, hplaced⟩
  have hs₁ := (changes_prepare s tokens following).contextKnown hs
  have hsub : (s.prepare tokens following).1.placeSubject tokens (s.prepare tokens following).2
      (TagMap.first (s.prepare tokens following).2 "for") = (s', .ok p) := by
    rw [placeSubject, hsubject]
    exact hplace
  have hw : s'.Written cls .event event := by
    have hp := places_subject tokens (s.prepare tokens following).2 hs₁
      (TagMap.first (s.prepare tokens following).2 "for")
    rw [hsub] at hp
    exact hp.ready p rfl cls .event event htarget
  -- the rest of the comment is changes, whether it fails or not
  rw [step, readComment_fst]
  exact Changes.written (changes_after_subject tokens _ hs₁ hsub) hw

/-- The events and configs of all classes agree after every run. -/
theorem forall_eventsAgree (version : String) (v : UInt32) (inputs : List Input) :
    ∀ cls c, ((start version v).run inputs).model.classes.get? cls = some c →
      c.EventsAgree v := by
  refine (changes_run (contextKnown_start version v) inputs).classesEvolve.forall_classes
    (fun cls c hc => .of_fresh hc) (fun cls c c' e hc => hc.edit e) fun cls c hc => ?_
  exact absurd hc (by simp [start])

/-- **Derived events.** After every run under major version `v`, the events and configs of every
class agree. An event that a comment places in a class is a written one from then on, whatever
is read later, and so whether a config that derives its name comes before it or after it. -/
theorem eventsAgree_run (version : String) (v : UInt32) (inputs : List Input) :
    (∀ cls c, ((start version v).run inputs).model.classes.get? cls = some c →
      c.EventsAgree v) ∧
    ∀ tokens following cls event,
      ((start version v).run inputs).PlacesEvent tokens following cls event →
      ∀ later, ((((start version v).run inputs).step (.comment tokens following)).run
        later).Written cls .event event := by
  refine ⟨forall_eventsAgree version v inputs, fun tokens following cls event h later => ?_⟩
  have hs : ((start version v).run inputs).ContextKnown :=
    (changes_run (contextKnown_start version v) inputs).contextKnown (contextKnown_start version v)
  have hs' := (changes_step hs (.comment tokens following)).contextKnown hs
  exact (changes_run hs' later).written (h.written hs)

/-- A config derives an event, an author writes one of that name, and the config is repeated. -/
theorem eventsAgree_run_size :
    ((start "" 3).run [.comment ["@class", "Box"] none,
      .comment ["@config", "size"] none]).PlacesEvent ["@event", "sizeChangeEvent"] none
        "Box" "sizeChangeEvent" ∧
    ((((start "" 3).run [.comment ["@class", "Box"] none,
      .comment ["@config", "size"] none]).step (.comment ["@event", "sizeChangeEvent"] none)).run
        [.comment ["@config", "size"] none]).Written "Box" .event "sizeChangeEvent" := by
  have h : ((start "" 3).run [.comment ["@class", "Box"] none,
      .comment ["@config", "size"] none]).PlacesEvent ["@event", "sizeChangeEvent"] none
        "Box" "sizeChangeEvent" := by
    decide +kernel
  exact ⟨h, (eventsAgree_run "" 3 _).2 _ _ _ _ h _⟩

end Session

end ApiDocs
