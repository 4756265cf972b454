import ApiDocs.Proofs.Json.Records

/-!
# What readers can give

`Yields read P` says that everything the reader gives has the property `P`. Objects keep a property
of the state if every member does (`membersFrom_keeps`), and so **a dictionary holds only values
that its value reader can give** (`yields_dict`), **a closed record has every property that its
fields keep** (`yields_closed`), and **an open record has besides no attribute with the name of a
field** (`yields_open`).
-/

namespace ApiDocs.Json

variable {α σ : Type}

/-- Everything that the reader gives has the property. -/
def Yields (read : Reader α) (P : α → Prop) : Prop :=
  ∀ cs a rest, read cs = .ok (a, rest) → P a

private theorem map_eq_ok {β γ : Type} {x : Except Fault β} {f : β → γ} {c : γ}
    (h : x.map f = .ok c) : ∃ b, x = .ok b ∧ f b = c := by
  cases x with
  | error e => cases h
  | ok b =>
    cases h
    exact ⟨b, rfl, rfl⟩

theorem Yields.map {β : Type} {read : Reader α} {P : α → Prop} (h : Yields read P) {f : α → β}
    {Q : β → Prop} (hf : ∀ a, P a → Q (f a)) :
    Yields (fun cs => (read cs).map fun r => (f r.1, r.2)) Q := by
  intro cs b rest hread
  obtain ⟨⟨a, rest'⟩, hcs, heq⟩ := map_eq_ok hread
  cases heq
  exact hf a (h cs a _ hcs)

/-- Anything has no property in particular. -/
theorem yields_true (read : Reader α) : Yields read fun _ => True := fun _ _ _ _ => trivial

/-! ### Objects -/

private theorem bind_eq_ok {β γ : Type} {x : Except Fault β} {f : β → Except Fault γ} {c : γ}
    (h : (x >>= f) = .ok c) : ∃ b, x = .ok b ∧ f b = .ok c := by
  cases x with
  | error e => cases h
  | ok b => exact ⟨b, rfl, h⟩

/-- **What every member keeps is kept by the object.** -/
theorem membersFrom_keeps {member : σ → String → Except Fault (Reader σ)} {I : σ → Prop}
    (hmember : ∀ acc name read, I acc → member acc name = .ok read → Yields read I)
    {bound cs rest : List Char} {first : Bool} {acc acc' : σ} (hacc : I acc)
    (h : membersFrom member bound first acc cs = .ok (acc', rest)) : I acc' := by
  induction bound generalizing cs first acc with
  | nil => cases h
  | cons b bound ih =>
    rw [membersFrom] at h
    split at h
    · cases h
      exact hacc
    · obtain ⟨start, -, h⟩ := bind_eq_ok h
      obtain ⟨⟨name, after⟩, -, h⟩ := bind_eq_ok h
      obtain ⟨read, hread, h⟩ := bind_eq_ok h
      obtain ⟨value, -, h⟩ := bind_eq_ok h
      obtain ⟨⟨next, after'⟩, hnext, h⟩ := bind_eq_ok h
      exact ih (hmember acc name read hacc hread value next after' hnext) h

theorem yields_dict {read : Reader α} {P : α → Prop} (h : Yields read P) :
    Yields (readDict read) fun d => ∀ e ∈ d.entries, P e.2 := by
  intro cs d rest hread
  rw [readDict] at hread
  split at hread
  · have hempty : ∀ e ∈ (Dict.empty : Dict α).entries, P e.2 := by
      intro e he
      cases he
    refine membersFrom_keeps (I := fun d => ∀ e ∈ d.entries, P e.2) ?_ hempty hread
    rintro acc name _ hacc ⟨⟩
    refine h.map fun a ha e he => ?_
    rcases Dict.mem_insertEntry he with rfl | he
    · exact ha
    · exact hacc e he
  · cases hread

/-! ### Records -/

/-- Reading the field keeps a property of the record. -/
def RecordField.Keeps (f : RecordField σ) (I : σ → Prop) : Prop := ∀ a, I a → Yields (f.read a) I

theorem keeps_field {name : String} {read : Reader α} {set : σ → α → σ} {I : σ → Prop}
    {P : α → Prop} (h : Yields read P) (hset : ∀ a x, I a → P x → I (set a x)) :
    (field name read set).Keeps I :=
  fun a ha => h.map fun x hx => hset a x ha hx

/-- A field that the property does not depend on. -/
theorem keeps_other {name : String} {read : Reader α} {set : σ → α → σ} {I : σ → Prop}
    (hset : ∀ a x, I a → I (set a x)) : (field name read set).Keeps I :=
  keeps_field (yields_true read) fun a x ha _ => hset a x ha

private theorem fieldsFrom_keeps {fields : List (RecordField σ)} {I : σ → Prop}
    (h : ∀ f ∈ fields, f.Keeps I) {first : Bool} {a b : σ} {cs rest : List Char} (ha : I a)
    (hread : fieldsFrom fields first a cs = .ok (b, rest)) : I b := by
  induction fields generalizing first a cs with
  | nil =>
    rw [fieldsFrom] at hread
    split at hread
    · cases hread
      exact ha
    · cases hread
  | cons f fields ih =>
    rw [fieldsFrom] at hread
    split at hread
    · cases hread
      exact ha
    · dsimp only at hread
      split at hread
      · cases hread
      · split at hread
        · cases hread
        · rename_i hf
          exact ih (fun g hg => h g (List.mem_cons_of_mem f hg))
            (h f List.mem_cons_self a ha _ _ _ hf) hread

/-- What every field keeps is kept by a member of any name. -/
private theorem member_keeps {fields : List (RecordField σ)} {I : σ → Prop}
    (h : ∀ f ∈ fields, f.Keeps I)
    {J : List (String × Option String) → Prop}
    {other : Partial σ → String → Reader (Partial σ)}
    (hother : ∀ p name, name ∉ fields.map (·.name) → I p.fields ∧ J p.unknown →
      Yields (other p name) fun q => I q.fields ∧ J q.unknown)
    (p : Partial σ) (name : String) (read : Reader (Partial σ)) (hp : I p.fields ∧ J p.unknown)
    (hread : Partial.member fields other p name = .ok read) :
    Yields read fun q => I q.fields ∧ J q.unknown := by
  rw [Partial.member] at hread
  split at hread
  · rename_i hnone
    cases hread
    refine hother p name ?_ hp
    rw [List.mem_map]
    rintro ⟨f, hf, rfl⟩
    exact List.find?_eq_none.1 hnone f hf (by simp)
  · rename_i f hfind
    split at hread
    · cases hread
    · cases hread
      have hf := h f (List.mem_of_find?_eq_some hfind) p.fields hp.1
      exact hf.map (f := fun a => (⟨a, name :: p.given, p.unknown⟩ : Partial σ))
        fun a ha => ⟨ha, hp.2⟩

/-- **A closed record has every property that its fields keep.** -/
theorem yields_closed {fields : List (RecordField σ)} {blank : σ} {I : σ → Prop}
    (h : ∀ f ∈ fields, f.Keeps I) (hblank : I blank) : Yields (readClosed fields blank) I := by
  intro cs a rest hread
  rw [readClosed] at hread
  split at hread
  · obtain ⟨⟨p, rest'⟩, hmembers, heq⟩ := map_eq_ok hread
    cases heq
    have hother (p : Partial σ) (name : String) (_ : name ∉ fields.map (·.name))
        (hp : I p.fields ∧ True) : Yields
          (fun cs => (skipValue cs).map fun r => (p, r.2)) fun q => I q.fields ∧ True :=
      (yields_true skipValue).map (f := fun _ => p) fun _ _ => hp
    have hkeeps := member_keeps h (J := fun _ => True) hother
    exact (membersFrom_keeps hkeeps ⟨hblank, trivial⟩ hmembers).1
  · exact fieldsFrom_keeps h hblank hread
  · cases hread

private theorem mem_keys_ofList {l : List (String × α)} {key : String}
    (h : key ∈ (Dict.ofList l).keys) :
    key ∈ l.map (·.1) := by
  have hentries (l : List (String × α)) (d : Dict α) {e : String × α}
      (he : e ∈ (l.foldl (fun d e => d.insert e.1 e.2) d).entries) : e ∈ d.entries ∨ e ∈ l := by
    induction l generalizing d with
    | nil => exact .inl he
    | cons x l ih =>
      rcases ih (d.insert x.1 x.2) he with he | he
      · rcases Dict.mem_insertEntry he with rfl | he
        · exact .inr List.mem_cons_self
        · exact .inl he
      · exact .inr (List.mem_cons_of_mem x he)
  obtain ⟨e, he, rfl⟩ := List.mem_map.1 h
  rcases hentries l Dict.empty he with he | he
  · cases he
  · exact List.mem_map_of_mem he

private theorem clear_of_unknownTexts {fields : List (RecordField σ)}
    {unknown : List (String × Option String)} {attributes : Dict String}
    (h : ∀ e ∈ unknown, e.1 ∉ fields.map (·.name))
    (htexts : unknownTexts unknown = some attributes) : Clear fields attributes := by
  intro key hkey
  rw [unknownTexts] at htexts
  split at htexts
  · cases htexts
    have hmem := mem_keys_ofList hkey
    rw [List.map_map] at hmem
    obtain ⟨e, he, rfl⟩ := List.mem_map.1 hmem
    exact h e he
  · cases htexts

/-- **An open record has every property that its fields keep, and no attribute has the name of a
field.** -/
theorem yields_open {fields : List (RecordField σ)} {blank : σ} {I Q : σ → Prop} {depth : Nat}
    {setUnknown : σ → Dict String → σ} (h : ∀ f ∈ fields, f.Keeps I) (hblank : I blank)
    (hset : ∀ a attributes, I a → Clear fields attributes → Q (setUnknown a attributes)) :
    Yields (readOpen depth fields blank setUnknown) Q := by
  intro cs a rest hread
  rw [readOpen] at hread
  split at hread
  · dsimp only at hread
    split at hread
    · cases hread
    · rename_i p rest' hmembers
      have hother (p : Partial σ) (name : String) (hname : name ∉ fields.map (·.name))
          (hp : I p.fields ∧ ∀ e ∈ p.unknown, e.1 ∉ fields.map (·.name)) :
          Yields (keepUnknown depth p name) fun q =>
            I q.fields ∧ ∀ e ∈ q.unknown, e.1 ∉ fields.map (·.name) := by
        refine (yields_true (readAny depth)).map (f := fun s =>
          (⟨p.fields, p.given, (name, s) :: p.unknown⟩ : Partial σ)) fun s _ => ⟨hp.1, ?_⟩
        exact List.forall_mem_cons.2 ⟨hname, hp.2⟩
      have hkeeps := member_keeps h
        (J := fun unknown => ∀ e ∈ unknown, e.1 ∉ fields.map (·.name)) hother
      obtain ⟨hfields, hunknown⟩ :=
        membersFrom_keeps hkeeps ⟨hblank, fun e he => absurd he List.not_mem_nil⟩ hmembers
      split at hread
      · rename_i attributes htexts
        cases hread
        refine hset p.fields attributes hfields (clear_of_unknownTexts ?_ htexts)
        exact fun e he => hunknown e (List.mem_reverse.1 he)
      · cases hread
  · cases hread

end ApiDocs.Json
