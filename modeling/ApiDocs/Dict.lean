/-!
# Dictionaries with text keys

`Dict α` is a finite map from strings to `α`, kept as a list of entries in strictly ascending key
order. The order is part of the type, so two dictionaries with the same bindings are equal
(`Dict.ext_get?`), and a listing of the entries needs no sorting. `get?` is the view through which
the operations are described: `get?_insert`, `get?_insertNew`, `get?_erase`, `get?_modify`.
-/

namespace ApiDocs

universe u

/-- A finite map from strings to `α`, entries in strictly ascending key order. -/
structure Dict (α : Type u) where
  /-- The entries, in key order. -/
  entries : List (String × α)
  /-- Keys ascend strictly, so none occurs twice. -/
  sorted : entries.Pairwise (fun a b => a.1 < b.1)

namespace Dict

variable {α : Type u}

/-- Dictionaries are equal as soon as their entries are. -/
theorem ext_entries {d e : Dict α} (h : d.entries = e.entries) : d = e := by
  cases d; cases e; cases h; rfl

instance [DecidableEq α] : DecidableEq (Dict α) := fun d e =>
  decidable_of_iff (d.entries = e.entries) ⟨ext_entries, fun h => h ▸ rfl⟩

instance [Repr α] : Repr (Dict α) := ⟨fun d n => reprPrec d.entries n⟩

/-- The dictionary without entries. -/
def empty : Dict α := ⟨[], .nil⟩

instance : EmptyCollection (Dict α) := ⟨empty⟩

instance : Inhabited (Dict α) := ⟨empty⟩

/-- The value bound to a key. -/
def get? (d : Dict α) (key : String) : Option α := d.entries.lookup key

/-- Whether a key is bound. -/
def contains (d : Dict α) (key : String) : Bool := (d.get? key).isSome

/-- The keys, in order. -/
def keys (d : Dict α) : List String := d.entries.map (·.1)

/-- The values, in key order. -/
def values (d : Dict α) : List α := d.entries.map (·.2)

/-! ### Changing one entry -/

/-- Binds a key in an ascending list of entries, replacing an earlier binding. -/
def insertEntry (key : String) (value : α) : List (String × α) → List (String × α)
  | [] => [(key, value)]
  | (k, v) :: rest =>
    if key < k then (key, value) :: (k, v) :: rest
    else if key = k then (key, value) :: rest
    else (k, v) :: insertEntry key value rest

/-- An entry list gains no entry but the new one. -/
theorem mem_insertEntry {key : String} {value : α} {l : List (String × α)} {e : String × α}
    (h : e ∈ insertEntry key value l) : e = (key, value) ∨ e ∈ l := by
  induction l with
  | nil => simpa [insertEntry] using h
  | cons a rest ih =>
    rw [insertEntry] at h
    split at h
    · simpa using h
    · split at h
      · rcases List.mem_cons.1 h with h | h
        · exact .inl h
        · exact .inr (List.mem_cons_of_mem _ h)
      · rcases List.mem_cons.1 h with h | h
        · exact .inr (by simp [h])
        · exact (ih h).imp_right (List.mem_cons_of_mem _)

theorem lt_of_not_lt_of_ne {a b : String} (h : ¬a < b) (hne : a ≠ b) : b < a := by
  rcases Classical.em (b < a) with hb | hb
  · exact hb
  · exact absurd (String.le_antisymm (String.not_lt.1 hb) (String.not_lt.1 h)) hne

/-- Entries stay in the order of their keys. -/
theorem sorted_insertEntry (key : String) (value : α) {l : List (String × α)}
    (h : l.Pairwise (fun a b => a.1 < b.1)) :
    (insertEntry key value l).Pairwise (fun a b => a.1 < b.1) := by
  induction l with
  | nil => simp [insertEntry]
  | cons a rest ih =>
    obtain ⟨k, v⟩ := a
    obtain ⟨hk, hrest⟩ := List.pairwise_cons.1 h
    rw [insertEntry]
    split
    · rename_i hlt
      refine List.pairwise_cons.2 ⟨fun e he => ?_, h⟩
      rcases List.mem_cons.1 he with rfl | he
      · exact hlt
      · exact String.lt_trans hlt (hk e he)
    · split
      · rename_i heq
        subst heq
        exact List.pairwise_cons.2 ⟨hk, hrest⟩
      · rename_i hlt hne
        refine List.pairwise_cons.2 ⟨fun e he => ?_, ih hrest⟩
        rcases mem_insertEntry he with rfl | he
        · exact lt_of_not_lt_of_ne hlt hne
        · exact hk e he

/-- Binds a key, replacing an earlier binding. -/
def insert (d : Dict α) (key : String) (value : α) : Dict α :=
  ⟨insertEntry key value d.entries, sorted_insertEntry key value d.sorted⟩

/-- Binds a key unless it is bound already. -/
def insertNew (d : Dict α) (key : String) (value : α) : Dict α :=
  if d.contains key then d else d.insert key value

/-- Removes a key. -/
def erase (d : Dict α) (key : String) : Dict α :=
  ⟨d.entries.filter (fun e => e.1 ≠ key), d.sorted.filter _⟩

/-- Changes every value, given its key. -/
def map {β : Type u} (f : String → α → β) (d : Dict α) : Dict β :=
  ⟨d.entries.map (fun e => (e.1, f e.1 e.2)), by
    rw [List.pairwise_map]
    exact d.sorted⟩

/-- Changes the value bound to a key, if there is one. -/
def modify (d : Dict α) (key : String) (f : α → α) : Dict α :=
  d.map fun k v => if k = key then f v else v

/-- The entries whose value satisfies a test. -/
def filter (p : α → Bool) (d : Dict α) : Dict α :=
  ⟨d.entries.filter (fun e => p e.2), d.sorted.filter _⟩

/-- Binds the pairs of a list one after the other, so that a later pair replaces an earlier one
with its key. -/
def ofList (l : List (String × α)) : Dict α :=
  l.foldl (fun d e => d.insert e.1 e.2) empty

/-! ### The view -/

@[simp] theorem get?_empty (key : String) : (empty : Dict α).get? key = none := rfl

@[simp] theorem get?_emptyCollection (key : String) : (∅ : Dict α).get? key = none := rfl

@[simp] theorem entries_empty : (empty : Dict α).entries = [] := rfl

theorem lookup_insertEntry (key k : String) (value : α) (l : List (String × α)) :
    (insertEntry key value l).lookup k = if k = key then some value else l.lookup k := by
  induction l with
  | nil =>
    by_cases h : k = key
    · simp [insertEntry, h]
    · have : (k == key) = false := by simpa using h
      simp [insertEntry, List.lookup_cons, h, this]
  | cons a rest ih =>
    obtain ⟨k', v⟩ := a
    rw [insertEntry]
    split
    · by_cases h : k = key
      · simp [h]
      · have hb : (k == key) = false := by simpa using h
        simp [List.lookup_cons, h, hb]
    · split
      · rename_i heq
        subst heq
        by_cases h : k = key
        · simp [h]
        · have hb : (k == key) = false := by simpa using h
          simp [List.lookup_cons, h, hb]
      · rename_i hne
        rw [List.lookup_cons, ih, List.lookup_cons]
        by_cases hk : k = k'
        · subst hk
          have hne' : ¬k = key := fun h => hne h.symm
          simp [hne']
        · have hb : (k == k') = false := by simpa using hk
          simp [hb]

theorem get?_insert (d : Dict α) (key k : String) (value : α) :
    (d.insert key value).get? k = if k = key then some value else d.get? k :=
  lookup_insertEntry key k value d.entries

@[simp] theorem get?_insert_self (d : Dict α) (key : String) (value : α) :
    (d.insert key value).get? key = some value := by
  simp [get?_insert]

/-- Mapping the values keeps the keys. -/
theorem lookup_map_entries {β : Type u} (f : String → α → β) (k : String)
    (l : List (String × α)) :
    (l.map (fun e => (e.1, f e.1 e.2))).lookup k = (l.lookup k).map (f k) := by
  induction l with
  | nil => rfl
  | cons a rest ih =>
    obtain ⟨k', v⟩ := a
    by_cases hk : k = k'
    · subst hk
      simp
    · have hb : (k == k') = false := by simpa using hk
      simp [List.lookup_cons, hb, ih]

theorem get?_map {β : Type u} (f : String → α → β) (d : Dict α) (k : String) :
    (d.map f).get? k = (d.get? k).map (f k) :=
  lookup_map_entries f k d.entries

theorem get?_modify (d : Dict α) (key k : String) (f : α → α) :
    (d.modify key f).get? k = (d.get? k).map (fun v => if k = key then f v else v) :=
  get?_map _ d k

theorem mem_of_lookup {key : String} {v : α} {l : List (String × α)}
    (h : l.lookup key = some v) : (key, v) ∈ l := by
  induction l with
  | nil => simp at h
  | cons a rest ih =>
    obtain ⟨k, w⟩ := a
    rw [List.lookup_cons] at h
    split at h
    · rename_i hk
      simp_all
    · exact List.mem_cons_of_mem _ (ih h)

/-- A key that is bound is among the keys. -/
theorem mem_keys_of_get? {d : Dict α} {key : String} {v : α} (h : d.get? key = some v) :
    key ∈ d.keys :=
  List.mem_map.2 ⟨(key, v), mem_of_lookup h, rfl⟩

/-- A key is there if it has a value. -/
theorem contains_iff {d : Dict α} {key : String} :
    d.contains key = true ↔ ∃ v, d.get? key = some v :=
  Option.isSome_iff_exists

theorem contains_of_get? {d : Dict α} {key : String} {v : α} (h : d.get? key = some v) :
    d.contains key = true :=
  contains_iff.2 ⟨v, h⟩

theorem get?_insertNew (d : Dict α) (key k : String) (value : α) :
    (d.insertNew key value).get? k = if k = key then some ((d.get? key).getD value)
      else d.get? k := by
  rw [insertNew]
  split
  · rename_i h
    obtain ⟨v, hv⟩ := contains_iff.1 h
    by_cases hk : k = key
    · simp [hk, hv]
    · simp [hk]
  · rename_i h
    have hnone : d.get? key = none := by simpa [contains] using h
    rw [get?_insert, hnone, Option.getD_none]

@[simp] theorem contains_insert (d : Dict α) (key k : String) (value : α) :
    (d.insert key value).contains k = (k == key || d.contains k) := by
  by_cases h : k = key
  · simp [contains, h]
  · simp [contains, get?_insert, h]

@[simp] theorem contains_modify (d : Dict α) (key k : String) (f : α → α) :
    (d.modify key f).contains k = d.contains k := by
  simp [contains, get?_modify]

@[simp] theorem contains_insertNew (d : Dict α) (key k : String) (value : α) :
    (d.insertNew key value).contains k = (k == key || d.contains k) := by
  by_cases h : k = key
  · simp [contains, get?_insertNew, h]
  · simp [contains, get?_insertNew, h]

/-- A key below all keys of the entries is not bound by them. -/
theorem lookup_eq_none_of_lt {key : String} {l : List (String × α)}
    (h : ∀ e ∈ l, key < e.1) : l.lookup key = none := by
  induction l with
  | nil => rfl
  | cons a rest ih =>
    obtain ⟨k, v⟩ := a
    have hk : key < k := h (k, v) (by simp)
    have hb : (key == k) = false := by
      simp only [beq_eq_false_iff_ne]
      rintro rfl
      exact String.lt_irrefl _ hk
    rw [List.lookup_cons, hb]
    exact ih fun e he => h e (List.mem_cons_of_mem _ he)

/-- Among ascending entries a key is bound once, so a filter keeps or drops what it is bound to. -/
theorem lookup_filter (q : String × α → Bool) (k : String) {l : List (String × α)}
    (h : l.Pairwise (fun a b => a.1 < b.1)) :
    (l.filter q).lookup k = (l.lookup k).filter fun v => q (k, v) := by
  induction l with
  | nil => rfl
  | cons a rest ih =>
    obtain ⟨k', v⟩ := a
    obtain ⟨hlt, hrest⟩ := List.pairwise_cons.1 h
    by_cases hk : k = k'
    · subst hk
      cases hv : q (k, v) with
      | true => simp [hv, Option.filter]
      | false =>
        have hnone : rest.lookup k = none := lookup_eq_none_of_lt hlt
        simp [hv, ih hrest, hnone, Option.filter]
    · have hb : (k == k') = false := by simpa using hk
      rw [List.filter_cons, List.lookup_cons, hb, ← ih hrest]
      split
      · rw [List.lookup_cons, hb]
      · rfl

theorem get?_filter (p : α → Bool) (d : Dict α) (k : String) :
    (d.filter p).get? k = (d.get? k).filter p :=
  lookup_filter (fun e => p e.2) k d.sorted

theorem get?_erase (d : Dict α) (key k : String) :
    (d.erase key).get? k = if k = key then none else d.get? k := by
  have hfilter : (d.erase key).get? k = (d.get? k).filter fun _ => k ≠ key :=
    lookup_filter (fun e => e.1 ≠ key) k d.sorted
  rw [hfilter]
  cases d.get? k with
  | none => simp
  | some v => by_cases hk : k = key <;> simp [hk, Option.filter]

theorem contains_erase_of_ne (d : Dict α) {key k : String} (h : k ≠ key) :
    (d.erase key).contains k = d.contains k := by
  rw [contains, get?_erase, if_neg h]
  rfl

theorem contains_foldl_erase {keys : List String} {k : String} (h : k ∉ keys) (d : Dict α) :
    (keys.foldl erase d).contains k = d.contains k := by
  induction keys generalizing d with
  | nil => rfl
  | cons key keys ih =>
    rw [List.mem_cons, not_or] at h
    exact (ih h.2 (d.erase key)).trans (d.contains_erase_of_ne h.1)

/-- Ordered entry lists with the same values are equal. -/
theorem entries_eq_of_lookup_eq {l m : List (String × α)}
    (hl : l.Pairwise (fun a b => a.1 < b.1)) (hm : m.Pairwise (fun a b => a.1 < b.1))
    (h : ∀ k, l.lookup k = m.lookup k) : l = m := by
  induction l generalizing m with
  | nil =>
    cases m with
    | nil => rfl
    | cons b ms => obtain ⟨kb, vb⟩ := b; have := h kb; simp at this
  | cons a ls ih =>
    cases m with
    | nil => obtain ⟨ka, va⟩ := a; have := h ka; simp at this
    | cons b ms =>
      obtain ⟨ka, va⟩ := a
      obtain ⟨kb, vb⟩ := b
      obtain ⟨hla, hls⟩ := List.pairwise_cons.1 hl
      obtain ⟨hmb, hms⟩ := List.pairwise_cons.1 hm
      have hk : ka = kb := by
        rcases Classical.em (ka < kb) with hlt | hlt
        · have := h ka
          rw [lookup_eq_none_of_lt (l := (kb, vb) :: ms)] at this
          · simp at this
          · intro e he
            rcases List.mem_cons.1 he with rfl | he
            · exact hlt
            · exact String.lt_trans hlt (hmb e he)
        · rcases Classical.em (ka = kb) with heq | hne
          · exact heq
          · have hgt := lt_of_not_lt_of_ne hlt hne
            have := h kb
            rw [lookup_eq_none_of_lt (l := (ka, va) :: ls)] at this
            · simp at this
            · intro e he
              rcases List.mem_cons.1 he with rfl | he
              · exact hgt
              · exact String.lt_trans hgt (hla e he)
      subst hk
      have hv : va = vb := by simpa using h ka
      subst hv
      rw [ih hls hms fun k => ?_]
      by_cases hk : k = ka
      · subst hk
        rw [lookup_eq_none_of_lt hla, lookup_eq_none_of_lt hmb]
      · have hb : (k == ka) = false := by simpa using hk
        simpa [List.lookup_cons, hb] using h k

/-- **Extensionality.** Dictionaries with the same bindings are equal. -/
theorem ext_get? {d e : Dict α} (h : ∀ key, d.get? key = e.get? key) : d = e :=
  ext_entries (entries_eq_of_lookup_eq d.sorted e.sorted h)

/-- A key that is not there need not be taken out. -/
theorem erase_of_contains_eq_false {d : Dict α} {key : String} (h : d.contains key = false) :
    d.erase key = d := by
  refine ext_get? fun k => ?_
  rw [get?_erase]
  split
  · rename_i hk
    subst hk
    exact (Option.isSome_eq_false_iff.1 h |> Option.isNone_iff_eq_none.1).symm
  · rfl

/-- Two changes of one value are one. -/
theorem modify_modify (d : Dict α) (key : String) (f g : α → α) :
    (d.modify key f).modify key g = d.modify key (g ∘ f) := by
  refine ext_get? fun k => ?_
  rw [get?_modify, get?_modify, get?_modify, Option.map_map]
  congr 1
  funext v
  by_cases h : k = key <;> simp [h]

/-- Only what a change does to the value of its key matters. -/
theorem modify_congr {d : Dict α} {key : String} {f g : α → α}
    (h : ∀ v, d.get? key = some v → f v = g v) : d.modify key f = d.modify key g := by
  refine ext_get? fun k => ?_
  rw [get?_modify, get?_modify]
  cases hk : d.get? k with
  | none => rfl
  | some v =>
    by_cases hkey : k = key
    · subst hkey
      simp [h v hk]
    · simp [hkey]

@[simp] theorem modify_id (d : Dict α) (key : String) : d.modify key id = d := by
  refine ext_get? fun k => ?_
  rw [get?_modify]
  cases d.get? k <;> simp

end Dict

end ApiDocs
