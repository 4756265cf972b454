import Mathlib.Data.List.Induction
import ApiDocs.Model.Encode
import ApiDocs.Proofs.Json.Values

/-!
# Reading back dictionaries and records

The writer of a record puts its fields in the order of the record's field list and leaves out those
at their usual value. `Fills fields ms a b` says that the members `ms` are written so: taking them
in leads from the record `a` to `b`. **Such a record is read back**, as a closed one
(`Fills.decodes_closed`), and as an open one with attributes behind its fields if no attribute has
the name of a field (`Fills.decodes_open`).

`Fills` is built up field by field with `Fills.field`. For each way of writing a field there is a
lemma that it gives the field's value (`gives_member`, `gives_list` and so on).
-/

namespace ApiDocs

/-! ### Dictionaries -/

namespace Dict

variable {α : Type}

/-- A dictionary made from ordered entries has these. -/
private theorem get?_ofList {l : List (String × α)} (h : l.Pairwise (fun a b => a.1 < b.1))
    (k : String) :
    (ofList l).get? k = l.lookup k := by
  induction l using List.reverseRecOn with
  | nil => rfl
  | append_singleton l e ih =>
    obtain ⟨key, v⟩ := e
    obtain ⟨hl, -, hlt⟩ := List.pairwise_append.1 h
    have happ : ofList (l ++ [(key, v)]) = (ofList l).insert key v := by
      rw [ofList, List.foldl_append]
      rfl
    rw [happ, get?_insert, ih hl, List.lookup_append]
    by_cases hk : k = key
    · have hnone : l.lookup key = none := by
        cases hlookup : l.lookup key with
        | none => rfl
        | some w =>
          have hself := hlt (key, w) (mem_of_lookup hlookup) (key, v) List.mem_cons_self
          exact absurd hself (String.lt_irrefl key)
      simp [hk, hnone]
    · have hb : (k == key) = false := by simpa using hk
      simp [hk, List.lookup_cons, hb]

/-- Binding the entries of a dictionary one after the other gives the dictionary. -/
private theorem ofList_entries (d : Dict α) : ofList d.entries = d :=
  ext_get? fun k => get?_ofList d.sorted k

end Dict

namespace Json

variable {α σ : Type}

/-- A value that reads back may be wrapped. -/
theorem Decodes.map {β : Type} {read : Reader α} {v : Json} {a : α} (h : Decodes read v a)
    (f : α → β) : Decodes (fun cs => (read cs).map fun r => (f r.1, r.2)) v (f a) := by
  intro depth cs rest hcs hrest
  show (read cs).map _ = _
  rw [h depth cs rest hcs hrest]
  rfl

/-- The entries of a dictionary are read one by one. -/
private theorem takes_entries {read : Reader α} {value : α → Json} {l : List (String × α)}
    (h : ∀ e ∈ l, Decodes read (value e.2) e.2) (acc : Dict α) :
    Takes (fun acc name => .ok fun cs => (read cs).map fun r => (acc.insert name r.1, r.2)) acc
      (l.map fun e => (e.1, value e.2)) (l.foldl (fun d e => d.insert e.1 e.2) acc) := by
  induction l generalizing acc with
  | nil => exact .nil acc
  | cons e l ih =>
    exact .cons rfl ((h e List.mem_cons_self).map (acc.insert e.1))
      (ih (fun e' he' => h e' (List.mem_cons_of_mem e he')) _)

/-- **A dictionary is read back.** -/
theorem decodes_dict {read : Reader α} {value : α → Json} {d : Dict α}
    (h : ∀ e ∈ d.entries, Decodes read (value e.2) e.2) :
    Decodes (readDict read) (d.toJson value) d := by
  intro depth cs rest hcs _
  obtain ⟨inner, hobj, hread⟩ := (takes_entries h Dict.empty).membersFrom_obj depth rest
  rw [Dict.toJson, hobj] at hcs
  have hfold : d.entries.foldl (fun d e => d.insert e.1 e.2) Dict.empty = d := d.ofList_entries
  rw [hfold] at hread
  rw [readDict, hcs]
  exact hread

/-! ### Words and unknown members -/

theorem decodes_word {words : List (String × α)} {w : String} {a : α}
    (h : words.lookup w = some a) : Decodes (readWord words) (str w) a := by
  intro depth cs rest hcs _
  rw [write, text_append] at hcs
  rw [readWord, hcs]
  simp only [textTail_text, String.ofList_toList, h]

/-- A text is a value that is kept when its field is unknown. -/
private theorem decodes_any (depth : Nat) (s : String) :
    Decodes (readAny depth) (str s) (some s) := by
  intro depth' cs rest hcs _
  rw [write, text_append] at hcs
  rw [readAny, hcs]
  simp [textTail_text]

/-! ### Records -/

/-- **The members give fields of the record in order**, and lead from one record to another. -/
inductive Fills : List (RecordField σ) → List (String × Json) → σ → σ → Prop
  | nil (a : σ) : Fills [] [] a a
  | skip {f : RecordField σ} {fields : List (RecordField σ)} {ms : List (String × Json)} {a b : σ}
      (rest : Fills fields ms a b) : Fills (f :: fields) ms a b
  | give {f : RecordField σ} {fields : List (RecordField σ)} {v : Json}
      {ms : List (String × Json)} {a a' b : σ} (value : Decodes (f.read a) v a')
      (rest : Fills fields ms a' b) : Fills (f :: fields) ((f.name, v) :: ms) a b

/-- A field is found by its name. -/
private theorem find?_name {fields : List (RecordField σ)} (h : (fields.map (·.name)).Nodup)
    {f : RecordField σ} (hf : f ∈ fields) : fields.find? (·.name = f.name) = some f := by
  induction fields with
  | nil => cases hf
  | cons g fields ih =>
    rw [List.map_cons, List.nodup_cons] at h
    rcases List.mem_cons.1 hf with rfl | hf
    · rw [List.find?_cons_of_pos (by simp)]
    · have hne : g.name ≠ f.name := fun heq => h.1 (heq ▸ List.mem_map_of_mem hf)
      rw [List.find?_cons_of_neg (by simpa using hne), ih h.2 hf]

namespace Fills

variable {fields : List (RecordField σ)} {ms : List (String × Json)} {a b : σ}

/-- The members of a record are taken in, if only fields before theirs were given so far. -/
private theorem takes {all : List (RecordField σ)} (hall : (all.map (·.name)).Nodup)
    (h : Fills fields ms a b) (before : List (RecordField σ)) (hsplit : all = before ++ fields)
    (given : List String) (hgiven : ∀ name ∈ given, name ∈ before.map (·.name))
    (other : Partial σ → String → Reader (Partial σ)) (unknown : List (String × Option String)) :
    ∃ given', Takes (Partial.member all other) ⟨a, given, unknown⟩ ms ⟨b, given', unknown⟩ := by
  induction h generalizing before given with
  | nil a => exact ⟨given, .nil _⟩
  | @skip f fields ms a b _ ih =>
    have hnext : all = before ++ [f] ++ fields := by
      rw [hsplit, List.append_assoc]
      rfl
    refine ih (before ++ [f]) hnext given fun name hname => ?_
    rw [List.map_append]
    exact List.mem_append_left _ (hgiven name hname)
  | @give f fields v ms a a' b value _ ih =>
    have hnext : all = before ++ [f] ++ fields := by
      rw [hsplit, List.append_assoc]
      rfl
    have hmem : f ∈ all := hsplit ▸ List.mem_append_right before List.mem_cons_self
    have hnew : f.name ∉ given := by
      intro hname
      rw [hsplit, List.map_append, List.nodup_append] at hall
      exact hall.2.2 _ (hgiven _ hname) _ List.mem_cons_self rfl
    have hknown : Partial.member all other ⟨a, given, unknown⟩ f.name =
        .ok fun cs => (f.read a cs).map fun r => (⟨r.1, f.name :: given, unknown⟩, r.2) := by
      rw [Partial.member, find?_name hall hmem]
      exact if_neg hnew
    have hgiven' : ∀ name ∈ f.name :: given, name ∈ (before ++ [f]).map (·.name) := by
      intro name hname
      rw [List.map_append]
      rcases List.mem_cons.1 hname with rfl | hname
      · exact List.mem_append_right _ List.mem_cons_self
      · exact List.mem_append_left _ (hgiven name hname)
    obtain ⟨given', htakes⟩ := ih (before ++ [f]) hnext (f.name :: given) hgiven'
    have hvalue := value.map fun c => (⟨c, f.name :: given, unknown⟩ : Partial σ)
    exact ⟨given', .cons hknown hvalue htakes⟩

/-- **A closed record is read back.** -/
theorem decodes_closed (hnodup : (fields.map (·.name)).Nodup) (h : Fills fields ms a b) :
    Decodes (readClosed fields a) (obj ms) b := by
  intro depth cs rest hcs _
  obtain ⟨other, hother⟩ : ∃ o : Partial σ → String → Reader (Partial σ),
      o = fun p _ cs => (skipValue cs).map fun r => (p, r.2) := ⟨_, rfl⟩
  obtain ⟨given', htakes⟩ :=
    h.takes hnodup [] rfl [] (fun _ hname => absurd hname List.not_mem_nil) other []
  obtain ⟨inner, hobj, hread⟩ := htakes.membersFrom_obj depth rest
  rw [hobj] at hcs
  have hclosed : readClosed fields a cs = (membersFrom (Partial.member fields other) inner true
      ⟨a, [], []⟩ inner).map fun r => (r.1.fields, r.2) := by
    rw [readClosed, hcs, hother]
    rfl
  rw [hclosed, hread]
  rfl

end Fills

/-- No attribute has the name of a field. -/
def Clear (fields : List (RecordField σ)) (attributes : Dict String) : Prop :=
  ∀ key ∈ attributes.keys, key ∉ fields.map (·.name)

/-- How the unknown members of an open record are kept. -/
def keepUnknown (depth : Nat) (p : Partial σ) (name : String) : Reader (Partial σ) := fun cs =>
  (readAny depth cs).map fun r => (⟨p.fields, p.given, (name, r.1) :: p.unknown⟩, r.2)

/-- Attributes are read as fields that are unknown. -/
private theorem takes_attributes {fields : List (RecordField σ)} {l : List (String × String)}
    (h : ∀ e ∈ l, e.1 ∉ fields.map (·.name)) (depth : Nat) (p : Partial σ) :
    Takes (Partial.member fields (keepUnknown depth)) p (l.map fun e => (e.1, str e.2))
      ⟨p.fields, p.given, (l.map fun e => (e.1, some e.2)).reverse ++ p.unknown⟩ := by
  induction l generalizing p with
  | nil => exact .nil p
  | cons e l ih =>
    have hnone : fields.find? (·.name = e.1) = none := by
      rw [List.find?_eq_none]
      intro f hf heq
      exact h e List.mem_cons_self (of_decide_eq_true heq ▸ List.mem_map_of_mem hf)
    have hknown : Partial.member fields (keepUnknown depth) p e.1 =
        .ok (keepUnknown depth p e.1) := by
      rw [Partial.member, hnone]
    have hvalue := (decodes_any depth e.2).map fun s =>
      (⟨p.fields, p.given, (e.1, s) :: p.unknown⟩ : Partial σ)
    have hrest := ih (fun e' he' => h e' (List.mem_cons_of_mem e he'))
      ⟨p.fields, p.given, (e.1, some e.2) :: p.unknown⟩
    rw [List.map_cons, List.map_cons, List.reverse_cons, List.append_assoc]
    exact .cons hknown hvalue hrest

/-- Attributes that are texts are kept. -/
private theorem unknownTexts_entries (attributes : Dict String) :
    unknownTexts (attributes.entries.map fun e => (e.1, some e.2)) = some attributes := by
  have hentries : (attributes.entries.map fun e => (e.1, some e.2)).map
      (fun e => (e.1, e.2.getD "")) = attributes.entries := by
    rw [List.map_map]
    exact List.map_id _
  rw [unknownTexts, hentries, Dict.ofList_entries, if_pos]
  simp

/-- **An open record is read back with its attributes**, if no attribute has the name of a field. -/
theorem Fills.decodes_open {fields : List (RecordField σ)} {ms : List (String × Json)} {a b : σ}
    (hnodup : (fields.map (·.name)).Nodup) (h : Fills fields ms a b) {attributes : Dict String}
    (hclear : Clear fields attributes) (depth : Nat) (setUnknown : σ → Dict String → σ) :
    Decodes (readOpen depth fields a setUnknown) (obj (ms ++ attributeMembers attributes))
      (setUnknown b attributes) := by
  intro depth' cs rest hcs _
  obtain ⟨given', hfields⟩ :=
    h.takes hnodup [] rfl [] (fun _ hname => absurd hname List.not_mem_nil) (keepUnknown depth) []
  have hattributes := takes_attributes
    (fun e he => hclear e.1 (List.mem_map_of_mem he)) depth ⟨b, given', []⟩
  obtain ⟨inner, hobj, hread⟩ := (hfields.append hattributes).membersFrom_obj depth' rest
  rw [attributeMembers, hobj] at hcs
  unfold keepUnknown at hread
  -- what is left of the reader looks only at what was taken in
  rw [readOpen, hcs]
  simp only [hread]
  simp [unknownTexts_entries]

/-! ### Fields -/

/-- **The segment gives a field its value**, or leaves it out because it is the usual one. -/
def Gives {α : Type} (name : String) (read : Reader α) (segment : List (String × Json))
    (x usual : α) : Prop :=
  segment = [] ∧ x = usual ∨ ∃ v, segment = [(name, v)] ∧ Decodes read v x

section Fields

variable {name : String} {read : Reader α}

/-- A record is filled field by field. -/
theorem Fills.field {set : σ → α → σ} {segment ms : List (String × Json)} {x usual : α} {a b : σ}
    {fields : List (RecordField σ)} (h : Gives name read segment x usual)
    (husual : set a usual = a) (hrest : Fills fields ms (set a x) b) :
    Fills (Json.field name read set :: fields) (segment ++ ms) a b := by
  rcases h with ⟨rfl, rfl⟩ | ⟨v, rfl, hv⟩
  · rw [husual] at hrest
    exact .skip hrest
  · exact .give (f := Json.field name read set) (hv.map (set a)) hrest

/-- The last field of a record. -/
theorem Fills.last {set : σ → α → σ} {segment : List (String × Json)} {x usual : α} {a b : σ}
    (h : Gives name read segment x usual) (husual : set a usual = a) (hb : set a x = b) :
    Fills [Json.field name read set] segment a b := by
  have hfills := Fills.field h husual (.nil (set a x))
  rwa [List.append_nil, hb] at hfills

/-- A field that is written always. -/
theorem gives_member {v : Json} {x : α} (h : Decodes read v x) (usual : α) :
    Gives name read (member name v) x usual :=
  .inr ⟨v, rfl, h⟩

/-- A text field is always written. -/
theorem gives_str (s usual : String) : Gives name readText (member name (str s)) s usual :=
  gives_member (decodes_str s) usual

/-- A field that may be missing is written if it is there. -/
theorem gives_member? {value : α → Json} {x : Option α} (h : ∀ y, Decodes read (value y) y) :
    Gives name (readOption read) (member? name (x.map value)) x none := by
  cases x with
  | none => exact .inl ⟨rfl, rfl⟩
  | some y => exact .inr ⟨value y, rfl, decodes_some (h y)⟩

theorem gives_text? (s : Option String) : Gives name (readOption readText) (text? name s) s none :=
  gives_member? decodes_str

theorem gives_flag (b : Bool) : Gives name readBool (flag name b) b false := by
  cases b with
  | false => exact .inl ⟨rfl, rfl⟩
  | true => exact .inr ⟨bool true, rfl, decodes_bool true⟩

/-- A list of values that read back reads back. -/
theorem decodes_list {value : α → Json} {items : List α}
    (h : ∀ y ∈ items, Decodes read (value y) y) :
    Decodes (readList read) (arr (items.map value)) items := by
  have harr := decodes_arr (a := fun y => y) h
  rwa [List.map_id'] at harr

/-- A list is left out when it is empty. -/
theorem gives_list {value : α → Json} {items : List α}
    (h : ∀ y ∈ items, Decodes read (value y) y) :
    Gives name (readList read) (memberList name (items.map value)) items [] := by
  cases items with
  | nil => exact .inl ⟨rfl, rfl⟩
  | cons y items => exact .inr ⟨_, rfl, decodes_list h⟩

end Fields

end Json

end ApiDocs
