import ApiDocs.Text.Trim

/-!
# Patterns

A `Pattern` describes the start of a text. There may be several ways in which a text fits it, and
they have an order of preference: of two alternatives the first one is preferred, a greedy run is
preferred long and another one short, and what comes first in a sequence decides first. `ways` lists
them in this order, and **the first one counts** (`first?`).

To find it among all of them, one follows the pattern from left to right: `firstWith` looks for the
first way with which the rest of the search succeeds. A run takes what it takes there exactly if
nothing that it would have preferred leads to success (`firstWith_shortest`, `firstWith_longest`).

A text may also be searched for a pattern: the first place counts where there is a way (`search`).
-/

namespace ApiDocs.Text

/-- A pattern for the start of a text, with numbered groups. -/
inductive Pattern where
  /-- One character of a class. -/
  | char (p : Char → Bool)
  /-- Any number of characters of a class. -/
  | run (greedy : Bool) (p : Char → Bool)
  | seq (a b : Pattern)
  | alt (a b : Pattern)
  | group (n : Nat) (a : Pattern)

/-- A way in which the start of a text fits a pattern. -/
structure Way where
  taken : List Char
  rest : List Char
  groups : List (Nat × List Char) := []
  deriving DecidableEq, Repr

/-- The text of a group; empty if the group takes no part. -/
def Way.group (w : Way) (n : Nat) : List Char := (w.groups.lookup n).getD []

/-- A way, and another one from where it ends. -/
def Way.append (w w' : Way) : Way :=
  { taken := w.taken ++ w'.taken, rest := w'.rest, groups := w.groups ++ w'.groups }

/-- The runs of a class at the start of a text, the shortest first, each with what follows it. -/
def runs (p : Char → Bool) : List Char → List (List Char × List Char)
  | [] => [([], [])]
  | c :: cs => ([], c :: cs) :: if p c then (runs p cs).map fun s => (c :: s.1, s.2) else []

namespace Pattern

/-- **The ways in which a text fits a pattern**, the preferred ones first. -/
def ways : Pattern → List Char → List Way
  | char _, [] => []
  | char p, c :: cs => if p c then [{ taken := [c], rest := cs }] else []
  | run greedy p, cs =>
    (if greedy then (runs p cs).reverse else runs p cs).map fun s => { taken := s.1, rest := s.2 }
  | seq a b, cs => (a.ways cs).flatMap fun w => (b.ways w.rest).map w.append
  | alt a b, cs => a.ways cs ++ b.ways cs
  | group n a, cs => (a.ways cs).map fun w => { w with groups := (n, w.taken) :: w.groups }

/-- The way that counts. -/
def first? (a : Pattern) (cs : List Char) : Option Way := (a.ways cs).head?

/-- What comes out of the first way from which the search goes on with success. -/
def firstWith {β : Type} (a : Pattern) (cs : List Char) (k : Way → Option β) : Option β :=
  (a.ways cs).findSome? k

section Search

variable {β : Type} (k : Way → Option β)

/-- The first match is the first way to go on with success. -/
theorem first?_eq_firstWith (a : Pattern) (cs : List Char) : a.first? cs = a.firstWith cs some := by
  rw [first?, firstWith]
  cases a.ways cs <;> rfl

theorem firstWith_char_nil (p : Char → Bool) : (char p).firstWith [] k = none := rfl

theorem firstWith_char_cons (p : Char → Bool) (c : Char) (cs : List Char) :
    (char p).firstWith (c :: cs) k = if p c then k { taken := [c], rest := cs } else none := by
  rw [firstWith, ways]
  split
  · rw [List.findSome?_singleton]
  · rfl

/-- A sequence goes on with its second part. -/
theorem firstWith_seq (a b : Pattern) (cs : List Char) :
    (seq a b).firstWith cs k =
      a.firstWith cs fun w => b.firstWith w.rest fun w' => k (w.append w') := by
  rw [firstWith, ways, firstWith]
  induction a.ways cs with
  | nil => rfl
  | cons w ws ih =>
    rw [List.flatMap_cons, List.findSome?_append, ih, List.findSome?_map, List.findSome?_cons]
    have hfirst : (b.ways w.rest).findSome? (k ∘ w.append) =
      b.firstWith w.rest fun w' => k (w.append w') := rfl
    rw [hfirst]
    cases b.firstWith w.rest fun w' => k (w.append w') <;> rfl

/-- The first alternative goes before the second. -/
theorem firstWith_alt (a b : Pattern) (cs : List Char) :
    (alt a b).firstWith cs k = (a.firstWith cs k).or (b.firstWith cs k) := by
  rw [firstWith, ways, List.findSome?_append]
  rfl

theorem firstWith_group (n : Nat) (a : Pattern) (cs : List Char) :
    (group n a).firstWith cs k =
      a.firstWith cs fun w => k { w with groups := (n, w.taken) :: w.groups } := by
  rw [firstWith, ways, List.findSome?_map]
  rfl

end Search

/-! ### Runs -/

section Runs

variable {β : Type} {p : Char → Bool} {k : Way → Option β} {cs x y : List Char}

/-- A run splits the text, and all of it is of the class. -/
private theorem of_mem_runs (h : (x, y) ∈ runs p cs) : cs = x ++ y ∧ ∀ c ∈ x, p c = true := by
  induction cs generalizing x with
  | nil =>
    obtain ⟨rfl, rfl⟩ := Prod.mk.inj (List.mem_singleton.1 h)
    simp
  | cons c cs ih =>
    rw [runs, List.mem_cons] at h
    rcases h with h | h
    · obtain ⟨rfl, rfl⟩ := Prod.mk.inj h
      simp
    · split at h
      · rename_i hc
        obtain ⟨s, hs, heq⟩ := List.mem_map.1 h
        obtain ⟨rfl, rfl⟩ := Prod.mk.inj heq
        obtain ⟨hsplit, hclass⟩ := ih hs
        exact ⟨congrArg (c :: ·) hsplit, List.forall_mem_cons.2 ⟨hc, hclass⟩⟩
      · exact absurd h List.not_mem_nil

/-- A run stands between the shorter ones and the longer ones. -/
private theorem exists_runs_eq (hx : ∀ c ∈ x, p c = true) (y : List Char) :
    ∃ shorter longer, runs p (x ++ y) = shorter ++ (x, y) :: longer ∧
      (∀ s ∈ shorter, ∃ c v, x = s.1 ++ c :: v ∧ s.2 = c :: v ++ y) ∧
      ∀ s ∈ longer, ∃ c v, y = c :: v ++ s.2 ∧ s.1 = x ++ c :: v ∧ p c = true := by
  induction x with
  | nil =>
    cases y with
    | nil => exact ⟨[], [], rfl, by simp, by simp⟩
    | cons c cs =>
      refine ⟨[], _, rfl, by simp, fun s hs => ?_⟩
      split at hs
      · rename_i hc
        obtain ⟨t, ht, rfl⟩ := List.mem_map.1 hs
        exact ⟨c, t.1, congrArg (c :: ·) (of_mem_runs ht).1, rfl, hc⟩
      · exact absurd hs List.not_mem_nil
  | cons d x ih =>
    obtain ⟨shorter, longer, heq, hshorter, hlonger⟩ :=
      ih fun c hc => hx c (List.mem_cons_of_mem d hc)
    refine ⟨([], d :: x ++ y) :: shorter.map fun s => (d :: s.1, s.2),
      longer.map fun s => (d :: s.1, s.2), ?_, ?_, ?_⟩
    · rw [List.cons_append, runs, if_pos (hx d List.mem_cons_self), heq, List.map_append,
        List.map_cons]
      rfl
    · intro s hs
      rcases List.mem_cons.1 hs with rfl | hs
      · exact ⟨d, x, rfl, rfl⟩
      · obtain ⟨t, ht, rfl⟩ := List.mem_map.1 hs
        obtain ⟨c, v, hsplit, hrest⟩ := hshorter t ht
        exact ⟨c, v, congrArg (d :: ·) hsplit, hrest⟩
    · intro s hs
      obtain ⟨t, ht, rfl⟩ := List.mem_map.1 hs
      obtain ⟨c, v, hsplit, htaken, hc⟩ := hlonger t ht
      exact ⟨c, v, hsplit, congrArg (d :: ·) htaken, hc⟩

/-- A run is tried from its longest way down or from its shortest one up. -/
theorem firstWith_run (greedy : Bool) (cs : List Char) :
    (run greedy p).firstWith cs k =
      (if greedy then (runs p cs).reverse else runs p cs).findSome? fun s =>
        k { taken := s.1, rest := s.2 } := by
  rw [firstWith, ways, List.findSome?_map]
  rfl

/-- **A run that is not greedy takes what it takes** if the search fails after every shorter one. -/
theorem firstWith_shortest {out : β} (hx : ∀ c ∈ x, p c = true)
    (hfail : ∀ u c v, x = u ++ c :: v → k { taken := u, rest := c :: v ++ y } = none)
    (hk : k { taken := x, rest := y } = some out) :
    (run false p).firstWith (x ++ y) k = some out := by
  obtain ⟨shorter, longer, heq, hshorter, -⟩ := exists_runs_eq hx y
  have hnone : (shorter.findSome? fun s => k { taken := s.1, rest := s.2 }) = none := by
    rw [List.findSome?_eq_none_iff]
    intro s hs
    obtain ⟨c, v, hsplit, hrest⟩ := hshorter s hs
    rw [hrest]
    exact hfail s.1 c v hsplit
  rw [firstWith_run, if_neg Bool.false_ne_true, heq, List.findSome?_append, hnone, Option.none_or,
    List.findSome?_cons, hk]

/-- **A greedy run takes what it takes** if the search fails after every longer one. -/
theorem firstWith_longest {out : β} (hx : ∀ c ∈ x, p c = true)
    (hfail : ∀ c u v, y = c :: u ++ v → p c = true →
      k { taken := x ++ c :: u, rest := v } = none)
    (hk : k { taken := x, rest := y } = some out) :
    (run true p).firstWith (x ++ y) k = some out := by
  obtain ⟨shorter, longer, heq, -, hlonger⟩ := exists_runs_eq hx y
  have hnone : (longer.reverse.findSome? fun s => k { taken := s.1, rest := s.2 }) = none := by
    rw [List.findSome?_eq_none_iff]
    intro s hs
    obtain ⟨c, u, hsplit, htaken, hc⟩ := hlonger s (List.mem_reverse.1 hs)
    rw [htaken]
    exact hfail c u s.2 hsplit hc
  rw [firstWith_run, if_pos rfl, heq, List.reverse_append, List.reverse_cons, List.append_assoc,
    List.findSome?_append, hnone, Option.none_or, List.singleton_append, List.findSome?_cons, hk]

/-- The search fails after a run if it fails after every start of the text that is a run. -/
theorem firstWith_run_eq_none (greedy : Bool)
    (h : ∀ x y, cs = x ++ y → (∀ c ∈ x, p c = true) → k { taken := x, rest := y } = none) :
    (run greedy p).firstWith cs k = none := by
  have hruns : ∀ s ∈ runs p cs, k { taken := s.1, rest := s.2 } = none :=
    fun s hs => h s.1 s.2 (of_mem_runs hs).1 (of_mem_runs hs).2
  rw [firstWith_run, List.findSome?_eq_none_iff]
  intro s hs
  split at hs
  · exact hruns s (List.mem_reverse.1 hs)
  · exact hruns s hs

end Runs

/-! ### Words -/

/-- As many characters of a class as there are, and at least one. -/
def word (p : Char → Bool) : Pattern := .seq (.char p) (.run true p)

section Words

variable {β : Type} {p : Char → Bool} {k : Way → Option β} {cs x y : List Char}

/-- A word that the text has at its front is taken as a whole, if what follows accepts that. -/
theorem firstWith_word {c : Char} {out : β} (hx : ∀ d ∈ c :: x, p d = true)
    (hy : ∀ d, y.head? = some d → p d = false)
    (hk : k { taken := c :: x, rest := y } = some out) :
    (word p).firstWith (c :: (x ++ y)) k = some out := by
  rw [word, firstWith_seq, firstWith_char_cons, if_pos (hx c List.mem_cons_self)]
  refine firstWith_longest (fun d hd => hx d (List.mem_cons_of_mem c hd)) (fun d u v h hd => ?_) hk
  rw [hy d (by rw [h]; rfl)] at hd
  cases hd

/-- A word needs a character of its class. -/
theorem firstWith_word_eq_none (h : ∀ d, cs.head? = some d → p d = false) :
    (word p).firstWith cs k = none := by
  rw [word, firstWith_seq]
  cases cs with
  | nil => exact firstWith_char_nil _ _
  | cons c cs => rw [firstWith_char_cons, h c rfl, if_neg Bool.false_ne_true]

end Words

/-! ### Options -/

/-- No character at all. -/
def nothing : Pattern := .run false fun _ => false

/-- A pattern or nothing, where the pattern is preferred. -/
def optional (a : Pattern) : Pattern := .alt a nothing

/-- Given characters. -/
def literal : List Char → Pattern
  | [] => nothing
  | c :: text => .seq (.char (· = c)) (literal text)

section Options

variable {β : Type} {p : Char → Bool} {k : Way → Option β} {cs x y : List Char}

theorem firstWith_nothing (cs : List Char) (k : Way → Option β) :
    nothing.firstWith cs k = k { taken := [], rest := cs } := by
  rw [nothing, firstWith_run, if_neg Bool.false_ne_true]
  cases cs <;> simp [runs]

/-- An optional part may be left out as the last resort. -/
theorem firstWith_optional (a : Pattern) (cs : List Char) (k : Way → Option β) :
    (optional a).firstWith cs k = (a.firstWith cs k).or (k { taken := [], rest := cs }) := by
  rw [optional, firstWith_alt, firstWith_nothing]

/-- A text that is there is taken. -/
theorem firstWith_literal (text cs : List Char) (k : Way → Option β) :
    (literal text).firstWith (text ++ cs) k = k { taken := text, rest := cs } := by
  induction text generalizing k with
  | nil => exact firstWith_nothing cs k
  | cons c text ih =>
    rw [literal, firstWith_seq, List.cons_append, firstWith_char_cons,
      if_pos (decide_eq_true rfl), ih]
    rfl

/-- A text that is not there fails. -/
theorem firstWith_literal_eq_none {text : List Char} (h : ¬text <+: cs) :
    (literal text).firstWith cs k = none := by
  induction text generalizing cs k with
  | nil => exact absurd List.nil_prefix h
  | cons c text ih =>
    rw [literal, firstWith_seq]
    cases cs with
    | nil => exact firstWith_char_nil _ _
    | cons d cs =>
      rw [firstWith_char_cons]
      split
      · rename_i hd
        obtain rfl : d = c := by simpa using hd
        exact ih fun hprefix => h (List.cons_prefix_cons.2 ⟨rfl, hprefix⟩)
      · rfl

/-- A greedy run takes all that it can, if the search then succeeds. -/
theorem firstWith_all {out : β} (hx : ∀ c ∈ x, p c = true)
    (hy : ∀ d, y.head? = some d → p d = false)
    (hk : k { taken := x, rest := y } = some out) :
    (run true p).firstWith (x ++ y) k = some out := by
  refine firstWith_longest hx (fun c u v h hc => ?_) hk
  rw [hy c (by rw [h]; rfl)] at hc
  cases hc

/-- The search fails after a word if it fails after every start of the text that is one. -/
theorem firstWith_word_eq_none_of (h : ∀ x y, cs = x ++ y → x ≠ [] → (∀ c ∈ x, p c = true) →
    k { taken := x, rest := y } = none) : (word p).firstWith cs k = none := by
  rw [word, firstWith_seq]
  cases cs with
  | nil => exact firstWith_char_nil _ _
  | cons c cs =>
    rw [firstWith_char_cons]
    split
    · rename_i hc
      refine firstWith_run_eq_none true fun x y hcs hx => ?_
      exact h (c :: x) y (congrArg (c :: ·) hcs) (List.cons_ne_nil c x)
        (List.forall_mem_cons.2 ⟨hc, hx⟩)
    · rfl

end Options

/-! ### Ways of a kind -/

section Members

variable {cs : List Char} {w : Way}

/-- The ways of a sequence are those of its parts, put together. -/
theorem of_mem_ways_seq {a b : Pattern} (h : w ∈ (seq a b).ways cs) :
    ∃ v ∈ a.ways cs, ∃ v' ∈ b.ways v.rest, w = v.append v' := by
  rw [ways, List.mem_flatMap] at h
  obtain ⟨v, hv, hw⟩ := h
  obtain ⟨v', hv', rfl⟩ := List.mem_map.1 hw
  exact ⟨v, hv, v', hv', rfl⟩

/-- A character class takes one character. -/
private theorem of_mem_ways_char {p : Char → Bool} (h : w ∈ (char p).ways cs) :
    ∃ c rest, cs = c :: rest ∧ p c = true ∧ w = ⟨[c], rest, []⟩ := by
  cases cs with
  | nil => exact absurd h List.not_mem_nil
  | cons c cs =>
    rw [ways] at h
    split at h
    · rename_i hc
      exact ⟨c, cs, rfl, hc, List.mem_singleton.1 h⟩
    · exact absurd h List.not_mem_nil

/-- A run takes characters of its class. -/
theorem of_mem_ways_run {greedy : Bool} {p : Char → Bool}
    (h : w ∈ (run greedy p).ways cs) :
    cs = w.taken ++ w.rest ∧ (∀ c ∈ w.taken, p c = true) ∧ w.groups = [] := by
  obtain ⟨s, hs, rfl⟩ := List.mem_map.1 (by rwa [ways] at h)
  have hruns : s ∈ runs p cs := by
    split at hs
    · exact List.mem_reverse.1 hs
    · exact hs
  exact ⟨(of_mem_runs hruns).1, (of_mem_runs hruns).2, rfl⟩

/-- A word takes characters of its class, at least one. -/
theorem of_mem_ways_word {p : Char → Bool} (h : w ∈ (word p).ways cs) :
    cs = w.taken ++ w.rest ∧ w.taken ≠ [] ∧ (∀ c ∈ w.taken, p c = true) ∧ w.groups = [] := by
  obtain ⟨v, hv, v', hv', rfl⟩ := of_mem_ways_seq h
  obtain ⟨c, rest, rfl, hc, rfl⟩ := of_mem_ways_char hv
  obtain ⟨hrest, hrun, hgroups⟩ := of_mem_ways_run hv'
  exact ⟨congrArg (c :: ·) hrest, List.cons_ne_nil c _, List.forall_mem_cons.2 ⟨hc, hrun⟩, hgroups⟩

/-- A literal takes its own text. -/
theorem of_mem_ways_literal {text : List Char} (h : w ∈ (literal text).ways cs) :
    cs = text ++ w.rest ∧ w.taken = text ∧ w.groups = [] := by
  induction text generalizing cs w with
  | nil =>
    obtain ⟨hcs, hnone, hgroups⟩ := of_mem_ways_run h
    obtain htaken := List.eq_nil_iff_forall_not_mem.2 fun c hc => Bool.false_ne_true (hnone c hc)
    exact ⟨by rw [hcs, htaken], htaken, hgroups⟩
  | cons c text ih =>
    obtain ⟨v, hv, v', hv', rfl⟩ := of_mem_ways_seq h
    obtain ⟨d, rest, rfl, hd, rfl⟩ := of_mem_ways_char hv
    obtain ⟨hrest, htaken, hgroups⟩ := ih hv'
    obtain rfl := of_decide_eq_true hd
    exact ⟨congrArg (d :: ·) hrest, congrArg (d :: ·) htaken, hgroups⟩

end Members

/-! ### Searching -/

/-- The way that counts at the first place of a text where there is one. The pattern may depend on
whether a word character stands before the place. -/
def search (a : Bool → Pattern) (afterWord : Bool) : List Char → Option Way
  | [] => (a afterWord).first? []
  | c :: cs => ((a afterWord).first? (c :: cs)).or (search a (isWord c) cs)

end Pattern

end ApiDocs.Text
