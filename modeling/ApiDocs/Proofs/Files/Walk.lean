import Mathlib.Data.List.Nodup
import Mathlib.Tactic.Choose
import ApiDocs.Cli.Run
import ApiDocs.Proofs.Page.ClassPaths

/-!
# The walk for sources

The sources of a root directory are found by a walk through the tree below it. A file is known by
its place, the names on the way to it from the root, and its path is the root with these names
joined to it, so that different places have different paths (`eq_of_foldl_join_eq`).

`Node.Walked` says what the walk finds in a tree whose directories can all be listed, in terms of
places: **each counted file, and in the order `Before`**, in which the files of a directory come
first, by name, and then what is below its subdirectories, one after the other. Whatever is not a
directory counts as a file here, also a link that leads nowhere. A tree has only one list of places
like that (`Node.Walked.eq`), so that the order in which directories list their entries does not
matter. The theorem about a disk is `Cli.sourcePaths_walk`, where the tree can be read throughout.
-/

namespace ApiDocs

/-! ### Paths below a directory -/

namespace Path

/-- A name that an entry of a directory can have. -/
structure IsName (name : String) : Prop where
  nonempty : name ≠ ""
  plain : '/' ∉ name.toList

/-- The segments that the path of an entry of a directory begins with. -/
def stem (dir : String) : List String :=
  if dir.isEmpty || dir.toList.getLast? = some '/' then (segments dir).dropLast else segments dir

/-- The segments of a path are those before a slash and those behind it. -/
private theorem splitSlash_append_slash (cs rest : List Char) :
    splitSlash (cs ++ '/' :: rest) = splitSlash cs ++ splitSlash rest := by
  induction cs with
  | nil => rfl
  | cons c cs ih =>
    obtain ⟨part, parts, hparts⟩ := List.exists_cons_of_ne_nil (splitSlash_ne_nil cs)
    rw [List.cons_append, splitSlash, splitSlash, ih, hparts]
    split_ifs <;> rfl

private theorem segments_append_slash (dir rest : String) :
    segments (dir ++ "/" ++ rest) = segments dir ++ segments rest := by
  have hchars : (dir ++ "/" ++ rest).toList = dir.toList ++ '/' :: rest.toList := by simp
  rw [segments, hchars, splitSlash_append_slash, List.map_append]
  rfl

/-- Behind a slash at the end of a path there is no segment but the empty one. -/
private theorem lastSegment_of_getLast? {dir : String} (h : dir.toList.getLast? = some '/') :
    lastSegment dir = "" := by
  obtain ⟨before, hbefore⟩ := List.getLast?_eq_some_iff.1 h
  have hdir : dir = .ofList before ++ "/" ++ "" := by
    rw [← String.ofList_toList (s := dir), hbefore]
    simp [String.ofList_append]
  have hnil : segments "" = [""] := rfl
  rw [lastSegment, hdir, segments_append_slash, hnil, List.getLastD_concat]

variable {name : String}

/-- A name is a relative path. -/
private theorem IsName.isAbsolute (h : IsName name) : isAbsolute name = false := by
  rw [Path.isAbsolute]
  rcases hname : name.toList with _ | ⟨c, cs⟩
  · rfl
  · have hc : c ≠ '/' := fun hc => h.plain (by simp [hname, hc])
    simpa using hc

/-- A joined path has the name for its last segment. -/
private theorem segments_join (h : IsName name) (dir : String) :
    segments (join dir name) = stem dir ++ [name] := by
  rw [join, stem, h.isAbsolute, if_neg (by decide)]
  split_ifs with hdir
  · have hlast : lastSegment dir = "" := by
      rw [Bool.or_eq_true, decide_eq_true_eq] at hdir
      rcases hdir with hempty | hslash
      · rw [String.isEmpty_iff.1 hempty]
        rfl
      · exact lastSegment_of_getLast? hslash
    rw [segments_append dir h.plain, hlast, String.empty_append]
  · rw [segments_append_slash, segments_of_not_mem h.plain]

/-- Joining adds a segment to the stem. -/
private theorem stem_join (h : IsName name) (dir : String) :
    stem (join dir name) = stem dir ++ [name] := by
  have hends : ∃ before : String, join dir name = before ++ name := by
    rw [join, h.isAbsolute, if_neg (by decide)]
    split_ifs
    · exact ⟨dir, rfl⟩
    · exact ⟨dir ++ "/", rfl⟩
  obtain ⟨before, hbefore⟩ := hends
  have hname : name.toList ≠ [] := fun hnil => h.nonempty (String.toList_eq_nil_iff.1 hnil)
  have hchars : (join dir name).toList = before.toList ++ name.toList := by
    rw [hbefore, String.toList_append]
  have hempty : (join dir name).isEmpty = false := by
    rw [← Bool.not_eq_true, String.isEmpty_iff, ← String.toList_eq_nil_iff, hchars]
    simp [hname]
  have hlast : (join dir name).toList.getLast? ≠ some '/' := by
    rw [hchars, List.getLast?_append_of_ne_nil _ hname]
    exact fun hslash => h.plain (List.mem_of_getLast? hslash)
  rw [stem, if_neg (by simp [hempty, hlast]), segments_join h]

/-- Joining the names of a place adds them to the stem. -/
private theorem stem_foldl_join {place : List String} (h : ∀ name ∈ place, IsName name)
    (dir : String) :
    stem (place.foldl join dir) = stem dir ++ place := by
  induction place generalizing dir with
  | nil => exact (List.append_nil _).symm
  | cons name place ih =>
    obtain ⟨hname, hplace⟩ := List.forall_mem_cons.1 h
    rw [List.foldl_cons, ih hplace, stem_join hname, List.append_assoc, List.singleton_append]

/-- Different places have different paths. -/
private theorem eq_of_foldl_join_eq {place place' : List String} (h : ∀ name ∈ place, IsName name)
    (h' : ∀ name ∈ place', IsName name) {dir : String}
    (heq : place.foldl join dir = place'.foldl join dir) : place = place' := by
  have hstem := congrArg stem heq
  rw [stem_foldl_join h, stem_foldl_join h'] at hstem
  exact List.append_cancel_left hstem

end Path

namespace Node

open ApiDocs.Path

/-! ### Trees -/

/-- A tree as a file system has it: each entry has a name, and no directory has two entries of the
same name. -/
inductive Named : Node → Prop
  | file (bytes : ByteArray) (unreadable : Option DiskError) : Named (file bytes unreadable)
  | lost (cause : DiskError) : Named (lost cause)
  | dir {es : List (String × Node)} {unlisted closed : Option DiskError}
      (distinct : (es.map (·.1)).Nodup) (names : ∀ e ∈ es, IsName e.1)
      (below : ∀ e ∈ es, Named e.2) : Named (dir es unlisted closed)

/-- **All directories of a tree can be listed.** -/
inductive Listable : Node → Prop
  | file (bytes : ByteArray) (unreadable : Option DiskError) : Listable (file bytes unreadable)
  | lost (cause : DiskError) : Listable (lost cause)
  | dir {es : List (String × Node)} {closed : Option DiskError} (below : ∀ e ∈ es, Listable e.2) :
      Listable (dir es none closed)

/-- The directories of a tree with the given path can all be listed and followed, and no name in
them leads nowhere. -/
inductive Readable : String → Node → Prop
  | file (path : String) (bytes : ByteArray) (unreadable : Option DiskError) :
      Readable path (file bytes unreadable)
  | dir {path : String} {es : List (String × Node)} (short : tooLong path = false)
      (below : ∀ e ∈ es, Readable (join path e.1) e.2) : Readable path (dir es)

/-- **Two trees that differ only in the order in which directories list their entries**, which
have distinct names. -/
inductive Reordered : Node → Node → Prop
  | file (bytes : ByteArray) (unreadable : Option DiskError) :
      Reordered (file bytes unreadable) (file bytes unreadable)
  | lost (cause : DiskError) : Reordered (lost cause) (lost cause)
  | dir {es es' : List (String × Node)} {unlisted closed : Option DiskError}
      (names : (es.map (·.1)).Perm (es'.map (·.1)))
      (below : ∀ e ∈ es, ∀ e' ∈ es', e.1 = e'.1 → Reordered e.2 e'.2) :
      Reordered (dir es unlisted closed) (dir es' unlisted closed)

/-- Where names are distinct, every entry is found under its name. -/
private theorem lookup_eq_some_iff {es : List (String × Node)} (h : (es.map (·.1)).Nodup)
    {name : String}
    {child : Node} : es.lookup name = some child ↔ (name, child) ∈ es := by
  induction es with
  | nil => simp
  | cons e es ih =>
    obtain ⟨hfirst, hrest⟩ := List.nodup_cons.1 h
    obtain ⟨k, v⟩ := e
    by_cases hname : name = k
    · subst hname
      have hnone : (name, child) ∉ es := fun hmem => hfirst (List.mem_map_of_mem (f := (·.1)) hmem)
      simp [hnone, eq_comm]
    · have hbeq : (name == k) = false := beq_eq_false_iff_ne.2 hname
      rw [List.lookup_cons, hbeq, ih hrest, List.mem_cons, Prod.mk.injEq]
      simp [hname]

/-! ### Directories that can be followed -/

private theorem prune_eq {n : Node} {root : String} (h : Readable root n) (stub : Node) :
    prune stub (join root) n = n := by
  induction h with
  | file path bytes unreadable => rfl
  | @dir path es short below ih =>
    have hentries : ∀ fs, fs ⊆ es → pruneIn stub (join path) false fs = fs := by
      intro fs hfs
      induction fs with
      | nil => rfl
      | cons e fs ihfs =>
        obtain ⟨he, hrest⟩ := List.cons_subset.1 hfs
        obtain ⟨name, child⟩ := e
        have hshort : (child.isDir && (false || tooLong (join path name))) = false := by
          rcases below _ he with _ | ⟨hshort, -⟩
          · rfl
          · rw [hshort, Bool.or_false, Bool.and_false]
        rw [pruneIn, hshort, ih _ he, ihfs hrest]
        rfl
    exact congrArg (dir · none none) (hentries es (List.Subset.refl es))

/-- A tree that can be read can be listed. -/
private theorem Readable.listable {n : Node} {path : String} (h : Readable path n) :
    n.Listable := by
  induction h with
  | file path bytes unreadable => exact .file bytes unreadable
  | dir short below ih => exact .dir ih

private theorem mem_of_lookup {es : List (String × Node)} {name : String} {child : Node}
    (h : es.lookup name = some child) : (name, child) ∈ es := by
  obtain ⟨before, after, rfl, -⟩ := List.lookup_eq_some_iff.1 h
  exact List.mem_append_right _ List.mem_cons_self

/-- What a name in a tree that can be read leads to can be read. -/
private theorem Readable.of_at? {n m : Node} {path : String} (h : Readable path n)
    {place : List String}
    (hat : n.at? place = some m) : ∃ path', Readable path' m := by
  induction place generalizing n path with
  | nil =>
    cases hat
    exact ⟨path, h⟩
  | cons name place ih =>
    rw [at?] at hat
    cases hchild : n.entries.lookup name with
    | none => simp [hchild] at hat
    | some child =>
      rw [hchild] at hat
      rcases h with _ | ⟨-, below⟩
      · cases hchild
      · exact ih (below _ (mem_of_lookup hchild)) hat

/-! ### What the walk finds -/

/-- **The order of the walk.** The files of a directory come by name; then what is below its
subdirectories comes, in order of their names. -/
inductive Before : List String → List String → Prop
  | file {a b : String} (h : a < b) : Before [a] [b]
  | fileFirst (a b c : String) (q : List String) : Before [a] (b :: c :: q)
  | dir {a b : String} (h : a < b) (c d : String) (p q : List String) :
      Before (a :: c :: p) (b :: d :: q)
  | under (a : String) {p q : List String} (h : Before p q) : Before (a :: p) (a :: q)

/-- A place below a node is that of something other than a directory whose name ends with an
extension, upper and lower case being the same. -/
def Counted (extension : String) (n : Node) (place : List String) : Prop :=
  ∃ name m, place.getLast? = some name ∧ n.at? place = some m ∧ m.isDir = false ∧
    (Text.lower extension).toList <:+ (Text.lower name).toList

/-- **What the walk through a tree finds**: all counted files, in order. -/
structure Walked (extension : String) (n : Node) (places : List (List String)) : Prop where
  mem_iff : ∀ place, place ∈ places ↔ n.Counted extension place
  ordered : places.Pairwise Before

/-- Of two places only one can come before the other. -/
private theorem Before.asymm {p q : List String} (h : Before p q) : ¬Before q p := by
  intro hback
  induction h with
  | file h =>
    rcases hback with h' | _ | _ | ⟨_, ⟨⟩⟩
    exact absurd h' (String.lt_asymm h)
  | fileFirst a b c q =>
    cases hback with
    | under _ hnil => cases hnil
  | dir h c d p q =>
    rcases hback with _ | _ | h' | _
    · exact absurd h' (String.lt_asymm h)
    · exact absurd h (String.lt_irrefl _)
  | under a h ih =>
    rcases hback with h' | _ | h' | ⟨_, hback⟩
    · exact absurd h' (String.lt_irrefl _)
    · cases h
    · exact absurd h' (String.lt_irrefl _)
    · exact ih hback

/-- A walk comes to no place twice. -/
private theorem Walked.nodup {extension : String} {n : Node} {places : List (List String)}
    (h : Walked extension n places) : places.Nodup :=
  h.ordered.imp fun hpq heq => (heq ▸ hpq).asymm (heq ▸ hpq)

/-- The counted files and their order determine the places. -/
private theorem Walked.eq {extension : String} {n n' : Node} {places places' : List (List String)}
    (h : Walked extension n places) (h' : Walked extension n' places')
    (hsame : ∀ place, n.Counted extension place ↔ n'.Counted extension place) :
    places = places' := by
  refine List.Perm.eq_of_pairwise (fun p q _ _ hpq hqp => absurd hqp hpq.asymm) h.ordered
    h'.ordered ?_
  rw [List.perm_ext_iff_of_nodup h.nodup h'.nodup]
  intro place
  rw [h.mem_iff, h'.mem_iff, hsame]

/-! ### One directory -/

/-- The entries of a directory by name. -/
def byName (es : List (String × Node)) : List (String × Node) :=
  es.mergeSort fun a b => a.1 ≤ b.1

/-- The place of an entry if it is counted. -/
def ownPlace? (extension : String) (e : String × Node) : Option (List String) :=
  if !e.2.isDir && hasExtension extension e.1 then some [e.1] else none

/-- What an entry contributes. -/
def found (extension path : String) (e : String × Node) : Found :=
  if e.2.isDir then .dir (sources extension (join path e.1) e.2)
  else .file (hasExtension extension e.1)

private theorem foundIn_eq_map (extension path : String) (es : List (String × Node)) :
    foundIn extension path es = es.map fun e => (e.1, found extension path e) := by
  induction es with
  | nil => rfl
  | cons e es ih =>
    rw [foundIn, ih]
    rfl

/-- What is below the entries of a directory. -/
def sourcesBelow (extension path : String) (es : List (String × Node)) :
    Except Unlisted (List String) :=
  gatherBelow (es.map fun e => (e.1, found extension path e))

/-- There are no sources below a file or a link that leads nowhere. -/
private theorem sources_of_not_isDir {n : Node} (h : n.isDir = false) (extension path : String) :
    sources extension path n = .ok [] := by
  cases n with
  | file bytes unreadable => rfl
  | lost cause => rfl
  | dir es unlisted closed => cases h

/-- Entries are walked through one after the other, up to the first failure. -/
theorem sourcesBelow_cons (extension path : String) (e : String × Node)
    (es : List (String × Node)) :
    sourcesBelow extension path (e :: es) =
      match sources extension (join path e.1) e.2 with
      | .error err => .error err
      | .ok files => (sourcesBelow extension path es).map (files ++ ·) := by
  rw [sourcesBelow, List.map_cons, found]
  rcases hdir : e.2.isDir
  · rw [sources_of_not_isDir hdir]
    exact (id_map (sourcesBelow extension path es)).symm
  · rfl

/-- The sources below a directory are those of its entries, if all of them can be listed. -/
private theorem sourcesBelow_eq_ok {extension path : String} {es : List (String × Node)}
    {below : String × Node → List String}
    (h : ∀ e ∈ es, sources extension (join path e.1) e.2 = .ok (below e)) :
    sourcesBelow extension path es = .ok (es.flatMap below) := by
  induction es with
  | nil => rfl
  | cons e es ih =>
    obtain ⟨hfirst, hrest⟩ := List.forall_mem_cons.1 h
    rw [sourcesBelow_cons, hfirst, ih hrest]
    rfl

theorem mem_byName {es : List (String × Node)} {e : String × Node} : e ∈ byName es ↔ e ∈ es :=
  (List.mergeSort_perm es _).mem_iff

/-- The entries are walked through by their names. -/
private theorem pairwise_byName {es : List (String × Node)} (h : (es.map (·.1)).Nodup) :
    (byName es).Pairwise fun a b => a.1 < b.1 := by
  have hle : (byName es).Pairwise fun a b => a.1 ≤ b.1 := by
    refine (List.pairwise_mergeSort ?_ ?_ es).imp of_decide_eq_true
    · intro a b c hab hbc
      exact decide_eq_true (String.le_trans (of_decide_eq_true hab) (of_decide_eq_true hbc))
    · intro a b
      simpa using String.le_total a.1 b.1
  have hne : (byName es).Pairwise fun a b => a.1 ≠ b.1 := by
    have hnodup : ((byName es).map (·.1)).Nodup :=
      ((List.mergeSort_perm es _).map (·.1)).nodup_iff.2 h
    rwa [List.nodup_iff_pairwise_ne, List.pairwise_map] at hnodup
  refine hle.imp₂ (fun a b hle hne => ?_) hne
  by_contra hlt
  exact hne (String.le_antisymm hle (String.not_lt.1 hlt))

/-- **The walk through a directory**: its own files first, then what is below its entries. -/
theorem sources_dir (extension path : String) (es : List (String × Node))
    (closed : Option DiskError) :
    sources extension path (dir es none closed) =
      (sourcesBelow extension path (byName es)).map
        (((byName es).filterMap (ownPlace? extension)).map (·.foldl join path) ++ ·) := by
  have hsorted : (es.map fun e => (e.1, found extension path e)).mergeSort (fun a b => a.1 ≤ b.1) =
      (byName es).map fun e => (e.1, found extension path e) := by
    refine (List.map_mergeSort ?_).symm
    exact fun _ _ _ _ => rfl
  rw [sources, foundIn_eq_map, gather, hsorted, List.filterMap_map, List.map_filterMap]
  refine congrArg (fun own => (sourcesBelow extension path (byName es)).map (own ++ ·))
    (List.filterMap_congr fun e _ => ?_)
  -- an entry is a file of its own by the test that `found` marks it with
  rcases hdir : e.2.isDir <;> rcases hext : hasExtension extension e.1 <;>
    simp [found, ownPlace?, hdir, hext]

/-- What is at a place below a directory is at the rest of the place below an entry. -/
private theorem at?_dir_cons {es : List (String × Node)} {unlisted closed : Option DiskError}
    (h : (es.map (·.1)).Nodup) {name : String} {place : List String} {n : Node} :
    (dir es unlisted closed).at? (name :: place) = some n ↔
      ∃ child, (name, child) ∈ es ∧ child.at? place = some n := by
  simp only [← lookup_eq_some_iff h]
  rw [at?, entries]
  rcases es.lookup name with _ | child <;> simp

/-- A counted file lies below the place at which the walk begins. -/
private theorem Counted.ne_nil {extension : String} {n : Node} {place : List String}
    (h : n.Counted extension place) : place ≠ [] := by
  obtain ⟨name, m, hname, -⟩ := h
  rintro rfl
  cases hname

/-- An entry counts by itself if it is no directory and has the extension. -/
private theorem ownPlace?_eq_some_iff {extension : String} {e : String × Node}
    {place : List String} :
    ownPlace? extension e = some place ↔ e.2.isDir = false ∧
      (Text.lower extension).toList <:+ (Text.lower e.1).toList ∧ [e.1] = place := by
  simp [ownPlace?, hasExtension, and_assoc]

/-- The counted files below a directory are its own and those below its entries. -/
private theorem counted_dir_iff {es : List (String × Node)} {unlisted closed : Option DiskError}
    (h : (es.map (·.1)).Nodup) {extension : String} {place : List String} :
    (dir es unlisted closed).Counted extension place ↔
      (∃ e ∈ es, ownPlace? extension e = some place) ∨
        ∃ e ∈ es, ∃ q, e.2.Counted extension q ∧ e.1 :: q = place := by
  constructor
  · rintro ⟨name, m, hlast, hat, hfile, hext⟩
    rcases place with _ | ⟨a, _ | ⟨b, q⟩⟩
    · cases hlast
    · obtain ⟨child, hmem, hchild⟩ := (at?_dir_cons h).1 hat
      cases hlast
      cases hchild
      exact .inl ⟨_, hmem, ownPlace?_eq_some_iff.2 ⟨hfile, hext, rfl⟩⟩
    · obtain ⟨child, hmem, hchild⟩ := (at?_dir_cons h).1 hat
      exact .inr ⟨_, hmem, b :: q, ⟨name, m, hlast, hchild, hfile, hext⟩, rfl⟩
  · rintro (⟨⟨a, child⟩, hmem, hown⟩ | ⟨⟨a, child⟩, hmem, q, hcounted, rfl⟩)
    · obtain ⟨hfile, hext, rfl⟩ := ownPlace?_eq_some_iff.1 hown
      exact ⟨a, child, rfl, (at?_dir_cons h).2 ⟨_, hmem, rfl⟩, hfile, hext⟩
    · obtain ⟨name, m, hlast, hat, hfile, hext⟩ := hcounted
      refine ⟨name, m, ?_, (at?_dir_cons h).2 ⟨child, hmem, hat⟩, hfile, hext⟩
      rw [List.getLast?_cons, hlast]
      rfl

/-- Nothing is counted below something that is not a directory. -/
private theorem not_counted {n : Node} (h : n.isDir = false) (extension : String)
    (place : List String) :
    ¬n.Counted extension place := by
  rintro ⟨name, m, hlast, hat, -⟩
  rcases place with _ | ⟨a, place⟩
  · cases hlast
  · cases n with
    | file bytes unreadable => cases hat
    | lost cause => cases hat
    | dir es unlisted closed => cases h

/-- The walk through a file ends at once. -/
private theorem exists_walked_of_not_isDir {n : Node} (h : n.isDir = false) (extension : String) :
    ∃ places : List (List String),
      (∀ path, sources extension path n = .ok (places.map (·.foldl join path))) ∧
        Walked extension n places :=
  ⟨[], fun path => sources_of_not_isDir h extension path,
    fun place => iff_of_false List.not_mem_nil (not_counted h extension place), List.Pairwise.nil⟩

/-- **What the walk finds.** -/
theorem exists_walked {n : Node} (h : n.Named) (hlist : n.Listable) (extension : String) :
    ∃ places : List (List String),
      (∀ path, sources extension path n = .ok (places.map (·.foldl join path))) ∧
        Walked extension n places := by
  induction h with
  | file bytes unreadable => exact exists_walked_of_not_isDir rfl extension
  | lost cause => exact exists_walked_of_not_isDir rfl extension
  | @dir es unlisted closed distinct names _ ih =>
    rcases hlist with _ | _ | hbelow
    choose! below hsources hwalked using fun e he => ih e he (hbelow e he)
    refine ⟨(byName es).filterMap (ownPlace? extension) ++
      (byName es).flatMap fun e => (below e).map (e.1 :: ·), fun path => ?_, ⟨fun place => ?_, ?_⟩⟩
    · rw [sources_dir, sourcesBelow_eq_ok fun e he => hsources e (mem_byName.1 he) (join path e.1)]
      rw [List.map_append, List.map_flatMap]
      simp only [List.map_map]
      rfl
    · rw [counted_dir_iff distinct, List.mem_append, List.mem_filterMap, List.mem_flatMap]
      simp only [mem_byName, List.mem_map]
      refine or_congr_right (exists_congr fun e => and_congr_right fun he => ?_)
      exact exists_congr fun q => and_congr_left fun _ => (hwalked e he).mem_iff q
    · have hsorted := pairwise_byName distinct
      have hlong : ∀ e ∈ byName es, ∀ p ∈ below e, ∃ c q, p = c :: q := fun e he p hp =>
        List.exists_cons_of_ne_nil ((hwalked e (mem_byName.1 he)).mem_iff p |>.1 hp).ne_nil
      refine List.pairwise_append.2 ⟨?_, List.pairwise_flatMap.2 ⟨fun e he => ?_, ?_⟩, ?_⟩
      · refine List.pairwise_filterMap.2 (hsorted.imp fun hlt p hp q hq => ?_)
        obtain ⟨-, -, rfl⟩ := ownPlace?_eq_some_iff.1 hp
        obtain ⟨-, -, rfl⟩ := ownPlace?_eq_some_iff.1 hq
        exact .file hlt
      · exact List.pairwise_map.2 ((hwalked e (mem_byName.1 he)).ordered.imp (.under e.1))
      · refine hsorted.imp_of_mem fun ha hb hlt p hp q hq => ?_
        obtain ⟨p, hp', rfl⟩ := List.mem_map.1 hp
        obtain ⟨q, hq', rfl⟩ := List.mem_map.1 hq
        obtain ⟨c, p, rfl⟩ := hlong _ ha p hp'
        obtain ⟨d, q, rfl⟩ := hlong _ hb q hq'
        exact .dir hlt c d p q
      · intro p hp q hq
        obtain ⟨a, -, hown⟩ := List.mem_filterMap.1 hp
        obtain ⟨-, -, rfl⟩ := ownPlace?_eq_some_iff.1 hown
        obtain ⟨b, hb, hqs⟩ := List.mem_flatMap.1 hq
        obtain ⟨q, hq', rfl⟩ := List.mem_map.1 hqs
        obtain ⟨c, q, rfl⟩ := hlong _ hb q hq'
        exact .fileFirst a.1 b.1 c q

/-! ### The order of listings -/

private theorem Named.isName_of_at? {n m : Node} (h : n.Named) {place : List String}
    (hat : n.at? place = some m) : ∀ name ∈ place, IsName name := by
  induction h generalizing place with
  | file bytes unreadable =>
    rcases place with _ | ⟨a, place⟩
    · simp
    · cases hat
  | lost cause =>
    rcases place with _ | ⟨a, place⟩
    · simp
    · cases hat
  | dir distinct names _ ih =>
    rcases place with _ | ⟨a, place⟩
    · simp
    · obtain ⟨child, hmem, hchild⟩ := (at?_dir_cons distinct).1 hat
      exact List.forall_mem_cons.2 ⟨names _ hmem, ih _ hmem hchild⟩

/-- Entries of two listings correspond by their names. -/
private theorem exists_entry {es es' : List (String × Node)}
    (h : (es.map (·.1)).Perm (es'.map (·.1)))
    {e : String × Node} (he : e ∈ es) : ∃ e' ∈ es', e.1 = e'.1 := by
  obtain ⟨e', he', heq⟩ := List.mem_map.1 (h.mem_iff.1 (List.mem_map_of_mem he))
  exact ⟨e', he', heq.symm⟩

namespace Reordered

variable {n n' : Node}

/-- The names do not depend on the order of entries. -/
private theorem named (h : Reordered n n') (hn : n.Named) : n'.Named := by
  induction h with
  | file bytes unreadable => exact .file bytes unreadable
  | lost cause => exact .lost cause
  | dir hnames _ ih =>
    rcases hn with _ | _ | ⟨distinct, names, below⟩
    refine .dir (hnames.nodup_iff.1 distinct) (fun e' he' => ?_) (fun e' he' => ?_)
    · obtain ⟨e, he, heq⟩ := exists_entry hnames.symm he'
      exact heq ▸ names e he
    · obtain ⟨e, he, heq⟩ := exists_entry hnames.symm he'
      exact ih e he e' he' heq.symm (below e he)

/-- Whether a tree can be read does not depend on the order of entries. -/
private theorem readable (h : Reordered n n') {path : String} (hn : Readable path n) :
    Readable path n' := by
  induction h generalizing path with
  | file bytes unreadable => exact .file path bytes unreadable
  | lost cause => exact hn
  | dir hnames _ ih =>
    rcases hn with _ | ⟨short, below⟩
    refine .dir short fun e' he' => ?_
    obtain ⟨e, he, heq⟩ := exists_entry hnames.symm he'
    exact ih e he e' he' heq.symm (heq ▸ below e he)

/-- At the same places is the same, directories apart. -/
private theorem at?_iff (h : Reordered n n') (hn : n.Named) {place : List String} {m : Node}
    (hm : m.isDir = false) : n.at? place = some m ↔ n'.at? place = some m := by
  induction h generalizing place with
  | file bytes unreadable => exact Iff.rfl
  | lost cause => exact Iff.rfl
  | @dir es es' unlisted closed hnames below ih =>
    have hdir : Reordered (.dir es unlisted closed) (.dir es' unlisted closed) := .dir hnames below
    have hn' := hdir.named hn
    rcases hn with _ | _ | ⟨distinct, -, hbelow⟩
    rcases hn' with _ | _ | ⟨distinct', -, -⟩
    rcases place with _ | ⟨a, place⟩
    · refine iff_of_false ?_ ?_ <;>
      · rintro ⟨⟩
        cases hm
    rw [at?_dir_cons distinct, at?_dir_cons distinct']
    constructor
    · rintro ⟨child, hmem, hchild⟩
      obtain ⟨⟨_, child'⟩, hmem', rfl⟩ := exists_entry hnames hmem
      exact ⟨child', hmem', (ih _ hmem _ hmem' rfl (hbelow _ hmem)).1 hchild⟩
    · rintro ⟨child', hmem', hchild'⟩
      obtain ⟨⟨_, child⟩, hmem, rfl⟩ := exists_entry hnames.symm hmem'
      exact ⟨child, hmem, (ih _ hmem _ hmem' rfl (hbelow _ hmem)).2 hchild'⟩

/-- The counted files do not depend on the order of entries. -/
private theorem counted_iff (h : Reordered n n') (hn : n.Named) {extension : String}
    {place : List String} : n.Counted extension place ↔ n'.Counted extension place := by
  refine exists_congr fun name => exists_congr fun m => and_congr_right fun _ => ?_
  rw [← and_assoc, ← and_assoc]
  exact and_congr_left fun _ => and_congr_left fun hm => h.at?_iff hn hm

end Reordered

/-- In a tree that can be read, what is counted are files. -/
private theorem Readable.counted_iff {n : Node} {path : String} (h : Readable path n)
    {extension : String}
    {place : List String} :
    n.Counted extension place ↔ ∃ name bytes unreadable, place.getLast? = some name ∧
      n.at? place = some (.file bytes unreadable) ∧
        (Text.lower extension).toList <:+ (Text.lower name).toList := by
  constructor
  · rintro ⟨name, m, hlast, hat, hfile, hext⟩
    obtain ⟨path', hm⟩ := h.of_at? hat
    rcases hm with ⟨_, bytes, unreadable⟩ | _
    · exact ⟨name, bytes, unreadable, hlast, hat, hext⟩
    · cases hfile
  · rintro ⟨name, bytes, unreadable, hlast, hat, hext⟩
    exact ⟨name, _, hlast, hat, rfl, hext⟩

end Node

/-! ### The sources of a root -/

namespace Cli

/-- What has been listed is not a file. -/
private theorem isFile_of_readDir {d : Disk} {root : String} {n : Node}
    (h : d.readDir root = .ok n) :
    d.isFile root = false := by
  rw [Disk.readDir] at h
  rw [Disk.isFile, Disk.node?]
  rcases hfind : d.find root with e | s
  · rfl
  · rw [hfind] at h
    dsimp only at h ⊢
    split at h <;> cases h
    rename_i hnode
    rw [hnode]
    rfl

/-- The sources of a root are those of the tree at it, if this can be read. -/
private theorem sourcePaths_of_readDir {d : Disk} {root : String} {n : Node}
    (hroot : d.readDir root = .ok n) (hreadable : n.Readable root) {extension : String}
    {paths : List String} (hpaths : n.sources extension root = .ok paths) :
    sourcePaths d extension root = .ok paths := by
  rw [sourcePaths, isFile_of_readDir hroot, hroot]
  dsimp only
  rw [Node.prune_eq hreadable, hpaths]
  rfl

/-- **The sources of a root directory** are the files below it whose names end with the extension,
each once, in the order of the walk, whatever the order in which directories list their entries. -/
theorem sourcePaths_walk {d : Disk} {root : String} {n : Node} (hroot : d.readDir root = .ok n)
    (hnamed : n.Named) (hreadable : n.Readable root) (extension : String) :
    ∃ places : List (List String),
      sourcePaths d extension root = .ok (places.map (·.foldl Path.join root)) ∧
      (∀ place, place ∈ places ↔ ∃ name bytes unreadable, place.getLast? = some name ∧
        n.at? place = some (.file bytes unreadable) ∧
          (Text.lower extension).toList <:+ (Text.lower name).toList) ∧
      places.Pairwise Node.Before ∧ (places.map (·.foldl Path.join root)).Nodup ∧
      ∀ d' n', Disk.readDir d' root = .ok n' → n.Reordered n' →
        sourcePaths d' extension root = sourcePaths d extension root := by
  obtain ⟨places, hsources, hwalked⟩ := Node.exists_walked hnamed hreadable.listable extension
  have hpaths := sourcePaths_of_readDir hroot hreadable (hsources root)
  refine ⟨places, hpaths, fun place => (hwalked.mem_iff place).trans hreadable.counted_iff,
    hwalked.ordered, ?_, fun d' n' hroot' hsame => ?_⟩
  · have hnames : ∀ place ∈ places, ∀ name ∈ place, Path.IsName name := by
      intro place hplace
      obtain ⟨_, _, _, hat, _⟩ := (hwalked.mem_iff place).1 hplace
      exact hnamed.isName_of_at? hat
    refine (List.nodup_map_iff_inj_on hwalked.nodup).2 fun p hp q hq heq => ?_
    exact Path.eq_of_foldl_join_eq (hnames p hp) (hnames q hq) heq
  · have hreadable' := hsame.readable hreadable
    obtain ⟨places', hsources', hwalked'⟩ :=
      Node.exists_walked (hsame.named hnamed) hreadable'.listable extension
    rw [hpaths, sourcePaths_of_readDir hroot' hreadable' (hsources' root),
      hwalked.eq hwalked' fun _ => hsame.counted_iff hnamed]

/-- Files of two directories, listed in no order. -/
theorem sourcePaths_walk_lib :
    let lib := Node.dir [("z.js", .file .empty), ("a", .dir [("inner.js", .file .empty)]),
      ("B.JS", .file .empty), ("notes.txt", .file .empty)]
    let d : Disk := ⟨.dir [("lib", lib)], []⟩
    d.readDir "lib" = .ok lib ∧ lib.Named ∧ lib.Readable "lib" ∧
      ∃ places : List (List String),
        sourcePaths d ".js" "lib" = .ok (places.map (·.foldl Path.join "lib")) ∧
        places.Pairwise Node.Before ∧ ["a", "inner.js"] ∈ places ∧ ["notes.txt"] ∉ places := by
  intro lib d
  have hroot : d.readDir "lib" = .ok lib := by rfl
  have hname : ∀ name ∈ ["z.js", "a", "B.JS", "notes.txt", "inner.js"], Path.IsName name := by
    have hnonempty : ∀ name ∈ ["z.js", "a", "B.JS", "notes.txt", "inner.js"], name ≠ "" := by decide
    have hplain : ∀ name ∈ ["z.js", "a", "B.JS", "notes.txt", "inner.js"], '/' ∉ name.toList := by
      decide
    exact fun name h => ⟨hnonempty name h, hplain name h⟩
  have hnamed : lib.Named := by
    refine .dir (by decide) ?_ ?_
    · simp [hname]
    · simp [Node.Named.file, Node.Named.dir, hname]
  have hreadable : lib.Readable "lib" := by
    have hbelow : Node.Readable (Path.join "lib" "a") (.dir [("inner.js", .file .empty)]) :=
      .dir rfl (by simp [Node.Readable.file])
    refine .dir rfl ?_
    simp [Node.Readable.file, hbelow]
  obtain ⟨places, hpaths, hmem, hordered, -⟩ := sourcePaths_walk hroot hnamed hreadable ".js"
  refine ⟨hroot, hnamed, hreadable, places, hpaths, hordered, ?_, ?_⟩
  · exact (hmem _).2 ⟨"inner.js", .empty, none, rfl, rfl, by decide⟩
  · rintro hnotes
    obtain ⟨name, bytes, unreadable, hname, -, hext⟩ := (hmem _).1 hnotes
    cases hname
    exact absurd hext (by decide)

end Cli

end ApiDocs
