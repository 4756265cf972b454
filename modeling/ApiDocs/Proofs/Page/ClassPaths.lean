import ApiDocs.Page.Basic
import ApiDocs.Proofs.Model.Shadowing
import ApiDocs.Proofs.Session.Names

/-!
# Where the pages of classes go

The page of a class is to be a file of the directory `classes`, and no two classes are to share a
file (`SideBySide`). The name of the file is the name of the class with an extension, but a class
may have any name, and slashes in it count as in every path: the page goes below `classes` only if
the name is not absolute, and straight there only if what comes before its last segment says nothing
(`components_classPage`). **The pages lie side by side exactly if that is so for every class shown,
and the last segments of the names differ** (`sideBySide_classPages_iff`); names without slashes
are of this kind.
-/

namespace ApiDocs

/-! ### Segments -/

namespace Path

theorem splitSlash_ne_nil (cs : List Char) : splitSlash cs ≠ [] := by
  cases cs with
  | nil => simp [splitSlash]
  | cons c cs =>
    rw [splitSlash]
    split
    · simp
    · split <;> simp

private theorem splitSlash_of_not_mem {cs : List Char} (h : '/' ∉ cs) : splitSlash cs = [cs] := by
  induction cs with
  | nil => rfl
  | cons c cs ih =>
    rw [List.mem_cons, not_or] at h
    rw [splitSlash, if_neg (Ne.symm h.1), ih h.2]

/-- Text without a slash goes on with the last segment. -/
private theorem splitSlash_append {rest : List Char} (h : '/' ∉ rest) (cs : List Char) :
    splitSlash (cs ++ rest) =
      (splitSlash cs).dropLast ++ [(splitSlash cs).getLastD [] ++ rest] := by
  induction cs with
  | nil => exact splitSlash_of_not_mem h
  | cons c cs ih =>
    obtain ⟨part, parts, hparts⟩ := List.exists_cons_of_ne_nil (splitSlash_ne_nil cs)
    rw [hparts] at ih
    rw [List.cons_append, splitSlash, splitSlash, ih, hparts]
    split
    · simp
    · cases parts with
      | nil => simp
      | cons p parts => simp

/-- The last segment of a path; empty if a slash ends it. -/
def lastSegment (path : String) : String := (segments path).getLastD ""

theorem segments_append (path : String) {rest : String} (h : '/' ∉ rest.toList) :
    segments (path ++ rest) = (segments path).dropLast ++ [lastSegment path ++ rest] := by
  have hlast : lastSegment path = .ofList ((splitSlash path.toList).getLastD []) := by
    rw [lastSegment, segments, List.getLastD_eq_getLast?, List.getLastD_eq_getLast?,
      List.getLast?_map]
    cases (splitSlash path.toList).getLast? <;> rfl
  rw [segments, String.toList_append, splitSlash_append h, hlast, segments, List.map_append,
    List.map_dropLast, List.map_singleton, String.ofList_append, String.ofList_toList]

theorem segments_of_not_mem {path : String} (h : '/' ∉ path.toList) : segments path = [path] := by
  rw [segments, splitSlash_of_not_mem h, List.map_singleton, String.ofList_toList]

end Path

/-! ### The page of one class -/

namespace Output

open ApiDocs.Path

/-- The page of a class of a name goes straight into the directory of pages: nothing before the last
segment of the name leads away from there. -/
structure InPlace (name : String) : Prop where
  relative : isAbsolute name = false
  direct : ∀ segment ∈ (segments name).dropLast, segment = "" ∨ segment = "."

private theorem ofSegment?_json (s : String) :
    Component.ofSegment? (s ++ ".json") = some (.name (s ++ ".json")) := by
  have hne (t : String) (ht : t.length < 5) : s ++ ".json" ≠ t := by
    rintro rfl
    rw [String.length_append] at ht
    have hjson : ".json".length = 5 := rfl
    omega
  rw [Component.ofSegment?, if_neg (not_or.2 ⟨hne "" (by decide), hne "." (by decide)⟩),
    if_neg (hne ".." (by decide))]

private theorem isAbsolute_json (name : String) :
    isAbsolute (name ++ ".json") = isAbsolute name := by
  rw [isAbsolute, isAbsolute, String.toList_append]
  cases name.toList <;> rfl

/-- The components of the path of a class page. -/
private theorem components_classPage (m : Model) (showPrivate : Bool) (c : ClassDoc) :
    components (classPage m showPrivate c).path =
      (if isAbsolute c.name then .root else .name "classes") ::
        ((segments c.name).dropLast.filterMap Component.ofSegment? ++
          [.name (lastSegment c.name ++ ".json")]) := by
  have hparts : (segments (c.name ++ ".json")).filterMap Component.ofSegment? =
      (segments c.name).dropLast.filterMap Component.ofSegment? ++
        [.name (lastSegment c.name ++ ".json")] := by
    rw [segments_append c.name (by decide), List.filterMap_append, List.filterMap_cons,
      ofSegment?_json, List.filterMap_nil]
  have hpath : (classPage m showPrivate c).path = join "classes" (c.name ++ ".json") := rfl
  rw [hpath, join, isAbsolute_json]
  -- an absolute name takes the place of the directory
  cases habsolute : isAbsolute c.name with
  | true =>
    rw [if_pos rfl, if_pos rfl, components, isAbsolute_json, habsolute, if_pos rfl, hparts]
  | false =>
    have hsegments : segments ("classes" ++ "/" ++ (c.name ++ ".json")) =
        "classes" :: segments (c.name ++ ".json") := by
      simp [segments, splitSlash]
    have hrelative : isAbsolute ("classes" ++ "/" ++ (c.name ++ ".json")) = false := by
      simp [isAbsolute]
    rw [if_neg (by decide), if_neg (by decide), if_neg (by decide), components, hrelative,
      hsegments, List.filterMap_cons, hparts]
    rfl

/-- **When the page of a class lies in the directory of pages.** -/
theorem exists_components_classPage_iff (m : Model) (showPrivate : Bool) (c : ClassDoc) :
    (∃ file, components (classPage m showPrivate c).path = [.name "classes", .name file]) ↔
      InPlace c.name := by
  have hdirect : (segments c.name).dropLast.filterMap Component.ofSegment? = [] ↔
      ∀ segment ∈ (segments c.name).dropLast, segment = "" ∨ segment = "." := by
    rw [List.filterMap_eq_nil_iff]
    refine forall₂_congr fun segment _ => ?_
    rw [Component.ofSegment?]
    split
    · rename_i h
      exact iff_of_true rfl h
    · rename_i h
      refine iff_of_false ?_ h
      split <;> simp
  rw [components_classPage]
  constructor
  · rintro ⟨file, hfile⟩
    obtain ⟨hroot, hrest⟩ := List.cons.inj hfile
    refine ⟨?_, hdirect.1 ?_⟩
    · by_contra habsolute
      rw [if_pos (by simpa using habsolute)] at hroot
      cases hroot
    · exact (List.append_inj' (hrest.trans (List.nil_append _).symm) rfl).1
  · rintro ⟨hrelative, hsegments⟩
    rw [hrelative, hdirect.2 hsegments]
    exact ⟨_, rfl⟩

/-- In place, the page of a class is the file named by the last segment of its name. -/
private theorem components_of_inPlace (m : Model) (showPrivate : Bool) {c : ClassDoc}
    (h : InPlace c.name) :
    components (classPage m showPrivate c).path =
      [.name "classes", .name (lastSegment c.name ++ ".json")] := by
  obtain ⟨file, hfile⟩ := (exists_components_classPage_iff m showPrivate c).2 h
  rw [hfile, List.cons.injEq, eq_self, true_and]
  rw [components_classPage] at hfile
  exact ((List.append_inj' ((List.cons.inj hfile).2.trans (List.nil_append _).symm) rfl).2).symm

/-! ### All pages -/

/-- **The pages lie side by side**: each is a file of the directory of class pages, and no two are
the same file. -/
structure SideBySide (pages : List Page) : Prop where
  contained : ∀ p ∈ pages, ∃ file, components p.path = [.name "classes", .name file]
  distinct : (pages.map fun p => components p.path).Nodup

/-- The names of the classes that have a page. -/
def shownNames (m : Model) (showPrivate : Bool) : List String :=
  (shownClasses m showPrivate).map (·.name)

/-- The pages of a model lie side by side exactly if the names of its shown classes are in place and
end differently. -/
private theorem sideBySide_iff (m : Model) (showPrivate : Bool) :
    SideBySide ((shownClasses m showPrivate).map (classPage m showPrivate)) ↔
      (∀ name ∈ shownNames m showPrivate, InPlace name) ∧
        ((shownNames m showPrivate).map lastSegment).Nodup := by
  have hcontained : (∀ p ∈ (shownClasses m showPrivate).map (classPage m showPrivate),
      ∃ file, components p.path = [.name "classes", .name file]) ↔
        ∀ name ∈ shownNames m showPrivate, InPlace name := by
    rw [shownNames, List.forall_mem_map, List.forall_mem_map]
    exact forall₂_congr fun c _ => exists_components_classPage_iff m showPrivate c
  -- in place, only the last segment of a name counts
  have hdistinct (h : ∀ name ∈ shownNames m showPrivate, InPlace name) :
      (((shownClasses m showPrivate).map (classPage m showPrivate)).map
          fun p => components p.path).Nodup ↔
        ((shownNames m showPrivate).map lastSegment).Nodup := by
    have hfiles : ((shownClasses m showPrivate).map (classPage m showPrivate)).map
        (fun p => components p.path) =
          ((shownNames m showPrivate).map lastSegment).map
            fun s => [.name "classes", .name (s ++ ".json")] := by
      rw [shownNames, List.map_map, List.map_map, List.map_map]
      refine List.map_congr_left fun c hc => ?_
      exact components_of_inPlace m showPrivate (h c.name (List.mem_map_of_mem hc))
    rw [hfiles]
    refine List.nodup_map_iff fun s t hst => ?_
    simpa using hst
  constructor
  · rintro ⟨h, hnodup⟩
    have hplace := hcontained.1 h
    exact ⟨hplace, (hdistinct hplace).1 hnodup⟩
  · rintro ⟨hplace, hnodup⟩
    exact ⟨hcontained.2 hplace, (hdistinct hplace).2 hnodup⟩

/-- Names without slashes are in place, and are the names of their files. -/
private theorem inPlace_of_not_mem {name : String} (h : '/' ∉ name.toList) :
    InPlace name ∧ lastSegment name = name := by
  have hsegments := segments_of_not_mem h
  refine ⟨⟨?_, ?_⟩, ?_⟩
  · rw [isAbsolute]
    cases hchars : name.toList with
    | nil => rfl
    | cons c cs =>
      rw [hchars, List.mem_cons, not_or] at h
      simpa using Ne.symm h.1
  · rw [hsegments]
    intro segment hsegment
    cases hsegment
  · rw [lastSegment, hsegments]
    rfl

end Output

namespace Session

/-- The classes that have a page after a run have different names. -/
theorem nodup_shownNames_run (version : String) (v : UInt32) (inputs : List Input)
    (showPrivate : Bool) :
    (Output.shownNames ((start version v).run inputs).model showPrivate).Nodup := by
  generalize hm : ((start version v).run inputs).model = m
  have hkeys : m.classes.values.map (·.name) = m.classes.keys := by
    rw [Dict.values, Dict.keys, List.map_map]
    refine List.map_congr_left fun e he => ?_
    have hc := Dict.mem_entries_iff.1 (show (e.1, e.2) ∈ m.classes.entries from he)
    rw [← hm] at hc
    exact (ownNames_of_get?_run version v inputs hc).name
  have hnodup : m.classes.keys.Nodup := by
    rw [Dict.keys, List.nodup_iff_pairwise_ne, List.pairwise_map]
    exact m.classes.sorted.imp fun h => String.ne_of_lt h
  refine List.Nodup.sublist ?_ hnodup
  rw [← hkeys]
  exact List.filter_sublist.map _

/-- **When the pages of classes lie side by side**, after every run: each name must be in place, and
the last segments of the names must differ. So they do if no name has a slash. -/
theorem sideBySide_classPages_iff (version : String) (v : UInt32) (inputs : List Input)
    (showPrivate : Bool) (modelFile : String) :
    let m := ((start version v).run inputs).model
    let pages := (Output.pages { modelFile, showPrivate } m .classPages).1
    let names := Output.shownNames m showPrivate
    (Output.SideBySide pages ↔
        (∀ name ∈ names, Output.InPlace name) ∧ (names.map Path.lastSegment).Nodup) ∧
      ((∀ name ∈ names, '/' ∉ name.toList) → Output.SideBySide pages) := by
  intro m pages names
  have hexact : Output.SideBySide pages ↔
      (∀ name ∈ names, Output.InPlace name) ∧ (names.map Path.lastSegment).Nodup :=
    Output.sideBySide_iff m showPrivate
  refine ⟨hexact, fun hslash => hexact.2 ⟨fun name hname => ?_, ?_⟩⟩
  · exact (Output.inPlace_of_not_mem (hslash name hname)).1
  · have hsame : names.map Path.lastSegment = names.map fun name => name :=
      List.map_congr_left fun name hname => (Output.inPlace_of_not_mem (hslash name hname)).2
    rw [hsame, List.map_id']
    exact nodup_shownNames_run version v inputs showPrivate

/-- The page of a class with an absolute name is outside, and a dot in front of a name leads to the
page of another class. -/
example :
    let m := ((start "1.0.0" 3).run
      [.comment ["@class /A"] none, .comment ["@class B"] none, .comment ["@class ./B"] none]).model
    (Output.pages {} m .classPages).1.map (fun p => Path.components p.path) =
      [[.name "classes", .name "B.json"], [.root, .name "A.json"],
        [.name "classes", .name "B.json"]] := by
  decide +kernel

end Session

end ApiDocs
