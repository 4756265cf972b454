import Mathlib.Data.List.Basic
import Mathlib.Tactic.SplitIfs
import ApiDocs.Page.Highlight
import ApiDocs.Proofs.Text.Decimal
import ApiDocs.Proofs.Text.Trim

/-!
# What highlighted markup shows

Highlighted markup is read here as markup is: `elements` cuts a text at its tags and gives each
tag with the text behind it, and `unescape` reads the character references of a text back. Neither
knows how the markup was made.

What is written for a text can be read as it was meant if no tag is ended too early and no text
begins a tag (`elements_write`). Escaping sees to the second: the four replacements, one after the
other, come to the same as writing each character by its own reference (`escapeMarkup_eq`), so that
no mark is left in the text of a line and an ampersand is always the start of a reference
(`unescape_escapeMarkup`). **Reading the markup of a source gives the tags of a page with as many
lines, whatever stands on the lines, and the lines themselves** (`markup_faithful`).
-/

namespace ApiDocs.Highlight

open Text

/-! ### References -/

/-- How a character of a source is written in markup. -/
def reference (c : Char) : List Char :=
  if c = '&' then "&amp;".toList
  else if c = '<' then "&lt;".toList
  else if c = '>' then "&gt;".toList
  else if c = '"' then "&quot;".toList
  else [c]

/-- Reads the references of a text back; every other character stands for itself. -/
def unescape : List Char → List Char
  | '&' :: 'a' :: 'm' :: 'p' :: ';' :: rest => '&' :: unescape rest
  | '&' :: 'l' :: 't' :: ';' :: rest => '<' :: unescape rest
  | '&' :: 'g' :: 't' :: ';' :: rest => '>' :: unescape rest
  | '&' :: 'q' :: 'u' :: 'o' :: 't' :: ';' :: rest => '"' :: unescape rest
  | c :: rest => c :: unescape rest
  | [] => []

/-- **The four replacements are one**: each character is replaced by its own reference. -/
theorem escapeMarkup_eq (cs : List Char) : escapeMarkup cs = cs.flatMap reference := by
  simp only [escapeMarkup, replaceChar, List.flatMap_assoc]
  congr 1
  funext c
  -- an ampersand that a replacement brings is not replaced again
  by_cases hamp : c = '&'
  · subst hamp
    rfl
  by_cases hlt : c = '<'
  · subst hlt
    rfl
  by_cases hgt : c = '>'
  · subst hgt
    rfl
  by_cases hquot : c = '"'
  · subst hquot
    rfl
  simp only [reference, if_neg hamp, if_neg hlt, if_neg hgt, if_neg hquot,
    List.flatMap_singleton]

/-- A reference holds no markup. -/
private theorem notMem_reference {mark : Char} (h : mark = '<' ∨ mark = '>' ∨ mark = '"')
    (c : Char) :
    mark ∉ reference c := by
  intro hmem
  rw [reference] at hmem
  split_ifs at hmem with hamp hlt hgt hquot
  case neg =>
    rw [← List.mem_singleton.1 hmem] at hlt hgt hquot
    rcases h with h | h | h
    · exact hlt h
    · exact hgt h
    · exact hquot h
  all_goals rcases h with rfl | rfl | rfl <;> exact absurd hmem (by decide)

/-- Only an ampersand begins a reference. -/
private theorem unescape_cons {c : Char} (h : c ≠ '&') (rest : List Char) :
    unescape (c :: rest) = c :: unescape rest := by
  rw [unescape] <;> simp [h]

/-- A reference stands for its character. -/
private theorem unescape_reference (c : Char) (rest : List Char) :
    unescape (reference c ++ rest) = c :: unescape rest := by
  rw [reference]
  split_ifs with hamp hlt hgt hquot
  · rw [hamp]
    rfl
  · rw [hlt]
    rfl
  · rw [hgt]
    rfl
  · rw [hquot]
    rfl
  · exact unescape_cons hamp rest

/-- **An escaped text reads back.** -/
theorem unescape_escapeMarkup (cs : List Char) : unescape (escapeMarkup cs) = cs := by
  rw [escapeMarkup_eq]
  induction cs with
  | nil => rfl
  | cons c cs ih => rw [List.flatMap_cons, unescape_reference, ih]

/-- No mark is left in an escaped text. -/
private theorem notMem_escapeMarkup {mark : Char} (h : mark = '<' ∨ mark = '>' ∨ mark = '"')
    (cs : List Char) : mark ∉ escapeMarkup cs := by
  rw [escapeMarkup_eq, List.mem_flatMap]
  rintro ⟨c, -, hmem⟩
  exact notMem_reference h c hmem

/-! ### Reading markup -/

/-- A tag and the text between it and the next tag. -/
structure Element where
  /-- What stands between the brackets of the tag. -/
  tag : List Char
  text : List Char
  deriving DecidableEq, Repr

namespace Element

/-- An element as it is written. -/
def write (e : Element) : List Char := '<' :: e.tag ++ '>' :: e.text

/-- An element that can be told from what is around it. -/
structure Closed (e : Element) : Prop where
  tag : '>' ∉ e.tag
  text : '<' ∉ e.text

end Element

/-- The text behind the bracket that closes a tag. -/
def behindTag (cs : List Char) : List Char := (cs.dropWhile (· ≠ '>')).drop 1

/-- The elements of a text, in order. -/
def elements : List Char → List Element
  | [] => []
  | c :: rest =>
    if c = '<' then
      ⟨rest.takeWhile (· ≠ '>'), (behindTag rest).takeWhile (· ≠ '<')⟩ ::
        elements ((behindTag rest).dropWhile (· ≠ '<'))
    else elements rest
termination_by cs => cs.length
decreasing_by
  · have hrest : behindTag rest <:+ rest := (List.drop_suffix 1 _).trans (List.dropWhile_suffix _)
    exact Nat.lt_succ_of_le (((List.dropWhile_suffix _).trans hrest).length_le)
  · exact Nat.lt_succ_self _

/-- **Elements that are written one after the other are read as they are.** -/
theorem elements_write {es : List Element} (h : ∀ e ∈ es, e.Closed) :
    elements (es.flatMap Element.write) = es := by
  have hrun {mark : Char} {cs : List Char} (hcs : mark ∉ cs) :
      ∀ c ∈ cs, decide (c ≠ mark) = true := by
    intro c hc
    rw [decide_eq_true_eq]
    rintro rfl
    exact hcs hc
  induction es with
  | nil => rw [List.flatMap_nil, elements]
  | cons e es ih =>
    obtain ⟨he, hes⟩ := List.forall_mem_cons.1 h
    -- the text of an element ends where the next one begins
    have hnext : ∀ c, (es.flatMap Element.write).head? = some c → decide (c ≠ '<') = false := by
      rcases es with _ | ⟨d, es⟩ <;> simp [Element.write]
    have hclose : ∀ c, ('>' :: (e.text ++ es.flatMap Element.write)).head? = some c →
        decide (c ≠ '>') = false := by simp
    have htext := takeWhile_run (hrun he.text) hnext
    have htag := takeWhile_run (hrun he.tag) hclose
    have hwrite : (e :: es).flatMap Element.write =
        '<' :: (e.tag ++ '>' :: (e.text ++ es.flatMap Element.write)) := by
      simp [Element.write]
    rw [hwrite, elements, if_pos rfl, behindTag, htag.1, htag.2, List.drop_one, List.tail_cons,
      htext.1, htext.2, ih hes]

/-! ### The page of a source -/

/-- The elements of a numbered line. -/
def lineElements (line : List Char × Nat) : List Element :=
  [⟨"span class=\"line\" id=\"l".toList ++ decimal line.2 ++ "\"".toList, line.1⟩,
    ⟨"/span".toList, "\n".toList⟩]

/-- The elements of a page that shows texts, each in a span of its own; the spans are numbered from
one on. -/
def pageElements (texts : List (List Char)) : List Element :=
  [⟨"div class=\"highlight\"".toList, []⟩, ⟨"pre".toList, []⟩] ++
    (texts.zipIdx 1).flatMap lineElements ++
    [⟨"/pre".toList, []⟩, ⟨"/div".toList, "\n".toList⟩]

/-- A line is written as a numbered span. -/
private theorem write_lineElements (line : List Char) (number : Nat) :
    (lineElements (escapeMarkup line, number)).flatMap Element.write = span number line := by
  have hopen : "<span class=\"line\" id=\"l".toList =
      '<' :: "span class=\"line\" id=\"l".toList := by simp
  have hmid : "\">".toList = "\"".toList ++ ['>'] := by simp
  have hclose : "</span>\n".toList = '<' :: ("/span".toList ++ '>' :: "\n".toList) := by simp
  unfold lineElements span
  rw [hopen, hmid, hclose]
  simp only [List.flatMap_cons, List.flatMap_nil, Element.write, List.append_assoc,
    List.cons_append, List.nil_append, List.append_nil]

/-- The spans are written line by line. -/
private theorem spans_eq (number : Nat) (ls : List (List Char)) :
    spans number ls =
      (((ls.map escapeMarkup).zipIdx number).flatMap lineElements).flatMap Element.write := by
  induction ls generalizing number with
  | nil => rfl
  | cons line ls ih =>
    rw [spans, ih, List.map_cons, List.zipIdx_cons, List.flatMap_cons, List.flatMap_append,
      write_lineElements]

/-- Without a null character the page is written element by element. -/
private theorem markup_eq {source : String} (h : '\x00' ∉ source.toList) (path : String) :
    markup path source = .ok (.ofList
      ((pageElements ((lines source.toList).map escapeMarkup)).flatMap Element.write)) := by
  rw [markup, if_neg h, spans_eq, pageElements, List.flatMap_append, List.flatMap_append]
  rfl

/-- No text of the page holds an opening bracket, so all its elements are closed. -/
private theorem closed_pageElements {texts : List (List Char)} (h : ∀ text ∈ texts, '<' ∉ text) :
    ∀ e ∈ pageElements texts, e.Closed := by
  have hpair {d e : Element} (hd : d.Closed) (he : e.Closed) : ∀ f ∈ [d, e], f.Closed :=
    List.forall_mem_cons.2 ⟨hd, List.forall_mem_singleton.2 he⟩
  have hnumber (n : Nat) : '>' ∉ decimal n :=
    fun hmem => absurd (digits_of_mem_decimal hmem).2 (by decide)
  intro e he
  rcases List.mem_append.1 he with he | he
  · rcases List.mem_append.1 he with he | he
    · exact hpair ⟨by decide, by decide⟩ ⟨by decide, by decide⟩ e he
    · obtain ⟨line, hmem, he⟩ := List.mem_flatMap.1 he
      refine hpair ⟨?_, h line.1 (List.fst_mem_of_mem_zipIdx hmem)⟩ ⟨by decide, by decide⟩ e he
      exact List.not_mem_append (List.not_mem_append (by decide) (hnumber line.2)) (by decide)
  · exact hpair ⟨by decide, by decide⟩ ⟨by decide, by decide⟩ e he

/-- Lines are told apart by their elements. -/
private theorem lineElements_injective (number : Nat) {texts texts' : List (List Char)}
    (h : (texts.zipIdx number).flatMap lineElements = (texts'.zipIdx number).flatMap lineElements) :
    texts = texts' := by
  induction texts generalizing number texts' with
  | nil =>
    rcases texts' with _ | ⟨text', texts'⟩
    · rfl
    · simp [lineElements] at h
  | cons text texts ih =>
    rcases texts' with _ | ⟨text', texts'⟩
    · simp [lineElements] at h
    · rw [List.zipIdx_cons, List.zipIdx_cons, List.flatMap_cons, List.flatMap_cons] at h
      obtain ⟨hline, hrest⟩ := List.append_inj h rfl
      have htext : text = text' := congrArg Element.text (List.cons.inj hline).1
      rw [htext, ih (number + 1) hrest]

/-- Pages are told apart by their elements. -/
private theorem pageElements_injective {texts texts' : List (List Char)}
    (h : pageElements texts = pageElements texts') : texts = texts' := by
  have hbody := List.append_cancel_right h
  exact lineElements_injective 1 (List.append_cancel_left hbody)

/-- Reading the markup of a source gives the elements of its page. -/
private theorem elements_markup {path source out : String} (h : '\x00' ∉ source.toList)
    (hout : markup path source = .ok out) :
    elements out.toList = pageElements ((lines source.toList).map escapeMarkup) := by
  rw [markup_eq h] at hout
  rw [← Except.ok.inj hout, String.toList_ofList]
  refine elements_write (closed_pageElements fun text htext => ?_)
  obtain ⟨line, -, rfl⟩ := List.mem_map.1 htext
  exact notMem_escapeMarkup (.inl rfl) line

/-- Only a source of the same lines has the same markup. -/
private theorem markup_eq_iff {path path' source source' out : String} (h : '\x00' ∉ source.toList)
    (hout : markup path source = .ok out) :
    markup path' source' = .ok out ↔
      '\x00' ∉ source'.toList ∧ lines source'.toList = lines source.toList := by
  constructor
  · intro hout'
    have h' : '\x00' ∉ source'.toList := by
      intro hmem
      rw [markup, if_pos hmem] at hout'
      cases hout'
    refine ⟨h', ?_⟩
    have htexts := pageElements_injective
      ((elements_markup h' hout').symm.trans (elements_markup h hout))
    exact List.map_injective_iff.2 (Function.LeftInverse.injective unescape_escapeMarkup) htexts
  · rintro ⟨h', hlines⟩
    rw [markup_eq h', hlines, ← markup_eq h path, hout]

/-- **Highlighted markup is faithful.** The four replacements are a substitution of single
characters. The markup of a source is a page with one numbered span for each line, and reading it
gives that page back: no line adds a tag, ends one, or changes what stands elsewhere. The text of
a span has no marks and reads back as the line, so that the markup tells the lines of the source. -/
theorem markup_faithful {path source : String} (h : '\x00' ∉ source.toList) :
    (∀ cs, escapeMarkup cs = cs.flatMap reference) ∧
      ∃ out texts, markup path source = .ok out ∧
        texts = (lines source.toList).map (fun line => line.flatMap reference) ∧
        out.toList = (pageElements texts).flatMap Element.write ∧
        elements out.toList = pageElements texts ∧
        (∀ text ∈ texts, '<' ∉ text ∧ '>' ∉ text ∧ '"' ∉ text) ∧
        texts.map unescape = lines source.toList ∧
        ∀ path' source', markup path' source' = .ok out ↔
          '\x00' ∉ source'.toList ∧ lines source'.toList = lines source.toList := by
  have htexts : (lines source.toList).map (fun line => line.flatMap reference) =
      (lines source.toList).map escapeMarkup :=
    List.map_congr_left fun line _ => (escapeMarkup_eq line).symm
  have hout := markup_eq h path
  refine ⟨escapeMarkup_eq, _, _, hout, htexts.symm, String.toList_ofList, elements_markup h hout,
    ?_, ?_, fun path' source' => markup_eq_iff h hout⟩
  · intro text htext
    obtain ⟨line, -, rfl⟩ := List.mem_map.1 htext
    exact ⟨notMem_escapeMarkup (.inl rfl) line, notMem_escapeMarkup (.inr (.inl rfl)) line,
      notMem_escapeMarkup (.inr (.inr rfl)) line⟩
  · rw [List.map_map]
    exact (List.map_congr_left fun line _ => unescape_escapeMarkup line).trans (List.map_id _)

/-- A line that is a tag, and one that is a reference, are shown as they are. -/
theorem markup_faithful_tags :
    '\x00' ∉ "</span>\n&lt;".toList ∧
      ∃ out, markup "a.js" "</span>\n&lt;" = .ok out ∧
        elements out.toList = pageElements ["&lt;/span&gt;".toList, "&amp;lt;".toList] := by
  have h : '\x00' ∉ "</span>\n&lt;".toList := by decide
  obtain ⟨-, out, texts, hout, htexts, -, helements, -⟩ := @markup_faithful "a.js" _ h
  have hlines : lines "</span>\n&lt;".toList = ["</span>".toList, "&lt;".toList] := by cbv
  rw [hlines] at htexts
  refine ⟨h, out, hout, helements.trans ?_⟩
  rw [htexts]
  rfl

end ApiDocs.Highlight
