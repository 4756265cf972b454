import ApiDocs.Model.Decode
import ApiDocs.Page.Basic
import ApiDocs.Proofs.Json.Yields

/-!
# The model survives being written and read

For every record of the model, the members that its writer puts down fill the record field by
field (`MemberDoc.fills`, `ClassDoc.fills`, `ModuleDoc.fills`), so that its reader gives it back.
The attributes of members, classes and modules share an object with the fields. They are told apart
by their names alone, and a model is `Separate` if none of its attributes has the name of a field
of the record that it belongs to.

**Reading the written form of a separate model gives the model** (`Model.ofDocument_document`). A
reader takes a member with the name of a field for that field, so **every model that was read is
separate** (`Model.separate_of_ofDocument`). `Model.read_page` puts both together for the page that
a run writes.
-/

namespace ApiDocs

open Json

/-! ### Records without attributes -/

private theorem decodes_access (a : Access) : Decodes Access.read (str a.word) a :=
  decodes_word (by cases a <;> decide)

private theorem gives_access (a : Access) : Gives "access" Access.read a.toMember a .pub := by
  cases a with
  | pub => exact .inl ⟨rfl, rfl⟩
  | priv => exact .inr ⟨_, rfl, decodes_access .priv⟩
  | prot => exact .inr ⟨_, rfl, decodes_access .prot⟩

private theorem Param.decodes (p : Param) : Decodes Param.read p.toJson p := by
  refine Fills.decodes_closed (by decide) ?_
  simp only [List.append_assoc]
  exact .field (gives_str _ _) rfl <|
    .field (gives_str _ _) rfl <|
    .last (gives_str _ _) rfl rfl

private theorem Return.decodes (r : Return) : Decodes Return.read r.toJson r := by
  refine Fills.decodes_closed (by decide) ?_
  exact .field (gives_str _ _) rfl <|
    .last (gives_str _ _) rfl rfl

private theorem Constructor.decodes (c : Constructor) : Decodes Constructor.read c.toJson c := by
  refine Fills.decodes_closed (by decide) ?_
  simp only [List.append_assoc]
  exact .field (gives_str _ _) rfl <|
    .field (gives_list fun p _ => p.decodes) rfl <|
    .last (gives_member? Return.decodes) rfl rfl

private theorem Submodule.decodes (s : Submodule) : Decodes Submodule.read s.toJson s := by
  refine Fills.decodes_closed (by decide) ?_
  exact .field (gives_str _ _) rfl <| .last (gives_text? _) rfl rfl

/-- A list of texts reads back. -/
theorem decodes_strs (items : List String) : Decodes (readList readText) (strs items) items :=
  decodes_list fun s _ => decodes_str s

/-- A file has no field but its own. -/
private theorem FileDoc.decodes (f : FileDoc) : Decodes FileDoc.read f.toJson f := by
  refine Fills.decodes_closed (by decide) ?_
  simp only [List.append_assoc]
  exact .field (gives_str _ _) rfl <|
    .field (gives_text? _) rfl <|
    .last (gives_member (decodes_strs _) _) rfl rfl

/-! ### Records with attributes -/

/-- No attribute of the member has the name of a field of members. -/
def MemberDoc.Separate (m : MemberDoc) : Prop := Clear MemberDoc.fields m.attributes

/-- The fields of a member are written one by one and read back one by one. -/
private theorem MemberDoc.fills (m : MemberDoc) :
    Fills MemberDoc.fields m.fieldMembers {} { m with attributes := ∅ } := by
  simp only [MemberDoc.fieldMembers, List.append_assoc]
  exact .field (gives_str _ _) rfl <|
    .field (gives_str _ _) rfl <|
    .field (gives_access _) rfl <|
    .field (gives_flag _) rfl <|
    .field (gives_flag _) rfl <|
    .field (gives_text? _) rfl <|
    .field (gives_text? _) rfl <|
    .field (gives_text? _) rfl <|
    .field (gives_list fun p _ => p.decodes) rfl <|
    .field (gives_member? Return.decodes) rfl <|
    .field (gives_text? _) rfl <|
    .field (gives_flag _) rfl <|
    .last (gives_flag _) rfl rfl

/-- A separate member reads back as itself. -/
private theorem MemberDoc.decodes {m : MemberDoc} (h : m.Separate) :
    Decodes MemberDoc.read m.toJson m :=
  m.fills.decodes_open (by decide) h 122 fun m v => { m with attributes := v }

/-- No attribute of the class or of one of its members has the name of a field. -/
structure ClassDoc.Separate (c : ClassDoc) : Prop where
  attributes : Clear ClassDoc.fields c.attributes
  members : ∀ kind, ∀ e ∈ (c.members kind).entries, e.2.Separate

/-- The fields of a class are written and read back one by one, its members among them. -/
private theorem ClassDoc.fills {c : ClassDoc} (h : c.Separate) :
    Fills ClassDoc.fields c.fieldMembers {} { c with attributes := ∅ } := by
  have hmembers (kind : MemberKind) : Decodes (readDict MemberDoc.read)
      ((c.members kind).toJson MemberDoc.toJson) (c.members kind) :=
    decodes_dict fun e he => MemberDoc.decodes (h.members kind e he)
  simp only [ClassDoc.fieldMembers, List.append_assoc]
  exact .field (gives_str _ _) rfl <|
    .field (gives_str _ _) rfl <|
    .field (gives_str _ _) rfl <|
    .field (gives_text? _) rfl <|
    .field (gives_text? _) rfl <|
    .field (gives_text? _) rfl <|
    .field (gives_list fun s _ => decodes_str s) rfl <|
    .field (gives_list fun s _ => decodes_str s) rfl <|
    .field (gives_str _ _) rfl <|
    .field (gives_access _) rfl <|
    .field (gives_text? _) rfl <|
    .field (gives_member (hmembers .method) _) rfl <|
    .field (gives_member (hmembers .event) _) rfl <|
    .field (gives_member (hmembers .property) _) rfl <|
    .field (gives_member (hmembers .config) _) rfl <|
    .last (gives_list fun k _ => k.decodes) rfl rfl

/-- A separate class reads back as itself. -/
private theorem ClassDoc.decodes {c : ClassDoc} (h : c.Separate) :
    Decodes ClassDoc.read c.toJson c :=
  (fills h).decodes_open (by decide) h.attributes 124 fun c v => { c with attributes := v }

/-- No attribute of the module has the name of a field of modules. -/
def ModuleDoc.Separate (m : ModuleDoc) : Prop := Clear ModuleDoc.fields m.attributes

/-- The fields of a module are written and read back one by one. -/
private theorem ModuleDoc.fills (m : ModuleDoc) :
    Fills ModuleDoc.fields m.fieldMembers {} { m with attributes := ∅ } := by
  simp only [ModuleDoc.fieldMembers, List.append_assoc]
  exact .field (gives_str _ _) rfl <|
    .field (gives_text? _) rfl <|
    .field (gives_str _ _) rfl <|
    .field (gives_member (decodes_strs _) _) rfl <|
    .field (gives_member (decodes_strs _) _) rfl <|
    .field (gives_member (decodes_strs _) _) rfl <|
    .last (gives_member (decodes_dict fun e _ => e.2.decodes) _) rfl rfl

/-- A separate module reads back as itself. -/
private theorem ModuleDoc.decodes {m : ModuleDoc} (h : m.Separate) :
    Decodes ModuleDoc.read m.toJson m :=
  m.fills.decodes_open (by decide) h 124 fun m v => { m with attributes := v }

/-- No attribute in the model has the name of a field of its record. -/
structure Model.Separate (m : Model) : Prop where
  classes : ∀ e ∈ m.classes.entries, e.2.Separate
  modules : ∀ e ∈ m.modules.entries, e.2.Separate

/-- **A separate model is read back.** -/
theorem Model.decodes {m : Model} (h : m.Separate) : Decodes Model.read m.toJson m := by
  refine Fills.decodes_closed (by decide) ?_
  simp only [List.append_assoc]
  exact .field (gives_str _ _) rfl <|
    .field (gives_member (decodes_num _) _) rfl <|
    .field (gives_member (decodes_dict fun e he => ClassDoc.decodes (h.classes e he)) _) rfl <|
    .field (gives_member (decodes_dict fun e he => ModuleDoc.decodes (h.modules e he)) _) rfl <|
    .field (gives_member (decodes_dict fun e _ => e.2.decodes) _) rfl <|
    .last (gives_member (decodes_strs _) _) rfl rfl

/-- **Reading the document of a separate model gives the model.** -/
theorem Model.ofDocument_document {m : Model} (h : m.Separate) :
    Model.ofDocument m.document = .ok m := by
  have hchars : m.document.toList = write 0 m.toJson ++ ['\n'] := by
    simp [Model.document, Json.document]
  have hend : EndsValue ['\n'] := endsValue_newline 0 []
  have hread : Model.read (write 0 m.toJson ++ ['\n']) = .ok (m, ['\n']) :=
    Model.decodes h 0 _ _ (skipSpace_write 0 m.toJson _) hend
  rw [Model.ofDocument, readDocument, hchars, hread]
  rfl

/-! ### Models that were read -/

private theorem MemberDoc.yields_read : Yields MemberDoc.read MemberDoc.Separate :=
  yields_open (I := fun _ => True) (fun f _ a _ => yields_true (f.read a)) trivial
    fun _ _ _ hclear => hclear

/-- A statement about the members of every kind is one about four fields. -/
private theorem ClassDoc.forall_members {P : Dict MemberDoc → Prop} {c : ClassDoc} :
    (∀ kind, P (c.members kind)) ↔
      P c.methods ∧ P c.events ∧ P c.properties ∧ P c.configs := by
  constructor
  · intro h
    exact ⟨h .method, h .event, h .property, h .config⟩
  · rintro ⟨hmethods, hevents, hproperties, hconfigs⟩ kind
    cases kind with
    | method => exact hmethods
    | event => exact hevents
    | property => exact hproperties
    | config => exact hconfigs

/-- A class that was read is separate. -/
private theorem ClassDoc.yields_read : Yields ClassDoc.read ClassDoc.Separate := by
  obtain ⟨P, hP⟩ : ∃ P : Dict MemberDoc → Prop, P = fun d => ∀ e ∈ d.entries, e.2.Separate :=
    ⟨_, rfl⟩
  have hdict : Yields (readDict MemberDoc.read) P := hP ▸ yields_dict MemberDoc.yields_read
  have hempty : P ∅ := by
    rw [hP]
    intro e he
    cases he
  refine yields_open (I := fun c => P c.methods ∧ P c.events ∧ P c.properties ∧ P c.configs)
    ?_ ⟨hempty, hempty, hempty, hempty⟩ fun c attributes hc hclear => ⟨hclear, ?_⟩
  · simp only [ClassDoc.fields, List.forall_mem_cons]
    refine ⟨keeps_other fun _ _ h => h, keeps_other fun _ _ h => h, keeps_other fun _ _ h => h,
      keeps_other fun _ _ h => h, keeps_other fun _ _ h => h, keeps_other fun _ _ h => h,
      keeps_other fun _ _ h => h, keeps_other fun _ _ h => h, keeps_other fun _ _ h => h,
      keeps_other fun _ _ h => h, keeps_other fun _ _ h => h, keeps_field hdict ?_,
      keeps_field hdict ?_, keeps_field hdict ?_, keeps_field hdict ?_,
      keeps_other fun _ _ h => h, List.forall_mem_nil _⟩
    · exact fun c methods h hmethods => ⟨hmethods, h.2.1, h.2.2.1, h.2.2.2⟩
    · exact fun c events h hevents => ⟨h.1, hevents, h.2.2.1, h.2.2.2⟩
    · exact fun c properties h hproperties => ⟨h.1, h.2.1, hproperties, h.2.2.2⟩
    · exact fun c configs h hconfigs => ⟨h.1, h.2.1, h.2.2.1, hconfigs⟩
  · have hall : ∀ kind, P (({ c with attributes := attributes } : ClassDoc).members kind) :=
      ClassDoc.forall_members.2 hc
    rw [hP] at hall
    exact hall

/-- A module that was read is separate. -/
private theorem ModuleDoc.yields_read : Yields ModuleDoc.read ModuleDoc.Separate :=
  yields_open (I := fun _ => True) (fun f _ a _ => yields_true (f.read a)) trivial
    fun _ _ _ hclear => hclear

/-- A model that was read is separate. -/
private theorem Model.yields_read : Yields Model.read Model.Separate := by
  refine yields_closed ?_ ⟨fun e he => absurd he List.not_mem_nil,
    fun e he => absurd he List.not_mem_nil⟩
  simp only [Model.fields, List.forall_mem_cons]
  refine ⟨keeps_other fun _ _ h => ⟨h.classes, h.modules⟩,
    keeps_other fun _ _ h => ⟨h.classes, h.modules⟩, ?_, ?_,
    keeps_other fun _ _ h => ⟨h.classes, h.modules⟩,
    keeps_other fun _ _ h => ⟨h.classes, h.modules⟩, List.forall_mem_nil _⟩
  · exact keeps_field (yields_dict ClassDoc.yields_read) fun _ _ h hd => ⟨hd, h.modules⟩
  · exact keeps_field (yields_dict ModuleDoc.yields_read) fun _ _ h hd => ⟨h.classes, hd⟩

/-- What is read from a document has no attribute with the name of a field. -/
theorem Model.separate_of_ofDocument {document : String} {m : Model}
    (h : Model.ofDocument document = .ok m) : m.Separate := by
  rw [Model.ofDocument, readDocument] at h
  split at h
  · cases h
  · rename_i a rest hread
    split at h
    · cases h
      exact Model.yields_read _ _ _ hread
    · cases h

/-- **The page with the model reads back as the model**, if no attribute has the name of a field;
this holds of every model that was itself read from a document. -/
theorem Model.read_page (options : PageOptions) (m : Model)
    (h : m.Separate ∨ ∃ document, Model.ofDocument document = .ok m) :
    (Output.model.pages options m).1.map (fun page => Model.ofDocument page.content) = [.ok m] := by
  have hseparate : m.Separate := h.elim id fun ⟨_, hread⟩ => Model.separate_of_ofDocument hread
  exact congrArg (fun r => [r]) (Model.ofDocument_document hseparate)

/-- An attribute of a class may have the name of a field of members. -/
theorem Model.read_page_see :
    (Output.model.pages {} {
        version := "\"é\"\n\x01"
        classes := .ofList [("A", { attributes := .ofList [("see", "B")] })] }).1.map
      (fun page => Model.ofDocument page.content) = [.ok {
        version := "\"é\"\n\x01"
        classes := .ofList [("A", { attributes := .ofList [("see", "B")] })] }] := by
  refine Model.read_page {} _ (.inl ⟨fun e he => ?_, fun e he => absurd he List.not_mem_nil⟩)
  obtain rfl := List.mem_singleton.1 he
  refine ⟨?_, fun kind e he => ?_⟩
  · intro key hkey
    obtain rfl := List.mem_singleton.1 hkey
    decide
  · cases kind <;> cases he

end ApiDocs
