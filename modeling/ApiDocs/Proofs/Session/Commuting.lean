import ApiDocs.Proofs.Session.MemberComment

/-!
# The order of comments about members

Two comments about different members of a class may come in either order: both are read, and the
model is the same (`readComment_comm`). Only two configs up to major version 2 may depend on their
order, since there the names of two derived events can coincide.

The first comment may make the global class the current one, and by this the second comment goes to
the class to which it would have gone anyway. So both go to one class, and what remains to be seen
is that their effects on this class commute (`Described.effect_comm`).
-/

namespace ApiDocs.Session

variable {s : Session} {tokens tokens' : List String} {following following' : Option String}
  {kind kind' : MemberKind} {name name' : String}

/-- After a comment about a member the next one goes to the same class. -/
private theorem AboutMember.home?_readComment (h : AboutMember tokens following kind name)
    {cls : String}
    (hhome : s.home? = some cls) (hok : (s.readComment tokens following).2 = .ok ()) :
    (s.readComment tokens following).1.home? = some cls := by
  have hsignature := (h.readComment_eq_ok_iff.1 hok).2
  obtain ⟨-, hmodel, hin⟩ := h.readComment_of_home hhome hsignature
  have hknown : s.model.classes.contains cls = true := (Option.filter_eq_some_iff.1 hhome).2
  have hstill : (s.readComment tokens following).1.model.classes.contains cls = true := by
    rw [hmodel, Model.modifyClass, Dict.contains_modify]
    exact hknown
  rw [home?, hin]
  exact Option.filter_eq_some_iff.2 ⟨rfl, hstill⟩

/-- Two comments about members, both of which can be read, are read one after the other. -/
private theorem AboutMember.readComment_readComment (h : AboutMember tokens following kind name)
    (h' : AboutMember tokens' following' kind' name')
    (hok : (s.readComment tokens following).2 = .ok ())
    (hok' : (s.readComment tokens' following').2 = .ok ()) {cls : String}
    (hhome : s.home? = some cls) :
    ((s.readComment tokens following).1.readComment tokens' following').2 = .ok () ∧
      ((s.readComment tokens following).1.readComment tokens' following').1.model =
        s.model.modifyClass cls fun c =>
          (c.mapMembers ((described (subjectTags tokens following) kind name).effect
            s.model.majorVersion)).mapMembers
              ((described (subjectTags tokens' following') kind' name').effect
                s.model.majorVersion) := by
  have hhome₁ := h.home?_readComment hhome hok
  have hsignature := (h.readComment_eq_ok_iff.1 hok).2
  have hsignature' := (h'.readComment_eq_ok_iff.1 hok').2
  obtain ⟨-, hmodel, -⟩ := h.readComment_of_home hhome hsignature
  obtain ⟨hok₂, hmodel₂, -⟩ := h'.readComment_of_home hhome₁ hsignature'
  have hversion : (s.readComment tokens following).1.model.majorVersion = s.model.majorVersion := by
    rw [hmodel]
    rfl
  refine ⟨hok₂, ?_⟩
  rw [hmodel₂, hversion, hmodel, Model.modifyClass_modifyClass]
  rfl

/-- **Comments about different members commute.** If both can be read in a session, then they can
be read in either order, and give the same model; two configs, of which either may be called an
attribute, need major version 3 or later. -/
theorem readComment_comm (h : AboutMember tokens following kind name)
    (h' : AboutMember tokens' following' kind' name') (hne : (kind, name) ≠ (kind', name'))
    (hconfig : ¬(kind = .config ∧ kind' = .config) ∨ 2 < s.model.majorVersion)
    (hok : (s.readComment tokens following).2 = .ok ())
    (hok' : (s.readComment tokens' following').2 = .ok ()) :
    ((s.readComment tokens following).1.readComment tokens' following').2 = .ok () ∧
      ((s.readComment tokens' following').1.readComment tokens following).2 = .ok () ∧
      ((s.readComment tokens following).1.readComment tokens' following').1.model =
        ((s.readComment tokens' following').1.readComment tokens following).1.model := by
  obtain ⟨⟨cls, hhome⟩, -⟩ := h.readComment_eq_ok_iff.1 hok
  obtain ⟨hboth, hmodel⟩ := h.readComment_readComment h' hok hok' hhome
  obtain ⟨hboth', hmodel'⟩ := h'.readComment_readComment h hok' hok hhome
  refine ⟨hboth, hboth', ?_⟩
  rw [hmodel, hmodel']
  refine Model.modifyClass_congr fun c _ => ?_
  rw [ClassDoc.mapMembers_mapMembers, ClassDoc.mapMembers_mapMembers]
  congr 1
  funext k ms
  have hname (tags : TagMap) (kind : MemberKind) (name : String) :
      (described tags kind name).doc.name = name := by
    cases kind <;> rfl
  refine Described.effect_comm _ _ _ ?_ hconfig k ms
  rw [hname, hname]
  by_cases hkind : kind = kind'
  · exact .inr fun hsame => hne (by rw [hkind, hsame])
  · exact .inl hkind

/-- An event and a config that derives an event of its name, both for the global class: in either
order the written event is left, with its parameter. -/
theorem readComment_comm_event_config :
    let s := (start "" 3).run [.comment ["@class", "A", "@global"] none, .root]
    let event := ["@event", "sizeChangeEvent", "@param", "e \x7bEvent\x7d what changed"]
    let config := ["Text.", "@config", "size", "@type", "Number"]
    let left (m : Model) := (m.classes.get? "A").bind (·.events.get? "sizeChangeEvent")
    let written : MemberDoc :=
      { name := "sizeChangeEvent"
        params := [{ name := "e", typeName := "Event", description := "what changed" }] }
    AboutMember event none .event "sizeChangeEvent" ∧ AboutMember config none .config "size" ∧
      (s.readComment event none).2 = .ok () ∧ (s.readComment config none).2 = .ok () ∧
      ((s.readComment event none).1.readComment config none).2 = .ok () ∧
      ((s.readComment config none).1.readComment event none).2 = .ok () ∧
      ((s.readComment event none).1.readComment config none).1.model =
        ((s.readComment config none).1.readComment event none).1.model ∧
      left ((s.readComment event none).1.readComment config none).1.model = some written ∧
      left ((s.readComment config none).1.readComment event none).1.model = some written := by
  intro s event config left written
  have hevent : AboutMember event none .event "sizeChangeEvent" :=
    ⟨by decide +kernel, by decide +kernel, by decide +kernel⟩
  have hconfig : AboutMember config none .config "size" :=
    ⟨by decide +kernel, by decide +kernel, by decide +kernel⟩
  have hok : (s.readComment event none).2 = .ok () := by decide +kernel
  have hok' : (s.readComment config none).2 = .ok () := by decide +kernel
  have hleft : left ((s.readComment event none).1.readComment config none).1.model =
      some written := by decide +kernel
  obtain ⟨hboth, hboth', hmodel⟩ :=
    readComment_comm hevent hconfig (by decide) (.inl (by decide)) hok hok'
  exact ⟨hevent, hconfig, hok, hok', hboth, hboth', hmodel, hleft,
    (congrArg left hmodel).symm.trans hleft⟩

end ApiDocs.Session
