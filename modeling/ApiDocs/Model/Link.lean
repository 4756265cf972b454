import ApiDocs.Model.Basic

/-!
# Linking classes and files to modules

A class or a file belongs to a module on both sides: it names the module, and the module lists it.
What is found before any module is known waits in `Pending` order and is linked when a module
comes.
-/

namespace ApiDocs

/-- A class or a file that waits for a module. -/
inductive Pending where
  | cls (name : String)
  | file (name : String)
  deriving DecidableEq, Repr

/-- Adds an item to those waiting, unless it waits already. -/
def Pending.defer (items : List Pending) (item : Pending) : List Pending :=
  if item ∈ items then items else items ++ [item]

theorem Pending.mem_defer {items : List Pending} {item x : Pending} :
    x ∈ Pending.defer items item ↔ x ∈ items ∨ x = item := by
  rw [Pending.defer]
  split
  · rename_i h
    refine ⟨.inl, ?_⟩
    rintro (hx | rfl)
    · exact hx
    · exact h
  · simp

theorem Pending.nodup_defer {items : List Pending} (h : items.Nodup) (item : Pending) :
    (Pending.defer items item).Nodup := by
  rw [Pending.defer]
  split
  · exact h
  · rename_i hi
    refine List.nodup_append.2 ⟨h, by simp, fun a ha b hb => ?_⟩
    rw [List.mem_singleton.1 hb]
    rintro rfl
    exact hi ha

namespace Model

/-- Puts a class into a module. -/
def linkClass (m : Model) (cls mod : String) : Model :=
  (m.modifyClass cls fun c => { c with inModule := some mod }).modifyModule mod fun d =>
    { d with classList := pushNew d.classList cls }

/-- Puts a file into a module. -/
def linkFile (m : Model) (file mod : String) : Model :=
  (m.modifyFile file fun f => { f with inModule := some mod }).modifyModule mod fun d =>
    { d with fileList := pushNew d.fileList file }

/-- Puts what has been waiting into a module. -/
def link (m : Model) (mod : String) : Pending → Model
  | .cls name => m.linkClass name mod
  | .file name => m.linkFile name mod

/-- Puts everything that has been waiting into a module, in order. -/
def linkAll (m : Model) (mod : String) (items : List Pending) : Model :=
  items.foldl (fun m item => m.link mod item) m

end Model

end ApiDocs
