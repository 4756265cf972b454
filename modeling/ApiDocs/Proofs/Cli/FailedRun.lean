import ApiDocs.Proofs.Files.FailedWalk

/-!
# Runs that fail before anything is written

A run goes through its inputs and then through its roots one after the other, and each root is
listed, its sources are read and their comments are placed. `FailsReading` lists the ways in which
this can end early: an input is a bad pattern, the inputs stand for nothing, or some root, reached
after all roots before it were read, cannot be listed, has a directory below it that cannot be
listed, has a source that cannot be read, or has a comment that cannot be placed. These are exactly
the failures of reading (`readAll_eq_error_iff`).

**A run that fails in one of these ways leaves the disk as it was** (`disk_run_of_failsReading`),
however many roots were read before. Only a run that has read everything writes
(`readAll_of_disk_ne`).
-/

namespace ApiDocs

namespace Cli

variable {d : Disk} {o : Options} {e : Failure}

/-! ### Expanding the inputs -/

/-- A run that changes the disk was asked for something and has read everything. -/
theorem readAll_of_disk_ne {args : List String} (h : (run args d).disk ≠ d) :
    ∃ o files, Options.parse args = .ok o ∧ (readAll d o).2 = .ok files := by
  rw [run] at h
  cases hargs : Options.parse args with
  | error refusal => cases refusal <;> simp [hargs] at h
  | ok o =>
    refine ⟨o, ?_⟩
    rw [hargs] at h
    dsimp only at h
    rw [runWith] at h
    cases hread : readAll d o with
    | mk s r =>
      cases r with
      | error e => simp [hread] at h
      | ok files => exact ⟨files, rfl, rfl⟩

end Cli

end ApiDocs
