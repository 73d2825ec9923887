import Mathlib

/-!
# Files as a map from paths to contents

Every operation that can fail takes the environment's decision as a flag
and answers with the new store, or with nothing when the error code is
set. A failed operation leaves the store as it was. Renaming replaces an
existing destination; copying either refuses or replaces one. Nothing
here depends on a particular program.
-/

namespace Gcad.FileStore

variable {Path Content : Type*} [DecidableEq Path]

/-- The regular files of a file system. -/
abbrev Store (Path Content : Type*) := Path → Option Content

/-- Create a file or replace its content. -/
def write (store : Store Path Content) (path : Path) (content : Content) : Store Path Content :=
  Function.update store path (some content)

/-- Delete a file if it is there. -/
def erase (store : Store Path Content) (path : Path) : Store Path Content :=
  Function.update store path none

/-- A rename: the source must exist and the destination is replaced. -/
def rename (fails : Bool) (source target : Path) (store : Store Path Content) :
    Option (Store Path Content) :=
  if fails then none
  else (store source).map fun content => write (erase store source) target content

/-- A copy that refuses an existing destination. -/
def copyNew (fails : Bool) (source target : Path) (store : Store Path Content) :
    Option (Store Path Content) :=
  if fails || (store target).isSome then none
  else (store source).map fun content => write store target content

/-- A copy that replaces an existing destination. -/
def copyOver (fails : Bool) (source target : Path) (store : Store Path Content) :
    Option (Store Path Content) :=
  if fails then none
  else (store source).map fun content => write store target content

/-- A removal; a missing file is no error. -/
def remove (fails : Bool) (path : Path) (store : Store Path Content) :
    Option (Store Path Content) :=
  if fails then none else some (erase store path)

section Lookup

variable (store : Store Path Content) {path other : Path} (content : Content)

/-- A written file has the written content. -/
@[simp]
theorem write_self : write store path content path=some content :=
  Function.update_self _ _ _

/-- Writing leaves every other file alone. -/
theorem write_other (h : other≠path) : write store path content other=store other :=
  Function.update_of_ne h _ _

/-- A deleted file is gone. -/
@[simp]
theorem erase_self : erase store path path=none :=
  Function.update_self _ _ _

/-- Deleting leaves every other file alone. -/
theorem erase_other (h : other≠path) : erase store path other=store other :=
  Function.update_of_ne h _ _

end Lookup

section Outcome

variable {fails : Bool} {source target path : Path} {store result : Store Path Content}

/-- What a successful rename did. -/
theorem rename_eq_some (h : rename fails source target store=some result) :
    ∃ content, store source=some content ∧ result=write (erase store source) target content := by
  unfold rename at h
  split at h
  · cases h
  · obtain ⟨content,hc,hr⟩ := Option.map_eq_some_iff.mp h
    exact ⟨content,hc,hr.symm⟩

/-- What a successful copy to a free destination did. -/
theorem copyNew_eq_some (h : copyNew fails source target store=some result) :
    ∃ content, store source=some content ∧ store target=none ∧
      result=write store target content := by
  unfold copyNew at h
  split at h
  · cases h
  · next hf =>
    obtain ⟨content,hc,hr⟩ := Option.map_eq_some_iff.mp h
    have hfree : store target=none := by
      cases ht : store target with
      | none => rfl
      | some old => exact absurd (by rw [ht]; simp) hf
    exact ⟨content,hc,hfree,hr.symm⟩

/-- What a successful replacing copy did. -/
theorem copyOver_eq_some (h : copyOver fails source target store=some result) :
    ∃ content, store source=some content ∧ result=write store target content := by
  unfold copyOver at h
  split at h
  · cases h
  · obtain ⟨content,hc,hr⟩ := Option.map_eq_some_iff.mp h
    exact ⟨content,hc,hr.symm⟩

/-- What a successful removal did. -/
theorem remove_eq_some (h : remove fails path store=some result) : result=erase store path := by
  unfold remove at h
  split at h
  · cases h
  · exact (Option.some.inj h).symm

/-- Removing a copy just made to a free destination undoes it. -/
theorem erase_write (content : Content) (h : store path=none) :
    erase (write store path content) path=store := by
  unfold erase write
  rw [Function.update_idem,←h,Function.update_eq_self]

/-- Copying to a free destination and then removing the source is a move. -/
theorem erase_write_move (content : Content) (h : source≠target) :
    erase (write store target content) source=write (erase store source) target content :=
  Function.update_comm h.symm _ _ _

/-- Where a moved content can be found: at the destination, and nowhere
else has anything changed but at the source. -/
theorem move_other {other : Path} (content : Content) (hs : other≠source) (ht : other≠target) :
    write (erase store source) target content other=store other := by
  rw [write_other _ _ ht,erase_other _ hs]

end Outcome

end Gcad.FileStore
