import Gcad.ShaRefinement

/-!
# Digests of files

The two ways in which the engines hash a content with `SHA256`: from memory
with `hash_bytes` and from disk in buffers of 8192 bytes with `hash_file`.
Both return the same text.
-/

namespace Gcad.FileDigest

open Common ByteView QuarantineVault ShaStream ShaRefinement

/-- `SHA256::hash_bytes`. -/
def hashBytes (data : Bytes) : Str := hex (SHA256.finalize (SHA256.update SHA256.reset data))

/-- `SHA256::hash_file` on a file that could be opened. -/
def hashFile (content : Bytes) : Str :=
  hex (SHA256.finalize (hashBlocks SHA256.context content.length SHA256.reset content))

/-- Reading in buffers does not change the digest. -/
theorem hashFile_eq_hashBytes (content : Bytes) : hashFile content=hashBytes content := by
  obtain ⟨chunks,hflat,hrun⟩ :=
    hashBlocks_chunks SHA256.context content.length SHA256.reset content (le_refl _)
  have hupdate : chunks.foldl SHA256.context.update SHA256.reset=
      SHA256.update SHA256.reset content := by
    rw [←hflat,ShaClass.update,List.foldl_flatten]
    rfl
  rw [hashFile,hashBytes,hrun,hupdate]

/-- The text of a digest is never empty. -/
theorem hashBytes_ne_nil (data : Bytes) : hashBytes data≠[] := by
  intro h
  rw [hashBytes,hex,List.flatMap_eq_nil_iff] at h
  have hdigest : ∀ state : Sha2.Words 32,
      (state.toList.take 8).flatMap SHA256.storeWord≠[] := by
    intro state hnil
    have hword := List.flatMap_eq_nil_iff.mp hnil state.a List.mem_cons_self
    exact absurd hword nofun
  obtain ⟨byte,hbyte⟩ := List.exists_mem_of_ne_nil _ (hdigest _)
  exact absurd (h byte hbyte) nofun

/-- Two contents of one byte with different digests. -/
theorem hashFile_one_ne_two : hashFile [1]≠hashFile [2] := by decide +kernel

end Gcad.FileDigest
