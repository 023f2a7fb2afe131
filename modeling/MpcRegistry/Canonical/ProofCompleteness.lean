import MpcRegistry.Canonical.ProofSoundness

/-!
# The proof of a leaf verifies

`buildMerkleTree` sorts, so the order of the leaf hashes does not matter, and
the proof it gives for any of them leads to its root.
-/
namespace MpcRegistry.Canonical
open Library Library.Outcome

theorem combineDigests_comm (a b : Digest) : combineDigests a b = combineDigests b a := by
  unfold combineDigests
  split
  · next hle =>
    split
    · next hge =>
      have heq := bytesToHex_injective (le_antisymm hle hge)
      rw [heq]
    · rfl
  · next hle =>
    rw [if_pos (le_of_lt (not_le.mp hle))]

/-- Neighbours that differ in a sorted list are all the entries that can agree. -/
theorem nodup_of_findDuplicate {texts : List Text} (hsorted : texts.Pairwise (· ≤ ·))
    (h : findDuplicate texts = none) : texts.Nodup := by
  fun_induction findDuplicate texts with
  | case1 a rest => cases h
  | case2 a b rest hne ih =>
    rw [List.pairwise_cons] at hsorted
    refine List.nodup_cons.mpr ⟨fun hmem => ?_, ih hsorted.2 h⟩
    have hle := hsorted.1 b List.mem_cons_self
    have hge : b ≤ a := by
      rcases List.mem_cons.mp hmem with heq | hmem
      · exact absurd heq.symm hne
      · exact (List.pairwise_cons.mp hsorted.2).1 a hmem
    exact hne (le_antisymm hge hle)
  | case3 texts hshort =>
    cases texts with
    | nil => exact List.nodup_nil
    | cons a rest =>
      cases rest with
      | nil => exact List.nodup_singleton a
      | cons b rest => exact absurd rfl (hshort a b rest)

theorem isBytes32_of_assertLeafHashes {index : Nat} {texts : List Text}
    (h : assertLeafHashes index texts = .ok ()) : ∀ text ∈ texts, isBytes32 text = true := by
  induction texts generalizing index with
  | nil => simp
  | cons text texts ih =>
    obtain ⟨_, hfirst, hrest⟩ := bind_ok.mp h
    intro other hother
    rcases List.mem_cons.mp hother with rfl | hother
    · exact (require_ok.mp hfirst).1
    · exact ih hrest other hother

section Keccak

variable {keccak_256 : Bytes → Digest}

/-- What a tree was built from: some distinct hashes, in any order. -/
theorem buildMerkleTree_ok {hashes : List Text} {tree : MerkleTree}
    (h : buildMerkleTree keccak_256 hashes = .ok tree) :
    hashes ≠ [] ∧ hashes.Nodup ∧ (∀ text ∈ hashes, isBytes32 text = true) ∧
      ∃ layers, layersFrom keccak_256 hashes.length (hashes.insertionSort (· ≤ ·)) = .ok layers ∧
        tree = {
          root := (layers.getLastD []).headD []
          layers
          leafCount := hashes.length } := by
  simp only [buildMerkleTree] at h
  have hne : hashes ≠ [] := by
    rintro rfl
    cases h
  rw [if_neg fun hzero => hne (List.length_eq_zero_iff.mp hzero)] at h
  obtain ⟨_, hvalid, h⟩ := bind_ok.mp h
  have hsorted := List.pairwise_insertionSort (α := Text) (· ≤ ·) hashes
  split at h
  · cases h
  · next hfresh =>
    obtain ⟨layers, hlayers, h⟩ := bind_ok.mp h
    cases h
    have hnodup := nodup_of_findDuplicate hsorted hfresh
    exact ⟨hne, (List.perm_insertionSort _ _).nodup_iff.mp hnodup,
      isBytes32_of_assertLeafHashes hvalid, layers, hlayers, by rw [List.length_insertionSort]⟩

/-- The same hashes in another order give the same tree. -/
theorem buildMerkleTree_perm {hashes others : List Text} (hperm : hashes.Perm others)
    {tree : MerkleTree} (h : buildMerkleTree keccak_256 hashes = .ok tree) :
    buildMerkleTree keccak_256 others = .ok tree := by
  obtain ⟨hne, hnodup, hvalid, layers, hlayers, rfl⟩ := buildMerkleTree_ok h
  have hsorted : others.insertionSort (· ≤ ·) = hashes.insertionSort (· ≤ ·) :=
    (sortKeys_perm hperm).symm
  have hcount : others.length ≠ 0 := by
    rw [← hperm.length_eq]
    exact fun hzero => hne (List.length_eq_zero_iff.mp hzero)
  have hvalid' := assertLeafHashes_ok 0 fun text htext => hvalid text (hperm.mem_iff.mpr htext)
  have hfresh := findDuplicate_eq_none
    ((List.perm_insertionSort (· ≤ ·) hashes).nodup_iff.mpr hnodup)
  rw [hperm.length_eq] at hlayers ⊢
  simp only [buildMerkleTree, if_neg hcount, hvalid', hsorted, hfresh, hlayers, bind, Except.bind,
    List.length_insertionSort, hperm.length_eq]

theorem exists_map_leafText {hashes : List Text}
    (h : ∀ text ∈ hashes, ∃ preimage, text = leafText keccak_256 preimage) :
    ∃ preimages : List Bytes, hashes = preimages.map (leafText keccak_256) := by
  induction hashes with
  | nil => exact ⟨[], rfl⟩
  | cons text hashes ih =>
    obtain ⟨preimage, rfl⟩ := h text List.mem_cons_self
    obtain ⟨preimages, rfl⟩ := ih fun other hother => h other (List.mem_cons_of_mem _ hother)
    exact ⟨preimage :: preimages, rfl⟩

/-- The proof of each leaf hash leads to the root. Only hashes of byte strings
are leaf hashes; any other 32 bytes would do as well. -/
theorem proof_verifies {hashes : List Text} {tree : MerkleTree}
    (h : buildMerkleTree keccak_256 hashes = .ok tree)
    (hfrom : ∀ text ∈ hashes, ∃ preimage, text = leafText keccak_256 preimage) {leafHash : Text}
    (hmem : leafHash ∈ hashes) :
    ∃ proof, getMerkleProof tree leafHash = .ok proof ∧
      verifyMerkleProof keccak_256 leafHash proof tree.root = .ok true := by
  obtain ⟨hne, hnodup, -⟩ := buildMerkleTree_ok h
  obtain ⟨preimages, rfl⟩ := exists_map_leafText hfrom
  obtain ⟨preimage, hpreimage, rfl⟩ := List.mem_map.mp hmem
  obtain ⟨built, all, top, hbuild, hmirrors⟩ :=
    exists_mirrors keccak_256 (fun hnil => hne (by rw [hnil]; rfl)) hnodup
  obtain rfl : tree = built := by
    rw [h, Except.ok.injEq] at hbuild
    exact hbuild
  have hleaf : preimage ∈ top.leaves := by
    rw [hmirrors.leaves_eq, List.mem_insertionSort]
    exact hpreimage
  obtain ⟨digests, hpath⟩ := HashTree.exists_path_of_mem_leaves hleaf
  refine ⟨_, hmirrors.getMerkleProof_eq hnodup hpath, ?_⟩
  rw [verifyMerkleProof, leafText, climbProof_map,
    HashTree.climb_of_mem_paths combineDigests_comm hpath, hmirrors.root]
  exact congrArg Except.ok (decide_eq_true rfl)

end Keccak

end MpcRegistry.Canonical
