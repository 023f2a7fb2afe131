import MpcRegistry.Canonical.ProofCompleteness

/-!
# The root of a batch of leaf hashes

Leaf hashes are any texts of 32 bytes here, whatever they were taken of. The tree hashes strings
of 64 bytes only, so a leaf hash may stand for itself: under a hash that leaves 32 bytes as they
are, every leaf hash is the hash of its own bytes and the tree is the same.
-/
namespace MpcRegistry.Canonical
open Library Library.Outcome

section LeafHashes

variable (keccak_256 : Bytes → Digest)

/-- The hash of 64 bytes, and 32 bytes as they are. -/
def fixingLeaves (input : Bytes) : Digest :=
  if h : input.length = 32 then ⟨input, h⟩ else keccak_256 input

variable {keccak_256}

theorem fixingLeaves_digest (digest : Digest) : fixingLeaves keccak_256 digest.val = digest :=
  dif_pos digest.property

variable (keccak_256) in
theorem fixingLeaves_of_length {input : Bytes} (h : input.length = 64) :
    fixingLeaves keccak_256 input = keccak_256 input :=
  dif_neg (by omega)

variable (keccak_256) in
theorem leafText_fixingLeaves (digest : Digest) :
    leafText (fixingLeaves keccak_256) digest.val = bytesToHex digest.val := by
  rw [leafText, fixingLeaves_digest]

theorem length_of_setBytes {bytes source result : Bytes} {offset : Nat}
    (h : setBytes bytes source offset = .ok result) : result.length = bytes.length := by
  obtain ⟨hfits, h⟩ := guard_ok.mp h
  cases h
  simp only [List.length_append, List.length_take, List.length_drop]
  omega

theorem length_of_pairBytes {a b : Text} {input : Bytes} (h : pairBytes a b = .ok input) :
    input.length = 64 := by
  obtain ⟨left, -, h⟩ := bind_ok.mp h
  obtain ⟨first, hfirst, h⟩ := bind_ok.mp h
  obtain ⟨right, -, h⟩ := bind_ok.mp h
  rw [length_of_setBytes h, length_of_setBytes hfirst, List.length_replicate]

theorem hashPair_fixingLeaves : hashPair (fixingLeaves keccak_256) = hashPair keccak_256 := by
  funext a b
  unfold hashPair
  cases hpair : pairBytes a b with
  | error thrown => rfl
  | ok input =>
    have hhash := fixingLeaves_of_length keccak_256 (length_of_pairBytes hpair)
    simp only [bind, Except.bind, keccak256, hhash]

theorem nextLayer_fixingLeaves :
    nextLayer (fixingLeaves keccak_256) = nextLayer keccak_256 := by
  funext current
  fun_induction nextLayer keccak_256 current with
  | case1 left right rest ih => rw [nextLayer, hashPair_fixingLeaves, ih]
  | case2 promoted => rfl
  | case3 => rfl

theorem layersFrom_fixingLeaves :
    layersFrom (fixingLeaves keccak_256) = layersFrom keccak_256 := by
  funext fuel current
  induction fuel generalizing current with
  | zero => rfl
  | succ fuel ih =>
    have hrest : layersFrom (fixingLeaves keccak_256) fuel = layersFrom keccak_256 fuel := funext ih
    rw [layersFrom, layersFrom, nextLayer_fixingLeaves, hrest]

/-- The tree does not see which hash its leaves were taken with. -/
theorem buildMerkleTree_fixingLeaves :
    buildMerkleTree (fixingLeaves keccak_256) = buildMerkleTree keccak_256 := by
  funext hashes
  unfold buildMerkleTree
  rw [layersFrom_fixingLeaves]

theorem verifyMerkleProof_fixingLeaves :
    verifyMerkleProof (fixingLeaves keccak_256) = verifyMerkleProof keccak_256 := by
  unfold verifyMerkleProof climbProof
  rw [hashPair_fixingLeaves]

variable (keccak_256) in
/-- Leaf hashes are the bytes of digests, each its own preimage. -/
theorem exists_leafDigests {hashes : List Text} (h : ∀ text ∈ hashes, isBytes32 text = true) :
    ∃ digests : List Digest,
      hashes = (digests.map Subtype.val).map (leafText (fixingLeaves keccak_256)) := by
  obtain ⟨digests, rfl⟩ := exists_digests h
  refine ⟨digests, ?_⟩
  rw [List.map_map]
  exact List.map_congr_left fun digest _ => (leafText_fixingLeaves keccak_256 digest).symm

end LeafHashes

/-! ## The number of layers -/

section Layers

variable {keccak_256 : Bytes → Digest}

theorem length_of_nextLayer {current next : List Text} (h : nextLayer keccak_256 current = .ok next) :
    next.length = (current.length + 1) / 2 := by
  fun_induction nextLayer keccak_256 current generalizing next with
  | case1 left right rest ih =>
    obtain ⟨node, -, h⟩ := bind_ok.mp h
    obtain ⟨nodes, hnodes, h⟩ := bind_ok.mp h
    cases h
    have hrest := ih hnodes
    simp only [List.length_cons]
    omega
  | case2 promoted =>
    cases h
    simp
  | case3 =>
    cases h
    rfl

/-- Above `n` nodes stand as many layers as it takes to halve `n` down to one. -/
theorem length_of_layersFrom {fuel : Nat} {current : List Text} {layers : List (List Text)}
    (h : layersFrom keccak_256 fuel current = .ok layers) :
    layers.length ≤ Nat.clog 2 current.length + 1 := by
  induction fuel generalizing current layers with
  | zero =>
    cases h
    simp
  | succ fuel ih =>
    rw [layersFrom] at h
    split at h
    next hmany =>
      obtain ⟨next, hnext, h⟩ := bind_ok.mp h
      obtain ⟨above, habove, h⟩ := bind_ok.mp h
      cases h
      have hheight := ih habove
      have hhalf := Nat.clog_of_two_le (b := 2) (by omega) hmany
      rw [length_of_nextLayer hnext] at hheight
      rw [List.length_cons, hhalf]
      exact Nat.succ_le_succ hheight
    next =>
      cases h
      simp

/-- Rounds beyond one for each node are not taken. -/
theorem layersFrom_of_le {fuel : Nat} {current : List Text} (h : current.length ≤ fuel) :
    layersFrom keccak_256 fuel current = layersFrom keccak_256 current.length current := by
  induction hlength : current.length using Nat.strong_induction_on generalizing fuel current with
  | _ n ih =>
    by_cases hmany : current.length > 1
    · obtain ⟨fuel, rfl⟩ : ∃ more, fuel = more + 1 := ⟨fuel - 1, by omega⟩
      obtain ⟨m, rfl⟩ : ∃ m, n = m + 1 := ⟨n - 1, by omega⟩
      rw [layersFrom, layersFrom, if_pos hmany, if_pos hmany]
      cases hnext : nextLayer keccak_256 current with
      | error thrown => rfl
      | ok next =>
        have hhalf := length_of_nextLayer hnext
        have hfirst : layersFrom keccak_256 fuel next = _ := ih next.length (by omega) (by omega) rfl
        have hsecond : layersFrom keccak_256 m next = _ := ih next.length (by omega) (by omega) rfl
        simp only [bind, Except.bind, hfirst, hsecond]
    · have hstop : ∀ rounds, layersFrom keccak_256 rounds current = .ok [current] := by
        intro rounds
        cases rounds with
        | zero => rfl
        | succ rounds => exact if_neg hmany
      rw [hstop, hstop]

/-- A proof has at most one sibling for each layer below the root. -/
theorem length_proofFrom (layers : List (List Text)) (index : Nat) :
    (proofFrom layers index).length ≤ layers.length - 1 := by
  induction layers generalizing index with
  | nil => exact Nat.zero_le _
  | cons layer above ih =>
    cases above with
    | nil => exact Nat.zero_le _
    | cons next above =>
      have hrest := ih (index / 2)
      rw [proofFrom, List.length_append]
      have hsibling : ∀ sibling : Option Text, sibling.toList.length ≤ 1 := by
        intro sibling
        cases sibling <;> simp
      have hone := hsibling layer[if index % 2 = 0 then index + 1 else index - 1]?
      simp only [List.length_cons] at hrest ⊢
      omega

variable (keccak_256) in
theorem exists_tree {hashes : List Text} (hne : hashes ≠ []) (hdistinct : hashes.Nodup)
    (hbytes : ∀ text ∈ hashes, isBytes32 text = true) :
    ∃ preimages tree all top, hashes = preimages.map (leafText (fixingLeaves keccak_256)) ∧
      (∀ preimage ∈ preimages, preimage.length = 32) ∧
      buildMerkleTree keccak_256 hashes = .ok tree ∧
      Mirrors (fixingLeaves keccak_256) tree preimages all top := by
  obtain ⟨digests, rfl⟩ := exists_leafDigests keccak_256 hbytes
  have hsome : digests.map Subtype.val ≠ [] := fun hnil => hne (by rw [hnil]; rfl)
  obtain ⟨tree, all, top, hbuild, hmirrors⟩ :=
    exists_mirrors (fixingLeaves keccak_256) hsome hdistinct
  rw [buildMerkleTree_fixingLeaves] at hbuild
  refine ⟨_, tree, all, top, rfl, fun preimage hpreimage => ?_, hbuild, hmirrors⟩
  obtain ⟨digest, -, rfl⟩ := List.mem_map.mp hpreimage
  exact digest.property

end Layers

/-- Every leaf hash of every batch has a proof that leads to the root, of no more nodes than the
leaves can be halved. -/
theorem proof_of_every_leaf (keccak_256 : Bytes → Digest) {leaves : List Text} (hne : leaves ≠ [])
    (hdistinct : leaves.Nodup) (hbytes : ∀ leaf ∈ leaves, isBytes32 leaf = true) :
    ∃ tree, buildMerkleTree keccak_256 leaves = .ok tree ∧
      ∀ leaf ∈ leaves, ∃ proof, getMerkleProof tree leaf = .ok proof ∧
        verifyMerkleProof keccak_256 leaf proof tree.root = .ok true ∧
        proof.length ≤ Nat.clog 2 leaves.length := by
  obtain ⟨preimages, tree, all, top, rfl, -, hbuild, -⟩ :=
    exists_tree keccak_256 hne hdistinct hbytes
  refine ⟨tree, hbuild, fun leaf hleaf => ?_⟩
  have hfixed := hbuild
  rw [← buildMerkleTree_fixingLeaves] at hfixed
  obtain ⟨proof, hproof, hverify⟩ := proof_verifies hfixed
    (fun text htext => (List.mem_map.mp htext).imp fun _ h => h.2.symm) hleaf
  rw [verifyMerkleProof_fixingLeaves] at hverify
  refine ⟨proof, hproof, hverify, ?_⟩
  obtain ⟨-, -, -, layers, hlayers, rfl⟩ := buildMerkleTree_ok hbuild
  have hheight := length_of_layersFrom hlayers
  rw [List.length_insertionSort] at hheight
  unfold getMerkleProof at hproof
  split at hproof
  · cases hproof
  next index _ =>
    cases hproof
    have hlength := length_proofFrom layers index
    exact hlength.trans (by omega)

/-- On the golden batch of three, whose last leaf is promoted. -/
theorem proof_of_every_leaf_golden :
    ∃ tree, buildMerkleTree goldenKeccak goldenHashes = .ok tree ∧
      ∀ leaf ∈ goldenHashes, ∃ proof, getMerkleProof tree leaf = .ok proof ∧
        verifyMerkleProof goldenKeccak leaf proof tree.root = .ok true ∧
        proof.length ≤ Nat.clog 2 goldenHashes.length :=
  proof_of_every_leaf goldenKeccak (by decide) (by decide +kernel) (by decide +kernel)

/-! ## One root, one batch -/

section Root

variable {keccak_256 : Bytes → Digest}

theorem buildMerkleTree_error_iff {hashes : List Text} :
    (∃ thrown, buildMerkleTree keccak_256 hashes = .error thrown) ↔
      hashes = [] ∨ ¬ hashes.Nodup ∨ ∃ text ∈ hashes, isBytes32 text = false := by
  constructor
  · rintro ⟨thrown, hthrown⟩
    by_contra hvalid
    simp only [not_or, not_not, not_exists, not_and, Bool.not_eq_false] at hvalid
    obtain ⟨_, _, _, _, -, -, hbuild, -⟩ :=
      exists_tree keccak_256 hvalid.1 hvalid.2.1 hvalid.2.2
    rw [hthrown] at hbuild
    cases hbuild
  · intro hbad
    cases hbuild : buildMerkleTree keccak_256 hashes with
    | error thrown => exact ⟨thrown, rfl⟩
    | ok tree =>
      obtain ⟨hne, hdistinct, hbytes, -⟩ := buildMerkleTree_ok hbuild
      rcases hbad with hnil | hdup | ⟨text, htext, hinvalid⟩
      · exact absurd hnil hne
      · exact absurd hdistinct hdup
      · rw [hbytes text htext] at hinvalid
        cases hinvalid

/-- The tree of a batch, its loop run until one node was left. -/
theorem exists_tree_of_ok {hashes : List Text} {tree : MerkleTree}
    (h : buildMerkleTree keccak_256 hashes = .ok tree) :
    ∃ preimages all top, hashes = preimages.map (leafText (fixingLeaves keccak_256)) ∧
      (∀ preimage ∈ preimages, preimage.length = 32) ∧
      Mirrors (fixingLeaves keccak_256) tree preimages all top := by
  obtain ⟨hne, hdistinct, hbytes, -⟩ := buildMerkleTree_ok h
  obtain ⟨preimages, built, all, top, heq, hlengths, hbuild, hmirrors⟩ :=
    exists_tree keccak_256 hne hdistinct hbytes
  rw [h, Except.ok.injEq] at hbuild
  exact ⟨preimages, all, top, heq, hlengths, hbuild ▸ hmirrors⟩

theorem loop_ends {hashes : List Text} {tree : MerkleTree} {fuel : Nat}
    (h : buildMerkleTree keccak_256 hashes = .ok tree) (hfuel : hashes.length ≤ fuel) :
    layersFrom keccak_256 fuel (hashes.insertionSort (· ≤ ·)) = .ok tree.layers ∧
      tree.layers.getLast? = some [tree.root] := by
  obtain ⟨-, -, -, layers, hlayers, htree⟩ := buildMerkleTree_ok h
  obtain ⟨_, all, top, -, -, hmirrors⟩ := exists_tree_of_ok h
  have hcount : (hashes.insertionSort (· ≤ ·)).length = hashes.length :=
    List.length_insertionSort _ _
  constructor
  · rw [layersFrom_of_le (by omega), hcount, hlayers, htree]
  · have hlast := hmirrors.grows.getLastD_map (nodeText (fixingLeaves keccak_256))
    rw [← hmirrors.layers, ← hmirrors.root] at hlast
    cases hend : tree.layers.getLast? with
    | none =>
      rw [List.getLastD_eq_getLast?, hend] at hlast
      cases hlast
    | some layer =>
      rw [List.getLastD_eq_getLast?, hend] at hlast
      exact congrArg some hlast

/-- What the tree hashes. -/
def MerkleTree.inputs (tree : MerkleTree) : List Bytes := tree.layers.flatMap layerInputs

theorem length_of_mem_layerInputs {layer : List Text} {input : Bytes}
    (h : input ∈ layerInputs layer) : input.length = 64 := by
  fun_induction layerInputs layer with
  | case1 left right rest ih =>
    rcases List.mem_append.mp h with hpair | hrest
    · cases hbytes : pairBytes left right with
      | error thrown => simp [hbytes, Except.toOption] at hpair
      | ok bytes =>
        obtain rfl : input = bytes := by simpa [hbytes, Except.toOption] using hpair
        exact length_of_pairBytes hbytes
    · exact ih hrest
  | case2 => cases h

theorem MerkleTree.length_of_mem_inputs {tree : MerkleTree} {input : Bytes}
    (h : input ∈ tree.inputs) : input.length = 64 := by
  obtain ⟨layer, -, hinput⟩ := List.mem_flatMap.mp h
  exact length_of_mem_layerInputs hinput

/-- With leaves that are no hash of a pair, what collides are two pairs. -/
theorem collides_of_fixingLeaves {preimages pairs : List Bytes}
    (hlengths : ∀ preimage ∈ preimages, preimage.length = 32)
    (hpairs : ∀ input ∈ pairs, input.length = 64)
    (hapart : ∀ preimage ∈ preimages, ∀ input ∈ pairs,
      bytesToHex preimage ≠ keccak256 keccak_256 input)
    (h : Collides (fixingLeaves keccak_256) (preimages ++ pairs)) : Collides keccak_256 pairs := by
  have hmixed : ∀ preimage ∈ preimages, ∀ input ∈ pairs,
      fixingLeaves keccak_256 preimage ≠ fixingLeaves keccak_256 input := by
    intro preimage hpreimage input hinput hsame
    refine hapart preimage hpreimage input hinput ?_
    rw [fixingLeaves_of_length keccak_256 (hpairs input hinput), fixingLeaves,
      dif_pos (hlengths preimage hpreimage)] at hsame
    rw [keccak256, ← hsame]
  obtain ⟨x, hx, y, hy, hne, hsame⟩ := h
  rcases List.mem_append.mp hx with hx | hx <;> rcases List.mem_append.mp hy with hy | hy
  · rw [fixingLeaves, fixingLeaves, dif_pos (hlengths x hx), dif_pos (hlengths y hy)] at hsame
    exact absurd (congrArg Subtype.val hsame) hne
  · exact absurd hsame (hmixed x hx y hy)
  · exact absurd hsame.symm (hmixed y hy x hx)
  · rw [fixingLeaves_of_length keccak_256 (hpairs x hx),
      fixingLeaves_of_length keccak_256 (hpairs y hy)] at hsame
    exact ⟨x, hx, y, hy, hne, hsame⟩

theorem perm_of_root_eq {xs ys : List Text} {tx ty : MerkleTree}
    (hx : buildMerkleTree keccak_256 xs = .ok tx) (hy : buildMerkleTree keccak_256 ys = .ok ty)
    (hleaf : ∀ leaf ∈ xs ++ ys, ∀ input ∈ tx.inputs ++ ty.inputs,
      leaf ≠ keccak256 keccak_256 input)
    (hsafe : ¬ Collides keccak_256 (tx.inputs ++ ty.inputs)) (hroot : tx.root = ty.root) :
    ys.Perm xs := by
  obtain ⟨before, allx, topx, rfl, hlengthx, hmirrorsx⟩ := exists_tree_of_ok hx
  obtain ⟨after, ally, topy, rfl, hlengthy, hmirrorsy⟩ := exists_tree_of_ok hy
  have hlengths : ∀ preimage ∈ before ++ after, preimage.length = 32 := by
    intro preimage hpreimage
    exact (List.mem_append.mp hpreimage).elim (hlengthx preimage) (hlengthy preimage)
  have hpairs : ∀ input ∈ tx.inputs ++ ty.inputs, input.length = 64 := by
    intro input hinput
    exact (List.mem_append.mp hinput).elim MerkleTree.length_of_mem_inputs
      MerkleTree.length_of_mem_inputs
  have hnone : ¬ Collides (fixingLeaves keccak_256)
      ((before ++ after) ++ (tx.inputs ++ ty.inputs)) := by
    refine fun hcollides => hsafe (collides_of_fixingLeaves hlengths hpairs ?_ hcollides)
    intro preimage hpreimage input hinput
    have htext := leafText_fixingLeaves keccak_256
      ⟨preimage, hlengths preimage hpreimage⟩
    rw [← htext, ← List.map_append] at *
    exact hleaf _ (List.mem_map_of_mem hpreimage) input hinput
  have hdigest : topx.root (fixingLeaves keccak_256) combineDigests =
      topy.root (fixingLeaves keccak_256) combineDigests := by
    rw [hmirrorsx.root, hmirrorsy.root] at hroot
    exact Subtype.ext (bytesToHex_injective hroot)
  have hmemx : ∀ own ∈ topx.leaves, own ∈ before := fun own hown =>
    (List.mem_insertionSort _).mp (hmirrorsx.leaves_eq ▸ hown)
  have hmemy : ∀ own ∈ topy.leaves, own ∈ after := fun own hown =>
    (List.mem_insertionSort _).mp (hmirrorsy.leaves_eq ▸ hown)
  have hleaves : topx.leaves.Perm topy.leaves := by
    refine HashTree.leaves_perm_of_root_eq combineDigests_cases hnone ?_ ?_ ?_ ?_ ?_ hdigest
    · exact fun own hown => by simp [hmemx own hown]
    · exact fun input hinput => by
        have hlayer : input ∈ tx.inputs := hmirrorsx.nodeInputs_subset hinput
        simp [hlayer]
    · exact fun own hown => by simp [hmemy own hown]
    · exact fun input hinput => by
        have hlayer : input ∈ ty.inputs := hmirrorsy.nodeInputs_subset hinput
        simp [hlayer]
    · intro own hown
      refine ne_combineDigests (hlengths own ?_)
      exact List.mem_append.mpr ((List.mem_append.mp hown).imp (hmemx own) (hmemy own))
  rw [hmirrorsx.leaves_eq, hmirrorsy.leaves_eq] at hleaves
  have hperm := ((List.perm_insertionSort _ _).symm.trans hleaves).trans
    (List.perm_insertionSort _ _)
  exact hperm.symm.map _

end Root

/-- A tree is built of every list but an empty one, one with a duplicate and one with what is not
a leaf hash, and the loop ends with one node. Two batches have one root exactly when they have
the same leaf hashes, unless two of the strings hashed collide. A leaf hash is to be none of the
hashes of those 64-byte strings. -/
theorem root_identifies_batch (keccak_256 : Bytes → Digest) :
    (∀ hashes, (∃ thrown, buildMerkleTree keccak_256 hashes = .error thrown) ↔
      hashes = [] ∨ ¬ hashes.Nodup ∨ ∃ text ∈ hashes, isBytes32 text = false) ∧
    (∀ hashes tree fuel, buildMerkleTree keccak_256 hashes = .ok tree → hashes.length ≤ fuel →
      layersFrom keccak_256 fuel (hashes.insertionSort (· ≤ ·)) = .ok tree.layers ∧
        tree.layers.getLast? = some [tree.root]) ∧
    ∀ xs ys tx ty, buildMerkleTree keccak_256 xs = .ok tx → buildMerkleTree keccak_256 ys = .ok ty →
      (∀ leaf ∈ xs ++ ys, ∀ input ∈ tx.inputs ++ ty.inputs, input.length = 64 →
        leaf ≠ keccak256 keccak_256 input) →
      (tx.root = ty.root ↔ ys.Perm xs) ∨ Collides keccak_256 (tx.inputs ++ ty.inputs) := by
  refine ⟨fun hashes => buildMerkleTree_error_iff, fun hashes tree fuel => loop_ends, ?_⟩
  intro xs ys tx ty hx hy hleaf
  refine or_iff_not_imp_right.mpr fun hsafe => ⟨fun hroot => ?_, fun hperm => ?_⟩
  · refine perm_of_root_eq hx hy (fun leaf hmem input hinput => ?_) hsafe hroot
    refine hleaf leaf hmem input hinput ?_
    exact (List.mem_append.mp hinput).elim MerkleTree.length_of_mem_inputs
      MerkleTree.length_of_mem_inputs
  · have hsame := buildMerkleTree_perm hperm.symm hx
    rw [hy, Except.ok.injEq] at hsame
    rw [hsame]

/-- The golden batch and the same hashes in another order. -/
theorem root_identifies_batch_golden :
    (goldenTree.root = goldenTree.root ↔ goldenHashes.reverse.Perm goldenHashes) ∨
      Collides goldenKeccak (goldenTree.inputs ++ goldenTree.inputs) :=
  (root_identifies_batch goldenKeccak).2.2 goldenHashes goldenHashes.reverse goldenTree goldenTree
    (by decide +kernel) (by decide +kernel) (by decide +kernel)

end MpcRegistry.Canonical
