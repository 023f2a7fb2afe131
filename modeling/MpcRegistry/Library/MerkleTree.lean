import Mathlib

/-!
# Hash trees and the paths that prove a leaf

Leaves carry what was hashed into them. A path lists siblings from a leaf up,
without sides: `combine` gives the bytes hashed for two nodes in either order.
When no leaf's preimage is one of a node, whatever path leads a leaf to the root
is the tree's own path of that leaf, or two of the byte strings hashed on the
way collide.
-/
namespace MpcRegistry.Library

inductive HashTree (β : Type) where
  | leaf (preimage : β)
  | node (left right : HashTree β)

/-- Two different entries of the list with one hash. -/
def Collides {α β : Type} (hash : β → α) (inputs : List β) : Prop :=
  ∃ x ∈ inputs, ∃ y ∈ inputs, x ≠ y ∧ hash x = hash y

/-- Without a collision the hash tells the listed inputs apart. -/
theorem eq_of_not_collides {α β : Type} {hash : β → α} {inputs : List β}
    (h : ¬ Collides hash inputs) {x y : β} (hx : x ∈ inputs) (hy : y ∈ inputs)
    (heq : hash x = hash y) : x = y := by
  by_contra hne
  exact h ⟨x, hx, y, hy, hne, heq⟩

namespace HashTree

variable {α β : Type}

section Definitions

variable (hash : β → α) (combine : α → α → β)

def root : HashTree β → α
  | leaf preimage => hash preimage
  | node left right => hash (combine left.root right.root)

/-- The leaves' preimages from left to right. -/
def leaves : HashTree β → List β
  | leaf preimage => [preimage]
  | node left right => left.leaves ++ right.leaves

/-- What is hashed for the inner nodes. -/
def nodeInputs : HashTree β → List β
  | leaf _ => []
  | node left right =>
    combine (left.root hash combine) (right.root hash combine) ::
      (left.nodeInputs ++ right.nodeInputs)

/-- Each leaf's preimage with the siblings on the way up from it. -/
def paths : HashTree β → List (β × List α)
  | leaf preimage => [(preimage, [])]
  | node left right =>
    left.paths.map (fun path => (path.1, path.2 ++ [right.root hash combine])) ++
      right.paths.map fun path => (path.1, path.2 ++ [left.root hash combine])

/-- Hashing one sibling after the other into a node. -/
def climb (start : α) (siblings : List α) : α :=
  siblings.foldl (fun computed sibling => hash (combine computed sibling)) start

/-- What the climb hashes on the way. -/
def climbInputs : α → List α → List β
  | _, [] => []
  | computed, sibling :: siblings =>
    combine computed sibling :: climbInputs (hash (combine computed sibling)) siblings

/-- The inputs of the nodes one layer up: the trees of a layer in pairs. -/
def pairInputs : List (HashTree β) → List β
  | left :: right :: rest =>
    combine (left.root hash combine) (right.root hash combine) :: pairInputs rest
  | _ => []

end Definitions

/-- One layer up: neighbours become a node, an odd last tree stays as it is. -/
def pairUp : List (HashTree β) → List (HashTree β)
  | left :: right :: rest => node left right :: pairUp rest
  | [promoted] => [promoted]
  | [] => []

/-- The layers from one layer of trees up to a single tree. -/
def layers : Nat → List (HashTree β) → List (List (HashTree β))
  | 0, trees => [trees]
  | fuel + 1, trees =>
    if trees.length > 1 then trees :: layers fuel (pairUp trees) else [trees]

/-- The layers end in this one tree. -/
inductive GrowsTo : List (List (HashTree β)) → HashTree β → Prop where
  | top (tree : HashTree β) : GrowsTo [[tree]] tree
  | layer (trees : List (HashTree β)) (above : List (List (HashTree β))) (tree : HashTree β)
      (h : GrowsTo (pairUp trees :: above) tree) : GrowsTo (trees :: pairUp trees :: above) tree

/-- The neighbours met on the way up from one index; a missing one adds nothing. -/
def siblings {γ : Type} : List (List γ) → Nat → List γ
  | layer :: next :: above, index =>
    (layer[if index % 2 = 0 then index + 1 else index - 1]?).toList ++
      siblings (next :: above) (index / 2)
  | _, _ => []

section Paths

variable {hash : β → α} {combine : α → α → β}

theorem climb_concat (start : α) (siblings : List α) (sibling : α) :
    climb hash combine start (siblings ++ [sibling]) =
      hash (combine (climb hash combine start siblings) sibling) := by
  simp [climb]

theorem climbInputs_concat (start : α) (siblings : List α) (sibling : α) :
    climbInputs hash combine start (siblings ++ [sibling]) =
      climbInputs hash combine start siblings ++
        [combine (climb hash combine start siblings) sibling] := by
  induction siblings generalizing start with
  | nil => simp [climbInputs, climb]
  | cons first siblings ih =>
    simp only [List.cons_append, climbInputs, ih]
    rfl

theorem mem_leaves_of_mem_paths {tree : HashTree β} {preimage : β} {siblings : List α}
    (h : (preimage, siblings) ∈ tree.paths hash combine) : preimage ∈ tree.leaves := by
  induction tree generalizing siblings with
  | leaf own =>
    simp only [paths, List.mem_singleton, Prod.mk.injEq] at h
    simp [leaves, h.1]
  | node left right ihl ihr =>
    simp only [paths, List.mem_append, List.mem_map, Prod.mk.injEq] at h
    rcases h with ⟨path, hpath, rfl, -⟩ | ⟨path, hpath, rfl, -⟩
    · exact List.mem_append.mpr (.inl (ihl hpath))
    · exact List.mem_append.mpr (.inr (ihr hpath))

theorem exists_path_of_mem_leaves {tree : HashTree β} {preimage : β} (h : preimage ∈ tree.leaves) :
    ∃ siblings, (preimage, siblings) ∈ tree.paths hash combine := by
  induction tree with
  | leaf own =>
    rw [leaves, List.mem_singleton] at h
    exact ⟨[], by simp [paths, h]⟩
  | node left right ihl ihr =>
    rcases List.mem_append.mp h with h | h
    · obtain ⟨siblings, hpath⟩ := ihl h
      exact ⟨_, List.mem_append.mpr (.inl (List.mem_map.mpr ⟨_, hpath, rfl⟩))⟩
    · obtain ⟨siblings, hpath⟩ := ihr h
      exact ⟨_, List.mem_append.mpr (.inr (List.mem_map.mpr ⟨_, hpath, rfl⟩))⟩

/-- Every path of the tree leads its leaf to the root. -/
theorem climb_of_mem_paths (hcomm : ∀ a b, combine a b = combine b a) {tree : HashTree β}
    {preimage : β} {siblings : List α} (h : (preimage, siblings) ∈ tree.paths hash combine) :
    climb hash combine (hash preimage) siblings = tree.root hash combine := by
  induction tree generalizing siblings with
  | leaf own =>
    simp only [paths, List.mem_singleton, Prod.mk.injEq] at h
    obtain ⟨rfl, rfl⟩ := h
    rfl
  | node left right ihl ihr =>
    simp only [paths, List.mem_append, List.mem_map, Prod.mk.injEq] at h
    rcases h with ⟨path, hpath, rfl, rfl⟩ | ⟨path, hpath, rfl, rfl⟩
    · rw [climb_concat, ihl hpath, root]
    · rw [climb_concat, ihr hpath, root, hcomm]

/-- A path that leads a leaf to the root is the tree's own path of that leaf,
unless two of the inputs hashed collide. The siblings are free, their number is
too. -/
theorem mem_paths_of_climb
    (hcombine : ∀ a b c d, combine a b = combine c d → (a = c ∧ b = d) ∨ (a = d ∧ b = c))
    {inputs : List β} (hsafe : ¬ Collides hash inputs) {tree : HashTree β}
    (hleaves : tree.leaves ⊆ inputs) (hnodes : tree.nodeInputs hash combine ⊆ inputs)
    (hapart : ∀ preimage ∈ tree.leaves, ∀ a b, preimage ≠ combine a b)
    {preimage : β} (hmem : preimage ∈ inputs) (hpreimage : ∀ a b, preimage ≠ combine a b)
    {siblings : List α} (hclimb : climbInputs hash combine (hash preimage) siblings ⊆ inputs)
    (h : climb hash combine (hash preimage) siblings = tree.root hash combine) :
    (preimage, siblings) ∈ tree.paths hash combine := by
  induction tree generalizing siblings with
  | leaf own =>
    have hown : own ∈ inputs := hleaves (by simp [leaves])
    rcases List.eq_nil_or_concat' siblings with rfl | ⟨siblings, sibling, rfl⟩
    · have heq := eq_of_not_collides hsafe hmem hown h
      simp [paths, heq]
    · -- a longer path would make the leaf's preimage one of a node
      rw [climbInputs_concat, List.append_subset] at hclimb
      rw [climb_concat] at h
      have heq := eq_of_not_collides hsafe (hclimb.2 List.mem_cons_self) hown h
      exact absurd heq.symm (hapart own (by simp [leaves]) _ _)
  | node left right ihl ihr =>
    simp only [leaves, List.append_subset] at hleaves
    simp only [nodeInputs, List.cons_subset, List.append_subset] at hnodes
    obtain ⟨hown, hnodesL, hnodesR⟩ := hnodes
    have hapartL := fun b hb => hapart b (List.mem_append_left _ hb)
    have hapartR := fun b hb => hapart b (List.mem_append_right _ hb)
    rcases List.eq_nil_or_concat' siblings with rfl | ⟨siblings, sibling, rfl⟩
    · -- a shorter path would make the proven leaf's preimage one of a node
      exact absurd (eq_of_not_collides hsafe hmem hown h) (hpreimage _ _)
    · rw [climbInputs_concat, List.append_subset] at hclimb
      rw [climb_concat] at h
      have heq := eq_of_not_collides hsafe (hclimb.2 List.mem_cons_self) hown h
      simp only [paths, List.mem_append, List.mem_map, Prod.mk.injEq]
      rcases hcombine _ _ _ _ heq with ⟨hchild, rfl⟩ | ⟨hchild, rfl⟩
      · exact .inl ⟨_, ihl hleaves.1 hnodesL hapartL hclimb.1 hchild, rfl, rfl⟩
      · exact .inr ⟨_, ihr hleaves.2 hnodesR hapartR hclimb.1 hchild, rfl, rfl⟩

/-- Trees with one root have the same leaves, whatever their shapes, unless two of the inputs
hashed collide. -/
theorem leaves_perm_of_root_eq
    (hcombine : ∀ a b c d, combine a b = combine c d → (a = c ∧ b = d) ∨ (a = d ∧ b = c))
    {inputs : List β} (hsafe : ¬ Collides hash inputs) {first second : HashTree β}
    (hleaves : first.leaves ⊆ inputs) (hnodes : first.nodeInputs hash combine ⊆ inputs)
    (hleaves' : second.leaves ⊆ inputs) (hnodes' : second.nodeInputs hash combine ⊆ inputs)
    (hapart : ∀ preimage ∈ first.leaves ++ second.leaves, ∀ a b, preimage ≠ combine a b)
    (h : first.root hash combine = second.root hash combine) :
    first.leaves.Perm second.leaves := by
  induction first generalizing second with
  | leaf own =>
    have hown : own ∈ inputs := hleaves (by simp [leaves])
    cases second with
    | leaf other =>
      have hother : other ∈ inputs := hleaves' (by simp [leaves])
      rw [eq_of_not_collides hsafe hown hother h]
    | node left right =>
      have heq := eq_of_not_collides hsafe hown (hnodes' (by simp [nodeInputs])) h
      exact absurd heq (hapart own (by simp [leaves]) _ _)
  | node left right ihl ihr =>
    have hpair : combine (left.root hash combine) (right.root hash combine) ∈ inputs :=
      hnodes (by simp [nodeInputs])
    cases second with
    | leaf other =>
      have heq := eq_of_not_collides hsafe hpair (hleaves' (by simp [leaves])) h
      exact absurd heq.symm (hapart other (by simp [leaves]) _ _)
    | node left' right' =>
      have heq := eq_of_not_collides hsafe hpair (hnodes' (by simp [nodeInputs])) h
      simp only [leaves, List.append_subset] at hleaves hleaves' ⊢
      simp only [nodeInputs, List.cons_subset, List.append_subset] at hnodes hnodes'
      simp only [leaves, List.mem_append] at hapart
      -- the hash forgets which child stood left
      rcases hcombine _ _ _ _ heq with ⟨hleft, hright⟩ | ⟨hleft, hright⟩
      · have left_perm := ihl hleaves.1 hnodes.2.1 hleaves'.1 hnodes'.2.1
          (fun b hb => hapart b (by grind)) hleft
        have right_perm := ihr hleaves.2 hnodes.2.2 hleaves'.2 hnodes'.2.2
          (fun b hb => hapart b (by grind)) hright
        exact left_perm.append right_perm
      · have left_perm := ihl hleaves.1 hnodes.2.1 hleaves'.2 hnodes'.2.2
          (fun b hb => hapart b (by grind)) hleft
        have right_perm := ihr hleaves.2 hnodes.2.2 hleaves'.1 hnodes'.2.1
          (fun b hb => hapart b (by grind)) hright
        exact (left_perm.append right_perm).trans List.perm_append_comm

end Paths

theorem siblings_map {γ δ : Type} (f : γ → δ) (layers : List (List γ)) (index : Nat) :
    siblings (layers.map (List.map f)) index = (siblings layers index).map f := by
  induction layers generalizing index with
  | nil => rfl
  | cons layer above ih =>
    cases above with
    | nil => rfl
    | cons next above =>
      rw [List.map_cons] at ih
      simp only [List.map_cons, siblings, ih, List.getElem?_map, List.map_append]
      congr 1
      cases layer[if index % 2 = 0 then index + 1 else index - 1]? <;> rfl

section Layers

variable {hash : β → α} {combine : α → α → β}

theorem length_pairUp (trees : List (HashTree β)) :
    (pairUp trees).length = (trees.length + 1) / 2 := by
  fun_induction pairUp trees with
  | case1 left right rest ih =>
    simp only [List.length_cons, ih]
    omega
  | case2 promoted => simp
  | case3 => simp

theorem flatMap_leaves_pairUp (trees : List (HashTree β)) :
    (pairUp trees).flatMap leaves = trees.flatMap leaves := by
  fun_induction pairUp trees with
  | case1 left right rest ih => simp [leaves, ih]
  | case2 promoted => rfl
  | case3 => rfl

/-- A tree one layer up is the node of two neighbours, or the promoted last one. -/
theorem getElem?_pairUp {trees : List (HashTree β)} {index : Nat} {tree : HashTree β}
    (h : (pairUp trees)[index]? = some tree) :
    (∃ left right, trees[2 * index]? = some left ∧ trees[2 * index + 1]? = some right ∧
      tree = node left right) ∨
    (trees[2 * index]? = some tree ∧ trees[2 * index + 1]? = none) := by
  fun_induction pairUp trees generalizing index with
  | case1 left right rest ih =>
    cases index with
    | zero => exact .inl ⟨left, right, rfl, rfl, by simpa using h.symm⟩
    | succ index => simpa [Nat.mul_add] using ih (by simpa using h)
  | case2 promoted =>
    cases index with
    | zero => exact .inr ⟨by simpa using h, rfl⟩
    | succ index => simp at h
  | case3 => simp at h

theorem exists_layers_eq_cons (fuel : Nat) (trees : List (HashTree β)) :
    ∃ above, layers fuel trees = trees :: above := by
  cases fuel with
  | zero => exact ⟨[], rfl⟩
  | succ fuel =>
    rw [layers]
    split
    · exact ⟨_, rfl⟩
    · exact ⟨[], rfl⟩

/-- Fuel for every tree but one is enough to get to a single tree. -/
theorem exists_growsTo (fuel : Nat) {trees : List (HashTree β)} (hne : trees ≠ [])
    (hfuel : trees.length ≤ fuel + 1) : ∃ tree, GrowsTo (layers fuel trees) tree := by
  have hpos : 0 < trees.length := List.length_pos_iff.mpr hne
  induction fuel generalizing trees with
  | zero =>
    obtain ⟨tree, rfl⟩ := List.length_eq_one_iff.mp (by omega : trees.length = 1)
    exact ⟨tree, .top tree⟩
  | succ fuel ih =>
    by_cases hmany : trees.length > 1
    · rw [layers, if_pos hmany]
      have hup := length_pairUp trees
      have hnext : pairUp trees ≠ [] := List.ne_nil_of_length_pos (by omega)
      obtain ⟨tree, htree⟩ := ih hnext (by omega) (by omega)
      obtain ⟨above, habove⟩ := exists_layers_eq_cons fuel (pairUp trees)
      rw [habove] at htree ⊢
      exact ⟨tree, .layer trees above tree htree⟩
    · obtain ⟨tree, rfl⟩ := List.length_eq_one_iff.mp (by omega : trees.length = 1)
      exact ⟨tree, .top tree⟩

theorem GrowsTo.leaves_eq {all : List (List (HashTree β))} {tree : HashTree β}
    (h : GrowsTo all tree) : tree.leaves = (all.headD []).flatMap leaves := by
  induction h with
  | top tree => simp
  | layer trees above tree h ih => simpa [flatMap_leaves_pairUp] using ih

/-- Whatever stands for the trees, the last layer has the one for the top. -/
theorem GrowsTo.getLastD_map {γ : Type} (f : HashTree β → γ)
    {all : List (List (HashTree β))} {tree : HashTree β} (h : GrowsTo all tree) :
    (all.map (List.map f)).getLastD [] = [f tree] := by
  induction h with
  | top tree => rfl
  | layer trees above tree h ih => simpa using ih

theorem nodeInputs_pairUp_subset (trees : List (HashTree β)) :
    (pairUp trees).flatMap (nodeInputs hash combine) ⊆
      trees.flatMap (nodeInputs hash combine) ++ pairInputs hash combine trees := by
  fun_induction pairUp trees with
  | case1 left right rest ih =>
    intro input hinput
    simp only [List.flatMap_cons, nodeInputs, List.mem_append, List.mem_cons] at hinput
    simp only [List.flatMap_cons, pairInputs, List.mem_append, List.mem_cons]
    rcases hinput with (rfl | hleft | hright) | hrest
    · exact .inr (.inl rfl)
    · exact .inl (.inl hleft)
    · exact .inl (.inr (.inl hright))
    · rcases List.mem_append.mp (ih hrest) with hbelow | hpair
      · exact .inl (.inr (.inr hbelow))
      · exact .inr (.inr hpair)
  | case2 promoted => simp
  | case3 => simp

/-- Every node of the tree was hashed from a pair of some layer. -/
theorem GrowsTo.nodeInputs_subset {all : List (List (HashTree β))} {tree : HashTree β}
    (h : GrowsTo all tree) :
    tree.nodeInputs hash combine ⊆
      (all.headD []).flatMap (nodeInputs hash combine) ++ all.flatMap (pairInputs hash combine) := by
  induction h with
  | top tree => simp
  | layer trees above tree h ih =>
    intro input hinput
    have hup := ih hinput
    simp only [List.headD_cons, List.mem_append, List.flatMap_cons] at hup ⊢
    rcases hup with hnode | habove
    · rcases List.mem_append.mp (nodeInputs_pairUp_subset trees hnode) with hbelow | hpair
      · exact .inl hbelow
      · exact .inr (.inl hpair)
    · exact .inr (.inr habove)

/-- A path of the tree starts as a path inside one tree of the lowest layer and
goes on with the siblings met from there. -/
theorem GrowsTo.path_eq {all : List (List (HashTree β))} {tree : HashTree β}
    (h : GrowsTo all tree) {path : β × List α} (hpath : path ∈ tree.paths hash combine) :
    ∃ index start below, (all.headD [])[index]? = some start ∧
      (path.1, below) ∈ start.paths hash combine ∧
      path.2 = below ++ siblings (all.map (List.map (root hash combine))) index := by
  induction h with
  | top tree => exact ⟨0, tree, path.2, rfl, hpath, by simp [siblings]⟩
  | layer trees above tree h ih =>
    obtain ⟨index, start, below, hstart, hbelow, hsiblings⟩ := ih hpath
    simp only [List.headD_cons, List.map_cons] at hstart hsiblings ⊢
    rcases getElem?_pairUp hstart with ⟨left, right, hleft, hright, rfl⟩ | ⟨hodd, hnone⟩
    · simp only [paths, List.mem_append, List.mem_map, Prod.mk.injEq] at hbelow
      rcases hbelow with ⟨inner, hinner, hpre, rfl⟩ | ⟨inner, hinner, hpre, rfl⟩
      · refine ⟨2 * index, left, inner.2, hleft, hpre ▸ hinner, ?_⟩
        simp [siblings, hsiblings, hright]
      · refine ⟨2 * index + 1, right, inner.2, hright, hpre ▸ hinner, ?_⟩
        have hodd : (2 * index + 1) % 2 = 1 := by omega
        have hhalf : (2 * index + 1) / 2 = index := by omega
        simp [siblings, hsiblings, hleft, hodd, hhalf]
    · refine ⟨2 * index, start, below, hodd, hbelow, ?_⟩
      simp [siblings, hsiblings, hnone]

end Layers

end HashTree

end MpcRegistry.Library
