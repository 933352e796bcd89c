import Godx.Vm.Proof.MerkleTree
import Godx.Vm.Proof.ToyCrypto

/-!
# What an accepted storage proof says about the challenged segment

`HashSum` hashes leaves and nodes alike (no domain separation), and `VerifyProof` takes every
proof element past the climbed path and the orphan step as a left sibling, however many there
are. So a proof set of the wrong length can be accepted for a segment that is not the leaf:
`verifySegment_accepts_node` shows one, the 64-byte input of a 3-leaf root accepted as leaf `2`
with an empty hash set, under a digest with no collision among all the inputs involved.

For a hash set of exactly the path's length the check is sound up to a collision:
`verifySegment_sound` compares the verifier's chain with the tree top-down (`leaf_or_collision`);
at each node the two 64-byte inputs split into 32-byte digests, so they agree or collide.
-/

namespace Godx.Vm

/-- The byte strings hashed while computing `rootAt H a L`. -/
def treeInputs (H : Bytes → Hash) : Nat → List Bytes → List Bytes
  | 0, L => [L.headD []]
  | a + 1, L =>
    if L.length ≤ 2 ^ a then treeInputs H a L
    else treeInputs H a (L.take (2 ^ a)) ++ treeInputs H a (L.drop (2 ^ a)) ++
      [rootAt H a (L.take (2 ^ a)) ++ rootAt H a (L.drop (2 ^ a))]

/-- The byte string one hashing step hashes. -/
def stepInput (sum : Bytes) : Bool × Bytes → Bytes
  | (true, p) => sum ++ p
  | (false, p) => p ++ sum

/-- The byte strings hashed along a fold. -/
def foldInputs (H : Bytes → Hash) (sum : Bytes) : List (Bool × Bytes) → List Bytes
  | [] => []
  | s :: steps => stepInput sum s :: foldInputs H (hashStep H sum s) steps

/-- Two different byte strings of `xs` have the same digest. -/
def Collision (H : Bytes → Hash) (xs : List Bytes) : Prop :=
  ∃ x ∈ xs, ∃ y ∈ xs, x ≠ y ∧ H x = H y

instance (H : Bytes → Hash) (xs : List Bytes) : Decidable (Collision H xs) :=
  inferInstanceAs (Decidable (∃ x ∈ xs, ∃ y ∈ xs, x ≠ y ∧ H x = H y))

/-- The root of `L` as the `common.Hash` the contract stores. -/
def rootHash (H : Bytes → Hash) (L : List Bytes) : Hash := ⟨merkleRoot H L, length_rootAt ..⟩

theorem Collision.mono {H : Bytes → Hash} {xs ys : List Bytes} (h : Collision H xs)
    (hsub : ∀ x ∈ xs, x ∈ ys) : Collision H ys := by
  obtain ⟨x, hx, y, hy, hne, he⟩ := h
  exact ⟨x, hsub x hx, y, hsub y hy, hne, he⟩

theorem hashSum_pair (H : Bytes → Hash) (x y : Bytes) : hashSum H [x, y] = (H (x ++ y)).bytes := by
  simp [hashSum]

theorem hashSum_single (H : Bytes → Hash) (x : Bytes) : hashSum H [x] = (H x).bytes := by
  simp [hashSum]

theorem hashStep_eq (H : Bytes → Hash) (sum : Bytes) (s : Bool × Bytes) :
    hashStep H sum s = (H (stepInput sum s)).bytes := by
  obtain ⟨_ | _, p⟩ := s <;> exact hashSum_pair ..

theorem foldInputs_append (H : Bytes → Hash) (sum : Bytes) (s t : List (Bool × Bytes)) :
    foldInputs H sum (s ++ t) = foldInputs H sum s ++ foldInputs H (foldSteps H sum s) t := by
  induction s generalizing sum with
  | nil => rfl
  | cons x s ih => simp [foldInputs, ih]

/-- Where two hashes of 64-byte inputs agree, the inputs agree or collide. -/
theorem split_or_collision {H : Bytes → Hash} {x y : Bytes} (xs : List Bytes) (hx : x ∈ xs)
    (hy : y ∈ xs) (he : (H x).bytes = (H y).bytes) : x = y ∨ Collision H xs := by
  by_cases hxy : x = y
  · exact .inl hxy
  · exact .inr ⟨x, hx, y, hy, hxy, Hash.ext he⟩

/-- The inputs of a subtree and of the chain above it are among those of the parent and of the
chain one step longer. -/
theorem mem_inputs_of_mem {x seg : Bytes} {A A' F F' : List Bytes} (hA : A ⊆ A') (hF : F ⊆ F')
    (hx : x ∈ A ++ seg :: F) : x ∈ A' ++ seg :: F' := by
  rcases List.mem_append.1 hx with h | h
  · exact List.mem_append_left _ (hA h)
  · exact List.mem_append_right _ (List.cons_subset_cons seg hF h)

/-- A chain that hashes to the root along leaf `i`'s path, with one 32-byte sibling per level,
starts from leaf `i`, or two different inputs of the tree and of the chain collide. -/
theorem leaf_or_collision (H : Bytes → Hash) :
    ∀ (a : Nat) (L : List Bytes) (i : Nat) (seg : Bytes) (ps : List Bytes),
      L.length ≤ 2 ^ a → i < L.length → (∀ p ∈ ps, p.length = 32) →
      ps.length = (sidesAt a L.length i).length →
      foldSteps H (hashSum H [seg]) ((sidesAt a L.length i).zip ps) = rootAt H a L →
      L[i]? = some seg ∨ Collision H
        (treeInputs H a L ++ seg :: foldInputs H (hashSum H [seg]) ((sidesAt a L.length i).zip ps))
  | 0, L, i, seg, ps, hL, hi, _, hps, he => by
    obtain ⟨x, rfl⟩ := List.length_eq_one.1 (show L.length = 1 by simp at hL; omega)
    obtain rfl : i = 0 := by simp at hi; omega
    obtain rfl : ps = [] := List.eq_nil_of_length_eq_zero hps
    rw [List.zip_nil_right, foldSteps_nil, hashSum_single, rootAt, List.headD_cons,
      hashSum_single] at he
    refine (split_or_collision _ ?_ ?_ he).imp (fun h => by rw [h]; rfl) id
    · simp
    · simp [treeInputs]
  | a + 1, L, i, seg, ps, hL, hi, hp, hps, he => by
    simp only [sidesAt, rootAt, treeInputs] at hps he ⊢
    split_ifs at hps he ⊢ with h1 h2
    · exact leaf_or_collision H a L i seg ps h1 hi hp hps he
    all_goals
      obtain ⟨ps, p, rfl⟩ : ∃ ps' p, ps = ps' ++ [p] := by
        obtain ⟨ps', p, h⟩ := (List.eq_nil_or_concat ps).resolve_left (by rintro rfl; simp at hps)
        exact ⟨ps', p, by rw [h, List.concat_eq_append]⟩
      simp only [List.length_append, List.length_singleton, Nat.add_right_cancel_iff] at hps
      rw [List.zip_append hps.symm, foldSteps_append] at he
      rw [List.zip_append hps.symm, foldInputs_append]
      simp only [List.zip_cons_cons, List.zip_nil_left, foldSteps_cons, foldSteps_nil,
        foldInputs, hashStep_eq, hashSum_pair, stepInput] at he ⊢
      have hp32 : p.length = 32 := hp p (by simp)
      have hF := length_foldSteps H (hashSum H [seg]) (length_hashSum ..)
      have hp' : ∀ q ∈ ps, q.length = 32 := fun q hq => hp q (by simp [hq])
      refine (split_or_collision _ ?_ ?_ he).elim (fun heq => ?_) Or.inr
      · simp
      · simp
    · -- leaf `i` is in the left subtree: the chain's sum is the left child
      have ht : (L.take (2 ^ a)).length = 2 ^ a := by simp; omega
      obtain ⟨hl, -⟩ := List.append_inj heq (by rw [hF, length_rootAt])
      rcases leaf_or_collision H a (L.take (2 ^ a)) i seg ps ht.le (by omega) hp'
        (by rw [ht]; exact hps) (by rw [ht]; exact hl) with hs | hc
      · exact .inl (by rwa [List.getElem?_take, if_pos h2] at hs)
      · exact .inr (hc.mono fun x hx => mem_inputs_of_mem
          (fun y hy => List.mem_append_left _ (List.mem_append_left _ hy))
          (List.subset_append_left _ _) (by rwa [ht] at hx))
    · -- leaf `i` is in the right subtree: the chain's sum is the right child
      have hd : (L.drop (2 ^ a)).length = L.length - 2 ^ a := List.length_drop ..
      obtain ⟨-, hr⟩ := List.append_inj heq (by rw [hp32, length_rootAt])
      rcases leaf_or_collision H a (L.drop (2 ^ a)) (i - 2 ^ a) seg ps (by omega) (by omega) hp'
        (by rw [hd]; exact hps) (by rw [hd]; exact hr) with hs | hc
      · exact .inl (by rwa [List.getElem?_drop, Nat.add_sub_cancel' (by omega)] at hs)
      · exact .inr (hc.mono fun x hx => mem_inputs_of_mem
          (fun y hy => List.mem_append_left _ (List.mem_append_right _ hy))
          (List.subset_append_left _ _) (by rwa [hd] at hx))

/-- For a hash set of exactly the length of leaf `i`'s path, an accepted segment is leaf `i`, or
two different inputs of the tree and of the verifier's chain have the same digest. -/
theorem verifySegment_sound (H : Bytes → Hash) (L : List Bytes) (n i : U64)
    (hn : n.toNat = L.length) (seg : Bytes) (hs : List Hash)
    (hlen : hs.length = (sidesAt L.length L.length i.toNat).length)
    (hv : verifySegment H seg hs n i (rootHash H L) = .ok true) :
    L[i.toNat]? = some seg ∨ Collision H (treeInputs H L.length L ++ seg ::
      foldInputs H (hashSum H [seg]) ((sidesAt L.length L.length i.toNat).zip (hs.map Hash.bytes))) := by
  unfold verifySegment rootHash at hv
  have hi : i.toNat < L.length := by
    by_contra hi
    simp only [verifyProof, show i ≥ n by rw [ge_iff_le, BitVec.le_def]; omega, if_true] at hv
    cases hv
  obtain ⟨c, r, hc, hsh⟩ := sidesAt_shape L.length n.toNat i.toNat
    (hn ▸ (Nat.lt_two_pow L.length).le) (hn ▸ hi)
  have hsh' : sidesAt L.length L.length i.toNat = sidesAt L.length n.toNat i.toNat := by rw [hn]
  have hl : (hs.map Hash.bytes).length = c + (if orphan i.toNat n.toNat c then 1 else 0) + r := by
    rw [List.length_map, hlen, hsh', hsh]; split
    · simp; omega
    · simp
  rw [verifyProof_eq H hc, hl, if_neg (by omega)] at hv
  have h63 : ¬ 63 ≤ c := fun h => by rw [if_pos h] at hv; cases hv
  rw [if_neg h63, if_neg (by omega)] at hv
  have hfold : foldSteps H (hashSum H [seg])
      ((sidesAt L.length L.length i.toNat).zip (hs.map Hash.bytes)) = rootAt H L.length L := by
    have hvs : verifySides i.toNat n.toNat c (c + (if orphan i.toNat n.toNat c then 1 else 0) + r) =
        sidesAt L.length L.length i.toNat := by
      rw [hsh', hsh, verifySides, show c + (if orphan i.toNat n.toNat c then 1 else 0) + r - c -
        (if orphan i.toNat n.toNat c then 1 else 0) = r by omega]
    injection hv with hv
    rw [← hvs]; exact of_decide_eq_true hv
  exact leaf_or_collision H L.length L i.toNat seg _ (Nat.lt_two_pow _).le hi
    (by simp [Hash.length_bytes]) (by rw [List.length_map, hlen]) hfold

/-- Leaf `2` of three one-byte leaves, with its one-element path, is accepted and is the leaf. -/
theorem verifySegment_sound_leafTwo :
    ([[0], [1], [2]] : List Bytes)[2]? = some [2] ∨ Collision lengthPrefixHash
      (treeInputs lengthPrefixHash 3 [[0], [1], [2]] ++ [2] :: foldInputs lengthPrefixHash
        (hashSum lengthPrefixHash [[2]]) ((sidesAt 3 3 2).zip
          ([Hash.ofBytes (rootAt lengthPrefixHash 1 [[0], [1]])].map Hash.bytes))) :=
  verifySegment_sound lengthPrefixHash [[0], [1], [2]] 3 2 rfl [2]
    [Hash.ofBytes (rootAt lengthPrefixHash 1 [[0], [1]])] (by decide) (by decide)

/-- `VerifySegment` accepts, as leaf `2` of three one-byte leaves and with an empty hash set, the
64-byte input of the root's own hash, under a digest with no collision among the inputs hashed
for the root and by this run (which hashes the segment only). -/
theorem verifySegment_accepts_node :
    let H := lengthPrefixHash
    let L : List Bytes := [[0], [1], [2]]
    let seg := rootAt H 1 (L.take 2) ++ rootAt H 1 (L.drop 2)
    seg.length = 64 ∧ verifySegment H seg [] 3 2 (rootHash H L) = .ok true ∧
      L[2]? ≠ some seg ∧ ¬ Collision H (treeInputs H L.length L ++ [seg]) := by
  decide

end Godx.Vm
