import Godx.Vm.Proof.Climb

/-!
# The Merkle tree `VerifyProof` checks against, and its honest proofs

`rootAt H a L` is the Merkle root of the leaves `L` in a tree of height at most `a`: a leaf hashes
as `HashSum(leaf)`, a node as `HashSum(left, right)`, and the left subtree of `n ≥ 2` leaves holds
the largest power of two below `n` (levels where `L` fits in the lower half hash nothing).
`merkleRoot H L` takes `a = L.length`. `sidesAt a n i` and `proofAt H a L i` are the sides and
the sibling roots on leaf `i`'s path, bottom-up.

* `sidesAt_shape`: the tree path's sides are `VerifyProof`'s (`verifySides`): the sides the first
  loop climbs, the orphan step, then left siblings, one per proof element.
* `foldSteps_proofAt`: hashing leaf `i` along its honest path gives the root.
* `verifyProof_merkle`: `VerifyProof` accepts leaf `i` with its honest path whenever the leaf
  count is below `2 ^ 63`; `verifyProof_noPanic`: below that count it never panics.
-/

namespace Godx.Vm

/-! ## The tree -/

/-- The Merkle root of `L` in a tree of height at most `a`. -/
def rootAt (H : Bytes → Hash) : Nat → List Bytes → Bytes
  | 0, L => hashSum H [L.headD []]
  | a + 1, L =>
    if L.length ≤ 2 ^ a then rootAt H a L
    else hashSum H [rootAt H a (L.take (2 ^ a)), rootAt H a (L.drop (2 ^ a))]

/-- The Merkle root of the leaves `L`. -/
def merkleRoot (H : Bytes → Hash) (L : List Bytes) : Bytes := rootAt H L.length L

/-- The sides of leaf `i`'s path among `n` leaves, bottom-up (`true`: the path is the left
child). -/
def sidesAt : Nat → Nat → Nat → List Bool
  | 0, _, _ => []
  | a + 1, n, i =>
    if n ≤ 2 ^ a then sidesAt a n i
    else if i < 2 ^ a then sidesAt a (2 ^ a) i ++ [true]
    else sidesAt a (n - 2 ^ a) (i - 2 ^ a) ++ [false]

/-- The roots of the sibling subtrees on leaf `i`'s path, bottom-up: the honest proof. -/
def proofAt (H : Bytes → Hash) : Nat → List Bytes → Nat → List Bytes
  | 0, _, _ => []
  | a + 1, L, i =>
    if L.length ≤ 2 ^ a then proofAt H a L i
    else if i < 2 ^ a then proofAt H a (L.take (2 ^ a)) i ++ [rootAt H a (L.drop (2 ^ a))]
    else proofAt H a (L.drop (2 ^ a)) (i - 2 ^ a) ++ [rootAt H a (L.take (2 ^ a))]

theorem length_hashSum (H : Bytes → Hash) (data : List Bytes) : (hashSum H data).length = 32 :=
  (H _).length_bytes

theorem length_rootAt (H : Bytes → Hash) (a : Nat) (L : List Bytes) : (rootAt H a L).length = 32 := by
  induction a generalizing L with
  | zero => exact length_hashSum ..
  | succ a ih => simp only [rootAt]; split_ifs; exacts [ih L, length_hashSum ..]

theorem length_foldSteps (H : Bytes → Hash) (sum : Bytes) (hs : sum.length = 32) :
    ∀ steps : List (Bool × Bytes), (foldSteps H sum steps).length = 32
  | [] => hs
  | (b, _) :: steps => by
    rw [foldSteps_cons]; exact length_foldSteps H _ (by cases b <;> exact length_hashSum ..) steps

theorem length_proofAt (H : Bytes → Hash) :
    ∀ (a : Nat) (L : List Bytes) (i : Nat), (proofAt H a L i).length = (sidesAt a L.length i).length
  | 0, _, _ => rfl
  | a + 1, L, i => by
    have hd : (L.drop (2 ^ a)).length = L.length - 2 ^ a := List.length_drop ..
    simp only [proofAt, sidesAt]
    split_ifs with h1 h2
    · exact length_proofAt H a L i
    · simp [length_proofAt H a, List.length_take, Nat.min_eq_left (Nat.le_of_not_le h1)]
    · simp [length_proofAt H a, hd]

theorem length_of_mem_proofAt (H : Bytes → Hash) :
    ∀ (a : Nat) (L : List Bytes) (i : Nat), ∀ p ∈ proofAt H a L i, p.length = 32
  | 0, _, _ => nofun
  | a + 1, L, i => by
    simp only [proofAt]
    split_ifs
    · exact length_of_mem_proofAt H a L i
    all_goals
      simp only [List.mem_append, List.mem_singleton]
      rintro p (hp | rfl)
      exacts [length_of_mem_proofAt H a _ _ p hp, length_rootAt ..]

/-- Hashing leaf `i` along its honest path gives the root. -/
theorem foldSteps_proofAt (H : Bytes → Hash) :
    ∀ (a : Nat) (L : List Bytes) (i : Nat) (seg : Bytes), L.length ≤ 2 ^ a → L[i]? = some seg →
      foldSteps H (hashSum H [seg]) ((sidesAt a L.length i).zip (proofAt H a L i)) = rootAt H a L
  | 0, L, i, seg, hL, hs => by
    obtain ⟨hi, rfl⟩ := List.getElem?_eq_some_iff.1 hs
    match L, hL, hi with
    | [x], _, _ => match i, hi with | 0, _ => rfl
  | a + 1, L, i, seg, hL, hs => by
    have hi := (List.getElem?_eq_some_iff.1 hs).1
    simp only [sidesAt, proofAt, rootAt]
    split_ifs with h1 h2
    · exact foldSteps_proofAt H a L i seg h1 hs
    · have ht : (L.take (2 ^ a)).length = 2 ^ a := by simp; omega
      have := foldSteps_proofAt H a (L.take (2 ^ a)) i seg ht.le (by rw [List.getElem?_take, if_pos h2, hs])
      rw [ht] at this
      rw [List.zip_append (by rw [length_proofAt, ht]), foldSteps_append, this]; rfl
    · have hd : (L.drop (2 ^ a)).length = L.length - 2 ^ a := List.length_drop ..
      have := foldSteps_proofAt H a (L.drop (2 ^ a)) (i - 2 ^ a) seg (by omega)
        (by rw [List.getElem?_drop, Nat.add_sub_cancel' (by omega), hs])
      rw [hd] at this
      rw [List.zip_append (by rw [length_proofAt, hd]), foldSteps_append, this]; rfl

/-! ## The tree path is the loop's path -/

/-- Inside a block of `2 ^ b` leaves every aligned block below it is complete. -/
theorem complete_of_lt_pow {i b h : Nat} (hi : i < 2 ^ b) (hh : h ≤ b) : Complete i (2 ^ b) h := by
  unfold Complete
  have h1 : i / 2 ^ h < 2 ^ b / 2 ^ h := Nat.div_lt_div_of_lt_of_dvd (Nat.pow_dvd_pow 2 hh) hi
  rw [Nat.pow_div hh (by norm_num)] at h1
  calc (i / 2 ^ h + 1) * 2 ^ h ≤ 2 ^ (b - h) * 2 ^ h := Nat.mul_le_mul_right _ h1
    _ = 2 ^ b := by rw [← Nat.pow_add, Nat.sub_add_cancel hh]

theorem not_complete_of_lt_pow {i n b : Nat} (hi : i < 2 ^ b) (hn : n < 2 ^ b) :
    ¬ Complete i n b := by
  unfold Complete; rw [Nat.div_eq_of_lt hi]; omega

/-- Moving a block of `2 ^ a` leaves off the front: `2 ^ h` divides `2 ^ a`. -/
theorem div_pow_sub {i a h : Nat} (hh : h ≤ a) (hi : 2 ^ a ≤ i) :
    i / 2 ^ h = (i - 2 ^ a) / 2 ^ h + 2 ^ (a - h) := by
  have e : i = (i - 2 ^ a) + 2 ^ (a - h) * 2 ^ h := by
    rw [← Nat.pow_add, Nat.sub_add_cancel hh]; omega
  conv_lhs => rw [e]
  exact Nat.add_mul_div_right _ _ (Nat.two_pow_pos h)

theorem complete_sub {i n a h : Nat} (hh : h ≤ a) (hi : 2 ^ a ≤ i) (hn : 2 ^ a ≤ n) :
    Complete i n h ↔ Complete (i - 2 ^ a) (n - 2 ^ a) h := by
  unfold Complete
  have e : 2 ^ (a - h) * 2 ^ h = 2 ^ a := by rw [← Nat.pow_add, Nat.sub_add_cancel hh]
  rw [div_pow_sub hh hi, Nat.add_right_comm, Nat.add_mul, e]
  omega

theorem stableEndAt_sub {i a h : Nat} (hh : h ≤ a) (hi : 2 ^ a ≤ i) :
    stableEndAt i h = stableEndAt (i - 2 ^ a) h + 2 ^ a := by
  unfold stableEndAt
  have e : 2 ^ (a - h) * 2 ^ h = 2 ^ a := by rw [← Nat.pow_add, Nat.sub_add_cancel hh]
  have := Nat.two_pow_pos h
  rw [div_pow_sub hh hi, Nat.add_right_comm, Nat.add_mul, e]
  have : 1 ≤ ((i - 2 ^ a) / 2 ^ h + 1) * 2 ^ h := Nat.one_le_iff_ne_zero.2 (by positivity)
  omega

theorem sideAt_sub {i a h : Nat} (hh : h ≤ a) (hi : 2 ^ a ≤ i) : sideAt (i - 2 ^ a) h = sideAt i h := by
  unfold sideAt
  have e : i = (i - 2 ^ a) + 2 ^ (a - h) * 2 ^ h := by
    rw [← Nat.pow_add, Nat.sub_add_cancel hh]; omega
  conv_rhs => rw [e, Nat.add_mul_mod_self_right]

theorem climbSides_sub {i a : Nat} (hi : 2 ^ a ≤ i) :
    ∀ h k, h + k ≤ a + 1 → climbSides (i - 2 ^ a) h k = climbSides i h k
  | _, 0, _ => rfl
  | h, k + 1, hk => by
    rw [climbSides, climbSides, sideAt_sub (by omega) hi, climbSides_sub hi (h + 1) k (by omega)]

/-- The path in a perfect tree climbs all the way. -/
theorem sidesAt_pow : ∀ (a i : Nat), i < 2 ^ a → sidesAt a (2 ^ a) i = climbSides i 1 a
  | 0, _, _ => rfl
  | a + 1, i, hi => by
    have hlt : ¬ 2 ^ (a + 1) ≤ 2 ^ a := by rw [Nat.pow_succ]; have := Nat.two_pow_pos a; omega
    rw [sidesAt, if_neg hlt, climbSides_succ, Nat.add_comm 1 a]
    have hs : sideAt i (a + 1) = decide (i < 2 ^ a) := by
      rw [sideAt, Nat.mod_eq_of_lt hi, Nat.add_sub_cancel]
    split_ifs with h
    · rw [sidesAt_pow a i h, hs, decide_eq_true h]
    · rw [show 2 ^ (a + 1) - 2 ^ a = 2 ^ a by rw [Nat.pow_succ]; omega,
        sidesAt_pow a (i - 2 ^ a) (by rw [Nat.pow_succ] at hi; omega),
        climbSides_sub (Nat.le_of_not_lt h) 1 a (by omega), hs, decide_eq_false h]

/-- Leaf `i`'s path among `n` leaves is `VerifyProof`'s: the first loop climbs `c` levels, the
orphan step follows, and the `r` remaining siblings are all on the left. -/
theorem sidesAt_shape : ∀ (a n i : Nat), n ≤ 2 ^ a → i < n →
    ∃ c r, IsClimb i n c ∧
      sidesAt a n i = climbSides i 1 c ++ (if orphan i n c then [true] else []) ++
        List.replicate r false
  | 0, n, i, hn, hi => by
    obtain rfl : n = 1 := by simp at hn; omega
    obtain rfl : i = 0 := by omega
    exact ⟨0, 0, ⟨fun h hh => by simp [Complete, Nat.le_zero.1 hh], by decide⟩, by decide⟩
  | a + 1, n, i, hn, hi => by
    have hpa := Nat.two_pow_pos a
    have hpow : 2 ^ (a + 1) = 2 * 2 ^ a := Nat.pow_succ'
    by_cases hfull : n = 2 ^ (a + 1)
    · -- a perfect tree: the path climbs all the way
      subst hfull
      have h12 : 2 ^ (a + 1) < 2 ^ (a + 2) := Nat.pow_lt_pow_right (show 1 < 2 by norm_num) (by omega)
      refine ⟨a + 1, 0, ⟨fun h hh => complete_of_lt_pow hi hh,
        not_complete_of_lt_pow (lt_trans hi h12) h12⟩, ?_⟩
      have ho : orphan i (2 ^ (a + 1)) (a + 1) = false := by
        simp [orphan, stableEndAt, Nat.div_eq_of_lt hi]
      simp [sidesAt_pow (a + 1) i hi, ho]
    rw [sidesAt]
    split_ifs with h1 h2
    · exact sidesAt_shape a n i h1 hi
    · -- leaf `i` is in the perfect left subtree, the right one is not empty
      rw [sidesAt_pow a i h2]
      refine ⟨a, 0, ⟨fun h hh => le_trans (complete_of_lt_pow h2 hh) (by omega),
        not_complete_of_lt_pow (by omega) (by omega)⟩, ?_⟩
      have ho : orphan i n a = true := by
        simp [orphan, stableEndAt, Nat.div_eq_of_lt h2]; omega
      simp [ho]
    · -- leaf `i` is in the right subtree, `2 ^ a` leaves further on
      have hia : 2 ^ a ≤ i := Nat.le_of_not_lt h2
      obtain ⟨c, r, hc, hs⟩ := sidesAt_shape a (n - 2 ^ a) (i - 2 ^ a) (by omega) (by omega)
      have hca : c < a := by
        have := hc.pow_le
        exact (Nat.pow_lt_pow_iff_right (show 1 < 2 by norm_num)).1 (show 2 ^ c < 2 ^ a by omega)
      have hc' : IsClimb i n c :=
        ⟨fun h hh => (complete_sub (by omega) hia (by omega)).2 (hc.complete h hh),
          fun h' => hc.incomplete ((complete_sub (by omega) hia (by omega)).1 h')⟩
      have ho : orphan i n c = orphan (i - 2 ^ a) (n - 2 ^ a) c := by
        have : stableEndAt (i - 2 ^ a) c + 2 ^ a = n - 1 ↔
            stableEndAt (i - 2 ^ a) c = n - 2 ^ a - 1 := by omega
        simp only [orphan, stableEndAt_sub (by omega : c ≤ a) hia, ne_eq, this]
      refine ⟨c, r + 1, hc', ?_⟩
      rw [hs, ho, climbSides_sub hia 1 c (by omega), List.replicate_succ']
      simp

/-! ## Completeness -/

/-- `VerifyProof` accepts every leaf with its honest path, below `2 ^ 63` leaves. -/
theorem verifyProof_merkle (H : Bytes → Hash) {L : List Bytes} {i n : U64}
    (hn : n.toNat = L.length) (h63 : n.toNat < 2 ^ 63) {seg : Bytes} (hs : L[i.toNat]? = some seg) :
    verifyProof H (some (merkleRoot H L)) (seg :: proofAt H L.length L i.toNat) i n = .ok true := by
  have hi := (List.getElem?_eq_some_iff.1 hs).1
  obtain ⟨c, r, hc, hsh⟩ := sidesAt_shape L.length n.toNat i.toNat
    (hn ▸ (Nat.lt_two_pow L.length).le) (hn ▸ hi)
  have hc63 : c < 63 :=
    (Nat.pow_lt_pow_iff_right (show 1 < 2 by norm_num)).1 (lt_of_le_of_lt hc.pow_le h63)
  have hlen : (proofAt H L.length L i.toNat).length =
      c + (if orphan i.toNat n.toNat c then 1 else 0) + r := by
    rw [length_proofAt, show sidesAt L.length L.length i.toNat = sidesAt L.length n.toNat i.toNat by
      rw [hn], hsh]
    split
    · simp; omega
    · simp
  rw [verifyProof_eq H hc, if_neg (by omega), if_neg (by omega), if_neg (by omega), verifySides,
    hlen, show c + (if orphan i.toNat n.toNat c then 1 else 0) + r - c -
      (if orphan i.toNat n.toNat c then 1 else 0) = r by omega, ← hsh, hn,
    foldSteps_proofAt H _ L _ seg (Nat.lt_two_pow _).le hs, merkleRoot]
  simp

/-- Below `2 ^ 63` leaves `VerifyProof` climbs below height `63`, so never shifts by `64` and
never divides by zero. -/
theorem verifyProof_noPanic (H : Bytes → Hash) (root : Option Bytes) (proofSet : List Bytes)
    {i n : U64} (h63 : n.toNat < 2 ^ 63) : NoPanic (verifyProof H root proofSet i n) := by
  rcases root with _ | root
  · exact noPanic_ok _
  by_cases hi : i ≥ n
  · simp only [verifyProof, if_pos hi]; exact noPanic_ok _
  rcases proofSet with _ | ⟨seg, rest⟩
  · simp only [verifyProof, if_neg hi]; exact noPanic_ok _
  obtain ⟨c, -, hc, -⟩ := sidesAt_shape n.toNat n.toNat i.toNat (Nat.lt_two_pow _).le
    (by rw [ge_iff_le, BitVec.le_def] at hi; omega)
  have hc63 : ¬ 63 ≤ c := fun h => absurd (lt_of_le_of_lt hc.pow_le h63)
    (not_lt.2 (Nat.pow_le_pow_right (by norm_num) h))
  simp only [verifyProof_eq H hc, hc63, if_false]
  split_ifs <;> exact noPanic_ok _

/-! ## The division by `1 << 64` -/

/-- The first loop climbs fewer than `64` levels: `2 ^ c` leaves fit below `numLeaves`. -/
theorem climb_lt_sixtyFour {i n : U64} {c : Nat} (hc : IsClimb i.toNat n.toNat c) : c < 64 :=
  (Nat.pow_lt_pow_iff_right (show 1 < 2 by norm_num)).1 (lt_of_le_of_lt hc.pow_le n.isLt)

/-- The first loop climbs `63` levels exactly when the index is below `2 ^ 63` and there are at
least `2 ^ 63` leaves: the aligned block of `2 ^ 63` leaves around the index is then the lower
half of all `2 ^ 64` indices. -/
theorem sixtyThree_le_climb_iff {i n : U64} {c : Nat} (hc : IsClimb i.toNat n.toNat c) :
    63 ≤ c ↔ i.toNat < 2 ^ 63 ∧ 2 ^ 63 ≤ n.toNat := by
  have hn := n.isLt
  have hc64 := climb_lt_sixtyFour hc
  constructor
  · intro h63
    have h := hc.complete 63 (by omega)
    unfold Complete at h
    norm_num at h hn ⊢
    omega
  · rintro ⟨hi, hn63⟩
    by_contra hlt
    exact hc.incomplete (le_trans (complete_of_lt_pow hi (by omega)) hn63)

/-- `VerifyProof` returns a boolean on every input but one family: when the root is not nil, the
index is below `2 ^ 63`, there are at least `2 ^ 63` leaves and the proof set has `64` elements
or more, its first loop climbs `63` complete levels and then divides by `1 << 64 = 0`. -/
theorem verifyProof_divides_by_zero (H : Bytes → Hash) (root : Option Bytes)
    (proofSet : List Bytes) (i n : U64) :
    (∀ e, verifyProof H root proofSet i n = .error e → e = .panic .integerDivideByZero) ∧
      (verifyProof H root proofSet i n = .error (.panic .integerDivideByZero) ↔
        root.isSome ∧ i.toNat < 2 ^ 63 ∧ 2 ^ 63 ≤ n.toNat ∧ 64 ≤ proofSet.length) := by
  rcases root with _ | root
  · exact ⟨nofun, iff_of_false nofun fun h => absurd h.1 Bool.false_ne_true⟩
  by_cases hi : i ≥ n
  · dsimp only [verifyProof]
    rw [if_pos hi]
    rw [ge_iff_le, BitVec.le_def] at hi
    exact ⟨nofun, iff_of_false nofun fun ⟨_, h1, h2, _⟩ => by omega⟩
  rcases proofSet with _ | ⟨seg, rest⟩
  · dsimp only [verifyProof]
    rw [if_neg hi]
    exact ⟨nofun, iff_of_false nofun fun h => nomatch h.2.2.2⟩
  obtain ⟨c, -, hc, -⟩ := sidesAt_shape n.toNat n.toNat i.toNat (Nat.lt_two_pow _).le
    (by rw [ge_iff_le, BitVec.le_def] at hi; omega)
  have key := sixtyThree_le_climb_iff hc
  have hc64 := climb_lt_sixtyFour hc
  rw [verifyProof_eq H hc, List.length_cons]
  by_cases hl : rest.length < c
  · rw [if_pos hl]
    exact ⟨nofun, iff_of_false nofun fun ⟨_, h1, h2, _⟩ => by
      have := key.2 ⟨h1, h2⟩; omega⟩
  rw [if_neg hl]
  by_cases h63 : 63 ≤ c
  · obtain ⟨h1, h2⟩ := key.1 h63
    rw [if_pos h63]
    exact ⟨fun _ he => (Except.error.inj he).symm, iff_of_true rfl ⟨rfl, h1, h2, by omega⟩⟩
  rw [if_neg h63]
  split <;> split <;>
    exact ⟨nofun, iff_of_false nofun fun ⟨_, h1, h2, _⟩ => h63 (key.2 ⟨h1, h2⟩)⟩

end Godx.Vm
