import Godx.Vm.Merkle
import Mathlib.Tactic

/-!
# `VerifyProof` as a fold over the sides of its path

`VerifyProof`'s control flow never looks at a hash: which sibling goes on which side, and when
it stops, depend on `proofIndex`, `numLeaves` and the length of the proof set only. This file
computes that control flow in `Nat` and turns the code into a fold (`foldSteps`) over
`(side, sibling)` steps.

* `verifyProofLoop_step`: one iteration of the first loop at a height `h < 64`. The aligned
  block of `2 ^ h` leaves around `proofIndex` is `Complete` or the loop breaks; the sibling's
  side is `sideAt` (bit `h - 1` of the index); `stableEnd` becomes `stableEndAt`.
* `verifyProofLoop_run`: the whole loop, from the number of levels it climbs (`IsClimb`).
  At `63` levels the next iteration computes `1 << 64 = 0` and divides by it.
* `verifyProof_eq`: `VerifyProof` is the fold over `verifySides` (the climbed sides, the
  orphan step, then left siblings only) and a comparison with the root.
-/

namespace Godx.Vm

/-! ## The first loop in `Nat` -/

/-- The aligned block of `2 ^ h` leaves around index `i` lies within `n` leaves. -/
def Complete (i n h : Nat) : Prop := (i / 2 ^ h + 1) * 2 ^ h ≤ n

instance (i n h : Nat) : Decidable (Complete i n h) := inferInstanceAs (Decidable (_ ≤ _))

/-- The last index of the aligned block of height `c` around `i` (`stableEnd`). -/
def stableEndAt (i c : Nat) : Nat := (i / 2 ^ c + 1) * 2 ^ c - 1

/-- The side of the sibling at height `h`: `true` when the running sum is the left child. -/
def sideAt (i h : Nat) : Bool := decide (i % 2 ^ h < 2 ^ (h - 1))

/-- `c` is how high the first loop climbs: the blocks of heights `0..c` around `i` are
complete, the one of height `c + 1` is not. -/
structure IsClimb (i n c : Nat) : Prop where
  complete : ∀ h ≤ c, Complete i n h
  incomplete : ¬ Complete i n (c + 1)

/-- The sides the loop takes at heights `h, h + 1, ..., h + k - 1`. -/
def climbSides (i : Nat) : Nat → Nat → List Bool
  | _, 0 => []
  | h, k + 1 => sideAt i h :: climbSides i (h + 1) k

/-- One hashing step of `VerifyProof`: the sibling `p` on the right (`true`) or the left. -/
def hashStep (H : Bytes → Hash) (sum : Bytes) : Bool × Bytes → Bytes
  | (true, p) => hashSum H [sum, p]
  | (false, p) => hashSum H [p, sum]

/-- The hashing of a whole path. -/
def foldSteps (H : Bytes → Hash) (sum : Bytes) (steps : List (Bool × Bytes)) : Bytes :=
  steps.foldl (hashStep H) sum

@[simp] theorem foldSteps_nil (H : Bytes → Hash) (sum : Bytes) : foldSteps H sum [] = sum := rfl

@[simp] theorem foldSteps_cons (H : Bytes → Hash) (sum : Bytes) (s : Bool × Bytes)
    (steps : List (Bool × Bytes)) :
    foldSteps H sum (s :: steps) = foldSteps H (hashStep H sum s) steps := rfl

theorem foldSteps_append (H : Bytes → Hash) (sum : Bytes) (s t : List (Bool × Bytes)) :
    foldSteps H sum (s ++ t) = foldSteps H (foldSteps H sum s) t := List.foldl_append ..

@[simp] theorem length_climbSides (i h k : Nat) : (climbSides i h k).length = k := by
  induction k generalizing h <;> simp_all [climbSides]

theorem climbSides_succ (i h k : Nat) :
    climbSides i h (k + 1) = climbSides i h k ++ [sideAt i (h + k)] := by
  induction k generalizing h with
  | zero => rfl
  | succ k ih => rw [climbSides, ih, climbSides, Nat.add_right_comm, Nat.add_assoc]; rfl

theorem stableEndAt_zero (i : Nat) : stableEndAt i 0 = i := by simp [stableEndAt]

theorem IsClimb.lt {i n c : Nat} (hc : IsClimb i n c) : i < n := by
  have := hc.complete 0 (Nat.zero_le _); simp [Complete] at this; omega

theorem IsClimb.pow_le {i n c : Nat} (hc : IsClimb i n c) : 2 ^ c ≤ n :=
  le_trans (Nat.le_mul_of_pos_left _ (Nat.succ_pos _)) (hc.complete c le_rfl)

/-! ## The code's loop -/

theorem toNat_one_shiftLeft {h : Nat} (hh : h < 64) : ((1 : U64) <<< h).toNat = 2 ^ h := by
  rw [BitVec.toNat_shiftLeft, show (1 : U64).toNat = 1 from rfl, Nat.one_shiftLeft]
  exact Nat.mod_eq_of_lt (Nat.pow_lt_pow_right (show 1 < 2 by norm_num) hh)

/-- One iteration of `VerifyProof`'s first loop, below height `64`. -/
theorem verifyProofLoop_step (H : Bytes → Hash) {i n : U64} {h : Nat} (h0 : 0 < h)
    (h64 : h < 64) (sum : Bytes) (se : U64) (rest : List Bytes) :
    verifyProofLoop H i n h sum se rest =
      if Complete i.toNat n.toNat h then
        match rest with
        | [] => .ok none
        | p :: rest =>
          verifyProofLoop H i n (h + 1) (hashStep H sum (sideAt i.toNat h, p))
            (BitVec.ofNat 64 (stableEndAt i.toNat h)) rest
      else .ok (some (sum, se, rest)) := by
  have hw := toNat_one_shiftLeft h64
  have hw' := toNat_one_shiftLeft (show h - 1 < 64 by omega)
  have hpos : 0 < 2 ^ h := Nat.two_pow_pos h
  -- the block's end `start + 2 ^ h - 1` does not wrap: `2 ^ h` divides `2 ^ 64`
  have hq : i.toNat / 2 ^ h * 2 ^ h + 2 ^ h ≤ 2 ^ 64 := by
    have : i.toNat / 2 ^ h < 2 ^ 64 / 2 ^ h :=
      Nat.div_lt_div_of_lt_of_dvd (Nat.pow_dvd_pow 2 h64.le) i.isLt
    rw [Nat.pow_div h64.le (by decide)] at this
    calc i.toNat / 2 ^ h * 2 ^ h + 2 ^ h = (i.toNat / 2 ^ h + 1) * 2 ^ h := by ring
      _ ≤ 2 ^ (64 - h) * 2 ^ h := Nat.mul_le_mul_right _ this
      _ = 2 ^ 64 := by rw [← Nat.pow_add]; congr 1; omega
  have hle : i.toNat / 2 ^ h * 2 ^ h ≤ i.toNat := Nat.div_mul_le_self _ _
  have hmod : i.toNat % 2 ^ h = i.toNat - i.toNat / 2 ^ h * 2 ^ h := by
    rw [Nat.mod_def, Nat.mul_comm]
  have hne : (1 : U64) <<< h ≠ 0 := by
    intro he; rw [he] at hw; simp at hw; omega
  rw [verifyProofLoop, goDiv_of_ne hne]
  simp only [bind, Except.bind, pure, Except.pure]
  have hs : (i / ((1 : U64) <<< h) * ((1 : U64) <<< h)).toNat = i.toNat / 2 ^ h * 2 ^ h := by
    rw [BitVec.toNat_mul, BitVec.toNat_udiv, hw, Nat.mod_eq_of_lt (by omega)]
  have hend : i / ((1 : U64) <<< h) * ((1 : U64) <<< h) + ((1 : U64) <<< h) - 1 =
      BitVec.ofNat 64 (stableEndAt i.toNat h) := by
    apply BitVec.eq_of_toNat_eq
    rw [BitVec.toNat_sub, BitVec.toNat_add, hs, hw, BitVec.toNat_ofNat, stableEndAt, Nat.succ_mul,
      show (1 : U64).toNat = 1 from rfl]
    omega
  have hge : BitVec.ofNat 64 (stableEndAt i.toNat h) ≥ n ↔ ¬ Complete i.toNat n.toNat h := by
    rw [Complete, ge_iff_le, BitVec.le_def, BitVec.toNat_ofNat, stableEndAt, Nat.succ_mul]
    omega
  have hside : i - i / ((1 : U64) <<< h) * ((1 : U64) <<< h) < (1 : U64) <<< (h - 1) ↔
      sideAt i.toNat h = true := by
    rw [BitVec.lt_def, BitVec.toNat_sub, hs, hw', sideAt, decide_eq_true_iff, hmod]
    omega
  rw [hend]
  by_cases hc : Complete i.toNat n.toNat h
  · rw [if_neg (by rw [hge]; exact not_not.2 hc), if_pos hc]
    cases rest with
    | nil => rfl
    | cons p rest => simp only [hside]; cases sideAt i.toNat h <;> rfl
  · rw [if_pos (hge.2 hc), if_neg hc]

/-- At height `64` the loop divides by `1 << 64 = 0`. -/
theorem verifyProofLoop_sixtyFour (H : Bytes → Hash) (i n : U64) (sum : Bytes) (se : U64)
    (rest : List Bytes) :
    verifyProofLoop H i n 64 sum se rest = .error (.panic .integerDivideByZero) := by
  rw [verifyProofLoop, show (1 : U64) <<< 64 = 0 by decide]; rfl

/-- The first loop, entered at height `h` with `k` complete levels left to climb: it runs out of
proof elements, or breaks at height `c + 1` after hashing the climbed sides, or (at `c = 63`)
panics. -/
theorem verifyProofLoop_run (H : Bytes → Hash) {i n : U64} {c : Nat}
    (hc : IsClimb i.toNat n.toNat c) :
    ∀ (k h : Nat) (sum : Bytes) (se : U64) (rest : List Bytes), 0 < h → h + k = c + 1 →
      (k = 0 → se = BitVec.ofNat 64 (stableEndAt i.toNat c)) →
      verifyProofLoop H i n h sum se rest =
        if rest.length < k then .ok none
        else if c < 63 then
          .ok (some (foldSteps H sum ((climbSides i.toNat h k).zip rest),
            BitVec.ofNat 64 (stableEndAt i.toNat c), rest.drop k))
        else .error (.panic .integerDivideByZero) := by
  have hc64 : c < 64 := by
    have := lt_of_le_of_lt hc.pow_le n.isLt
    exact (Nat.pow_lt_pow_iff_right (by norm_num)).1 this
  intro k
  induction k with
  | zero =>
    intro h sum se rest h0 hk hse
    rw [if_neg (Nat.not_lt_zero _), hse rfl]
    by_cases h63 : c < 63
    · rw [verifyProofLoop_step H h0 (by omega), if_neg (by rw [show h = c + 1 by omega]; exact
        hc.incomplete), if_pos h63]
      rfl
    · rw [show h = 64 by omega, verifyProofLoop_sixtyFour, if_neg h63]
  | succ k ih =>
    intro h sum se rest h0 hk _
    rw [verifyProofLoop_step H h0 (by omega), if_pos (hc.complete h (by omega))]
    cases rest with
    | nil => simp
    | cons p rest =>
      dsimp only
      rw [ih (h + 1) (hashStep H sum (sideAt i.toNat h, p)) (BitVec.ofNat 64 (stableEndAt i.toNat h))
        rest (by omega) (by omega) fun _ => by rw [show h = c by omega]]
      simp [climbSides]

/-! ## `VerifyProof` -/

/-- The orphan step is taken: the largest full subtree around `i` does not end the tree. -/
def orphan (i n c : Nat) : Bool := decide (stableEndAt i c ≠ n - 1)

/-- The sides `VerifyProof` hashes in for `k` proof elements after the segment: the climbed
sides, the orphan step's right sibling, then left siblings only. -/
def verifySides (i n c k : Nat) : List Bool :=
  climbSides i 1 c ++ (if orphan i n c then [true] else []) ++
    List.replicate (k - c - (if orphan i n c then 1 else 0)) false

theorem verifyProofTail_eq (H : Bytes → Hash) (sum : Bytes) (rest : List Bytes) :
    verifyProofTail H sum rest = foldSteps H sum ((List.replicate rest.length false).zip rest) := by
  induction rest generalizing sum with
  | nil => rfl
  | cons p rest ih => exact ih _

theorem foldSteps_zip_append (H : Bytes → Hash) (sum : Bytes) (s t : List Bool) (rest : List Bytes)
    (hs : s.length ≤ rest.length) :
    foldSteps H sum ((s ++ t).zip rest) =
      foldSteps H (foldSteps H sum (s.zip rest)) (t.zip (rest.drop s.length)) := by
  conv_lhs => rw [← List.take_append_drop s.length rest]
  rw [List.zip_append (by simp [hs]), foldSteps_append, List.zip_eq_zip_take_min s rest]
  simp [hs]

/-- `VerifyProof` on a non-nil root and a non-empty proof set, once the loop's height `c` is
known: too few elements return `false`, `c = 63` panics, and otherwise the result compares the
fold over `verifySides` with the root. -/
theorem verifyProof_eq (H : Bytes → Hash) {i n : U64} {c : Nat} (hc : IsClimb i.toNat n.toNat c)
    (root seg : Bytes) (rest : List Bytes) :
    verifyProof H (some root) (seg :: rest) i n =
      if rest.length < c then .ok false
      else if 63 ≤ c then .error (.panic .integerDivideByZero)
      else if rest.length < c + (if orphan i.toNat n.toNat c then 1 else 0) then .ok false
      else .ok (decide (foldSteps H (hashSum H [seg])
        ((verifySides i.toNat n.toNat c rest.length).zip rest) = root)) := by
  have hin := hc.lt
  have hrun := verifyProofLoop_run H hc c 1 (hashSum H [seg]) i rest (by omega) (by omega)
    fun hk => by subst hk; simp [stableEndAt_zero]
  have hn1 : (n - 1).toNat = n.toNat - 1 := by
    rw [BitVec.toNat_sub, show (1 : U64).toNat = 1 from rfl]; omega
  have hse : BitVec.ofNat 64 (stableEndAt i.toNat c) ≠ n - 1 ↔ orphan i.toNat n.toNat c := by
    have : stableEndAt i.toNat c < 2 ^ 64 := by
      have := hc.complete c le_rfl; simp only [Complete] at this
      have := n.isLt; unfold stableEndAt; omega
    rw [orphan, decide_eq_true_iff]
    refine not_congr ⟨fun h => ?_, fun h => ?_⟩
    · rw [← hn1, ← h, BitVec.toNat_ofNat, Nat.mod_eq_of_lt this]
    · apply BitVec.eq_of_toNat_eq; rw [hn1, BitVec.toNat_ofNat, Nat.mod_eq_of_lt this, h]
  have hi : ¬ i ≥ n := by rw [ge_iff_le, BitVec.le_def]; omega
  simp only [verifyProof, if_neg hi, bind, Except.bind, pure, Except.pure, hrun]
  by_cases hl : rest.length < c
  · simp [hl]
  by_cases h63 : 63 ≤ c
  · simp [hl, h63, show ¬ c < 63 by omega]
  simp only [hl, h63, if_false, show c < 63 by omega, if_true]
  rw [verifySides, List.append_assoc, foldSteps_zip_append _ _ _ _ _ (by simp; omega)]
  simp only [length_climbSides]
  cases ho : orphan i.toNat n.toNat c with
  | true =>
    rw [if_pos (hse.2 ho)]
    simp only [if_true]
    have h1 := congrArg List.length (List.take_append_drop c rest)
    cases hd : rest.drop c with
    | nil =>
      rw [hd, List.length_append, List.length_nil, List.length_take] at h1
      simp only [show rest.length < c + 1 by omega, if_true]
    | cons p rest' =>
      rw [hd, List.length_append, List.length_cons, List.length_take,
        Nat.min_eq_left (by omega)] at h1
      simp only [show ¬ rest.length < c + 1 by omega, if_false, verifyProofTail_eq,
        List.singleton_append, List.zip_cons_cons, foldSteps_cons]
      rw [show rest.length - c - 1 = rest'.length by omega]
      rfl
  | false =>
    rw [if_neg (fun h => absurd (hse.1 h) (by simp [ho]))]
    simp only [Bool.false_eq_true, if_false, Nat.add_zero, hl, List.nil_append, verifyProofTail_eq,
      List.length_drop, Nat.sub_zero]

end Godx.Vm
