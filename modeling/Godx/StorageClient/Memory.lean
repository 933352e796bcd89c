import Godx.StorageClient.UploadCleanup

/-!
# The memory an upload segment gives back

What `cleanupUploadSegment`'s release loop does to the slots, and what
`retrieveDataAndDispatchSegment` passes to `client.memoryManager.Return`.

* `releaseStep_inv`, `releaseLoop_inv`: after `m` iterations the loop has set, and dropped the
  sector of, exactly the unset slots below `m` with at least `max W 0` unset slots before them
  (`DropsAt`); `sectorsAvailable` counts the unset slots it kept.
* `cleanupUploadSegment_release`: so with `F` unset slots it keeps the first
  `K = min F (max W 0)`, releases `SectorSize · (F - K)`, and a second call releases nothing.
* `retrieveDataAndDispatchSegment_memoryReleased`: on every path `memoryReleased` grows by
  exactly what the call passes to `Return`.
* `retrieveDataAndDispatchSegment_leaks`: of the paths that end before `dispatchSegment`, a
  failed `ec.Encode` never returns the erasure-coding memory, a short encoding or a missing cipher
  key never returns the completed sectors' memory, and a failed `ErasureCode()` returns nothing.
-/

namespace Godx.StorageClient

/-! ## Unset slots -/

/-- `K`: the unset slots the release loop keeps, one per remaining worker. -/
def UploadSegment.keptSlots (uc : UploadSegment) : Nat :=
  min (uc.sectorSlotsStatus.count false) uc.workersRemain.toNat

/-- The unset slots before slot `i`. -/
def unsetBefore (S : List Bool) (i : Nat) : Nat := (S.take i).count false

theorem unsetBefore_zero (S : List Bool) : unsetBefore S 0 = 0 := by simp [unsetBefore]

theorem unsetBefore_succ (S : List Bool) (i : Nat) :
    unsetBefore S (i + 1) = unsetBefore S i + if S[i]? = some false then 1 else 0 := by
  rw [unsetBefore, unsetBefore, List.take_succ, List.count_append]
  cases S[i]? with
  | none => simp
  | some b => cases b <;> simp

theorem unsetBefore_length (S : List Bool) : unsetBefore S S.length = S.count false := by
  simp [unsetBefore]

theorem unsetBefore_lt_count {S : List Bool} {i : Nat} (h : S[i]? = some false) :
    unsetBefore S i < S.count false := by
  have h1 := unsetBefore_succ S i
  have h2 : unsetBefore S (i + 1) ≤ S.count false := (List.take_sublist _ _).count_le _
  rw [if_pos h] at h1
  omega

theorem length_eq_of_getElem?_eq_none_iff {α β : Type} {a : List α} {b : List β}
    (h : ∀ i : Nat, a[i]? = none ↔ b[i]? = none) : a.length = b.length := by
  have h1 := (h b.length).2 (List.getElem?_eq_none_iff.2 le_rfl)
  have h2 := (h a.length).1 (List.getElem?_eq_none_iff.2 le_rfl)
  rw [List.getElem?_eq_none_iff] at h1 h2
  omega

/-- The release loop drops slot `i` of `S` when `k` workers remain: the slot is unset and at
least `k` unset slots come before it. -/
def DropsAt (S : List Bool) (k i : Nat) : Prop := S[i]? = some false ∧ k ≤ unsetBefore S i

instance (S : List Bool) (k i : Nat) : Decidable (DropsAt S k i) :=
  inferInstanceAs (Decidable (_ ∧ _))

/-- Away from slot `m`, the slots below `m + 1` are those below `m`. -/
theorem lt_succ_and_iff_of_ne {i m : Nat} {P : Prop} (hi : i ≠ m) :
    (i < m + 1 ∧ P) ↔ (i < m ∧ P) :=
  and_congr_left fun _ => ⟨fun _ => by omega, fun _ => by omega⟩

/-- When slot `m` is not dropped, the drops below `m + 1` are those below `m`. -/
theorem lt_succ_and_dropsAt_iff {S : List Bool} {k m : Nat} (h : ¬ DropsAt S k m) (i : Nat) :
    (i < m + 1 ∧ DropsAt S k i) ↔ (i < m ∧ DropsAt S k i) := by
  by_cases hi : i = m
  · subst hi; simp [h]
  · exact lt_succ_and_iff_of_ne hi

/-! ## The release loop -/

/-- The release loop of `cleanupUploadSegment uc` after `m` iterations: the slots below `m` it
drops are set with no sector, `sectorsAvailable` counts the unset slots kept, `memoryReleased`
the ones dropped. `k = max W 0` is `uc.workersRemain.toNat`. -/
structure ReleaseInv (uc : UploadSegment) (m : Nat) (l : ReleaseLoop) : Prop where
  workersRemain_eq : l.uc.workersRemain = uc.workersRemain
  memoryReleased_eq : l.uc.memoryReleased = uc.memoryReleased
  slots : ∀ i, l.uc.sectorSlotsStatus[i]? =
    if i < m ∧ DropsAt uc.sectorSlotsStatus uc.workersRemain.toNat i then some true
    else uc.sectorSlotsStatus[i]?
  physical : ∀ i, l.uc.physicalSegmentData[i]? =
    if i < m ∧ DropsAt uc.sectorSlotsStatus uc.workersRemain.toNat i then some []
    else uc.physicalSegmentData[i]?
  available : l.sectorsAvailable =
    (min (unsetBefore uc.sectorSlotsStatus m) uc.workersRemain.toNat : Nat)
  released : l.memoryReleased = sectorSize * (unsetBefore uc.sectorSlotsStatus m -
    min (unsetBefore uc.sectorSlotsStatus m) uc.workersRemain.toNat)
  unset : l.uc.sectorSlotsStatus.count false + unsetBefore uc.sectorSlotsStatus m =
    min (unsetBefore uc.sectorSlotsStatus m) uc.workersRemain.toNat +
      uc.sectorSlotsStatus.count false

theorem releaseInv_zero (uc : UploadSegment) : ReleaseInv uc 0 ⟨uc, 0, 0⟩ where
  workersRemain_eq := rfl
  memoryReleased_eq := rfl
  slots i := by simp
  physical i := by simp
  available := by simp [unsetBefore_zero]
  released := by simp [unsetBefore_zero]
  unset := by simp [unsetBefore_zero]

/-- One iteration of the release loop keeps `ReleaseInv`, without panicking while
`physicalSegmentData` has a sector for every slot. -/
theorem releaseStep_inv {uc : UploadSegment} {m : Nat} {l : ReleaseLoop}
    (hm : m < uc.sectorSlotsStatus.length)
    (hP : uc.sectorSlotsStatus.length ≤ uc.physicalSegmentData.length) (h : ReleaseInv uc m l) :
    ∃ l', releaseStep l m = .ok l' ∧ ReleaseInv uc (m + 1) l' := by
  have hSm : l.uc.sectorSlotsStatus[m]? = uc.sectorSlotsStatus[m]? := by rw [h.slots]; simp
  have hPm : l.uc.physicalSegmentData[m]? = uc.physicalSegmentData[m]? := by rw [h.physical]; simp
  have hr := unsetBefore_succ uc.sectorSlotsStatus m
  obtain ⟨b, hb⟩ : ∃ b, uc.sectorSlotsStatus[m]? = some b :=
    ⟨_, List.getElem?_eq_getElem hm⟩
  have hget : goGet l.uc.sectorSlotsStatus m = .ok b := by simp only [goGet, hSm, hb]
  cases b with
  | true =>
    -- a set slot: the iteration changes nothing
    have hnot : ¬ DropsAt uc.sectorSlotsStatus uc.workersRemain.toNat m := fun hd => by
      simp [DropsAt, hb] at hd
    have hiff := lt_succ_and_dropsAt_iff hnot
    simp only [hb, Option.some.injEq, Bool.true_eq_false, ↓reduceIte, Nat.add_zero] at hr
    refine ⟨l, by rw [releaseStep, hget]; rfl,
      ⟨h.1, h.2, fun i => ?_, fun i => ?_, ?_, ?_, ?_⟩⟩
    · simp only [h.slots, hiff]
    · simp only [h.physical, hiff]
    · rw [h.available, hr]
    · rw [h.released, hr]
    · rw [hr]; exact h.unset
  | false =>
    simp only [hb, ↓reduceIte] at hr
    have hW := h.workersRemain_eq
    have hleS : m < l.uc.sectorSlotsStatus.length := (List.getElem?_eq_some_iff.1 (hSm.trans hb)).1
    by_cases hd : uc.workersRemain.toNat ≤ unsetBefore uc.sectorSlotsStatus m
    · -- an unset slot past the ones the workers keep: dropped
      have hdrop : DropsAt uc.sectorSlotsStatus uc.workersRemain.toNat m := ⟨hb, hd⟩
      have hleP : m < l.uc.physicalSegmentData.length :=
        (List.getElem?_eq_some_iff.1 (hPm.trans (List.getElem?_eq_getElem (by omega)))).1
      have hcond : l.uc.workersRemain ≤ l.sectorsAvailable := by rw [h.available, hW]; omega
      have hc := countP_set (· == false) l.uc.sectorSlotsStatus m false true (hSm.trans hb)
      simp only [beq_self_eq_true, Bool.true_beq, ↓reduceIte, Bool.false_eq_true] at hc
      refine ⟨{ l with
          memoryReleased := l.memoryReleased + sectorSize,
          uc := { l.uc with
            physicalSegmentData := l.uc.physicalSegmentData.set m [],
            sectorSlotsStatus := l.uc.sectorSlotsStatus.set m true } }, ?_,
        ⟨h.1, h.2, fun i => ?_, fun i => ?_, ?_, ?_, ?_⟩⟩
      · simp only [releaseStep, hget, goSet_of_lt _ hleP, goSet_of_lt _ hleS, bind, Except.bind,
          if_pos hcond, Bool.false_eq_true, ↓reduceIte]
        rfl
      · rw [List.getElem?_set]
        by_cases hi : m = i
        · subst hi; simp [hleS, hdrop]
        · simp only [if_neg hi, h.slots, lt_succ_and_iff_of_ne (Ne.symm hi)]
      · rw [List.getElem?_set]
        by_cases hi : m = i
        · subst hi; simp [hleP, hdrop]
        · simp only [if_neg hi, h.physical, lt_succ_and_iff_of_ne (Ne.symm hi)]
      · dsimp only; rw [h.available, hr]; omega
      · dsimp only; rw [h.released, hr, Nat.min_eq_right hd, Nat.min_eq_right (by omega),
          show unsetBefore uc.sectorSlotsStatus m + 1 - uc.workersRemain.toNat =
            unsetBefore uc.sectorSlotsStatus m - uc.workersRemain.toNat + 1 by omega, Nat.mul_succ]
      · have := h.unset
        simp only [List.count] at this ⊢
        rw [hr]; omega
    · -- one of the unset slots the workers keep
      have hcond : ¬ l.uc.workersRemain ≤ l.sectorsAvailable := by rw [h.available, hW]; omega
      have hkeep : ¬ DropsAt uc.sectorSlotsStatus uc.workersRemain.toNat m := fun hm => hd hm.2
      have hiff := lt_succ_and_dropsAt_iff hkeep
      refine ⟨{ l with sectorsAvailable := l.sectorsAvailable + 1 }, ?_,
        ⟨h.1, h.2, fun i => ?_, fun i => ?_, ?_, ?_, ?_⟩⟩
      · simp only [releaseStep, hget, bind, Except.bind, if_neg hcond, Bool.false_eq_true,
          ↓reduceIte]
        rfl
      · simp only [h.slots, hiff]
      · simp only [h.physical, hiff]
      · dsimp only; rw [h.available, hr]; omega
      · dsimp only
        rw [h.released, hr, Nat.min_eq_left (by omega), Nat.min_eq_left (by omega)]; simp
      · have := h.unset
        dsimp only; rw [hr]; omega

/-- The release loop after `m ≤ len(sectorSlotsStatus)` iterations. -/
theorem releaseLoop_inv {uc : UploadSegment}
    (hP : uc.sectorSlotsStatus.length ≤ uc.physicalSegmentData.length) :
    ∀ m, m ≤ uc.sectorSlotsStatus.length →
      ∃ l, (List.range m).foldlM releaseStep ⟨uc, 0, 0⟩ = .ok l ∧ ReleaseInv uc m l
  | 0, _ => ⟨_, rfl, releaseInv_zero uc⟩
  | m + 1, hm => by
    obtain ⟨l, hl, hinv⟩ := releaseLoop_inv hP m (by omega)
    obtain ⟨l', hl', hinv'⟩ := releaseStep_inv (by omega) hP hinv
    exact ⟨l', by rw [foldlM_range_succ, hl]; exact hl', hinv'⟩

/-- `cleanupUploadSegment` on a segment with a sector for every slot: the slots the loop drops
are set with no sector, the others kept, `K` unset slots remain, and `SectorSize` per dropped
slot is released and returned. -/
theorem cleanupUploadSegment_spec {uc : UploadSegment}
    (hP : uc.sectorSlotsStatus.length ≤ uc.physicalSegmentData.length) :
    ∃ uc', cleanupUploadSegment uc =
        .ok (uc', sectorSize * (uc.sectorSlotsStatus.count false - uc.keptSlots)) ∧
      uc'.workersRemain = uc.workersRemain ∧
      uc'.memoryReleased =
        uc.memoryReleased + sectorSize * (uc.sectorSlotsStatus.count false - uc.keptSlots) ∧
      (∀ i, uc'.sectorSlotsStatus[i]? =
        if DropsAt uc.sectorSlotsStatus uc.workersRemain.toNat i then some true
        else uc.sectorSlotsStatus[i]?) ∧
      (∀ i, uc'.physicalSegmentData[i]? =
        if DropsAt uc.sectorSlotsStatus uc.workersRemain.toNat i then some []
        else uc.physicalSegmentData[i]?) ∧
      uc'.sectorSlotsStatus.count false = uc.keptSlots := by
  obtain ⟨l, hl, h⟩ := releaseLoop_inv hP _ le_rfl
  have hdrop : ∀ i, (i < uc.sectorSlotsStatus.length ∧
      DropsAt uc.sectorSlotsStatus uc.workersRemain.toNat i) ↔
      DropsAt uc.sectorSlotsStatus uc.workersRemain.toNat i :=
    fun i => ⟨And.right, fun hd => ⟨(List.getElem?_eq_some_iff.1 hd.1).1, hd⟩⟩
  have hmem := h.released
  have hunset := h.unset
  rw [unsetBefore_length] at hmem hunset
  -- the release of a complete segment changes `released` only
  obtain ⟨uc1, huc1, h1, h2, h3, h4⟩ : ∃ uc1,
      (if l.uc.isSegmentUploadComplete && !l.uc.released then { l.uc with released := true }
        else l.uc) = uc1 ∧ uc1.workersRemain = l.uc.workersRemain ∧
      uc1.memoryReleased = l.uc.memoryReleased ∧
      uc1.sectorSlotsStatus = l.uc.sectorSlotsStatus ∧
      uc1.physicalSegmentData = l.uc.physicalSegmentData := by
    split <;> exact ⟨_, rfl, rfl, rfl, rfl, rfl⟩
  refine ⟨{ uc1 with memoryReleased := uc1.memoryReleased + l.memoryReleased }, ?_, ?_, ?_,
    fun i => ?_, fun i => ?_, ?_⟩
  · have hret : (if l.memoryReleased > 0 then l.memoryReleased else 0) = l.memoryReleased := by
      split <;> omega
    simp only [cleanupUploadSegment, hl, bind, Except.bind, huc1, pure, Except.pure, hret]
    simp only [hmem, UploadSegment.keptSlots]
  · exact h1.trans h.workersRemain_eq
  · simp only [h2, h.memoryReleased_eq, hmem, UploadSegment.keptSlots]
  · simp only [h3, h.slots, hdrop]
  · simp only [h4, h.physical, hdrop]
  · simp only [h3, UploadSegment.keptSlots]; omega

/-- A slot the release loop drops holds a value: it changes no length. -/
theorem length_of_drops {α : Type} {S : List Bool} {k : Nat} {a b : List α} (v : α)
    (h : ∀ i : Nat, a[i]? = if DropsAt S k i then some v else b[i]?)
    (hS : ∀ i, DropsAt S k i → b[i]? ≠ none) : a.length = b.length :=
  length_eq_of_getElem?_eq_none_iff fun i => by
    rw [h i]
    split
    · exact ⟨nofun, fun hb => absurd hb (hS i ‹_›)⟩
    · exact Iff.rfl

/-- With `F` unset slots and `W` remaining workers, `cleanupUploadSegment` keeps the first
`K = min F (max W 0)` unset slots, sets every later one and drops its sector, keeps the set
ones, and both `memoryReleased` and the memory it returns grow by `SectorSize · (F - K)`; called
again on its result, it changes no slot and releases nothing. -/
theorem cleanupUploadSegment_release {uc : UploadSegment}
    (hP : uc.sectorSlotsStatus.length ≤ uc.physicalSegmentData.length) :
    ∃ uc' returned, cleanupUploadSegment uc = .ok (uc', returned) ∧
      uc'.sectorSlotsStatus.length = uc.sectorSlotsStatus.length ∧
      (∀ i : Nat, uc.sectorSlotsStatus[i]? = some false →
        unsetBefore uc.sectorSlotsStatus i < uc.keptSlots →
        uc'.sectorSlotsStatus[i]? = some false ∧
          uc'.physicalSegmentData[i]? = uc.physicalSegmentData[i]?) ∧
      (∀ i : Nat, uc.sectorSlotsStatus[i]? = some false →
        uc.keptSlots ≤ unsetBefore uc.sectorSlotsStatus i →
        uc'.sectorSlotsStatus[i]? = some true ∧ uc'.physicalSegmentData[i]? = some []) ∧
      (∀ i : Nat, uc.sectorSlotsStatus[i]? = some true →
        uc'.sectorSlotsStatus[i]? = some true ∧
          uc'.physicalSegmentData[i]? = uc.physicalSegmentData[i]?) ∧
      uc'.memoryReleased =
        uc.memoryReleased + sectorSize * (uc.sectorSlotsStatus.count false - uc.keptSlots) ∧
      returned = sectorSize * (uc.sectorSlotsStatus.count false - uc.keptSlots) ∧
      ∃ uc'', cleanupUploadSegment uc' = .ok (uc'', 0) ∧
        uc''.memoryReleased = uc'.memoryReleased ∧
        uc''.sectorSlotsStatus = uc'.sectorSlotsStatus ∧
        uc''.physicalSegmentData = uc'.physicalSegmentData := by
  obtain ⟨uc', hc, hW, hmem, hS, hPd, hcount⟩ := cleanupUploadSegment_spec hP
  -- an unset slot is dropped exactly when `K` unset slots come before it
  have hdrops : ∀ i, uc.sectorSlotsStatus[i]? = some false →
      (DropsAt uc.sectorSlotsStatus uc.workersRemain.toNat i ↔
        uc.keptSlots ≤ unsetBefore uc.sectorSlotsStatus i) := fun i hi => by
    have := unsetBefore_lt_count hi
    simp only [DropsAt, hi, true_and, UploadSegment.keptSlots]
    omega
  have hsome : ∀ {α : Type} (b : List α), uc.sectorSlotsStatus.length ≤ b.length →
      ∀ i, DropsAt uc.sectorSlotsStatus uc.workersRemain.toNat i → b[i]? ≠ none :=
    fun b hb i hd => by
      rw [Ne, List.getElem?_eq_none_iff]; have := (List.getElem?_eq_some_iff.1 hd.1).1; omega
  have hlenS := length_of_drops true hS (hsome _ le_rfl)
  have hlenP := length_of_drops [] hPd (hsome _ hP)
  refine ⟨uc', _, hc, hlenS, fun i hi hlt => ?_, fun i hi hle => ?_, fun i hi => ?_, hmem, rfl,
    ?_⟩
  · have hnd : ¬ DropsAt uc.sectorSlotsStatus uc.workersRemain.toNat i := fun hd => by
      have := (hdrops i hi).1 hd; omega
    rw [hS, hPd, if_neg hnd, if_neg hnd]; exact ⟨hi, rfl⟩
  · have hd := (hdrops i hi).2 hle
    rw [hS, hPd, if_pos hd, if_pos hd]; exact ⟨rfl, rfl⟩
  · have hnd : ¬ DropsAt uc.sectorSlotsStatus uc.workersRemain.toNat i := fun hd => by
      rw [hd.1] at hi; cases hi
    rw [hS, hPd, if_neg hnd, if_neg hnd]; exact ⟨hi, rfl⟩
  · -- the second call: `K` unset slots, all of them kept
    obtain ⟨uc'', hc', -, hmem', hS', hPd', -⟩ :=
      cleanupUploadSegment_spec (hlenS.trans_le (hP.trans hlenP.ge))
    have hkept : uc'.keptSlots = uc'.sectorSlotsStatus.count false := by
      simp only [UploadSegment.keptSlots, hcount, hW]; omega
    have hnd : ∀ i, ¬ DropsAt uc'.sectorSlotsStatus uc'.workersRemain.toNat i := fun i hd => by
      have hlt := unsetBefore_lt_count hd.1
      have hle := hd.2
      rw [hcount] at hlt
      rw [hW] at hle
      simp only [UploadSegment.keptSlots] at hlt
      omega
    rw [hkept, Nat.sub_self, Nat.mul_zero] at hc' hmem'
    exact ⟨uc'', hc', hmem', List.ext_getElem? fun i => by rw [hS', if_neg (hnd i)],
      List.ext_getElem? fun i => by rw [hPd', if_neg (hnd i)]⟩

/-- A set slot, three unset ones and one worker left: the first unset slot is kept, the two after
it released. -/
theorem cleanupUploadSegment_release_oneWorker :
    let uc : UploadSegment :=
      { memoryReleased := 0, sectorsAllNeedNum := 4, logicalSegmentData := [],
        physicalSegmentData := [[1], [2], [3], [4]], sectorSlotsStatus := [true, false, false, false],
        sectorsCompletedNum := 1, sectorsUploadingNum := 0, released := false, workersRemain := 1 }
    uc.sectorSlotsStatus.length ≤ uc.physicalSegmentData.length ∧
      ∃ uc' returned, cleanupUploadSegment uc = .ok (uc', returned) ∧ returned = sectorSize * 2 := by
  intro uc
  have hP : uc.sectorSlotsStatus.length ≤ uc.physicalSegmentData.length := Nat.le_refl 4
  obtain ⟨uc', r, h, -, -, -, -, -, hr, -⟩ := cleanupUploadSegment_release hP
  exact ⟨hP, uc', r, h, hr.trans rfl⟩

/-! ## Every `Return` is counted in `memoryReleased` -/

theorem releaseStep_memoryReleased {l l' : ReleaseLoop} {i : Nat} (h : releaseStep l i = .ok l') :
    l'.uc.memoryReleased = l.uc.memoryReleased := by
  simp only [releaseStep, bind, Except.bind] at h
  split at h
  · cases h
  split at h
  · cases h; rfl
  split at h
  · split at h
    · cases h
    · split at h
      · cases h
      · cases h; rfl
  · cases h; rfl

theorem cleanupUploadSegment_memoryReleased {uc uc' : UploadSegment} {returned : Nat}
    (h : cleanupUploadSegment uc = .ok (uc', returned)) :
    uc'.memoryReleased = uc.memoryReleased + returned := by
  unfold cleanupUploadSegment at h
  obtain ⟨l, hl, h⟩ := bind_eq_ok.1 h
  have hmem := foldlM_inv (fun l : ReleaseLoop => l.uc.memoryReleased = uc.memoryReleased)
    (fun _ _ _ _ ha hb => (releaseStep_memoryReleased hb).trans ha) _ l rfl hl
  cases h
  dsimp only at hmem ⊢
  split <;> split <;> (dsimp only at *; omega)

theorem encodeAndDispatch_memoryReleased {client : Client} {ec : ErasureCoder} {m c : Nat}
    {segment s : UploadSegment} {r : Nat}
    (h : encodeAndDispatch client ec m c segment = .ok (s, r)) :
    s.memoryReleased = segment.memoryReleased + r := by
  unfold encodeAndDispatch at h
  split at h
  · cases h; rfl
  generalize ec.encode _ = e at h
  obtain ⟨physical, err⟩ := e
  dsimp only at h
  split at h
  · obtain ⟨p, -, h⟩ := bind_eq_ok.1 h
    cases h; rfl
  split at h
  · cases h; rfl
  split at h
  · cases h; rfl
  obtain ⟨p, -, h⟩ := bind_eq_ok.1 h
  cases h
  dsimp only
  split <;> simp only [Nat.add_assoc]

/-- On every path, `memoryReleased` grows by exactly what the call passes to
`client.memoryManager.Return`. -/
theorem retrieveDataAndDispatchSegment_memoryReleased {client : Client}
    {segment s : UploadSegment} {returned : Nat}
    (h : retrieveDataAndDispatchSegment client segment = .ok (s, returned)) :
    s.memoryReleased = segment.memoryReleased + returned := by
  unfold retrieveDataAndDispatchSegment at h
  split at h
  · cases h; rfl
  split at h
  · cases h; rfl
  obtain ⟨⟨body, r⟩, hb, h⟩ := bind_eq_ok.1 h
  obtain ⟨⟨cl, r'⟩, hc, h⟩ := bind_eq_ok.1 h
  cases h
  rw [cleanupUploadSegment_memoryReleased hc, encodeAndDispatch_memoryReleased hb, Nat.add_assoc]

/-- A segment with its cipher key missing: what is returned is what `memoryReleased` gains. -/
theorem retrieveDataAndDispatchSegment_memoryReleased_noKey :
    let segment : UploadSegment :=
      { memoryReleased := 0, sectorsAllNeedNum := 2, logicalSegmentData := [],
        physicalSegmentData := [], sectorSlotsStatus := [true, false], sectorsCompletedNum := 1,
        sectorsUploadingNum := 0, released := false, workersRemain := 0 }
    let client : Client :=
      { stopped := false, erasureCode := .ok ⟨1, fun _ => ([[7], [8]], none)⟩,
        fileSectorSize := sectorSize, retrieveLogicalSegmentData := .ok [[7]],
        cipherKey := .error "no cipher key", workerPool := 1 }
    ∃ s returned, retrieveDataAndDispatchSegment client segment = .ok (s, returned) ∧
      s.memoryReleased = segment.memoryReleased + returned := by
  intro segment client
  obtain ⟨⟨s, r⟩, h⟩ : ∃ x, retrieveDataAndDispatchSegment client segment = .ok x :=
    ⟨_, rfl⟩
  exact ⟨s, r, h, retrieveDataAndDispatchSegment_memoryReleased h⟩

/-- A segment not dispatched, with one slot, set (its sector uploaded); the file's sectors are
`SectorSize` bytes and the erasure code needs one, so `SectorSize() · MinSectors +
SectorSize · len(sectorSlotsStatus)` is `2 · SectorSize`. A failed `ec.Encode`, an encoding with
no sector and a missing cipher key each return `SectorSize` only, and a failed `ErasureCode()`
returns nothing. -/
theorem retrieveDataAndDispatchSegment_leaks :
    let segment : UploadSegment :=
      { memoryReleased := 0, sectorsAllNeedNum := 1, logicalSegmentData := [],
        physicalSegmentData := [[]], sectorSlotsStatus := [true], sectorsCompletedNum := 1,
        sectorsUploadingNum := 0, released := false, workersRemain := 0 }
    let client (erasureCode : Except String ErasureCoder) (cipherKey : Except String CipherKey) :
        Client :=
      { stopped := false, erasureCode, fileSectorSize := sectorSize,
        retrieveLogicalSegmentData := .ok [[7]], cipherKey, workerPool := 1 }
    let returned (c : Client) := (retrieveDataAndDispatchSegment c segment).map Prod.snd
    returned (client (.ok ⟨1, fun _ => ([[7]], some "encode failed")⟩) (.ok ⟨.ok⟩)) =
        .ok sectorSize ∧
      returned (client (.ok ⟨1, fun _ => ([], none)⟩) (.ok ⟨.ok⟩)) = .ok sectorSize ∧
      returned (client (.ok ⟨1, fun _ => ([[7]], none)⟩) (.error "no cipher key")) =
        .ok sectorSize ∧
      returned (client (.error "no erasure code") (.ok ⟨.ok⟩)) = .ok 0 := by
  decide

end Godx.StorageClient
