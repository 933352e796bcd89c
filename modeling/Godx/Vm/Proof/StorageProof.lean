import Godx.Vm.Validation
import Godx.Vm.Proof.MerkleSound

/-!
# `CheckStorageProof`: no run-time fault, and an honest host passes

* `calculateLeaves_toNat`, `calculateLeaves_le`: the leaf count is `⌈FileSize / 64⌉` (at least
  one) and at most `2 ^ 58`, so `int64` keeps it positive and `VerifyProof` climbs below
  height `59`.
* `lt_calculateLeaves_of_ok`: past the trigger-height check the challenged index is the seed
  modulo the leaf count, so below it.
* `checkStorageProof_noPanic`: for every chain, contract, proof and height, `CheckStorageProof`
  returns `nil` or an `error`: the modulus is positive, the segment slice is within the
  64-byte array, and `VerifyProof` never divides by `1 << 64`.
* `checkStorageProof_honest`: a host holding the file passes: the segment the chain draws,
  zero-padded, with the roots of the sibling subtrees on its path.
-/

namespace Godx.Vm

/-! ## Leaves -/

theorem toNat_segmentSize : ((segmentSize : U64)).toNat = 64 := rfl

/-- `CalculateLeaves` in `Nat`. -/
theorem calculateLeaves_toNat (fs : U64) :
    (calculateLeaves fs).toNat = if fs.toNat = 0 then 1 else (fs.toNat + 63) / 64 := by
  have hlt := fs.isLt
  have hz : fs = 0 ↔ fs.toNat = 0 := ⟨fun h => by simp [h], fun h => BitVec.eq_of_toNat_eq h⟩
  have hm : fs % (segmentSize : U64) ≠ 0 ↔ fs.toNat % 64 ≠ 0 := by
    simp only [Ne, BitVec.toNat_eq, BitVec.toNat_umod, toNat_segmentSize]; rfl
  unfold calculateLeaves
  simp only [hz, hm]
  split_ifs with h1 h2 <;>
    simp only [BitVec.toNat_add, BitVec.toNat_udiv, toNat_segmentSize,
      show (1 : U64).toNat = 1 from rfl] <;> omega

theorem calculateLeaves_pos (fs : U64) : 0 < (calculateLeaves fs).toNat := by
  rw [calculateLeaves_toNat]; split <;> omega

theorem calculateLeaves_le (fs : U64) : (calculateLeaves fs).toNat ≤ 2 ^ 58 := by
  have := fs.isLt; rw [calculateLeaves_toNat]; split <;> omega

theorem toInt_calculateLeaves (fs : U64) :
    (calculateLeaves fs).toInt = ((calculateLeaves fs).toNat : Int) := by
  rw [BitVec.toInt_eq_toNat_cond, if_pos (by have := calculateLeaves_le fs; omega)]

/-- `storageProofSegment` for a stored contract: past the trigger-height check, the seed modulo
the leaf count. -/
theorem storageProofSegment_eq (c : Crypto) {st : ChainState} {id : StorageContractID}
    {h : BlockHeight} {sc : StorageContract} (hsc : st.getStorageContract id = .ok sc) :
    storageProofSegment c st id h = if sc.windowStart - 1 > h then .error (.err errUnfinishedStorageContract)
      else .ok (BitVec.ofNat 64 (bytesToNat (c.keccak256
        ((st.readCanonicalHash (sc.windowStart - 1)).bytes ++ (c.contractID sc).bytes)).bytes %
          (calculateLeaves sc.fileSize).toNat)) := by
  have hpos := calculateLeaves_pos sc.fileSize
  by_cases hw : sc.windowStart - 1 > h
  · simp only [storageProofSegment, hsc, liftErr_ok, bind, Except.bind, returnIf_of_pos hw, if_pos hw]
  · simp only [storageProofSegment, hsc, liftErr_ok, bind, Except.bind, returnIf_of_neg hw, if_neg hw,
      toInt_calculateLeaves, if_neg (show ((calculateLeaves sc.fileSize).toNat : Int) ≠ 0 by omega)]
    rw [← Int.ofNat_emod, BitVec.ofInt_natCast]; rfl

theorem lt_calculateLeaves_of_ok {c : Crypto} {st : ChainState} {id : StorageContractID}
    {h : BlockHeight} {sc : StorageContract} (hsc : st.getStorageContract id = .ok sc) {i : U64}
    (hi : storageProofSegment c st id h = .ok i) : i.toNat < (calculateLeaves sc.fileSize).toNat := by
  have hpos := calculateLeaves_pos sc.fileSize
  have hle := calculateLeaves_le sc.fileSize
  rw [storageProofSegment_eq c hsc] at hi
  split at hi
  · cases hi
  · cases hi
    have hm := Nat.mod_lt (bytesToNat (c.keccak256 ((st.readCanonicalHash (sc.windowStart - 1)).bytes ++
      (c.contractID sc).bytes)).bytes) hpos
    rw [BitVec.toNat_ofNat, Nat.mod_eq_of_lt (by omega)]
    exact hm

/-! ## The segment slice -/

theorem segmentLength_pos (i l fs : U64) : 1 ≤ (segmentLength i l fs).toNat := by
  have key : ∀ s : U64, 1 ≤ (if s = 0 then (segmentSize : U64) else s).toNat := fun s => by
    split
    · decide
    · exact Nat.one_le_iff_ne_zero.2 fun h => ‹¬ s = 0› (BitVec.eq_of_toNat_eq h)
  exact key _

theorem segmentLength_le (i l fs : U64) : (segmentLength i l fs).toNat ≤ 64 := by
  have : (fs % (segmentSize : U64)).toNat < 64 := by
    rw [BitVec.toNat_umod, toNat_segmentSize]; exact Nat.mod_lt _ (by norm_num)
  simp only [segmentLength]
  split_ifs <;> first | rfl | omega

/-- For an index below the leaf count, the slice is the file's tail on the last leaf (a whole
segment when the size is a multiple of `64`), a whole segment otherwise. -/
theorem segmentLength_toNat {i l : U64} (fs : U64) (hl : 1 ≤ l.toNat) :
    (segmentLength i l fs).toNat =
      if i.toNat = l.toNat - 1 ∧ fs.toNat % 64 ≠ 0 then fs.toNat % 64 else 64 := by
  have hi : i = l - 1 ↔ i.toNat = l.toNat - 1 := by
    rw [BitVec.toNat_eq, BitVec.toNat_sub, show (1 : U64).toNat = 1 from rfl]; omega
  have hm : fs % (segmentSize : U64) = 0 ↔ fs.toNat % 64 = 0 := by
    simp only [BitVec.toNat_eq, BitVec.toNat_umod, toNat_segmentSize]; rfl
  have hu : (fs % (segmentSize : U64)).toNat = fs.toNat % 64 := BitVec.toNat_umod ..
  by_cases h1 : i.toNat = l.toNat - 1 <;> by_cases h2 : fs.toNat % 64 = 0 <;>
    simp only [segmentLength, hi, hm, hu, h1, h2, if_true, if_false, ne_eq, not_true_eq_false,
      not_false_eq_true, and_self, and_false, false_and] <;> rfl

/-! ## No run-time fault -/

theorem storageProofSegment_noPanic (c : Crypto) (st : ChainState) (id : StorageContractID)
    (h : BlockHeight) : NoPanic (storageProofSegment c st id h) := by
  cases hsc : st.getStorageContract id with
  | error e => simp only [storageProofSegment, hsc, liftErr_error]; exact noPanic_err _
  | ok sc => rw [storageProofSegment_eq c hsc]; split <;> first | exact noPanic_err _ | exact noPanic_ok _

/-- An accepted storage proof is for a stored contract whose window holds the height. -/
theorem checkStorageProof_window {c : Crypto} {st : ChainState} {sp : StorageProof}
    {h : BlockHeight} (hacc : checkStorageProof c st sp h = .ok ()) :
    ∃ fc, st.getStorageContract sp.parentID = .ok fc ∧ fc.windowStart ≤ h ∧ h ≤ fc.windowEnd := by
  simp only [checkStorageProof, bind_eq_ok, returnIf_eq_ok, liftErr_eq_ok] at hacc
  obtain ⟨fc, hfc, -, hs, -, he, -⟩ := hacc
  exact ⟨fc, hfc, Nat.not_lt.1 hs, Nat.not_lt.1 he⟩

/-- `CheckStorageProof` returns `nil` or an `error`, never a run-time panic: the leaf count is in
`[1, 2 ^ 58]`, the challenged index is below it, and the slice length is in `[1, 64]`. -/
theorem checkStorageProof_noPanic (c : Crypto) (st : ChainState) (sp : StorageProof)
    (h : BlockHeight) :
    NoPanic (checkStorageProof c st sp h) ∧
      ∀ fc, st.getStorageContract sp.parentID = .ok fc →
        1 ≤ (calculateLeaves fc.fileSize).toNat ∧ (calculateLeaves fc.fileSize).toNat ≤ 2 ^ 58 ∧
        ∀ i, storageProofSegment c st sp.parentID h = .ok i →
          i.toNat < (calculateLeaves fc.fileSize).toNat ∧
          1 ≤ (segmentLength i (calculateLeaves fc.fileSize) fc.fileSize).toNat ∧
          (segmentLength i (calculateLeaves fc.fileSize) fc.fileSize).toNat ≤ 64 := by
  refine ⟨?_, fun fc hfc => ⟨calculateLeaves_pos _, calculateLeaves_le _, fun i hi =>
    ⟨lt_calculateLeaves_of_ok hfc hi, segmentLength_pos .., segmentLength_le ..⟩⟩⟩
  unfold checkStorageProof
  refine NoPanic.bind (noPanic_liftErr _) fun fc _ => ?_
  refine NoPanic.bind (noPanic_returnIf _ _) fun _ _ => NoPanic.bind (noPanic_returnIf _ _) fun _ _ => ?_
  refine NoPanic.bind (storageProofSegment_noPanic c st sp.parentID h) fun i _ => ?_
  dsimp only
  rw [goSlice_of_le (by rw [sp.length_segment]; exact segmentLength_le ..)]
  refine NoPanic.bind (noPanic_ok _) fun seg _ => ?_
  exact NoPanic.bind (verifyProof_noPanic _ _ _ (by have := calculateLeaves_le fc.fileSize; omega))
    fun _ _ => noPanic_returnIf _ _

/-! ## An honest host -/

/-- Segment `i` of the file `F`: its bytes from `64 i`, at most `64` of them. -/
def segmentAt (F : Bytes) (i : Nat) : Bytes := (F.drop (segmentSize * i)).take segmentSize

/-- The leaves of `F`'s Merkle tree: its 64-byte segments, the last one partial. -/
def fileSegments (F : Bytes) : List Bytes :=
  (List.range ((F.length + segmentSize - 1) / segmentSize)).map (segmentAt F)

/-- The proof a host holding `F` submits for segment `i`: the segment zero-padded to
`SegmentSize`, and the roots of the sibling subtrees on its path, bottom-up. -/
def honestProof (H : Bytes → Hash) (F : Bytes) (parentID : StorageContractID) (i : Nat) :
    StorageProof where
  parentID := parentID
  segment := (segmentAt F i ++ List.replicate segmentSize 0).take segmentSize
  length_segment := by simp [segmentSize]
  hashSet := (proofAt H (fileSegments F).length (fileSegments F) i).map Hash.ofBytes

theorem length_fileSegments (F : Bytes) : (fileSegments F).length = (F.length + 63) / 64 := by
  simp [fileSegments, segmentSize]

theorem getElem?_fileSegments {F : Bytes} {i : Nat} (hi : i < (fileSegments F).length) :
    (fileSegments F)[i]? = some (segmentAt F i) := by
  rw [length_fileSegments] at hi
  rw [fileSegments, List.getElem?_map, List.getElem?_range (by simpa [segmentSize] using hi)]; rfl

theorem length_segmentAt (F : Bytes) (i : Nat) :
    (segmentAt F i).length = min 64 (F.length - 64 * i) := by
  simp [segmentAt, segmentSize]

/-- `CalculateLeaves(|F|)` counts the segments of a non-empty file. -/
theorem calculateLeaves_of_length {F : Bytes} {fs : U64} (hF : 0 < F.length)
    (hfs : fs.toNat = F.length) : (calculateLeaves fs).toNat = (fileSegments F).length := by
  rw [calculateLeaves_toNat, length_fileSegments, if_neg (by omega), hfs]

/-- The slice `CheckStorageProof` takes of segment `i` is the segment's own length. -/
theorem segmentLength_segmentAt {F : Bytes} {fs i : U64} (hF : 0 < F.length)
    (hfs : fs.toNat = F.length) (hi : i.toNat < (fileSegments F).length) :
    (segmentLength i (calculateLeaves fs) fs).toNat = (segmentAt F i.toNat).length := by
  have hl := calculateLeaves_of_length hF hfs
  rw [segmentLength_toNat fs (by omega), length_segmentAt, hl, hfs]
  rw [length_fileSegments] at hi ⊢
  split_ifs <;> omega

/-- A host holding `F` passes: for a stored contract with `FileSize = |F|` and
`FileMerkleRoot = root(F)`, at every height of a window starting at `1` or later, the proof of
the segment `storageProofSegment` draws, zero-padded, with its honest path, is accepted. -/
theorem checkStorageProof_honest (c : Crypto) (st : ChainState) (F : Bytes) (hF : 0 < F.length)
    (id : StorageContractID) (fc : StorageContract) (hfc : st.getStorageContract id = .ok fc)
    (hsize : fc.fileSize.toNat = F.length)
    (hroot : fc.fileMerkleRoot.bytes = merkleRoot c.keccak256 (fileSegments F))
    (h : BlockHeight) (hw1 : 1 ≤ fc.windowStart.toNat) (hws : fc.windowStart ≤ h)
    (hwe : h ≤ fc.windowEnd) :
    ∃ i, storageProofSegment c st id h = .ok i ∧
      checkStorageProof c st (honestProof c.keccak256 F id i.toNat) h = .ok () := by
  have hw : ¬ fc.windowStart - 1 > h := by
    rw [gt_iff_lt, BitVec.lt_def, BitVec.toNat_sub, show (1 : U64).toNat = 1 from rfl]
    rw [BitVec.le_def] at hws; omega
  obtain ⟨i, hseg⟩ : ∃ i, storageProofSegment c st id h = .ok i :=
    ⟨_, by rw [storageProofSegment_eq c hfc, if_neg hw]⟩
  have hl := calculateLeaves_of_length hF hsize
  have hi : i.toNat < (fileSegments F).length := hl ▸ lt_calculateLeaves_of_ok hfc hseg
  have hlen := segmentLength_segmentAt hF hsize hi
  have hpad : (segmentAt F i.toNat).length ≤ segmentSize := by
    rw [length_segmentAt]; exact min_le_left ..
  refine ⟨i, hseg, ?_⟩
  simp only [checkStorageProof, honestProof, hfc, hseg, liftErr_ok, bind, Except.bind,
    returnIf_of_neg (show ¬ fc.windowStart > h from Nat.not_lt.2 hws),
    returnIf_of_neg (show ¬ fc.windowEnd < h from Nat.not_lt.2 hwe)]
  rw [goSlice_of_le (by rw [hlen, List.length_take, List.length_append]; omega), hlen,
    List.take_take, min_eq_left hpad, List.take_left]
  simp only [verifySegment, hroot, Hash.map_ofBytes_bytes (length_of_mem_proofAt _ _ _ _)]
  rw [verifyProof_merkle c.keccak256 hl (by have := calculateLeaves_le fc.fileSize; omega)
    (getElem?_fileSegments hi)]
  exact returnIf_of_neg (by simp)

/-- A one-byte file with window `[1, 1]`, proved at height `1`. -/
theorem checkStorageProof_honest_oneByte :
    let fc : StorageContract :=
      { fileSize := 1, fileMerkleRoot := rootHash lengthPrefixHash (fileSegments [7]),
        windowStart := 1, windowEnd := 1, renterCollateral := ⟨[], 0⟩, hostCollateral := ⟨[], 0⟩,
        validProofOutputs := [], missedProofOutputs := [], unlockHash := zeroHash,
        revisionNumber := 0, signatures := [] }
    let st := listChain [(zeroHash, fc)] fun _ => 0
    ∃ i, storageProofSegment toyCrypto st zeroHash 1 = .ok i ∧
      checkStorageProof toyCrypto st (honestProof lengthPrefixHash [7] zeroHash i.toNat) 1 = .ok () := by
  intro fc st
  exact checkStorageProof_honest toyCrypto st [7] (by decide) zeroHash fc rfl rfl rfl 1
    (by simp only [fc]; decide) (by simp only [fc]; decide) (by simp only [fc]; decide)

end Godx.Vm
