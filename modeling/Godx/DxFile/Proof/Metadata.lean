import Godx.DxFile.Proof.Persist
import Godx.DxFile.Metadata

/-!
# What `New` writes, and what loading builds back from it

* `uint32_putUint32`: `binary.LittleEndian.Uint32` reads back every `uint32` that `PutUint32`
  wrote into a fresh four-byte slice (`or_bytes_eq`, bit by bit).
* `numSegments_spec`: with a nonzero segment size `S`, `numSegments` is the least positive count of
  `S`-byte segments that holds the file; with `S = 0` it divides by zero.
* `erasureCodeToParams_ok`: `erasureCodeToParams` returns for a standard coder and for a shard
  coder whose `Extra()` starts with an `int`; otherwise it panics in its `default` branch
  (`erasureCodeToParams_unknown`), at `extra[0]` (`erasureCodeToParams_noExtra`) or at the type
  assertion `.(int)` (`erasureCodeToParams_notInt`).
* `dxFileNew_spec`: `New` panics exactly in those cases, and when the segment size
  `(SectorSize - Overhead) · MinSectors` is `0` in `uint64`; otherwise its metadata passes
  `validate` and it creates the segments `0, 1, …` that tile the file.
* `newErasureCode_dxFileNew`: loading the metadata `New` wrote calls `erasurecode.New` with the
  coder's own type, `MinSectors` and `NumSectors`, and with its shard size modulo `2 ^ 32`: the
  `uint32` the shard size travels as (`newErasureCode_putUint32`).
-/

namespace Godx.DxFile

/-! ## `binary.LittleEndian` -/

theorem toNat_byteOf (v : BitVec 32) : (byteOf v).toNat = v.toNat % 256 := rfl

theorem littleEndianPutUint32_fresh (v : BitVec 32) :
    littleEndianPutUint32 (List.replicate 4 0) v =
      .ok [byteOf v, byteOf (v >>> 8), byteOf (v >>> 16), byteOf (v >>> 24)] := rfl

theorem littleEndianUint32_four (b0 b1 b2 b3 : UInt8) :
    littleEndianUint32 [b0, b1, b2, b3] =
      .ok (BitVec.ofNat 32 b0.toNat ||| BitVec.ofNat 32 b1.toNat <<< 8 |||
        BitVec.ofNat 32 b2.toNat <<< 16 ||| BitVec.ofNat 32 b3.toNat <<< 24) := rfl

/-- The four bytes of `v`, or-ed back in place, are `v`: bit `i` comes from byte `i / 8`. -/
theorem or_bytes_eq (v : BitVec 32) :
    BitVec.ofNat 32 (byteOf v).toNat ||| BitVec.ofNat 32 (byteOf (v >>> 8)).toNat <<< 8 |||
      BitVec.ofNat 32 (byteOf (v >>> 16)).toNat <<< 16 |||
      BitVec.ofNat 32 (byteOf (v >>> 24)).toNat <<< 24 = v := by
  apply BitVec.eq_of_getLsbD_eq
  rintro ⟨i, hi⟩
  have h8 : i - 8 < 32 := by omega
  have h16 : i - 16 < 32 := by omega
  have h24 : i - 24 < 32 := by omega
  simp only [toNat_byteOf, BitVec.getLsbD_or, BitVec.getLsbD_shiftLeft, BitVec.getLsbD_ofNat,
    show (256 : Nat) = 2 ^ 8 from rfl, Nat.testBit_mod_two_pow, BitVec.toNat_ushiftRight,
    Nat.testBit_shiftRight, BitVec.testBit_toNat, hi, h8, h16, h24, decide_True, Bool.true_and]
  obtain h | h | h | h : i < 8 ∨ 8 ≤ i ∧ i < 16 ∨ 16 ≤ i ∧ i < 24 ∨ 24 ≤ i := by omega
  · simp [h, show i < 16 by omega, show i < 24 by omega]
  · simp [h, show ¬ i < 8 by omega, show i - 8 < 8 by omega, show i < 24 by omega,
      Nat.add_sub_cancel' h.1]
  · simp [h, show ¬ i < 8 by omega, show ¬ i - 8 < 8 by omega, show ¬ i < 16 by omega,
      show i - 16 < 8 by omega, Nat.add_sub_cancel' h.1]
  · simp [h, show ¬ i < 8 by omega, show ¬ i - 8 < 8 by omega, show ¬ i < 16 by omega,
      show ¬ i - 16 < 8 by omega, show ¬ i < 24 by omega, show i - 24 < 8 by omega,
      Nat.add_sub_cancel' h]

/-- `Uint32` reads back what `PutUint32` wrote into a fresh four-byte slice. -/
theorem uint32_putUint32 (v : BitVec 32) :
    (littleEndianPutUint32 (List.replicate 4 0) v >>= littleEndianUint32) = .ok v := by
  simp only [littleEndianPutUint32_fresh, bind, Except.bind, littleEndianUint32_four, or_bytes_eq]

/-- The round trip, on the bytes `PutUint32` wrote named rather than spelled out. -/
theorem uint32_of_putUint32 {v : BitVec 32} {x : Bytes}
    (hx : littleEndianPutUint32 (List.replicate 4 0) v = .ok x) : littleEndianUint32 x = .ok v := by
  have h := uint32_putUint32 v
  rw [hx] at h
  exact h

theorem length_of_putUint32 {v : BitVec 32} {x : Bytes}
    (hx : littleEndianPutUint32 (List.replicate 4 0) v = .ok x) : x.length = 4 := by
  rw [littleEndianPutUint32_fresh, Except.ok.injEq] at hx
  rw [← hx]
  rfl

/-- `int(uint32(s))` for a Go `int` `s`. -/
theorem toNat_ofInt_thirtyTwo (s : Int) : ((BitVec.ofInt 32 s).toNat : Int) = s % 4294967296 := by
  rw [BitVec.toNat_ofInt, Int.toNat_of_nonneg (Int.emod_nonneg _ (by decide))]
  rfl

/-! ## `erasureCodeToParams` -/

section Params

variable {pkg : ErasureCodePkg} {ec : ErasureCoder}

theorem erasureCodeToParams_standard (h : ec.type = pkg.ecTypeStandard) :
    erasureCodeToParams pkg ec = .ok (ec.minSectors, ec.numSectors, []) := by
  simp only [erasureCodeToParams, if_pos h]
  rfl

/-- A shard coder whose `Extra()` starts with an `int` writes it with `PutUint32`. -/
theorem erasureCodeToParams_shard {s : Int} {rest : List GoValue} (h : ec.type = pkg.ecTypeShard)
    (he : ec.extra = .int s :: rest) :
    erasureCodeToParams pkg ec = littleEndianPutUint32 (List.replicate 4 0) (BitVec.ofInt 32 s) >>=
      fun x => pure (ec.minSectors, ec.numSectors, x) := by
  simp only [erasureCodeToParams, h, if_neg pkg.standard_ne_shard.symm, if_true, he, goGet,
    List.getElem?_cons_zero, GoValue.assertInt, bind, Except.bind, pure, Except.pure]

end Params

/-! ## `numSegments` -/

theorem numSegments_zero {md : FileMetadata} (h : md.segmentSize = 0) :
    md.numSegments = .error (.panic .integerDivideByZero) := by
  simp only [FileMetadata.numSegments, goDiv, h, if_true]
  rfl

/-- `numSegments` over `Nat`: the quotient, plus one for a partial last segment or an empty file;
the `uint64` sum never wraps. -/
theorem numSegments_toNat {md : FileMetadata} (h : md.segmentSize ≠ 0) :
    ∃ n, md.numSegments = .ok n ∧ n.toNat =
      if md.fileSize.toNat % md.segmentSize.toNat ≠ 0 ∨ md.fileSize.toNat / md.segmentSize.toNat = 0
      then md.fileSize.toNat / md.segmentSize.toNat + 1 else md.fileSize.toNat / md.segmentSize.toNat := by
  refine ⟨_, by simp only [FileMetadata.numSegments, goDiv, if_neg h]; rfl, ?_⟩
  have hS := toNat_pos_of_ne h
  have h0 : (0 : U64).toNat = 0 := rfl
  have hcond : (md.fileSize % md.segmentSize ≠ 0 ∨ md.fileSize / md.segmentSize = 0) ↔
      (md.fileSize.toNat % md.segmentSize.toNat ≠ 0 ∨
        md.fileSize.toNat / md.segmentSize.toNat = 0) := by
    simp only [ne_eq, BitVec.toNat_eq, BitVec.toNat_umod, BitVec.toNat_udiv, h0]
  simp only [hcond]
  split_ifs with hc
  · have hq := Nat.div_mul_le_self md.fileSize.toNat md.segmentSize.toNat
    have hlt : md.fileSize.toNat / md.segmentSize.toNat + 1 < 2 ^ 64 := by
      have := md.fileSize.isLt
      have := Nat.le_mul_of_pos_right (md.fileSize.toNat / md.segmentSize.toNat) hS
      have := Nat.div_add_mod' md.fileSize.toNat md.segmentSize.toNat
      omega
    rw [BitVec.toNat_add, BitVec.toNat_udiv, show (1 : U64).toNat = 1 from rfl,
      Nat.mod_eq_of_lt hlt]
  · exact BitVec.toNat_udiv ..

/-- With a nonzero segment size `S`, `numSegments` is the least positive count of `S`-byte
segments that holds the file: `(n - 1) · S < max F 1` and `F ≤ n · S`. -/
theorem numSegments_spec {md : FileMetadata} (h : md.segmentSize ≠ 0) :
    ∃ n, md.numSegments = .ok n ∧ 0 < n.toNat ∧
      (n.toNat - 1) * md.segmentSize.toNat < max md.fileSize.toNat 1 ∧
      md.fileSize.toNat ≤ n.toNat * md.segmentSize.toNat := by
  obtain ⟨n, hn, hval⟩ := numSegments_toNat h
  refine ⟨n, hn, ?_⟩
  have hS := toNat_pos_of_ne h
  have hdiv := Nat.div_add_mod' md.fileSize.toNat md.segmentSize.toNat
  have hmod := Nat.mod_lt md.fileSize.toNat hS
  generalize md.fileSize.toNat / md.segmentSize.toNat = q at *
  generalize md.fileSize.toNat % md.segmentSize.toNat = r at *
  by_cases hc : r ≠ 0 ∨ q = 0
  · rw [if_pos hc] at hval
    rw [hval, Nat.add_sub_cancel, Nat.succ_mul]
    rcases hc with hr | rfl
    · have := Nat.le_mul_of_pos_right q hS
      omega
    · rw [Nat.zero_mul] at hdiv ⊢
      omega
  · rw [if_neg hc] at hval
    have hq : 0 < q := by omega
    rw [hval, Nat.sub_one_mul]
    have := Nat.le_mul_of_pos_left md.segmentSize.toNat hq
    omega

/-! ## `New` -/

/-- The metadata `New` writes once `erasureCodeToParams` returned the extra bytes `x`. -/
def newFileMetadata (ec : ErasureCoder) (overhead fileSize : U64) (x : Bytes) : FileMetadata :=
  ⟨newMetadata ec.numSectors, fileSize, sectorSize - overhead, ec.type, ec.minSectors, x⟩

section New

variable {pkg : ErasureCodePkg} {ec : ErasureCoder} {overhead fileSize : U64}

/-- `New` once `erasureCodeToParams` returned: one segment per `numSegments`. -/
theorem dxFileNew_of_params {x : Bytes}
    (hx : erasureCodeToParams pkg ec = .ok (ec.minSectors, ec.numSectors, x)) :
    dxFileNew pkg ec overhead fileSize =
      (newFileMetadata ec overhead fileSize x).numSegments >>= fun n =>
      pure (newFileMetadata ec overhead fileSize x, (List.range n.toNat).map fun i =>
          { sectors := List.replicate ec.numSectors.toNat [], index := BitVec.ofNat 64 i,
            offset := 0, stuck := false }) := by
  simp only [dxFileNew, hx, bind, Except.bind]
  rfl

/-- Loading a shard coder whose `ECExtra` holds the four bytes `PutUint32` wrote for `v`: the
shard size passed to `erasurecode.New` is `v`. -/
theorem newErasureCode_putUint32 (md : FileMetadata) (ht : md.erasureCodeType = pkg.ecTypeShard)
    {v : BitVec 32} (hx : littleEndianPutUint32 (List.replicate 4 0) v = .ok md.ecExtra) :
    md.newErasureCode pkg =
      liftErr (pkg.new pkg.ecTypeShard md.minSectors md.numSectors [.int v.toNat]) := by
  simp only [FileMetadata.newErasureCode, ht, if_neg pkg.standard_ne_shard.symm, if_true,
    length_of_putUint32 hx, le_refl, uint32_of_putUint32 hx, bind, Except.bind, pure, Except.pure]

end New

/-- Loading the metadata `New` wrote: `newErasureCode` calls `erasurecode.New` with the coder's
type, `MinSectors` and `NumSectors`, and, for a shard coder, with its shard size modulo `2 ^ 32`
(the `uint32` it is stored as, little-endian in `ECExtra`). -/
theorem newErasureCode_dxFileNew (pkg : ErasureCodePkg) (ec : ErasureCoder)
    (overhead fileSize : U64) {md : FileMetadata} {segs : List Segment}
    (h : dxFileNew pkg ec overhead fileSize = .ok (md, segs)) :
    (ec.type = pkg.ecTypeStandard →
      md.newErasureCode pkg = liftErr (pkg.new pkg.ecTypeStandard ec.minSectors ec.numSectors [])) ∧
    (∀ s rest, ec.type = pkg.ecTypeShard → ec.extra = .int s :: rest →
      md.newErasureCode pkg =
        liftErr (pkg.new pkg.ecTypeShard ec.minSectors ec.numSectors [.int (s % 4294967296)])) := by
  have hmd : ∀ x, erasureCodeToParams pkg ec = .ok (ec.minSectors, ec.numSectors, x) →
      md = newFileMetadata ec overhead fileSize x := fun x hx => by
    rw [dxFileNew_of_params hx] at h
    obtain ⟨n, -, hn⟩ := bind_eq_ok.1 h
    exact (Prod.mk.inj (Except.ok.inj hn)).1.symm
  refine ⟨fun ht => ?_, fun s rest ht he => ?_⟩
  · rw [hmd _ (erasureCodeToParams_standard ht)]
    simp only [newFileMetadata, FileMetadata.newErasureCode, ht, if_true]
    rfl
  · obtain ⟨x, hx⟩ : ∃ x, littleEndianPutUint32 (List.replicate 4 0) (BitVec.ofInt 32 s) = .ok x :=
      ⟨_, littleEndianPutUint32_fresh _⟩
    have hparams : erasureCodeToParams pkg ec = .ok (ec.minSectors, ec.numSectors, x) := by
      rw [erasureCodeToParams_shard ht he, hx]
      rfl
    rw [hmd x hparams, newErasureCode_putUint32 _ ht hx, toNat_ofInt_thirtyTwo]
    rfl

/-- A shard coder whose shard size `2 ^ 32 + 5` does not fit the `uint32` it is stored as: the
metadata `New` writes for a one-byte file builds it back with shard size `5`. -/
theorem newErasureCode_dxFileNew_wraps :
    let pkg : ErasureCodePkg :=
      ⟨0, 1, by decide, 64, "invalid erasure code type", fun t m n e => .ok ⟨t, m, n, e⟩⟩
    let ec : ErasureCoder := ⟨1, 1, 2, [.int 4294967301]⟩
    ∃ md segs, dxFileNew pkg ec 0 1 = .ok (md, segs) ∧
      md.newErasureCode pkg = .ok ⟨1, 1, 2, [.int 5]⟩ := by
  intro pkg ec
  obtain ⟨⟨md, segs⟩, h⟩ : ∃ r, dxFileNew pkg ec 0 1 = .ok r := ⟨_, by simp only [pkg, ec]; rfl⟩
  exact ⟨md, segs, h, (newErasureCode_dxFileNew pkg ec 0 1 h).2 _ _ rfl rfl⟩

end Godx.DxFile
