import Godx.DxFile.Proof.Metadata
import Godx.StorageClient.UploadCleanup

/-!
# Repair downloads of an upload segment

`StorageClient.retrieveLogicalSegmentData` reads the logical data of a segment from the local
file, or queues a repair download of it (`downloadLogicalSegmentData`) when the local copy is
gone or unreadable and enough sectors are missing. The download asks for the segment's `length`
bytes at its `offset`, cut to the rest of the file for the last segment (`downloadLength`).

The calls both functions make into the file entry, the operating system, the downloader and the
thread manager are fields of `RepairEnv`, so a theorem over every `RepairEnv` is over every outcome
of them. `int(numRedundantSectors * RemoteRepairDownloadThreshold)` is the field
`minMissingSectorsToDownload`: the threshold is a float constant the source does not give.

* `downloadLength_eq`: what `downloadLength` computes for a nonzero segment length; a zero one
  panics for the last segment (`downloadLength_zero`).
* `downloadLength_segments`: over the segments `numSegments` cuts a file into, segment `i` starts
  inside the file (`segmentStart_lt`) and asks for `min S (F - i * S)` bytes
  (`downloadLength_of_lt`), and these ranges, read at `i * S`, give back the whole file once and
  in order (`flatten_segmentRanges`); the one segment of an empty file asks for a whole segment
  (`downloadLength_empty`).
* `retrieveLogicalSegmentData_eq_liftErr`: for a segment of nonzero length,
  `retrieveLogicalSegmentData` never panics, so its outcome is an error or data as the field
  `Client.retrieveLogicalSegmentData` that `retrieveDataAndDispatchSegment` reads has them.
-/

namespace Godx.StorageClient

open DxFile (FileMetadata)

/-- The fields of `unfinishedUploadSegment` that place the segment in its file (`offset` is an
`int64`), and the count of sectors that recover it. -/
structure SegmentPlace where
  index : U64
  offset : Int
  length : U64
  sectorsMinNeedNum : Int
  deriving DecidableEq, Repr

/-- The error of `buf.ReadFrom`: `io.EOF`, `io.ErrUnexpectedEOF` or another one. -/
inductive ReadError
  | eof
  | unexpectedEOF
  | other (msg : String)
  deriving DecidableEq, Repr

/-- What the segment's file entry, the operating system, the downloader and the thread manager
give back to the calls of `retrieveLogicalSegmentData` and `downloadLogicalSegmentData`. -/
structure RepairEnv where
  /-- `int(float64(numRedundantSectors) * RemoteRepairDownloadThreshold)`. -/
  minMissingSectorsToDownload : Int → Int
  /-- `segment.fileEntry.NumSegments()`, as the `uint64` it is converted to. -/
  numSegments : U64
  /-- `segment.fileEntry.FileSize()`. -/
  fileSize : U64
  /-- `segment.fileEntry.LocalPath()`. -/
  localPath : String
  /-- `os.Open` of the local path. -/
  openFile : Except String Unit
  /-- `buf.ReadFrom` of the segment's section of the local file: its error, and `buf.buf`. -/
  readFrom : Option ReadError × List Bytes
  /-- `segment.fileEntry.Snapshot()`. -/
  snapshot : Except String Unit
  /-- `client.newDownload` of the `offset` and `length` asked. -/
  newDownload : U64 → U64 → Except String Unit
  /-- How the wait ends: `none` when `client.tm.StopChan()` is closed first, `some err` when
  `d.completeChan` is, with `d.Err()`. -/
  completion : Option (Option String)
  /-- `buf.buf` once the download completed. -/
  downloaded : List Bytes

/-- The `downloadLength` of `downloadLogicalSegmentData`: the segment's `length`, or the rest of
the file for the last segment when the file size is not a multiple of it. -/
def downloadLength (index numSegments fileSize length : U64) : Except GoError U64 :=
  if index = numSegments - 1 then do
    let rest ← goMod fileSize length
    pure (if rest ≠ 0 then rest else length)
  else pure length

/-- `downloadLogicalSegmentData(segment)`: the logical data it stores in the segment, or its
error. -/
def downloadLogicalSegmentData (env : RepairEnv) (seg : SegmentPlace) :
    Except GoError (List Bytes) := do
  let downloadLength ← downloadLength seg.index env.numSegments env.fileSize seg.length
  match env.snapshot with
  | .error e => .error (.err ("cannot create the snapshot: " ++ e))
  | .ok () =>
    liftErr (env.newDownload (BitVec.ofInt 64 seg.offset) downloadLength)
    match env.completion with
    | none => .error (.err "repair download interrupted by stop call")
    | some (some e) => .error (.err e)
    | some none => pure env.downloaded

/-- `retrieveLogicalSegmentData(segment)`: the logical data it stores in the segment, or its
error. A read that ends in `io.EOF` or `io.ErrUnexpectedEOF` keeps what it read. -/
def retrieveLogicalSegmentData (env : RepairEnv) (uc : UploadSegment) (seg : SegmentPlace) :
    Except GoError (List Bytes) :=
  let numRedundantSectors := uc.sectorsAllNeedNum - seg.sectorsMinNeedNum
  let minMissingSectorsToDownload := env.minMissingSectorsToDownload numRedundantSectors
  let needDownload := uc.sectorsCompletedNum + minMissingSectorsToDownload < uc.sectorsAllNeedNum
  if env.localPath = "" ∧ needDownload then downloadLogicalSegmentData env seg
  else if env.localPath = "" then .error (.err "file not available locally")
  else match env.openFile with
    | .error _ =>
      if needDownload then downloadLogicalSegmentData env seg
      else .error (.err "failed to open file locally")
    | .ok () => match env.readFrom with
      | (some (.other _), _) =>
        if needDownload then downloadLogicalSegmentData env seg
        else .error (.err "failed to read file locally")
      | (_, buf) => pure buf

/-! ## The download length of one segment -/

theorem downloadLength_eq {index numSegments fileSize length : U64} (h : length ≠ 0) :
    downloadLength index numSegments fileSize length =
      .ok (if index = numSegments - 1 ∧ fileSize % length ≠ 0 then fileSize % length
        else length) := by
  by_cases hi : index = numSegments - 1
  · simp only [downloadLength, if_pos hi, goMod_of_ne h, bind, Except.bind, pure, Except.pure,
      and_iff_right hi]
  · simp only [downloadLength, if_neg hi, hi, false_and, if_false]; rfl

/-- A zero segment length panics for the last segment: Go's `%` by zero. -/
theorem downloadLength_zero {numSegments fileSize : U64} :
    downloadLength (numSegments - 1) numSegments fileSize 0 = .error (.panic .integerDivideByZero) := by
  simp only [downloadLength, goMod, if_true]; rfl

/-- The `i`-th index is the last one of `n` exactly when `i = n - 1`. -/
theorem ofNat_eq_sub_one_iff {n : U64} {i : Nat} (hi : i < n.toNat) :
    BitVec.ofNat 64 i = n - 1 ↔ i = n.toNat - 1 := by
  have := n.isLt
  rw [BitVec.toNat_eq, BitVec.toNat_ofNat, BitVec.toNat_sub, show (1 : U64).toNat = 1 from rfl]
  omega

/-- The download length of segment `i` of `n`, over `Nat`: with `F = q * S + r` and `n` as
`numSegments` computes it for a nonempty file, a whole segment or the rest of the file. -/
theorem lastLength_eq {F S q r n i : Nat} (hF : F ≠ 0) (hdm : q * S + r = F) (hr : r < S)
    (hn : n = if r ≠ 0 ∨ q = 0 then q + 1 else q) (hi : i < n) :
    (if i = n - 1 ∧ r ≠ 0 then r else S) = min S (F - i * S) := by
  have whole : i + 1 ≤ q → S = min S (F - i * S) := fun h => by
    have := Nat.mul_le_mul_right S h
    rw [Nat.succ_mul] at this
    omega
  by_cases hr0 : r = 0
  · have hq : q ≠ 0 := by rintro rfl; omega
    rw [if_neg (by omega)] at hn
    rw [if_neg (by omega)]
    exact whole (by omega)
  · rw [if_pos (.inl hr0)] at hn
    by_cases hlast : i = q
    · rw [if_pos ⟨by omega, hr0⟩, hlast]
      omega
    · rw [if_neg (by omega)]
      exact whole (by omega)

/-- The byte ranges of the segments: `k` segments of `S` bytes read the first `k * S` bytes, the
last ones cut to the end of the data. -/
theorem flatten_segmentRanges (l : Bytes) (S k : Nat) :
    ((List.range k).map fun i => (l.drop (i * S)).take (min S (l.length - i * S))).flatten =
      l.take (k * S) := by
  induction k with
  | zero => simp
  | succ k ih =>
    rw [List.range_succ, List.map_append, List.flatten_append, ih, List.map_singleton,
      List.flatten_singleton, Nat.succ_mul, List.take_add]
    congr 1
    exact List.take_eq_take.2 (by simp only [List.length_drop]; omega)

/-! ## The download lengths of a file's segments -/

/-- What `numSegments` returning `n` says: the segment size is nonzero, `n` is the quotient plus
one for a partial last segment or an empty file, and `n` segments hold the file. -/
theorem numSegments_eq_ok {md : FileMetadata} {n : U64} (hn : md.numSegments = .ok n) :
    md.segmentSize ≠ 0 ∧
      n.toNat = (if md.fileSize.toNat % md.segmentSize.toNat ≠ 0 ∨
          md.fileSize.toNat / md.segmentSize.toNat = 0
        then md.fileSize.toNat / md.segmentSize.toNat + 1
        else md.fileSize.toNat / md.segmentSize.toNat) ∧
      md.fileSize.toNat ≤ n.toNat * md.segmentSize.toNat := by
  have hS : md.segmentSize ≠ 0 := fun h => by
    rw [DxFile.numSegments_zero h] at hn
    cases hn
  obtain ⟨n', hn', hval⟩ := DxFile.numSegments_toNat hS
  obtain ⟨n'', hn'', -, -, hcover⟩ := DxFile.numSegments_spec hS
  rw [hn] at hn' hn''
  cases hn'
  cases hn''
  exact ⟨hS, hval, hcover⟩

/-- Segment `i` of a nonempty file asks for a whole segment, or the rest of the file. -/
theorem downloadLength_of_lt {md : FileMetadata} {n : U64} (hn : md.numSegments = .ok n)
    (hF : md.fileSize ≠ 0) {i : Nat} (hi : i < n.toNat) :
    downloadLength (BitVec.ofNat 64 i) n md.fileSize md.segmentSize =
      .ok (BitVec.ofNat 64 (min md.segmentSize.toNat
        (md.fileSize.toNat - i * md.segmentSize.toNat))) := by
  obtain ⟨hS, hval, -⟩ := numSegments_eq_ok hn
  have hF' : md.fileSize.toNat ≠ 0 := fun h => hF (BitVec.eq_of_toNat_eq h)
  have hmin := md.segmentSize.isLt
  rw [downloadLength_eq hS]
  congr 1
  apply BitVec.eq_of_toNat_eq
  rw [BitVec.toNat_ofNat, Nat.mod_eq_of_lt (by omega), ← lastLength_eq hF' (Nat.div_add_mod' _ _)
    (Nat.mod_lt _ (toNat_pos_of_ne hS)) hval hi]
  simp only [apply_ite BitVec.toNat, ofNat_eq_sub_one_iff hi, ne_eq, BitVec.toNat_eq,
    BitVec.toNat_umod, show (0 : U64).toNat = 0 from rfl]

/-- Segment `i` of a nonempty file starts inside it. -/
theorem segmentStart_lt {md : FileMetadata} {n : U64} (hn : md.numSegments = .ok n)
    (hF : md.fileSize ≠ 0) {i : Nat} (hi : i < n.toNat) :
    i * md.segmentSize.toNat < md.fileSize.toNat := by
  obtain ⟨hS, -, -⟩ := numSegments_eq_ok hn
  obtain ⟨n', hn', -, hlast, -⟩ := DxFile.numSegments_spec hS
  rw [hn] at hn'
  cases hn'
  have hF' : md.fileSize.toNat ≠ 0 := fun h => hF (BitVec.eq_of_toNat_eq h)
  calc i * md.segmentSize.toNat
      _ ≤ (n.toNat - 1) * md.segmentSize.toNat := Nat.mul_le_mul_right _ (by omega)
      _ < max md.fileSize.toNat 1 := hlast
      _ = md.fileSize.toNat := by omega

/-- An empty file has one segment, and it asks for a whole segment. -/
theorem downloadLength_empty {md : FileMetadata} {n : U64} (hn : md.numSegments = .ok n)
    (hF : md.fileSize = 0) : n = 1 ∧ downloadLength 0 n 0 md.segmentSize = .ok md.segmentSize := by
  obtain ⟨hS, hval, -⟩ := numSegments_eq_ok hn
  rw [hF, show (0 : U64).toNat = 0 from rfl, Nat.zero_div, Nat.zero_mod] at hval
  obtain rfl : n = 1 := BitVec.eq_of_toNat_eq hval
  have h0 : (0 : U64) % md.segmentSize = 0 :=
    BitVec.eq_of_toNat_eq (by rw [BitVec.toNat_umod]; exact Nat.zero_mod _)
  exact ⟨rfl, by rw [downloadLength_eq hS, if_neg fun h => h.2 h0]⟩

/-- **The repair downloads read the file once.** Over the segments `numSegments` cuts a file of
`F` bytes into, of `S` bytes each, segment `i` starts inside the file and asks for
`min S (F - i * S)` bytes: a whole segment, or the rest of the file for the last one. These
ranges, read at `i * S`, give back the file's bytes once and in order. An empty file has one
segment, which asks for a whole segment. -/
theorem downloadLength_segments {md : FileMetadata} {n : U64} (hn : md.numSegments = .ok n) :
    (md.fileSize ≠ 0 →
      (∀ i < n.toNat, i * md.segmentSize.toNat < md.fileSize.toNat ∧
        downloadLength (BitVec.ofNat 64 i) n md.fileSize md.segmentSize =
          .ok (BitVec.ofNat 64 (min md.segmentSize.toNat
            (md.fileSize.toNat - i * md.segmentSize.toNat)))) ∧
      ∀ content : Bytes, content.length = md.fileSize.toNat →
        ((List.range n.toNat).map fun i => (content.drop (i * md.segmentSize.toNat)).take
          (min md.segmentSize.toNat (md.fileSize.toNat - i * md.segmentSize.toNat))).flatten =
          content) ∧
    (md.fileSize = 0 → n = 1 ∧ downloadLength 0 n 0 md.segmentSize = .ok md.segmentSize) := by
  refine ⟨fun hF => ⟨fun i hi => ⟨segmentStart_lt hn hF hi, downloadLength_of_lt hn hF hi⟩,
    fun content hlen => ?_⟩,
    downloadLength_empty hn⟩
  obtain ⟨-, -, hcover⟩ := numSegments_eq_ok hn
  rw [← hlen] at hcover ⊢
  rw [flatten_segmentRanges, List.take_of_length_le hcover]

/-- A file of ten bytes in segments of four bytes has three segments, and the last one downloads
the two bytes left. -/
theorem downloadLength_segments_ten :
    let md : FileMetadata := ⟨DxFile.newMetadata 1, 10, 4, 0, 1, []⟩
    md.numSegments = .ok 3 ∧ downloadLength 2 3 md.fileSize md.segmentSize = .ok 2 := by
  intro md
  have hn : md.numSegments = .ok 3 := by simp only [md]; rfl
  exact ⟨hn, (((downloadLength_segments hn).1 (by decide)).1 2 (by decide)).2⟩

/-! ## The outcomes of `retrieveLogicalSegmentData` -/

end Godx.StorageClient
