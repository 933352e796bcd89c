import Godx.Go

/-!
# Encoding an upload segment, and the cleanup deferred after it

`StorageClient.retrieveDataAndDispatchSegment` and the `cleanupUploadSegment` it defers, on the
fields of `unfinishedUploadSegment` they read and write. The calls they make that can fail (the
erasure code and cipher key of the file entry, `retrieveLogicalSegmentData`, `ec.Encode`,
`key.Encrypt`) are fields of `Client`, so a theorem over every `Client` is over every outcome of
them. Go's `a[i]` and `a[i] = v` are `goGet` and `goSet`, which panic out of range. Beside the
segment, each function returns the memory it passes to `client.memoryManager.Return`.

* `cleanupUploadSegment_ok`: the release loop of `cleanupUploadSegment` never panics when
  `physicalSegmentData` is at least as long as `sectorSlotsStatus`.
* `retrieveDataAndDispatchSegment_ok`: so the whole call never panics when that holds on entry
  and the erasure coder returns at least one sector per slot.
* `retrieveDataAndDispatchSegment_panics`: `physicalSegmentData` is overwritten by `ec.Encode`'s
  result even when it fails, or when it returns fewer sectors than there are slots, and both
  paths return early into the deferred cleanup, which then writes
  `uc.physicalSegmentData[i] = nil` for an unset slot past the end: an index-out-of-range panic.
-/

namespace Godx.StorageClient

/-- `storage.SectorSize`: 4 MiB. -/
def sectorSize : Nat := 1 <<< 22

/-- The fields of `unfinishedUploadSegment` the two functions read or write. -/
structure UploadSegment where
  memoryReleased : Nat
  sectorsAllNeedNum : Int
  logicalSegmentData : List Bytes
  physicalSegmentData : List Bytes
  sectorSlotsStatus : List Bool
  sectorsCompletedNum : Int
  sectorsUploadingNum : Int
  released : Bool
  workersRemain : Int
  deriving DecidableEq, Repr

/-- An erasure coder: `MinSectors()` and `Encode`, which returns sectors and an error. -/
structure ErasureCoder where
  minSectors : Nat
  encode : Bytes → List Bytes × Option String

/-- A cipher key: `Encrypt` of one sector. -/
structure CipherKey where
  encrypt : Bytes → Except String Bytes

/-- What the storage client and the segment's file entry give back to the calls
`retrieveDataAndDispatchSegment` makes. -/
structure Client where
  /-- `client.tm.StopChan()` is closed, or `client.tm.Add()` failed. -/
  stopped : Bool
  /-- `segment.fileEntry.ErasureCode()`. -/
  erasureCode : Except String ErasureCoder
  /-- `segment.fileEntry.SectorSize()`. -/
  fileSectorSize : Nat
  /-- `client.retrieveLogicalSegmentData(segment)`: an error, or the logical data it stores. The
  call itself is `StorageClient.retrieveLogicalSegmentData`, whose outcome for a segment of
  nonzero length is one of these (`retrieveLogicalSegmentData_eq_liftErr`). -/
  retrieveLogicalSegmentData : Except String (List Bytes)
  /-- `segment.fileEntry.CipherKey()`. -/
  cipherKey : Except String CipherKey
  /-- `len(client.workerPool)`. -/
  workerPool : Nat

/-! ## `cleanupUploadSegment` -/

/-- `IsSegmentUploadComplete`. -/
def UploadSegment.isSegmentUploadComplete (uc : UploadSegment) : Bool :=
  (uc.sectorsCompletedNum = uc.sectorsAllNeedNum && uc.sectorsUploadingNum = 0) ||
    (uc.workersRemain = 0 && uc.sectorsUploadingNum = 0)

/-- The variables of the release loop of `cleanupUploadSegment`. -/
structure ReleaseLoop where
  uc : UploadSegment
  sectorsAvailable : Int
  memoryReleased : Nat

/-- Iteration `i` of the release loop: an unset slot beyond the ones the remaining workers can
still fill has its sector dropped and is marked set. -/
def releaseStep (l : ReleaseLoop) (i : Nat) : Except GoError ReleaseLoop := do
  if ← goGet l.uc.sectorSlotsStatus i then
    return l
  else if l.sectorsAvailable ≥ l.uc.workersRemain then
    let physicalSegmentData ← goSet l.uc.physicalSegmentData i []
    let sectorSlotsStatus ← goSet l.uc.sectorSlotsStatus i true
    return { l with
      memoryReleased := l.memoryReleased + sectorSize,
      uc := { l.uc with physicalSegmentData, sectorSlotsStatus } }
  else
    return { l with sectorsAvailable := l.sectorsAvailable + 1 }

/-- `cleanupUploadSegment(uc)`: the release loop, the release of a complete segment, and the
memory count; with the segment, the memory it passes to `client.memoryManager.Return`. -/
def cleanupUploadSegment (uc : UploadSegment) : Except GoError (UploadSegment × Nat) := do
  let l ← (List.range uc.sectorSlotsStatus.length).foldlM releaseStep ⟨uc, 0, 0⟩
  let uc := l.uc
  let uc := if uc.isSegmentUploadComplete && !uc.released then { uc with released := true } else uc
  return ({ uc with memoryReleased := uc.memoryReleased + l.memoryReleased },
    if l.memoryReleased > 0 then l.memoryReleased else 0)

/-! ## `retrieveDataAndDispatchSegment` -/

/-- The loop that drops every sector after a failed `ec.Encode`. -/
def clearStep (physicalSegmentData : List Bytes) (i : Nat) : Except GoError (List Bytes) :=
  goSet physicalSegmentData i []

/-- Iteration `i` of the encryption loop: a set slot's sector is dropped, an unset one's is
encrypted (and dropped if that fails). -/
def encryptStep (key : CipherKey) (sectorSlotsStatus : List Bool) (physicalSegmentData : List Bytes)
    (i : Nat) : Except GoError (List Bytes) := do
  if ← goGet sectorSlotsStatus i then
    goSet physicalSegmentData i []
  else
    match key.encrypt (← goGet physicalSegmentData i) with
    | .error _ => goSet physicalSegmentData i []
    | .ok cipherData => goSet physicalSegmentData i cipherData

/-- `retrieveDataAndDispatchSegment` after `defer client.cleanupUploadSegment(segment)`, up to each
of its returns: the segment the deferred cleanup then sees, and the memory passed to
`client.memoryManager.Return` on the way. -/
def encodeAndDispatch (client : Client) (ec : ErasureCoder)
    (erasureCodingMemory sectorCompletedMemory : Nat) (segment : UploadSegment) :
    Except GoError (UploadSegment × Nat) :=
  match client.retrieveLogicalSegmentData with
  | .error _ =>
    pure ({ segment with
      logicalSegmentData := [], workersRemain := 0,
      memoryReleased := segment.memoryReleased + (erasureCodingMemory + sectorCompletedMemory) },
      erasureCodingMemory + sectorCompletedMemory)
  | .ok logicalSegmentData =>
    let (physicalSegmentData, err) := ec.encode logicalSegmentData.flatten
    let segment := { segment with logicalSegmentData, physicalSegmentData }
    if err.isSome then do
      let physicalSegmentData ← (List.range segment.physicalSegmentData.length).foldlM clearStep
        segment.physicalSegmentData
      return ({ segment with
        workersRemain := 0, physicalSegmentData,
        memoryReleased := segment.memoryReleased + sectorCompletedMemory }, sectorCompletedMemory)
    else
      let segment := { segment with
        logicalSegmentData := [], memoryReleased := segment.memoryReleased + erasureCodingMemory }
      if segment.physicalSegmentData.length < segment.sectorSlotsStatus.length then
        pure (segment, erasureCodingMemory)
      else match client.cipherKey with
      | .error _ => pure (segment, erasureCodingMemory)
      | .ok key => do
        let physicalSegmentData ← (List.range segment.sectorSlotsStatus.length).foldlM
          (encryptStep key segment.sectorSlotsStatus) segment.physicalSegmentData
        let segment := { segment with physicalSegmentData }
        let (segment, returned) := if sectorCompletedMemory > 0 then
          ({ segment with memoryReleased := segment.memoryReleased + sectorCompletedMemory },
            erasureCodingMemory + sectorCompletedMemory)
          else (segment, erasureCodingMemory)
        -- `dispatchSegment`
        return ({ segment with workersRemain := segment.workersRemain + client.workerPool }, returned)

/-- `retrieveDataAndDispatchSegment(segment)`: the segment after the call, and the memory passed
to `client.memoryManager.Return` during it, its deferred cleanup included. -/
def retrieveDataAndDispatchSegment (client : Client) (segment : UploadSegment) :
    Except GoError (UploadSegment × Nat) :=
  if client.stopped then pure (segment, 0) else
  match client.erasureCode with
  | .error _ => pure (segment, 0)
  | .ok ec => do
    let erasureCodingMemory := client.fileSectorSize * ec.minSectors
    let sectorCompletedMemory := segment.sectorSlotsStatus.count true * sectorSize
    let body ← encodeAndDispatch client ec erasureCodingMemory sectorCompletedMemory segment
    let cleanup ← cleanupUploadSegment body.1
    return (cleanup.1, body.2 + cleanup.2)

/-! ## No panic when every slot has a sector -/

theorem releaseStep_ok {n : Nat} {l : ReleaseLoop} {i : Nat} (hi : i < n)
    (hl : l.uc.sectorSlotsStatus.length = n ∧ n ≤ l.uc.physicalSegmentData.length) :
    ∃ l', releaseStep l i = .ok l' ∧
      l'.uc.sectorSlotsStatus.length = n ∧ n ≤ l'.uc.physicalSegmentData.length := by
  obtain ⟨hs, hp⟩ := hl
  simp only [releaseStep, goGet_of_lt (show i < l.uc.sectorSlotsStatus.length by omega), bind,
    Except.bind]
  split
  · exact ⟨l, rfl, hs, hp⟩
  split
  · rw [goSet_of_lt _ (show i < l.uc.physicalSegmentData.length by omega),
      goSet_of_lt _ (show i < l.uc.sectorSlotsStatus.length by omega)]
    exact ⟨_, rfl, by simp [hs], by simp; omega⟩
  · exact ⟨_, rfl, hs, hp⟩

/-- The release loop never indexes `physicalSegmentData` out of range when it has a sector for
every slot. -/
theorem cleanupUploadSegment_ok {uc : UploadSegment}
    (h : uc.sectorSlotsStatus.length ≤ uc.physicalSegmentData.length) :
    ∃ uc', cleanupUploadSegment uc = .ok uc' := by
  obtain ⟨l, hl, -⟩ := foldlM_ok (fun l : ReleaseLoop => l.uc.sectorSlotsStatus.length =
      uc.sectorSlotsStatus.length ∧ uc.sectorSlotsStatus.length ≤ l.uc.physicalSegmentData.length)
    (fun l i hi hP => releaseStep_ok (List.mem_range.1 hi) hP) ⟨uc, 0, 0⟩ ⟨rfl, h⟩
  simp only [cleanupUploadSegment, hl, bind, Except.bind]
  exact ⟨_, rfl⟩

theorem clearStep_ok {m : Nat} {physical : List Bytes} {i : Nat} (hi : i < m)
    (hp : physical.length = m) : ∃ p', clearStep physical i = .ok p' ∧ p'.length = m :=
  ⟨_, goSet_of_lt _ (hp ▸ hi), by simp [hp]⟩

theorem encryptStep_ok (key : CipherKey) {slots : List Bool} {physical : List Bytes} {i : Nat}
    (hi : i < slots.length) (hp : slots.length ≤ physical.length) :
    ∃ p', encryptStep key slots physical i = .ok p' ∧ p'.length = physical.length := by
  simp only [encryptStep, goGet_of_lt hi, goGet_of_lt (show i < physical.length by omega), bind,
    Except.bind]
  split
  · rw [goSet_of_lt _ (by omega)]; exact ⟨_, rfl, List.length_set ..⟩
  split <;> (rw [goSet_of_lt _ (by omega)]; exact ⟨_, rfl, List.length_set ..⟩)

/-- The body before the deferred cleanup never panics, keeps the slots, and leaves a sector for
every slot when there was one on entry and the erasure coder returns one. -/
theorem encodeAndDispatch_ok (client : Client) (ec : ErasureCoder) (m c : Nat)
    {segment : UploadSegment}
    (h0 : segment.sectorSlotsStatus.length ≤ segment.physicalSegmentData.length)
    (hencode : ∀ logical, client.retrieveLogicalSegmentData = .ok logical →
      segment.sectorSlotsStatus.length ≤ (ec.encode logical.flatten).1.length) :
    ∃ s', encodeAndDispatch client ec m c segment = .ok s' ∧
      s'.1.sectorSlotsStatus = segment.sectorSlotsStatus ∧
      s'.1.sectorSlotsStatus.length ≤ s'.1.physicalSegmentData.length := by
  unfold encodeAndDispatch
  split
  · exact ⟨_, rfl, rfl, h0⟩
  rename_i logical hlog
  have he := hencode logical hlog
  generalize ec.encode logical.flatten = r at he ⊢
  obtain ⟨physical, err⟩ := r
  dsimp only at he ⊢
  split
  · obtain ⟨p', hp', hlen⟩ := foldlM_ok (fun p : List Bytes => p.length = physical.length)
      (fun p i hi hP => clearStep_ok (List.mem_range.1 hi) hP) physical rfl
    simp only [hp', bind, Except.bind]
    exact ⟨_, rfl, rfl, by dsimp only; omega⟩
  split
  · exact ⟨_, rfl, rfl, he⟩
  split
  · exact ⟨_, rfl, rfl, he⟩
  rename_i key _
  obtain ⟨p', hp', hlen⟩ := foldlM_ok (fun p : List Bytes => p.length = physical.length)
    (fun p i hi hP =>
      let ⟨p', h1, h2⟩ := encryptStep_ok key (List.mem_range.1 hi)
        (show segment.sectorSlotsStatus.length ≤ p.length by omega)
      ⟨p', h1, h2.trans hP⟩) physical rfl
  simp only [hp', bind, Except.bind]
  refine ⟨_, rfl, ?_⟩
  split <;> exact ⟨rfl, by dsimp only; omega⟩

/-- `retrieveDataAndDispatchSegment` never panics on a segment with a sector for every slot when
the erasure coder returns a sector for every slot. -/
theorem retrieveDataAndDispatchSegment_ok (client : Client) {segment : UploadSegment}
    (h0 : segment.sectorSlotsStatus.length ≤ segment.physicalSegmentData.length)
    (hencode : ∀ ec logical, client.erasureCode = .ok ec →
      client.retrieveLogicalSegmentData = .ok logical →
      segment.sectorSlotsStatus.length ≤ (ec.encode logical.flatten).1.length) :
    ∃ s', retrieveDataAndDispatchSegment client segment = .ok s' := by
  unfold retrieveDataAndDispatchSegment
  split
  · exact ⟨_, rfl⟩
  split
  · exact ⟨_, rfl⟩
  rename_i ec hec
  obtain ⟨s, hs, -, hlen⟩ := encodeAndDispatch_ok client ec (client.fileSectorSize * ec.minSectors)
    (segment.sectorSlotsStatus.count true * sectorSize) h0 (hencode ec · hec)
  obtain ⟨c', hc'⟩ := cleanupUploadSegment_ok hlen
  simp only [hs, hc', bind, Except.bind]
  exact ⟨_, rfl⟩

/-- One unset slot with its sector, and an erasure coder that returns one sector: the call
returns. -/
theorem retrieveDataAndDispatchSegment_ok_oneSector :
    let segment : UploadSegment :=
      { memoryReleased := 0, sectorsAllNeedNum := 1, logicalSegmentData := [],
        physicalSegmentData := [[]], sectorSlotsStatus := [false], sectorsCompletedNum := 0,
        sectorsUploadingNum := 0, released := false, workersRemain := 0 }
    let client : Client :=
      { stopped := false, erasureCode := .ok ⟨1, fun _ => ([[7]], none)⟩,
        fileSectorSize := sectorSize, retrieveLogicalSegmentData := .ok [[7]],
        cipherKey := .ok ⟨.ok⟩, workerPool := 1 }
    ∃ s', retrieveDataAndDispatchSegment client segment = .ok s' := by
  intro segment client
  exact retrieveDataAndDispatchSegment_ok client (Nat.le_refl 1)
    fun ec _ hec _ => by cases hec; exact Nat.le_refl 1

/-- A segment with one unset slot and one sector, not dispatched. When `ec.Encode` fails with no
sectors, or returns no sectors and no error, the deferred cleanup releases the slot and writes
`physicalSegmentData[0] = nil` into the empty slice: an index-out-of-range panic. -/
theorem retrieveDataAndDispatchSegment_panics :
    let segment : UploadSegment :=
      { memoryReleased := 0, sectorsAllNeedNum := 1, logicalSegmentData := [],
        physicalSegmentData := [[]], sectorSlotsStatus := [false], sectorsCompletedNum := 0,
        sectorsUploadingNum := 0, released := false, workersRemain := 0 }
    let client (encode : Bytes → List Bytes × Option String) : Client :=
      { stopped := false, erasureCode := .ok ⟨1, encode⟩, fileSectorSize := sectorSize,
        retrieveLogicalSegmentData := .ok [[7]], cipherKey := .ok ⟨.ok⟩, workerPool := 1 }
    retrieveDataAndDispatchSegment (client fun _ => ([], some "encode failed")) segment =
        .error (.panic .indexOutOfRange) ∧
      retrieveDataAndDispatchSegment (client fun _ => ([], none)) segment =
        .error (.panic .indexOutOfRange) := by
  decide

end Godx.StorageClient
