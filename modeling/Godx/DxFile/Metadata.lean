import Godx.DxFile.Persist

/-!
# The metadata of a dxfile: erasure-code parameters and segments

`New` writes a file's `Metadata` from its erasure coder (`erasureCodeToParams`) and creates one
`segment` per `numSegments`; when the file is loaded, `Metadata.newErasureCode` builds the erasure
coder back from what the metadata holds. The shard size of a shard coder travels as four bytes of
`ECExtra`, written and read with Go's `binary.LittleEndian` (`littleEndianPutUint32`,
`littleEndianUint32`, translated from the Go standard library).

The package `erasurecode` is abstract (`ErasureCodePkg`): its two type constants, its default
shard size, its invalid-type error and its constructor `erasurecode.New`. An `ErasureCoder` is
any value of the Go interface, by what its methods `Type`, `MinSectors`, `NumSectors` and `Extra`
return: a type code that may be neither constant, and `Extra()` as a list of `interface{}` values
(`GoValue`), whose first element `erasureCodeToParams` asserts to be an `int`.
-/

namespace Godx.DxFile

/-! ## `binary.LittleEndian` -/

/-- `byte(v)`: the low eight bits. -/
def byteOf (v : BitVec 32) : UInt8 := UInt8.ofNat v.toNat

/-- `binary.LittleEndian.PutUint32(b, v)`. -/
def littleEndianPutUint32 (b : Bytes) (v : BitVec 32) : Except GoError Bytes := do
  let _ ← goGet b 3
  let b ← goSet b 0 (byteOf v)
  let b ← goSet b 1 (byteOf (v >>> 8))
  let b ← goSet b 2 (byteOf (v >>> 16))
  goSet b 3 (byteOf (v >>> 24))

/-- `binary.LittleEndian.Uint32(b)`. -/
def littleEndianUint32 (b : Bytes) : Except GoError (BitVec 32) := do
  let _ ← goGet b 3
  let b0 ← goGet b 0
  let b1 ← goGet b 1
  let b2 ← goGet b 2
  let b3 ← goGet b 3
  return BitVec.ofNat 32 b0.toNat ||| BitVec.ofNat 32 b1.toNat <<< 8 |||
    BitVec.ofNat 32 b2.toNat <<< 16 ||| BitVec.ofNat 32 b3.toNat <<< 24

/-! ## The erasure coder -/

/-- A value of Go's `interface{}`, as the type assertion `.(int)` sees it: an `int`, or a value of
another dynamic type. -/
inductive GoValue
  | int (v : Int)
  | other
  deriving DecidableEq, Repr

/-- The type assertion `x.(int)`: a value of another dynamic type panics. -/
def GoValue.assertInt : GoValue → Except GoError Int
  | .int v => pure v
  | .other => .error (.panic .typeAssertion)

/-- An `erasurecode.ErasureCoder`, by what `Type`, `MinSectors`, `NumSectors` and `Extra`
return. -/
structure ErasureCoder where
  type : UInt8
  minSectors : BitVec 32
  numSectors : BitVec 32
  extra : List GoValue
  deriving DecidableEq

/-- What `dxfile` uses of package `erasurecode`. -/
structure ErasureCodePkg where
  /-- `erasurecode.ECTypeStandard`. -/
  ecTypeStandard : UInt8
  /-- `erasurecode.ECTypeShard`. -/
  ecTypeShard : UInt8
  standard_ne_shard : ecTypeStandard ≠ ecTypeShard
  /-- `erasurecode.EncodedShardUnit`. -/
  encodedShardUnit : Int
  /-- The text of `erasurecode.ErrInvalidECType`. -/
  errInvalidECType : String
  /-- `erasurecode.New(ecType, minSectors, numSectors, extra...)`. -/
  new : UInt8 → BitVec 32 → BitVec 32 → List GoValue → Except String ErasureCoder

/-- `erasureCodeToParams`: `MinSectors`, `NumSectors` and the extra bytes; a shard coder's shard
size is written as four little-endian bytes of `uint32(shardSize)`. A coder of another type
panics. -/
def erasureCodeToParams (pkg : ErasureCodePkg) (ec : ErasureCoder) :
    Except GoError (BitVec 32 × BitVec 32 × Bytes) := do
  let minSectors := ec.minSectors
  let numSectors := ec.numSectors
  if ec.type = pkg.ecTypeStandard then
    return (minSectors, numSectors, [])
  else if ec.type = pkg.ecTypeShard then
    let extra := ec.extra
    let extraBytes := List.replicate 4 0
    let shardSize ← (← goGet extra 0).assertInt
    let extraBytes ← littleEndianPutUint32 extraBytes (BitVec.ofInt 32 shardSize)
    return (minSectors, numSectors, extraBytes)
  else .error (.panic (.explicit "erasure code type not recognized"))

/-! ## `Metadata` -/

/-- The fields of `Metadata` that `New`, `segmentSize`, `numSegments` and `newErasureCode` read or
write, beside those `validate` reads. -/
structure FileMetadata extends Metadata where
  fileSize : U64
  sectorSize : U64
  erasureCodeType : UInt8
  minSectors : BitVec 32
  ecExtra : Bytes
  deriving DecidableEq

/-- `md.newErasureCode()`: `ECExtra` shorter than four bytes gives the default shard size. -/
def FileMetadata.newErasureCode (pkg : ErasureCodePkg) (md : FileMetadata) :
    Except GoError ErasureCoder :=
  if md.erasureCodeType = pkg.ecTypeStandard then
    liftErr (pkg.new md.erasureCodeType md.minSectors md.numSectors [])
  else if md.erasureCodeType = pkg.ecTypeShard then do
    let shardSize ← if md.ecExtra.length ≥ 4 then do
        let v ← littleEndianUint32 md.ecExtra
        pure (v.toNat : Int)
      else pure pkg.encodedShardUnit
    liftErr (pkg.new md.erasureCodeType md.minSectors md.numSectors [.int shardSize])
  else .error (.err pkg.errInvalidECType)

/-- `md.segmentSize()`: the bytes of one segment, a `uint64` product. -/
def FileMetadata.segmentSize (md : FileMetadata) : U64 :=
  md.sectorSize * BitVec.ofNat 64 md.minSectors.toNat

/-- `md.numSegments()`: at least one segment, and one more for a partial last segment. -/
def FileMetadata.numSegments (md : FileMetadata) : Except GoError U64 := do
  let num ← goDiv md.fileSize md.segmentSize
  return if md.fileSize % md.segmentSize ≠ 0 ∨ num = 0 then num + 1 else num

/-! ## `New` -/

/-- `SectorSize`: 4 MiB. -/
def sectorSize : U64 := BitVec.ofNat 64 (1 <<< 22)

/-- `New`, up to the random file id, the paths, times, file mode, cipher key bytes, the
write-ahead log and `saveAll`: the metadata it writes for a file of `fileSize` bytes, encrypted
with a cipher key of `cipherKey.Overhead()` bytes, and the segments it creates. -/
def dxFileNew (pkg : ErasureCodePkg) (erasureCode : ErasureCoder) (cipherKeyOverhead : U64)
    (fileSize : U64) : Except GoError (FileMetadata × List Segment) := do
  let (minSectors, numSectors, extra) ← erasureCodeToParams pkg erasureCode
  let md : FileMetadata :=
    { newMetadata numSectors with
      fileSize := fileSize
      sectorSize := sectorSize - cipherKeyOverhead
      erasureCodeType := erasureCode.type
      minSectors := minSectors
      ecExtra := extra }
  let numSegments ← md.numSegments
  return (md, (List.range numSegments.toNat).map fun i =>
    { sectors := List.replicate numSectors.toNat [], index := BitVec.ofNat 64 i, offset := 0,
      stuck := false })

end Godx.DxFile
