import Godx.Vm.Types

/-!
# The persist format of a dxfile

Package `dxfile`: the `rlp` encode and decode rules of `hostTable`, `sector` and `segment`, the
page count `segmentPersistNumPages` of one persisted segment, and `Metadata.validate`, which
checks the offsets and the page count of a loaded file.

The `rlp` library is abstract (`Rlp`): an encoder and a decoder for one Go type, with the law
that decoding what was encoded gives it back. For `persistSegment` the library calls the
`EncodeRLP` and `DecodeRLP` rules of each `*sector` element, so `PersistSegment` holds each
sector as the stream its own rule wrote.

A Go map `hostTable` is its lookup function, and a `range` loop over it is any list that visits
each entry once (`IsRangeOrder`): Go leaves the order unspecified. Deleting from a map while
ranging over it is allowed, and only the key just visited is deleted here.
-/

namespace Godx.DxFile

open Vm (Hash)

/-- `enode.ID`: like `common.Hash`, a `[32]byte`. -/
abbrev NodeID := Hash

/-- The zero `[32]byte`. -/
def zeroHash : Hash := ⟨List.replicate 32 0, List.length_replicate 32 0⟩

/-- `%x` of a byte array: two lowercase hexadecimal digits per byte. -/
def hexString (b : Bytes) : String :=
  String.join (b.map fun x =>
    String.mk [Nat.digitChar (x.toNat / 16), Nat.digitChar (x.toNat % 16)])

theorem data_foldl_append (l : List String) (s : String) :
    (l.foldl (· ++ ·) s).data = s.data ++ l.flatMap String.data := by
  induction l generalizing s with
  | nil => simp
  | cons t l ih => simp [ih, String.data_append]

theorem data_hexString (b : Bytes) :
    (hexString b).data = b.flatMap fun x => [Nat.digitChar (x.toNat / 16), Nat.digitChar (x.toNat % 16)] := by
  simp only [hexString, String.join, data_foldl_append, List.flatMap_map]
  rfl

/-- `enode.ID.String`: `%x` of the ID's bytes. -/
def NodeID.string (id : NodeID) : String := hexString id.bytes

/-- `%x` of a `string`, as `fmt` formats a `Stringer` such as `enode.ID` with it: two digits per
byte of the string's UTF-8 encoding. -/
def hexOfString (s : String) : String := hexString s.toUTF8.data.toList

/-! ## The `rlp` library -/

/-- `rlp.Encode` and `Stream.Decode` for values of one Go type, written to and read from streams
of type `σ`, with the library's round trip as a field. -/
structure Rlp (σ α : Type) where
  encode : α → σ
  decode : σ → Except String α
  decode_encode : ∀ a, decode (encode a) = .ok a

/-! ## `hostTable` -/

/-- `hostTable`: `map[enode.ID]bool`. -/
def HostTable := NodeID → Option Bool

/-- `delete(ht, k)`. -/
def HostTable.erase (ht : HostTable) (k : NodeID) : HostTable :=
  fun k' => if k' = k then none else ht k'

/-- `ht[k] = v`. -/
def HostTable.set (ht : HostTable) (k : NodeID) (v : Bool) : HostTable :=
  fun k' => if k' = k then some v else ht k'

/-- The entries of `ht` in the order a `range` loop visits them: each key once. -/
structure IsRangeOrder (ht : HostTable) (order : List (NodeID × Bool)) : Prop where
  nodup : (order.map Prod.fst).Nodup
  mem_iff : ∀ k v, (k, v) ∈ order ↔ ht k = some v

/-- `persistHostAddress`. -/
structure PersistHostAddress where
  address : NodeID
  used : Bool
  deriving DecidableEq

/-- `persistHostTable`: `[]*persistHostAddress`. -/
abbrev PersistHostTable := List PersistHostAddress

/-- `hostTable.EncodeRLP`, with `range ht` visiting the entries in `order`. -/
def hostTableEncodeRLP {σ : Type} (rlp : Rlp σ PersistHostTable)
    (order : List (NodeID × Bool)) : σ :=
  rlp.encode (order.map fun (addr, used) => ⟨addr, used⟩)

/-- The insert loop of `hostTable.DecodeRLP`: a key met twice is an error, and the entries
inserted before it stay in the map. -/
def insertPersistHostTable : HostTable → PersistHostTable → Except String Unit × HostTable
  | ht, [] => (.ok (), ht)
  | ht, pha :: pht =>
    if (ht pha.address).isSome then
      (.error ("multiple keys: " ++ hexOfString (NodeID.string pha.address)), ht)
    else insertPersistHostTable (ht.set pha.address pha.used) pht

/-- `hostTable.DecodeRLP` on a receiver `ht` whose `range` visits `order`: the error it returns,
and the receiver's contents afterwards (the map is shared with the caller, so what the call
left in it stays visible on an error too). -/
def hostTableDecodeRLP {σ : Type} (rlp : Rlp σ PersistHostTable) (ht : HostTable)
    (order : List (NodeID × Bool)) (st : σ) : Except String Unit × HostTable :=
  let ht := order.foldl (fun ht kv => ht.erase kv.1) ht
  match rlp.decode st with
  | .error e => (.error e, ht)
  | .ok pht => insertPersistHostTable ht pht

/-! ## `sector` and `segment` -/

/-- `sector`. -/
structure Sector where
  merkleRoot : Hash
  hostAddress : NodeID
  deriving DecidableEq

/-- `new(sector)`. -/
def Sector.zero : Sector := ⟨zeroHash, zeroHash⟩

/-- `segment`: the sectors of each slot, the segment's index, its offset in the file and whether
its upload is stuck. -/
structure Segment where
  sectors : List (List Sector)
  index : U64
  offset : U64
  stuck : Bool
  deriving DecidableEq

/-- `new(segment)`. -/
def Segment.zero : Segment := ⟨[], 0, 0, false⟩

/-- `persistSector`. -/
structure PersistSector where
  merkleRoot : Hash
  hostAddress : NodeID
  deriving DecidableEq

/-- `persistSegment`, each sector of `Sectors` held as the stream its `EncodeRLP` wrote. -/
structure PersistSegment (τ : Type) where
  sectors : List (List τ)
  index : U64

section Rules

variable {σ τ : Type} (rlpSector : Rlp τ PersistSector)

/-- `sector.EncodeRLP`. -/
def sectorEncodeRLP (s : Sector) : τ :=
  rlpSector.encode ⟨s.merkleRoot, s.hostAddress⟩

/-- `sector.DecodeRLP`. -/
def sectorDecodeRLP (s : Sector) (st : τ) : Except String Sector := do
  let ps ← rlpSector.decode st
  return { s with merkleRoot := ps.merkleRoot, hostAddress := ps.hostAddress }

variable (rlp : Rlp σ (PersistSegment τ))

/-- `segment.EncodeRLP`: `Sectors` and `Index`, each sector through its own rule. -/
def segmentEncodeRLP (s : Segment) : σ :=
  rlp.encode ⟨s.sectors.map fun slot => slot.map (sectorEncodeRLP rlpSector), s.index⟩

/-- `segment.DecodeRLP`: the library allocates each `*sector` and decodes it with its rule, then
the receiver takes `Sectors` and `Index`. -/
def segmentDecodeRLP (s : Segment) (st : σ) : Except String Segment := do
  let ps ← rlp.decode st
  let sectors ← ps.sectors.mapM fun slot => slot.mapM (sectorDecodeRLP rlpSector Sector.zero)
  return { s with sectors := sectors, index := ps.index }

end Rules

/-! ## Pages and `Metadata.validate` -/

/-- `PageSize`. -/
def pageSize : Nat := 4096

/-- `sectorPersistSize`: the bytes of one encoded sector. -/
def sectorPersistSize : Nat := 70

/-- `segmentPersistOverhead`. -/
def segmentPersistOverhead : Nat := 16

/-- `segmentPersistNumPages`. `sectorPersistSize * numSectors` is a `uint32` product, so it wraps.
Its conversion to `float64`, the product with `1 + redundancyRate = 2.0` and the conversion back
to `int` are exact (the value is below `2 ^ 33`, far below `2 ^ 53`), so the float step is the
product by `2` over `Nat`. -/
def segmentPersistNumPages (numSectors : BitVec 32) : U64 :=
  let sectorsSize : BitVec 32 := BitVec.ofNat 32 sectorPersistSize * numSectors
  let sectorsSizeWithRedundancy := sectorsSize.toNat * 2
  let dataSize := segmentPersistOverhead + sectorsSizeWithRedundancy
  let numPages := dataSize / pageSize
  let numPages := if dataSize % pageSize ≠ 0 then numPages + 1 else numPages
  BitVec.ofNat 64 numPages

/-- The fields of `Metadata` that `validate` reads. -/
structure Metadata where
  hostTableOffset : U64
  segmentOffset : U64
  pagesPerSegment : U64
  numSectors : BitVec 32
  deriving DecidableEq

/-- `Metadata.validate`. -/
def Metadata.validate (md : Metadata) : Except GoError Unit := do
  returnIf (md.hostTableOffset ≠ BitVec.ofNat 64 pageSize)
    ("HostTableOffset unexpected: " ++ toString md.hostTableOffset.toNat ++ " != " ++
      toString pageSize)
  let expPagesPerSegment := segmentPersistNumPages md.numSectors
  returnIf (md.pagesPerSegment ≠ expPagesPerSegment)
    ("PagesPerSegment unexpected: " ++ toString md.pagesPerSegment.toNat ++ " != " ++
      toString expPagesPerSegment.toNat)
  returnIf (md.segmentOffset ≤ md.hostTableOffset)
    ("SegmentOffset not larger than hostTableOffset: " ++ toString md.segmentOffset.toNat ++
      " <= " ++ toString md.hostTableOffset.toNat)
  returnIf (md.segmentOffset % BitVec.ofNat 64 pageSize ≠ 0)
    ("segment Offset not divisible by PageSize " ++ toString md.segmentOffset.toNat ++ " % " ++
      toString pageSize ++ " != 0")

/-- The fields of the `Metadata` that `New` writes for a file of `numSectors` sectors per
segment. -/
def newMetadata (numSectors : BitVec 32) : Metadata where
  hostTableOffset := BitVec.ofNat 64 pageSize
  segmentOffset := BitVec.ofNat 64 (2 * pageSize)
  pagesPerSegment := segmentPersistNumPages numSectors
  numSectors := numSectors

end Godx.DxFile
