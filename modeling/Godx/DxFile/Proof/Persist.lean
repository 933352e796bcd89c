import Godx.DxFile.Persist

/-!
# The persist format round trips, and the pages of a segment

* `hostTable_decode_encode`: decoding what `hostTable.EncodeRLP` wrote, into any receiver,
  returns `nil` and leaves the receiver equal to the encoded table, whatever order `range`
  visited it in. The delete loop empties the receiver (`foldl_erase_eq_empty`), and the insert
  loop sets each of the distinct keys of a `range` once (`insertPersistHostTable_ok`).
* `hostTableDecodeRLP_spec`: on a list the library decoded, `DecodeRLP` fills the receiver with
  it when its addresses are distinct and otherwise reports `multiple keys` with an address of it
  (`insertPersistHostTable_multiple_keys`). `%x` formats the address's `String()`, so the error
  writes it with 128 digits (`length_hexOfString_string`).
* `segment_decode_encode_drops_stuck`: decoding what `segment.EncodeRLP` wrote into a new
  segment gives back its sectors and index (`segmentDecodeRLP_encode`), but `offset` and `stuck`
  keep the new segment's zero values: `persistSegment` has no `Stuck` field.
* `validate_eq_ok_iff`: the four checks of `Metadata.validate`; the metadata `New` writes passes
  them (`newMetadata_validate`).
* `validate_pagesPerSegment_holds_iff`: on metadata `validate` accepts, the pages of a segment hold
  `16 + 140 * NumSectors` bytes exactly when `NumSectors ≤ 61356675`. Above it the `uint32`
  product `sectorPersistSize * numSectors` wraps (`segmentPersistNumPages_toNat`).
-/

namespace Godx.DxFile

/-- The codec that keeps the value itself as the stream; it satisfies the round-trip law. -/
def Rlp.ident (α : Type) : Rlp α α := ⟨id, .ok, fun _ => rfl⟩

/-! ## The host table -/

@[simp] theorem HostTable.erase_apply (ht : HostTable) (k k' : NodeID) :
    ht.erase k k' = if k' = k then none else ht k' := rfl

@[simp] theorem HostTable.set_apply (ht : HostTable) (k k' : NodeID) (v : Bool) :
    ht.set k v k' = if k' = k then some v else ht k' := rfl

theorem isRangeOrder_empty : IsRangeOrder (fun _ => none) [] :=
  ⟨List.nodup_nil, fun _ _ => by simp⟩

theorem isRangeOrder_single (k : NodeID) (v : Bool) :
    IsRangeOrder (HostTable.set (fun _ => none) k v) [(k, v)] :=
  ⟨by simp, fun k' v' => by
    by_cases h : k' = k
    · subst h; simp [eq_comm]
    · simp [h]⟩

/-- The delete loop of `DecodeRLP` removes exactly the keys it visits. -/
theorem foldl_erase_apply (k : NodeID) : ∀ (order : List (NodeID × Bool)) (ht : HostTable),
    order.foldl (fun ht kv => ht.erase kv.1) ht k = if k ∈ order.map Prod.fst then none else ht k
  | [], ht => by simp
  | kv :: order, ht => by
    rw [List.foldl_cons, foldl_erase_apply k order]
    by_cases h : k = kv.1 <;> simp [h]

/-- A `range` over the receiver visits each of its keys, so the delete loop empties it. -/
theorem foldl_erase_eq_empty {ht : HostTable} {order : List (NodeID × Bool)}
    (h : IsRangeOrder ht order) : order.foldl (fun ht kv => ht.erase kv.1) ht = fun _ => none := by
  funext k
  rw [foldl_erase_apply]
  split_ifs with hk
  · rfl
  · cases hv : ht k with
    | none => rfl
    | some v => exact absurd (List.mem_map_of_mem Prod.fst ((h.mem_iff k v).2 hv)) hk

/-- On distinct addresses none of which is in the map, the insert loop succeeds and adds exactly
the list's entries. -/
theorem insertPersistHostTable_ok : ∀ (pht : PersistHostTable) (ht : HostTable),
    (pht.map PersistHostAddress.address).Nodup → (∀ pha ∈ pht, ht pha.address = none) →
    ∃ ht', insertPersistHostTable ht pht = (.ok (), ht') ∧
      ∀ k v, ht' k = some v ↔ ⟨k, v⟩ ∈ pht ∨ ht k = some v
  | [], ht, _, _ => ⟨ht, rfl, by simp⟩
  | ⟨a, u⟩ :: pht, ht, hnd, hfresh => by
    rw [List.map_cons, List.nodup_cons] at hnd
    have hnone : ht a = none := hfresh _ (List.mem_cons_self _ _)
    obtain ⟨ht', hrun, hmem⟩ := insertPersistHostTable_ok pht (ht.set a u) hnd.2 fun p hp => by
      have hne : p.address ≠ a := fun he => hnd.1 (List.mem_map.2 ⟨p, hp, he⟩)
      simp [hne, hfresh p (List.mem_cons_of_mem _ hp)]
    refine ⟨ht', by simp [insertPersistHostTable, hnone, hrun], fun k v => ?_⟩
    rw [hmem, HostTable.set_apply, List.mem_cons, PersistHostAddress.mk.injEq]
    by_cases hk : k = a
    · subst hk; simp [hnone, eq_comm, or_comm]
    · simp [hk]

/-- Otherwise the insert loop stops at an address already in the map, and the error names it. -/
theorem insertPersistHostTable_multiple_keys : ∀ (pht : PersistHostTable) (ht : HostTable),
    ¬((pht.map PersistHostAddress.address).Nodup ∧ ∀ pha ∈ pht, ht pha.address = none) →
    ∃ pha ∈ pht,
      (insertPersistHostTable ht pht).1 = .error ("multiple keys: " ++ hexOfString (NodeID.string pha.address))
  | [], _, h => absurd ⟨List.nodup_nil, nofun⟩ h
  | ⟨a, u⟩ :: pht, ht, h => by
    by_cases hs : (ht a).isSome
    · exact ⟨⟨a, u⟩, List.mem_cons_self _ _, by simp [insertPersistHostTable, hs]⟩
    have hnone : ht a = none := Option.not_isSome_iff_eq_none.1 hs
    have hrest : ¬((pht.map PersistHostAddress.address).Nodup ∧
        ∀ pha ∈ pht, (ht.set a u) pha.address = none) := by
      rintro ⟨hnd, hfresh⟩
      have hne : ∀ p ∈ pht, p.address ≠ a ∧ ht p.address = none := fun p hp => by
        have := hfresh p hp
        by_cases he : p.address = a <;> simp_all
      refine h ⟨List.nodup_cons.2 ⟨fun ha => ?_, hnd⟩, ?_⟩
      · obtain ⟨p, hp, he⟩ := List.mem_map.1 ha
        exact (hne p hp).1 he
      · intro p hp
        rcases List.mem_cons.1 hp with rfl | hp
        exacts [hnone, (hne p hp).2]
    obtain ⟨p, hp, he⟩ := insertPersistHostTable_multiple_keys pht (ht.set a u) hrest
    exact ⟨p, List.mem_cons_of_mem _ hp, by simp [insertPersistHostTable, hs, he]⟩

/-- `hostTable.DecodeRLP` on a stream the library decodes to `pht`: with distinct addresses it
returns `nil` and the receiver holds exactly `pht`'s entries, whatever it held before; otherwise
it returns `multiple keys` with one of `pht`'s addresses. -/
theorem hostTableDecodeRLP_spec {σ : Type} (rlp : Rlp σ PersistHostTable) {r : HostTable}
    {rOrder : List (NodeID × Bool)} {st : σ} {pht : PersistHostTable}
    (hr : IsRangeOrder r rOrder) (hd : rlp.decode st = .ok pht) :
    ((pht.map PersistHostAddress.address).Nodup →
      ∃ ht', hostTableDecodeRLP rlp r rOrder st = (.ok (), ht') ∧
        ∀ k v, ht' k = some v ↔ ⟨k, v⟩ ∈ pht) ∧
    (¬(pht.map PersistHostAddress.address).Nodup →
      ∃ pha ∈ pht, (hostTableDecodeRLP rlp r rOrder st).1 =
        .error ("multiple keys: " ++ hexOfString (NodeID.string pha.address))) := by
  simp only [hostTableDecodeRLP, hd, foldl_erase_eq_empty hr]
  refine ⟨fun hnd => ?_, fun hnd => insertPersistHostTable_multiple_keys _ _ fun h => hnd h.1⟩
  obtain ⟨ht', hrun, hmem⟩ := insertPersistHostTable_ok _ (fun _ => none) hnd fun _ _ => rfl
  exact ⟨ht', hrun, fun k v => by simpa using hmem k v⟩

/-- A stream that decodes to the same address twice, into an empty receiver. -/
theorem hostTableDecodeRLP_spec_twice :
    IsRangeOrder (fun _ => none) [] ∧
      (Rlp.ident PersistHostTable).decode [⟨zeroHash, true⟩, ⟨zeroHash, false⟩] =
        .ok [⟨zeroHash, true⟩, ⟨zeroHash, false⟩] ∧
      ((hostTableDecodeRLP (Rlp.ident PersistHostTable) (fun _ => none) []
        [⟨zeroHash, true⟩, ⟨zeroHash, false⟩]).1 =
        .error ("multiple keys: " ++ hexOfString (NodeID.string zeroHash))) := by
  refine ⟨isRangeOrder_empty, rfl, ?_⟩
  obtain ⟨pha, hmem, he⟩ := (hostTableDecodeRLP_spec (Rlp.ident PersistHostTable)
    isRangeOrder_empty (rfl : (Rlp.ident PersistHostTable).decode [⟨zeroHash, true⟩,
      ⟨zeroHash, false⟩] = .ok [⟨zeroHash, true⟩, ⟨zeroHash, false⟩])).2 (by simp)
  simp only [List.mem_cons, List.mem_singleton, List.not_mem_nil, or_false] at hmem
  rcases hmem with rfl | rfl <;> exact he

/-! ## The address `multiple keys` reports -/

theorem length_data_hexString (b : Bytes) : (hexString b).data.length = 2 * b.length := by
  rw [data_hexString]
  induction b with
  | nil => rfl
  | cons x b ih =>
    simp only [List.flatMap_cons, List.length_append, ih, List.length_cons, List.length_nil]
    omega

/-- Each of the sixteen digits is ASCII: one byte of UTF-8. -/
theorem utf8EncodeChar_digitChar :
    ∀ n, n < 16 → String.utf8EncodeChar (Nat.digitChar n) = [(Nat.digitChar n).val.toUInt8] := by
  decide

theorem length_toUTF8_hexString (b : Bytes) :
    (hexString b).toUTF8.data.toList.length = 2 * b.length := by
  simp only [String.toUTF8, data_hexString]
  induction b with
  | nil => rfl
  | cons x b ih =>
    have hx : x.toNat < 256 := x.toBitVec.isLt
    simp only [List.flatMap_cons, List.flatMap_append, List.length_append, ih, List.flatMap_nil,
      utf8EncodeChar_digitChar _ (Nat.div_lt_of_lt_mul (by omega : x.toNat < 16 * 16)),
      utf8EncodeChar_digitChar _ (Nat.mod_lt _ (by omega : 16 > 0)), List.singleton_append,
      List.length_cons, List.length_nil, List.append_nil]
    omega

/-- `%x` of an `enode.ID` formats its `String()`, itself 64 digits: the error names the address
with 128 digits, two for each byte of that text. -/
theorem length_hexOfString_string (id : NodeID) : (hexOfString (NodeID.string id)).length = 128 := by
  rw [hexOfString, String.length, length_data_hexString, NodeID.string, length_toUTF8_hexString,
    id.length_bytes]

/-- `r.DecodeRLP` on the stream `ht.EncodeRLP` wrote returns `nil` and leaves `r` equal to `ht`,
whatever `r` held and whatever orders the two `range` loops visited. -/
theorem hostTable_decode_encode {σ : Type} (rlp : Rlp σ PersistHostTable) {ht r : HostTable}
    {order rOrder : List (NodeID × Bool)} (hht : IsRangeOrder ht order)
    (hr : IsRangeOrder r rOrder) :
    hostTableDecodeRLP rlp r rOrder (hostTableEncodeRLP rlp order) = (.ok (), ht) := by
  have hmem : ∀ k v, (⟨k, v⟩ : PersistHostAddress) ∈
      order.map (fun (addr, used) => ⟨addr, used⟩) ↔ (k, v) ∈ order := fun k v =>
    ⟨fun h => by obtain ⟨⟨a, u⟩, h, he⟩ := List.mem_map.1 h; cases he; exact h,
      fun h => List.mem_map.2 ⟨_, h, rfl⟩⟩
  have hnd : ((order.map fun (addr, used) => (⟨addr, used⟩ : PersistHostAddress)).map
      PersistHostAddress.address).Nodup := by
    rw [List.map_map]; exact hht.nodup
  simp only [hostTableDecodeRLP, hostTableEncodeRLP, rlp.decode_encode, foldl_erase_eq_empty hr]
  obtain ⟨ht', hrun, hset⟩ := insertPersistHostTable_ok _ (fun _ => none) hnd fun _ _ => rfl
  rw [hrun]
  refine Prod.ext rfl (funext fun k => Option.ext fun v => ?_)
  simp only [Option.mem_def, hset, hmem, hht.mem_iff, reduceCtorEq, or_false]

/-- One entry encoded, and decoded into a receiver that held the same key with the other value. -/
theorem hostTable_decode_encode_oneEntry :
    IsRangeOrder (HostTable.set (fun _ => none) zeroHash true) [(zeroHash, true)] ∧
      IsRangeOrder (HostTable.set (fun _ => none) zeroHash false) [(zeroHash, false)] ∧
      hostTableDecodeRLP (Rlp.ident PersistHostTable) (HostTable.set (fun _ => none) zeroHash false)
        [(zeroHash, false)] (hostTableEncodeRLP (Rlp.ident PersistHostTable) [(zeroHash, true)]) =
        (.ok (), HostTable.set (fun _ => none) zeroHash true) :=
  ⟨isRangeOrder_single _ _, isRangeOrder_single _ _,
    hostTable_decode_encode _ (isRangeOrder_single _ _) (isRangeOrder_single _ _)⟩

/-! ## Segments -/

/-- `mapM` of a decoder over what an encoder wrote, when the decoder reads every encoding back. -/
theorem mapM_map_of_eq_ok {ε α β : Type} {f : β → Except ε α} {g : α → β}
    (h : ∀ a, f (g a) = .ok a) : ∀ l : List α, (l.map g).mapM f = .ok l
  | [] => rfl
  | a :: l => by
    rw [List.map_cons, List.mapM_cons, h a, mapM_map_of_eq_ok h l]
    rfl

section Rules

variable {σ τ : Type} (rlpSector : Rlp τ PersistSector) (rlp : Rlp σ (PersistSegment τ))

/-- A sector's rule reads back what it wrote, whatever the receiver held. -/
theorem sectorDecodeRLP_encode (z s : Sector) :
    sectorDecodeRLP rlpSector z (sectorEncodeRLP rlpSector s) = .ok s := by
  simp only [sectorDecodeRLP, sectorEncodeRLP, rlpSector.decode_encode]
  rfl

/-- The receiver takes the encoded segment's sectors and index, and keeps its own offset and
stuck flag. -/
theorem segmentDecodeRLP_encode (s t : Segment) :
    segmentDecodeRLP rlpSector rlp s (segmentEncodeRLP rlpSector rlp t) =
      .ok { s with sectors := t.sectors, index := t.index } := by
  have hslot : ∀ slot : List Sector,
      (slot.map (sectorEncodeRLP rlpSector)).mapM (sectorDecodeRLP rlpSector Sector.zero) =
        .ok slot :=
    mapM_map_of_eq_ok (sectorDecodeRLP_encode rlpSector Sector.zero)
  simp only [segmentDecodeRLP, segmentEncodeRLP, rlp.decode_encode, bind, Except.bind,
    mapM_map_of_eq_ok hslot]
  rfl

/-- Decoding what `segment.EncodeRLP` wrote into a new segment: the sectors and index come back,
the offset and the stuck flag are those of the new segment. -/
theorem segment_decode_encode_drops_stuck (t : Segment) :
    segmentDecodeRLP rlpSector rlp Segment.zero (segmentEncodeRLP rlpSector rlp t) =
      .ok { t with offset := 0, stuck := false } :=
  segmentDecodeRLP_encode rlpSector rlp Segment.zero t

end Rules

/-! ## Pages and `Metadata.validate` -/

/-- The page count with the `uint32` wrap of `sectorPersistSize * numSectors` made explicit. -/
theorem segmentPersistNumPages_toNat (n : BitVec 32) :
    (segmentPersistNumPages n).toNat = (16 + 70 * n.toNat % 4294967296 * 2 + 4095) / 4096 := by
  have hm : (BitVec.ofNat 32 sectorPersistSize * n).toNat = 70 * n.toNat % 4294967296 := by
    simp [BitVec.toNat_mul, sectorPersistSize]
  have hlt : 70 * n.toNat % 4294967296 < 4294967296 := Nat.mod_lt _ (by decide)
  simp only [segmentPersistNumPages, hm, segmentPersistOverhead, pageSize]
  generalize 70 * n.toNat % 4294967296 = m at hlt ⊢
  split_ifs <;> rw [BitVec.toNat_ofNat, Nat.mod_eq_of_lt (by omega)] <;> omega

/-- `validate` accepts exactly the metadata that passes its four checks. -/
theorem validate_eq_ok_iff (md : Metadata) :
    md.validate = .ok () ↔ md.hostTableOffset = BitVec.ofNat 64 pageSize ∧
      md.pagesPerSegment = segmentPersistNumPages md.numSectors ∧
      md.hostTableOffset < md.segmentOffset ∧
      md.segmentOffset % BitVec.ofNat 64 pageSize = 0 := by
  simp [Metadata.validate, bind_eq_ok]

/-- The metadata `New` writes passes `validate`, for every number of sectors. -/
theorem newMetadata_validate (n : BitVec 32) : (newMetadata n).validate = .ok () :=
  (validate_eq_ok_iff _).2 ⟨rfl, rfl, show BitVec.ofNat 64 4096 < BitVec.ofNat 64 8192 by decide,
    show BitVec.ofNat 64 8192 % BitVec.ofNat 64 4096 = 0 by decide⟩

/-- On metadata `validate` accepts, the pages of a segment hold its `16 + 2 * 70 * NumSectors`
bytes exactly when `NumSectors ≤ 61356675`: from `61356676` on, `70 * NumSectors` wraps in
`uint32` and the page count is too small. -/
theorem validate_pagesPerSegment_holds_iff {md : Metadata} (h : md.validate = .ok ()) :
    segmentPersistOverhead + 2 * sectorPersistSize * md.numSectors.toNat ≤
        md.pagesPerSegment.toNat * pageSize ↔ md.numSectors.toNat ≤ 61356675 := by
  obtain ⟨-, hpps, -, -⟩ := (validate_eq_ok_iff md).1 h
  have hn := md.numSectors.isLt
  rw [hpps, segmentPersistNumPages_toNat]
  simp only [segmentPersistOverhead, sectorPersistSize, pageSize]
  omega

/-- A file `New` creates with `61356676` sectors per segment passes `validate`, yet its segment
pages are too few. -/
theorem validate_pagesPerSegment_newMetadata :
    (newMetadata 61356676).validate = .ok () ∧
      ¬ segmentPersistOverhead + 2 * sectorPersistSize * (newMetadata 61356676).numSectors.toNat ≤
        (newMetadata 61356676).pagesPerSegment.toNat * pageSize :=
  ⟨newMetadata_validate _, fun hle =>
    absurd ((validate_pagesPerSegment_holds_iff (newMetadata_validate _)).1 hle) (by decide)⟩

end Godx.DxFile
