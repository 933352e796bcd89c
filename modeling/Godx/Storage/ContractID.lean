import Godx.DxFile.Persist

/-!
# Contract IDs as strings

`storage.ContractID.String` writes a contract ID with `hexutil.Encode`, and `StringToContractID`
reads one back with `hexutil.Decode`, copying the decoded bytes into a zero `ContractID`. Package
`hexutil` and Go's `encoding/hex` are outside the source; `hexutilEncode`, `hexutilDecode` and
`hexDecode` translate them (`hex.Decode` of Go 1.10 and later, which reports an invalid digit
before an odd length). A Go `string` is a Lean `String`: every prefix and digit the decoder
accepts is ASCII, one byte per character, and any other character is an invalid digit in both.

* `stringToContractID_hexutilEncode`: `StringToContractID` inverts `ContractID.String`; reading
  `hexutil.Encode(b)` of any other byte string gives the first 32 bytes of `b`, zero-padded,
  without an error.
* `stringToContractID_ok_iff`: it accepts exactly `0x` or `0X` followed by an even number of
  hexadecimal digits of either case.
-/

namespace Godx.Storage

open Vm (Hash)
open DxFile (hexString)

/-- `storage.ContractID`: a `common.Hash`. -/
abbrev ContractID := Hash

/-! ## `hexutil` -/

/-- `hexutil.Encode`: `0x` and two lowercase digits per byte. -/
def hexutilEncode (b : Bytes) : String := "0x" ++ hexString b

/-- Go's `fromHexChar`: the value of a hexadecimal digit of either case. -/
def fromHexChar (c : Char) : Option UInt8 :=
  if '0' ≤ c ∧ c ≤ '9' then some (c.toNat - '0'.toNat).toUInt8
  else if 'a' ≤ c ∧ c ≤ 'f' then some (c.toNat - 'a'.toNat + 10).toUInt8
  else if 'A' ≤ c ∧ c ≤ 'F' then some (c.toNat - 'A'.toNat + 10).toUInt8
  else none

/-- The errors of `hex.Decode`: `InvalidByteError` and `ErrLength`. -/
inductive HexError
  | invalidByte (c : Char)
  | length
  deriving DecidableEq, Repr

/-- `hex.DecodeString`: each pair of digits is a byte, high digit first; an invalid digit is
reported before an odd length. -/
def hexDecode : List Char → Except HexError Bytes
  | [] => .ok []
  | [c] => .error (if (fromHexChar c).isSome then .length else .invalidByte c)
  | a :: b :: rest =>
    match fromHexChar a, fromHexChar b with
    | some x, some y => (hexDecode rest).map fun bytes => (x <<< 4 ||| y) :: bytes
    | none, _ => .error (.invalidByte a)
    | some _, none => .error (.invalidByte b)

/-- hexutil's `mapError` on the errors of `hex.DecodeString`: `ErrSyntax` and `ErrOddLength`. -/
def HexError.mapError : HexError → String
  | .invalidByte _ => "invalid hex string"
  | .length => "hex string of odd length"

/-- `hexutil.Decode`: `ErrEmptyString`, `ErrMissingPrefix`, or the digits after `0x` or `0X`. -/
def hexutilDecode (input : String) : Except String Bytes :=
  match input.data with
  | [] => .error "empty hex string"
  | '0' :: x :: rest =>
    if x = 'x' ∨ x = 'X' then (hexDecode rest).mapError HexError.mapError
    else .error "hex string without 0x prefix"
  | _ => .error "hex string without 0x prefix"

/-! ## `ContractID` -/

/-- Go's `copy(dst, src)`: the first `min(len(dst), len(src))` elements of `dst` overwritten. -/
def goCopy {α : Type} (dst src : List α) : List α := src.take dst.length ++ dst.drop src.length

theorem length_goCopy {α : Type} (dst src : List α) : (goCopy dst src).length = dst.length := by
  simp only [goCopy, List.length_append, List.length_take, List.length_drop]
  omega

/-- `ci.String()`. -/
def ContractID.string (ci : ContractID) : String := hexutilEncode ci.bytes

/-- `StringToContractID(s)`: the decoded bytes copied into a zero `ContractID`. -/
def stringToContractID (s : String) : Except String ContractID :=
  match hexutilDecode s with
  | .error e => .error ("failed to convert the string " ++ s ++ " back to contractID: " ++ e)
  | .ok decodedString =>
    .ok ⟨goCopy (List.replicate 32 0) decodedString,
      (length_goCopy _ _).trans (List.length_replicate 32 0)⟩

/-! ## Reading back what `hexutil.Encode` wrote -/

/-- The two digits `hex.Encode` writes for one byte. -/
def hexPair (x : UInt8) : List Char := [Nat.digitChar (x.toNat / 16), Nat.digitChar (x.toNat % 16)]

theorem data_hexutilEncode (b : Bytes) :
    (hexutilEncode b).data = '0' :: 'x' :: b.flatMap hexPair := by
  simp only [hexutilEncode, String.data_append, DxFile.data_hexString]
  rfl

/-- Each of the sixteen digits reads back as its value. -/
theorem fromHexChar_digitChar : ∀ n, n < 16 → fromHexChar (Nat.digitChar n) = some n.toUInt8 := by
  decide

/-- A byte is its high half shifted by four, or-ed with its low half. -/
theorem byte_halves (x : UInt8) :
    (x.toNat / 16).toUInt8 <<< 4 ||| (x.toNat % 16).toUInt8 = x := by
  have key : ∀ hi : Nat, hi < 16 → ∀ lo : Nat, lo < 16 →
      (hi.toUInt8 <<< 4 ||| lo.toUInt8).toNat = hi * 16 + lo := by
    decide
  have hx : x.toNat < 256 := x.toBitVec.isLt
  apply UInt8.toNat.inj
  rw [key _ (by omega) _ (by omega)]
  omega

theorem hexDecode_flatMap_hexPair (b : Bytes) : hexDecode (b.flatMap hexPair) = .ok b := by
  induction b with
  | nil => rfl
  | cons x b ih =>
    have hx : x.toNat < 256 := x.toBitVec.isLt
    have hd : (x :: b).flatMap hexPair =
        Nat.digitChar (x.toNat / 16) :: Nat.digitChar (x.toNat % 16) :: b.flatMap hexPair := rfl
    rw [hd, hexDecode, fromHexChar_digitChar _ (by omega), fromHexChar_digitChar _ (by omega), ih]
    simp only [Except.map, byte_halves]

theorem goCopy_zero (b : Bytes) :
    goCopy (List.replicate 32 0) b = b.take 32 ++ List.replicate (32 - b.length) 0 := by
  simp only [goCopy, List.length_replicate, List.drop_replicate]

theorem hexutilDecode_hexutilEncode (b : Bytes) : hexutilDecode (hexutilEncode b) = .ok b := by
  simp only [hexutilDecode, data_hexutilEncode, hexDecode_flatMap_hexPair]
  rfl

/-- **Reading back an encoded byte string.** `StringToContractID` reads back every contract ID
that `String` wrote. Of any other byte string `hexutil.Encode` writes, it keeps the first 32
bytes and zero-fills the rest, without an error. -/
theorem stringToContractID_hexutilEncode :
    (∀ ci : ContractID, stringToContractID ci.string = .ok ci) ∧
    ∀ b : Bytes, ∃ id, stringToContractID (hexutilEncode b) = .ok id ∧
      id.bytes = b.take 32 ++ List.replicate (32 - b.length) 0 := by
  have h : ∀ b : Bytes, ∃ id, stringToContractID (hexutilEncode b) = .ok id ∧
      id.bytes = b.take 32 ++ List.replicate (32 - b.length) 0 := fun b => by
    rw [stringToContractID, hexutilDecode_hexutilEncode]
    exact ⟨_, rfl, goCopy_zero b⟩
  refine ⟨fun ci => ?_, h⟩
  obtain ⟨id, hid, hb⟩ := h ci.bytes
  rw [ci.length_bytes, List.take_of_length_le (Nat.le_of_eq ci.length_bytes), Nat.sub_self,
    List.replicate_zero, List.append_nil] at hb
  rw [ContractID.string, hid, Hash.ext hb]

/-! ## What `StringToContractID` accepts -/

/-- `hex.DecodeString` accepts exactly an even number of hexadecimal digits. -/
theorem hexDecode_ok_iff : ∀ digits : List Char,
    (∃ b, hexDecode digits = .ok b) ↔
      digits.length % 2 = 0 ∧ ∀ c ∈ digits, (fromHexChar c).isSome
  | [] => by simp [hexDecode]
  | [c] => by simp [hexDecode]
  | a :: b :: rest => by
    have ih := hexDecode_ok_iff rest
    have hlen : (a :: b :: rest).length % 2 = rest.length % 2 := by simp; omega
    rw [hlen]
    rcases ha : fromHexChar a with _ | x
    · simp [hexDecode, ha]
    rcases hb : fromHexChar b with _ | y
    · simp [hexDecode, ha, hb]
    rcases hr : hexDecode rest with e | r <;> simp_all [hexDecode, Except.map]

theorem exists_mapError_eq_ok {ε ε' α : Type} (f : ε → ε') (e : Except ε α) :
    (∃ b, e.mapError f = .ok b) ↔ ∃ b, e = .ok b := by
  cases e <;> simp [Except.mapError]

/-- `hexutil.Decode` accepts exactly `0x` or `0X` followed by digits `hex.DecodeString` accepts. -/
theorem hexutilDecode_ok_iff (s : String) :
    (∃ b, hexutilDecode s = .ok b) ↔ ∃ x digits, s.data = '0' :: x :: digits ∧
      (x = 'x' ∨ x = 'X') ∧ ∃ b, hexDecode digits = .ok b := by
  unfold hexutilDecode
  split
  · next h => simp [h]
  · next x rest h =>
    split_ifs with hx
    · simp only [exists_mapError_eq_ok, h, List.cons.injEq, true_and]
      exact ⟨fun hd => ⟨x, rest, ⟨rfl, rfl⟩, hx, hd⟩, fun ⟨_, _, ⟨hx', hr⟩, _, hd⟩ => hr ▸ hd⟩
    · simp only [h, List.cons.injEq, true_and]
      exact ⟨fun ⟨_, he⟩ => (nomatch he), fun ⟨_, _, ⟨hx', _⟩, hx'', _⟩ => absurd (hx' ▸ hx'') hx⟩
  · next hnil h =>
    exact ⟨fun ⟨_, he⟩ => (nomatch he), fun ⟨x, digits, hs, _⟩ => absurd hs (h x digits)⟩

/-- **What is accepted is well formed.** `StringToContractID` succeeds exactly on `0x` or `0X`
followed by an even number of hexadecimal digits of either case. -/
theorem stringToContractID_ok_iff (s : String) :
    (∃ id, stringToContractID s = .ok id) ↔
      ∃ x digits, s.data = '0' :: x :: digits ∧ (x = 'x' ∨ x = 'X') ∧ digits.length % 2 = 0 ∧
        ∀ c ∈ digits, (fromHexChar c).isSome := by
  have hs : (∃ id, stringToContractID s = .ok id) ↔ ∃ b, hexutilDecode s = .ok b := by
    unfold stringToContractID
    split <;> simp_all
  simp only [hs, hexutilDecode_ok_iff, hexDecode_ok_iff]

end Godx.Storage
