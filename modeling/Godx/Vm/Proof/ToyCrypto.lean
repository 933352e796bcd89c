import Godx.Vm.Types

/-!
# A concrete instance of the abstract cryptography and chain

The validators take their cryptography and the chain as abstract functions (`Crypto`,
`ChainState`). To run them on concrete inputs, for the witnesses and counterexamples of the
proof modules, `toyCrypto` gives byte-level stand-ins: a digest that keeps the input's length
and first 31 bytes (`lengthPrefixHash`), and a signature scheme where the one-byte key `k` signs
a digest `d` as `k :: d`. The scheme has what the claims assume of a real one:

* `toyCrypto_recover_sign`: recovery gives back the signer's key;
* `toyCrypto_verify_iff`: a signature verifies under a key only if that key made it, over that
  digest.

`listChain` stores a list of contracts by ID.
-/

namespace Godx.Vm

/-- A 32-byte digest: the input's length (mod 256), then its first 31 bytes. -/
def lengthPrefixHash (b : Bytes) : Hash :=
  ⟨(b.length.toUInt8 :: b ++ List.replicate 31 0).take 32, by simp⟩

/-- A `common.Hash` from a byte string, zero-padded or cut to 32 bytes. -/
def Hash.ofBytes (b : Bytes) : Hash := ⟨(b ++ List.replicate 32 0).take 32, by simp⟩

theorem Hash.ofBytes_bytes {b : Bytes} (hb : b.length = 32) : (Hash.ofBytes b).bytes = b := by
  simp [Hash.ofBytes, hb]

theorem Hash.map_ofBytes_bytes {l : List Bytes} (hl : ∀ b ∈ l, b.length = 32) :
    (l.map Hash.ofBytes).map Hash.bytes = l := by
  rw [List.map_map]
  exact (List.map_congr_left fun b hb => Hash.ofBytes_bytes (hl b hb)).trans (List.map_id _)

/-- The all-zero `common.Hash`. -/
def zeroHash : Hash := Hash.ofBytes []

/-- The low byte of a `uint64`. -/
def lowByte (x : U64) : UInt8 := x.toNat.toUInt8

/-- The low byte of a big integer. -/
def intByte (v : Int) : UInt8 := (v % 256).toNat.toUInt8

/-- The signature of the key `k` over the digest `d`. -/
def toySign (k : UInt8) (d : Hash) : Signature := k :: d.bytes

/-- What the toy `RLPHash` digests of each signed type: a tag and the low bytes of the fields the
counterexamples vary. -/
def toyEncode : SignedData → Bytes
  | .hostAnnouncement b => 0 :: b.take 30
  | .storageProof sp => [1, lowByte (BitVec.ofNat 64 sp.hashSet.length)]
  | .storageContract fc =>
    [2, lowByte fc.windowStart, lowByte fc.windowEnd, intByte fc.renterCollateral.value,
      intByte fc.hostCollateral.value, lowByte fc.revisionNumber]
  | .storageContractRevision fcr =>
    [3, lowByte fcr.newRevisionNumber, lowByte fcr.newWindowStart, lowByte fcr.newWindowEnd]
  | .other => [4]

/-- Byte-level stand-ins for the cryptography: one-byte public keys, `toySign` signatures. -/
def toyCrypto : Crypto where
  recoverPubkeyFromSignature sig :=
    if sig.length = 33 then .ok (sig.take 1) else .error "invalid signature length"
  verifyStorageContractSignatures pk d sig := decide (pk.length = 1 ∧ sig = pk ++ d.bytes)
  unlockHash uc :=
    lengthPrefixHash (lowByte uc.timelock :: lowByte uc.signaturesRequired :: uc.publicKeys.flatten)
  rlpHash data := lengthPrefixHash (toyEncode data)
  contractID fc := lengthPrefixHash (5 :: toyEncode (.storageContract fc))
  keccak256 := lengthPrefixHash

theorem toyCrypto_recover_sign (k : UInt8) (d : Hash) :
    toyCrypto.recoverPubkeyFromSignature (toySign k d) = .ok [k] := by
  simp [toyCrypto, toySign, d.length_bytes]

theorem toyCrypto_verify_iff (pk : PublicKey) (d : Hash) (sig : Signature) :
    toyCrypto.verifyStorageContractSignatures pk d sig = true ↔ ∃ k, pk = [k] ∧ sig = toySign k d := by
  simp only [toyCrypto, decide_eq_true_eq, List.length_eq_one, toySign]
  constructor
  · rintro ⟨⟨k, rfl⟩, rfl⟩; exact ⟨k, rfl, rfl⟩
  · rintro ⟨k, rfl, rfl⟩; exact ⟨⟨k, rfl⟩, rfl⟩

/-- A chain storing the contracts `stored` by ID, with balances `balance` and all-zero block
hashes. -/
def listChain (stored : List (StorageContractID × StorageContract)) (balance : Address → Int) :
    ChainState where
  getStorageContract id := match stored.lookup id with
    | some fc => .ok fc
    | none => .error "storage contract not found"
  getBalance := balance
  readCanonicalHash _ := zeroHash

end Godx.Vm
