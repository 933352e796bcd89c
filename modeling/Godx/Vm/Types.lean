import Godx.Go

/-!
# The data the storage-contract validators read

The fields of `types.StorageContract`, `types.StorageContractRevision` and `types.StorageProof`
that `core/vm/storage_contract_validation.go` reads, and the two things it consults: the chain
(`ChainState`: stored contracts, balances, canonical block hashes) and the cryptography
(`Crypto`: signature recovery and verification, `UnlockHash`, `RLPHash`, `ID`, Keccak-256), both
abstract. Big integers (`*big.Int`) are `Int`; heights and sizes are `uint64`.
-/

namespace Godx.Vm

/-- `SegmentSize`: the bytes of one Merkle leaf. -/
def segmentSize : Nat := 64

/-- `common.Hash`: 32 bytes. -/
@[ext] structure Hash where
  bytes : Bytes
  length_bytes : bytes.length = 32
  deriving DecidableEq

/-- `types.BlockHeight`. -/
abbrev BlockHeight := U64

/-- `types.StorageContractID` (a `common.Hash`). -/
abbrev StorageContractID := Hash

/-- `common.Address`. -/
abbrev Address := Bytes

/-- An `ecdsa.PublicKey`, as `crypto.FromECDSAPub` encodes it; the zero key encodes as `[]`. -/
abbrev PublicKey := Bytes

/-- `types.Signature`. -/
abbrev Signature := Bytes

/-- `types.DxcoinCharge` / `types.DxcoinCollateral`: an address and a `*big.Int` value. -/
structure DxcoinCharge where
  address : Address
  value : Int
  deriving DecidableEq

/-- `types.UnlockConditions`. -/
structure UnlockConditions where
  timelock : BlockHeight
  publicKeys : List PublicKey
  signaturesRequired : U64
  deriving DecidableEq

/-- `types.StorageContract`. -/
structure StorageContract where
  fileSize : U64
  fileMerkleRoot : Hash
  windowStart : BlockHeight
  windowEnd : BlockHeight
  renterCollateral : DxcoinCharge
  hostCollateral : DxcoinCharge
  validProofOutputs : List DxcoinCharge
  missedProofOutputs : List DxcoinCharge
  unlockHash : Hash
  revisionNumber : U64
  signatures : List Signature
  deriving DecidableEq

/-- `types.StorageContractRevision`. -/
structure StorageContractRevision where
  parentID : StorageContractID
  unlockConditions : UnlockConditions
  newRevisionNumber : U64
  newWindowStart : BlockHeight
  newWindowEnd : BlockHeight
  newValidProofOutputs : List DxcoinCharge
  newMissedProofOutputs : List DxcoinCharge
  newUnlockHash : Hash
  signatures : List Signature
  deriving DecidableEq

/-- `types.StorageProof`; `Segment` is a `[SegmentSize]byte` array. -/
structure StorageProof where
  parentID : StorageContractID
  segment : Bytes
  length_segment : segment.length = segmentSize
  hashSet : List Hash
  deriving DecidableEq

/-- The dynamic types `CheckMultiSignatures` switches on (`originalData interface{}`): a host
announcement only reaches `RLPHash`, so it is its encoding; `other` is any other type. -/
inductive SignedData
  | hostAnnouncement (encoded : Bytes)
  | storageProof (sp : StorageProof)
  | storageContract (fc : StorageContract)
  | storageContractRevision (fcr : StorageContractRevision)
  | other

/-- The cryptography the validators call, as abstract functions. -/
structure Crypto where
  /-- `RecoverPubkeyFromSignature`. -/
  recoverPubkeyFromSignature : Signature → Except String PublicKey
  /-- `VerifyStorageContractSignatures(FromECDSAPub(pk), hash.Bytes(), sig)`. -/
  verifyStorageContractSignatures : PublicKey → Hash → Signature → Bool
  /-- `UnlockConditions.UnlockHash()`. -/
  unlockHash : UnlockConditions → Hash
  /-- `RLPHash()` of each signed type. -/
  rlpHash : SignedData → Hash
  /-- `StorageContract.ID()`. -/
  contractID : StorageContract → StorageContractID
  /-- `crypto.Keccak256Hash` and `sha3.NewLegacyKeccak256` over the concatenated input. -/
  keccak256 : Bytes → Hash

/-- What the validators read of the chain through `evm`. -/
structure ChainState where
  /-- `GetStorageContract(db, id)`. -/
  getStorageContract : StorageContractID → Except String StorageContract
  /-- `evm.StateDB.GetBalance(addr)`. -/
  getBalance : Address → Int
  /-- `rawdb.ReadCanonicalHash(db, height)`. -/
  readCanonicalHash : U64 → Hash

end Godx.Vm
