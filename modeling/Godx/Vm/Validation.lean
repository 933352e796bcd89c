import Godx.Vm.Merkle

/-!
# The storage-contract validators

`CheckFormContract`, `CheckReversionContract`, `CheckMultiSignatures`, `storageProofSegment` and
`CheckStorageProof` as the code computes them, error texts included.

`CheckFormContract` receives `fc` by value, but `fc.RenterCollateral.Value` is a `*big.Int` the
caller shares, and the code's `Value.Add(Value, ...)` writes the sum into it: the model returns
the caller's contract after the call beside the verdict, and the checks after that line read the
updated value, as the code's do.
-/

namespace Godx.Vm

def errZeroCollateral : String := "the payout of form contract is less 0"
def errZeroOutput : String := "the output of form contract is less 0"
def errStorageContractValidOutputSumViolation : String :=
  "file contract has invalid valid proof output sums"
def errStorageContractMissedOutputSumViolation : String :=
  "file contract has invalid missed proof output sums"
def errStorageContractOutputSumViolation : String := "file contract has "
def errStorageContractWindowEndViolation : String :=
  "file contract window must end at least one block after it starts"
def errStorageContractWindowStartViolation : String :=
  "file contract window must start in the future"
def errTimelockNotSatisfied : String := "timelock has not been met"
def errLateRevision : String := "file contract revision submitted after deadline"
def errLowRevisionNumber : String :=
  "transaction has a file contract with an outdated revision number"
def errWrongUnlockConditions : String := "transaction contains incorrect unlock conditions"
def errRevisionValidPayouts : String := "file contract revision has altered valid payout"
def errRevisionMissedPayouts : String := "file contract revision has altered missed payout"
def errWrongUnlockCondition : String := "the unlockhash of file contract not match unlockcondition"
def errInvalidRenterSig : String := "invalid renter signatures"
def errInvalidHostSig : String := "invalid host signatures"
def errNoStorageContractType : String := "no this file contract type"
def errInvalidStorageProof : String := "invalid storage proof"
def errUnfinishedStorageContract : String := "storage contract has not yet opened"

/-! ## Output sums -/

/-- The loop that sums proof outputs and returns `errZeroOutput` at the first value `<= 0`. -/
def sumProofOutputs (acc : Int) : List DxcoinCharge → Except GoError Int
  | [] => .ok acc
  | output :: outputs =>
    if output.value ≤ 0 then .error (.err errZeroOutput) else sumProofOutputs (acc + output.value) outputs

/-- The loops of `CheckReversionContract` that sum outputs without checking them. -/
def outputSum (outputs : List DxcoinCharge) : Int :=
  outputs.foldl (fun sum output => sum + output.value) 0

/-! ## Signatures -/

/-- The variables `CheckMultiSignatures` sets before its type switch; Go's zero values where
its `len(signatures) == 1` / `== 2` branches do not run. -/
structure Signers where
  singleSig : Signature := []
  singlePubkey : PublicKey := []
  renterSig : Signature := []
  renterPubkey : PublicKey := []
  hostSig : Signature := []
  hostPubkey : PublicKey := []
  uc : UnlockConditions := ⟨0, [], 0⟩

/-- The two `if len(signatures) == ...` blocks of `CheckMultiSignatures`. -/
def recoverSigners (c : Crypto) (currentHeight : BlockHeight) :
    List Signature → Except GoError Signers
  | [singleSig] => do
    let singlePubkey ← liftErr (c.recoverPubkeyFromSignature singleSig)
    pure { singleSig, singlePubkey }
  | [renterSig, hostSig] => do
    let renterPubkey ← liftErr (c.recoverPubkeyFromSignature renterSig)
    let hostPubkey ← liftErr (c.recoverPubkeyFromSignature hostSig)
    pure { renterSig, renterPubkey, hostSig, hostPubkey,
           uc := ⟨currentHeight, [renterPubkey, hostPubkey], 2⟩ }
  | _ => pure {}

/-- The `StorageContract` / `StorageContractRevision` cases of the type switch, which differ only
in the unlock hash they compare (`UnlockHash` / `NewUnlockHash`). -/
def checkContractSigners (c : Crypto) (data : SignedData) (unlockHash : Hash) (s : Signers) :
    Except GoError Unit := do
  returnIf (c.unlockHash s.uc ≠ unlockHash) errWrongUnlockCondition
  returnIf (!c.verifyStorageContractSignatures s.renterPubkey (c.rlpHash data) s.renterSig)
    errInvalidRenterSig
  returnIf (!c.verifyStorageContractSignatures s.hostPubkey (c.rlpHash data) s.hostSig)
    errInvalidHostSig

/-- `CheckMultiSignatures(originalData, currentHeight, signatures)`. -/
def checkMultiSignatures (c : Crypto) (originalData : SignedData) (currentHeight : BlockHeight)
    (signatures : List Signature) : Except GoError Unit := do
  returnIf (signatures.length = 0) "no signatures"
  let s ← recoverSigners c currentHeight signatures
  match originalData with
  | .hostAnnouncement _ | .storageProof _ =>
    returnIf (!c.verifyStorageContractSignatures s.singlePubkey (c.rlpHash originalData) s.singleSig)
      errInvalidHostSig
  | .storageContract fc => checkContractSigners c originalData fc.unlockHash s
  | .storageContractRevision fcr => checkContractSigners c originalData fcr.newUnlockHash s
  | .other => throw (.err errNoStorageContractType)

/-! ## Form contracts -/

/-- `CheckFormContract` up to the payout line: the existence, collateral, window and output
checks, returning the two output sums. -/
def formContractSums (c : Crypto) (st : ChainState) (fc : StorageContract)
    (currentHeight : BlockHeight) : Except GoError (Int × Int) := do
  returnIf ((st.getStorageContract (c.contractID fc)).toBool) "this file contract exist"
  returnIf (fc.renterCollateral.value ≤ 0) errZeroCollateral
  returnIf (fc.hostCollateral.value ≤ 0) errZeroCollateral
  returnIf (fc.windowStart ≤ currentHeight) errStorageContractWindowStartViolation
  returnIf (fc.windowEnd ≤ fc.windowStart) errStorageContractWindowEndViolation
  let validProofOutputSum ← sumProofOutputs 0 fc.validProofOutputs
  let missedProofOutputSum ← sumProofOutputs 0 fc.missedProofOutputs
  pure (validProofOutputSum, missedProofOutputSum)

/-- `CheckFormContract` from the payout line on, given the output sums and the contract whose
renter collateral already holds the payout. -/
def formContractPayout (c : Crypto) (st : ChainState) (fc : StorageContract)
    (currentHeight : BlockHeight) (sums : Int × Int) : Except GoError Unit := do
  let payout := fc.renterCollateral.value
  returnIf (sums.1 ≠ payout) errStorageContractValidOutputSumViolation
  returnIf (sums.2 ≠ payout) errStorageContractMissedOutputSumViolation
  returnIf (st.getBalance fc.renterCollateral.address < fc.renterCollateral.value)
    "renter has not enough balance for file contract collateral"
  returnIf (st.getBalance fc.hostCollateral.address < fc.hostCollateral.value)
    "host has not enough balance for file contract collateral"
  checkMultiSignatures c (.storageContract fc) currentHeight fc.signatures

/-- `fc.RenterCollateral.Value.Add(fc.RenterCollateral.Value, fc.HostCollateral.Value)`: the
renter's collateral cell now holds the payout. -/
def StorageContract.addPayout (fc : StorageContract) : StorageContract :=
  { fc with renterCollateral.value := fc.renterCollateral.value + fc.hostCollateral.value }

/-- `CheckFormContract(evm, fc, currentHeight)`, with the caller's `fc` after the call. -/
def checkFormContract (c : Crypto) (st : ChainState) (fc : StorageContract)
    (currentHeight : BlockHeight) : Except GoError Unit × StorageContract :=
  match formContractSums c st fc currentHeight with
  | .error e => (.error e, fc)
  | .ok sums => (formContractPayout c st fc.addPayout currentHeight sums, fc.addPayout)

/-! ## Revisions -/

/-- `CheckReversionContract(evm, fcr, currentHeight)`. -/
def checkReversionContract (c : Crypto) (st : ChainState) (fcr : StorageContractRevision)
    (currentHeight : BlockHeight) : Except GoError Unit := do
  returnIf (fcr.unlockConditions.timelock > currentHeight) errTimelockNotSatisfied
  returnIf (fcr.newWindowStart ≤ currentHeight) errStorageContractWindowStartViolation
  returnIf (fcr.newWindowEnd ≤ fcr.newWindowStart) errStorageContractWindowEndViolation
  let validProofOutputSum ← sumProofOutputs 0 fcr.newValidProofOutputs
  let missedProofOutputSum ← sumProofOutputs 0 fcr.newMissedProofOutputs
  returnIf (validProofOutputSum ≠ missedProofOutputSum) errStorageContractOutputSumViolation
  checkMultiSignatures c (.storageContractRevision fcr) 0 fcr.signatures
  let fc ← liftErr (st.getStorageContract fcr.parentID)
  returnIf (currentHeight > fc.windowStart) errLateRevision
  returnIf (fc.revisionNumber ≥ fcr.newRevisionNumber) errLowRevisionNumber
  returnIf (c.unlockHash fcr.unlockConditions ≠ fc.unlockHash) errWrongUnlockConditions
  returnIf (outputSum fcr.newValidProofOutputs ≠ outputSum fc.validProofOutputs)
    errRevisionValidPayouts
  returnIf (outputSum fcr.newMissedProofOutputs ≠ outputSum fc.validProofOutputs)
    errRevisionMissedPayouts

/-! ## Storage proofs -/

/-- `new(big.Int).SetBytes(b)`: the big-endian value of `b`. -/
def bytesToNat (b : Bytes) : Nat := b.foldl (fun n x => n * 256 + x.toNat) 0

/-- `storageProofSegment(db, ParentID, currentHeight)`: the challenged segment, drawn from the
hash of the block before the window and the contract's ID. `big.Int.Mod` is Euclidean and
panics on a zero modulus; `int64(...)` reinterprets the leaf count as signed. -/
def storageProofSegment (c : Crypto) (st : ChainState) (parentID : StorageContractID)
    (currentHeight : BlockHeight) : Except GoError U64 := do
  let sc ← liftErr (st.getStorageContract parentID)
  let triggerHeight := sc.windowStart - 1
  returnIf (triggerHeight > currentHeight) errUnfinishedStorageContract
  let blockHash := st.readCanonicalHash triggerHeight
  let seed := c.keccak256 (blockHash.bytes ++ (c.contractID sc).bytes)
  let numSegments : Int := (calculateLeaves sc.fileSize).toInt
  if numSegments = 0 then throw (.panic .integerDivideByZero)
  pure (BitVec.ofInt 64 ((bytesToNat seed.bytes : Int) % numSegments))

/-- The length of `sp.Segment` that `CheckStorageProof` verifies: if the segment chosen is the
final one, only as long as needed to complete the file size. -/
def segmentLength (segmentIndex leaves fileSize : U64) : U64 :=
  let segmentLen : U64 :=
    if segmentIndex = leaves - 1 then fileSize % (segmentSize : U64) else (segmentSize : U64)
  if segmentLen = 0 then (segmentSize : U64) else segmentLen

/-- `CheckStorageProof(evm, sp, currentHeight)`. -/
def checkStorageProof (c : Crypto) (st : ChainState) (sp : StorageProof)
    (currentHeight : BlockHeight) : Except GoError Unit := do
  let fc ← liftErr (st.getStorageContract sp.parentID)
  returnIf (fc.windowStart > currentHeight) "too early to submit storage proof"
  returnIf (fc.windowEnd < currentHeight) "too late to submit storage proof"
  let segmentIndex ← storageProofSegment c st sp.parentID currentHeight
  let leaves := calculateLeaves fc.fileSize
  let segment ← goSlice sp.segment (segmentLength segmentIndex leaves fc.fileSize)
  let verified ← verifySegment c.keccak256 segment sp.hashSet leaves segmentIndex fc.fileMerkleRoot
  returnIf (!verified && fc.fileSize > 0) errInvalidStorageProof

end Godx.Vm
