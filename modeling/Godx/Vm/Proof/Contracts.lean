import Godx.Vm.Proof.StorageProof

/-!
# The contract validators: what they accept

One spec lemma per validator, guard by guard and in the code's order (`sumProofOutputs_eq_ok`,
`checkReversionContract_eq_ok`, `formContractSums_eq_ok`, `formContractPayout_eq_ok`), and what
follows against the code's own comments:

* `checkReversionContract_foreign_signers`: the only check on a revision's signers is that the
  keys they recover, with timelock `0`, hash to the revision's own `NewUnlockHash`. Nothing ties
  them to `UnlockConditions`, the conditions matched against the parent's `UnlockHash`, so a
  revision signed by two keys that are not the parent's passes.
* `revision_storageProof_windowStart`: a height at which a revision and a storage proof of one
  contract both pass is the contract's `WindowStart`; `revision_storageProof_at_windowStart`:
  there both pass, though the code's comment has revisions end when the proof window opens.
* `checkFormContract_accepts`: `CheckFormContract` adds the host's collateral into the renter's
  `*big.Int` before its balance and signature checks, so it checks the renter's balance against
  the whole payout and the signatures over the contract with the payout in the renter's
  collateral. `checkFormContract_funded_rejected`: a contract meeting every condition read on
  the contract as passed (`FormContractAcceptable`) is rejected.
* `checkFormContract_height_dependent`: the unlock conditions `CheckMultiSignatures` rebuilds for
  a form contract take the current height as their timelock, so one signed contract passes at one
  height before its window and fails at the next.
-/

namespace Godx.Vm

variable {c : Crypto} {st : ChainState}

/-! ## Spec lemmas -/

theorem foldl_add_value (acc : Int) (outputs : List DxcoinCharge) :
    outputs.foldl (fun sum output => sum + output.value) acc = acc + outputSum outputs := by
  induction outputs generalizing acc with
  | nil => exact (Int.add_zero acc).symm
  | cons o os ih =>
    show os.foldl _ (acc + o.value) = acc + os.foldl _ (0 + o.value)
    rw [ih, ih]; omega

theorem outputSum_cons (o : DxcoinCharge) (os : List DxcoinCharge) :
    outputSum (o :: os) = o.value + outputSum os := by
  show os.foldl _ (0 + o.value) = _
  rw [foldl_add_value]; omega

theorem sumProofOutputs_eq_ok {acc v : Int} {outputs : List DxcoinCharge} :
    sumProofOutputs acc outputs = .ok v ↔
      (∀ o ∈ outputs, 0 < o.value) ∧ v = acc + outputSum outputs := by
  induction outputs generalizing acc with
  | nil =>
    simp only [sumProofOutputs, Except.ok.injEq, List.not_mem_nil, false_implies, implies_true,
      true_and]
    show acc = v ↔ v = acc + 0
    omega
  | cons o os ih =>
    simp only [sumProofOutputs, List.forall_mem_cons]
    split
    · exact iff_of_false nofun fun ⟨⟨hp, _⟩, _⟩ => by omega
    · rw [ih, outputSum_cons, and_assoc]
      exact ⟨fun h => ⟨by omega, h.1, by omega⟩, fun h => ⟨h.2.1, by omega⟩⟩

/-- What `CheckReversionContract` accepts. -/
theorem checkReversionContract_eq_ok {fcr : StorageContractRevision} {h : BlockHeight} :
    checkReversionContract c st fcr h = .ok () ↔
      ¬ fcr.unlockConditions.timelock > h ∧ ¬ fcr.newWindowStart ≤ h ∧
      ¬ fcr.newWindowEnd ≤ fcr.newWindowStart ∧
      (∃ v, sumProofOutputs 0 fcr.newValidProofOutputs = .ok v ∧
        sumProofOutputs 0 fcr.newMissedProofOutputs = .ok v) ∧
      checkMultiSignatures c (.storageContractRevision fcr) 0 fcr.signatures = .ok () ∧
      ∃ fc, st.getStorageContract fcr.parentID = .ok fc ∧ ¬ h > fc.windowStart ∧
        ¬ fc.revisionNumber ≥ fcr.newRevisionNumber ∧
        c.unlockHash fcr.unlockConditions = fc.unlockHash ∧
        outputSum fcr.newValidProofOutputs = outputSum fc.validProofOutputs ∧
        outputSum fcr.newMissedProofOutputs = outputSum fc.validProofOutputs := by
  simp only [checkReversionContract, bind_eq_ok, returnIf_eq_ok, liftErr_eq_ok, exists_const,
    exists_and_right, exists_eq_ok_unit, ne_eq, not_not, exists_eq_left']
  refine and_congr_right fun _ => and_congr_right fun _ => and_congr_right fun _ => ?_
  constructor
  · rintro ⟨v, hv, m, hm, rfl, rest⟩; exact ⟨⟨v, hv, hm⟩, rest⟩
  · rintro ⟨⟨v, hv, hm⟩, rest⟩; exact ⟨v, hv, v, hm, rfl, rest⟩

/-! ## Who may revise a contract -/

/-- The parent names keys `1` and `2`. The revision copies the parent's unlock conditions, puts
keys `8` and `9` in `NewUnlockHash`, and is signed by `8` and `9`: it passes, and the keys its
signatures recover are not those of its `UnlockConditions`. -/
theorem checkReversionContract_foreign_signers :
    let uc : UnlockConditions := ⟨0, [[1], [2]], 2⟩
    let parent : StorageContract :=
      { fileSize := 0, fileMerkleRoot := zeroHash, windowStart := 10, windowEnd := 20,
        renterCollateral := ⟨[1], 10⟩, hostCollateral := ⟨[2], 0⟩,
        validProofOutputs := [⟨[1], 10⟩], missedProofOutputs := [⟨[1], 10⟩],
        unlockHash := toyCrypto.unlockHash uc, revisionNumber := 0, signatures := [] }
    let unsigned : StorageContractRevision :=
      { parentID := zeroHash, unlockConditions := uc, newRevisionNumber := 1,
        newWindowStart := 10, newWindowEnd := 20,
        newValidProofOutputs := [⟨[8], 10⟩], newMissedProofOutputs := [⟨[8], 10⟩],
        newUnlockHash := toyCrypto.unlockHash ⟨0, [[8], [9]], 2⟩, signatures := [] }
    let d := toyCrypto.rlpHash (.storageContractRevision unsigned)
    let fcr := { unsigned with signatures := [toySign 8 d, toySign 9 d] }
    checkReversionContract toyCrypto (listChain [(zeroHash, parent)] fun _ => 0) fcr 5 = .ok () ∧
      (recoverSigners toyCrypto 0 fcr.signatures).map (fun s => [s.renterPubkey, s.hostPubkey]) =
        .ok [[8], [9]] ∧
      fcr.unlockConditions.publicKeys = [[1], [2]] := by
  decide

/-! ## The revision window and the proof window -/

theorem checkReversionContract_le_windowStart {fcr : StorageContractRevision} {h : BlockHeight}
    {fc : StorageContract} (hfc : st.getStorageContract fcr.parentID = .ok fc)
    (hacc : checkReversionContract c st fcr h = .ok ()) : h ≤ fc.windowStart := by
  obtain ⟨-, -, -, -, -, fc', hfc', hlate, -⟩ := checkReversionContract_eq_ok.1 hacc
  rw [hfc] at hfc'
  cases hfc'
  exact Nat.not_lt.1 hlate

/-- A height at which a revision and a storage proof of one stored contract both pass is the
contract's `WindowStart`. -/
theorem revision_storageProof_windowStart {fcr : StorageContractRevision} {sp : StorageProof}
    {h : BlockHeight} {fc : StorageContract} (hfc : st.getStorageContract fcr.parentID = .ok fc)
    (hsp : sp.parentID = fcr.parentID) (hr : checkReversionContract c st fcr h = .ok ())
    (hp : checkStorageProof c st sp h = .ok ()) : h = fc.windowStart := by
  have hle : h.toNat ≤ fc.windowStart.toNat := checkReversionContract_le_windowStart hfc hr
  obtain ⟨fc', hfc', hge, -⟩ := checkStorageProof_window hp
  rw [hsp, hfc] at hfc'
  cases hfc'
  exact BitVec.eq_of_toNat_eq (Nat.le_antisymm hle hge)

set_option maxRecDepth 4000 in
/-- A contract holding no file, with window `[10, 20]`: at height `10` a revision signed by its
own keys passes, and so does a storage proof with no hashes. -/
theorem revision_storageProof_windowStart_emptyFile :
    let uc : UnlockConditions := ⟨0, [[1], [2]], 2⟩
    let parent : StorageContract :=
      { fileSize := 0, fileMerkleRoot := zeroHash, windowStart := 10, windowEnd := 20,
        renterCollateral := ⟨[1], 10⟩, hostCollateral := ⟨[2], 0⟩,
        validProofOutputs := [⟨[1], 10⟩], missedProofOutputs := [⟨[1], 10⟩],
        unlockHash := toyCrypto.unlockHash uc, revisionNumber := 0, signatures := [] }
    let unsigned : StorageContractRevision :=
      { parentID := zeroHash, unlockConditions := uc, newRevisionNumber := 1,
        newWindowStart := 11, newWindowEnd := 20,
        newValidProofOutputs := [⟨[1], 10⟩], newMissedProofOutputs := [⟨[1], 10⟩],
        newUnlockHash := toyCrypto.unlockHash uc, signatures := [] }
    let d := toyCrypto.rlpHash (.storageContractRevision unsigned)
    let fcr := { unsigned with signatures := [toySign 1 d, toySign 2 d] }
    let st := listChain [(zeroHash, parent)] fun _ => 0
    let sp : StorageProof := ⟨zeroHash, List.replicate 64 0, rfl, []⟩
    checkReversionContract toyCrypto st fcr 10 = .ok () ∧
      checkStorageProof toyCrypto st sp 10 = .ok () ∧ (10 : BlockHeight) = parent.windowStart := by
  intro uc parent unsigned d fcr st sp
  have hr : checkReversionContract toyCrypto st fcr 10 = .ok () := by
    simp only [fcr, d, unsigned, st, parent, uc]; decide
  have hp : checkStorageProof toyCrypto st sp 10 = .ok () := by
    simp only [st, sp, parent, uc]; decide
  exact ⟨hr, hp, revision_storageProof_windowStart rfl rfl hr hp⟩

set_option maxRecDepth 4000 in
/-- At `WindowStart` a revision of a contract holding a one-byte file passes, signed by the
contract's own keys, and so does the honest storage proof of that file. -/
theorem revision_storageProof_at_windowStart :
    let uc : UnlockConditions := ⟨0, [[1], [2]], 2⟩
    let parent : StorageContract :=
      { fileSize := 1, fileMerkleRoot := rootHash lengthPrefixHash (fileSegments [7]),
        windowStart := 10, windowEnd := 20,
        renterCollateral := ⟨[1], 10⟩, hostCollateral := ⟨[2], 0⟩,
        validProofOutputs := [⟨[1], 10⟩], missedProofOutputs := [⟨[1], 10⟩],
        unlockHash := toyCrypto.unlockHash uc, revisionNumber := 0, signatures := [] }
    let unsigned : StorageContractRevision :=
      { parentID := zeroHash, unlockConditions := uc, newRevisionNumber := 1,
        newWindowStart := 11, newWindowEnd := 20,
        newValidProofOutputs := [⟨[1], 10⟩], newMissedProofOutputs := [⟨[1], 10⟩],
        newUnlockHash := toyCrypto.unlockHash uc, signatures := [] }
    let d := toyCrypto.rlpHash (.storageContractRevision unsigned)
    let fcr := { unsigned with signatures := [toySign 1 d, toySign 2 d] }
    let st := listChain [(zeroHash, parent)] fun _ => 0
    checkReversionContract toyCrypto st fcr 10 = .ok () ∧
      checkStorageProof toyCrypto st (honestProof lengthPrefixHash [7] zeroHash 0) 10 = .ok () := by
  decide

/-! ## Form contracts -/

theorem checkMultiSignatures_contract_eq_ok {fc : StorageContract} {h : BlockHeight}
    {signatures : List Signature} :
    checkMultiSignatures c (.storageContract fc) h signatures = .ok () ↔
      signatures.length ≠ 0 ∧ ∃ s, recoverSigners c h signatures = .ok s ∧
        checkContractSigners c (.storageContract fc) fc.unlockHash s = .ok () := by
  simp only [checkMultiSignatures, bind_eq_ok, returnIf_eq_ok, exists_const]

theorem formContractSums_eq_ok {fc : StorageContract} {h : BlockHeight} {sums : Int × Int} :
    formContractSums c st fc h = .ok sums ↔
      (st.getStorageContract (c.contractID fc)).toBool = false ∧
      0 < fc.renterCollateral.value ∧ 0 < fc.hostCollateral.value ∧
      h < fc.windowStart ∧ fc.windowStart < fc.windowEnd ∧
      (∀ o ∈ fc.validProofOutputs, 0 < o.value) ∧ (∀ o ∈ fc.missedProofOutputs, 0 < o.value) ∧
      sums = (outputSum fc.validProofOutputs, outputSum fc.missedProofOutputs) := by
  simp only [formContractSums, bind_eq_ok, returnIf_eq_ok, sumProofOutputs_eq_ok, exists_const,
    Bool.not_eq_true, not_le, BitVec.not_le, zero_add, pure, Except.pure, Except.ok.injEq]
  refine and_congr_right fun _ => and_congr_right fun _ => and_congr_right fun _ =>
    and_congr_right fun _ => and_congr_right fun _ => ?_
  constructor
  · rintro ⟨_, ⟨hv, rfl⟩, _, ⟨hm, rfl⟩, rfl⟩; exact ⟨hv, hm, rfl⟩
  · rintro ⟨hv, hm, rfl⟩; exact ⟨_, ⟨hv, rfl⟩, _, ⟨hm, rfl⟩, rfl⟩

theorem formContractPayout_eq_ok {fc : StorageContract} {h : BlockHeight} {sums : Int × Int} :
    formContractPayout c st fc h sums = .ok () ↔
      sums.1 = fc.renterCollateral.value ∧ sums.2 = fc.renterCollateral.value ∧
      fc.renterCollateral.value ≤ st.getBalance fc.renterCollateral.address ∧
      fc.hostCollateral.value ≤ st.getBalance fc.hostCollateral.address ∧
      checkMultiSignatures c (.storageContract fc) h fc.signatures = .ok () := by
  simp only [formContractPayout, bind_eq_ok, returnIf_eq_ok, exists_const, ne_eq, not_not, not_lt]

@[simp] theorem addPayout_renterCollateral_value (fc : StorageContract) :
    fc.addPayout.renterCollateral.value = fc.renterCollateral.value + fc.hostCollateral.value := rfl

@[simp] theorem addPayout_renterCollateral_address (fc : StorageContract) :
    fc.addPayout.renterCollateral.address = fc.renterCollateral.address := rfl

@[simp] theorem addPayout_hostCollateral (fc : StorageContract) :
    fc.addPayout.hostCollateral = fc.hostCollateral := rfl

@[simp] theorem addPayout_signatures (fc : StorageContract) :
    fc.addPayout.signatures = fc.signatures := rfl

theorem checkFormContract_fst_eq_ok {fc : StorageContract} {h : BlockHeight} :
    (checkFormContract c st fc h).1 = .ok () ↔
      ∃ sums, formContractSums c st fc h = .ok sums ∧
        formContractPayout c st fc.addPayout h sums = .ok () := by
  unfold checkFormContract
  split <;> simp_all

/-- What `CheckFormContract` accepts: the renter's balance must cover the whole payout, and the
signatures must be over the contract with the payout in the renter's collateral. -/
theorem checkFormContract_accepts {fc : StorageContract} {h : BlockHeight} :
    (checkFormContract c st fc h).1 = .ok () ↔
      (st.getStorageContract (c.contractID fc)).toBool = false ∧
      0 < fc.renterCollateral.value ∧ 0 < fc.hostCollateral.value ∧
      h < fc.windowStart ∧ fc.windowStart < fc.windowEnd ∧
      (∀ o ∈ fc.validProofOutputs, 0 < o.value) ∧ (∀ o ∈ fc.missedProofOutputs, 0 < o.value) ∧
      outputSum fc.validProofOutputs = fc.renterCollateral.value + fc.hostCollateral.value ∧
      outputSum fc.missedProofOutputs = fc.renterCollateral.value + fc.hostCollateral.value ∧
      fc.renterCollateral.value + fc.hostCollateral.value ≤
        st.getBalance fc.renterCollateral.address ∧
      fc.hostCollateral.value ≤ st.getBalance fc.hostCollateral.address ∧
      checkMultiSignatures c (.storageContract fc.addPayout) h fc.signatures = .ok () := by
  rw [checkFormContract_fst_eq_ok]
  simp only [formContractSums_eq_ok, formContractPayout_eq_ok, addPayout_renterCollateral_value,
    addPayout_hostCollateral, addPayout_renterCollateral_address, addPayout_signatures]
  constructor
  · rintro ⟨_, ⟨h1, h2, h3, h4, h5, h6, h7, rfl⟩, h8, h9, h10, h11, h12⟩
    exact ⟨h1, h2, h3, h4, h5, h6, h7, h8, h9, h10, h11, h12⟩
  · rintro ⟨h1, h2, h3, h4, h5, h6, h7, h8, h9, h10, h11, h12⟩
    exact ⟨_, ⟨h1, h2, h3, h4, h5, h6, h7, rfl⟩, h8, h9, h10, h11, h12⟩

/-- The conditions under which `CheckFormContract` is meant to accept, read on `fc` as the
caller passes it: a new contract, positive collaterals, a window in the future, positive outputs
that sum to the payout, parties that can pay their own collateral, and the parties' signatures
over `fc`. -/
structure FormContractAcceptable (c : Crypto) (st : ChainState) (fc : StorageContract)
    (h : BlockHeight) : Prop where
  fresh : (st.getStorageContract (c.contractID fc)).toBool = false
  renterCollateral_pos : 0 < fc.renterCollateral.value
  hostCollateral_pos : 0 < fc.hostCollateral.value
  windowStart_future : h < fc.windowStart
  windowEnd_after : fc.windowStart < fc.windowEnd
  validOutputs_pos : ∀ o ∈ fc.validProofOutputs, 0 < o.value
  missedOutputs_pos : ∀ o ∈ fc.missedProofOutputs, 0 < o.value
  validOutputs_sum : outputSum fc.validProofOutputs = fc.renterCollateral.value + fc.hostCollateral.value
  missedOutputs_sum :
    outputSum fc.missedProofOutputs = fc.renterCollateral.value + fc.hostCollateral.value
  renter_funded : fc.renterCollateral.value ≤ st.getBalance fc.renterCollateral.address
  host_funded : fc.hostCollateral.value ≤ st.getBalance fc.hostCollateral.address
  signed : checkMultiSignatures c (.storageContract fc) h fc.signatures = .ok ()

instance (c : Crypto) (st : ChainState) (fc : StorageContract) (h : BlockHeight) :
    Decidable (FormContractAcceptable c st fc h) :=
  decidable_of_iff ((st.getStorageContract (c.contractID fc)).toBool = false ∧
      0 < fc.renterCollateral.value ∧ 0 < fc.hostCollateral.value ∧
      h < fc.windowStart ∧ fc.windowStart < fc.windowEnd ∧
      (∀ o ∈ fc.validProofOutputs, 0 < o.value) ∧ (∀ o ∈ fc.missedProofOutputs, 0 < o.value) ∧
      outputSum fc.validProofOutputs = fc.renterCollateral.value + fc.hostCollateral.value ∧
      outputSum fc.missedProofOutputs = fc.renterCollateral.value + fc.hostCollateral.value ∧
      fc.renterCollateral.value ≤ st.getBalance fc.renterCollateral.address ∧
      fc.hostCollateral.value ≤ st.getBalance fc.hostCollateral.address ∧
      checkMultiSignatures c (.storageContract fc) h fc.signatures = .ok ())
    ⟨fun ⟨a, b, d, e, f, g, i, j, k, l, m, n⟩ => ⟨a, b, d, e, f, g, i, j, k, l, m, n⟩,
      fun ⟨a, b, d, e, f, g, i, j, k, l, m, n⟩ => ⟨a, b, d, e, f, g, i, j, k, l, m, n⟩⟩

/-- Renter collateral `10`, host collateral `5`, outputs of `15`, signed by keys `1` and `2` over
the contract as passed, at height `5`. The renter holds `10`, its own collateral: the contract
meets every condition, yet `CheckFormContract` rejects it, checking the renter's balance
against the payout `15`, and leaves `15` in the caller's renter collateral. -/
theorem checkFormContract_funded_rejected :
    let unsigned : StorageContract :=
      { fileSize := 0, fileMerkleRoot := zeroHash, windowStart := 10, windowEnd := 20,
        renterCollateral := ⟨[1], 10⟩, hostCollateral := ⟨[2], 5⟩,
        validProofOutputs := [⟨[1], 15⟩], missedProofOutputs := [⟨[1], 15⟩],
        unlockHash := toyCrypto.unlockHash ⟨5, [[1], [2]], 2⟩, revisionNumber := 0,
        signatures := [] }
    let d := toyCrypto.rlpHash (.storageContract unsigned)
    let fc := { unsigned with signatures := [toySign 1 d, toySign 2 d] }
    let st := listChain [] fun a => if a = [1] then 10 else 5
    FormContractAcceptable toyCrypto st fc 5 ∧
      checkFormContract toyCrypto st fc 5 =
        (.error (.err "renter has not enough balance for file contract collateral"),
          { fc with renterCollateral := ⟨[1], 15⟩ }) := by
  decide

/-! ## The height a form contract is checked at -/

/-- `fc.UnlockHash` is the hash of the parties' keys with timelock `3`. Signed by those keys, the
contract passes at height `3` and fails at height `4`, both before its window: the unlock
conditions `CheckMultiSignatures` rebuilds take the current height as their timelock. -/
theorem checkFormContract_height_dependent :
    let unsigned : StorageContract :=
      { fileSize := 0, fileMerkleRoot := zeroHash, windowStart := 10, windowEnd := 20,
        renterCollateral := ⟨[1], 10⟩, hostCollateral := ⟨[2], 5⟩,
        validProofOutputs := [⟨[1], 15⟩], missedProofOutputs := [⟨[1], 15⟩],
        unlockHash := toyCrypto.unlockHash ⟨3, [[1], [2]], 2⟩, revisionNumber := 0,
        signatures := [] }
    let d := toyCrypto.rlpHash (.storageContract unsigned.addPayout)
    let fc := { unsigned with signatures := [toySign 1 d, toySign 2 d] }
    let st := listChain [] fun _ => 100
    (checkFormContract toyCrypto st fc 3).1 = .ok () ∧
      (checkFormContract toyCrypto st fc 4).1 = .error (.err errWrongUnlockCondition) := by
  decide

end Godx.Vm
