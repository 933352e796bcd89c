import Godx.Vm.Types

/-!
# `VerifyProof` and its callers' leaf arithmetic

The Merkle-proof check of `storage_contract_validation.go`, as the code computes it, with the
hasher `H` (Keccak-256 in the code) a parameter: `hashSum` is `HashSum`, `verifyProofLoop` the
first loop of `VerifyProof` (its `for` over `height`), `verifyProofTail` the last loop, and
`verifySegment` / `calculateLeaves` the helpers of `CheckStorageProof`.

The loops index `proofSet` by `height`; here they carry `proofSet[height:]` instead, so that
`len(proofSet) <= height` is that list being empty and `proofSet[height]` its head.
-/

namespace Godx.Vm

/-- `HashSum(h, data...)`: the digest of the concatenated inputs. -/
def hashSum (H : Bytes → Hash) (data : List Bytes) : Bytes := (H data.flatten).bytes

/-- The first loop of `VerifyProof`, entered at `height` with `proofSet[height:] = rest`: `none`
is its `return false`, `some (sum, stableEnd, rest)` the state at its `break`. -/
def verifyProofLoop (H : Bytes → Hash) (proofIndex numLeaves : U64) :
    Nat → Bytes → U64 → List Bytes → Except GoError (Option (Bytes × U64 × List Bytes))
  | height, sum, stableEnd, rest => do
    let subTreeStartIndex := (← goDiv proofIndex ((1 : U64) <<< height)) * ((1 : U64) <<< height)
    let subTreeEndIndex := subTreeStartIndex + ((1 : U64) <<< height) - 1
    if subTreeEndIndex ≥ numLeaves then return some (sum, stableEnd, rest)
    match rest with
    | [] => return none
    | p :: rest' =>
      let sum := if proofIndex - subTreeStartIndex < (1 : U64) <<< (height - 1)
        then hashSum H [sum, p] else hashSum H [p, sum]
      verifyProofLoop H proofIndex numLeaves (height + 1) sum subTreeEndIndex rest'
termination_by structural _ _ _ rest => rest

/-- The last loop of `VerifyProof`: every remaining element is a left sibling. -/
def verifyProofTail (H : Bytes → Hash) (sum : Bytes) (rest : List Bytes) : Bytes :=
  rest.foldl (fun sum p => hashSum H [p, sum]) sum

/-- `VerifyProof(merkleRoot, proofSet, proofIndex, numLeaves)`; a `nil` root is `none`. -/
def verifyProof (H : Bytes → Hash) (merkleRoot : Option Bytes) (proofSet : List Bytes)
    (proofIndex numLeaves : U64) : Except GoError Bool :=
  match merkleRoot with
  | none => pure false
  | some merkleRoot =>
    if proofIndex ≥ numLeaves then pure false else
    match proofSet with
    | [] => pure false
    | segment :: rest => do
    match ← verifyProofLoop H proofIndex numLeaves 1 (hashSum H [segment]) proofIndex rest with
    | none => pure false
    | some (sum, stableEnd, rest) =>
      -- the orphan step: the largest full subtree is not the last one
      if stableEnd ≠ numLeaves - 1 then
        match rest with
        | [] => pure false
        | p :: rest => pure (decide (verifyProofTail H (hashSum H [sum, p]) rest = merkleRoot))
      else pure (decide (verifyProofTail H sum rest = merkleRoot))

/-- `VerifySegment`: the proof set is the segment followed by the hash set. -/
def verifySegment (H : Bytes → Hash) (segment : Bytes) (hashSet : List Hash)
    (leaves segmentIndex : U64) (merkleRoot : Hash) : Except GoError Bool :=
  verifyProof H (some merkleRoot.bytes) (segment :: hashSet.map Hash.bytes) segmentIndex leaves

/-- `CalculateLeaves`: the number of `SegmentSize` segments of a file, at least one. -/
def calculateLeaves (fileSize : U64) : U64 :=
  let numSegments := fileSize / (segmentSize : U64)
  if fileSize = 0 ∨ fileSize % (segmentSize : U64) ≠ 0 then numSegments + 1 else numSegments

end Godx.Vm
