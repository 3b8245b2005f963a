import P2Panda.Core.Operation

/-!
# Validation of operations

The format of an operation is checked on its own, its place against the latest header of the log.
-/

namespace P2Panda.Core

open P2Panda.Library Chain

inductive OperationError where
  | unsupportedVersion (version supported : Version)
  | missingSignature
  | signatureMismatch
  | seqNumMismatch
  | inconsistentPayloadInfo
  | missingPayloadHash
  | payloadMismatch
  | tooManyAuthors
  | seqNumNonIncremental (expected found : SeqNum)
  | backlinkMissing
  | backlinkMismatch
  deriving DecidableEq, Repr

variable {T : Type}

def validateHeader [Provenance T] [Chain T] [Offchain T] (header : T) :
    Outcome OperationError Unit :=
  if !Provenance.verify header then .err .signatureMismatch
  else if ((Offchain.payloadHash header).isSome && Offchain.payloadSize header == 0) ||
      ((Offchain.payloadHash header).isNone && Offchain.payloadSize header > 0) then
    .err .inconsistentPayloadInfo
  else if (Chain.backlink header).isSome && Chain.seqNum header == 0 then .err .seqNumMismatch
  else if (Chain.backlink header).isNone && Chain.seqNum header > 0 then .err .backlinkMissing
  else .ok ()

def validateOperation [Provenance T] [Chain T] [Offchain T] (digest : Bytes → Hash)
    (operation : T) : Outcome OperationError Unit := do
  validateHeader operation
  let claimedPayloadSize := Offchain.payloadSize operation
  let claimedPayloadHash ←
    if claimedPayloadSize = 0 then .ok none
    else
      match Offchain.payloadHash operation with
      | none => .err .missingPayloadHash
      | some hash => .ok (some hash)
  match Offchain.payload operation with
  | some body =>
    if claimedPayloadHash ≠ some (digest body) ∨
        claimedPayloadSize ≠ UInt32.ofNat body.length then
      .err .payloadMismatch
    else .ok ()
  | none => .ok ()

def validateBacklink [Provenance T] [Digest T] [Chain T] (checks : Bool)
    (pastHeader header : T) : Outcome OperationError Unit :=
  if Provenance.author pastHeader ≠ Provenance.author header then .err .tooManyAuthors
  else do
    let expected ← addU32 checks (Chain.seqNum pastHeader) 1
    if expected ≠ Chain.seqNum header then
      .err (.seqNumNonIncremental expected (Chain.seqNum header))
    else
      match Chain.backlink header with
      | some backlink =>
        if Digest.hash pastHeader ≠ backlink then .err .backlinkMismatch else .ok ()
      | none => .err .backlinkMissing

def validatePrunableBacklink [Provenance T] [Digest T] [Chain T] (checks : Bool)
    (pastHeader : Option T) (header : T) (pruneFlag : Bool) : Outcome OperationError Unit :=
  if Chain.seqNum header > 0 then
    if !pruneFlag then
      match pastHeader with
      | some pastHeader => validateBacklink checks pastHeader header
      | none => .err .backlinkMissing
    else .ok ()
  else
    match pastHeader with
    | some pastHeader => validateBacklink checks pastHeader header
    | none => .ok ()

section Specification

theorem validateHeader_of_validateOperation [Provenance T] [Chain T] [Offchain T]
    {digest : Bytes → Hash} {operation : T} (h : validateOperation digest operation = .ok ()) :
    validateHeader operation = .ok () := by
  unfold validateOperation at h
  rw [Outcome.bind_eq_ok] at h
  obtain ⟨⟨⟩, hhdr, -⟩ := h
  exact hhdr

theorem backlink_isSome_iff [Provenance T] [Chain T] [Offchain T] {header : T}
    (h : validateHeader header = .ok ()) :
    (Chain.backlink header).isSome ↔ 0 < Chain.seqNum header := by
  unfold validateHeader at h
  split at h
  · cases h
  split at h
  · cases h
  split at h
  · cases h
  split at h
  · cases h
  · rename_i hzero hpos
    cases hlink : backlink header with
    | none =>
      rw [hlink] at hpos
      simpa using hpos
    | some backlink =>
      rw [hlink] at hzero
      simp only [Option.isSome_some, Bool.true_and, beq_iff_eq] at hzero
      rw [UInt32.pos_iff_ne_zero]
      exact ⟨fun _ => hzero, fun _ => rfl⟩

variable [Provenance T] [Digest T] [Chain T] {checks : Bool} {pastHeader header : T}

theorem validateBacklink_eq_ok (h : validateBacklink checks pastHeader header = .ok ()) :
    Provenance.author pastHeader = Provenance.author header ∧
      Chain.seqNum pastHeader + 1 = Chain.seqNum header ∧
      Chain.backlink header = some (Digest.hash pastHeader) := by
  unfold validateBacklink at h
  split at h
  · cases h
  · rename_i hauthor
    rw [not_not] at hauthor
    rw [Outcome.bind_eq_ok] at h
    obtain ⟨expected, hadd, h⟩ := h
    have hexp := overflowing_eq_ok hadd
    subst hexp
    split at h
    · cases h
    · rename_i hseq
      rw [not_not] at hseq
      refine ⟨hauthor, hseq, ?_⟩
      cases hlink : backlink header with
      | none =>
        rw [hlink] at h
        cases h
      | some backlink =>
        rw [hlink] at h
        dsimp only at h
        split at h
        · cases h
        · rename_i hhash
          rw [not_not] at hhash
          rw [hhash]

theorem validateBacklink_of_next (hauthor : Provenance.author pastHeader = Provenance.author header)
    (hseq : (Chain.seqNum pastHeader).toNat + 1 = (Chain.seqNum header).toNat)
    (hlink : Chain.backlink header = some (Digest.hash pastHeader)) :
    validateBacklink checks pastHeader header = .ok () := by
  have hlt := (seqNum header).toNat_lt
  have hadd : (seqNum pastHeader).toNat + (1 : UInt32).toNat < 2 ^ 32 := by
    rw [UInt32.toNat_one]
    omega
  have hexp : seqNum pastHeader + 1 = seqNum header := by
    rw [← UInt32.toNat_inj, UInt32.toNat_add, Nat.mod_eq_of_lt hadd, UInt32.toNat_one, hseq]
  unfold validateBacklink
  rw [if_neg (not_not.mpr hauthor), addU32_of_lt hadd, Outcome.ok_bind,
    if_neg (not_not.mpr hexp), hlink]
  simp

end Specification

end P2Panda.Core
