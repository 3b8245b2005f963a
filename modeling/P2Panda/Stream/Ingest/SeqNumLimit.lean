import P2Panda.Core.RoundTrip
import P2Panda.Stream.Ingest.Buffering

/-!
# The last sequence number

The next sequence number is computed in 32 bits. An operation with a prune flag may take a log to
the largest number, and after it the sum overflows. Without overflow checks it becomes zero, and
what is rejected is still rejected.
-/

namespace P2Panda.Core

open P2Panda.Library

/-- `SeqNum::MAX`. -/
def maxSeqNum : SeqNum := 4294967295

theorem toNat_succ_lt_iff {seqNum : SeqNum} : seqNum.toNat + 1 < 2 ^ 32 ↔ seqNum ≠ maxSeqNum := by
  have hlt := seqNum.toNat_lt
  have hmax : maxSeqNum.toNat = 2 ^ 32 - 1 := rfl
  rw [ne_eq, ← UInt32.toNat_inj]
  omega

variable {T : Type} [Provenance T] [Digest T] [Chain T] {checks : Bool} {pastHeader header : T}

theorem validateBacklink_overflow_iff
    (hauthor : Provenance.author pastHeader = Provenance.author header) :
    (∀ message, validateBacklink true pastHeader header ≠ .panic message) ↔
      Chain.seqNum pastHeader ≠ maxSeqNum := by
  rw [← toNat_succ_lt_iff]
  unfold validateBacklink
  rw [if_neg (not_not.mpr hauthor)]
  constructor
  · intro hpan
    by_contra hover
    refine hpan "attempt to add with overflow" ?_
    have hadd : addU32 true (Chain.seqNum pastHeader) 1 =
        (.panic "attempt to add with overflow" : Outcome OperationError UInt32) := by
      unfold addU32 overflowing
      rw [UInt32.toNat_one, decide_eq_true (Nat.le_of_not_lt hover)]
      rfl
    rw [hadd]
    rfl
  · intro hlt message
    rw [addU32_of_lt (by rwa [UInt32.toNat_one]), Outcome.ok_bind]
    split
    · exact nofun
    split
    · split
      · exact nofun
      · exact nofun
    · exact nofun

theorem validatePrunableBacklink_some_false :
    validatePrunableBacklink checks (some pastHeader) header false =
      validateBacklink checks pastHeader header := by
  unfold validatePrunableBacklink
  split
  · rfl
  · rfl

theorem validatePrunableBacklink_overflow_iff {latest : Option T} (header : T) (pruneFlag : Bool)
    (hauthor : ∀ past ∈ latest, Provenance.author past = Provenance.author header) :
    (∀ message, validatePrunableBacklink true latest header pruneFlag ≠ .panic message) ↔
      (pruneFlag = true ∧ 0 < Chain.seqNum header) ∨
        ∀ past ∈ latest, Chain.seqNum past ≠ maxSeqNum := by
  cases latest with
  | none =>
    refine iff_of_true ?_ (Or.inr nofun)
    unfold validatePrunableBacklink
    split
    · split
      · exact nofun
      · exact nofun
    · exact nofun
  | some past =>
    simp only [Option.mem_some_iff, forall_eq']
    rw [← validateBacklink_overflow_iff (hauthor past rfl)]
    cases pruneFlag with
    | false => simp [validatePrunableBacklink_some_false]
    | true =>
      unfold validatePrunableBacklink
      by_cases hpos : Chain.seqNum header > 0
      · rw [if_pos hpos]
        exact iff_of_true nofun (Or.inl ⟨rfl, hpos⟩)
      · rw [if_neg hpos]
        exact ⟨Or.inr, fun h => h.resolve_left fun hprunes => hpos hprunes.2⟩

end P2Panda.Core

namespace P2Panda.Stream.Ingest

open P2Panda.Library P2Panda.Core P2Panda.Store

variable {V E L TP ε ς ι : Type} [DecidableEq L] [DecidableEq TP]

omit [DecidableEq TP] in
theorem mem_rows_of_latest {store : OperationStore V L TP} {author : VerifyingKey} {logId : L}
    {past : AnyHeader V} (h : past ∈ (store.getLatestEntry author logId).map AnyOperation.header) :
    ∃ row ∈ store.operations.rows, row.header = past ∧ row.logId = logId ∧
      past.verifyingKey = author := by
  obtain ⟨operation, hlat, rfl⟩ := Option.map_eq_some_iff.mp h
  obtain ⟨row, hrow, rfl, -⟩ := OperationStore.getLatestEntry_eq_some hlat
  obtain ⟨hrow, hauthor, hlog⟩ := OperationStore.mem_logRows.mp hrow
  exact ⟨row, hrow, rfl, hlog, hauthor⟩

/-- After any calls, a decoded header is validated against the latest one of its log without
overflow if and only if it has a prune flag or the latest one does not have the largest sequence
number; it cannot have it where no such operation arrived. In every build, it is accepted without a
prune flag if and only if it is the next one. -/
theorem validation_overflow_iff (digest : Bytes → Hash) (checks : Bool) (ooo : Option Nat)
    (calls : List (Call V E L TP)) (c : HeaderCodec V E ε ς ι) (bytes : Bytes)
    (header : Header V E) (hdecode : c.decode bytes = .ok header) (logId : L) (pruneFlag : Bool)
    (latest : Option (AnyHeader V))
    (hlatest : latest = (((Intake.init ooo).arriveAll digest checks calls).2.store.getLatestEntry
      header.verifyingKey logId).map AnyOperation.header) :
    ((∀ message, validatePrunableBacklink true latest header.toAnyHeader pruneFlag ≠
        .panic message) ↔
      (pruneFlag = true ∧ 0 < header.seqNum) ∨ ∀ past ∈ latest, past.seqNum ≠ maxSeqNum) ∧
    ((∀ call ∈ calls, call.logId = logId →
        call.operation.header.verifyingKey = header.verifyingKey →
        call.operation.header.seqNum ≠ maxSeqNum) →
      ∀ message, validatePrunableBacklink true latest header.toAnyHeader pruneFlag ≠
        .panic message) ∧
    ∀ past ∈ latest, ∀ build,
      (validatePrunableBacklink build (some past) header.toAnyHeader false = .ok () ↔
        past.seqNum.toNat + 1 = header.seqNum.toNat ∧
          past.verifyingKey = header.verifyingKey ∧ header.backlink = some past.digest) := by
  have hrows : ∀ past ∈ latest, ∃ row ∈ ((Intake.init ooo).arriveAll digest checks
      calls).2.store.operations.rows, row.header = past ∧ row.logId = logId ∧
        past.verifyingKey = header.verifyingKey := by
    rw [hlatest]
    intro past hpast
    exact mem_rows_of_latest hpast
  have hauthor : ∀ past ∈ latest, past.verifyingKey = header.verifyingKey := by
    intro past hpast
    obtain ⟨_, -, -, -, hauthor⟩ := hrows past hpast
    exact hauthor
  have hovf := validatePrunableBacklink_overflow_iff header.toAnyHeader pruneFlag hauthor
  refine ⟨hovf, ?_, ?_⟩
  · intro hcalls
    refine hovf.mpr (Or.inr ?_)
    intro past hpast
    -- the latest entry has arrived
    obtain ⟨row, hrow, rfl, hlog, hkey⟩ := hrows past hpast
    obtain ⟨call, hcall, rfl⟩ := ((Intake.from_init ooo).arriveAll digest checks).rows row hrow
    exact hcalls call hcall hlog hkey
  · intro past hpast build
    obtain ⟨hany, -⟩ := HeaderCodec.decode_eq_ok.mp hdecode
    obtain ⟨_, _, -, -, hreads, -⟩ := HeaderCodec.decodeAny_eq_ok.mp hany
    have hfst : header.toAnyHeader.backlink.isSome ↔ 0 < header.toAnyHeader.seqNum := by
      rw [hreads.chain, decide_eq_true_eq]
    rw [validatePrunableBacklink_some_false]
    constructor
    · intro hvld
      obtain ⟨hkey, hseq, hback⟩ := validateBacklink_eq_ok hvld
      have hlt := seqNum_lt_of_validateBacklink hvld hfst
      have hsum := congrArg UInt32.toNat hseq
      change (past.seqNum + 1).toNat = header.seqNum.toNat at hsum
      change past.seqNum.toNat < header.seqNum.toNat at hlt
      rw [UInt32.toNat_add, UInt32.toNat_one] at hsum
      exact ⟨by omega, hkey, hback⟩
    · rintro ⟨hseq, hkey, hback⟩
      exact validateBacklink_of_next hkey hseq hback

def chainedHeader (seqNum : SeqNum) (backlink : Option Hash) : Header CborValue UInt32 :=
  let bytes := sampleCodec.encodeHeader 1 sampleSigner.verifyingKey (some (sampleSigner.sign []))
    0 none seqNum backlink (some (.unsigned 9))
  ⟨1, sampleSigner.verifyingKey, sampleSigner.sign [], 0, none, seqNum, backlink, 9,
    some (.unsigned 9), UInt32.ofNat bytes.length, sampleCodec.crypto.digest bytes⟩

def chainedCall (header : Header CborValue UInt32) (pruneFlag : Bool) :
    Call CborValue UInt32 Nat Nat :=
  ⟨⟨header.digest, header, none⟩, 0, 0, pruneFlag⟩

theorem decode_chainedHeader {seqNum : SeqNum} (h : 0 < seqNum) (backlink : Hash) :
    sampleCodec.decode (sampleCodec.encode (chainedHeader seqNum (some backlink))) =
      .ok (chainedHeader seqNum (some backlink)) := by
  have hgenuine : sampleSigner.Genuine sampleCodec.crypto := ⟨rfl, fun _ => rfl⟩
  have hread : sampleCodec.extensions.Readable
      (fun value => value.within LENGTH_LIMIT 63 = true) 9 :=
    ⟨_, rfl, lawful_sampleCodec.within_unsigned 9, lawful_sampleCodec.toU32_unsigned 9⟩
  obtain ⟨header, hbuild, hdcd⟩ := Builder.decode_build lawful_sampleCodec
    (.chain .new seqNum backlink) hgenuine hread
  have hhdr : header = chainedHeader seqNum (some backlink) := by
    apply Outcome.ok.inj
    rw [← hbuild]
    unfold Builder.build Builder.chain
    rw [if_pos h]
    rfl
  rw [← hhdr]
  exact hdcd

set_option maxRecDepth 8000 in
/-- The second operation of a log is the next one after the first. -/
theorem validation_overflow_chainedHeader :
    validatePrunableBacklink true (some (chainedHeader 0 none).toAnyHeader)
      (chainedHeader 1 (some (chainedHeader 0 none).digest)).toAnyHeader false = .ok () :=
  ((validation_overflow_iff sampleDigest true none
    [chainedCall (chainedHeader 0 none) false] sampleCodec _ _
    (decode_chainedHeader (by decide) (chainedHeader 0 none).digest) 0 false
    (some (chainedHeader 0 none).toAnyHeader) rfl).2.2 _ rfl true).mpr ⟨rfl, rfl, rfl⟩

set_option maxRecDepth 8000 in
/-- An operation with a prune flag and the largest sequence number is stored. A first header that
was decoded is compared with a sum that overflows. -/
theorem validation_overflows_chainedHeader :
    let pruning := chainedHeader maxSeqNum (some (chainedHeader 0 none).digest)
    let intake := (Intake.init (some 10)).arriveAll sampleDigest true [chainedCall pruning true]
    sampleCodec.decode (sampleCodec.encode pruning) = .ok pruning ∧ intake.1 = [.ok .inserted] ∧
      sampleCodec.decode (sampleCodec.encode (chainedHeader 0 none)) = .ok (chainedHeader 0 none) ∧
      (intake.2.store.getLatestEntry (chainedHeader 0 none).verifyingKey 0).map
        AnyOperation.header = some pruning.toAnyHeader ∧
      validatePrunableBacklink true (some pruning.toAnyHeader)
        (chainedHeader 0 none).toAnyHeader false = .panic "attempt to add with overflow" :=
  ⟨decode_chainedHeader (by decide) _, rfl, rfl, rfl, rfl⟩

end P2Panda.Stream.Ingest
