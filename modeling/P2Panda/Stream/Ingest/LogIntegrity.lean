import P2Panda.Stream.Ingest.Operation

/-!
# Logs only grow at their end

The store accepts operations with different hashes, so ingest has to keep sequence numbers apart. It
compares with the latest operation of the log, except for operations with a prune flag.
-/

namespace P2Panda.Stream.Ingest

open P2Panda.Library P2Panda.Core P2Panda.Store OperationStore List

variable {V E L TP : Type} [DecidableEq L] [DecidableEq TP]

/-- The arguments of a call of `ingestOperation`. -/
structure Call (V E L TP : Type) where
  operation : Operation V E
  logId : L
  topic : TP
  pruneFlag : Bool

def Call.apply (digest : Bytes → Hash) (checks : Bool) (store : OperationStore V L TP)
    (call : Call V E L TP) : OperationStore V L TP :=
  (ingestOperation digest checks store none call.operation call.logId call.topic
    call.pruneFlag).2.1

def ingestAll (digest : Bytes → Hash) (checks : Bool) (calls : List (Call V E L TP)) :
    OperationStore V L TP :=
  calls.foldl (Call.apply digest checks) OperationStore.empty

def Call.row (call : Call V E L TP) : OperationRow V L :=
  ⟨call.operation.hash, call.logId, call.operation.header.toAnyHeader, call.operation.body⟩

def SameLog (a b : OperationRow V L) : Prop :=
  a.header.verifyingKey = b.header.verifyingKey ∧ a.logId = b.logId

/-- In the order in which rows were written, sequence numbers grow in each log. -/
def Growing (store : OperationStore V L TP) : Prop :=
  store.operations.rows.Pairwise fun a b =>
    SameLog a b → a.header.seqNum.toNat < b.header.seqNum.toNat

/-- A new operation with a prune flag, other than the first of a log, goes beyond the latest. -/
def Call.Advances (store : OperationStore V L TP) (call : Call V E L TP) : Prop :=
  call.pruneFlag = true → 0 < call.operation.header.seqNum →
    store.hasOperation call.operation.hash = false →
    ∀ latest ∈ store.getLatestEntry call.operation.header.verifyingKey call.logId,
      latest.header.seqNum < call.operation.header.seqNum

instance (store : OperationStore V L TP) (call : Call V E L TP) :
    Decidable (call.Advances store) :=
  inferInstanceAs (Decidable (_ → _ → _ → ∀ latest ∈ _, _))

variable {digest : Bytes → Hash} {checks : Bool} {store : OperationStore V L TP}
variable {call : Call V E L TP}

theorem rows_of_checkLogAndInsert {store' : OperationStore V L TP} {operation : Operation V E}
    {logId : L} {topic : TP} {pruneFlag : Bool}
    (h : checkLogAndInsert checks store operation logId topic pruneFlag = .ok store')
    (hnew : store.hasOperation operation.hash = false) :
    validatePrunableBacklink checks
        ((store.getLatestEntry operation.header.verifyingKey logId).map AnyOperation.header)
        operation.header.toAnyHeader pruneFlag = .ok () ∧
      store'.operations.rows = store.operations.rows ++
        [⟨operation.hash, logId, operation.header.toAnyHeader, operation.body⟩] := by
  unfold checkLogAndInsert at h
  rw [Outcome.bind_eq_ok] at h
  obtain ⟨⟨⟩, hvld, h⟩ := h
  constructor
  · cases hcheck : validatePrunableBacklink checks _ operation.header.toAnyHeader pruneFlag with
    | ok => rfl
    | err => rw [hcheck] at hvld; cases hvld
    | panic => rw [hcheck] at hvld; cases hvld
  · have hstore := Outcome.ok.inj h
    subst hstore
    rw [← Bool.not_eq_true, hasOperation_iff] at hnew
    exact Table.rows_insertOrIgnore_of_notMem hnew

theorem Call.rows_apply (digest : Bytes → Hash) (checks : Bool) (store : OperationStore V L TP)
    (call : Call V E L TP) :
    (call.apply digest checks store).operations = store.operations ∨
      validateOperation digest call.operation = .ok () ∧
      store.hasOperation call.operation.hash = false ∧
      validatePrunableBacklink checks
        ((store.getLatestEntry call.operation.header.verifyingKey call.logId).map
          AnyOperation.header) call.operation.header.toAnyHeader call.pruneFlag = .ok () ∧
      (call.apply digest checks store).operations.rows =
        store.operations.rows ++ [call.row] := by
  unfold Call.apply ingestOperation
  split
  · exact Or.inl rfl
  cases hvld : validateOperation digest call.operation with
  | err => exact Or.inl rfl
  | panic => exact Or.inl rfl
  | ok =>
    dsimp only
    split
    · exact Or.inl rfl
    rename_i hnew
    rw [Bool.not_eq_true] at hnew
    cases hins : checkLogAndInsert checks store call.operation call.logId call.topic
        call.pruneFlag with
    | err => exact Or.inl rfl
    | panic => exact Or.inl rfl
    | ok store' =>
      have hrows := rows_of_checkLogAndInsert hins hnew
      exact Or.inr ⟨rfl, hnew, hrows.1, hrows.2⟩

theorem seqNum_lt_of_validateBacklink {past header : AnyHeader V}
    (h : validateBacklink checks past header = .ok ())
    (hfst : header.backlink.isSome ↔ 0 < header.seqNum) :
    past.seqNum.toNat < header.seqNum.toNat := by
  obtain ⟨-, hseq, hlink⟩ := validateBacklink_eq_ok h
  have hpos : 0 < header.seqNum := by
    rw [← hfst]
    exact Option.isSome_of_mem hlink
  have hseq' : (past.seqNum + 1).toNat = header.seqNum.toNat := congrArg UInt32.toNat hseq
  rw [UInt32.toNat_add, UInt32.toNat_one] at hseq'
  have hpast := past.seqNum.toNat_lt
  rw [UInt32.lt_iff_toNat_lt] at hpos
  omega

omit [DecidableEq TP] in
theorem seqNum_lt_of_written (hadvances : call.Advances store)
    (hvld : validateOperation digest call.operation = .ok ())
    (hnew : store.hasOperation call.operation.hash = false)
    (hlog : validatePrunableBacklink checks
      ((store.getLatestEntry call.operation.header.verifyingKey call.logId).map
        AnyOperation.header) call.operation.header.toAnyHeader call.pruneFlag = .ok ())
    {row : OperationRow V L} (hrow : row ∈ store.operations.rows) (hsame : SameLog row call.row) :
    row.header.seqNum.toNat < call.operation.header.seqNum.toNat := by
  have hmem : row ∈ store.logRows call.operation.header.verifyingKey call.logId :=
    mem_logRows.mpr ⟨hrow, hsame.1, hsame.2⟩
  have hfst := backlink_isSome_iff (validateHeader_of_validateOperation hvld)
  cases hlat : store.getLatestEntry call.operation.header.verifyingKey call.logId with
  | none =>
    rw [getLatestEntry_eq_none hlat] at hmem
    simp at hmem
  | some latest =>
    obtain ⟨last, -, hlast, hmax⟩ := getLatestEntry_eq_some hlat
    have hle : row.header.seqNum.toNat ≤ latest.header.seqNum.toNat := by
      rw [← hlast]
      exact hmax row hmem
    apply lt_of_le_of_lt hle
    rw [hlat] at hlog
    unfold validatePrunableBacklink at hlog
    split at hlog
    · rename_i hpos
      split at hlog
      · exact seqNum_lt_of_validateBacklink hlog hfst
      · rename_i hprune
        rw [Bool.not_eq_true, Bool.not_eq_false'] at hprune
        exact UInt32.lt_iff_toNat_lt.mp (hadvances hprune hpos hnew latest hlat)
    · exact seqNum_lt_of_validateBacklink hlog hfst

theorem Growing.apply (h : Growing store) (hadvances : call.Advances store) :
    Growing (call.apply digest checks store) := by
  unfold Growing
  rcases call.rows_apply digest checks store with heq | ⟨hvld, hnew, hlog, hrows⟩
  · rw [heq]
    exact h
  · rw [hrows, pairwise_append]
    refine ⟨h, pairwise_singleton _ _, fun row hrow new hmem hsame => ?_⟩
    rw [mem_singleton] at hmem
    subst hmem
    exact seqNum_lt_of_written hadvances hvld hnew hlog hrow hsame

omit [DecidableEq L] [DecidableEq TP] in
theorem Growing.seqNum_ne (h : Growing store) {a b : OperationRow V L}
    (ha : a ∈ store.operations.rows) (hb : b ∈ store.operations.rows) (hne : a ≠ b)
    (hsame : SameLog a b) : a.header.seqNum ≠ b.header.seqNum := by
  have hpair : store.operations.rows.Pairwise fun a b =>
      SameLog a b → a.header.seqNum ≠ b.header.seqNum := by
    apply List.Pairwise.imp _ h
    intro a b hlt hsame heq
    exact (hlt hsame).ne (congrArg UInt32.toNat heq)
  have : Std.Symm fun a b : OperationRow V L =>
      SameLog a b → a.header.seqNum ≠ b.header.seqNum :=
    ⟨fun a b hab hsame heq => hab ⟨hsame.1.symm, hsame.2.symm⟩ heq.symm⟩
  exact hpair.forall ha hb hne hsame

theorem ingestAll_concat (calls : List (Call V E L TP)) (call : Call V E L TP) :
    ingestAll digest checks (calls ++ [call]) =
      call.apply digest checks (ingestAll digest checks calls) := by
  rw [ingestAll, foldl_append]
  rfl

theorem growing_ingestAll {calls : List (Call V E L TP)}
    (h : ∀ before call after, calls = before ++ call :: after →
      call.Advances (ingestAll digest checks before)) :
    Growing (ingestAll digest checks calls) := by
  induction calls using List.reverseRecOn with
  | nil => exact List.Pairwise.nil
  | append_singleton calls call ih =>
    have hgrowing := ih fun before call' after heq =>
      h before call' (after ++ [call]) (by rw [heq, append_assoc]; rfl)
    rw [ingestAll_concat]
    exact hgrowing.apply (h calls call [] rfl)

/-- If the operations with a prune flag go beyond their log, then at every point the operations of a
log have different sequence numbers, and what a call stores has a larger one than all before. -/
theorem log_integrity {calls : List (Call V E L TP)}
    (h : ∀ before call after, calls = before ++ call :: after →
      call.Advances (ingestAll digest checks before)) :
    (∀ before after, calls = before ++ after →
      ∀ a ∈ (ingestAll digest checks before).operations.rows,
      ∀ b ∈ (ingestAll digest checks before).operations.rows,
        a.header.verifyingKey = b.header.verifyingKey → a.logId = b.logId →
        a.header.seqNum = b.header.seqNum → a = b) ∧
      ∀ before call after, calls = before ++ call :: after →
        ∀ new ∈ (ingestAll digest checks (before ++ [call])).operations.rows,
          new ∉ (ingestAll digest checks before).operations.rows →
        ∀ old ∈ (ingestAll digest checks before).operations.rows,
          old.header.verifyingKey = new.header.verifyingKey → old.logId = new.logId →
          old.header.seqNum < new.header.seqNum := by
  have hgrowing : ∀ before after, calls = before ++ after →
      Growing (ingestAll digest checks before) := by
    intro before after heq
    apply growing_ingestAll
    intro before' call' after' heq'
    exact h before' call' (after' ++ after) (by rw [heq, heq', append_assoc]; rfl)
  constructor
  · intro before after heq a ha b hb hauthor hlog hseq
    by_contra hne
    exact (hgrowing before after heq).seqNum_ne ha hb hne ⟨hauthor, hlog⟩ hseq
  · intro before call after heq new hnew hold old hmem hauthor hlog
    have hpair := hgrowing (before ++ [call]) after (by rw [heq, append_assoc]; rfl)
    unfold Growing at hpair
    rw [ingestAll_concat] at hnew hpair
    rcases call.rows_apply digest checks (ingestAll digest checks before) with
      hsame | ⟨-, -, -, hrows⟩
    · rw [hsame] at hnew
      exact absurd hnew hold
    · rw [hrows, mem_append] at hnew
      rw [hrows, pairwise_append] at hpair
      exact hpair.2.2 old hmem new (hnew.resolve_left hold) ⟨hauthor, hlog⟩

def sampleDigest : Bytes → Hash := fun _ => ⟨Vector.replicate HASH_LEN 0⟩

/-- Without payload, and with a hash made of the byte `digest`. -/
def sampleHeader (digest : UInt8) (seqNum : SeqNum) (backlink : Option UInt8) :
    Header Unit Unit where
  version := 1
  verifyingKey := ⟨Vector.replicate VERIFYING_KEY_LEN 1⟩
  signature := ⟨Vector.replicate SIGNATURE_LEN digest⟩
  payloadSize := 0
  payloadHash := none
  seqNum := seqNum
  backlink := backlink.map fun byte => ⟨Vector.replicate HASH_LEN byte⟩
  extensions := ()
  extensionsCbor := none
  size := 0
  digest := ⟨Vector.replicate HASH_LEN digest⟩

def sampleCall (header : Header Unit Unit) (pruneFlag : Bool) : Call Unit Unit Nat Nat :=
  ⟨⟨header.digest, header, none⟩, 0, 0, pruneFlag⟩

def prunedCalls : List (Call Unit Unit Nat Nat) :=
  [sampleCall (sampleHeader 1 0 none) false, sampleCall (sampleHeader 2 1 (some 1)) false,
    sampleCall (sampleHeader 5 4 (some 4)) true]

theorem log_integrity_prunedCalls :
    (ingestAll sampleDigest true prunedCalls).operations.rows.map
        (fun row => row.header.seqNum) = [0, 1, 4] ∧
      ∀ before after, prunedCalls = before ++ after →
      ∀ a ∈ (ingestAll sampleDigest true before).operations.rows,
      ∀ b ∈ (ingestAll sampleDigest true before).operations.rows,
        a.header.verifyingKey = b.header.verifyingKey → a.logId = b.logId →
        a.header.seqNum = b.header.seqNum → a = b := by
  have hsteps : ∀ i < 3, ∀ call ∈ prunedCalls[i]?, call.Advances
      (ingestAll sampleDigest true (prunedCalls.take i)) := by
    decide +kernel
  refine ⟨by decide +kernel, (log_integrity fun before call after heq => ?_).1⟩
  have hlen : prunedCalls.length = before.length + (after.length + 1) := by
    rw [heq, length_append, length_cons]
  have hstep := hsteps before.length (by change 3 = _ at hlen; omega) call
  rw [heq, take_left] at hstep
  exact hstep (by simp)

/-- After the first two operations, another one with sequence number `1` is taken when it comes with
a prune flag. -/
theorem log_forked :
    let store := ingestAll sampleDigest true
      [sampleCall (sampleHeader 1 0 none) false, sampleCall (sampleHeader 2 1 (some 1)) false,
        sampleCall (sampleHeader 3 1 (some 1)) true]
    ∃ a ∈ store.operations.rows, ∃ b ∈ store.operations.rows,
      a.header.verifyingKey = b.header.verifyingKey ∧ a.logId = b.logId ∧
        a.header.seqNum = b.header.seqNum ∧ a ≠ b := by
  decide +kernel

end P2Panda.Stream.Ingest
