import P2Panda.Stream.Orderer.Processor
import P2Panda.Stream.Orderer.Soundness

/-!
# Freed operations and failing calls

A call commits what it has taken from the ready queue before it loads the operations. When one
cannot be loaded, none is forwarded, and no later call comes back to them.
-/

namespace P2Panda.Stream

open P2Panda.Core P2Panda.Store Relation List OrdererStore CausalOrderer Digest

namespace CausalOrderer

variable {ID D : Type} [LinearOrder ID] {s : OrdererStore ID D} {id : ID}

/-! ## Items that do not come back -/

def Gone (id : ID) (s : OrdererStore ID D) : Prop := id ∈ s.readyIds ∧ id ∉ s.queue

theorem Gone.markReady (h : Gone id s) (hidx : s.Indexed) {k : ID} (hne : k ≠ id) :
    Gone id (s.markReady k).1 := by
  have hcat : id ∉ s.queue ++ [k] := by
    rw [mem_append, mem_singleton, not_or]
    exact ⟨h.2, hne.symm⟩
  by_cases hk : k ∈ s.readyIds
  · rw [Gone, readyIds_markReady_of_mem hk]
    rcases queue_markReady_of_mem hidx hk with heq | heq
    · exact ⟨h.1, heq ▸ h.2⟩
    · exact ⟨h.1, heq ▸ hcat⟩
  · have hq : (s.markReady k).1.queue = s.queue ++ [k] := by
      rw [queue, queueRows_concat hidx ⟨k, s.lastIndex + 1, true⟩ rfl, map_append]
      · rfl
      · rw [rows_markReady_of_notMem hk, filter_append]
        rfl
    rw [Gone, hq, readyIds_markReady_of_notMem hk]
    exact ⟨mem_append_left _ h.1, hcat⟩

theorem Gone.markAllReady {deps : ID → List ID} {ks : List ID} (h : Gone id s)
    (hidx : s.Indexed) (hks : Unlocks deps s.readyIds ks) : Gone id (markAllReady s ks) := by
  induction ks generalizing s with
  | nil => exact h
  | cons k ks ih =>
    cases hks with
    | cons new met rest =>
      rw [← readyIds_markReady_of_notMem new] at rest
      exact ih (h.markReady hidx fun heq => new (heq ▸ h.1)) (hidx.markReady k) rest

/-- What is ready does not come back once the queue has been emptied. -/
theorem gone_drain (hidx : s.Indexed) {n : Nat} (hn : s.queueRows.length ≤ n)
    (hid : id ∈ s.readyIds) : Gone id (drain n s).2 := by
  have hnil {s : OrdererStore ID D} (hq : s.queueRows = []) (hid : id ∈ s.readyIds) :
      Gone id s := by
    rw [Gone, queue, hq]
    exact ⟨hid, not_mem_nil⟩
  induction n generalizing s with
  | zero => exact hnil (length_eq_zero_iff.mp (Nat.le_zero.mp hn)) hid
  | succ n ih =>
    cases hq : s.queueRows with
    | nil =>
      rw [drain, next, takeNextReady_of_nil hq]
      exact hnil hq hid
    | cons row rest =>
      rw [drain, next, takeNextReady_eq hq]
      apply ih hidx.takeNextReady
      · rw [queueRows_takeNextReady hidx hq]
        rw [hq] at hn
        exact Nat.le_of_succ_le_succ hn
      · rw [readyIds_takeNextReady]
        exact hid

def taken (s : OrdererStore ID D) : List ID := (drain (s.readyRows.rows.length + 1) s).1

def emptied (s : OrdererStore ID D) : OrdererStore ID D :=
  (drain (s.readyRows.rows.length + 1) s).2

theorem gone_emptied (hidx : s.Indexed) (hid : id ∈ s.readyIds) : Gone id (emptied s) := by
  refine gone_drain hidx ?_ hid
  rw [queueRows, length_insertionSort]
  exact (length_filter_le _ _).trans (Nat.le_succ _)

theorem mem_queue_of_mem_taken (hidx : s.Indexed) (hid : id ∈ taken s) : id ∈ s.queue := by
  rw [taken, drain_eq_take hidx] at hid
  exact mem_of_mem_take hid

theorem gone_of_mem_taken (hidx : s.Indexed) (hid : id ∈ taken s) : Gone id (emptied s) := by
  obtain ⟨row, hrow, rfl⟩ := mem_map.mp (mem_queue_of_mem_taken hidx hid)
  exact gone_emptied hidx (mem_map_of_mem (mem_queueRows.mp hrow).1)

variable [DecidableEq D] {digest : ID → List ID → D} {deps : ID → List ID} {key : ID}

theorem Processed.gone {r : OrdererStore ID D × Bool} (h : Processed digest deps s key r)
    (hidx : s.Indexed) (hgone : Gone id s) (hne : key ≠ id) : Gone id r.1 := by
  cases h with
  | pending => exact hgone
  | again => exact hgone.markReady hidx hne
  | released _ _ releases =>
    have hall := (hgone.markReady hidx hne).markAllReady (hidx.markReady key) releases.unlocks
    unfold Gone queue queueRows readyIds at hall ⊢
    rw [releases.readyRows]
    exact hall

omit [DecidableEq D] in
theorem Sound.drain {out : List ID} (h : Sound digest deps s out) (n : Nat) :
    ∃ out', Sound digest deps (drain n s).2 out' := by
  induction n generalizing s out with
  | zero => exact ⟨out, h⟩
  | succ n ih =>
    have hnext := h.next
    unfold drain
    cases htake : CausalOrderer.next s with
    | mk t taken =>
      rw [htake] at hnext
      cases taken with
      | none => exact ⟨_, hnext⟩
      | some key => exact ih hnext

end CausalOrderer

namespace Orderer

open CausalOrderer (Gone Sound taken emptied)

variable {T V E L TP D M R : Type} [OrdererInput T V E M] [DecidableEq D]

variable {setup : OrdererSetup V E D} {faults : OrdererQuery → Option String}
variable {db db' : Database V L TP D M R} {input : T} {id : Hash} {deps : Hash → List Hash}
variable {result : Except (T × OrdererError) (List (T × OrdererResult))}

/-! ## Runs of the processor -/

/-- The event of an operation has the hash of the operation. -/
def LawfulHash (T : Type) {V E M : Type} [OrdererInput T V E M] : Prop :=
  ∀ (operation : Operation V E) (metadata : M),
    Digest.hash (OrdererInput.fromOperation operation metadata : T) = operation.hash

/-- The event comes with the dependencies it always has. -/
def Stable (deps : Hash → List Hash) (input : T) : Prop :=
  ∀ dependencies, OrdererInput.args input = .process dependencies →
    dependencies = deps (Digest.hash input)

/-- A call of `process`, with whatever queries fail. -/
def Calls (T : Type) [OrdererInput T V E M] (digest : Hash → List Hash → D)
    (deps : Hash → List Hash) (called : Hash → Prop) (db db' : Database V L TP D M R)
    (result : Except (T × OrdererError) (List (T × OrdererResult))) : Prop :=
  ∃ (setup : OrdererSetup V E D) (faults : OrdererQuery → Option String) (input : T),
    setup.digest = digest ∧ Stable deps input ∧ called (Digest.hash input) ∧
      process setup faults db input = some (db', result)

/-- Calls of `process`, while others change everything else in the database. -/
def Steps (T : Type) [OrdererInput T V E M] (digest : Hash → List Hash → D)
    (deps : Hash → List Hash) (called : Hash → Prop) :
    Database V L TP D M R → Database V L TP D M R → Prop :=
  ReflTransGen fun db db' =>
    db'.orderer = db.orderer ∨ ∃ result, Calls T digest deps called db db' result

def Run (T : Type) [OrdererInput T V E M] (digest : Hash → List Hash → D)
    (deps : Hash → List Hash) (db : Database V L TP D M R) : Prop :=
  ∃ db₀ : Database V L TP D M R, db₀.orderer = .empty ∧
    Steps T digest deps (fun _ => True) db₀ db

/-- The event with this id is in the output queue after the call. -/
def Placed (id : Hash) (result : Except (T × OrdererError) (List (T × OrdererResult))) : Prop :=
  ∃ outputs, result = .ok outputs ∧ ∃ output ∈ outputs, Digest.hash output.1 = id

/-- A later call, not given this event, puts it into the output queue. -/
def Obtainable (T : Type) [OrdererInput T V E M] (digest : Hash → List Hash → D)
    (deps : Hash → List Hash) (db : Database V L TP D M R) (id : Hash) : Prop :=
  ∃ db₁ db₂ result, Steps T digest deps (· ≠ id) db db₁ ∧
    Calls T digest deps (· ≠ id) db₁ db₂ result ∧ Placed id result

variable {digest : Hash → List Hash → D} {called : Hash → Prop} {out : List Hash}

theorem Calls.sound (h : Calls T digest deps called db db' result)
    (hsound : Sound digest deps db.orderer out) : ∃ out', Sound digest deps db'.orderer out' := by
  obtain ⟨setup, faults, input, rfl, hstable, -, hcall⟩ := h
  cases called_of_process hcall with
  | ignored => exact ⟨out, hsound⟩
  | aborted => exact ⟨out, hsound⟩
  | pending args hproc => exact ⟨out, (hsound.process (hstable _ args ▸ hproc)).2⟩
  | failed args hproc => exact (hsound.process (hstable _ args ▸ hproc)).2.drain _
  | released args hproc => exact (hsound.process (hstable _ args ▸ hproc)).2.drain _

theorem Steps.sound (h : Steps T digest deps called db db')
    (hsound : Sound digest deps db.orderer out) : ∃ out', Sound digest deps db'.orderer out' := by
  induction h with
  | refl => exact ⟨out, hsound⟩
  | tail _ hstep ih =>
    rcases hstep with hord | ⟨result, hcall⟩
    · exact hord ▸ ih
    · exact hcall.sound ih.choose_spec

theorem Run.sound (h : Run T digest deps db) : ∃ out, Sound digest deps db.orderer out := by
  obtain ⟨db0, hemp, hsteps⟩ := h
  exact hsteps.sound (hemp ▸ CausalOrderer.Run.init.sound)

omit [DecidableEq D] in
theorem hash_of_readyOutput (hhash : LawfulHash T) {output : T × OrdererResult}
    (h : readyOutput setup faults db id = .ok output) : Digest.hash output.1 = id := by
  obtain ⟨operation, metadata, rfl, rfl⟩ := readyOutput_eq_ok h
  exact hhash operation metadata

theorem Calls.gone (hhash : LawfulHash T) (h : Calls T digest deps (· ≠ id) db db' result)
    (hsound : Sound digest deps db.orderer out) (hgone : Gone id db.orderer) :
    Gone id db'.orderer ∧ ¬Placed id result := by
  obtain ⟨setup, faults, input, rfl, hstable, hinp, hcall⟩ := h
  have hself {kind : OrdererResult} : ¬Placed id (.ok [(input, kind)]) := by
    rintro ⟨_, ⟨⟩, output, hmem, hid⟩
    rw [mem_singleton.mp hmem] at hid
    exact hinp hid
  have hrdy {s : OrdererStore Hash D} {ready : Bool} {dependencies : List Hash}
      (args : OrdererInput.args input = .process dependencies)
      (hproc : CausalOrderer.process setup.digest setup.order db.orderer (hash input)
        dependencies = some (s, ready)) : s.Indexed ∧ Gone id s := by
    obtain ⟨hprocd, hsound'⟩ := hsound.process (hstable _ args ▸ hproc)
    exact ⟨hsound'.queued.indexed, hprocd.gone hsound.queued.indexed hgone hinp⟩
  cases called_of_process hcall with
  | ignored => exact ⟨hgone, hself⟩
  | aborted => exact ⟨hgone, by rintro ⟨_, ⟨⟩, -⟩⟩
  | pending args hproc => exact ⟨(hrdy args hproc).2, hself⟩
  | failed args hproc =>
    obtain ⟨hidx, hgone'⟩ := hrdy args hproc
    exact ⟨gone_emptied hidx hgone'.1, by rintro ⟨_, ⟨⟩, -⟩⟩
  | released args hproc load =>
    obtain ⟨hidx, hgone'⟩ := hrdy args hproc
    refine ⟨gone_emptied hidx hgone'.1, ?_⟩
    rintro ⟨_, ⟨⟩, output, hmem, hid⟩
    rcases mem_cons.mp hmem with rfl | hmem
    · exact hinp hid
    · obtain ⟨freed, hfreed, hload⟩ := (mem_of_mapM load).1 output hmem
      rw [hash_of_readyOutput hhash hload] at hid
      subst hid
      exact hgone'.2 (mem_queue_of_mem_taken hidx (mem_filter.mp hfreed).1)

theorem not_obtainable (hhash : LawfulHash T) (hsound : Sound digest deps db.orderer out)
    (hgone : Gone id db.orderer) : ¬Obtainable T digest deps db id := by
  rintro ⟨db1, db2, result, hsteps, hcall, hplaced⟩
  have hgone1 : Gone id db1.orderer := by
    clear hcall
    induction hsteps with
    | refl => exact hgone
    | tail hsteps hstep ih =>
      rcases hstep with hord | ⟨result, hcall⟩
      · exact hord ▸ ih
      · exact (hcall.gone hhash (Steps.sound hsteps hsound).choose_spec ih).1
  exact (hcall.gone hhash (hsteps.sound hsound).choose_spec hgone1).2 hplaced

/-! ## Calls that take from the ready queue -/

/-- The call finds the dependencies of its input met, and commits. -/
structure Commits (setup : OrdererSetup V E D) (faults : OrdererQuery → Option String)
    (deps : Hash → List Hash) (db : Database V L TP D M R) (input : T)
    (s : OrdererStore Hash D) : Prop where
  args : OrdererInput.args input = .process (deps (Digest.hash input))
  process : CausalOrderer.process setup.digest setup.order db.orderer (Digest.hash input)
    (deps (Digest.hash input)) = some (s, true)
  faults : ∀ query ∈ [.begin, .process, .next, .commit], faults query = none

/-- Every id taken from the ready queue is in the output queue, or a later call can put it there. -/
def Survives (setup : OrdererSetup V E D) (faults : OrdererQuery → Option String)
    (deps : Hash → List Hash) (db : Database V L TP D M R) (input : T)
    (s : OrdererStore Hash D) : Prop :=
  ∀ db' result, process setup faults db input = some (db', result) →
    ∀ id ∈ taken s, Placed id result ∨ Obtainable T setup.digest deps db' id

variable {s : OrdererStore Hash D}

theorem Commits.process_eq (h : Commits setup faults deps db input s) :
    Orderer.process setup faults db input = some ({ db with orderer := emptied s },
      match ((taken s).filter (· ≠ Digest.hash input)).mapM (readyOutput setup faults db) with
      | .error error => .error (input, error)
      | .ok toQueue =>
        .ok ((input, .readyInput ((taken s).filter (· ≠ Digest.hash input))) :: toQueue)) := by
  have hfaults := h.faults
  simp only [forall_mem_cons] at hfaults
  obtain ⟨hbegin, hproc, hnext, hcommit, -⟩ := hfaults
  simp only [Orderer.process, h.args, hbegin, hproc, h.process, Option.map_some, forwardReady,
    hnext, hcommit]
  have hsame : readyOutput (T := T) setup faults
      { db with orderer := (drain (s.readyRows.rows.length + 1) s).2 } =
      readyOutput setup faults db := rfl
  rw [hsame, taken]
  cases ((drain (s.readyRows.rows.length + 1) s).1.filter
      (· ≠ hash input)).mapM (readyOutput (T := T) setup faults db) with
  | error error => rfl
  | ok toQueue => rfl

/-- When an operation cannot be loaded, the call forwards nothing, and what it has taken does not
come back. -/
theorem Commits.not_survives (hhash : LawfulHash T) (h : Commits setup faults deps db input s)
    (hrun : Run T setup.digest deps db) {error : OrdererError}
    (hq : ((taken s).filter (· ≠ Digest.hash input)).mapM
      (readyOutput (T := T) setup faults db) = .error error) (hid : id ∈ taken s) :
    ¬Survives setup faults deps db input s := by
  intro hsurvives
  obtain ⟨out, hsound⟩ := hrun.sound
  have hsound' := (hsound.process h.process).2
  have hgone := gone_of_mem_taken hsound'.queued.indexed hid
  obtain ⟨out', hemptied⟩ := hsound'.drain (s.readyRows.rows.length + 1)
  have hcall := h.process_eq
  rw [hq] at hcall
  rcases hsurvives _ _ hcall id hid with ⟨outputs, hok, -⟩ | hobtainable
  · cases hok
  · exact not_obtainable hhash hemptied hgone hobtainable

/-- What a call takes from the ready queue survives just if all operations it has freed can be
loaded. -/
theorem survives_iff (hhash : LawfulHash T) (hrun : Run T setup.digest deps db)
    (hcommits : Commits setup faults deps db input s) :
    Survives setup faults deps db input s ↔ ∀ id ∈ taken s, id ≠ Digest.hash input →
      ∃ output : T × OrdererResult, readyOutput setup faults db id = .ok output := by
  have hfreed {id : Hash} : id ∈ (taken s).filter (· ≠ hash input) ↔
      id ∈ taken s ∧ id ≠ hash input := by
    rw [mem_filter, decide_eq_true_eq]
  cases hq : ((taken s).filter (· ≠ hash input)).mapM (readyOutput (T := T) setup faults db) with
  | ok toQueue =>
    have hloaded := (mem_of_mapM hq).2
    refine iff_of_true (fun db' result hcall id hid => Or.inl ?_) fun id hid hinp => ?_
    · rw [hcommits.process_eq, hq] at hcall
      cases hcall
      by_cases hinp : id = hash input
      · exact ⟨_, rfl, _, mem_cons_self, hinp.symm⟩
      · obtain ⟨output, hmem, hload⟩ := hloaded id (hfreed.mpr ⟨hid, hinp⟩)
        exact ⟨_, rfl, output, mem_cons_of_mem _ hmem, hash_of_readyOutput hhash hload⟩
    · obtain ⟨output, -, hload⟩ := hloaded id (hfreed.mpr ⟨hid, hinp⟩)
      exact ⟨output, hload⟩
  | error error =>
    obtain ⟨id, hid, hfails⟩ := exists_of_mapM_eq_error hq
    rw [hfreed] at hid
    refine iff_of_false (hcommits.not_survives hhash hrun hq hid.1) fun hload => ?_
    obtain ⟨output, hok⟩ := hload id hid.1 hid.2
    exact hfails output hok

/-! ## A freed operation that cannot be loaded -/

/-- The hash of an operation and its dependencies. -/
structure HashedEvent where
  hash : Hash
  dependencies : List Hash

instance : OrdererInput HashedEvent Unit Unit (List Hash) where
  hash := HashedEvent.hash
  args event := .process event.dependencies
  metadata := HashedEvent.dependencies
  fromOperation operation dependencies := ⟨operation.hash, dependencies⟩

def pairHash (n : UInt8) : Hash := ⟨Vector.replicate HASH_LEN n⟩

/-- Operation `2` depends on operation `1`. -/
def pairDependencies (id : Hash) : List Hash := if id = pairHash 2 then [pairHash 1] else []

def pairEvent (n : UInt8) : HashedEvent := ⟨pairHash n, pairDependencies (pairHash n)⟩

def pairSetup : OrdererSetup Unit Unit Hash where
  digest child _ := child
  order _ := .increasing (fun set => Encodable.encode
    (set.1.bytes.toList.map UInt8.toNat,
      set.2.map fun id => id.bytes.toList.map UInt8.toNat)) <| by
    intro set set' heq
    obtain ⟨hid, hids⟩ := Prod.mk.inj (Encodable.encode_injective heq)
    exact Prod.ext (hashBytes_injective hid) (List.map_injective_iff.mpr hashBytes_injective hids)
  decode header := .ok
    ⟨header.version, header.verifyingKey, header.signature, header.payloadSize, header.payloadHash,
      header.seqNum, header.backlink, (), header.extensions, header.size, header.digest⟩

def lockedDatabase : OrdererQuery → Option String
  | .getOperation _ => some "database is locked"
  | _ => none

def pairOperation : Operation Unit Unit :=
  ⟨pairHash 2,
    ⟨1, ⟨.replicate _ 0⟩, ⟨.replicate _ 0⟩, 0, none, 0, none, (), none, 0, pairHash 2⟩, none⟩

def pairDatabase : Database Unit Unit Unit Hash (List Hash) Unit :=
  ⟨(OperationStore.empty.insertOperation (pairHash 2) pairOperation ()).1, .empty, ∅, ()⟩

/-- Operation `2` has arrived and waits for operation `1`. -/
def pairPending : Database Unit Unit Unit Hash (List Hash) Unit :=
  ((process pairSetup lockedDatabase pairDatabase (pairEvent 2)).getD (pairDatabase, .ok [])).1

/-- Operation `1` has arrived and both are ready. -/
def pairReady : OrdererStore Hash Hash :=
  ((CausalOrderer.process pairSetup.digest pairSetup.order pairPending.orderer (pairHash 1)
    []).getD (.empty, false)).1

theorem run_pairPending : Run HashedEvent pairSetup.digest pairDependencies pairPending := by
  have hcall : process pairSetup lockedDatabase pairDatabase (pairEvent 2) =
      some (pairPending, .ok [(pairEvent 2, .pending)]) := rfl
  refine ⟨pairDatabase, rfl, .single (Or.inr ⟨_, pairSetup, lockedDatabase, pairEvent 2, rfl, ?_,
    trivial, hcall⟩)⟩
  rintro _ ⟨⟩
  rfl

theorem commits_pairReady {faults : OrdererQuery → Option String}
    (hfaults : ∀ query ∈ [.begin, .process, .next, .commit], faults query = none) :
    Commits pairSetup faults pairDependencies pairPending (pairEvent 1) pairReady :=
  ⟨rfl, rfl, hfaults⟩

/-- Operation `2` is lost with the call that frees it. -/
theorem not_survives_lockedDatabase :
    Run HashedEvent pairSetup.digest pairDependencies pairPending ∧
      Commits pairSetup lockedDatabase pairDependencies pairPending (pairEvent 1) pairReady ∧
      taken pairReady = [pairHash 1, pairHash 2] ∧
      ¬Survives pairSetup lockedDatabase pairDependencies pairPending (pairEvent 1) pairReady := by
  have hfreed : pairHash 2 ∈ taken pairReady := mem_cons_of_mem _ (mem_singleton_self _)
  have hq : ((taken pairReady).filter (· ≠ pairHash 1)).mapM
      (readyOutput (T := HashedEvent) pairSetup lockedDatabase pairPending) =
      .error (.operationStore "database is locked") := rfl
  have hcommits : Commits pairSetup lockedDatabase pairDependencies pairPending _ pairReady :=
    commits_pairReady (by simp [lockedDatabase])
  refine ⟨run_pairPending, hcommits, rfl, ?_⟩
  exact hcommits.not_survives (fun _ _ => rfl) run_pairPending hq hfreed

/-- Without a fault it is loaded. -/
theorem survives_pair :
    taken pairReady = [pairHash 1, pairHash 2] ∧
      readyOutput pairSetup (fun _ => none) pairPending (pairHash 2) =
        .ok (pairEvent 2, .readyOutput) ∧
      Survives pairSetup (fun _ => none) pairDependencies pairPending (pairEvent 1) pairReady := by
  have hload : readyOutput pairSetup (fun _ => none) pairPending (pairHash 2) =
      .ok (pairEvent 2, .readyOutput) := rfl
  refine ⟨rfl, hload, (survives_iff (fun _ _ => rfl) run_pairPending
    (commits_pairReady fun _ _ => rfl)).mpr fun id hid hne => ?_⟩
  have hid : id ∈ [pairHash 1, pairHash 2] := hid
  rcases mem_pair.mp hid with rfl | rfl
  · exact absurd rfl hne
  · exact ⟨_, hload⟩

end Orderer

end P2Panda.Stream
