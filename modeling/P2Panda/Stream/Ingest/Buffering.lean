import P2Panda.Stream.Ingest.OutOfOrder

/-!
# What the out-of-order buffer keeps and releases

A pushed operation takes the place of one with the same backlink and log id, and of the last one
where the buffer is full. The chain popped afterwards leaves the buffer, whatever becomes of it.
-/

namespace P2Panda.Stream.Ingest

open P2Panda.Library P2Panda.Core P2Panda.Store IndexMap Function List

section Chains

variable {ID L T : Type} [DecidableEq ID] [DecidableEq L]

abbrev Contents (ID L T : Type) := ChainRingKey ID L → Option (ChainRingValue ID T)

/-- Popping takes the `values` of a log out of the contents. -/
inductive Pops (logId : L) :
    Contents ID L T → Option ID → List (ChainRingValue ID T) → Contents ID L T → Prop
  | done {contents : Contents ID L T} {backlink : Option ID}
      (h : contents ⟨backlink, logId⟩ = none) : Pops logId contents backlink [] contents
  | next {contents left : Contents ID L T} {backlink : Option ID} {value : ChainRingValue ID T}
      {values : List (ChainRingValue ID T)} (h : contents ⟨backlink, logId⟩ = some value)
      (hrest : Pops logId (Function.update contents ⟨backlink, logId⟩ none) (some value.id) values
        left) :
      Pops logId contents backlink (value :: values) left

/-- The places on the chain that begins at a position: its own, and for each item on the chain the
place of what comes after it. -/
inductive OnChain (logId : L) (contents : Contents ID L T) (backlink : Option ID) :
    ChainRingKey ID L → Prop
  | start : OnChain logId contents backlink ⟨backlink, logId⟩
  | next {key : ChainRingKey ID L} {value : ChainRingValue ID T}
      (h : OnChain logId contents backlink key) (hval : contents key = some value) :
      OnChain logId contents backlink ⟨some value.id, logId⟩

namespace Pops

variable {logId : L} {contents left : Contents ID L T} {backlink : Option ID}
variable {values : List (ChainRingValue ID T)} {value : ChainRingValue ID T}
  {key : ChainRingKey ID L}

theorem popChain (logId : L) (buffer : IndexMap (ChainRingKey ID L) (ChainRingValue ID T))
    (backlink : Option ID) (result : List T) :
    ∃ values, Pops logId buffer.lookup backlink values
        (ChainRing.popChain logId buffer backlink result).2.lookup ∧
      (ChainRing.popChain logId buffer backlink result).1 =
        result ++ values.map ChainRingValue.item := by
  -- by induction on the number of items that are left in the buffer
  induction hlen : buffer.len using Nat.strong_induction_on generalizing buffer backlink result with
  | _ len ih =>
    subst hlen
    rw [ChainRing.popChain]
    split
    · rename_i hnone
      exact ⟨[], done (shiftRemove_eq_none_iff.mp hnone), by simp⟩
    · rename_i value rest hrm
      obtain ⟨hlook, hrest⟩ := lookup_of_shiftRemove hrm
      obtain ⟨values, hpops, hres⟩ := ih rest.len (len_shiftRemove_lt hrm) rest
        (some value.id) (result ++ [value.item]) rfl
      have hupd : rest.lookup = Function.update buffer.lookup ⟨backlink, logId⟩ none := by
        funext k
        rw [hrest, update_apply]
      rw [hupd] at hpops
      refine ⟨value :: values, next hlook hpops, ?_⟩
      rw [hres, append_assoc]
      rfl

omit [DecidableEq ID] [DecidableEq L] in
theorem eq_some_of_update [DecidableEq (ChainRingKey ID L)] {key other : ChainRingKey ID L}
    (h : Function.update contents other none key = some value) :
    contents key = some value := by
  rw [update_apply] at h
  split at h
  · cases h
  · exact h

theorem onChain_iff (hval : contents ⟨backlink, logId⟩ = some value) :
    OnChain logId contents backlink key ↔ key = ⟨backlink, logId⟩ ∨
      OnChain logId (Function.update contents ⟨backlink, logId⟩ none) (some value.id) key := by
  constructor
  · intro h
    induction h with
    | start => exact Or.inl rfl
    | @next key value' _ hval' ih =>
      by_cases hkey : key = ⟨backlink, logId⟩
      · cases hkey
        cases hval.symm.trans hval'
        exact Or.inr .start
      · refine Or.inr (.next (ih.resolve_left hkey) ?_)
        rw [update_of_ne hkey]
        exact hval'
  · rintro (rfl | h)
    · exact .start
    · induction h with
      | start => exact .next .start hval
      | next _ hval' ih => exact .next ih (eq_some_of_update hval')

theorem contents_of_left (h : Pops logId contents backlink values left)
    (hval : left key = some value) :
    contents key = some value := by
  induction h with
  | done => exact hval
  | next _ _ ih => exact eq_some_of_update (ih hval)

theorem contents_of_mem (h : Pops logId contents backlink values left) (hval : value ∈ values) :
    ∃ backlink, contents ⟨backlink, logId⟩ = some value := by
  induction h with
  | done => cases hval
  | @next contents left backlink value' _ hsome _ ih =>
    rcases mem_cons.mp hval with rfl | hval
    · exact ⟨backlink, hsome⟩
    · obtain ⟨backlink', hrest⟩ := ih hval
      exact ⟨backlink', eq_some_of_update hrest⟩

theorem unique {values' : List (ChainRingValue ID T)} {left' : Contents ID L T}
    (h : Pops logId contents backlink values left)
    (h' : Pops logId contents backlink values' left') : values = values' ∧ left = left' := by
  induction h generalizing values' with
  | done hnone =>
    cases h' with
    | done => exact ⟨rfl, rfl⟩
    | next hsome => cases hnone.symm.trans hsome
  | next hsome _ ih =>
    cases h' with
    | done hnone => cases hnone.symm.trans hsome
    | next hsome' hrest =>
      cases hsome.symm.trans hsome'
      obtain ⟨rfl, rfl⟩ := ih hrest
      exact ⟨rfl, rfl⟩

theorem left_eq_some (h : Pops logId contents backlink values left) :
    left key = some value ↔
      contents key = some value ∧ ¬OnChain logId contents backlink key := by
  induction h with
  | @done contents backlink hnone =>
    have hfirst {key : ChainRingKey ID L} (hon : OnChain logId contents backlink key) :
        key = ⟨backlink, logId⟩ := by
      induction hon with
      | start => rfl
      | next _ hval ih =>
        rw [ih] at hval
        cases hnone.symm.trans hval
    refine (and_iff_left_of_imp fun hval hon => ?_).symm
    rw [hfirst hon] at hval
    cases hnone.symm.trans hval
  | next hsome _ ih =>
    rw [ih, onChain_iff hsome, update_apply]
    split_ifs with hkey <;> simp [hkey]

end Pops

theorem ChainRing.lookup_push (ring : ChainRing ID L T) (id : ID) (backlink : Option ID)
    (logId : L) (item : T) (key : ChainRingKey ID L) :
    (ring.push id backlink logId item).buffer.lookup key =
      if key = ⟨backlink, logId⟩ then some ⟨id, item⟩
      else (if ring.capacity ≤ ring.buffer.len then ring.buffer.pop else ring.buffer).lookup
        key :=
  lookup_insert _ _

end Chains

variable {V E L TP : Type} [DecidableEq L]

namespace OooBuffer

variable {buffer buffer' : OooBuffer V E L} {operation : Operation V E}
variable {latestHeader : Option (AnyHeader V)} {logId : L} {pruneFlag : Bool}
variable {result : OooResult V E}

inductive Untouched (operation : Operation V E) : OooResult V E → Prop
  | inOrder : Untouched operation (.inOrder operation)
  | outdated : Untouched operation .outdated

def popped (values : List (ChainRingValue Hash (Operation V E))) : OooResult V E :=
  if values.isEmpty then .outOfOrder else .ordered (values.map ChainRingValue.item)

theorem pushAndPopFrom_cases {expected : Option Hash}
    (h : pushAndPopFrom buffer operation expected logId = (result, buffer')) :
    ∃ values, Pops logId (ChainRing.push buffer operation.hash operation.header.backlink logId
        operation).buffer.lookup expected values buffer'.buffer.lookup ∧
      result = popped values ∧ buffer'.capacity = buffer.capacity := by
  obtain ⟨values, hpops, hvals⟩ := Pops.popChain logId (ChainRing.push buffer operation.hash
    operation.header.backlink logId operation).buffer expected []
  rw [nil_append] at hvals
  unfold pushAndPopFrom ChainRing.popFrom at h
  dsimp only at h
  rw [hvals, isEmpty_map] at h
  refine ⟨values, ?_⟩
  unfold popped
  split_ifs at h ⊢
  · cases h
    exact ⟨hpops, rfl, rfl⟩
  · cases h
    exact ⟨hpops, rfl, rfl⟩

/-- The buffer stays as it is, or the operation is pushed and a chain is popped from the same
position. -/
theorem process_route (operation : Operation V E) (latestHeader : Option (AnyHeader V))
    (logId : L) (pruneFlag : Bool) :
    (∃ answer, Untouched operation answer ∧ ∀ buffer : OooBuffer V E L,
      process buffer operation latestHeader logId pruneFlag = (answer, buffer)) ∨
      ∃ expected, ∀ buffer : OooBuffer V E L,
        process buffer operation latestHeader logId pruneFlag =
          pushAndPopFrom buffer operation expected logId := by
  unfold process
  split
  · exact Or.inl ⟨_, .inOrder, fun _ => rfl⟩
  split
  · split
    · exact Or.inl ⟨_, .outdated, fun _ => rfl⟩
    split
    · exact Or.inl ⟨_, .inOrder, fun _ => rfl⟩
    · exact Or.inr ⟨_, fun _ => rfl⟩
  · exact Or.inr ⟨_, fun _ => rfl⟩

theorem process_cases (h : process buffer operation latestHeader logId pruneFlag =
    (result, buffer')) :
    (Untouched operation result ∧ buffer' = buffer) ∨
      ∃ expected values, Pops logId (ChainRing.push buffer operation.hash
          operation.header.backlink logId operation).buffer.lookup expected values
          buffer'.buffer.lookup ∧
        result = popped values ∧ buffer'.capacity = buffer.capacity := by
  rcases process_route operation latestHeader logId pruneFlag with
    ⟨answer, hans, hproc⟩ | ⟨expected, hproc⟩
  · rw [hproc] at h
    cases h
    exact Or.inl ⟨hans, rfl⟩
  · rw [hproc] at h
    exact Or.inr ⟨expected, pushAndPopFrom_cases h⟩

end OooBuffer

structure Intake (V E L TP : Type) where
  store : OperationStore V L TP
  ooo : Option (OooBuffer V E L)

def Intake.init (ooo : Option Nat) : Intake V E L TP :=
  ⟨OperationStore.empty, ooo.map ChainRing.withCapacity⟩

variable {digest : Bytes → Hash} {checks : Bool} {store store' : OperationStore V L TP}
variable {operation : Operation V E} {operations : List (Operation V E)} {logId : L} {topic : TP}
variable {pruneFlag : Bool} {ooo : Option (OooBuffer V E L)} {intake : Intake V E L TP}
  {changes : Outcome IngestError (OperationStore V L TP)} {row : OperationRow V L}
  {calls : List (Call V E L TP)}

omit [DecidableEq L] in
theorem rows_transact {buffer : Option (OooBuffer V E L)} {result : IngestResult V E}
    (hrow : row ∈ (transact store buffer result changes).2.1.operations.rows) :
    row ∈ store.operations.rows ∨
      ∃ store', changes = .ok store' ∧ row ∈ store'.operations.rows := by
  cases changes with
  | ok store' => exact Or.inr ⟨store', rfl, hrow⟩
  | err => exact Or.inl hrow
  | panic => exact Or.inl hrow

omit [DecidableEq L] in
@[simp] theorem ooo_transact {buffer : Option (OooBuffer V E L)} {result : IngestResult V E} :
    (transact store buffer result changes).2.2 = buffer := by
  cases changes <;> rfl

structure Intake.From (calls : List (Call V E L TP)) (intake : Intake V E L TP) : Prop where
  rows : ∀ row ∈ intake.store.operations.rows, ∃ call ∈ calls, row = call.row
  contents : ∀ buffer ∈ intake.ooo, ∀ key value, buffer.buffer.lookup key = some value →
    ∃ call ∈ calls, key = ⟨call.operation.header.backlink, call.logId⟩ ∧
      value = ⟨call.operation.hash, call.operation⟩

theorem Intake.From.mono {calls calls' : List (Call V E L TP)} (h : intake.From calls)
    (hsub : calls ⊆ calls') : intake.From calls' where
  rows row hrow := by
    obtain ⟨call, hcall, heq⟩ := h.rows row hrow
    exact ⟨call, hsub hcall, heq⟩
  contents buffer hbuf key value hval := by
    obtain ⟨call, hcall, heq⟩ := h.contents buffer hbuf key value hval
    exact ⟨call, hsub hcall, heq⟩

theorem Intake.from_init (ooo : Option Nat) : (Intake.init ooo : Intake V E L TP).From [] where
  rows := nofun
  contents buffer hbuf key value hval := by
    obtain ⟨capacity, -, rfl⟩ := Option.map_eq_some_iff.mp hbuf
    cases hval

theorem Intake.From.push (h : intake.From calls) {buffer : OooBuffer V E L}
    (hbuf : intake.ooo = some buffer) {call : Call V E L TP} (hcall : call ∈ calls)
    {key : ChainRingKey Hash L} {value : ChainRingValue Hash (Operation V E)}
    (hval : (ChainRing.push buffer call.operation.hash call.operation.header.backlink
      call.logId call.operation).buffer.lookup key = some value) :
    ∃ call ∈ calls, key = ⟨call.operation.header.backlink, call.logId⟩ ∧
      value = ⟨call.operation.hash, call.operation⟩ := by
  rw [ChainRing.lookup_push] at hval
  split_ifs at hval with hkey hfull
  · exact ⟨call, hcall, hkey, (Option.some.inj hval).symm⟩
  · exact h.contents buffer hbuf key value (lookup_of_lookup_pop hval)
  · exact h.contents buffer hbuf key value hval

variable [DecidableEq TP]

/-- A call of `ingest_operation`. -/
def Intake.arrive (digest : Bytes → Hash) (checks : Bool) (intake : Intake V E L TP)
    (call : Call V E L TP) : Outcome IngestError (IngestResult V E) × Intake V E L TP :=
  let (result, store, ooo) := ingestOperation digest checks intake.store intake.ooo
    call.operation call.logId call.topic call.pruneFlag
  (result, ⟨store, ooo⟩)

def Intake.arriveAll (digest : Bytes → Hash) (checks : Bool) :
    Intake V E L TP → List (Call V E L TP) →
    List (Outcome IngestError (IngestResult V E)) × Intake V E L TP
  | intake, [] => ([], intake)
  | intake, call :: calls =>
    let (result, intake) := intake.arrive digest checks call
    let (results, intake) := intake.arriveAll digest checks calls
    (result :: results, intake)

def insertAll (checks : Bool) (logId : L) (topic : TP) (pruneFlag : Bool)
    (store : OperationStore V L TP) (operations : List (Operation V E)) :
    Outcome IngestError (OperationStore V L TP) :=
  operations.foldlM (fun store operation =>
    checkLogAndInsert checks store operation logId topic pruneFlag) store

theorem insertAll_singleton :
    insertAll checks logId topic pruneFlag store [operation] =
      checkLogAndInsert checks store operation logId topic pruneFlag := by
  unfold insertAll
  rw [foldlM_cons]
  cases checkLogAndInsert checks store operation logId topic pruneFlag <;> rfl

theorem ingestOoo_inOrder {buffer : OooBuffer V E L} :
    ingestOoo checks store logId topic pruneFlag (.inOrder operation, buffer) =
      transact store (some buffer) .inserted
        (insertAll checks logId topic pruneFlag store [operation]) := by
  rw [insertAll_singleton]
  rfl

theorem mem_rows_of_checkLogAndInsert
    (h : checkLogAndInsert checks store operation logId topic pruneFlag = .ok store')
    (hrow : row ∈ store'.operations.rows) :
    row ∈ store.operations.rows ∨ row = rowOf logId operation := by
  obtain ⟨⟨⟩, -, h⟩ := Outcome.bind_eq_ok.mp h
  cases Outcome.ok.inj h
  exact (Table.mem_rows_insertOrIgnore.mp hrow).imp_right And.left

theorem mem_rows_of_insertAll
    (h : insertAll checks logId topic pruneFlag store operations = .ok store')
    (hrow : row ∈ store'.operations.rows) :
    row ∈ store.operations.rows ∨ ∃ operation ∈ operations, row = rowOf logId operation := by
  unfold insertAll at h
  induction operations generalizing store with
  | nil =>
    cases h
    exact Or.inl hrow
  | cons operation operations ih =>
    obtain ⟨next, hnext, h⟩ := Outcome.bind_eq_ok.mp h
    rcases ih h with hold | ⟨other, hoth, heq⟩
    · rcases mem_rows_of_checkLogAndInsert hnext hold with hold | heq
      · exact Or.inl hold
      · exact Or.inr ⟨operation, mem_cons_self, heq⟩
    · exact Or.inr ⟨other, mem_cons_of_mem _ hoth, heq⟩

theorem Intake.From.transact (h : Intake.From calls ⟨store, ooo⟩) {result : IngestResult V E}
    (harr : ∀ operation ∈ operations,
      ∃ call ∈ calls, call.operation = operation ∧ call.logId = logId) :
    Intake.From calls
      ⟨(Ingest.transact store ooo result
          (insertAll checks logId topic pruneFlag store operations)).2.1,
        (Ingest.transact store ooo result
          (insertAll checks logId topic pruneFlag store operations)).2.2⟩ where
  rows row hrow := by
    rcases rows_transact hrow with hold | ⟨store', hstore, hnew⟩
    · exact h.rows row hold
    rcases mem_rows_of_insertAll hstore hnew with hold | ⟨operation, hop, rfl⟩
    · exact h.rows row hold
    · obtain ⟨call, hcall, rfl, rfl⟩ := harr operation hop
      exact ⟨call, hcall, rfl⟩
  contents buffer hbuf := by
    rw [ooo_transact] at hbuf
    exact h.contents buffer hbuf

theorem Intake.From.arrive (h : intake.From calls) (digest : Bytes → Hash) (checks : Bool)
    (call : Call V E L TP) :
    (intake.arrive digest checks call).2.From (calls ++ [call]) := by
  obtain ⟨store, ooo⟩ := intake
  have hkeep := h.mono (subset_append_left calls [call])
  have hcall : call ∈ calls ++ [call] := mem_append_right _ (mem_singleton.mpr rfl)
  have hsingle : ∀ operation ∈ [call.operation],
      ∃ call' ∈ calls ++ [call], call'.operation = operation ∧ call'.logId = call.logId := by
    intro operation hop
    exact ⟨call, hcall, (mem_singleton.mp hop).symm, rfl⟩
  cases hout : ingestOperation digest checks store ooo call.operation call.logId call.topic
    call.pruneFlag with
  | mk result state =>
  have harrive : (Intake.arrive digest checks ⟨store, ooo⟩ call).2 =
      ⟨(result, state).2.1, (result, state).2.2⟩ := by
    rw [Intake.arrive, hout]
  rw [harrive]
  unfold ingestOperation at hout
  split at hout
  · cases hout
    exact hkeep
  split at hout
  · cases hout
    exact hkeep
  · cases hout
    exact hkeep
  split at hout
  · cases hout
    exact hkeep
  cases ooo with
  | none =>
    rw [← insertAll_singleton] at hout
    rw [← congrArg Prod.snd hout]
    exact hkeep.transact hsingle
  | some buffer =>
    dsimp only at hout
    cases hproc : OooBuffer.process buffer call.operation ((store.getLatestEntry
      call.operation.header.verifyingKey call.logId).map AnyOperation.header) call.logId
        call.pruneFlag with
    | mk answer buffer' =>
    rw [hproc] at hout
    rw [← congrArg Prod.snd hout]
    rcases OooBuffer.process_cases hproc with
      ⟨hans, rfl⟩ | ⟨expected, values, hpops, rfl, -⟩
    · cases hans with
      | inOrder =>
        rw [ingestOoo_inOrder]
        exact hkeep.transact hsingle
      | outdated => exact hkeep
    · have hpop : Intake.From (calls ++ [call]) ⟨store, some buffer'⟩ := by
        refine ⟨hkeep.rows, ?_⟩
        rintro _ ⟨⟩ key value hval
        exact hkeep.push rfl hcall (hpops.contents_of_left hval)
      unfold OooBuffer.popped
      split
      · exact hpop
      · refine hpop.transact ?_
        intro operation hop
        obtain ⟨value, hval, rfl⟩ := mem_map.mp hop
        obtain ⟨backlink, hwt⟩ := hpops.contents_of_mem hval
        obtain ⟨call', hcall', hkey, rfl⟩ := hkeep.push rfl hcall hwt
        exact ⟨call', hcall', rfl, (congrArg ChainRingKey.logId hkey).symm⟩

theorem Intake.From.arriveAll {calls later : List (Call V E L TP)} (h : intake.From calls)
    (digest : Bytes → Hash) (checks : Bool) :
    (intake.arriveAll digest checks later).2.From (calls ++ later) := by
  induction later generalizing calls intake with
  | nil =>
    rw [append_nil]
    exact h
  | cons call later ih =>
    rw [append_cons]
    exact ih (h.arrive digest checks call)

end P2Panda.Stream.Ingest
