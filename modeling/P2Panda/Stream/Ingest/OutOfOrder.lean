import P2Panda.Stream.Ingest.LogIntegrity

/-!
# Operations that arrive out of order

Until the first operation of a log arrives, all others wait, and it takes along those that follow
without a gap. After that the buffer is only looked up for the latest operation itself, so nothing
leaves it, and the rest has to arrive in order.
-/

namespace P2Panda.Stream.Ingest

open P2Panda.Library P2Panda.Core P2Panda.Store List OperationStore IndexMap ChainRing OooBuffer

variable {V E L TP : Type}

structure IsLog (digest : Bytes → Hash) (n : Nat) (ops : Nat → Operation V E) : Prop where
  hash : ∀ i ≤ n, (ops i).hash = (ops i).header.digest
  valid : ∀ i ≤ n, validateOperation digest (ops i) = .ok ()
  author : ∀ i ≤ n, (ops i).header.verifyingKey = (ops 0).header.verifyingKey
  seqNum : ∀ i ≤ n, (ops i).header.seqNum.toNat = i
  backlink : ∀ i < n, (ops (i + 1)).header.backlink = some (ops i).hash
  distinct : ∀ i ≤ n, ∀ j ≤ n, (ops i).hash = (ops j).hash → i = j

def rowOf (logId : L) (operation : Operation V E) : OperationRow V L :=
  ⟨operation.hash, logId, operation.header.toAnyHeader, operation.body⟩

def entryOf (logId : L) (operation : Operation V E) :
    ChainRingKey Hash L × ChainRingValue Hash (Operation V E) :=
  (⟨operation.header.backlink, logId⟩, ⟨operation.hash, operation⟩)

/-- The backlink with which the operation `i` is found. -/
def link (ops : Nat → Operation V E) : Nat → Option Hash
  | 0 => none
  | i + 1 => some (ops i).hash

def Stored (ops : Nat → Operation V E) (logId : L) (m : Nat) (store : OperationStore V L TP) :
    Prop :=
  store.operations.rows = (List.range m).map fun i => rowOf logId (ops i)

def Waiting (ops : Nat → Operation V E) (logId : L) (waiting : List Nat)
    (buffer : IndexMap (ChainRingKey Hash L) (ChainRingValue Hash (Operation V E))) : Prop :=
  buffer.entries = waiting.map fun i => entryOf logId (ops i)

namespace IsLog

variable {digest : Bytes → Hash} {n : Nat} {ops : Nat → Operation V E} {logId : L} {m i : Nat}

variable (h : IsLog digest n ops)
include h

theorem backlink_eq_link (hi : i ≤ n) : (ops i).header.backlink = link ops i := by
  cases i with
  | zero =>
    have hfst := backlink_isSome_iff (validateHeader_of_validateOperation (h.valid 0 hi))
    have hzero : (ops 0).header.seqNum = 0 := UInt32.toNat_inj.mp (h.seqNum 0 hi)
    have hnone : ¬(Chain.backlink (ops 0)).isSome = true := by
      rw [hfst]
      show ¬0 < (ops 0).header.seqNum
      rw [hzero]
      exact UInt32.lt_irrefl _
    rwa [Bool.not_eq_true, Option.isSome_eq_false_iff, Option.isNone_iff_eq_none] at hnone
  | succ i => exact h.backlink i hi

theorem link_inj {j : Nat} (hi : i ≤ n + 1) (hj : j ≤ n + 1) (heq : link ops i = link ops j) :
    i = j := by
  cases i with
  | zero =>
    cases j with
    | zero => rfl
    | succ j => cases heq
  | succ i =>
    cases j with
    | zero => cases heq
    | succ j =>
      rw [link, link, Option.some.injEq] at heq
      rw [h.distinct i (by omega) j (by omega) heq]

section Store

variable {store : OperationStore V L TP}

theorem hasOperation_iff (hs : Stored ops logId m store) (hm : m ≤ n + 1) (hi : i ≤ n) :
    store.hasOperation (ops i).hash = true ↔ i < m := by
  rw [OperationStore.hasOperation_iff, hs, map_map, mem_map]
  constructor
  · rintro ⟨j, hj, heq⟩
    rw [mem_range] at hj
    rwa [h.distinct i hi j (by omega) heq.symm]
  · intro hlt
    exact ⟨i, mem_range.mpr hlt, rfl⟩

variable [DecidableEq L]

theorem getLatestEntry_eq (hs : Stored ops logId (m + 1) store) (hm : m ≤ n) (hi : i ≤ n) :
    store.getLatestEntry (ops i).header.verifyingKey logId = some (ops m).toAnyOperation := by
  have hmem : ∀ {row}, row ∈ store.logRows (ops i).header.verifyingKey logId ↔
      ∃ j ≤ m, rowOf logId (ops j) = row := by
    intro row
    rw [mem_logRows, hs, mem_map]
    constructor
    · rintro ⟨⟨j, hj, heq⟩, -⟩
      exact ⟨j, Nat.le_of_lt_succ (mem_range.mp hj), heq⟩
    · rintro ⟨j, hj, rfl⟩
      refine ⟨⟨j, mem_range.mpr (Nat.lt_succ_of_le hj), rfl⟩, ?_, rfl⟩
      exact (h.author j (hj.trans hm)).trans (h.author i hi).symm
  cases hlat : store.getLatestEntry (ops i).header.verifyingKey logId with
  | none =>
    have hnil := getLatestEntry_eq_none hlat
    have hlast := hmem.mpr ⟨m, le_refl m, rfl⟩
    rw [hnil] at hlast
    cases hlast
  | some latest =>
    obtain ⟨row, hrow, rfl, hmax⟩ := getLatestEntry_eq_some hlat
    obtain ⟨j, hj, rfl⟩ := hmem.mp hrow
    have hle := hmax _ (hmem.mpr ⟨m, le_refl m, rfl⟩)
    change (ops m).header.seqNum.toNat ≤ (ops j).header.seqNum.toNat at hle
    rw [h.seqNum m hm, h.seqNum j (hj.trans hm)] at hle
    have hjm : j = m := by omega
    subst hjm
    rfl

omit h in
theorem getLatestEntry_zero (hs : Stored ops logId 0 store) (author : VerifyingKey) :
    store.getLatestEntry author logId = none := by
  rw [getLatestEntry, logRows, hs]
  rfl

variable [DecidableEq TP]

theorem checkLogAndInsert_next (hs : Stored ops logId m store) (hm : m ≤ n) (checks : Bool)
    (topic : TP) :
    ∃ store', checkLogAndInsert checks store (ops m) logId topic false = .ok store' ∧
      Stored ops logId (m + 1) store' := by
  have hvld : validatePrunableBacklink checks
      ((store.getLatestEntry (ops m).header.verifyingKey logId).map AnyOperation.header)
      (ops m).header.toAnyHeader false = .ok () := by
    have hseq := h.seqNum m hm
    cases m with
    | zero =>
      have hzero : (ops 0).header.seqNum = 0 := UInt32.toNat_inj.mp hseq
      rw [getLatestEntry_zero hs, validatePrunableBacklink.eq_def, if_neg]
      · rfl
      · show ¬(ops 0).header.seqNum > 0
        rw [hzero]
        exact UInt32.lt_irrefl _
    | succ m =>
      have hpos : Chain.seqNum (ops (m + 1)).header.toAnyHeader > 0 := by
        show 0 < (ops (m + 1)).header.seqNum
        rw [UInt32.lt_iff_toNat_lt, hseq]
        exact Nat.succ_pos m
      rw [h.getLatestEntry_eq hs (by omega) hm, validatePrunableBacklink.eq_def, if_pos hpos]
      apply validateBacklink_of_next
      · exact (h.author m (by omega)).trans (h.author (m + 1) hm).symm
      · show (ops m).header.seqNum.toNat + 1 = (ops (m + 1)).header.seqNum.toNat
        rw [h.seqNum m (by omega), hseq]
      · show (ops (m + 1)).header.backlink = some (ops m).header.digest
        rw [h.backlink m hm, h.hash m (by omega)]
  have hrun : ∃ store', checkLogAndInsert checks store (ops m) logId topic false = .ok store' := by
    rw [checkLogAndInsert, hvld]
    exact ⟨_, rfl⟩
  obtain ⟨store', hrun⟩ := hrun
  have hnew : store.hasOperation (ops m).hash = false := by
    rw [← Bool.not_eq_true, h.hasOperation_iff hs (by omega) hm]
    exact lt_irrefl m
  have hrows := (rows_of_checkLogAndInsert hrun hnew).2
  refine ⟨store', hrun, ?_⟩
  rw [Stored, hrows, hs, range_succ, map_append]
  rfl

theorem checkLogAndInsert_range (hs : Stored ops logId m store) (checks : Bool) (topic : TP)
    {count : Nat} (hcnt : m + count ≤ n + 1) :
    ∃ store', ((List.range' m count).map ops).foldlM
        (fun store operation => checkLogAndInsert checks store operation logId topic false) store =
        .ok store' ∧ Stored ops logId (m + count) store' := by
  induction count generalizing m store with
  | zero => exact ⟨store, rfl, hs⟩
  | succ count ih =>
    obtain ⟨store1, hfst, hs1⟩ := h.checkLogAndInsert_next hs (by omega) checks topic
    obtain ⟨store2, hrest, hs2⟩ := ih hs1 (by omega)
    refine ⟨store2, ?_, by rwa [Nat.add_right_comm] at hs2⟩
    rw [range'_succ, map_cons, foldlM_cons, hfst]
    exact hrest

end Store

section Buffer

variable {waiting : List Nat}
variable {buffer : IndexMap (ChainRingKey Hash L) (ChainRingValue Hash (Operation V E))}
variable (hwaiting : ∀ i ∈ waiting, i ≤ n)
include hwaiting

theorem mem_keys_iff (hw : Waiting ops logId waiting buffer) (hi : i ≤ n + 1) :
    (⟨link ops i, logId⟩ : ChainRingKey Hash L) ∈ buffer.entries.map Prod.fst ↔ i ∈ waiting := by
  rw [hw, map_map, mem_map]
  constructor
  · rintro ⟨j, hj, heq⟩
    have hj' := hwaiting j hj
    have hlink : link ops j = link ops i := by
      rw [← h.backlink_eq_link hj']
      exact congrArg ChainRingKey.backlink heq
    rwa [← h.link_inj (by omega) hi hlink]
  · intro hmem
    refine ⟨i, hmem, ?_⟩
    rw [← h.backlink_eq_link (hwaiting i hmem)]
    rfl

variable [DecidableEq L]

theorem shiftRemove_spec (hw : Waiting ops logId waiting buffer) (hm : m ≤ n + 1)
    {value : ChainRingValue Hash (Operation V E)}
    {rest : IndexMap (ChainRingKey Hash L) (ChainRingValue Hash (Operation V E))}
    (hrm : buffer.shiftRemove ⟨link ops m, logId⟩ = some (value, rest)) :
    m ∈ waiting ∧ value = ⟨(ops m).hash, ops m⟩ ∧
      Waiting ops logId (waiting.filter fun i => i ≠ m) rest := by
  obtain ⟨hmem, hents⟩ := shiftRemove_eq_some hrm
  have hm' : m ∈ waiting := (h.mem_keys_iff hwaiting hw hm).mp (mem_map_of_mem hmem)
  have hkey : ∀ i ∈ waiting, (entryOf logId (ops i)).1 = ⟨link ops m, logId⟩ → i = m := by
    intro i hi heq
    have hi' := hwaiting i hi
    apply h.link_inj (by omega) hm
    rw [← h.backlink_eq_link hi']
    exact congrArg ChainRingKey.backlink heq
  refine ⟨hm', ?_, ?_⟩
  · rw [hw, mem_map] at hmem
    obtain ⟨i, hi, heq⟩ := hmem
    have him := hkey i hi (congrArg Prod.fst heq)
    subst him
    exact (congrArg Prod.snd heq).symm
  · rw [Waiting, hents, hw, filter_map]
    congr 1
    apply filter_congr
    intro i hi
    rw [Function.comp_apply, decide_eq_decide, not_iff_not]
    constructor
    · exact hkey i hi
    · rintro rfl
      rw [← h.backlink_eq_link (hwaiting i hi)]
      rfl

/-- From a position on, the operations up to the first gap are popped. -/
theorem popChain_spec (hw : Waiting ops logId waiting buffer) (hm : m ≤ n + 1)
    (result : List (Operation V E)) :
    ∃ count, (∀ i, m ≤ i → i < m + count → i ∈ waiting) ∧ m + count ∉ waiting ∧
      (ChainRing.popChain logId buffer (link ops m) result).1 =
        result ++ (List.range' m count).map ops ∧
      Waiting ops logId (waiting.filter fun i => i < m ∨ m + count ≤ i)
        (ChainRing.popChain logId buffer (link ops m) result).2 := by
  -- By induction on the number of items that are left in the buffer.
  induction hlen : buffer.len using Nat.strong_induction_on generalizing
    buffer waiting m result with
  | _ len ih =>
    subst hlen
    rw [popChain]
    split
    · rename_i hnone
      rw [shiftRemove_eq_none, h.mem_keys_iff hwaiting hw hm] at hnone
      refine ⟨0, fun i hle hlt => by omega, hnone, by simp, ?_⟩
      rw [filter_eq_self.mpr fun i _ => by simp; omega]
      exact hw
    · rename_i rest hrm
      obtain ⟨hmem, rfl, hrest⟩ := h.shiftRemove_spec hwaiting hw hm hrm
      have hm' := hwaiting m hmem
      obtain ⟨count, hall, hgap, hpop, hleft⟩ := ih rest.len
        (len_shiftRemove_lt hrm) (fun i hi => hwaiting i (mem_of_mem_filter hi))
        hrest (show m + 1 ≤ n + 1 by omega) (result ++ [ops m]) rfl
      refine ⟨count + 1, fun i hle hlt => ?_, fun hmem' => hgap ?_, ?_, ?_⟩
      · by_cases heq : i = m
        · rwa [heq]
        · exact mem_of_mem_filter (hall i (by omega) (by omega))
      · rw [mem_filter, Nat.add_right_comm]
        exact ⟨hmem', decide_eq_true (by omega)⟩
      · rw [append_assoc] at hpop
        exact hpop
      · rw [filter_filter] at hleft
        have hflt : (waiting.filter fun i => i < m ∨ m + (count + 1) ≤ i) =
            waiting.filter fun i => decide (i < m + 1 ∨ m + 1 + count ≤ i) && decide (i ≠ m) := by
          apply filter_congr
          intro i _
          rw [← Bool.decide_and, decide_eq_decide]
          omega
        rw [hflt]
        exact hleft

variable {ring : OooBuffer V E L} (hw : Waiting ops logId waiting ring.buffer)
  (hcapacity : waiting.length < ring.capacity)
include hw hcapacity

theorem waiting_push (hi : i ≤ n) (hnew : i ∉ waiting) :
    Waiting ops logId (waiting ++ [i])
      (ring.push (ops i).hash (ops i).header.backlink logId (ops i)).buffer := by
  have hlen : ring.buffer.len = waiting.length := by
    rw [len, hw, length_map]
  have hkey := (h.mem_keys_iff hwaiting hw (show i ≤ n + 1 by omega)).not.mpr hnew
  rw [← h.backlink_eq_link hi] at hkey
  unfold push
  rw [if_neg (by omega)]
  rw [Waiting, entries_insert_of_notMem hkey, hw, map_append]
  rfl

theorem pushAndPopFrom_of_notMem (hi : i ≤ n) (hnew : i ∉ waiting) (hm : m ≤ n)
    (hgap : m ∉ waiting ++ [i]) :
    ∃ ring', OooBuffer.pushAndPopFrom ring (ops i) (link ops m) logId = (.outOfOrder, ring') ∧
      ring'.capacity = ring.capacity ∧ Waiting ops logId (waiting ++ [i]) ring'.buffer := by
  have hpush := h.waiting_push hwaiting hw hcapacity hi hnew
  have hwaiting' := forall_mem_append.mpr ⟨hwaiting, forall_mem_singleton.mpr hi⟩
  obtain ⟨count, hall, -, hpop, hleft⟩ := h.popChain_spec hwaiting' hpush
    (show m ≤ n + 1 by omega) []
  have hcnt : count = 0 := by
    by_contra hne
    exact hgap (hall m (le_refl m) (by omega))
  subst hcnt
  rw [filter_eq_self.mpr fun j _ => by simp; omega] at hleft
  unfold pushAndPopFrom popFrom
  dsimp only
  rw [hpop]
  exact ⟨_, rfl, rfl, hleft⟩

theorem pushAndPopFrom_zero (hnew : 0 ∉ waiting) :
    ∃ count ring', OooBuffer.pushAndPopFrom ring (ops 0) none logId =
        (.ordered ((List.range' 0 (count + 1)).map ops), ring') ∧
      ring'.capacity = ring.capacity ∧
      (∀ i, 0 < i → i < count + 1 → i ∈ waiting) ∧ count + 1 ∉ waiting ∧
      Waiting ops logId (waiting.filter fun i => count + 1 ≤ i) ring'.buffer := by
  have hpush := h.waiting_push hwaiting hw hcapacity (Nat.zero_le n) hnew
  have hwaiting' := forall_mem_append.mpr ⟨hwaiting, forall_mem_singleton.mpr (Nat.zero_le n)⟩
  obtain ⟨count, hall, hgap, hpop, hleft⟩ := h.popChain_spec hwaiting' hpush
    (Nat.zero_le (n + 1)) []
  rw [Nat.zero_add] at hgap
  cases count with
  | zero => exact absurd (mem_append_right _ (mem_singleton.mpr rfl)) hgap
  | succ count =>
    refine ⟨count, ?_⟩
    unfold pushAndPopFrom popFrom
    dsimp only
    change (popChain logId _ none []).1 = _ at hpop
    rw [hpop, range'_succ]
    refine ⟨_, rfl, rfl, fun i hpos hlt => ?_, fun hmem => ?_, ?_⟩
    · have hmem := hall i (Nat.zero_le i) (by omega)
      rw [mem_append, mem_singleton] at hmem
      exact hmem.resolve_right (by omega)
    · exact hgap (mem_append_left _ hmem)
    · have hflt : ((waiting ++ [0]).filter fun i => i < 0 ∨ 0 + (count + 1) ≤ i) =
          waiting.filter fun i => count + 1 ≤ i := by
        rw [filter_append, filter_cons_of_neg (by simp), filter_nil, append_nil]
        apply filter_congr
        intro i _
        rw [decide_eq_decide]
        omega
      rw [hflt] at hleft
      exact hleft

end Buffer

end IsLog

section Arrivals

variable [DecidableEq L] [DecidableEq TP]

/-- The store, the buffer, and what has been returned so far. -/
structure Delivery (V E L TP : Type) where
  store : OperationStore V L TP
  ooo : Option (OooBuffer V E L)
  returned : List (Operation V E)

def returnedBy (operation : Operation V E) : Outcome IngestError (IngestResult V E) →
    List (Operation V E)
  | .ok .inserted => [operation]
  | .ok (.ordered operations) => operations
  | _ => []

def Delivery.arrive (digest : Bytes → Hash) (checks : Bool) (logId : L) (topic : TP)
    (state : Delivery V E L TP) (operation : Operation V E) : Delivery V E L TP :=
  let result := ingestOperation digest checks state.store state.ooo operation logId topic false
  ⟨result.2.1, result.2.2, state.returned ++ returnedBy operation result.1⟩

def deliver (digest : Bytes → Hash) (checks : Bool) (logId : L) (topic : TP) (capacity : Nat)
    (ops : Nat → Operation V E) (arrivals : List Nat) : Delivery V E L TP :=
  arrivals.foldl (fun state i => state.arrive digest checks logId topic (ops i))
    ⟨OperationStore.empty, some (ChainRing.withCapacity capacity), []⟩

/-- Of the operations that have arrived at their `time`, the first `m` are through and the others
wait. Those through came with the first one or after their predecessor; one that waits without a gap
in front came too early. -/
structure Arrived (time : Nat → Nat) (arrived : List Nat) (m : Nat) (waiting : List Nat) :
    Prop where
  mem_iff : ∀ i, i ∈ arrived ↔ i < m ∨ i ∈ waiting
  beyond : ∀ i ∈ waiting, m ≤ i
  start : m = 0 → 0 ∉ waiting
  inTime : ∀ i, i + 1 < m → time i < time (i + 1) ∨ time i ≤ time 0
  early : ∀ i, m = i + 1 → i + 1 ∈ waiting → time (i + 1) < time i ∧ time 0 < time i

structure Reached (ops : Nat → Operation V E) (logId : L) (capacity : Nat) (m : Nat)
    (waiting : List Nat) (state : Delivery V E L TP) : Prop where
  stored : Stored ops logId m state.store
  returned : state.returned = (List.range m).map ops
  buffer : ∃ ring, state.ooo = some ring ∧ ring.capacity = capacity ∧
    Waiting ops logId waiting ring.buffer

variable {digest : Bytes → Hash} {checks : Bool} {n : Nat} {ops : Nat → Operation V E}
variable {logId : L} {topic : TP} {capacity m j : Nat} {waiting : List Nat}
  {store : OperationStore V L TP}

omit [DecidableEq L] [DecidableEq TP] in
theorem IsLog.predecessor_eq_iff (h : IsLog digest n ops) {k : Nat} (hk : k ≤ n) (hj : j ≤ n)
    (hpos : 0 < j) :
    (ops k).header.seqNum = OooBuffer.predecessor (ops j).header.seqNum ↔ j = k + 1 := by
  have hseq := h.seqNum j hj
  have hne : (ops j).header.seqNum ≠ 0 := by
    intro hzero
    rw [hzero, UInt32.toNat_zero] at hseq
    omega
  have hle : 1 ≤ (ops j).header.seqNum := by
    rw [UInt32.le_iff_toNat_le, hseq]
    exact hpos
  rw [predecessor, if_neg hne, ← UInt32.toNat_inj, h.seqNum k hk,
    UInt32.toNat_sub_of_le _ _ hle, UInt32.toNat_one]
  omega

omit [DecidableEq TP] in
theorem IsLog.process_eq (h : IsLog digest n ops) (hs : Stored ops logId m store) (hm : m ≤ j)
    (hj : j ≤ n) (ring : OooBuffer V E L) :
    OooBuffer.process ring (ops j)
        ((store.getLatestEntry (ops j).header.verifyingKey logId).map AnyOperation.header) logId
        false =
      if 0 < m ∧ j = m then (.inOrder (ops j), ring)
      else OooBuffer.pushAndPopFrom ring (ops j) (link ops (m - 1)) logId := by
  unfold process
  rw [if_neg Bool.false_ne_true]
  cases m with
  | zero =>
    rw [IsLog.getLatestEntry_zero hs]
    rfl
  | succ k =>
    have hlt : ¬(ops j).header.seqNum < (ops k).header.seqNum := by
      rw [UInt32.lt_iff_toNat_lt, h.seqNum j hj, h.seqNum k (by omega)]
      omega
    rw [h.getLatestEntry_eq hs (by omega) hj, Option.map_some]
    dsimp only [Operation.toAnyOperation, Header.toAnyHeader]
    rw [if_neg hlt, h.backlink_eq_link (by omega)]
    by_cases heq : j = k + 1
    · rw [if_pos ((h.predecessor_eq_iff (by omega) hj (by omega)).mpr heq), if_pos ⟨by omega, heq⟩]
    · rw [if_neg ((h.predecessor_eq_iff (by omega) hj (by omega)).not.mpr heq), if_neg (by omega)]
      rfl

theorem IsLog.ingestOperation_eq (h : IsLog digest n ops) (hs : Stored ops logId m store)
    (hm : m ≤ j) (hj : j ≤ n) (ring : OooBuffer V E L) :
    ingestOperation digest checks store (some ring) (ops j) logId topic false =
      ingestOoo checks store logId topic false
        (if 0 < m ∧ j = m then (.inOrder (ops j), ring)
        else OooBuffer.pushAndPopFrom ring (ops j) (link ops (m - 1)) logId) := by
  have hnew : ¬store.hasOperation (ops j).hash = true := by
    rw [h.hasOperation_iff hs (by omega) hj]
    omega
  unfold ingestOperation
  rw [if_neg (not_not.mpr (h.hash j hj)), h.valid j hj]
  dsimp only
  rw [if_neg hnew, h.process_eq hs hm hj]

section Step

variable {state : Delivery V E L TP} (h : IsLog digest n ops)
variable (hstate : Reached ops logId capacity m waiting state)
include h hstate

theorem Reached.buffered (hm : m < j) (hj : j ≤ n) (hwaiting : ∀ i ∈ waiting, i ≤ n)
    (hnew : j ∉ waiting) (hcapacity : waiting.length < capacity) (hgap : m - 1 ∉ waiting) :
    Reached ops logId capacity m (waiting ++ [j])
      (state.arrive digest checks logId topic (ops j)) := by
  obtain ⟨ring, hooo, rfl, hw⟩ := hstate.buffer
  have hgap' : m - 1 ∉ waiting ++ [j] := by
    rw [mem_append, mem_singleton, not_or]
    exact ⟨hgap, by omega⟩
  obtain ⟨ring', hpush, hcap, hw'⟩ :=
    h.pushAndPopFrom_of_notMem hwaiting hw hcapacity hj hnew (by omega) hgap'
  unfold Delivery.arrive
  rw [hooo, h.ingestOperation_eq hstate.stored (by omega) hj, if_neg (by omega), hpush]
  refine ⟨hstate.stored, ?_, ring', rfl, hcap, hw'⟩
  dsimp only [ingestOoo, returnedBy]
  rw [append_nil]
  exact hstate.returned

theorem Reached.appended (hpos : 0 < m) (hm : m ≤ n) :
    Reached ops logId capacity (m + 1) waiting
      (state.arrive digest checks logId topic (ops m)) := by
  obtain ⟨ring, hooo, hcap, hw⟩ := hstate.buffer
  obtain ⟨store', hrun, hs'⟩ := h.checkLogAndInsert_next hstate.stored hm checks topic
  unfold Delivery.arrive
  rw [hooo, h.ingestOperation_eq hstate.stored (le_refl m) hm, if_pos ⟨hpos, rfl⟩, ingestOoo, hrun]
  refine ⟨hs', ?_, ring, rfl, hcap, hw⟩
  rw [hstate.returned, range_succ, map_append]
  rfl

theorem Reached.first (hm : m = 0) (hwaiting : ∀ i ∈ waiting, i ≤ n) (hnew : 0 ∉ waiting)
    (hcapacity : waiting.length < capacity) :
    ∃ count, (∀ i, 0 < i → i < count + 1 → i ∈ waiting) ∧ count + 1 ∉ waiting ∧
      Reached ops logId capacity (count + 1) (waiting.filter fun i => count + 1 ≤ i)
        (state.arrive digest checks logId topic (ops 0)) := by
  subst hm
  obtain ⟨ring, hooo, rfl, hw⟩ := hstate.buffer
  obtain ⟨count, ring', hpush, hcap, hall, hgap, hw'⟩ :=
    h.pushAndPopFrom_zero hwaiting hw hcapacity hnew
  have hcnt : 0 + (count + 1) ≤ n + 1 := by
    cases count with
    | zero => omega
    | succ count =>
      have := hwaiting (count + 1) (hall (count + 1) (by omega) (by omega))
      omega
  obtain ⟨store', hrun, hs'⟩ := h.checkLogAndInsert_range hstate.stored checks topic hcnt
  refine ⟨count, hall, hgap, ?_⟩
  unfold Delivery.arrive
  rw [hooo, h.ingestOperation_eq hstate.stored (le_refl 0) (Nat.zero_le n), if_neg (by omega)]
  have hlink : link ops (0 - 1) = none := rfl
  rw [hlink, hpush]
  dsimp only [ingestOoo]
  rw [hrun]
  rw [Nat.zero_add] at hs'
  refine ⟨hs', ?_, ring', rfl, hcap, hw'⟩
  dsimp only [transact, returnedBy]
  rw [hstate.returned, range_zero, map_nil, nil_append, range_eq_range']

end Step

end Arrivals

section Order

variable {time : Nat → Nat} {arrived waiting : List Nat} {m j : Nat}

theorem Arrived.nil : Arrived time [] 0 [] := by
  constructor <;> simp

theorem Arrived.buffered (h : Arrived time arrived m waiting) (hm : m < j) :
    Arrived time (arrived ++ [j]) m (waiting ++ [j]) where
  mem_iff i := by
    rw [mem_append, mem_append, h.mem_iff, or_assoc]
  beyond := forall_mem_append.mpr ⟨h.beyond, forall_mem_singleton.mpr hm.le⟩
  start hzero hmem := by
    rcases mem_append.mp hmem with hmem | hmem
    · exact h.start hzero hmem
    · rw [← mem_singleton.mp hmem] at hm
      exact Nat.not_lt_zero m hm
  inTime := h.inTime
  early i heq hmem := by
    rcases mem_append.mp hmem with hmem | hmem
    · exact h.early i heq hmem
    · rw [← mem_singleton.mp hmem] at hm
      omega

theorem Arrived.appended (h : Arrived time arrived m waiting) (hpos : 0 < m) (hnew : m ∉ arrived)
    (hlast : ∀ i ∈ arrived, time i < time m) : Arrived time (arrived ++ [m]) (m + 1) waiting where
  mem_iff i := by
    rw [mem_append, mem_singleton, h.mem_iff, Nat.lt_succ_iff_lt_or_eq]
    tauto
  beyond i hi := by
    have hne : i ≠ m := by
      rintro rfl
      exact hnew ((h.mem_iff i).mpr (Or.inr hi))
    have := h.beyond i hi
    omega
  start hzero := by omega
  inTime i hi := by
    by_cases hlt : i + 1 < m
    · exact h.inTime i hlt
    · have heq : i + 1 = m := by omega
      rw [heq]
      exact Or.inl (hlast i ((h.mem_iff i).mpr (Or.inl (by omega))))
  early i heq hmem := by
    have him : m = i := by omega
    subst him
    exact ⟨hlast (m + 1) ((h.mem_iff _).mpr (Or.inr hmem)),
      hlast 0 ((h.mem_iff 0).mpr (Or.inl hpos))⟩

theorem Arrived.first (h : Arrived time arrived 0 waiting) (hlast : ∀ i ∈ arrived, time i < time 0)
    {count : Nat} (hall : ∀ i, 0 < i → i < count + 1 → i ∈ waiting) (hgap : count + 1 ∉ waiting) :
    Arrived time (arrived ++ [0]) (count + 1) (waiting.filter fun i => count + 1 ≤ i) where
  mem_iff i := by
    rw [mem_append, mem_singleton, h.mem_iff, mem_filter, decide_eq_true_eq]
    constructor
    · rintro ((hlt | hmem) | rfl)
      · omega
      · by_cases hi : i < count + 1
        · exact Or.inl hi
        · exact Or.inr ⟨hmem, by omega⟩
      · exact Or.inl (Nat.succ_pos count)
    · rintro (hi | ⟨hmem, -⟩)
      · by_cases hzero : i = 0
        · exact Or.inr hzero
        · exact Or.inl (Or.inr (hall i (by omega) hi))
      · exact Or.inl (Or.inr hmem)
  beyond i hi := by
    rw [mem_filter, decide_eq_true_eq] at hi
    exact hi.2
  start hzero := by omega
  inTime i hi := by
    right
    by_cases hzero : i = 0
    · rw [hzero]
    · exact (hlast i ((h.mem_iff i).mpr (Or.inr (hall i (by omega) (by omega))))).le
  early i heq hmem := by
    have hi : count = i := by omega
    subst hi
    exact absurd (mem_of_mem_filter hmem) hgap

/-- Each operation arrives after its predecessor, or its predecessor does not arrive after the first
one. -/
def InSequence (n : Nat) (arrivals : List Nat) : Prop :=
  ∀ i < n, arrivals.idxOf i < arrivals.idxOf (i + 1) ∨ arrivals.idxOf i ≤ arrivals.idxOf 0

theorem Arrived.eq_iff {arrivals : List Nat} {n : Nat}
    (h : Arrived arrivals.idxOf arrivals m waiting) (hmem : ∀ i, i ∈ arrivals ↔ i < n + 1) :
    m = n + 1 ↔ InSequence n arrivals := by
  have hle : m ≤ n + 1 := by
    by_contra hlt
    have := (hmem (n + 1)).mp ((h.mem_iff _).mpr (Or.inl (by omega)))
    omega
  constructor
  · rintro rfl i hi
    exact h.inTime i (by omega)
  · intro hsequence
    by_contra hne
    have hnext : m ∈ waiting := by
      have := (h.mem_iff m).mp ((hmem m).mpr (by omega))
      exact this.resolve_left (lt_irrefl m)
    cases m with
    | zero => exact h.start rfl hnext
    | succ k =>
      have hearly := h.early k rfl hnext
      rcases hsequence k (by omega) with hlt | hle
      · omega
      · omega

end Order

section Delivery

variable [DecidableEq L] [DecidableEq TP] {digest : Bytes → Hash} {checks : Bool} {n : Nat}
variable {ops : Nat → Operation V E} {logId : L} {topic : TP} {capacity : Nat}
variable {time : Nat → Nat}

theorem Reached.arrive (h : IsLog digest n ops) {state : Delivery V E L TP}
    {arrived waiting : List Nat} {m j : Nat} (hstate : Reached ops logId capacity m waiting state)
    (harr : Arrived time arrived m waiting) (hle : ∀ i ∈ arrived, i ≤ n) (hj : j ≤ n)
    (hnew : j ∉ arrived) (hlast : ∀ i ∈ arrived, time i < time j)
    (hcapacity : waiting.length < capacity) :
    ∃ m' waiting', Arrived time (arrived ++ [j]) m' waiting' ∧
      waiting'.length ≤ waiting.length + 1 ∧
      Reached ops logId capacity m' waiting'
        (state.arrive digest checks logId topic (ops j)) := by
  have hjw : j ∉ waiting := fun hmem => hnew ((harr.mem_iff j).mpr (Or.inr hmem))
  have hwaiting : ∀ i ∈ waiting, i ≤ n := fun i hi =>
    hle i ((harr.mem_iff i).mpr (Or.inr hi))
  have hmj : m ≤ j := by
    by_contra hlt
    exact hnew ((harr.mem_iff j).mpr (Or.inl (by omega)))
  by_cases heq : j = m
  · subst heq
    by_cases hzero : j = 0
    · subst hzero
      obtain ⟨count, hall, hgap, hrchd⟩ := hstate.first h rfl hwaiting hjw hcapacity
      refine ⟨_, _, harr.first hlast hall hgap, ?_, hrchd⟩
      exact (length_filter_le _ _).trans (Nat.le_succ _)
    · exact ⟨_, _, harr.appended (by omega) hnew hlast, Nat.le_succ _,
        hstate.appended h (by omega) hj⟩
  · have hgap : m - 1 ∉ waiting := by
      intro hmem
      have hbeyond := harr.beyond _ hmem
      have hzero : m = 0 := by omega
      subst hzero
      exact harr.start rfl hmem
    exact ⟨_, _, harr.buffered (by omega), (length_append).le,
      hstate.buffered h (by omega) hj hwaiting hjw hcapacity hgap⟩

theorem idxOf_lt_idxOf {before after : List Nat} {i j : Nat} (hi : i ∈ before)
    (hj : j ∉ before) : (before ++ j :: after).idxOf i < (before ++ j :: after).idxOf j := by
  have hlt : before.idxOf i < before.length := idxOf_lt_length_of_mem hi
  rw [idxOf_append_of_mem hi, idxOf_append_of_notMem hj]
  omega

variable (checks logId topic) in
theorem reached_deliver (h : IsLog digest n ops) (hcapacity : n + 1 ≤ capacity)
    {before after arrivals : List Nat} (heq : arrivals = before ++ after)
    (hnd : arrivals.Nodup) (hle : ∀ i ∈ arrivals, i ≤ n) :
    ∃ m waiting, Arrived arrivals.idxOf before m waiting ∧ waiting.length ≤ before.length ∧
      Reached ops logId capacity m waiting
        (deliver digest checks logId topic capacity ops before) := by
  have hlen : arrivals.length ≤ n + 1 := by
    have hsub : arrivals ⊆ List.range (n + 1) := fun i hi =>
      mem_range.mpr (Nat.lt_succ_of_le (hle i hi))
    simpa using (subperm_of_subset hnd hsub).length_le
  induction before using List.reverseRecOn generalizing after with
  | nil => exact ⟨0, [], .nil, le_refl _, rfl, rfl, _, rfl, rfl, rfl⟩
  | append_singleton before j ih =>
    rw [append_assoc] at heq
    obtain ⟨m, waiting, harr, hwaiting, hrchd⟩ := ih heq
    have hj : j ∉ before := by
      intro hmem
      rw [heq] at hnd
      exact (nodup_append.mp hnd).2.2 j hmem j mem_cons_self rfl
    have hlast : ∀ i ∈ before, arrivals.idxOf i < arrivals.idxOf j := by
      intro i hi
      rw [heq]
      exact idxOf_lt_idxOf hi hj
    have hroom : waiting.length < capacity := by
      rw [heq, length_append, length_append, length_singleton] at hlen
      omega
    obtain ⟨m', waiting', harrived', hwaiting', hreached'⟩ :=
      hrchd.arrive h harr (fun i hi => hle i (by simp [heq, hi])) (hle j (by simp [heq])) hj
        hlast hroom
    refine ⟨m', waiting', harrived', ?_, ?_⟩
    · rw [length_append, length_singleton]
      omega
    · unfold deliver
      rw [foldl_append]
      exact hreached'

/-- All operations of a log are in the store at the end if and only if they arrived in sequence;
they have then been stored and returned in order. -/
theorem all_stored_iff (h : IsLog digest n ops) (hcapacity : n + 1 ≤ capacity)
    {arrivals : List Nat} (harrivals : arrivals.Perm (List.range (n + 1))) :
    ((∀ i ≤ n, (deliver digest checks logId topic capacity ops arrivals).store.hasOperation
        (ops i).hash = true) ↔ InSequence n arrivals) ∧
      (InSequence n arrivals →
        (deliver digest checks logId topic capacity ops arrivals).store.operations.rows =
          (List.range (n + 1)).map (fun i => rowOf logId (ops i)) ∧
        (deliver digest checks logId topic capacity ops arrivals).returned =
          (List.range (n + 1)).map ops) := by
  have hmem : ∀ i, i ∈ arrivals ↔ i < n + 1 := by
    intro i
    rw [harrivals.mem_iff, mem_range]
  have hnd : arrivals.Nodup := harrivals.nodup_iff.mpr nodup_range
  obtain ⟨m, waiting, harr, -, hrchd⟩ :=
    reached_deliver checks logId topic h hcapacity (append_nil arrivals).symm hnd
      fun i hi => Nat.le_of_lt_succ ((hmem i).mp hi)
  have hiff := harr.eq_iff hmem
  have hm : m ≤ n + 1 := by
    by_contra hlt
    have := (hmem (n + 1)).mp ((harr.mem_iff _).mpr (Or.inl (by omega)))
    omega
  constructor
  · rw [← hiff]
    constructor
    · intro hall
      have := (h.hasOperation_iff hrchd.stored hm (le_refl n)).mp (hall n (le_refl n))
      omega
    · rintro rfl i hi
      exact (h.hasOperation_iff hrchd.stored hm hi).mpr (by omega)
  · intro hsequence
    have hall := hiff.mpr hsequence
    subst hall
    exact ⟨hrchd.stored, hrchd.returned⟩

end Delivery

def sampleLog (i : Nat) : Operation Unit Unit :=
  let header := sampleHeader (UInt8.ofNat (i + 1)) (UInt32.ofNat i)
    (if i = 0 then none else some (UInt8.ofNat i))
  ⟨header.digest, header, none⟩

theorem isLog_sampleLog : IsLog sampleDigest 2 sampleLog := by
  constructor <;> decide +kernel

/-- The second operation comes before the first one. -/
theorem all_stored_sampleLog :
    IsLog sampleDigest 2 sampleLog ∧ InSequence 2 [1, 0, 2] ∧
      (deliver sampleDigest true 0 0 3 sampleLog
        [1, 0, 2]).returned = (List.range 3).map sampleLog := by
  have hsequence : InSequence 2 [1, 0, 2] := by
    unfold InSequence
    decide
  exact ⟨isLog_sampleLog, hsequence,
    ((all_stored_iff isLog_sampleLog (le_refl 3) (by decide)).2 hsequence).2⟩

/-- The third operation comes before the second one, and is never stored. -/
theorem lost_sampleLog :
    IsLog sampleDigest 2 sampleLog ∧
      [0, 2, 1].Perm (List.range 3) ∧
      (deliver sampleDigest true 0 0 3 sampleLog
        [0, 2, 1]).store.hasOperation (sampleLog 2).hash = false := by
  refine ⟨isLog_sampleLog, by decide, ?_⟩
  decide +kernel

end P2Panda.Stream.Ingest
