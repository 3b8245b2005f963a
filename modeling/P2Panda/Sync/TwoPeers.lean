import P2Panda.Sync.Announcement
import P2Panda.Sync.Delivery
import P2Panda.Sync.Termination

/-!
# Two peers

Two sessions connected by an unbounded queue in either direction. What one has received is the
beginning of what the other has sent; when both have the "done" message, each has handed on what it
was missing, once.
-/

namespace P2Panda.Sync

open P2Panda.Library P2Panda.Core P2Panda.Store Function List OperationStore Peer OperationRow

variable {V E L TP ε : Type}

inductive Side where
  | a
  | b
  deriving DecidableEq

def Side.other : Side → Side
  | a => b
  | b => a

namespace Side

theorem other_other (x : Side) : x.other.other = x := by
  cases x with
  | a => rfl
  | b => rfl

theorem ne_other (x : Side) : x ≠ x.other := by
  cases x with
  | a => exact nofun
  | b => exact nofun

theorem eq_or_eq_other (x y : Side) : y = x ∨ y = x.other := by
  cases x with
  | a => cases y with
    | a => exact Or.inl rfl
    | b => exact Or.inr rfl
  | b => cases y with
    | a => exact Or.inr rfl
    | b => exact Or.inl rfl

end Side

structure Link (V E L ε : Type) where
  session : Side → Session V E L ε
  queue : Side → List (LogSyncMessage L)

def Link.init (peers : Side → Peer V E L TP ε) : Link V E L ε :=
  ⟨fun x => .new (peers x).bufferCapacity, fun _ => []⟩

variable [DecidableEq L] {s s' : Session V E L ε} {x : Side} {row : OperationRow V L}

/-- One of the sessions takes a step. The stream of a session may end at any time. -/
inductive Link.Step (peers : Side → Peer V E L TP ε) : Link V E L ε → Link V E L ε → Prop
  | quiet {link : Link V E L ε} (x : Side) {s : Session V E L ε}
      (step : Sync.Step (peers x) (link.session x) .quiet s) :
      Step peers link ⟨Function.update link.session x s, link.queue⟩
  | sends {link : Link V E L ε} (x : Side) {s : Session V E L ε} {message : LogSyncMessage L}
      (step : Sync.Step (peers x) (link.session x) (.sends message) s) :
      Step peers link ⟨Function.update link.session x s,
        Function.update link.queue x.other (link.queue x.other ++ [message])⟩
  | receives {link : Link V E L ε} (x : Side) {s : Session V E L ε} {message : LogSyncMessage L}
      {rest : List (LogSyncMessage L)} (queue : link.queue x = message :: rest)
      (step : Sync.Step (peers x) (link.session x) (.receives (.ok message)) s) :
      Step peers link ⟨Function.update link.session x s, Function.update link.queue x rest⟩
  | ends {link : Link V E L ε} (x : Side) {s : Session V E L ε}
      (step : Sync.Step (peers x) (link.session x) .ends s) :
      Step peers link ⟨Function.update link.session x s, link.queue⟩
  | interrupts {link : Link V E L ε} (x : Side) {s : Session V E L ε}
      (step : Sync.Step (peers x) (link.session x) .interrupts s) :
      Step peers link ⟨Function.update link.session x s, link.queue⟩

inductive Link.Reached (peers : Side → Peer V E L TP ε) : Link V E L ε → Prop
  | init : Reached peers (Link.init peers)
  | step {link link' : Link V E L ε} (reached : Reached peers link)
      (step : Link.Step peers link link') : Reached peers link'

/-! ## Channels -/

section Channels

variable {p : Peer V E L TP ε} {peers : Side → Peer V E L TP ε} {link : Link V E L ε}
  {items : Side → List (Item L)} {messages : Side → List (LogSyncMessage L)} {label : Label L}

theorem running_of_step (h : Step p s label s') : s.Running := by
  cases h with
  | advance hsend => exact running_of_send hsend
  | send hsend => exact running_of_send hsend
  | sendError hsend => exact running_of_send hsend
  | receive hrcv => exact running_of_receive hrcv
  | receiveError hrcv => exact running_of_receive hrcv
  | closed hcl => exact running_of_closed hcl
  | finish state =>
    rw [Session.Running, state]
    trivial
  | finishEnded state =>
    rw [Session.Running, state]
    trivial
  | interrupted error running => exact running

theorem not_running_of_ends (h : Step p s .ends s') : ¬s'.Running := by
  cases h with
  | closed => exact id
  | finishEnded => exact id

/-- A session with its history, which it only adds to while its stream has not ended. -/
def History (p : Peer V E L TP ε) (s : Session V E L ε) (items : List (Item L))
    (messages : List (LogSyncMessage L)) : Prop :=
  ∃ ended, Trace p s items messages ended ∧ (ended = true → ¬s.Running)

theorem History.trace {items : List (Item L)} {messages : List (LogSyncMessage L)}
    (h : History p s items messages) (hstep : Step p s label s') :
    Trace p s items messages false := by
  obtain ⟨ended, htr, hended⟩ := h
  cases ended with
  | false => exact htr
  | true => exact absurd (running_of_step hstep) (hended rfl)

/-- The histories of both sessions agree on what was sent and received. -/
structure Link.Histories (peers : Side → Peer V E L TP ε) (link : Link V E L ε)
    (items : Side → List (Item L)) (messages : Side → List (LogSyncMessage L)) : Prop where
  history : ∀ x, History (peers x) (link.session x) (items x) (messages x)
  channel : ∀ x, items x ++ (link.queue x).map .ok = (messages x.other).map .ok

theorem history_update {session : Side → Session V E L ε}
    (h : ∀ x, History (peers x) (session x) (items x) (messages x)) {s : Session V E L ε}
    {items' : List (Item L)} {messages' : List (LogSyncMessage L)}
    (hx : History (peers x) s items' messages') (y : Side) :
    History (peers y) (Function.update session x s y) (Function.update items x items' y)
      (Function.update messages x messages' y) := by
  by_cases hy : y = x
  · subst hy
    rw [update_self, update_self, update_self]
    exact hx
  · rw [update_of_ne hy, update_of_ne hy, update_of_ne hy]
    exact h y

theorem Link.Histories.update (h : link.Histories peers items messages) {s : Session V E L ε}
    (hx : History (peers x) s (items x) (messages x)) :
    Link.Histories peers ⟨Function.update link.session x s, link.queue⟩ items messages := by
  have hupd := history_update h.history hx
  rw [update_eq_self, update_eq_self] at hupd
  exact ⟨hupd, h.channel⟩

theorem Link.Reached.histories (h : Link.Reached peers link) :
    ∃ items messages, link.Histories peers items messages := by
  induction h with
  | init =>
    exact ⟨fun _ => [], fun _ => [], fun _ => ⟨false, .init, nofun⟩, fun _ => rfl⟩
  | step reached step ih =>
    obtain ⟨items, messages, h⟩ := ih
    have hhist := h.history
    cases step with
    | quiet x step =>
      have htr := (hhist x).trace step
      exact ⟨items, messages, h.update ⟨false, htr.quiet step, nofun⟩⟩
    | sends x step =>
      have htr := (hhist x).trace step
      have hupd := history_update hhist ⟨false, htr.sends step, nofun⟩
      rw [update_eq_self] at hupd
      refine ⟨items, _, hupd, fun y => ?_⟩
      dsimp only
      rcases x.eq_or_eq_other y with rfl | rfl
      · rw [update_of_ne y.ne_other, update_of_ne y.ne_other.symm]
        exact h.channel y
      · rw [update_self, x.other_other, update_self, map_append,
          map_append, ← append_assoc, h.channel x.other, x.other_other]
    | receives x queue step =>
      have htr := (hhist x).trace step
      have hupd := history_update hhist ⟨false, htr.receives step, nofun⟩
      rw [update_eq_self] at hupd
      refine ⟨_, messages, hupd, fun y => ?_⟩
      dsimp only
      rcases x.eq_or_eq_other y with rfl | rfl
      · have hchan := h.channel y
        rw [queue] at hchan
        rw [update_self, update_self, append_assoc]
        exact hchan
      · rw [update_of_ne x.ne_other.symm, update_of_ne x.ne_other.symm]
        exact h.channel x.other
    | ends x step =>
      have htr := (hhist x).trace step
      exact ⟨items, messages, h.update ⟨true, htr.ends step, fun _ => not_running_of_ends step⟩⟩
    | interrupts x step =>
      have htr := (hhist x).trace step
      exact ⟨items, messages, h.update ⟨false, htr.interrupts step, nofun⟩⟩

end Channels

/-! ## What the other one is missing -/

namespace Peer

def Requests (p : Peer V E L TP ε) (author : VerifyingKey) (logId : L) : Prop :=
  logId ∈ (p.logs.lookup author).getD []

instance (p : Peer V E L TP ε) (author : VerifyingKey) (logId : L) :
    Decidable (p.Requests author logId) :=
  inferInstanceAs (Decidable (logId ∈ (p.logs.lookup author).getD []))

theorem lookupLog_localHeights (p : Peer V E L TP ε) (author : VerifyingKey) (logId : L) :
    lookupLog p.localHeights author logId =
      if p.Requests author logId then p.store.logHeight author logId else none :=
  lookupLog_logHeights p.logs author logId

def requestedRows (p : Peer V E L TP ε) : List (OperationRow V L) :=
  p.store.operations.rows.filter fun row => p.Requests row.header.verifyingKey row.logId

theorem mem_requestedRows {p : Peer V E L TP ε} :
    row ∈ p.requestedRows ↔
      row ∈ p.store.operations.rows ∧ p.Requests row.header.verifyingKey row.logId := by
  rw [requestedRows, mem_filter, decide_eq_true_eq]

end Peer

def place (row : OperationRow V L) : VerifyingKey × L × SeqNum :=
  (row.header.verifyingKey, row.logId, row.header.seqNum)

structure Compatible (peers : Side → Peer V E L TP ε) : Prop where
  unpruned : ∀ x, (peers x).store.Unpruned
  same : ∀ x, ∀ row ∈ (peers x).store.operations.rows,
    ∀ row' ∈ (peers x.other).store.operations.rows,
      place row = place row' ∨ row.hash = row'.hash → row = row'
  requests : ∀ x, ∀ row ∈ (peers x).store.operations.rows,
    (peers x.other).Requests row.header.verifyingKey row.logId →
      (peers x).Requests row.header.verifyingKey row.logId
  digest : ∀ x, ∀ row ∈ (peers x).store.operations.rows, row.hash = row.header.digest
  size : ∀ x, ∀ row ∈ (peers x).store.operations.rows, 0 < row.header.size.toNat
  codec : ∀ x, ∀ row ∈ (peers x).store.operations.rows, ∀ header,
    (peers x.other).decode ((peers x).encode row.header) = .ok header →
      header.toAnyHeader = row.header
  total : ∀ x, totalBytes ((peers x).outbound (peers x.other).localHeights) < UInt32.size

section Missing

theorem begin_of_missing {height : Option SeqNum} {remote : SeqNum} {range : LogRange}
    (h : missing height (some remote) = some range) : range.1 = some remote := by
  cases height with
  | none => cases h
  | some height =>
    dsimp only [missing] at h
    split at h
    · cases h
      rfl
    · cases h

theorem exists_missing {height seqNum : SeqNum} {remote : Option SeqNum} (hle : seqNum ≤ height)
    (hlt : ∀ r, remote = some r → r < seqNum) :
    ∃ range, missing (some height) remote = some range ∧ range.1.all (· < seqNum) ∧
      range.2.all (seqNum ≤ ·) := by
  cases remote with
  | none => exact ⟨_, rfl, rfl, decide_eq_true hle⟩
  | some remote =>
    have hafter := hlt remote rfl
    have hbelow : remote < height := UInt32.lt_of_lt_of_le hafter hle
    exact ⟨_, if_pos hbelow, decide_eq_true hafter, decide_eq_true hle⟩

variable {peers : Side → Peer V E L TP ε}

theorem Compatible.mem_of_hasOperation (h : Compatible peers) (x : Side)
    (hrow : row ∈ (peers x).store.operations.rows)
    (hstor : (peers x.other).store.hasOperation row.hash = true) :
    row ∈ (peers x.other).store.operations.rows := by
  obtain ⟨row', hrow', hhash⟩ := mem_map.mp (hasOperation_iff.mp hstor)
  rw [h.same x row hrow row' hrow' (Or.inr hhash.symm)]
  exact hrow'

theorem Compatible.mem_outbound_iff (h : Compatible peers) (x : Side) (row : OperationRow V L) :
    row ∈ (peers x).outbound (peers x.other).localHeights ↔
      row ∈ (peers x).requestedRows ∧ (peers x.other).store.hasOperation row.hash = false := by
  unfold outbound needs
  simp only [mem_logRanges, lookupLog_compare, lookupLog_localHeights, mem_requestedRows]
  constructor
  · rintro ⟨author, logId, range, hrange, hent⟩
    obtain ⟨hrow, hafter, huntil⟩ := mem_logEntries.mp hent
    obtain ⟨hstor, rfl, rfl⟩ := mem_logRows.mp hrow
    have hreqs : (peers x).Requests row.header.verifyingKey row.logId := by
      by_contra hnot
      rw [if_neg hnot] at hrange
      cases hrange
    refine ⟨⟨hstor, hreqs⟩, ?_⟩
    by_contra hoth
    rw [Bool.not_eq_false] at hoth
    have hstored' := h.mem_of_hasOperation x hstor hoth
    have hrequests' := h.requests x.other row hstored' (by rwa [x.other_other])
    have hrow' := mem_logRows.mpr ⟨hstored', rfl, rfl⟩
    rw [if_pos hrequests'] at hrange
    obtain ⟨remote, hrmt, hle⟩ := exists_logHeight hrow'
    -- the range starts after the height of the other one, which is not below the row
    rw [hrmt] at hrange
    have hbegin := begin_of_missing hrange
    rw [hbegin, Option.all_some, decide_eq_true_eq] at hafter
    rw [UInt32.lt_iff_toNat_lt] at hafter
    rw [UInt32.le_iff_toNat_le] at hle
    omega
  · rintro ⟨⟨hstor, hreqs⟩, hmiss⟩
    have hrow := mem_logRows.mpr ⟨hstor, rfl, rfl⟩
    obtain ⟨height, hhgt, huntil⟩ := exists_logHeight hrow
    have hafter : ∀ remote,
        (peers x.other).store.logHeight row.header.verifyingKey row.logId = some remote →
          remote < row.header.seqNum := by
      intro remote hrmt
      by_contra hnot
      -- an unpruned log has an entry in this place, which is the same one
      obtain ⟨row', hrow', hseq⟩ := (h.unpruned x.other).exists_row hrmt (UInt32.not_lt.mp hnot)
      obtain ⟨hstored', hauthor, hlog⟩ := mem_logRows.mp hrow'
      have heq : row = row' :=
        h.same x row hstor row' hstored' (Or.inl (by rw [place, place, hauthor, hlog, hseq]))
      have hhas : (peers x.other).store.hasOperation row.hash = true := by
        rw [heq]
        exact hasOperation_iff.mpr (mem_map_of_mem hstored')
      rw [hhas] at hmiss
      cases hmiss
    refine ⟨row.header.verifyingKey, row.logId, ?_⟩
    rw [if_pos hreqs, hhgt]
    obtain ⟨range, hrange, hbegin, hend⟩ : ∃ range,
        missing (some height) (if (peers x.other).Requests row.header.verifyingKey row.logId then
          (peers x.other).store.logHeight row.header.verifyingKey row.logId else none) =
            some range ∧
          range.1.all (· < row.header.seqNum) ∧ range.2.all (row.header.seqNum ≤ ·) := by
      apply exists_missing huntil
      intro remote hrmt
      split at hrmt
      · exact hafter remote hrmt
      · cases hrmt
    exact ⟨range, hrange, mem_logEntries.mpr ⟨hrow, hbegin, hend⟩⟩

end Missing

/-! ## A completed exchange -/

theorem eq_of_concat_prefix {α : Type} {l l' : List α} {d : α} (hd : d ∉ l')
    (h : l ++ [d] <+: l' ++ [d]) : l = l' := by
  have hlen := h.length_le
  rw [length_append, length_append] at hlen
  by_cases hlt : l.length + 1 ≤ l'.length
  · have hshort : l ++ [d] <+: l' := by
      apply prefix_of_prefix_length_le h (prefix_append l' [d])
      rw [length_append]
      exact hlt
    exact absurd (hshort.subset (mem_append_right _ (mem_singleton.mpr rfl))) hd
  · apply (append_left_inj [d]).mp
    apply h.eq_of_length
    rw [length_append, length_append]
    omega

namespace Peer

variable {p q : Peer V E L TP ε} {items : List (Item L)} {messages : List (LogSyncMessage L)}

/-- A session that has the "done" message has everything sent before it. -/
theorem operations_of_done {remote : LogHeights VerifyingKey L} {size : UInt32 × UInt32}
    {rows rest : List (OperationRow V L)} (hrecv : q.Received remote items true)
    (hsent : p.Sent size rows rest messages true) (hitems : items <+: messages.map .ok) :
    remote = p.localHeights ∧
      q.readOperations items =
        q.readOperations (rows.map fun row => .ok (p.operationMessage row)) ∧
      ∀ row ∈ rows, q.Readable (p.encode row.header) := by
  obtain ⟨rfl, -, hzero⟩ := hsent
  rcases hrecv with rfl | ⟨before, ⟨announced, raws, rfl, hraws⟩, rfl⟩
  · obtain ⟨hhave, hitems⟩ := cons_prefix_cons.mp hitems
    obtain ⟨hopening, -⟩ := cons_prefix_cons.mp hitems
    have hnothing : ¬size.2 > 0 := by
      intro hpos
      rw [opening, if_pos hpos] at hopening
      cases hopening
    rw [(hzero hnothing).2]
    cases hhave
    exact ⟨rfl, rfl, fun _ hrow => absurd hrow not_mem_nil⟩
  · obtain ⟨hhave, hitems⟩ := cons_prefix_cons.mp hitems
    obtain ⟨hopening, hitems⟩ := cons_prefix_cons.mp hitems
    have hpos : size.2 > 0 := by
      by_contra hnothing
      rw [opening, if_neg hnothing] at hopening
      cases hopening
    rw [if_pos ⟨rfl, hpos⟩, map_append, map_map] at hitems
    have hraws' := eq_of_concat_prefix (by simp [operationMessage]) hitems
    cases hhave
    refine ⟨rfl, ?_, fun row hrow => ?_⟩
    · rw [hraws']
      exact readOperations_append_none rfl
    · have hmem : Except.ok (p.operationMessage row) ∈
          raws.map fun raw => (.ok (.operation raw.1 raw.2) : Item L) := by
        rw [hraws']
        exact mem_map_of_mem hrow
      obtain ⟨raw, hraw, heq⟩ := mem_map.mp hmem
      have hhdr : raw.1 = p.encode row.header := by
        injection heq with heq
        injection heq
      rw [← hhdr]
      exact hraws raw hraw

end Peer

omit [DecidableEq L] in
theorem map_readOperations {p q : Peer V E L TP ε} {rows : List (OperationRow V L)}
    (hreadable : ∀ row ∈ rows, q.Readable (p.encode row.header))
    (hcdc : ∀ row ∈ rows, ∀ header, q.decode (p.encode row.header) = .ok header →
      header.toAnyHeader = row.header)
    (hdigest : ∀ row ∈ rows, row.hash = row.header.digest) :
    (q.readOperations (rows.map fun row => .ok (p.operationMessage row))).map
      Operation.toAnyOperation = rows.map OperationRow.toAnyOperation := by
  induction rows with
  | nil => rfl
  | cons row rows ih =>
    rw [forall_mem_cons] at hreadable hcdc hdigest
    obtain ⟨header, hhdr⟩ := hreadable.1
    have hsame := hcdc.1 header hhdr
    have hread : q.readOperation (.ok (p.operationMessage row)) =
        some ⟨header.digest, header, row.body⟩ := by
      rw [operationMessage, readOperation, hhdr]
    have hrow : (⟨header.digest, header, row.body⟩ : Operation V E).toAnyOperation =
        row.toAnyOperation := by
      rw [toAnyOperation, hdigest.1, ← hsame]
      rfl
    have hrest := ih hreadable.2 hcdc.2 hdigest.2
    rw [map_cons, readOperations, filterMap_cons_some hread, map_cons, hrow]
    exact congrArg (row.toAnyOperation :: ·) hrest

section Exchange

theorem History.exchange {p : Peer V E L TP ε} {s : Session V E L ε} {items : List (Item L)}
    {messages : List (LogSyncMessage L)} {metrics : LogSyncMetrics} (h : History p s items messages)
    (hfin : s.state = .finish metrics) (hdone : s.syncDoneReceived = true) :
    ∃ remote size rows rest, p.Received remote items true ∧
      p.outbound remote = rows ++ rest ∧ p.outboundSize (p.needs remote) = .ok size ∧
      p.Sent size rows rest messages true := by
  obtain ⟨ended, htr, -⟩ := h
  have hprog := progress_of_trace htr
  unfold Progress at hprog
  rw [hfin, hdone] at hprog
  obtain ⟨remote, size, rows, rest, hrecv, hrows, hsize, hsent, -⟩ := hprog
  exact ⟨remote, size, rows, rest, hrecv, hrows, hsize, hsent⟩

variable {peers : Side → Peer V E L TP ε} {link : Link V E L ε}

/-- Both sessions have succeeded with the "done" message of the other. -/
structure Link.Completed (link : Link V E L ε) : Prop where
  finish : ∀ x, ∃ metrics, (link.session x).state = .finish metrics
  done : ∀ x, (link.session x).syncDoneReceived = true

/-- What a session has received is what the other one had to send. -/
theorem Compatible.readOperations_eq (h : Compatible peers) {items : Side → List (Item L)}
    {messages : Side → List (LogSyncMessage L)} (hhists : link.Histories peers items messages)
    (hcompl : link.Completed) (x : Side) :
    ((peers x).readOperations (items x)).map Operation.toAnyOperation =
      ((peers x.other).outbound (peers x).localHeights).map OperationRow.toAnyOperation := by
  obtain ⟨hhist, hchan⟩ := hhists
  obtain ⟨metrics, hfin⟩ := hcompl.finish x
  obtain ⟨metrics', hfinish'⟩ := hcompl.finish x.other
  obtain ⟨remote, size, rows, rest, hrecv, hrows, hsize, hsent⟩ :=
    (hhist x).exchange hfin (hcompl.done x)
  obtain ⟨remote', size', rows', rest', hreceived', hrows', hsize', hsent'⟩ :=
    (hhist x.other).exchange hfinish' (hcompl.done x.other)
  have hchannel' := hchan x.other
  rw [x.other_other] at hchannel'
  obtain ⟨-, hread, hreadable⟩ := operations_of_done hrecv hsent' ⟨_, hchan x⟩
  obtain ⟨hhgts, -, -⟩ := operations_of_done hreceived' hsent ⟨_, hchannel'⟩
  rw [hhgts] at hrows' hsize'
  have hstor : ∀ row ∈ (peers x.other).outbound (peers x).localHeights,
      row ∈ (peers x.other).store.operations.rows :=
    fun row hrow => mem_rows_of_mem_outbound hrow
  -- all operations are through
  have hall : (peers x.other).outbound (peers x).localHeights = rows' := by
    by_cases hpos : size'.2 > 0
    · rw [hrows', hsent'.2.1 rfl hpos, append_nil]
    · have htotal := h.total x.other
      rw [x.other_other] at htotal
      rw [(hsent'.2.2 hpos).2]
      exact outbound_eq_nil hsize' hpos (fun row hrow => h.size x.other row (hstor row hrow)) htotal
  rw [hall] at hstor
  have hcdc := h.codec x.other
  rw [x.other_other] at hcdc
  rw [hall, hread]
  exact map_readOperations hreadable (fun row hrow => hcdc row (hstor row hrow))
    (fun row hrow => h.digest x.other row (hstor row hrow))

theorem nodup_hash_outbound (p : Peer V E L TP ε) (remote : LogHeights VerifyingKey L) :
    ((p.outbound remote).map OperationRow.hash).Nodup := by
  apply List.Nodup.map_on _ (nodup_logRanges _)
  intro row hrow row' hrow' hhash
  exact inj_on_of_nodup_map p.store.operations.unique
    (mem_rows_of_mem_outbound hrow) (mem_rows_of_mem_outbound hrow') hhash

/-- What a session has handed on is what the other one had to send, without duplicates. -/
theorem Compatible.operations_eq (h : Compatible peers) (hrchd : link.Reached peers)
    (hcompl : link.Completed) (x : Side) :
    (link.session x).operations.map Operation.toAnyOperation =
      ((peers x.other).outbound (peers x).localHeights).map OperationRow.toAnyOperation := by
  obtain ⟨items, messages, hhists⟩ := hrchd.histories
  have hread := h.readOperations_eq hhists hcompl x
  have hhash : ((peers x).readOperations (items x)).map Operation.hash =
      ((peers x.other).outbound (peers x).localHeights).map hash := by
    have hmap := congrArg (List.map AnyOperation.hash) hread
    rw [map_map, map_map] at hmap
    exact hmap
  obtain ⟨ended, htr, -⟩ := hhists.history x
  obtain ⟨metrics, hfin⟩ := hcompl.finish x
  have hdlv := delivered_of_trace htr (by simp [hfin])
  rw [hdlv.operations, hread]
  · rw [hhash]
    exact nodup_hash_outbound _ _
  · intro operation hop
    have hmem := mem_map_of_mem (f := Operation.hash) hop
    rw [hhash] at hmem
    obtain ⟨row, hrow, hrowhash⟩ := mem_map.mp hmem
    have hmiss := (h.mem_outbound_iff x.other row).mp (by rwa [x.other_other])
    rw [x.other_other] at hmiss
    rw [← hrowhash]
    exact hmiss.2

def Link.synced (peers : Side → Peer V E L TP ε) (link : Link V E L ε) (x : Side) :
    List (AnyOperation V) :=
  (peers x).requestedRows.map OperationRow.toAnyOperation ++
    (link.session x).operations.map Operation.toAnyOperation

theorem Compatible.outbound_perm (h : Compatible peers) (x : Side) :
    ((peers x.other).outbound (peers x).localHeights).Perm
      ((peers x.other).requestedRows.filter fun row =>
        !(peers x).store.hasOperation row.hash) := by
  have hrows : (peers x.other).store.operations.rows.Nodup :=
    (peers x.other).store.operations.unique.of_map
  apply (perm_ext_iff_of_nodup (nodup_logRanges _) ((hrows.filter _).filter _)).mpr
  intro row
  have hiff := h.mem_outbound_iff x.other row
  rw [x.other_other] at hiff
  rw [mem_filter, Bool.not_eq_true']
  exact hiff

theorem Compatible.synced_subset (h : Compatible peers) (hrchd : link.Reached peers)
    (hcompl : link.Completed) (x : Side) :
    link.synced peers x ⊆ link.synced peers x.other := by
  have hops := h.operations_eq hrchd hcompl
  have hoperations' := hops x.other
  rw [x.other_other] at hoperations'
  unfold Link.synced
  rw [hops x, hoperations']
  intro operation hop
  rw [mem_append] at hop ⊢
  rcases hop with hmem | hmem
  · obtain ⟨row, hrow, rfl⟩ := mem_map.mp hmem
    obtain ⟨hstor, hreqs⟩ := mem_requestedRows.mp hrow
    cases hhas : (peers x.other).store.hasOperation row.hash with
    | true =>
      have hstored' := h.mem_of_hasOperation x hstor hhas
      have hrequests' := h.requests x.other row hstored' (by rwa [x.other_other])
      exact Or.inl (mem_map_of_mem (mem_requestedRows.mpr ⟨hstored', hrequests'⟩))
    | false => exact Or.inr (mem_map_of_mem ((h.mem_outbound_iff x row).mpr ⟨hrow, hhas⟩))
  · obtain ⟨row, hrow, rfl⟩ := mem_map.mp hmem
    have hmiss := (h.mem_outbound_iff x.other row).mp (by rwa [x.other_other])
    exact Or.inl (mem_map_of_mem hmiss.1)

/-- Each session hands on what the other peer has and its own has not, each operation once, and in
the end both have the same. -/
theorem sessions_exchange (h : Compatible peers) (hreached : link.Reached peers)
    (hcompleted : link.Completed) :
    (∀ x, ((link.session x).operations.map Operation.toAnyOperation).Perm
      (((peers x.other).requestedRows.filter fun row =>
        !(peers x).store.hasOperation row.hash).map OperationRow.toAnyOperation)) ∧
    ∀ operation, operation ∈ link.synced peers .a ↔ operation ∈ link.synced peers .b := by
  constructor
  · intro x
    rw [h.operations_eq hreached hcompleted x]
    exact (h.outbound_perm x).map _
  · intro operation
    constructor
    · exact fun hmem => h.synced_subset hreached hcompleted .a hmem
    · exact fun hmem => h.synced_subset hreached hcompleted .b hmem

end Exchange

/-! ## A sample exchange -/

def sampleKey : VerifyingKey := ⟨Vector.replicate VERIFYING_KEY_LEN 7⟩

def sampleHeader : Header Unit Unit where
  version := 1
  verifyingKey := sampleKey
  signature := ⟨Vector.replicate SIGNATURE_LEN 0⟩
  payloadSize := 0
  payloadHash := none
  seqNum := 0
  backlink := none
  extensions := ()
  extensionsCbor := none
  size := 100
  digest := ⟨Vector.replicate HASH_LEN 1⟩

def sampleRow : OperationRow Unit Nat :=
  ⟨sampleHeader.digest, 0, sampleHeader.toAnyHeader, none⟩

def samplePeers (x : Side) : Peer Unit Unit Nat Unit Unit where
  store :=
    match x with
    | .a => ⟨⟨[sampleRow], List.nodup_singleton _⟩, Table.empty⟩
    | .b => .empty
  logs := (∅ : Logs VerifyingKey Nat).insert sampleKey [0]
  checks := true
  bufferCapacity := 8
  order := .numbered
  encode _ := []
  decode _ := .ok sampleHeader

theorem mem_samplePeers {row : OperationRow Unit Nat}
    (h : row ∈ (samplePeers x).store.operations.rows) : row = sampleRow := by
  cases x with
  | a => exact mem_singleton.mp h
  | b => cases h

theorem compatible_samplePeers : Compatible samplePeers where
  unpruned x author logId := by
    cases x with
    | a =>
      by_cases hlog : sampleRow.header.verifyingKey = author ∧ sampleRow.logId = logId
      · refine ⟨1, ?_⟩
        have hrows : (samplePeers .a).store.logRows author logId = [sampleRow] :=
          filter_cons_of_pos (decide_eq_true hlog)
        rw [hrows]
        exact List.Perm.refl _
      · refine ⟨0, ?_⟩
        have hrows : (samplePeers .a).store.logRows author logId = [] :=
          filter_cons_of_neg (by simpa using hlog)
        rw [hrows]
        exact List.Perm.refl _
    | b => exact ⟨0, List.Perm.refl _⟩
  same x row hrow row' hrow' _ := by
    rw [mem_samplePeers hrow, mem_samplePeers hrow']
  requests x row hrow hreqs := by
    cases x with
    | a => exact hreqs
    | b => exact hreqs
  digest x row hrow := by
    rw [mem_samplePeers hrow]
    rfl
  size x row hrow := by
    rw [mem_samplePeers hrow]
    decide
  codec x row hrow header hhdr := by
    rw [mem_samplePeers hrow]
    cases hhdr
    rfl
  total x := by
    cases x with
    | a => decide +kernel
    | b => decide +kernel

theorem completed_samplePeers : ∃ link, Link.Reached samplePeers link ∧ link.Completed := by
  obtain ⟨_, hsize, rfl⟩ : ((samplePeers .a).outboundSize
      ((samplePeers .a).needs (samplePeers .b).localHeights)).Returns (· = (1, 100)) := by
    decide +kernel
  have hops : (samplePeers .a).outbound (samplePeers .b).localHeights = [sampleRow] := by
    decide +kernel
  obtain ⟨_, hsize', rfl⟩ : ((samplePeers .b).outboundSize
      ((samplePeers .b).needs (samplePeers .a).localHeights)).Returns (· = (0, 0)) := by
    decide +kernel
  have h0 : Link.Reached samplePeers _ := .init
  have h1 := (h0.step (.quiet .a (.advance rfl))).step (.sends .a (.send rfl))
  have h2 := (h1.step (.quiet .b (.advance rfl))).step (.sends .b (.send rfl))
  have h3 := (h2.step (.receives .a rfl (.receive rfl))).step (.receives .b rfl (.receive rfl))
  have h4 := (h3.step (.sends .a (.send (send_sendPreSync rfl hsize)))).step
    (.sends .b (.send (send_sendPreSync rfl hsize')))
  have h5 := (h4.step (.receives .a rfl (.receive rfl))).step (.receives .b rfl (.receive rfl))
  have h6 := (h5.step (.quiet .a (.advance rfl))).step (.quiet .b (.advance rfl))
  have h7 := (h6.step (.sends .a (.send (send_exchange_cons
    (congrArg (State.exchange · _) hops) rfl)))).step
    (.sends .a (.send (send_exchange_nil rfl rfl)))
  have h8 := (h7.step (.receives .b rfl (.receive rfl))).step (.receives .b rfl (.receive rfl))
  have h9 := (h8.step (.quiet .a (.finish rfl rfl rfl))).step (.quiet .b (.finish rfl rfl rfl))
  refine ⟨_, h9, fun x => ?_, fun x => ?_⟩
  · cases x with
    | a => exact ⟨_, rfl⟩
    | b => exact ⟨_, rfl⟩
  · cases x with
    | a => rfl
    | b => rfl

theorem sessions_exchange_samplePeers : ∃ link, Link.Reached samplePeers link ∧
    link.Completed ∧ (link.session .b).operations.map Operation.toAnyOperation =
      [sampleRow.toAnyOperation] := by
  obtain ⟨link, hrchd, hcompl⟩ := completed_samplePeers
  have hperm := (sessions_exchange compatible_samplePeers hrchd hcompl).1 .b
  have hrows : (samplePeers .a).requestedRows.filter (fun row =>
      !(samplePeers .b).store.hasOperation row.hash) = [sampleRow] := by
    decide +kernel
  change List.Perm _ (((samplePeers .a).requestedRows.filter fun row =>
      !(samplePeers .b).store.hasOperation row.hash).map toAnyOperation) at hperm
  exact ⟨link, hrchd, hcompl, perm_singleton.mp hperm⟩

end P2Panda.Sync
