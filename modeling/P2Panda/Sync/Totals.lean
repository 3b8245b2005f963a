import P2Panda.Sync.TwoPeers

/-!
# Announced totals

Totals are added up in 32 bits, and with zero bytes a session sends "done" whatever the number of
operations. A header that names a large payload is enough for that.
-/

namespace P2Panda.Sync

open P2Panda.Library P2Panda.Core P2Panda.Store

variable {V E L TP ε : Type} [DecidableEq L]

/-- The sums over these operations are added, and fit into 32 bits. -/
structure Adds (rows : List (OperationRow V L)) (total total' : UInt32 × UInt32) : Prop where
  operations : total'.1.toNat = total.1.toNat + rows.length
  bytes : total'.2.toNat = total.2.toNat + totalBytes rows

def Fits (rows : List (OperationRow V L)) (total : UInt32 × UInt32) : Prop :=
  total.1.toNat + rows.length < UInt32.size ∧ total.2.toNat + totalBytes rows < UInt32.size

omit [DecidableEq L] in
theorem addU32_eq_ok {σ : Type} (checks : Bool) {a b : UInt32}
    (h : a.toNat + b.toNat < UInt32.size) :
    ∃ n, addU32 checks a b = (.ok n : Outcome σ UInt32) ∧ n.toNat = a.toNat + b.toNat := by
  refine ⟨a + b, addU32_of_lt h, ?_⟩
  rw [UInt32.toNat_add]
  exact Nat.mod_eq_of_lt h

theorem getLogSize_exact {store : OperationStore V L TP} (checks : Bool) {author : VerifyingKey}
    {logId : L} {range : LogRange}
    (hlen : (store.logEntries author logId range).length < UInt32.size)
    (hbytes : totalBytes (store.logEntries author logId range) < UInt32.size) :
    ∃ size, store.getLogSize checks author logId range = .ok size ∧
      size.1.toNat = (store.logEntries author logId range).length ∧
      size.2.toNat = totalBytes (store.logEntries author logId range) := by
  have hperm := logEntries_perm store author logId range
  have htotal : totalBytes (store.logEntries author logId range) = _ + _ :=
    (hperm.map _).sum_eq.trans List.sum_map_add
  rw [hperm.length_eq] at hlen ⊢
  rw [htotal] at hbytes ⊢
  generalize hhdr : ((store.rangeRows author logId range).map
    fun row => row.header.size.toNat).sum = header at hbytes ⊢
  generalize hpay : ((store.rangeRows author logId range).map
    fun row => row.header.payloadSize.toNat).sum = payload at hbytes ⊢
  have hheader := UInt32.toNat_ofNat_of_lt' (n := header) (by omega)
  have hpayload := UInt32.toNat_ofNat_of_lt' (n := payload) (by omega)
  rw [← hheader, ← hpayload] at hbytes ⊢
  obtain ⟨total, hsum, hval⟩ := addU32_eq_ok (σ := String) checks hbytes
  refine ⟨(.ofNat (store.rangeRows author logId range).length, total), ?_,
    UInt32.toNat_ofNat_of_lt' hlen, hval⟩
  unfold OperationStore.getLogSize
  dsimp only
  rw [hhdr, hpay, if_pos ⟨by omega, by omega, hlen⟩, hsum]
  rfl

omit [DecidableEq L] in
theorem foldlM_adds {α σ : Type} {step : UInt32 × UInt32 → α → Outcome σ (UInt32 × UInt32)}
    (rows : α → List (OperationRow V L))
    (hstep : ∀ total a, Fits (rows a) total → ∃ total', step total a = .ok total' ∧
      Adds (rows a) total total')
    {list : List α} {total : UInt32 × UInt32} (h : Fits (list.flatMap rows) total) :
    ∃ total', list.foldlM step total = .ok total' ∧ Adds (list.flatMap rows) total total' := by
  induction list generalizing total with
  | nil => exact ⟨total, rfl, rfl, rfl⟩
  | cons a list ih =>
    unfold Fits at h
    rw [List.flatMap_cons, List.length_append, totalBytes_append] at h
    obtain ⟨next, hnext, hadds⟩ := hstep total a ⟨by omega, by omega⟩
    have hfits : Fits (list.flatMap rows) next := by
      unfold Fits
      rw [hadds.operations, hadds.bytes]
      omega
    obtain ⟨total', hfold, hadds'⟩ := ih hfits
    refine ⟨total', ?_, ?_, ?_⟩
    · rw [List.foldlM_cons, hnext]
      exact hfold
    · rw [hadds'.operations, hadds.operations, List.flatMap_cons, List.length_append,
        Nat.add_assoc]
    · rw [hadds'.bytes, hadds.bytes, List.flatMap_cons, totalBytes_append, Nat.add_assoc]

namespace Peer

variable {p : Peer V E L TP ε} {remoteNeeds : LogRanges VerifyingKey L}

theorem outboundSize_adds (h : Fits (logRanges p.order p.store remoteNeeds) (0, 0)) :
    ∃ size, p.outboundSize remoteNeeds = .ok size ∧
      Adds (logRanges p.order p.store remoteNeeds) (0, 0) size := by
  have hranges : logRanges p.order p.store remoteNeeds =
      (HashMap.entries p.order.author remoteNeeds).flatMap fun author =>
        (HashMap.entries p.order.log author.2).flatMap fun log =>
          p.store.logEntries author.1 log.1 log.2 := rfl
  rw [hranges] at h ⊢
  refine foldlM_adds _ (fun total author hauthor => ?_) h
  refine foldlM_adds (fun log : L × LogRange =>
    p.store.logEntries author.1 log.1 log.2) (fun total log hlog => ?_) hauthor
  obtain ⟨hlen, hbytes⟩ := hlog
  obtain ⟨inner, hinner, hops, hsum⟩ := getLogSize_exact p.checks
    ((Nat.le_add_left _ _).trans_lt hlen) ((Nat.le_add_left _ _).trans_lt hbytes)
  rw [← hops] at hlen
  rw [← hsum] at hbytes
  obtain ⟨operations, hoperations, hval⟩ := addU32_eq_ok p.checks hlen
  obtain ⟨bytes, hbts, hval'⟩ := addU32_eq_ok p.checks hbytes
  refine ⟨(operations, bytes), ?_, hval.trans (congrArg _ hops), hval'.trans (congrArg _ hsum)⟩
  rw [hinner, Outcome.mapErr_ok, Outcome.ok_bind, hoperations, Outcome.ok_bind, hbts]
  rfl

variable (p) in
/-- The totals are those of the operations which the remote needs, and nothing is announced only if
there are none. -/
def AnnouncedExactly (remoteNeeds : LogRanges VerifyingKey L) : LogSyncMessage L → Prop
  | .preSync totalOperations total =>
    totalOperations.toNat = (logRanges p.order p.store remoteNeeds).length ∧
      total.toNat = totalBytes (logRanges p.order p.store remoteNeeds)
  | .done => logRanges p.order p.store remoteNeeds = []
  | _ => False

theorem totals_of_announcedExactly {s s' : Session V E L ε} {message : LogSyncMessage L}
    (hstate : s.state = .sendPreSync remoteNeeds) (hstep : Step p s (.sends message) s')
    (hexact : p.AnnouncedExactly remoteNeeds message) :
    (logRanges p.order p.store remoteNeeds).length < UInt32.size ∧
      totalBytes (logRanges p.order p.store remoteNeeds) < UInt32.size ∧
      (totalBytes (logRanges p.order p.store remoteNeeds) = 0 →
        logRanges p.order p.store remoteNeeds = []) := by
  cases hstep with
  | send hsend =>
  obtain ⟨size, -, hopens⟩ := outboundSize_of_send hstate hsend
  cases hopens
  unfold opening at hexact
  split at hexact
  · rename_i hpos
    obtain ⟨hops, hbytes⟩ := hexact
    refine ⟨hops ▸ size.1.toNat_lt, hbytes ▸ size.2.toNat_lt, fun hzero => ?_⟩
    rw [gt_iff_lt, UInt32.lt_iff_toNat_lt, hbytes, hzero] at hpos
    exact absurd hpos (Nat.not_lt_zero _)
  · have hnil : logRanges p.order p.store remoteNeeds = [] := hexact
    have hpos : 0 < UInt32.size := by decide
    rw [hnil]
    exact ⟨hpos, hpos, fun _ => rfl⟩

/-- The first message of a session after the heights is sent and exact if and only if its totals fit
into 32 bits and zero bytes mean that there is nothing to send. -/
theorem announcedExactly_iff (p : Peer V E L TP ε) (s : Session V E L ε)
    (remoteNeeds : LogRanges VerifyingKey L) (hstate : s.state = .sendPreSync remoteNeeds) :
    (∃ message s', Step p s (.sends message) s' ∧ p.AnnouncedExactly remoteNeeds message) ↔
      (logRanges p.order p.store remoteNeeds).length < UInt32.size ∧
        totalBytes (logRanges p.order p.store remoteNeeds) < UInt32.size ∧
        (totalBytes (logRanges p.order p.store remoteNeeds) = 0 →
          logRanges p.order p.store remoteNeeds = []) := by
  constructor
  · rintro ⟨message, s', hstep, hexact⟩
    exact totals_of_announcedExactly hstate hstep hexact
  · rintro ⟨hlen, hbytes, hempty⟩
    have hfits : Fits (logRanges p.order p.store remoteNeeds) (0, 0) :=
      ⟨(Nat.zero_add _).trans_lt hlen, (Nat.zero_add _).trans_lt hbytes⟩
    obtain ⟨size, hsize, hadds⟩ := outboundSize_adds hfits
    refine ⟨opening size, _, .send (send_sendPreSync hstate hsize), ?_⟩
    have hops := hadds.operations.trans (Nat.zero_add _)
    have hsum := hadds.bytes.trans (Nat.zero_add _)
    unfold opening
    split
    · exact ⟨hops, hsum⟩
    · rename_i hzero
      apply hempty
      rw [gt_iff_lt, UInt32.lt_iff_toNat_lt, hsum] at hzero
      exact Nat.eq_zero_of_not_pos hzero

end Peer

def largeHeader (payloadSize : PayloadSize) : Header Unit Unit :=
  { sampleHeader with
    payloadSize := payloadSize
    payloadHash := some ⟨Vector.replicate HASH_LEN 2⟩ }

def largePeer (checks : Bool) (payloadSize : PayloadSize) : Peer Unit Unit Nat Unit Unit where
  checks := checks
  store := (OperationStore.empty.insertOperation (largeHeader payloadSize).digest
    (⟨(largeHeader payloadSize).digest, largeHeader payloadSize, none⟩ : Operation Unit Unit) 0).1
  logs := (∅ : Logs VerifyingKey Nat).insert sampleKey [0]
  bufferCapacity := 8
  order := .numbered
  encode _ := []
  decode _ := .ok (largeHeader payloadSize)

def askedSession (p : Peer Unit Unit Nat Unit Unit) : Session Unit Unit Nat Unit :=
  ⟨.sendPreSync (p.needs ∅), false, false, .new p.bufferCapacity, []⟩

theorem trace_askedSession (p : Peer Unit Unit Nat Unit Unit) :
    Trace p (askedSession p) [.ok (.haveHeights ∅)] [.haveHeights p.localHeights] false :=
  ((Trace.init.quiet (.advance rfl)).sends (.send rfl)).receives (.receive rfl)

/-- With 100 bytes of payload, 200 bytes are announced. -/
theorem announcedExactly_largePeer : ((largePeer true 100).outbound ∅).length = 1 ∧
    totalBytes ((largePeer true 100).outbound ∅) = 200 ∧
    ∃ message s', Step (largePeer true 100) (askedSession (largePeer true 100))
      (.sends message) s' ∧
      (largePeer true 100).AnnouncedExactly ((largePeer true 100).needs ∅) message := by
  refine ⟨by decide +kernel, by decide +kernel, ?_⟩
  exact (Peer.announcedExactly_iff (largePeer true 100) (askedSession (largePeer true 100)) _
    rfl).mpr (by decide +kernel)

/-- With so many bytes that header and payload together do not fit into 32 bits, nothing exact is
announced; without overflow checks, "done" is sent. -/
theorem not_announcedExactly_largePeer :
    (∀ checks, Trace (largePeer checks 4294967196) (askedSession (largePeer checks 4294967196))
        [.ok (.haveHeights ∅)] [.haveHeights (largePeer checks 4294967196).localHeights] false ∧
      ((largePeer checks 4294967196).outbound ∅).length = 1 ∧
      ¬∃ message s', Step (largePeer checks 4294967196)
          (askedSession (largePeer checks 4294967196)) (.sends message) s' ∧
        (largePeer checks 4294967196).AnnouncedExactly
          ((largePeer checks 4294967196).needs ∅) message) ∧
    ∃ s', Step (largePeer false 4294967196) (askedSession (largePeer false 4294967196))
      (.sends .done) s' := by
  constructor
  · intro checks
    have hlarge : totalBytes ((largePeer checks 4294967196).outbound ∅) = UInt32.size := by
      cases checks <;> decide +kernel
    refine ⟨trace_askedSession _, by cases checks <;> decide +kernel, ?_⟩
    rintro ⟨message, s', hstep, hexact⟩
    have hfits := (Peer.totals_of_announcedExactly rfl hstep hexact).2.1
    exact absurd hlarge (Nat.ne_of_lt hfits)
  · obtain ⟨_, hsize, rfl⟩ : ((largePeer false 4294967196).outboundSize
        ((largePeer false 4294967196).needs ∅)).Returns (· = (1, 0)) := by
      decide +kernel
    exact ⟨_, .send (Peer.send_sendPreSync rfl hsize)⟩

end P2Panda.Sync
