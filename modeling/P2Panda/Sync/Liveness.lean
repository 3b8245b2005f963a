import P2Panda.Sync.TwoPeers

/-!
# Two sessions return

Whatever the stores of two peers, and wherever their streams end or fail, their sessions do not
wait for each other: what both wait for has been sent. The queues between them are unbounded, so
that a session never waits for the remote to make room.
-/

namespace P2Panda.Sync

open P2Panda.Library P2Panda.Core P2Panda.Store Session Peer List Function

variable {V E L TP ε : Type} [DecidableEq L]

namespace Peer

variable {p : Peer V E L TP ε} {s s' : Session V E L ε} {items : List (Item L)}
  {messages : List (LogSyncMessage L)}

theorem Sent.done_mem {size : UInt32 × UInt32} {rows rest : List (OperationRow V L)}
    (h : p.Sent size rows rest messages true) : .done ∈ messages ∧ 2 ≤ messages.length := by
  rw [h.1, opening]
  by_cases hpos : size.2 > 0 <;> simp [hpos]

/-- What a session has received and sent when it can only wait. -/
def Waits (items : List (Item L)) (messages : List (LogSyncMessage L)) : Prop :=
  items.length = 0 ∧ messages.length = 1 ∨ items.length = 1 ∧ 2 ≤ messages.length ∨
    2 ≤ items.length ∧ 2 ≤ messages.length ∧ .done ∈ messages ∧ .ok .done ∉ items

theorem Progress.waits (h : p.Progress s items messages) (hends : Step p s .ends s') :
    Waits items messages := by
  cases hends with
  | closed hcl =>
    cases hst : s.state with
    | receiveHave =>
      rw [Progress, hst] at h
      obtain ⟨rfl, rfl, -⟩ := h
      exact Or.inl ⟨rfl, rfl⟩
    | receivePreSyncOrDone =>
      rw [Progress, hst] at h
      obtain ⟨remote, rfl, -, -, ⟨rfl, -⟩, -⟩ := h
      exact Or.inr (Or.inl ⟨rfl, by simp⟩)
    | _ => simp [closed, hst] at hcl
  | finishEnded hst hsent hrecv =>
    rw [Progress, hst, hsent, hrecv] at h
    obtain ⟨remote, size, rows, ⟨announced, raws, rfl, -⟩, -, -, hsent⟩ := h
    obtain ⟨hdone, hlen⟩ := hsent.done_mem
    exact Or.inr (Or.inr ⟨by simp, hlen, hdone, by simp⟩)

end Peer

/-- A session goes on by itself. Sending never blocks. A stream ends when the remote has returned
and nothing is left in the queue. -/
inductive Link.Advance (peers : Side → Peer V E L TP ε) (link : Link V E L ε) :
    Link V E L ε → Prop
  | quiet (x : Side) {s : Session V E L ε}
      (step : Sync.Step (peers x) (link.session x) .quiet s) :
      Advance peers link ⟨update link.session x s, link.queue⟩
  | sends (x : Side) {s : Session V E L ε} {message : LogSyncMessage L}
      (step : Sync.Step (peers x) (link.session x) (.sends message) s) :
      Advance peers link ⟨update link.session x s,
        update link.queue x.other (link.queue x.other ++ [message])⟩
  | receives (x : Side) {s : Session V E L ε} {message : LogSyncMessage L}
      {rest : List (LogSyncMessage L)} (queue : link.queue x = message :: rest)
      (step : Sync.Step (peers x) (link.session x) (.receives (.ok message)) s) :
      Advance peers link ⟨update link.session x s, update link.queue x rest⟩
  | ends (x : Side) {s : Session V E L ε} (queue : link.queue x = [])
      (returned : ¬(link.session x.other).Running)
      (step : Sync.Step (peers x) (link.session x) .ends s) :
      Advance peers link ⟨update link.session x s, link.queue⟩

namespace Link

variable {peers : Side → Peer V E L TP ε} {link link' : Link V E L ε} {x : Side}

theorem waiting_of_running (hstuck : ∀ link', ¬Advance peers link link')
    (hrun : (link.session x).Running) : link.queue x = [] ∧ (link.session x.other).Running ∧
      ∃ s', Sync.Step (peers x) (link.session x) .ends s' := by
  obtain ⟨label, c, hne, hnext⟩ : ∃ label c, label ≠ .interrupts ∧
    Next (peers x) true (link.session x, (link.queue x).map .ok) label c := exists_next hrun
  generalize hq : (link.queue x).map (Except.ok : _ → Item L) = items at hnext
  cases hnext with
  | quiet step => exact absurd (.quiet x step) (hstuck _)
  | sends step => exact absurd (.sends x step) (hstuck _)
  | receives step =>
    obtain ⟨message, rest, hqueue, rfl, rfl⟩ := map_eq_cons_iff.mp hq
    exact absurd (.receives x hqueue step) (hstuck _)
  | ends step =>
    have hnil := map_eq_nil_iff.mp hq
    exact ⟨hnil, by_contra fun hret => hstuck _ (.ends x hnil hret step), _, step⟩
  | interrupts => exact absurd rfl hne

theorem Reached.returned_of_stuck (h : link.Reached peers)
    (hstuck : ∀ link', ¬Advance peers link link') (x : Side) : ¬(link.session x).Running := by
  intro hrun
  obtain ⟨items, messages, hhist, hchan⟩ := h.histories
  -- whoever waits has received all that the other one has sent
  have hwaits : ∀ {x}, (link.session x).Running →
      items x = (messages x.other).map .ok ∧ Waits (items x) (messages x) := by
    intro x hrun
    obtain ⟨hq, -, s', hends⟩ := waiting_of_running hstuck hrun
    obtain ⟨ended, htr, -⟩ := hhist x
    have hall := hchan x
    rw [hq, map_nil, append_nil] at hall
    exact ⟨hall, (progress_of_trace htr).waits hends⟩
  obtain ⟨hall, hwait⟩ := hwaits hrun
  obtain ⟨hall', hwait'⟩ := hwaits (waiting_of_running hstuck hrun).2.1
  rw [Waits, hall, length_map] at hwait
  rw [Waits, hall', length_map, x.other_other] at hwait'
  grind

/-- A message weighs less in the queue than with its sender. -/
def rank (link : Link V E L ε) : Nat ×ₗ Nat :=
  toLex ((link.session .a).state.phase + (link.session .b).state.phase,
    2 * ((link.session .a).pending + (link.session .b).pending) +
      ((link.queue .a).length + (link.queue .b).length))

omit [DecidableEq L] in
theorem rank_update_lt {s : Session V E L ε} {items items' : List (Item L)}
    {queue : Side → List (LogSyncMessage L)}
    (h : Sync.rank (s, items') < Sync.rank (link.session x, items))
    (hq : (queue .a).length + (queue .b).length + 2 * items.length ≤
      (link.queue .a).length + (link.queue .b).length + 2 * items'.length + 1) :
    rank ⟨update link.session x s, queue⟩ < link.rank := by
  rw [Sync.rank, Sync.rank, Prod.Lex.toLex_lt_toLex] at h
  rw [rank, rank, Prod.Lex.toLex_lt_toLex]
  cases x <;> grind

theorem Step.rank_lt (h : Link.Step peers link link') : link'.rank < link.rank := by
  cases h with
  | quiet x step =>
    exact rank_update_lt (rank_next (.quiet step : Next _ false (_, []) _ _)) (by omega)
  | sends x step =>
    apply rank_update_lt (rank_next (.sends step : Next _ false (_, []) _ _))
    cases x <;> grind [Side.other]
  | receives x hq step =>
    apply rank_update_lt (rank_next (.receives step : Next _ false (_, [_]) _ _))
    cases x <;> grind
  | ends x step =>
    exact rank_update_lt (rank_next (.ends step rfl : Next _ true (_, []) _ _)) (by omega)
  | interrupts x step =>
    exact rank_update_lt (rank_next (.interrupts step : Next _ false (_, []) _ _)) (by omega)

/-- Both sessions return, in whichever order they go on and wherever their streams end or fail;
until then one of them can go on by itself. -/
theorem inevitably_returned (peers : Side → Peer V E L TP ε) :
    Inevitable (Link.Step peers) (Advance peers) (fun link => ∀ x, ¬(link.session x).Running)
      (Link.init peers) := by
  apply Inevitable.of_wellFounded (InvImage.wf rank wellFounded_lt) (Reached peers)
  · exact fun link link' h hstep => ⟨h.step hstep, hstep.rank_lt⟩
  · intro link h
    by_cases hstuck : ∃ link', Advance peers link link'
    · exact Or.inr hstuck
    · exact Or.inl (h.returned_of_stuck (not_exists.mp hstuck))
  · exact .init

end Link

end P2Panda.Sync
