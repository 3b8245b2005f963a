import Mathlib.Data.Prod.Lex
import P2Panda.Library.Inevitable
import P2Panda.Sync.LogSync

/-!
# A session returns

Every step moves a session to a later state, sends one of its operations, or takes an item. A
session not waiting for an item of an open stream can always take one.
-/

namespace P2Panda.Sync

open P2Panda.Library P2Panda.Store Session Peer

variable {V E L TP ε : Type}

abbrev Config (V E L ε : Type) := Session V E L ε × List (Item L)

/-- The steps of a session on a stream, which ends after its items or stays open. -/
inductive Next [DecidableEq L] (p : Peer V E L TP ε) (ended : Bool) :
    Config V E L ε → Label L → Config V E L ε → Prop
  | quiet {s s' : Session V E L ε} {rest : List (Item L)} (step : Step p s .quiet s') :
      Next p ended (s, rest) .quiet (s', rest)
  | sends {s s' : Session V E L ε} {rest : List (Item L)} {message : LogSyncMessage L}
      (step : Step p s (.sends message) s') : Next p ended (s, rest) (.sends message) (s', rest)
  | receives {s s' : Session V E L ε} {rest : List (Item L)} {item : Item L}
      (step : Step p s (.receives item) s') :
      Next p ended (s, item :: rest) (.receives item) (s', rest)
  | ends {s s' : Session V E L ε} (step : Step p s .ends s') (closes : ended = true) :
      Next p ended (s, []) .ends (s', [])
  | interrupts {s s' : Session V E L ε} {rest : List (Item L)} (step : Step p s .interrupts s') :
      Next p ended (s, rest) .interrupts (s', rest)

def State.phase : State V L ε → Nat
  | .start => 7
  | .sendHave => 6
  | .receiveHave _ => 5
  | .sendPreSync _ => 4
  | .receivePreSyncOrDone _ _ _ => 3
  | .sync _ _ => 2
  | .exchange _ _ => 1
  | .finish _ => 0
  | .failed _ => 0

def Session.pending (s : Session V E L ε) : Nat :=
  match s.state with
  | .exchange operations _ => operations.length + if s.syncDoneSent then 0 else 1
  | _ => 0

def rank (c : Config V E L ε) : Nat ×ₗ Nat := toLex (c.1.state.phase, c.1.pending + c.2.length)

variable {c c' : Config V E L ε}

theorem rank_lt_of_phase (h : c'.1.state.phase < c.1.state.phase) :
    rank c' < rank c := Prod.Lex.left _ _ h

theorem rank_lt_of_pending (hphase : c'.1.state.phase = c.1.state.phase)
    (h : c'.1.pending + c'.2.length < c.1.pending + c.2.length) : rank c' < rank c := by
  unfold rank
  rw [hphase]
  exact Prod.Lex.right _ h

variable {s s' : Session V E L ε} {rest : List (Item L)}

theorem phase_pos_of_running (h : s.Running) : 0 < s.state.phase := by
  unfold Running at h
  generalize s.state = state at h ⊢
  cases state with
  | finish => exact h.elim
  | failed => exact h.elim
  | _ => exact Nat.succ_pos _

theorem rank_fail (h : s.Running) (error : LogSyncError ε) (rest' : List (Item L)) :
    rank (s.fail error, rest') < rank (s, rest) :=
  rank_lt_of_phase (phase_pos_of_running h)

theorem rank_finish {operations : List (OperationRow V L)} {metrics : LogSyncMetrics}
    (h : s.state = .exchange operations metrics) (rest' : List (Item L)) :
    rank (s.goto (.finish metrics), rest') < rank (s, rest) := by
  apply rank_lt_of_phase
  rw [h]
  exact Nat.zero_lt_one

variable [DecidableEq L] {p : Peer V E L TP ε} {ended : Bool}

theorem rank_send {message : Option (LogSyncMessage L)}
    (h : p.send s = some (.ok (s', message))) : rank (s', rest) < rank (s, rest) := by
  obtain ⟨state, received, sent, dedup, events⟩ := s
  cases state with
  | start =>
    cases h
    exact rank_lt_of_phase (Nat.lt_succ_self _)
  | sendHave =>
    cases h
    exact rank_lt_of_phase (Nat.lt_succ_self _)
  | receiveHave => cases h
  | sendPreSync remoteNeeds =>
    have hphase : s'.state.phase = 3 := by grind [send, goto, State.phase]
    apply rank_lt_of_phase
    rw [hphase]
    exact Nat.lt_succ_self _
  | receivePreSyncOrDone => cases h
  | sync =>
    cases h
    exact rank_lt_of_phase (Nat.lt_succ_self _)
  | exchange operations metrics =>
    cases sent with
    | true => cases h
    | false =>
      cases operations with
      | nil =>
        cases h
        exact rank_lt_of_pending rfl (by simp [pending])
      | cons row operations =>
        cases h
        exact rank_lt_of_pending rfl (by simp [pending])
  | finish => cases h
  | failed => cases h

theorem rank_receive {item : Item L} (h : p.receive s item = some (.ok s')) :
    rank (s', rest) < rank (s, item :: rest) := by
  have hcases : s'.state.phase < s.state.phase ∨
      s'.state.phase = s.state.phase ∧ s'.pending = s.pending := by
    grind [receive, goto, metricsExchanged, State.phase, pending]
  rcases hcases with hphase | ⟨hphase, hpend⟩
  · exact rank_lt_of_phase hphase
  · apply rank_lt_of_pending hphase
    rw [hpend]
    exact Nat.lt_succ_self _

theorem rank_next {label : Label L} (h : Next p ended c label c') : rank c' < rank c := by
  cases h with
  | quiet step =>
    cases step with
    | advance hsend => exact rank_send hsend
    | sendError hsend => exact rank_fail (running_of_send hsend) _ _
    | finish state => exact rank_finish state _
  | sends step =>
    cases step with
    | send hsend => exact rank_send hsend
  | receives step =>
    cases step with
    | receive hrcv => exact rank_receive hrcv
    | receiveError hrcv => exact rank_fail (running_of_receive hrcv) _ _
  | ends step =>
    cases step with
    | closed hcl => exact rank_fail (running_of_closed hcl) _ _
    | finishEnded state => exact rank_finish state _
  | interrupts step =>
    cases step with
    | interrupted error running => exact rank_fail running _ _

theorem exists_next_of_send (h : (p.send s).isSome) :
    ∃ label c', label ≠ .interrupts ∧ Next p ended (s, rest) label c' := by
  obtain ⟨result, hsend⟩ := Option.isSome_iff_exists.mp h
  cases result with
  | error error => exact ⟨.quiet, _, nofun, .quiet (.sendError hsend)⟩
  | ok result =>
    obtain ⟨s', message⟩ := result
    cases message with
    | none => exact ⟨.quiet, _, nofun, .quiet (.advance hsend)⟩
    | some message => exact ⟨.sends message, _, nofun, .sends (.send hsend)⟩

theorem exists_next_of_item {item : Item L} (h : (p.receive s item).isSome) :
    ∃ label c', label ≠ .interrupts ∧ Next p ended (s, item :: rest) label c' := by
  obtain ⟨result, hres⟩ := Option.isSome_iff_exists.mp h
  cases result with
  | error error => exact ⟨.receives item, _, nofun, .receives (.receiveError hres)⟩
  | ok s' => exact ⟨.receives item, _, nofun, .receives (.receive hres)⟩

theorem enabled_of_running (p : Peer V E L TP ε) (h : s.Running) :
    (p.send s).isSome ∨ ((∀ item, (p.receive s item).isSome) ∧ ∃ s', Step p s .ends s') ∨
      ∃ s', Step p s .quiet s' := by
  cases hst : s.state with
  | receiveHave heights =>
    have hcl : closed s = some .unexpectedStreamClosure := by grind [closed]
    exact Or.inr (Or.inl ⟨by grind [receive], _, .closed hcl⟩)
  | receivePreSyncOrDone needs operations bytes =>
    have hcl : closed s = some .unexpectedStreamClosure := by grind [closed]
    exact Or.inr (Or.inl ⟨by grind [receive], _, .closed hcl⟩)
  | exchange operations metrics =>
    cases hsent : s.syncDoneSent with
    | false => exact Or.inl (by grind [send])
    | true =>
      cases hrecv : s.syncDoneReceived with
      | false =>
        exact Or.inr (Or.inl ⟨by grind [receive], _, .finishEnded hst hsent hrecv⟩)
      | true => exact Or.inr (Or.inr ⟨_, .finish hst hsent hrecv⟩)
  | finish metrics =>
    rw [Running, hst] at h
    exact h.elim
  | failed error =>
    rw [Running, hst] at h
    exact h.elim
  | _ => exact Or.inl (by grind [send])

theorem exists_next (hrunning : s.Running) :
    ∃ label c', label ≠ .interrupts ∧ Next p true (s, rest) label c' := by
  rcases enabled_of_running p hrunning with hsend | ⟨hrcv, _, hends⟩ | ⟨_, hquiet⟩
  · exact exists_next_of_send hsend
  · cases rest with
    | nil => exact ⟨.ends, _, nofun, .ends hends rfl⟩
    | cons item rest => exact exists_next_of_item (hrcv item)
  · exact ⟨.quiet, _, nofun, .quiet hquiet⟩

end P2Panda.Sync
