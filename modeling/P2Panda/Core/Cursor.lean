import P2Panda.Core.Logs

/-!
# Cursors

A cursor tracks log heights and never moves backwards.
-/

namespace P2Panda.Core

open P2Panda.Library HashMap

variable {A L : Type} [DecidableEq A] [DecidableEq L] {author : A} {logId : L} {seqNum : SeqNum}
  {order : LogOrder A L}

structure Cursor (A L : Type) where
  name : String
  state : LogHeights A L

/-- `entry(author).or_default().insert(log_id, log_height)`. -/
def insertHeight (heights : LogHeights A L) (author : A) (logId : L) (logHeight : SeqNum) :
    LogHeights A L :=
  HashMap.andModifyOrInsert heights author (fun logs => logs.insert logId logHeight)
    ((∅ : HashMap L SeqNum).insert logId logHeight)

theorem lookupLog_insertHeight (heights : LogHeights A L) (author author' : A) (logId logId' : L)
    (logHeight : SeqNum) :
    lookupLog (insertHeight heights author logId logHeight) author' logId' =
      if author' = author ∧ logId' = logId then some logHeight
      else lookupLog heights author' logId' := by
  unfold lookupLog insertHeight
  rw [lookup_andModifyOrInsert]
  by_cases hauthor : author' = author
  · subst hauthor
    cases heights.lookup author' with
    | none => simp [lookup_insert_ite]
    | some logs => simp [lookup_insert_ite]
  · rw [if_neg hauthor, if_neg (fun h => hauthor h.1)]

namespace Cursor

def logHeight (self : Cursor A L) (author : A) (logId : L) : Option SeqNum :=
  lookupLog self.state author logId

def compare (order : LogOrder A L) (self : Cursor A L) (other : LogHeights A L) : LogRanges A L :=
  Core.compare order other self.state

def advance (self : Cursor A L) (author : A) (logId : L) (logHeight : SeqNum) : Cursor A L :=
  -- Ignore if given log-height is lower-or-equal than current state.
  if (self.logHeight author logId).any (logHeight ≤ ·) then self
  else ⟨self.name, insertHeight self.state author logId logHeight⟩

theorem logHeight_advance (self : Cursor A L) (author author' : A) (logId logId' : L)
    (logHeight : SeqNum) :
    (self.advance author logId logHeight).logHeight author' logId' =
      if author' = author ∧ logId' = logId then
        some ((self.logHeight author logId).elim logHeight
          fun current => if logHeight ≤ current then current else logHeight)
      else self.logHeight author' logId' := by
  unfold advance
  split_ifs with hbeh hlog hlog
  · obtain ⟨rfl, rfl⟩ := hlog
    cases hcur : self.logHeight author' logId' with
    | none => simp [hcur] at hbeh
    | some current =>
      rw [hcur, Option.any_some, decide_eq_true_iff] at hbeh
      rw [Option.elim_some, if_pos hbeh]
  · rfl
  · rw [Cursor.logHeight, lookupLog_insertHeight, if_pos hlog]
    cases hcur : self.logHeight author logId with
    | none => rfl
    | some current =>
      rw [hcur, Option.any_some, decide_eq_true_iff] at hbeh
      rw [Option.elim_some, if_neg hbeh]
  · rw [Cursor.logHeight, lookupLog_insertHeight, if_neg hlog]
    rfl

def advanceAll (order : LogOrder A L) (self : Cursor A L) (ranges : LogRanges A L) : Cursor A L :=
  (HashMap.entries order.author ranges).foldl (fun cursor author =>
    (HashMap.entries order.log author.2).foldl (fun cursor log =>
      log.2.2.elim cursor (cursor.advance author.1 log.1)) cursor) self

/-- A log has got as far as a sequence number. -/
def Reaches (self : Cursor A L) (author : A) (logId : L) (seqNum : SeqNum) : Prop :=
  ∃ height, self.logHeight author logId = some height ∧ seqNum ≤ height

variable {self : Cursor A L}

theorem reaches_advance {author author' : A} {logId logId' : L} {logHeight seqNum : SeqNum} :
    (self.advance author logId logHeight).Reaches author' logId' seqNum ↔
      self.Reaches author' logId' seqNum ∨
        author' = author ∧ logId' = logId ∧ seqNum ≤ logHeight := by
  unfold Reaches
  rw [logHeight_advance]
  by_cases hlog : author' = author ∧ logId' = logId
  · obtain ⟨rfl, rfl⟩ := hlog
    rw [if_pos ⟨rfl, rfl⟩]
    cases self.logHeight author' logId' with
    | none => simp
    | some current =>
      simp only [Option.elim_some, Option.some.injEq, exists_eq_left', true_and]
      split
      · rename_i hle
        exact ⟨Or.inl, fun h => h.elim id fun h => UInt32.le_trans h hle⟩
      · rename_i hlt
        have hle := UInt32.le_of_lt (UInt32.not_le.mp hlt)
        exact ⟨Or.inr, fun h => h.elim (fun h => UInt32.le_trans h hle) id⟩
  · rw [if_neg hlog]
    constructor
    · exact Or.inl
    · rintro (h | ⟨hauthor, hid, -⟩)
      · exact h
      · exact absurd ⟨hauthor, hid⟩ hlog

theorem reaches_foldl {α : Type} {f : Cursor A L → α → Cursor A L} (adds : α → Prop)
    (hf : ∀ cursor a, (f cursor a).Reaches author logId seqNum ↔
      cursor.Reaches author logId seqNum ∨ adds a) (l : List α) (self : Cursor A L) :
    (l.foldl f self).Reaches author logId seqNum ↔
      self.Reaches author logId seqNum ∨ ∃ a ∈ l, adds a := by
  induction l generalizing self with
  | nil => simp
  | cons a l ih => rw [List.foldl_cons, ih, hf, List.exists_mem_cons_iff, or_assoc]

theorem reaches_advanceAll {ranges : LogRanges A L} :
    (self.advanceAll order ranges).Reaches author logId seqNum ↔
      self.Reaches author logId seqNum ∨
        ∃ after height, lookupLog ranges author logId = some (after, some height) ∧
          seqNum ≤ height := by
  unfold advanceAll
  rw [reaches_foldl fun entry => ∃ log ∈ entries order.log entry.2,
    author = entry.1 ∧ logId = log.1 ∧ ∃ height, log.2.2 = some height ∧ seqNum ≤ height]
  · refine or_congr_right ⟨?_, ?_⟩
    · rintro ⟨⟨author', logs⟩, hlogs, ⟨logId', after, last⟩, hlog, rfl, rfl, height, rfl, hle⟩
      rw [mem_entries] at hlogs hlog
      exact ⟨after, height, by rw [lookupLog, hlogs]; exact hlog, hle⟩
    · rintro ⟨after, height, hlook, hle⟩
      obtain ⟨logs, hlogs, hlog⟩ := Option.bind_eq_some_iff.mp hlook
      exact ⟨(author, logs), mem_entries.mpr hlogs, (logId, after, some height),
        mem_entries.mpr hlog, rfl, rfl, height, rfl, hle⟩
  · intro cursor entry
    apply reaches_foldl
    rintro cursor ⟨logId', after, last⟩
    cases last with
    | none => simp
    | some height => simp [reaches_advance]

theorem logHeight_eq {height : Option SeqNum}
    (h : ∀ seqNum, self.Reaches author logId seqNum ↔ ∃ n, height = some n ∧ seqNum ≤ n) :
    self.logHeight author logId = height := by
  cases hself : self.logHeight author logId with
  | none =>
    cases height with
    | none => rfl
    | some n =>
      obtain ⟨n', hn', -⟩ := (h n).mpr ⟨n, rfl, UInt32.le_refl n⟩
      cases hself.symm.trans hn'
  | some m =>
    obtain ⟨n, rfl, hle⟩ := (h m).mp ⟨m, hself, UInt32.le_refl m⟩
    obtain ⟨m', hm', hle'⟩ := (h n).mpr ⟨n, rfl, UInt32.le_refl n⟩
    cases hself.symm.trans hm'
    rw [UInt32.le_antisymm hle hle']

end Cursor

/-- An entry of a log is in its range. -/
def Covers (ranges : LogRanges A L) (author : A) (logId : L) (seqNum : SeqNum) : Prop :=
  ∃ range, lookupLog ranges author logId = some range ∧
    (∀ after, range.1 = some after → after < seqNum) ∧
    ∀ height, range.2 = some height → seqNum ≤ height

theorem covers_compare {localHeights remoteHeights : LogHeights A L} :
    Covers (compare order localHeights remoteHeights) author logId seqNum ↔
      (∃ height, lookupLog localHeights author logId = some height ∧ seqNum ≤ height) ∧
        ∀ height, lookupLog remoteHeights author logId = some height → height < seqNum := by
  unfold Covers
  rw [lookupLog_compare]
  cases lookupLog localHeights author logId with
  | none => simp [missing]
  | some height =>
    cases lookupLog remoteHeights author logId with
    | none => simp [missing]
    | some remote =>
      simp only [missing, Option.some.injEq, forall_eq', exists_eq_left']
      split
      · simp [and_comm]
      · rename_i hbeh
        constructor
        · rintro ⟨range, hnone, -⟩
          cases hnone
        · rintro ⟨hle, hlt⟩
          exact absurd (UInt32.lt_of_lt_of_le hlt hle) hbeh

def maxHeight : Option SeqNum → Option SeqNum → Option SeqNum
  | none, height => height
  | height, none => height
  | some a, some b => if a ≤ b then some b else some a

theorem maxHeight_comm (a b : Option SeqNum) : maxHeight a b = maxHeight b a := by
  cases a with
  | none => cases b <;> rfl
  | some a =>
    cases b with
    | none => rfl
    | some b =>
      change (if a ≤ b then some b else some a) = if b ≤ a then some a else some b
      split
      · rename_i hle
        split
        · rename_i hle'
          rw [UInt32.le_antisymm hle hle']
        · rfl
      · rename_i hlt
        rw [if_pos (UInt32.le_of_lt (UInt32.not_le.mp hlt))]

/-- Who takes over the ranges which another peer has ahead gets as far as the higher of both. -/
theorem Cursor.logHeight_advanceAll_compare (order order' : LogOrder A L) (self : Cursor A L)
    (other : LogHeights A L) (author : A) (logId : L) :
    (self.advanceAll order (self.compare order' other)).logHeight author logId =
      maxHeight (lookupLog self.state author logId) (lookupLog other author logId) := by
  apply logHeight_eq
  intro seqNum
  rw [reaches_advanceAll, Cursor.compare, lookupLog_compare, Reaches, Cursor.logHeight]
  cases lookupLog self.state author logId with
  | none =>
    cases lookupLog other author logId with
    | none => simp [missing, maxHeight]
    | some theirs => simp [missing, maxHeight]
  | some ours =>
    cases lookupLog other author logId with
    | none => simp [missing, maxHeight]
    | some theirs =>
      simp only [missing, maxHeight, Option.some.injEq, exists_eq_left']
      split
      · rename_i hlt
        rw [if_pos (UInt32.le_of_lt hlt)]
        simp only [Option.some.injEq, Prod.mk.injEq, exists_eq_left', existsAndEq, true_and]
        exact ⟨fun h => h.elim (fun h => UInt32.le_trans h (UInt32.le_of_lt hlt)) id, Or.inr⟩
      · rename_i hge
        have hle := UInt32.not_lt.mp hge
        split
        · rename_i hle'
          simp [UInt32.le_antisymm hle hle']
        · simp

/-- The difference of two height maps covers exactly what one has and the other has not; after both
have taken over the ranges of the other, both are at the higher height. -/
theorem compare_exact (order order' : LogOrder A L) (name name' : String)
    (localHeights remoteHeights : LogHeights A L) (author : A) (logId : L) :
    (∀ seqNum, Covers (compare order localHeights remoteHeights) author logId seqNum ↔
      (∃ height, lookupLog localHeights author logId = some height ∧ seqNum ≤ height) ∧
        ∀ height, lookupLog remoteHeights author logId = some height → height < seqNum) ∧
    ((⟨name, localHeights⟩ : Cursor A L).advanceAll order
        (compare order' remoteHeights localHeights)).logHeight author logId =
      maxHeight (lookupLog localHeights author logId) (lookupLog remoteHeights author logId) ∧
    ((⟨name', remoteHeights⟩ : Cursor A L).advanceAll order'
        (compare order localHeights remoteHeights)).logHeight author logId =
      maxHeight (lookupLog localHeights author logId) (lookupLog remoteHeights author logId) := by
  refine ⟨fun seqNum => covers_compare, ?_, ?_⟩
  · exact Cursor.logHeight_advanceAll_compare order order' ⟨name, localHeights⟩ remoteHeights
      author logId
  · rw [maxHeight_comm]
    exact Cursor.logHeight_advanceAll_compare order' order ⟨name', remoteHeights⟩ localHeights
      author logId

end P2Panda.Core
