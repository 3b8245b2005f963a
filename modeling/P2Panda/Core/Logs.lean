import Mathlib.Logic.Equiv.List
import P2Panda.Core.Operation
import P2Panda.Library.HashMap

/-!
# Differences between logs

Each of two peers finds out what the other one is missing. The order in which the B-trees are walked
is a parameter, since nothing depends on it.
-/

namespace P2Panda.Core

open P2Panda.Library HashMap

variable {A L : Type} [DecidableEq A] [DecidableEq L]

abbrev Logs (A L : Type) := HashMap A (List L)

abbrev LogHeights (A L : Type) := HashMap A (HashMap L SeqNum)

/-- An exclusive "after" and an inclusive "until". -/
abbrev LogRange := Option SeqNum × Option SeqNum

abbrev LogRanges (A L : Type) := HashMap A (HashMap L LogRange)

structure LogOrder (A L : Type) where
  author : HashOrder A
  log : HashOrder L

def LogOrder.numbered : LogOrder VerifyingKey Nat where
  author := .increasing (fun key => Encodable.encode (key.bytes.toList.map UInt8.toNat)) <| by
    intro key key' heq
    have hbytes := Encodable.encode_injective heq
    rw [List.map_inj_right fun _ _ => UInt8.toNat_inj.mp] at hbytes
    cases key
    cases key'
    rw [VerifyingKey.mk.injEq]
    exact Vector.toList_inj.mp hbytes
  log := .increasing id Function.injective_id

/-- `entry(author).or_default().insert(log_id, range)`. -/
def insertRange (ranges : LogRanges A L) (author : A) (logId : L) (range : LogRange) :
    LogRanges A L :=
  HashMap.andModifyOrInsert ranges author (fun logs => logs.insert logId range)
    ((∅ : HashMap L LogRange).insert logId range)

/-- The inner loop body of `compare`. -/
def compareLog (author : A) (remoteLogs : HashMap L SeqNum) (remoteNeeds : LogRanges A L)
    (entry : L × SeqNum) : LogRanges A L :=
  match remoteLogs.lookup entry.1 with
  | none => insertRange remoteNeeds author entry.1 (none, some entry.2)
  | some remoteLogHeight =>
    if remoteLogHeight < entry.2 then
      insertRange remoteNeeds author entry.1 (some remoteLogHeight, some entry.2)
    else remoteNeeds

/-- The outer loop body of `compare`. -/
def compareAuthor (order : LogOrder A L) (remote : LogHeights A L) (remoteNeeds : LogRanges A L)
    (entry : A × HashMap L SeqNum) : LogRanges A L :=
  match remote.lookup entry.1 with
  | none =>
    let needs := (HashMap.entries order.log entry.2).foldl
      (fun needs log => needs.insert log.1 (none, some log.2)) (∅ : HashMap L LogRange)
    remoteNeeds.insert entry.1 needs
  | some remoteLogs =>
    if entry.2 = remoteLogs then remoteNeeds
    else
      (HashMap.entries order.log entry.2).foldl (compareLog entry.1 remoteLogs) remoteNeeds

def compare (order : LogOrder A L) (localHeights remoteHeights : LogHeights A L) :
    LogRanges A L :=
  (HashMap.entries order.author localHeights).foldl (compareAuthor order remoteHeights) ∅

def lookupLog {α : Type} (m : HashMap A (HashMap L α)) (author : A) (logId : L) : Option α :=
  (m.lookup author).bind fun logs => logs.lookup logId

def missing : Option SeqNum → Option SeqNum → Option LogRange
  | none, _ => none
  | some height, none => some (none, some height)
  | some height, some remote =>
    if remote < height then some (some remote, some height) else none

section Specification

theorem compareLog_eq (author : A) (remoteLogs : HashMap L SeqNum)
    (needs : LogRanges A L) (entry : L × SeqNum) :
    compareLog author remoteLogs needs entry =
      (missing (some entry.2) (remoteLogs.lookup entry.1)).elim needs
        fun range => insertRange needs author entry.1 range := by
  unfold compareLog
  cases remoteLogs.lookup entry.1 with
  | none => rfl
  | some remote =>
    dsimp only [missing]
    split
    · rfl
    · rfl

theorem lookup_insertRange (ranges : LogRanges A L) (author author' : A) (logId : L)
    (range : LogRange) :
    (insertRange ranges author logId range).lookup author' =
      if author' = author then
        some ((((ranges.lookup author).getD ∅) : HashMap L LogRange).insert logId range)
      else ranges.lookup author' := by
  rw [insertRange, lookup_andModifyOrInsert]
  cases ranges.lookup author <;> rfl

theorem lookup_foldl_compareLog (author : A) (remoteLogs : HashMap L SeqNum)
    (entries : List (L × SeqNum)) {needs needs' : LogRanges A L}
    (heq : needs.lookup author = needs'.lookup author) (author' : A) :
    (entries.foldl (compareLog author remoteLogs) needs).lookup author' =
      if author' = author then
        (entries.foldl (compareLog author remoteLogs) needs').lookup author
      else needs.lookup author' := by
  induction entries generalizing needs needs' with
  | nil =>
    split_ifs with hkey
    · rw [hkey]
      exact heq
    · rfl
  | cons entry entries ih =>
    rw [List.foldl_cons, List.foldl_cons, compareLog_eq, compareLog_eq]
    cases missing (some entry.2) (remoteLogs.lookup entry.1) with
    | none => exact ih heq
    | some range =>
      have hins : (insertRange needs author entry.1 range).lookup author =
          (insertRange needs' author entry.1 range).lookup author := by
        rw [lookup_insertRange, lookup_insertRange, if_pos rfl, if_pos rfl, heq]
      dsimp only [Option.elim]
      rw [ih hins]
      split_ifs with hkey
      · rfl
      · rw [lookup_insertRange, if_neg hkey]

theorem getD_foldl_compareLog (author : A) (remoteLogs : HashMap L SeqNum)
    (entries : List (L × SeqNum)) (needs : LogRanges A L) :
    ((entries.foldl (compareLog author remoteLogs) needs).lookup author).getD ∅ =
      entries.foldl (fun logs entry =>
        (missing (some entry.2) (remoteLogs.lookup entry.1)).elim logs
          fun range => logs.insert entry.1 range)
        ((needs.lookup author).getD (∅ : HashMap L LogRange)) := by
  induction entries generalizing needs with
  | nil => rfl
  | cons entry entries ih =>
    rw [List.foldl_cons, List.foldl_cons, ih, compareLog_eq]
    cases missing (some entry.2) (remoteLogs.lookup entry.1) with
    | none => rfl
    | some range =>
      dsimp only [Option.elim]
      rw [lookup_insertRange, if_pos rfl, Option.getD_some]

def single (author : A) (logs : Option (HashMap L LogRange)) : LogRanges A L :=
  logs.elim ∅ fun logs => (∅ : LogRanges A L).insert author logs

omit [DecidableEq L] in
theorem lookup_single (author : A) (logs : Option (HashMap L LogRange)) :
    (single author logs).lookup author = logs := by
  cases logs with
  | none => rfl
  | some logs => exact Finmap.lookup_insert _

theorem lookup_compareAuthor (order : LogOrder A L) (remote : LogHeights A L)
    (needs : LogRanges A L) (author : A) (logs : HashMap L SeqNum) (author' : A) :
    (compareAuthor order remote needs (author, logs)).lookup author' =
      if author' = author then
        (compareAuthor order remote (single author (needs.lookup author))
          (author, logs)).lookup author
      else needs.lookup author' := by
  unfold compareAuthor
  cases remote.lookup author with
  | none =>
    rw [lookup_insert_ite]
    split_ifs
    · rw [Finmap.lookup_insert]
    · rfl
  | some remoteLogs =>
    dsimp only
    split
    · split_ifs with hkey
      · rw [hkey, lookup_single]
      · rfl
    · exact lookup_foldl_compareLog author remoteLogs _ (lookup_single author _).symm author'

theorem lookupLog_compare (order : LogOrder A L) (localHeights remoteHeights : LogHeights A L)
    (author : A) (logId : L) :
    lookupLog (compare order localHeights remoteHeights) author logId =
      missing (lookupLog localHeights author logId) (lookupLog remoteHeights author logId) := by
  unfold lookupLog compare
  rw [lookup_foldl_entries
    (g := fun author logs needs => (compareAuthor order remoteHeights (single author needs)
      (author, logs)).lookup author)
    fun needs author logs author' => lookup_compareAuthor order remoteHeights needs author logs
      author']
  cases localHeights.lookup author with
  | none => rfl
  | some localLogs =>
    dsimp only [Option.elim, Option.bind_some]
    unfold compareAuthor
    cases remoteHeights.lookup author with
    | none =>
      rw [Finmap.lookup_insert, Option.bind_some, lookup_foldl_entries
        (g := fun _ height _ => some (none, some height))
        fun needs logId height logId' => lookup_insert_ite needs logId logId' _]
      cases localLogs.lookup logId with
      | none => rfl
      | some height => rfl
    | some remoteLogs =>
      dsimp only [Option.bind_some]
      split
      · rename_i heq
        rw [heq]
        cases remoteLogs.lookup logId with
        | none => rfl
        | some height => exact (if_neg (UInt32.lt_irrefl height)).symm
      · have hbind : ∀ logs : Option (HashMap L LogRange),
            (logs.bind fun logs => logs.lookup logId) = (logs.getD ∅).lookup logId := by
          intro logs
          cases logs <;> rfl
        rw [hbind, getD_foldl_compareLog, lookup_foldl_entries (g := fun logId height range =>
            (missing (some height) (remoteLogs.lookup logId)).elim range some)]
        · cases localLogs.lookup logId with
          | none => rfl
          | some height =>
            dsimp only [Option.elim]
            cases missing (some height) (remoteLogs.lookup logId) <;> rfl
        · intro logs logId height logId'
          cases missing (some height) (remoteLogs.lookup logId) with
          | none =>
            dsimp only [Option.elim]
            split_ifs with hkey
            · rw [hkey]
            · rfl
          | some range => exact lookup_insert_ite logs logId logId' range

end Specification

end P2Panda.Core
