import P2Panda.Encryption.MessageScheme.Dcgka

/-!
# Group membership with acknowledgements

For every addition and removal it is kept who has acknowledged it. A member's view of the group
lacks additions, and has members removed, which they have not acknowledged.
-/

namespace P2Panda.Encryption.MessageScheme

open P2Panda.Library

structure MemberInfo (ID OP : Type) where
  id : ID
  actor : Option ID
  removeMessages : List OP
  acks : Finset ID

structure RemoveInfo (ID : Type) where
  /-- Users removed by this message, including those who were removed previously. -/
  removed : Finset ID
  acks : Finset ID

inductive TestAckedGroupError (ID OP : Type) where
  | unrecognizedMember (id : ID)
  | alreadyAcked
  | ackingOwnRemoval
  | unknownMessage (messageId : OP)

namespace AckedTestDgm

structure State (ID OP : Type) where
  myId : ID
  members : Finset ID
  removedMembers : Finset ID
  infos : HashMap ID (MemberInfo ID OP)
  removeInfos : HashMap OP (RemoveInfo ID)
  addsByMsg : HashMap OP ID
  removesByMsg : Finset OP

variable {ID OP : Type} [DecidableEq ID] [DecidableEq OP]

def init (myId : ID) : State ID OP := ⟨myId, ∅, ∅, ∅, ∅, ∅, ∅⟩

def expectAll {K V : Type} [DecidableEq K] (message : String) (m : HashMap K V) (s : Finset K) :
    Outcome (TestAckedGroupError ID OP) Unit :=
  if ∀ k ∈ s, (m.lookup k).isSome then .ok () else .panic message

def fromWelcome (y welcome : State ID OP) : Outcome (TestAckedGroupError ID OP) (State ID OP) :=
  .ok { y with
    members := y.members ∪ welcome.members
    removedMembers := y.removedMembers ∪ welcome.removedMembers
    infos := y.infos.extend welcome.infos
    removeInfos := y.removeInfos.extend welcome.removeInfos
    addsByMsg := y.addsByMsg.extend welcome.addsByMsg
    removesByMsg := y.removesByMsg ∪ welcome.removesByMsg }

def create (myId : ID) (initialMembers : List ID) :
    Outcome (TestAckedGroupError ID OP) (State ID OP) :=
  let initialMembers :=
    if myId ∈ initialMembers then initialMembers else initialMembers ++ [myId]
  .ok { init myId with
    members := initialMembers.toFinset
    infos := initialMembers.foldl
      (fun infos member => infos.insert member ⟨member, none, [], initialMembers.toFinset⟩) ∅ }

/-- Whoever has acknowledged a message is followed by the member they add, who learns it from the
welcome. -/
def followAcks (adder added : ID) (acks : Finset ID) : Finset ID :=
  if adder ∈ acks then insert added acks else acks

def addMember (y : State ID OP) (adder added : ID) :
    Outcome (TestAckedGroupError ID OP) (State ID OP) :=
  let addedInfo : MemberInfo ID OP := ⟨added, some adder, [], {adder, added, y.myId}⟩
  -- is the adder still a member of the group itself?
  if adder ∈ y.members then
    let infos := y.infos.insert added addedInfo
    .ok { y with members := insert added y.members, infos := infos }
  else
    -- All the remove messages which removed the adder get credit for removing the added member
    -- as well.
    match y.infos.lookup adder with
    | none => .err (.unrecognizedMember adder)
    | some actorInfo => do
      expectAll "remove_infos values should be consistent with remove_messages" y.removeInfos
        actorInfo.removeMessages.toFinset
      let removeInfos := y.removeInfos.modifyAll actorInfo.removeMessages.toFinset
        fun info => { info with removed := insert added info.removed }
      let infos := y.infos.insert added
        { addedInfo with removeMessages := actorInfo.removeMessages }
      return { y with
        removeInfos := removeInfos
        removedMembers := insert added y.removedMembers
        infos := infos }

def add (y : State ID OP) (adder added : ID) (messageId : OP) :
    Outcome (TestAckedGroupError ID OP) (State ID OP) := do
  let y ← addMember y adder added
  expectAll "infos values should be consistent with members keys" y.infos y.members
  expectAll "infos values should be consistent with removed_members keys" y.infos
    y.removedMembers
  expectAll "remove_infos values should be consistent with removes_by_msg keys" y.removeInfos
    y.removesByMsg
  let infos := y.infos.modifyAll (y.members ∪ y.removedMembers) fun info =>
    { info with acks := followAcks adder added info.acks }
  let removeInfos := y.removeInfos.modifyAll y.removesByMsg fun info =>
    { info with acks := followAcks adder added info.acks }
  return { y with
    infos := infos
    removeInfos := removeInfos
    addsByMsg := y.addsByMsg.insert messageId added }

/-- Members who were added by someone removed, in a message the remover had not acknowledged. -/
def addedByRemoved (y : State ID OP) (remover : ID) (removed : Finset ID) : Finset ID :=
  y.members.filter fun member => ((y.infos.lookup member).any fun info =>
    (info.actor.any fun actor => decide (actor ∈ removed)) && decide (remover ∉ info.acks)) = true

def removedAgain (y : State ID OP) (remover : ID) (messageId : OP) (removed : Finset ID) :
    Finset ID :=
  y.removedMembers.filter fun member => ((y.infos.lookup member).any fun info =>
    (info.actor.any fun actor => decide (actor ∈ removed)) && decide (remover ∈ info.acks) &&
      decide (messageId ∈ info.removeMessages)) = true

/-- The state after one round of the search for additions by removed members, and whether it found
any. The order of the loop changes the number of rounds and not where it ends, so a round is taken
as a whole. -/
def removeRound (y : State ID OP) (remover : ID) (messageId : OP) :
    Outcome (TestAckedGroupError ID OP) (State ID OP × Bool) := do
  let removeInfo ← Outcome.expect "infos values should be consistent with members keys"
    (y.removeInfos.lookup messageId)
  expectAll "infos values should be consistent with members keys" y.infos y.members
  let found := addedByRemoved y remover removeInfo.removed
  let infos := y.infos.modifyAll found fun info =>
    { info with removeMessages := info.removeMessages ++ [messageId] }
  let removed := removeInfo.removed ∪ found
  let y := { y with
    members := y.members \ found
    removedMembers := y.removedMembers ∪ found
    infos := infos
    removeInfos := y.removeInfos.insert messageId { removeInfo with removed := removed } }
  expectAll "infos values should be consistent with members keys" y.infos y.removedMembers
  -- What is found here is found again in every round that follows: the loop does not end.
  if removedAgain y remover messageId removed ≠ ∅ then .panic "the loop does not end"
  else return (y, !decide (found = ∅))

def removeRounds (remover : ID) (messageId : OP) :
    Nat → State ID OP → Outcome (TestAckedGroupError ID OP) (State ID OP)
  | 0, y => .ok y
  | rounds + 1, y => do
    let (y, madeProgress) ← removeRound y remover messageId
    if madeProgress then removeRounds remover messageId rounds y else return y

def markRemoved (y : State ID OP) (removed : ID) (messageId : OP) :
    Outcome (TestAckedGroupError ID OP) (State ID OP) :=
  let mark (info : MemberInfo ID OP) :=
    y.infos.insert removed { info with removeMessages := info.removeMessages ++ [messageId] }
  if removed ∈ y.members then do
    let info ← Outcome.expect "infos values should be consistent with members keys"
      (y.infos.lookup removed)
    return { y with
      members := y.members.erase removed
      removedMembers := insert removed y.removedMembers
      infos := mark info }
  else if removed ∈ y.removedMembers then
    match y.infos.lookup removed with
    | some info => return { y with infos := mark info }
    | none => .err (.unrecognizedMember removed)
  else .err (.unrecognizedMember removed)

def remove (y : State ID OP) (remover removed : ID) (messageId : OP) :
    Outcome (TestAckedGroupError ID OP) (State ID OP) := do
  let y ← markRemoved y removed messageId
  let removeInfo : RemoveInfo ID := ⟨{removed}, {remover, y.myId}⟩
  let y := { y with
    removesByMsg := insert messageId y.removesByMsg
    removeInfos := y.removeInfos.insert messageId removeInfo }
  removeRounds remover messageId (y.members.card + 1) y

def anyAcked (y : State ID OP) (info : MemberInfo ID OP) (viewer : ID) : Bool :=
  info.removeMessages.any fun messageId =>
    (y.removeInfos.lookup messageId).any fun removeInfo => decide (viewer ∈ removeInfo.acks)

/-- The members whose additions the viewer has acknowledged, and none of their removals. -/
def membersView (y : State ID OP) (viewer : ID) :
    Outcome (TestAckedGroupError ID OP) (Finset ID) :=
  if viewer = y.myId then .ok y.members
  else do
    expectAll "infos values should be consistent with members keys" y.infos y.members
    expectAll "infos values should be consistent with removed_members keys" y.infos
      y.removedMembers
    if ∀ member ∈ y.removedMembers, ((y.infos.lookup member).all fun info =>
        info.removeMessages.all fun messageId => (y.removeInfos.lookup messageId).isSome) then
      -- include current members whose add was acked by viewer
      let view := y.members.filter fun member =>
        ((y.infos.lookup member).any fun info => decide (viewer ∈ info.acks)) = true
      -- also include removed members, none of whose removes have been acked by viewer
      return view ∪ y.removedMembers.filter fun member => ((y.infos.lookup member).any fun info =>
        !anyAcked y info viewer && decide (viewer ∈ info.acks)) = true
    else .panic "remove_infos values should be consistent with remove_messages"

def ack (y : State ID OP) (acker : ID) (messageId : OP) :
    Outcome (TestAckedGroupError ID OP) (State ID OP) :=
  match y.addsByMsg.lookup messageId with
  | some added => do
    let info ← Outcome.expect "adds_by_msg values should be consistent with members keys"
      (y.infos.lookup added)
    return { y with infos := y.infos.insert added { info with acks := insert acker info.acks } }
  | none =>
    match y.removeInfos.lookup messageId with
    | some info =>
      if acker ∈ info.acks then .err .alreadyAcked
      else if acker ∈ info.removed then .err .ackingOwnRemoval
      else
        let removeInfos := y.removeInfos.insert messageId
          { info with acks := insert acker info.acks }
        return { y with removeInfos := removeInfos }
    | none => .err (.unknownMessage messageId)

def isAdd (y : State ID OP) (messageId : OP) : Bool := (y.addsByMsg.lookup messageId).isSome

def isRemove (y : State ID OP) (messageId : OP) : Bool := decide (messageId ∈ y.removesByMsg)

instance : AckedGroupMembership (State ID OP) ID OP (TestAckedGroupError ID OP) where
  create := create
  fromWelcome := fromWelcome
  add := add
  remove := remove
  ack := ack
  membersView := membersView
  isAdd := isAdd
  isRemove := isRemove

end AckedTestDgm

end P2Panda.Encryption.MessageScheme
