import P2Panda.Net.ConnectionAuthoriser
import P2Panda.Spaces.Event

/-!
# Connection authoriser hook

Nodes removed from a space are blocked for the topic of the space, and its current members are not.
-/

namespace P2Panda.Node

open P2Panda.Core P2Panda.Net
open P2Panda.Spaces (SpaceEvent)

variable {C : Type}

structure Topic where
  bytes : Vector UInt8 HASH_LEN
  deriving DecidableEq

def Topic.fromHash (hash : Hash) : Topic := ⟨hash.bytes⟩

/-- A node occurs in an event of a space, as removed or as a member. -/
structure Mention where
  spaceId : Hash
  node : VerifyingKey
  removed : Bool

def mentionAll (spaceId : Hash) (removed : Bool) (members : List (VerifyingKey × Auth.Access C)) :
    List Mention :=
  members.map fun member => ⟨spaceId, member.1, removed⟩

/-- What `update_authoriser` goes through in an event; `none` where it returns. -/
def mentions : Spaces.Event VerifyingKey Hash C → Option (List Mention)
  | .spaces (.created spaceId _ context _) | .spaces (.added spaceId _ context _) =>
    some (mentionAll spaceId false context.members)
  | .spaces (.removed spaceId removed context _) =>
    some (mentionAll spaceId true removed ++ mentionAll spaceId false context.members)
  | .spaces _ => none
  | _ => some []

def authorise (authoriser : ConnectionAuthoriser Topic) (mention : Mention) :
    ConnectionAuthoriser Topic :=
  authoriser.change (if mention.removed then .topicBlock mention.node (.fromHash mention.spaceId)
    else .topicAllow mention.node (.fromHash mention.spaceId))

def updateAuthoriser (authoriser : ConnectionAuthoriser Topic) :
    List (Spaces.Event VerifyingKey Hash C) → ConnectionAuthoriser Topic
  | [] => authoriser
  | event :: events =>
    match mentions event with
    | some mentioned => updateAuthoriser (mentioned.foldl authorise authoriser) events
    | none => authoriser

def mentioned (events : List (Spaces.Event VerifyingKey Hash C)) : List Mention :=
  events.flatMap fun event => (mentions event).getD []

/-- Whether a node is last mentioned as a removed member. -/
def lastMention (mentions : List Mention) (spaceId : Hash) (node : VerifyingKey) : Option Bool :=
  (mentions.reverse.find? fun mention => mention.spaceId = spaceId ∧ mention.node = node).map
    Mention.removed

def isBlocked (authoriser : ConnectionAuthoriser Topic) (spaceId : Hash) (node : VerifyingKey) :
    Bool :=
  (.fromHash spaceId, node) ∈ authoriser.topicBlocklist

variable (authoriser : ConnectionAuthoriser Topic)

theorem isBlocked_authorise (mention : Mention) (spaceId : Hash) (node : VerifyingKey) :
    isBlocked (authorise authoriser mention) spaceId node =
      if mention.spaceId = spaceId ∧ mention.node = node then mention.removed
      else isBlocked authoriser spaceId node := by
  obtain ⟨⟨bytes⟩, node', removed⟩ := mention
  obtain ⟨bytes'⟩ := spaceId
  cases removed <;>
    simp only [authorise, isBlocked, ConnectionAuthoriser.change, Topic.fromHash] <;> grind

theorem isBlocked_foldl_authorise (mentions : List Mention) (spaceId : Hash) (node : VerifyingKey) :
    isBlocked (mentions.foldl authorise authoriser) spaceId node =
      (lastMention mentions spaceId node).getD (isBlocked authoriser spaceId node) := by
  induction mentions using List.reverseRecOn with
  | nil => rfl
  | append_singleton mentions mention ih =>
    rw [List.foldl_concat, isBlocked_authorise, ih, lastMention, lastMention, List.reverse_concat]
    split_ifs with hmatch
    · simp [hmatch]
    · simp [hmatch]

theorem updateAuthoriser_eq (events : List (Spaces.Event VerifyingKey Hash C)) :
    updateAuthoriser authoriser events =
      (mentioned (events.takeWhile fun event => (mentions event).isSome)).foldl authorise
        authoriser := by
  induction events generalizing authoriser with
  | nil => rfl
  | cons event events ih =>
    cases hment : mentions event with
    | none => simp [updateAuthoriser, hment, mentioned]
    | some _ => simp [updateAuthoriser, hment, mentioned, ih]

/-- The block-list follows the events if and only if no node is mentioned otherwise after the first
promotion, demotion or ejection than before. -/
theorem blocklist_follows_iff (events : List (Spaces.Event VerifyingKey Hash C)) :
    (∀ authoriser spaceId node removed,
        lastMention (mentioned events) spaceId node = some removed →
        isBlocked (updateAuthoriser authoriser events) spaceId node = removed) ↔
      ∀ spaceId node removed, lastMention (mentioned events) spaceId node = some removed →
        lastMention (mentioned (events.takeWhile fun event => (mentions event).isSome))
          spaceId node = some removed := by
  simp only [updateAuthoriser_eq, isBlocked_foldl_authorise]
  constructor
  · intro h spaceId node removed hlast
    -- whether the node was blocked before only shows if it is not mentioned
    have hbef (before : Bool) := h (authorise .new ⟨spaceId, node, before⟩) _ _ _ hlast
    simp only [isBlocked_authorise, and_self, if_true] at hbef
    cases hmention : lastMention (mentioned (events.takeWhile fun event =>
      (mentions event).isSome)) spaceId node with
    | none => simp_all
    | some removed' => simp_all
  · intro h authoriser spaceId node removed hlast
    rw [h spaceId node removed hlast, Option.getD_some]

/-- An ejection from one space, and a removal from another which is not seen. -/
theorem blocklist_misses_removal :
    let spaceId : Hash := ⟨Vector.replicate HASH_LEN 1⟩
    let node : VerifyingKey := ⟨Vector.replicate VERIFYING_KEY_LEN 2⟩
    let events : List (Spaces.Event VerifyingKey Hash Unit) :=
      [.spaces (.ejected ⟨Vector.replicate HASH_LEN 0⟩),
        .spaces (.removed spaceId [(node, ⟨none, .pull⟩)] ⟨node, node, [], []⟩
          ⟨node, [], [], [], ∅, ∅⟩)]
    lastMention (mentioned events) spaceId node = some true ∧
      isBlocked (updateAuthoriser .new events) spaceId node = false := by
  decide

end P2Panda.Node
