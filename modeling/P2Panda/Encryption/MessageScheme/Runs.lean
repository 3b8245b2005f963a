import P2Panda.Encryption.KeyRegistry
import P2Panda.Encryption.MessageScheme.Effects
import P2Panda.Encryption.TwoParty.Link

/-!
# Runs of one member

A member performs operations, each of which is processed before anything else happens, and processes
messages from others.
-/

namespace P2Panda.Encryption.MessageScheme

open P2Panda.Library Outcome

inductive LocalOperation (ID : Type) where
  | create (initialMembers : List ID)
  | update
  | remove (removed : ID)
  | add (added : ID)
  deriving DecidableEq

/-- What happens to a member, with the surroundings and random numbers. -/
inductive DcgkaEvent (ID OP D : Type) where
  | operate (operation : LocalOperation ID) (seq : OP) (env : Surroundings ID) (rng rng' : Rng)
  | receive (input : ProcessInput ID OP D) (env : Surroundings ID) (rng : Rng)

namespace Dcgka

variable {ID OP P D Y ρ δ ε : Type} [DecidableEq ID] [DecidableEq OP] [KeyRegistry P ID ρ]
  [AckedGroupMembership D ID OP δ] [PreKeyManager Y ε]
variable (checks : Bool) (c : Primitives) (codec : PlaintextCodec)

def operate (env : Surroundings ID) (y : DcgkaState ID OP P D Y) (rng : Rng) :
    LocalOperation ID →
      Outcome (DcgkaError ID OP ρ δ) (DcgkaState ID OP P D Y × OperationOutput ID OP D)
  | .create initialMembers => create checks c codec env y initialMembers rng
  | .update => update checks c codec env y rng
  | .remove removed => remove checks c codec env y removed rng
  | .add added => add checks c codec env y added rng

def next (y : DcgkaState ID OP P D Y) :
    DcgkaEvent ID OP D → Outcome (DcgkaError ID OP ρ δ) (DcgkaState ID OP P D Y)
  | .operate operation seq env rng rng' => do
    let (y, output) ← operate checks c codec env y rng operation
    let (y, _) ← processLocal checks c codec env y seq output rng'
    return y
  | .receive input env rng => do
    let (y, _) ← processRemote checks c codec env y input rng
    return y

def run (y : DcgkaState ID OP P D Y) (events : List (DcgkaEvent ID OP D)) :
    Outcome (DcgkaError ID OP ρ δ) (DcgkaState ID OP P D Y) :=
  events.foldlM (next checks c codec) y

variable {checks c codec} {y y' : DcgkaState ID OP P D Y}

def Announces (message : ControlMessage ID OP) : LocalOperation ID → Prop
  | .create _ => ∃ initialMembers, message = .create initialMembers
  | .update => message = .update
  | .remove removed => message = .remove removed
  | .add added => message = .add added

omit [DecidableEq OP] in
theorem operate_eq_ok {env : Surroundings ID} {rng : Rng} {operation : LocalOperation ID}
    {output : OperationOutput ID OP D}
    (h : operate checks c codec env y rng operation = .ok (y', output)) :
    SameGroup y y' ∧ Announces output.controlMessage operation := by
  cases operation with
  | create initialMembers =>
    obtain ⟨⟨y1, messages, rng1⟩, hseed, h⟩ := bind_eq_ok.mp h
    cases h
    exact ⟨sameGroup_generateSeed hseed, _, rfl⟩
  | update =>
    obtain ⟨view, _, h⟩ := bind_eq_ok.mp h
    obtain ⟨⟨y1, messages, rng1⟩, hseed, h⟩ := bind_eq_ok.mp h
    cases h
    exact ⟨sameGroup_generateSeed hseed, rfl⟩
  | remove removed =>
    obtain ⟨view, _, h⟩ := bind_eq_ok.mp h
    obtain ⟨⟨y1, messages, rng1⟩, hseed, h⟩ := bind_eq_ok.mp h
    cases h
    exact ⟨sameGroup_generateSeed hseed, rfl⟩
  | add added =>
    rw [operate, add] at h
    cases hrat : y.ratchet.lookup y.myId with
    | none =>
      rw [hrat] at h
      cases h
    | some secret =>
      rw [hrat] at h
      obtain ⟨⟨y1, ciphertext, rng1⟩, henc, h⟩ := bind_eq_ok.mp h
      cases h
      exact ⟨sameGroup_encryptTo henc, rfl⟩

def EventChanges (me : ID) (dgm dgm' : D) : DcgkaEvent ID OP D → Prop
  | .operate operation seq .. => ∃ message, Announces message operation ∧
      Changes me me seq none dgm dgm' message
  | .receive input .. => input.sender ≠ me ∧
      Changes me input.sender input.seq input.directMessage dgm dgm' input.controlMessage

theorem changes_next {event : DcgkaEvent ID OP D} (h : next checks c codec y event = .ok y') :
    y'.myId = y.myId ∧ EventChanges y.myId y.dgm y'.dgm event := by
  cases event with
  | operate operation seq env rng rng' =>
    obtain ⟨⟨y1, output⟩, hoperate, h⟩ := bind_eq_ok.mp h
    obtain ⟨⟨y2, output'⟩, hloc, h⟩ := bind_eq_ok.mp h
    cases h
    obtain ⟨hsame, hann⟩ := operate_eq_ok hoperate
    obtain ⟨hid, hchgs⟩ := changes_processLocal hloc
    rw [hsame.myId, hsame.dgm] at hchgs
    exact ⟨hid.trans hsame.myId, _, hann, hchgs⟩
  | receive input env rng =>
    obtain ⟨⟨y1, output⟩, hrmt, h⟩ := bind_eq_ok.mp h
    cases h
    obtain ⟨hsndr, hid, hchgs⟩ := changes_processRemote hrmt
    exact ⟨hid, hsndr, hchgs⟩

open TwoParty

def sampleRegistry : KeyRegistryState Nat where
  identities := [0, 1, 2, 3].foldl
    (fun identities id => identities.insert id (sampleBundle .alice).identityKey) ∅
  onetimeBundles := [0, 1, 2, 3].foldl
    (fun bundles id => bundles.insert id [sampleBundle .alice]) ∅
  longtermBundles := ∅

def sampleSurroundings : Surroundings Nat where
  clock := some 5
  entropy _ := []
  order := .increasing id Function.injective_id

def sampleRng : Rng := ⟨false, List.replicate 400 8⟩

variable {D : Type}

def sampleOperate (operation : LocalOperation Nat) (seq : Nat) : DcgkaEvent Nat Nat D :=
  .operate operation seq sampleSurroundings sampleRng sampleRng

def sampleReceive (seq sender : Nat) (controlMessage : ControlMessage Nat Nat)
    (directMessage : Option (DirectMessage Nat D)) : DcgkaEvent Nat Nat D :=
  .receive ⟨seq, sender, controlMessage, directMessage⟩ sampleSurroundings sampleRng

end Dcgka

end P2Panda.Encryption.MessageScheme
