import Mathlib.Logic.Function.Iterate
import P2Panda.Core.Codec
import P2Panda.Core.Timestamp

/-!
# Ephemeral streams

Messages which are not persisted arrive over gossip. Invalid ones do not reach the application.
-/

namespace P2Panda.Node

open P2Panda.Core

variable {TP M δ ς ι ρ : Type}

structure WrappedMessage (M : Type) where
  version : UInt64
  verifyingKey : VerifyingKey
  signature : Signature
  timestamp : HybridTimestamp
  body : M

inductive WrappedMessageError (δ : Type) where
  | unsupportedVersion (version : UInt64)
  | invalidEncoding (error : δ)
  | invalidSignature

def MESSAGE_VERSION : UInt64 := 1

/-- `decode_cbor` for messages and `encode_cbor` for their signed part. -/
structure MessageCodec (M δ ς ι : Type) where
  crypto : Crypto ι
  decode : Bytes → Except δ
    (UInt64 × VerifyingKey × Signature × Timestamp × LamportTimestamp × M)
  encode : UInt64 × VerifyingKey × Timestamp × LamportTimestamp × M → Except ς Bytes

namespace WrappedMessage

def verify (codec : MessageCodec M δ ς ι) (self : WrappedMessage M) :
    Except (WrappedMessageError δ) Unit :=
  let ⟨timestamp, logical⟩ := self.timestamp
  match codec.encode (self.version, self.verifyingKey, timestamp, logical, self.body) with
  | .error _ => .error .invalidSignature
  | .ok bytes =>
    if codec.crypto.verify self.verifyingKey bytes self.signature then .ok ()
    else .error .invalidSignature

def fromBytes (codec : MessageCodec M δ ς ι) (bytes : Bytes) :
    Except (WrappedMessageError δ) (WrappedMessage M) := do
  let (version, verifyingKey, signature, timestamp, logical, body) ←
    (codec.decode bytes).mapError .invalidEncoding
  if version ≠ MESSAGE_VERSION then throw (.unsupportedVersion version)
  let message : WrappedMessage M := ⟨version, verifyingKey, signature, ⟨timestamp, logical⟩, body⟩
  message.verify codec
  return message

end WrappedMessage

inductive Poll (α : Type) where
  | ready (value : α)
  | pending
  deriving DecidableEq

/-- What is queued in a subscription, and if its channel was closed. An error says that messages
were dropped. -/
structure GossipReceiver (ρ : Type) where
  queue : List (Except ρ Bytes)
  closed : Bool

/-- Only when it returns `pending` the caller will be woken up. -/
def GossipReceiver.pollNext (self : GossipReceiver ρ) :
    Poll (Option (Except ρ Bytes)) × GossipReceiver ρ :=
  match self.queue with
  | item :: queue => (.ready (some item), { self with queue := queue })
  | [] => (if self.closed then .ready none else .pending, self)

structure EphemeralMessage (TP M : Type) where
  topic : TP
  inner : WrappedMessage M

structure EphemeralStreamSubscription (TP ρ : Type) where
  topic : TP
  inner : GossipReceiver ρ

namespace EphemeralStreamSubscription

variable (codec : MessageCodec M δ ς ι) (self : EphemeralStreamSubscription TP ρ)

def pollNext : Poll (Option (EphemeralMessage TP M)) × EphemeralStreamSubscription TP ρ :=
  let (polled, inner) := self.inner.pollNext
  let result := match polled with
    | .pending => .pending
    | .ready (some (.ok bytes)) =>
      match WrappedMessage.fromBytes codec bytes with
      | .ok wrapped => .ready (some ⟨self.topic, wrapped⟩)
      -- Don't bother users with invalid wrapped messages.
      | .error _ => .pending
    -- Ignore internal broadcast channel error.
    | .ready (some (.error _)) => .pending
    -- Internal stream seized.
    | .ready none => .ready none
  (result, { self with inner := inner })

/-- A message that reaches the application. -/
def isValid : Except ρ Bytes → Bool
  | .ok bytes => (WrappedMessage.fromBytes codec bytes).isOk
  | .error _ => false

/-- When nothing comes out, the caller will be woken up. -/
def WakesUp : Prop :=
  (self.pollNext codec).1 = .pending → self.inner.pollNext.1 = .pending

theorem wakesUp_iff {topic : TP} {queue : List (Except ρ Bytes)} {closed : Bool} :
    WakesUp codec ⟨topic, queue, closed⟩ ↔ ∀ item ∈ queue.head?, isValid codec item := by
  cases queue with
  | nil => cases closed <;> simp [WakesUp, pollNext, GossipReceiver.pollNext]
  | cons item queue =>
    cases item with
    | error error => simp [WakesUp, pollNext, GossipReceiver.pollNext, isValid]
    | ok bytes =>
      cases hmsg : WrappedMessage.fromBytes codec bytes <;>
        simp [WakesUp, pollNext, GossipReceiver.pollNext, isValid, hmsg, Except.isOk, Except.toBool]

/-- Every poll that returns `pending` has registered for a wake-up, if and only if all messages in
the queue are valid. -/
theorem always_wakesUp_iff :
    (∀ n, WakesUp codec ((fun self => (pollNext codec self).2)^[n] self)) ↔
      ∀ item ∈ self.inner.queue, isValid codec item := by
  obtain ⟨topic, queue, closed⟩ := self
  induction queue with
  | nil =>
    refine iff_of_true (fun n => ?_) (List.forall_mem_nil _)
    rw [Function.iterate_fixed rfl, wakesUp_iff]
    simp
  | cons item queue ih =>
    rw [List.forall_mem_cons, ← ih, ← Nat.and_forall_add_one]
    exact and_congr ((wakesUp_iff codec).trans (by simp)) Iff.rfl

def sampleCodec : MessageCodec Bytes String String Unit where
  crypto :=
    { digest := fun _ => ⟨Vector.replicate HASH_LEN 0⟩
      checkKey := fun _ => .ok ()
      verify := fun _ _ _ => true }
  decode
    | [] => .error "unexpected end of file"
    | bytes => .ok (1, ⟨Vector.replicate VERIFYING_KEY_LEN 2⟩,
      ⟨Vector.replicate SIGNATURE_LEN 3⟩, 4, 5, bytes)
  encode message := .ok message.2.2.2.2

/-- An undecodable message withholds the one behind it. -/
theorem not_wakesUp_undecodable :
    let self : EphemeralStreamSubscription Nat Unit := ⟨0, [.ok [], .ok [1]], false⟩
    ¬WakesUp sampleCodec self ∧ (self.pollNext sampleCodec).1 = .pending ∧
      (self.pollNext sampleCodec).2.inner.queue.all (isValid sampleCodec) := by
  refine ⟨?_, rfl, rfl⟩
  rw [wakesUp_iff]
  decide

end EphemeralStreamSubscription

end P2Panda.Node
