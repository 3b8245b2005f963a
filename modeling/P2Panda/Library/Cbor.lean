import Mathlib.Algebra.Group.Nat.Defs
import Mathlib.Data.List.Basic

/-!
# CBOR libraries

What a program needs of a library for CBOR. An accessor looks through the tags of a value.
-/

namespace P2Panda.Library

/-- CBOR values of type `V` with errors of type `ε`. -/
structure Cbor (V ε : Type) where
  unsigned : Nat → V
  byteString : List UInt8 → V
  array : List V → V
  untagged : V → V
  toU16 : V → Except ε UInt16
  toU32 : V → Except ε UInt32
  asBytes : V → Except ε (List UInt8)
  intoArray : V → Except ε (List V)
  encode : V → List UInt8
  decode : List UInt8 → Except ε V

/-- What is expected of a library. An array of items `Within` the limits of the decoder which is not
too long can be decoded. -/
structure Cbor.Lawful {V ε : Type} (c : Cbor V ε) (Within : V → Prop) (lengthLimit : Nat) :
    Prop where
  untagged_unsigned : ∀ n, c.untagged (c.unsigned n) = c.unsigned n
  untagged_byteString : ∀ bytes, c.untagged (c.byteString bytes) = c.byteString bytes
  untagged_array : ∀ items, c.untagged (c.array items) = c.array items
  toU16_unsigned : ∀ n : UInt16, c.toU16 (c.unsigned n.toNat) = .ok n
  toU32_unsigned : ∀ n : UInt32, c.toU32 (c.unsigned n.toNat) = .ok n
  asBytes_byteString : ∀ bytes, c.asBytes (c.byteString bytes) = .ok bytes
  intoArray_array : ∀ items, c.intoArray (c.array items) = .ok items
  untagged_of_toU16 : ∀ v n, Within v → c.toU16 v = .ok n → c.untagged v = c.unsigned n.toNat
  untagged_of_toU32 : ∀ v n, Within v → c.toU32 v = .ok n → c.untagged v = c.unsigned n.toNat
  untagged_of_asBytes : ∀ v bytes, Within v → c.asBytes v = .ok bytes →
    c.untagged v = c.byteString bytes
  within_unsigned : ∀ n : UInt32, Within (c.unsigned n.toNat)
  within_byteString : ∀ bytes, bytes.length ≤ lengthLimit → Within (c.byteString bytes)
  decode_encode : ∀ items, items.length ≤ lengthLimit → (∀ v ∈ items, Within v) →
    c.decode (c.encode (c.array items)) = .ok (c.array items)
  /-- The decoder is strict. -/
  encode_of_decode : ∀ bytes v, c.decode bytes = .ok v → c.encode v = bytes
  items_of_decode : ∀ bytes v items, c.decode bytes = .ok v → c.intoArray v = .ok items →
    c.untagged v = c.array items ∧ items.length ≤ lengthLimit ∧ ∀ x ∈ items, Within x

/-- The encoder is injective on what is `Encodable`, as all is that the decoder returns. -/
structure Cbor.Injective {V ε : Type} (c : Cbor V ε) (Encodable : V → Prop) (lengthLimit : Nat) :
    Prop where
  unsigned_inj : ∀ m n : UInt32, c.unsigned m.toNat = c.unsigned n.toNat → m = n
  byteString_inj : ∀ bytes bytes', c.byteString bytes = c.byteString bytes' → bytes = bytes'
  encodable_unsigned : ∀ n : UInt32, Encodable (c.unsigned n.toNat)
  encodable_byteString : ∀ bytes, bytes.length ≤ lengthLimit → Encodable (c.byteString bytes)
  encode_inj : ∀ items items', items.length ≤ lengthLimit → items'.length ≤ lengthLimit →
    (∀ v ∈ items, Encodable v) → (∀ v ∈ items', Encodable v) →
    c.encode (c.array items) = c.encode (c.array items') → items = items'
  items_of_decode : ∀ bytes v items, c.decode bytes = .ok v → c.intoArray v = .ok items →
    items.length ≤ lengthLimit ∧ ∀ x ∈ items, Encodable x

theorem Cbor.Lawful.injective {V ε : Type} {c : Cbor V ε} {Within : V → Prop} {lengthLimit : Nat}
    (h : c.Lawful Within lengthLimit) : c.Injective Within lengthLimit where
  unsigned_inj m n heq := by
    have hread := congrArg c.toU32 heq
    rw [h.toU32_unsigned, h.toU32_unsigned] at hread
    exact Except.ok.inj hread
  byteString_inj bytes bytes' heq := by
    have hread := congrArg c.asBytes heq
    rw [h.asBytes_byteString, h.asBytes_byteString] at hread
    exact Except.ok.inj hread
  encodable_unsigned := h.within_unsigned
  encodable_byteString := h.within_byteString
  encode_inj items items' hlen hlength' hwi hwithin' heq := by
    have hdcd := congrArg c.decode heq
    rw [h.decode_encode items hlen hwi, h.decode_encode items' hlength' hwithin'] at hdcd
    have hread := congrArg c.intoArray (Except.ok.inj hdcd)
    rw [h.intoArray_array, h.intoArray_array] at hread
    exact Except.ok.inj hread
  items_of_decode bytes v items hdcd hitems := (h.items_of_decode bytes v items hdcd hitems).2

end P2Panda.Library
