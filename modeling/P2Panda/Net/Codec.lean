import P2Panda.Core.Operation
import P2Panda.Library.DeterministicCbor

/-!
# Message framing

A message is written as four bytes with its length and its Postcard bytes. The decoder may be called
with any part of the stream in its buffer.
-/

namespace P2Panda.Net

open P2Panda.Library Outcome List
open P2Panda.Core (Bytes)
open P2Panda.Library.CborValue (bigEndian ofBigEndian length_bigEndian ofBigEndian_bigEndian)

inductive CodecError (E : Type) where
  | postcard (error : E)
  | tooLargeMessage (frameLen maxFrameLen : Nat)
  deriving DecidableEq

/-- `Codec<M>`, with what Postcard does for `M`. -/
structure Codec (M E : Type) where
  maxFrameLen : Nat := 1024 * 1024 * 128
  serializedSize : M → Outcome E Nat
  toIo : M → Outcome E Bytes
  fromBytes : Bytes → Outcome E M

namespace Codec

variable {M E : Type} {codec : Codec M E} {m : M} {messages : List M} {src : Bytes}
  {frame : M → Bytes}

def encode (codec : Codec M E) (item : M) (dst : Bytes) : Outcome (CodecError E) Bytes := do
  let frameLen ← (codec.serializedSize item).mapErr .postcard
  if frameLen > codec.maxFrameLen then .err (.tooLargeMessage frameLen codec.maxFrameLen) else
    if frameLen < 2 ^ 32 then
      let message ← (codec.toIo item).mapErr .postcard
      return dst ++ bigEndian 4 frameLen ++ message
    else .panic "already checked"

def encodeAll (codec : Codec M E) (messages : List M) : Outcome (CodecError E) Bytes :=
  messages.foldlM (fun dst item => codec.encode item dst) []

/-- The item, and what is left in the buffer. -/
def decode (codec : Codec M E) (src : Bytes) : Outcome (CodecError E) (Option M × Bytes) :=
  if src.length < 4 then return (none, src) else
    let frameLen := ofBigEndian (src.take 4)
    if frameLen > codec.maxFrameLen then .err (.tooLargeMessage frameLen codec.maxFrameLen) else
      if src.length < 4 + frameLen then return (none, src) else do
        let item ← (codec.fromBytes ((src.drop 4).take frameLen)).mapErr .postcard
        return (some item, src.drop (4 + frameLen))

/-- Decodes until the decoder asks for more bytes. An item takes at least four. -/
def drain (codec : Codec M E) : Nat → Bytes → Outcome (CodecError E) (List M × Bytes)
  | 0, src => return ([], src)
  | fuel + 1, src => do
    match ← codec.decode src with
    | (none, src) => return ([], src)
    | (some item, src) =>
      let (items, src) ← codec.drain fuel src
      return (item :: items, src)

/-- Drains the buffer after each chunk. -/
def feedAll (codec : Codec M E) : Bytes → List Bytes → Outcome (CodecError E) (List M × Bytes)
  | src, [] => return ([], src)
  | src, chunk :: chunks => do
    let (items, src) ← codec.drain (src ++ chunk).length (src ++ chunk)
    let (later, src) ← codec.feedAll src chunks
    return (items ++ later, src)

/-- Postcard reports exact sizes and reads back what it wrote. -/
def Lawful (codec : Codec M E) : Prop :=
  ∀ m size, codec.serializedSize m = .ok size →
    ∃ message, codec.toIo m = .ok message ∧ message.length = size ∧
      codec.fromBytes message = .ok m

def Fits (codec : Codec M E) (m : M) : Prop :=
  ∃ size ≤ codec.maxFrameLen, codec.serializedSize m = .ok size

structure IsFrame (codec : Codec M E) (m : M) (frame : Bytes) : Prop where
  encode : ∀ dst, codec.encode m dst = .ok (dst ++ frame)
  decode : ∀ rest, codec.decode (frame ++ rest) = .ok (some m, rest)
  short : ∀ src, src <+: frame → src.length < frame.length → codec.decode src = .ok (none, src)
  pos : 0 < frame.length

theorem Fits.exists_isFrame (h : codec.Fits m) (hlaw : codec.Lawful)
    (hmax : codec.maxFrameLen < 2 ^ 32) : ∃ frame, codec.IsFrame m frame := by
  obtain ⟨_, hle, hsize⟩ := h
  obtain ⟨message, hto, rfl, hfrom⟩ := hlaw _ _ hsize
  have hfour := length_bigEndian 4 message.length
  have hlen : ofBigEndian (bigEndian 4 message.length) = message.length :=
    ofBigEndian_bigEndian (by omega)
  refine ⟨bigEndian 4 message.length ++ message, ?_, ?_, ?_, by rw [length_append]; omega⟩
  · intro dst
    simp only [Codec.encode, hsize, hto, mapErr_ok, ok_bind, pure_eq, append_assoc]
    rw [if_neg (by omega), if_pos (by omega)]
  · intro rest
    simp only [Codec.decode, append_assoc, take_left' hfour, hlen, ← drop_drop,
      drop_left' hfour, take_left, drop_left, hfrom, length_append, hfour]
    rw [if_neg (by omega), if_neg (by omega), if_neg (by omega)]
    rfl
  · rintro src ⟨rest, hrest⟩ hlt
    rw [length_append, hfour] at hlt
    unfold Codec.decode
    split
    · rfl
    · have htake : src.take 4 = bigEndian 4 message.length := by
        rw [← take_left' hfour, ← hrest, take_append_of_le_length (by omega)]
      simp [htake, hlen, Nat.not_lt.mpr hle, hlt]

/-- Exactly the messages come out whose frames are complete. -/
def Yields (frame : M → Bytes) (messages : List M) (src : Bytes)
    (result : Outcome (CodecError E) (List M × Bytes)) : Prop :=
  ∃ done left rest, messages = done ++ left ∧ src = done.flatMap frame ++ rest ∧
    (∀ next ∈ left.head?, rest.length < (frame next).length) ∧ result = .ok (done, rest)

theorem drain_yields (hframe : ∀ m ∈ messages, codec.IsFrame m (frame m))
    (hsrc : src <+: messages.flatMap frame) {fuel : Nat} (hfuel : src.length ≤ fuel) :
    Yields frame messages src (codec.drain fuel src) := by
  induction messages generalizing src fuel with
  | nil =>
    obtain rfl := prefix_nil.mp hsrc
    refine ⟨[], [], [], rfl, rfl, nofun, ?_⟩
    cases fuel <;> rfl
  | cons m messages ih =>
    obtain ⟨hm, hmsgs⟩ := forall_mem_cons.mp hframe
    by_cases hle : (frame m).length ≤ src.length
    · obtain ⟨src, rfl⟩ := prefix_of_prefix_length_le (prefix_append _ _) hsrc hle
      have hpos := hm.pos
      rw [length_append] at hfuel
      obtain ⟨fuel, rfl⟩ : ∃ n, fuel = n + 1 := ⟨fuel - 1, by omega⟩
      obtain ⟨done, left, rest, rfl, rfl, hshort, hdrain⟩ :=
        ih hmsgs ((prefix_append_right_inj _).mp hsrc) (by omega : src.length ≤ fuel)
      refine ⟨m :: done, left, rest, rfl, by simp, hshort, ?_⟩
      simp [drain, hm.decode, hdrain]
    · have hlt := Nat.lt_of_not_le hle
      refine ⟨[], m :: messages, src, rfl, rfl, by simpa using hlt, ?_⟩
      cases fuel with
      | zero => rfl
      | succ fuel =>
        have hpre := prefix_of_prefix_length_le hsrc (prefix_append _ _) (by omega)
        simp [drain, hm.short src hpre hlt]

theorem feedAll_yields {chunks : List Bytes} (hframe : ∀ m ∈ messages, codec.IsFrame m (frame m))
    (hsrc : src ++ chunks.flatten <+: messages.flatMap frame)
    (hshort : ∀ next ∈ messages.head?, src.length < (frame next).length) :
    Yields frame messages (src ++ chunks.flatten) (codec.feedAll src chunks) := by
  induction chunks generalizing messages src with
  | nil => exact ⟨[], messages, src, rfl, by simp, hshort, rfl⟩
  | cons chunk chunks ih =>
    rw [flatten_cons, ← append_assoc] at hsrc ⊢
    obtain ⟨done, left, rest, rfl, hspl, hnext, hdrain⟩ :=
      drain_yields hframe ((prefix_append _ _).trans hsrc) (Nat.le_refl _)
    rw [hspl, append_assoc, flatMap_append, prefix_append_right_inj] at hsrc
    obtain ⟨later, left, rest, rfl, hrest, hlast, hfeed⟩ :=
      ih (fun m hm => hframe m (mem_append_right _ hm)) hsrc hnext
    refine ⟨done ++ later, left, rest, by simp, ?_, hlast, ?_⟩
    · rw [hspl, append_assoc, hrest, flatMap_append, append_assoc]
    · simp only [feedAll, hdrain, ok_bind, hfeed, pure_eq]

theorem encodeAll_eq (hframe : ∀ m ∈ messages, codec.IsFrame m (frame m)) :
    codec.encodeAll messages = .ok (messages.flatMap frame) := by
  have hfold : ∀ dst, messages.foldlM (fun dst item => codec.encode item dst) dst =
      .ok (dst ++ messages.flatMap frame) := by
    induction messages with
    | nil => simp
    | cons m messages ih =>
      obtain ⟨hm, hmsgs⟩ := forall_mem_cons.mp hframe
      simp [hm.encode, ih hmsgs]
  exact hfold []

/-- However the encoded messages are cut into chunks, they come out in order: after a part of the
bytes, those which are in it completely. -/
theorem feedAll_any_chunks (hlawful : codec.Lawful) (hmax : codec.maxFrameLen < 2 ^ 32)
    (hfits : ∀ m ∈ messages, codec.Fits m) :
    ∃ bytes, codec.encodeAll messages = .ok bytes ∧ ∀ chunks : List Bytes,
      (chunks.flatten = bytes → codec.feedAll [] chunks = .ok (messages, [])) ∧
      (chunks.flatten <+: bytes → ∃ done left rest, messages = done ++ left ∧
        codec.feedAll [] chunks = .ok (done, rest) ∧
        (codec.encodeAll done).Returns (· <+: chunks.flatten) ∧
        ∀ next ∈ left.head?,
          ¬(codec.encodeAll (done ++ [next])).Returns (· <+: chunks.flatten)) := by
  choose! frame hframe using fun m hm => (hfits m hm).exists_isFrame hlawful hmax
  have hyields : ∀ chunks : List Bytes, chunks.flatten <+: messages.flatMap frame →
      Yields frame messages chunks.flatten (codec.feedAll [] chunks) :=
    fun chunks hchunks => feedAll_yields hframe (show [] ++ chunks.flatten <+: _ from hchunks)
      fun next hnext => (hframe next (mem_of_mem_head? hnext)).pos
  refine ⟨_, encodeAll_eq hframe, fun chunks => ⟨fun hchunks => ?_, fun hchunks => ?_⟩⟩
  · obtain ⟨done, left, rest, rfl, hspl, hshort, hfeed⟩ := hyields chunks (hchunks ▸ prefix_refl _)
    rw [hchunks, flatMap_append, append_cancel_left_eq] at hspl
    subst hspl
    cases left with
    | nil => simpa using hfeed
    | cons m left =>
      have hlt := hshort m rfl
      rw [flatMap_cons, length_append] at hlt
      omega
  · obtain ⟨done, left, rest, rfl, hspl, hshort, hfeed⟩ := hyields chunks hchunks
    have hmem := forall_mem_append.mp hframe
    refine ⟨done, left, rest, rfl, hfeed, ?_, fun next hnext => ?_⟩
    · simp [encodeAll_eq hmem.1, hspl]
    · have hnext' := hmem.2 next (mem_of_mem_head? hnext)
      have hdone := forall_mem_append.mpr ⟨hmem.1, forall_mem_singleton.mpr hnext'⟩
      rw [encodeAll_eq hdone, returns_ok, hspl, flatMap_append,
        prefix_append_right_inj, flatMap_singleton]
      intro hpre
      exact Nat.not_le_of_lt (hshort next hnext) hpre.length_le

/-- Single bytes, with frames of one byte at most. -/
def byteCodec : Codec UInt8 Unit where
  maxFrameLen := 1
  serializedSize _ := .ok 1
  toIo byte := .ok [byte]
  fromBytes bytes := match bytes with
    | [byte] => .ok byte
    | _ => .err ()

theorem feedAll_byteCodec : (byteCodec.encodeAll [7, 9]).Returns fun bytes =>
    byteCodec.feedAll [] [bytes.take 3, bytes.drop 3] = .ok ([7, 9], []) := by
  have hlaw : byteCodec.Lawful := by
    rintro m _ ⟨⟩
    exact ⟨[m], rfl, rfl, rfl⟩
  have hfits : ∀ m ∈ [7, 9], byteCodec.Fits m := fun _ _ => ⟨1, Nat.le_refl _, rfl⟩
  obtain ⟨bytes, hbts, hfeed⟩ := feedAll_any_chunks hlaw (by decide) hfits
  exact ⟨bytes, hbts, (hfeed _).1 (by simp)⟩

end Codec

end P2Panda.Net
