import P2Panda.Core.Codec
import P2Panda.Library.DeterministicCbor

/-!
# Round trips of headers

A header that was built decodes to itself. A decoded header encodes to the bytes it came from,
unless a field is tagged: fields are read through tags.
-/

namespace P2Panda.Core

open P2Panda.Library Option HeaderCodec

variable {V E ε ς ι : Type}

def LENGTH_LIMIT : Nat := 512

namespace HeaderCodec

variable {c : HeaderCodec V E ε ς ι} {name : String} {iter iter' : List V} {hash : Option Hash}
  {bytes : Bytes}

/-! ## Fields -/

theorem nextField_eq_ok {v : V} :
    (nextField name iter : Except (HeaderError ε ς ι) _) = .ok (v, iter') ↔ iter = v :: iter' := by
  cases iter with
  | nil => simp [nextField]
  | cons => simp [nextField]

theorem numberField_eq_ok {N : Type} {toNumber : V → Except ε N} {n : N} :
    (numberField toNumber name iter : Except (HeaderError ε ς ι) _) = .ok (n, iter') ↔
      ∃ v, iter = v :: iter' ∧ toNumber v = .ok n := by
  simp only [numberField, except_bind_eq_ok, except_mapError_eq_ok, Prod.exists, nextField_eq_ok]
  constructor
  · rintro ⟨v, _, rfl, n, hn, h⟩
    cases h
    exact ⟨v, rfl, hn⟩
  · rintro ⟨v, rfl, hn⟩
    exact ⟨v, _, rfl, n, hn, rfl⟩

theorem bytesField_eq_ok {len : Nat} {bytes : Vector UInt8 len} :
    c.bytesField name len iter = .ok (bytes, iter') ↔
      ∃ v, iter = v :: iter' ∧ c.cbor.asBytes v = .ok bytes.toList := by
  simp only [bytesField, except_bind_eq_ok, except_mapError_eq_ok, Prod.exists, nextField_eq_ok]
  constructor
  · rintro ⟨v, _, rfl, raw, hraw, h⟩
    split at h
    · cases h
      exact ⟨v, rfl, hraw⟩
    · cases h
  · rintro ⟨v, rfl, hbts⟩
    refine ⟨v, _, rfl, bytes.toList, hbts, ?_⟩
    rw [dif_pos bytes.length_toList]
    rfl

theorem hashField_eq_ok {given : Bool} :
    c.hashField name given iter = .ok (hash, iter') ↔
      ∃ vs, iter = vs ++ iter' ∧ hash.isSome = given ∧
        vs.map c.cbor.asBytes = hash.toList.map fun hash => .ok hash.bytes.toList := by
  unfold hashField
  cases given with
  | false =>
    constructor
    · intro h
      cases h
      exact ⟨[], rfl, rfl, rfl⟩
    · rintro ⟨vs, rfl, hnone, hvs⟩
      rw [isSome_eq_false_iff, isNone_iff_eq_none] at hnone
      subst hnone
      rw [List.map_eq_nil_iff.mp hvs]
      rfl
  | true =>
    rw [if_pos rfl]
    simp only [except_bind_eq_ok, Prod.exists, bytesField_eq_ok]
    constructor
    · rintro ⟨bytes, iter', ⟨v, rfl, hv⟩, h⟩
      cases h
      exact ⟨[v], rfl, rfl, congrArg ([·]) hv⟩
    · rintro ⟨vs, rfl, hsome, hvs⟩
      obtain ⟨hash, rfl⟩ := isSome_iff_exists.mp hsome
      obtain ⟨v, rfl, hv⟩ := List.map_eq_singleton_iff.mp hvs
      exact ⟨hash.bytes, iter', ⟨v, rfl, hv⟩, rfl⟩

/-- The values of the fields of a header, apart from its extensions. -/
structure Reads (c : HeaderCodec V E ε ς ι) (header : AnyHeader V) (fields : List V) : Prop where
  payload : header.payloadHash.isSome = decide (header.payloadSize > 0)
  chain : header.backlink.isSome = decide (header.seqNum > 0)
  values : ∃ version key signature size hash seqNum backlink,
    fields = [version, key, signature, size] ++ hash ++ [seqNum] ++ backlink ∧
    c.cbor.toU16 version = .ok header.version ∧
    c.cbor.asBytes key = .ok header.verifyingKey.bytes.toList ∧
    c.cbor.asBytes signature = .ok header.signature.bytes.toList ∧
    c.cbor.toU32 size = .ok header.payloadSize ∧
    hash.map c.cbor.asBytes =
      header.payloadHash.toList.map (fun hash => .ok hash.bytes.toList) ∧
    c.cbor.toU32 seqNum = .ok header.seqNum ∧
    backlink.map c.cbor.asBytes =
      header.backlink.toList.map (fun hash => .ok hash.bytes.toList)

theorem head?_toList_of_length_le_one {list : List V} (h : list.length ≤ 1) :
    list.head?.toList = list := by
  cases list with
  | nil => rfl
  | cons v list =>
    cases list with
    | nil => rfl
    | cons w list =>
      rw [List.length_cons, List.length_cons] at h
      omega

theorem decodeAny_eq_ok {header : AnyHeader V} :
    c.decodeAny bytes = .ok header ↔
      ∃ cbor fields, c.cbor.decode bytes = .ok cbor ∧
        c.cbor.intoArray cbor = .ok (fields ++ header.extensions.toList) ∧
        c.Reads header fields ∧ header.version = 1 ∧
        c.crypto.checkKey header.verifyingKey.bytes = .ok () ∧
        c.crypto.verify header.verifyingKey (c.cbor.encode (c.cbor.array
          ((fields ++ header.extensions.toList).eraseIdx 2))) header.signature = true ∧
        header.size = UInt32.ofNat bytes.length ∧ header.digest = c.crypto.digest bytes := by
  unfold decodeAny verifyingKeyFromBytes
  simp only [except_bind_eq_ok, except_mapError_eq_ok, Prod.exists, numberField_eq_ok,
    bytesField_eq_ok, hashField_eq_ok, ensure_eq_ok]
  constructor
  · rintro ⟨cbor, hcbor, seq, hseq, version, iter1, ⟨v0, h1, hvers⟩, -, hone, key, iter2,
      ⟨v1, h2, hkey⟩, verifyingKey, ⟨u, hcheck, hpure⟩, signature, iter3, ⟨v2, h3, hsig⟩,
      payloadSize, iter4, ⟨v3, h4, hsize⟩, payloadHash, iter5, ⟨hashes, h5, hpay, hhashes⟩,
      seqNum, iter6, ⟨v5, h6, hseqNum⟩, backlink, rest, ⟨links, h7, hchn, hlinks⟩, -, hrest, -,
      hver, heq⟩
    cases hpure
    cases heq
    have hfields : seq = [v0, v1, v2, v3] ++ hashes ++ [v5] ++ links ++ rest.head?.toList := by
      rw [head?_toList_of_length_le_one hrest, h1, h2, h3, h4, h5, h6, h7]
      simp
    rw [hfields] at hseq hver
    exact ⟨cbor, [v0, v1, v2, v3] ++ hashes ++ [v5] ++ links, hcbor, hseq,
      ⟨hpay, hchn, v0, v1, v2, v3, hashes, v5, links, rfl, hvers, hkey, hsig, hsize,
        hhashes, hseqNum, hlinks⟩, hone, hcheck, hver, rfl, rfl⟩
  · obtain ⟨version, key, signature, payloadSize, payloadHash, seqNum, backlink, size, digest,
      extensions⟩ := header
    rintro ⟨cbor, _, hcbor, hseq, ⟨hpay, hchn, v0, v1, v2, v3, hashes, v5, links, rfl,
      hvers, hkey, hsig, hsize, hhashes, hseqNum, hlinks⟩, hone, hcheck, hver, rfl,
      rfl⟩
    refine ⟨cbor, hcbor, _, hseq, version, _, ⟨v0, rfl, hvers⟩, (), hone, key.bytes, _,
      ⟨v1, rfl, hkey⟩, key, ⟨(), hcheck, rfl⟩, signature.bytes, _, ⟨v2, rfl, hsig⟩,
      payloadSize, _, ⟨v3, rfl, hsize⟩, payloadHash, v5 :: (links ++ extensions.toList),
      ⟨hashes, ?_, hpay, hhashes⟩, seqNum, _, ⟨v5, rfl, hseqNum⟩, backlink, extensions.toList,
      ⟨links, rfl, hchn, hlinks⟩, (), ?_, (), hver, ?_⟩
    · simp
    · exact extensions.length_toList_le
    · cases extensions with
      | none => rfl
      | some v => rfl

/-! ## Tags -/

def follows (c : HeaderCodec V E ε ς ι) (field : Option V) : Nat :=
  match field.map c.cbor.toU32 with
  | some (.ok n) => if n > 0 then 1 else 0
  | _ => 0

def fixedFields (c : HeaderCodec V E ε ς ι) (fields : List V) : List V :=
  let seqNum := 4 + c.follows fields[3]?
  fields.take (seqNum + 1 + c.follows fields[seqNum]?)

/-- Neither the array nor a field is tagged, extensions apart. -/
def Untagged (c : HeaderCodec V E ε ς ι) (bytes : Bytes) : Prop :=
  ∀ cbor fields, c.cbor.decode bytes = .ok cbor → c.cbor.intoArray cbor = .ok fields →
    c.cbor.untagged cbor = cbor ∧ ∀ v ∈ c.fixedFields fields, c.cbor.untagged v = v

theorem follows_eq {n : UInt32} {v : V} {vs : List V} (hn : c.cbor.toU32 v = .ok n)
    (hsome : hash.isSome = decide (n > 0))
    (hvs : vs.map c.cbor.asBytes = hash.toList.map fun hash => .ok hash.bytes.toList) :
    c.follows (some v) = vs.length := by
  have hlen := congrArg List.length hvs
  rw [List.length_map] at hlen
  rw [follows, map_some, hn, hlen]
  cases hash with
  | none =>
    have hzero : ¬n > 0 := of_decide_eq_false hsome.symm
    exact if_neg hzero
  | some hash =>
    have hpos : n > 0 := of_decide_eq_true hsome.symm
    exact if_pos hpos

theorem Reads.fixedFields_eq {header : AnyHeader V} {fields : List V} (h : c.Reads header fields)
    (extensions : List V) : c.fixedFields (fields ++ extensions) = fields := by
  obtain ⟨hpay, hchn, v0, v1, v2, v3, hashes, v5, links, rfl, -, -, -, hsize, hhashes,
    hseq, hlinks⟩ := h
  have hfst := follows_eq hsize hpay hhashes
  have hsnd := follows_eq hseq hchn hlinks
  have hlen : ([v0, v1, v2, v3] ++ hashes).length = 4 + hashes.length := List.length_append
  have hget : ([v0, v1, v2, v3] ++ hashes ++ [v5] ++ links ++ extensions)[3]? = some v3 := by
    simp
  have hget' : ([v0, v1, v2, v3] ++ hashes ++ [v5] ++ links ++ extensions)[4 + hashes.length]? =
      some v5 := by
    rw [List.append_assoc, List.append_assoc, List.getElem?_append_right (Nat.le_of_eq hlen),
      hlen, Nat.sub_self]
    rfl
  unfold fixedFields
  dsimp only
  rw [hget, hfst, hget', hsnd]
  apply List.take_left'
  rw [List.length_append, List.length_append, hlen]
  rfl

variable {Within : V → Prop} {header : AnyHeader V}

theorem headerItems_append (version : Version) (verifyingKey : VerifyingKey)
    (signature : Option Signature) (payloadSize : PayloadSize) (payloadHash : Option Hash)
    (seqNum : SeqNum) (backlink : Option Hash) (extensions : Option V) :
    c.headerItems version verifyingKey signature payloadSize payloadHash seqNum backlink
      extensions = c.headerItems version verifyingKey signature payloadSize payloadHash seqNum
        backlink none ++ extensions.toList := by
  unfold headerItems
  rw [toList_none, List.append_nil]

theorem eraseIdx_headerItems (version : Version) (verifyingKey : VerifyingKey)
    (signature : Signature) (payloadSize : PayloadSize) (payloadHash : Option Hash)
    (seqNum : SeqNum) (backlink extensions) :
    (c.headerItems version verifyingKey (some signature) payloadSize payloadHash seqNum backlink
      none ++ extensions.toList).eraseIdx 2 = c.headerItems version verifyingKey none payloadSize
        payloadHash seqNum backlink extensions := by
  simp [headerItems]

theorem untagged_hashes (h : c.cbor.Lawful Within LENGTH_LIMIT) {vs : List V}
    (hwi : ∀ v ∈ vs, Within v)
    (hvs : vs.map c.cbor.asBytes = hash.toList.map fun hash => .ok hash.bytes.toList) :
    vs.map c.cbor.untagged = hash.toList.map fun hash => c.cbor.byteString hash.bytes.toList := by
  cases hash with
  | none =>
    rw [List.map_eq_nil_iff.mp hvs]
    rfl
  | some hash =>
    obtain ⟨v, rfl, hv⟩ := List.map_eq_singleton_iff.mp hvs
    exact congrArg ([·]) (h.untagged_of_asBytes v _ (hwi v List.mem_cons_self) hv)

theorem Reads.untagged (hlaw : c.cbor.Lawful Within LENGTH_LIMIT) {fields : List V}
    (h : c.Reads header fields) (hwi : ∀ v ∈ fields, Within v) :
    fields.map c.cbor.untagged = c.headerItems header.version header.verifyingKey
      (some header.signature) header.payloadSize header.payloadHash header.seqNum
        header.backlink none := by
  obtain ⟨-, -, v0, v1, v2, v3, hashes, v5, links, rfl, hvers, hkey, hsig, hsize,
    hhashes, hseq, hlinks⟩ := h
  have hhashes := untagged_hashes hlaw (fun v hv => hwi v (by simp [hv])) hhashes
  have hlinks := untagged_hashes hlaw (fun v hv => hwi v (by simp [hv])) hlinks
  simp only [List.map_append, List.map_cons, List.map_nil, hhashes, hlinks,
    hlaw.untagged_of_toU16 v0 _ (hwi v0 (by simp)) hvers,
    hlaw.untagged_of_asBytes v1 _ (hwi v1 (by simp)) hkey,
    hlaw.untagged_of_asBytes v2 _ (hwi v2 (by simp)) hsig,
    hlaw.untagged_of_toU32 v3 _ (hwi v3 (by simp)) hsize,
    hlaw.untagged_of_toU32 v5 _ (hwi v5 (by simp)) hseq]
  simp [headerItems]

/-! ## From bytes to bytes -/

theorem within_bytes (h : c.cbor.Lawful Within LENGTH_LIMIT) {len : Nat}
    (hlen : len ≤ LENGTH_LIMIT) (bytes : Vector UInt8 len) :
    Within (c.cbor.byteString bytes.toList) := by
  apply h.within_byteString
  rwa [Vector.length_toList]

theorem within_hashes (h : c.cbor.Lawful Within LENGTH_LIMIT) (hash : Option Hash) :
    ∀ v ∈ hash.toList.map (fun hash => c.cbor.byteString hash.bytes.toList), Within v := by
  rw [List.forall_mem_map]
  exact fun hash _ => within_bytes h (by decide) hash.bytes

theorem within_headerItems (h : c.cbor.Lawful Within LENGTH_LIMIT) (version : Version)
    (verifyingKey : VerifyingKey) (signature : Signature) (payloadSize : PayloadSize)
    (payloadHash : Option Hash) (seqNum : SeqNum) (backlink : Option Hash) :
    ∀ v ∈ c.headerItems version verifyingKey (some signature) payloadSize payloadHash seqNum
      backlink none, Within v := by
  have hpay := within_hashes h payloadHash
  have hback := within_hashes h backlink
  have hvers := h.within_unsigned version.toUInt32
  intro v hv
  simp only [headerItems, List.mem_append, List.mem_cons, List.not_mem_nil, or_false,
    toList_some, List.map_cons, List.map_nil, toList_none] at hv
  rcases hv with (((((rfl | rfl) | rfl) | rfl) | hv) | rfl) | hv
  · exact hvers
  · exact within_bytes h (by decide) verifyingKey.bytes
  · exact within_bytes h (by decide) signature.bytes
  · exact h.within_unsigned payloadSize
  · exact hpay v hv
  · exact h.within_unsigned seqNum
  · exact hback v hv

theorem length_headerItems_le (version : Version) (verifyingKey : VerifyingKey)
    (signature : Option Signature) (payloadSize : PayloadSize) (payloadHash : Option Hash)
    (seqNum : SeqNum) (backlink : Option Hash) (extensions : Option V) :
    (c.headerItems version verifyingKey signature payloadSize payloadHash seqNum backlink
      extensions).length ≤ LENGTH_LIMIT := by
  have hsig := signature.length_toList_le
  have hpay := payloadHash.length_toList_le
  have hback := backlink.length_toList_le
  have hexts := extensions.length_toList_le
  simp only [headerItems, List.length_append, List.length_map, List.length_cons,
    List.length_nil, LENGTH_LIMIT]
  omega

theorem encodeAny_eq_iff (h : c.cbor.Lawful Within LENGTH_LIMIT)
    (hdcd : c.decodeAny bytes = .ok header) :
    c.encodeAny header = bytes ↔ c.Untagged bytes := by
  obtain ⟨cbor, fields, hcbor, hfields, hreads, -⟩ := decodeAny_eq_ok.mp hdcd
  obtain ⟨hcont, hlen, hwi⟩ := h.items_of_decode bytes cbor _ hcbor hfields
  have huntag := hreads.untagged h fun v hv => hwi v (List.mem_append_left _ hv)
  have hencode := h.encode_of_decode bytes cbor hcbor
  unfold encodeAny encodeHeader
  rw [headerItems_append, ← huntag]
  constructor
  · intro heq cbor' fields' hcbor' hfields'
    have hdecode' : c.cbor.decode bytes =
        .ok (c.cbor.array (fields.map c.cbor.untagged ++ header.extensions.toList)) := by
      rw [← heq]
      apply h.decode_encode
      · rw [huntag, ← headerItems_append]
        exact length_headerItems_le _ _ _ _ _ _ _ _
      · refine List.forall_mem_append.mpr ⟨?_, (List.forall_mem_append.mp hwi).2⟩
        rw [huntag]
        exact within_headerItems h _ _ _ _ _ _ _
    -- so the array is the one that is written, with the fields in it
    rw [hcbor] at hcbor' hdecode'
    cases hcbor'
    cases hdecode'
    rw [h.intoArray_array] at hfields hfields'
    cases hfields'
    injection hfields with hfields
    have hfixed := List.append_cancel_right hfields
    refine ⟨h.untagged_array _, ?_⟩
    rw [hfields, hreads.fixedFields_eq]
    exact List.map_inj_left.mp (hfixed.trans (List.map_id _).symm)
  · intro hplain
    obtain ⟨harray, hfixed⟩ := hplain cbor _ hcbor hfields
    rw [hreads.fixedFields_eq] at hfixed
    rw [List.map_congr_left hfixed, List.map_id', ← hcont, harray, hencode]

theorem encode_eq_encodeAny (header : Header V E) :
    c.encode header = c.encodeAny header.toAnyHeader := by
  rfl

theorem tryFrom_eq_ok {value : AnyHeader V} {header : Header V E} :
    c.tryFrom value = .ok header ↔
      value = header.toAnyHeader ∧
        c.extensionsFrom header.extensionsCbor = .ok header.extensions := by
  unfold tryFrom
  simp only [except_bind_eq_ok]
  constructor
  · rintro ⟨extensions, hexts, h⟩
    cases h
    exact ⟨rfl, hexts⟩
  · rintro ⟨rfl, hexts⟩
    exact ⟨header.extensions, hexts, rfl⟩

theorem decode_eq_ok {header : Header V E} :
    c.decode bytes = .ok header ↔ c.decodeAny bytes = .ok header.toAnyHeader ∧
      c.extensionsFrom header.extensionsCbor = .ok header.extensions := by
  unfold decode
  simp only [except_bind_eq_ok, tryFrom_eq_ok]
  constructor
  · rintro ⟨value, hval, rfl, hexts⟩
    exact ⟨hval, hexts⟩
  · rintro ⟨hval, hexts⟩
    exact ⟨_, hval, rfl, hexts⟩

/-! ## From headers to headers -/

theorem reads_headerItems (h : c.cbor.Lawful Within LENGTH_LIMIT)
    (hpay : header.payloadHash.isSome = decide (header.payloadSize > 0))
    (hchn : header.backlink.isSome = decide (header.seqNum > 0)) :
    c.Reads header (c.headerItems header.version header.verifyingKey (some header.signature)
      header.payloadSize header.payloadHash header.seqNum header.backlink none) := by
  have hhash : ∀ hash : Option Hash,
      (hash.toList.map fun hash => c.cbor.byteString hash.bytes.toList).map c.cbor.asBytes =
        hash.toList.map fun hash => .ok hash.bytes.toList := by
    intro hash
    rw [List.map_map]
    apply List.map_congr_left
    intro hash _
    exact h.asBytes_byteString _
  refine ⟨hpay, hchn, _, _, _, _, _, _, _, ?_, h.toU16_unsigned _, h.asBytes_byteString _,
    h.asBytes_byteString _, h.toU32_unsigned _, hhash _, h.toU32_unsigned _, hhash _⟩
  simp [headerItems]

end HeaderCodec

/-! ## Headers that are built -/

/-- Only `body` and `chain` have been called. -/
inductive Builder.Chained (crypto : Crypto ι) : Builder → Prop
  | new : Chained crypto Builder.new
  | body {b : Builder} (h : Chained crypto b) (bytes : Bytes) : Chained crypto (b.body crypto bytes)
  | chain {b : Builder} (h : Chained crypto b) (seqNum : SeqNum) (backlink : Hash) :
      Chained crypto (b.chain seqNum backlink)

structure Signer.Genuine (signer : Signer) (crypto : Crypto ι) : Prop where
  key : crypto.checkKey signer.verifyingKey.bytes = .ok ()
  verify : ∀ bytes, crypto.verify signer.verifyingKey bytes (signer.sign bytes) = true

/-- Extensions are read as they were written, within the limits of the decoder. -/
def ExtensionsType.Readable (x : ExtensionsType V E ς) (Within : V → Prop) (extensions : E) :
    Prop :=
  if h : x.zeroSized = true then x.zeroed h = extensions
  else ∃ cbor, x.serialized extensions = .ok cbor ∧ Within cbor ∧
    x.deserialized cbor = .ok extensions

theorem isSome_payloadHash (size : PayloadSize) (hash : Hash) :
    (if size = 0 then none else some hash).isSome = decide (size > 0) := by
  rw [Bool.eq_iff_iff]
  simp [UInt32.pos_iff_ne_zero]

theorem isSome_backlink (seqNum : SeqNum) (hash : Hash) :
    (if seqNum > 0 then some hash else none).isSome = decide (seqNum > 0) := by
  rw [Bool.eq_iff_iff]
  simp

theorem Builder.Chained.consistent {crypto : Crypto ι} {b : Builder} (h : b.Chained crypto) :
    b.payloadHash.isSome = decide (b.payloadSize > 0) ∧
      b.backlink.isSome = decide (b.seqNum > 0) := by
  induction h with
  | new => exact ⟨rfl, rfl⟩
  | body h bytes ih => exact ⟨isSome_payloadHash _ _, ih.2⟩
  | chain h seqNum backlink ih => exact ⟨ih.1, isSome_backlink _ _⟩

variable {c : HeaderCodec V E ε ς ι}

theorem Builder.extensionsCbor_eq_ok {Within : V → Prop} {extensions : E}
    (h : c.extensions.Readable Within extensions) :
    ∃ cbor, Builder.extensionsCbor c extensions = .ok cbor ∧ (∀ v ∈ cbor.toList, Within v) ∧
      c.extensionsFrom cbor = .ok extensions := by
  unfold ExtensionsType.Readable at h
  unfold Builder.extensionsCbor extensionsFrom
  split at h
  · rename_i hzero
    refine ⟨none, if_neg (not_not_intro hzero), nofun, ?_⟩
    rw [dif_pos hzero, h]
  · rename_i hsized
    obtain ⟨cbor, hser, hwi, hdeser⟩ := h
    refine ⟨some cbor, ?_, ?_, ?_⟩
    · rw [if_pos hsized, hser]
    · intro v hv
      rw [toList_some, List.mem_singleton] at hv
      rwa [hv]
    · dsimp only
      rw [if_neg hsized, hdeser]
      rfl

theorem Builder.decode_build {Within : V → Prop} (h : c.cbor.Lawful Within LENGTH_LIMIT)
    {b : Builder} (hb : b.Chained c.crypto) {signer : Signer} (hsigner : signer.Genuine c.crypto)
    {extensions : E} (hexts : c.extensions.Readable Within extensions) :
    ∃ header, b.build c signer extensions = .ok header ∧
      c.decode (c.encode header) = .ok header := by
  obtain ⟨cbor, hcbor, hwi, hfrom⟩ := Builder.extensionsCbor_eq_ok hexts
  obtain ⟨hpay, hchn⟩ := hb.consistent
  unfold Builder.build
  rw [hcbor]
  refine ⟨_, rfl, ?_⟩
  rw [decode_eq_ok]
  refine ⟨?_, hfrom⟩
  rw [decodeAny_eq_ok]
  refine ⟨_, _, ?_, h.intoArray_array _, reads_headerItems h hpay hchn, rfl,
    hsigner.key, ?_, rfl, rfl⟩
  · unfold encode encodeHeader
    rw [headerItems_append]
    apply h.decode_encode
    · rw [← headerItems_append]
      exact length_headerItems_le _ _ _ _ _ _ _ _
    · exact List.forall_mem_append.mpr ⟨within_headerItems h _ _ _ _ _ _ _, hwi⟩
  · -- without the signature, the fields are those that were signed
    rw [eraseIdx_headerItems]
    exact hsigner.verify _

/-- Headers which are built decode to themselves, and a header encodes to the bytes it was decoded
from if and only if no field is tagged. -/
theorem header_roundTrip (c : HeaderCodec V E ε ς ι) (Within : V → Prop)
    (h : c.cbor.Lawful Within LENGTH_LIMIT) :
    (∀ (b : Builder) (signer : Signer) (extensions : E), b.Chained c.crypto →
      signer.Genuine c.crypto → c.extensions.Readable Within extensions →
      ∃ header, b.build c signer extensions = .ok header ∧
        c.decode (c.encode header) = .ok header) ∧
    ∀ (bytes : Bytes) (header : Header V E), c.decode bytes = .ok header →
      (c.encode header = bytes ↔ c.Untagged bytes) := by
  constructor
  · intro b signer extensions hb hsigner hexts
    exact Builder.decode_build h hb hsigner hexts
  · intro bytes header hdcd
    obtain ⟨hany, -⟩ := decode_eq_ok.mp hdcd
    rw [encode_eq_encodeAny]
    exact encodeAny_eq_iff h hany

/-! ## A tagged header -/

def sampleCodec : HeaderCodec CborValue UInt32 Unit Unit Unit where
  cbor := deterministicCbor LENGTH_LIMIT 63
  crypto := ⟨fun bytes => ⟨Vector.replicate HASH_LEN (UInt8.ofNat bytes.length)⟩, fun _ => .ok (),
    fun _ _ _ => true⟩
  extensions := ⟨false, nofun, fun n => .ok (.unsigned n.toNat), CborValue.toU32⟩

theorem lawful_sampleCodec : sampleCodec.cbor.Lawful
    (fun v => v.within LENGTH_LIMIT 63 = true) LENGTH_LIMIT :=
  lawful_deterministicCbor (by decide) 62

def sampleSigner : Signer where
  verifyingKey := ⟨Vector.replicate VERIFYING_KEY_LEN 7⟩
  sign _ := ⟨Vector.replicate SIGNATURE_LEN 8⟩

theorem header_roundTrip_sampleCodec : ∃ header,
    ((Builder.new.body sampleCodec.crypto [1, 2, 3]).chain 5
      ⟨Vector.replicate HASH_LEN 0⟩).build sampleCodec sampleSigner 9 = .ok header ∧
    sampleCodec.decode (sampleCodec.encode header) = .ok header :=
  (header_roundTrip sampleCodec _ lawful_sampleCodec).1 _ _ _
    ((Builder.Chained.new.body _).chain _ _) ⟨rfl, fun _ => rfl⟩
    ⟨_, rfl, lawful_sampleCodec.within_unsigned 9, lawful_sampleCodec.toU32_unsigned 9⟩

def taggedBytes : Bytes :=
  CborValue.encode (.array [.tag 7 (.unsigned 1),
    .byteString sampleSigner.verifyingKey.bytes.toList,
    .byteString (sampleSigner.sign []).bytes.toList, .unsigned 0, .unsigned 0, .unsigned 9])

/-- It is decoded, and encoded to other bytes. -/
theorem encode_taggedBytes : ∃ header, sampleCodec.decode taggedBytes = .ok header ∧
    sampleCodec.encode header ≠ taggedBytes := by
  refine ⟨⟨1, sampleSigner.verifyingKey, sampleSigner.sign [], 0, none, 0, none, 9,
    some (.unsigned 9), UInt32.ofNat taggedBytes.length,
    sampleCodec.crypto.digest taggedBytes⟩, ?_, ?_⟩
  · rfl
  · decide +kernel

end P2Panda.Core
