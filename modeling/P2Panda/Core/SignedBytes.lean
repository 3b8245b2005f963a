import P2Panda.Core.RoundTrip

/-!
# Signed bytes

The author of a header signs its encoding without the signature. Whether a hash is there is said by
the number before it, so these bytes determine the header.
-/

namespace P2Panda.Core

open P2Panda.Library List HeaderCodec

variable {V E ε ς ι : Type}

/-- The optional fields are there when the numbers before them say so. -/
structure AnyHeader.Consistent (header : AnyHeader V) : Prop where
  payload : header.payloadHash.isSome = decide (header.payloadSize > 0)
  chain : header.backlink.isSome = decide (header.seqNum > 0)

/-- The same signed fields. Size and digest are of the encoding with the signature. -/
structure AnyHeader.SameFields (header header' : AnyHeader V) : Prop where
  version : header.version = header'.version
  verifyingKey : header.verifyingKey = header'.verifyingKey
  payloadSize : header.payloadSize = header'.payloadSize
  payloadHash : header.payloadHash = header'.payloadHash
  seqNum : header.seqNum = header'.seqNum
  backlink : header.backlink = header'.backlink
  extensions : header.extensions = header'.extensions

/-- A signature verifies for one byte string at most, whichever key is asked. -/
def Crypto.Binding (crypto : Crypto ι) : Prop :=
  ∀ (key key' : VerifyingKey) (bytes bytes' : Bytes) (signature : Signature),
    crypto.verify key bytes signature = true → crypto.verify key' bytes' signature = true →
    bytes = bytes'

namespace HeaderCodec

variable {c : HeaderCodec V E ε ς ι} {Encodable : V → Prop} {header header' : AnyHeader V}
  {hash hash' : Option Hash}

variable (c) in
/-- What is signed: `encode_header` without a signature. -/
def unsignedBytes (header : AnyHeader V) : Bytes :=
  c.encodeHeader header.version header.verifyingKey none header.payloadSize header.payloadHash
    header.seqNum header.backlink header.extensions

/-! ## Items -/

theorem unsignedItems_inj {version key size seqNum version' key' size' seqNum' : V}
    {hash backlink extensions hash' backlink' extensions' : List V}
    (h : [version, key, size] ++ hash ++ [seqNum] ++ backlink ++ extensions =
      [version', key', size'] ++ hash' ++ [seqNum'] ++ backlink' ++ extensions')
    (hhash : size = size' → hash.length = hash'.length)
    (hback : seqNum = seqNum' → backlink.length = backlink'.length) :
    version = version' ∧ key = key' ∧ size = size' ∧ hash = hash' ∧ seqNum = seqNum' ∧
      backlink = backlink' ∧ extensions = extensions' := by
  simp only [append_assoc, cons_append, nil_append, List.cons.injEq] at h
  obtain ⟨hvers, hkey, hsize, hrest⟩ := h
  obtain ⟨hhash, hrest⟩ := append_inj hrest (hhash hsize)
  obtain ⟨hseq, hrest⟩ := List.cons.inj hrest
  obtain ⟨hback, hexts⟩ := append_inj hrest (hback hseq)
  exact ⟨hvers, hkey, hsize, hhash, hseq, hback, hexts⟩

theorem length_toList_of_isSome_eq {α : Type} {o o' : Option α} (h : o.isSome = o'.isSome) :
    o.toList.length = o'.toList.length := by
  cases o with
  | none =>
    cases o' with
    | none => rfl
    | some _ => cases h
  | some _ =>
    cases o' with
    | none => cases h
    | some _ => rfl

theorem toList_inj {α : Type} {o o' : Option α} (h : o.toList = o'.toList) : o = o' := by
  have hhead := congrArg List.head? h
  rwa [Option.head?_toList, Option.head?_toList] at hhead

theorem length_payloadHash_eq (h : header.Consistent) (h' : header'.Consistent)
    (hsize : header.payloadSize = header'.payloadSize) :
    header.payloadHash.toList.length = header'.payloadHash.toList.length :=
  length_toList_of_isSome_eq (by rw [h.payload, h'.payload, hsize])

theorem length_backlink_eq (h : header.Consistent) (h' : header'.Consistent)
    (hseq : header.seqNum = header'.seqNum) :
    header.backlink.toList.length = header'.backlink.toList.length :=
  length_toList_of_isSome_eq (by rw [h.chain, h'.chain, hseq])

/-! ## Headers that are encoded -/

section Encoded

variable (h : c.cbor.Injective Encodable LENGTH_LIMIT)
include h

theorem verifyingKey_inj {key key' : VerifyingKey}
    (heq : c.cbor.byteString key.bytes.toList = c.cbor.byteString key'.bytes.toList) :
    key = key' :=
  congrArg VerifyingKey.mk (Vector.toList_inj.mp (h.byteString_inj _ _ heq))

theorem hashes_inj (heq : hash.toList.map (fun hash => c.cbor.byteString hash.bytes.toList) =
      hash'.toList.map (fun hash => c.cbor.byteString hash.bytes.toList)) :
    hash = hash' := by
  apply toList_inj
  apply map_injective_iff.mpr _ heq
  intro hash hash' hbts
  exact congrArg Hash.mk (Vector.toList_inj.mp (h.byteString_inj _ _ hbts))

theorem version_inj {version version' : Version}
    (heq : c.cbor.unsigned version.toNat = c.cbor.unsigned version'.toNat) :
    version = version' := by
  exact UInt16.toUInt32_inj.mp (h.unsigned_inj _ _ heq)

theorem encodable_hash {hash : Option Hash} {v : V}
    (hv : v ∈ hash.toList.map fun hash => c.cbor.byteString hash.bytes.toList) :
    Encodable v := by
  obtain ⟨hash, -, rfl⟩ := mem_map.mp hv
  apply h.encodable_byteString
  rw [Vector.length_toList]
  decide

theorem encodable_headerItems {header : AnyHeader V}
    (hexts : ∀ v ∈ header.extensions.toList, Encodable v) :
    ∀ v ∈ c.headerItems header.version header.verifyingKey none header.payloadSize
      header.payloadHash header.seqNum header.backlink header.extensions, Encodable v := by
  intro v hv
  simp only [headerItems, mem_append, mem_cons, not_mem_nil, or_false,
    Option.toList_none, map_nil] at hv
  rcases hv with ((((((rfl | rfl)) | rfl) | hv) | rfl) | hv) | hv
  · rw [← UInt16.toNat_toUInt32]
    exact h.encodable_unsigned _
  · apply h.encodable_byteString
    rw [Vector.length_toList]
    decide
  · exact h.encodable_unsigned _
  · exact encodable_hash h hv
  · exact h.encodable_unsigned _
  · exact encodable_hash h hv
  · exact hexts v hv

theorem sameFields_of_unsignedBytes_eq (hhdr : header.Consistent) (hheader' : header'.Consistent)
    (hexts : ∀ v ∈ header.extensions.toList, Encodable v)
    (hextensions' : ∀ v ∈ header'.extensions.toList, Encodable v)
    (heq : c.unsignedBytes header = c.unsignedBytes header') : header.SameFields header' := by
  have hitems := h.encode_inj _ _ (length_headerItems_le _ _ _ _ _ _ _ _)
    (length_headerItems_le _ _ _ _ _ _ _ _) (encodable_headerItems h hexts)
    (encodable_headerItems h hextensions') heq
  obtain ⟨hvers, hkey, hsize, hhash, hseq, hback, hrest⟩ := unsignedItems_inj hitems (by
        intro hsize
        rw [length_map, length_map]
        exact length_payloadHash_eq hhdr hheader' (h.unsigned_inj _ _ hsize))
      (by
        intro hseq
        rw [length_map, length_map]
        exact length_backlink_eq hhdr hheader' (h.unsigned_inj _ _ hseq))
  exact ⟨version_inj h hvers, verifyingKey_inj h hkey, h.unsigned_inj _ _ hsize,
    hashes_inj h hhash, h.unsigned_inj _ _ hseq, hashes_inj h hback, toList_inj hrest⟩

end Encoded

/-! ## Headers that are decoded -/

theorem hashes_eq_of_read {values : List V}
    (h : values.map c.cbor.asBytes = hash.toList.map fun hash => .ok hash.bytes.toList)
    (h' : values.map c.cbor.asBytes = hash'.toList.map fun hash => .ok hash.bytes.toList) :
    hash = hash' := by
  apply toList_inj
  apply map_injective_iff.mpr _ (h.symm.trans h')
  intro hash hash' hbts
  exact congrArg Hash.mk (Vector.toList_inj.mp (Except.ok.inj hbts))

theorem length_eq_of_read {values values' : List V}
    (h : values.map c.cbor.asBytes = hash.toList.map fun hash => .ok hash.bytes.toList)
    (h' : values'.map c.cbor.asBytes = hash'.toList.map fun hash => .ok hash.bytes.toList)
    (hlen : hash.toList.length = hash'.toList.length) : values.length = values'.length := by
  have hvals := congrArg List.length h
  have hvalues' := congrArg List.length h'
  rw [length_map, length_map] at hvals hvalues'
  rw [hvals, hvalues', hlen]

/-- Fields that agree but for the signature are read as the same fields, tags included. -/
theorem Reads.sameFields {fields fields' : List V} (h : c.Reads header fields)
    (h' : c.Reads header' fields') (heq : (fields ++ header.extensions.toList).eraseIdx 2 =
      (fields' ++ header'.extensions.toList).eraseIdx 2) : header.SameFields header' := by
  obtain ⟨hpay, hchn, v0, v1, v2, v3, hash, v5, backlink, rfl, hvers, hkey, -, hsize,
    hhash, hseq, hback⟩ := h
  obtain ⟨hpayload', hchain', w0, w1, w2, w3, hash', w5, backlink', rfl, hversion', hkey', -,
    hsize', hhash', hseqNum', hbacklink'⟩ := h'
  have hsizes : v3 = w3 → header.payloadSize = header'.payloadSize := by
    rintro rfl
    exact Except.ok.inj (hsize.symm.trans hsize')
  have hseqNums : v5 = w5 → header.seqNum = header'.seqNum := by
    rintro rfl
    exact Except.ok.inj (hseq.symm.trans hseqNum')
  obtain ⟨rfl, rfl, heqSize, rfl, heqSeqNum, rfl, hrest⟩ := unsignedItems_inj heq
    (fun h => length_eq_of_read hhash hhash'
      (length_payloadHash_eq ⟨hpay, hchn⟩ ⟨hpayload', hchain'⟩ (hsizes h)))
    (fun h => length_eq_of_read hback hbacklink'
      (length_backlink_eq ⟨hpay, hchn⟩ ⟨hpayload', hchain'⟩ (hseqNums h)))
  refine ⟨Except.ok.inj (hvers.symm.trans hversion'), ?_, hsizes heqSize,
    hashes_eq_of_read hhash hhash', hseqNums heqSeqNum, hashes_eq_of_read hback hbacklink',
    toList_inj hrest⟩
  exact congrArg VerifyingKey.mk (Vector.toList_inj.mp (Except.ok.inj (hkey.symm.trans hkey')))

theorem sameFields_of_decodeAny (h : c.cbor.Injective Encodable LENGTH_LIMIT)
    (hbind : c.crypto.Binding) {bytes bytes' : Bytes} (hdcd : c.decodeAny bytes = .ok header)
    (hdecode' : c.decodeAny bytes' = .ok header')
    (hsig : header.signature = header'.signature) : header.SameFields header' := by
  obtain ⟨cbor, fields, hcbor, hfields, hreads, -, -, hver, -⟩ := decodeAny_eq_ok.mp hdcd
  obtain ⟨cbor', fields', hcbor', hfields', hreads', -, -, hverify', -⟩ :=
    decodeAny_eq_ok.mp hdecode'
  obtain ⟨hlen, hencodable⟩ := h.items_of_decode _ _ _ hcbor hfields
  obtain ⟨hlength', hencodable'⟩ := h.items_of_decode _ _ _ hcbor' hfields'
  rw [← hsig] at hverify'
  have hsigned := hbind _ _ _ _ _ hver hverify'
  apply hreads.sameFields hreads'
  refine h.encode_inj _ _ ?_ ?_ ?_ ?_ hsigned
  · exact Nat.le_trans (length_eraseIdx_le _ _) hlen
  · exact Nat.le_trans (length_eraseIdx_le _ _) hlength'
  · intro v hv
    exact hencodable v (mem_of_mem_eraseIdx hv)
  · intro v hv
    exact hencodable' v (mem_of_mem_eraseIdx hv)

end HeaderCodec

/-- With an injective encoder, consistent headers with the same signed bytes have the same fields.
Where a signature verifies for one byte string only, it is valid for one header only, encoded or
decoded. -/
theorem unsignedBytes_determine (c : HeaderCodec V E ε ς ι) (Encodable : V → Prop)
    (h : c.cbor.Injective Encodable LENGTH_LIMIT) :
    (∀ header header' : AnyHeader V, header.Consistent → header'.Consistent →
      (∀ v ∈ header.extensions.toList, Encodable v) →
      (∀ v ∈ header'.extensions.toList, Encodable v) →
      (c.unsignedBytes header = c.unsignedBytes header' → header.SameFields header') ∧
      (c.crypto.Binding → ∀ signature : Signature,
        c.crypto.verify header.verifyingKey (c.unsignedBytes header) signature = true →
        c.crypto.verify header'.verifyingKey (c.unsignedBytes header') signature = true →
        header.SameFields header')) ∧
    (c.crypto.Binding → ∀ (bytes bytes' : Bytes) (header header' : Header V E),
      c.decode bytes = .ok header → c.decode bytes' = .ok header' →
      header.signature = header'.signature →
      header.toAnyHeader.SameFields header'.toAnyHeader ∧
        header.extensions = header'.extensions) := by
  refine ⟨?_, ?_⟩
  · intro header header' hhdr hheader' hexts hextensions'
    have hfields : c.unsignedBytes header = c.unsignedBytes header' → header.SameFields header' :=
      sameFields_of_unsignedBytes_eq h hhdr hheader' hexts hextensions'
    refine ⟨hfields, ?_⟩
    intro hbind signature hver hverify'
    exact hfields (hbind _ _ _ _ _ hver hverify')
  · intro hbind bytes bytes' header header' hdcd hdecode' hsig
    obtain ⟨hany, hfrom⟩ := decode_eq_ok.mp hdcd
    obtain ⟨hany', hfrom'⟩ := decode_eq_ok.mp hdecode'
    have hfields := sameFields_of_decodeAny h hbind hany hany' hsig
    refine ⟨hfields, ?_⟩
    -- the extensions are read from one value
    have hcbor : header.extensionsCbor = header'.extensionsCbor := hfields.extensions
    rw [hcbor, hfrom'] at hfrom
    exact (Except.ok.inj hfrom).symm

/-! ## A signature that is tagged -/

def signedWith (signature : CborValue) : Bytes :=
  CborValue.encode (.array [.unsigned 1, .byteString sampleSigner.verifyingKey.bytes.toList,
    signature, .unsigned 0, .unsigned 0, .unsigned 9])

def bindingCodec : HeaderCodec CborValue UInt32 Unit Unit Unit where
  cbor := sampleCodec.cbor
  crypto := ⟨sampleCodec.crypto.digest, sampleCodec.crypto.checkKey,
    fun key bytes _ => bytes == CborValue.encode (.array [.unsigned 1,
      .byteString key.bytes.toList, .unsigned 0, .unsigned 0, .unsigned 9]) &&
      key == sampleSigner.verifyingKey⟩
  extensions := sampleCodec.extensions

theorem binding_bindingCodec : bindingCodec.crypto.Binding := by
  intro key key' bytes bytes' signature hver hverify'
  simp only [bindingCodec, Bool.and_eq_true, beq_iff_eq] at hver hverify'
  rw [hver.1, hverify'.1, hver.2, hverify'.2]

def signedHeader (signature : CborValue) : Header CborValue UInt32 where
  version := 1
  verifyingKey := sampleSigner.verifyingKey
  signature := sampleSigner.sign []
  payloadSize := 0
  payloadHash := none
  seqNum := 0
  backlink := none
  extensions := 9
  extensionsCbor := some (.unsigned 9)
  size := UInt32.ofNat (signedWith signature).length
  digest := sampleCodec.crypto.digest (signedWith signature)

/-- Tagging the signature gives other bytes with the same fields. -/
theorem unsignedBytes_determine_bindingCodec : ∃ header header',
    bindingCodec.decode (signedWith (.byteString (sampleSigner.sign []).bytes.toList)) =
      .ok header ∧
    bindingCodec.decode (signedWith (.tag 7 (.byteString (sampleSigner.sign []).bytes.toList))) =
      .ok header' ∧
    header.digest ≠ header'.digest ∧
    bindingCodec.unsignedBytes header.toAnyHeader =
      bindingCodec.unsignedBytes header'.toAnyHeader ∧
    header.toAnyHeader.SameFields header'.toAnyHeader ∧
    header.extensions = header'.extensions := by
  obtain ⟨hencoded, hdcd2⟩ := unsignedBytes_determine bindingCodec _ lawful_sampleCodec.injective
  have hplain : bindingCodec.decode (signedWith (.byteString (sampleSigner.sign []).bytes.toList)) =
      .ok (signedHeader (.byteString (sampleSigner.sign []).bytes.toList)) := rfl
  have htagged : bindingCodec.decode (signedWith
      (.tag 7 (.byteString (sampleSigner.sign []).bytes.toList))) =
      .ok (signedHeader (.tag 7 (.byteString (sampleSigner.sign []).bytes.toList))) := rfl
  refine ⟨_, _, hplain, htagged, by decide +kernel, rfl, ?_,
    (hdcd2 binding_bindingCodec _ _ _ _ hplain htagged rfl).2⟩
  refine (hencoded _ _ ⟨rfl, rfl⟩ ⟨rfl, rfl⟩ ?_ ?_).1 rfl
  · exact forall_mem_singleton.mpr (lawful_sampleCodec.within_unsigned 9)
  · exact forall_mem_singleton.mpr (lawful_sampleCodec.within_unsigned 9)

end P2Panda.Core
