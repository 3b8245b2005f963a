import P2Panda.Library.Cbor

/-!
# Deterministic CBOR

Unsigned integers, byte strings, arrays and tags in their shortest encodings: enough to run programs
that use a library for it.
-/

namespace P2Panda.Library

open List

inductive CborValue where
  | unsigned (n : Nat)
  | byteString (bytes : List UInt8)
  | array (items : List CborValue)
  | tag (number : Nat) (content : CborValue)

namespace CborValue

def bigEndian : Nat → Nat → List UInt8
  | 0, _ => []
  | width + 1, n => bigEndian width (n / 256) ++ [UInt8.ofNat (n % 256)]

def ofBigEndian (bytes : List UInt8) : Nat :=
  bytes.foldl (fun n byte => n * 256 + byte.toNat) 0

theorem length_bigEndian (width n : Nat) : (bigEndian width n).length = width := by
  induction width generalizing n with
  | zero => rfl
  | succ width ih => rw [bigEndian, length_append, ih, length_singleton]

theorem ofBigEndian_bigEndian {width n : Nat} (h : n < 256 ^ width) :
    ofBigEndian (bigEndian width n) = n := by
  induction width generalizing n with
  | zero =>
    rw [Nat.pow_zero, Nat.lt_one_iff] at h
    rw [h]
    rfl
  | succ width ih =>
    have hdiv : n / 256 < 256 ^ width := by
      rw [Nat.div_lt_iff_lt_mul (by decide)]
      exact h
    have hfold : ofBigEndian (bigEndian (width + 1) n) =
        ofBigEndian (bigEndian width (n / 256)) * 256 + (UInt8.ofNat (n % 256)).toNat := by
      rw [bigEndian, ofBigEndian, foldl_append]
      rfl
    have hlast : (UInt8.ofNat (n % 256)).toNat = n % 256 :=
      UInt8.toNat_ofNat_of_lt' (Nat.mod_lt _ (by decide))
    rw [hfold, ih hdiv]
    omega

/-- How many bytes follow the first one, as an exponent of two. -/
def widthExponent (n : Nat) : Nat :=
  if n < 2 ^ 8 then 0 else if n < 2 ^ 16 then 1 else if n < 2 ^ 32 then 2 else 3

/-- The shortest head with a major type and an argument. -/
def head (major n : Nat) : List UInt8 :=
  if n < 24 then [UInt8.ofNat (major * 32 + n)]
  else UInt8.ofNat (major * 32 + (24 + widthExponent n)) :: bigEndian (2 ^ widthExponent n) n

/-- Major type and argument of a head, and what follows it. -/
def readHead : List UInt8 → Option (Nat × Nat × List UInt8)
  | [] => none
  | first :: rest =>
    let major := first.toNat / 32
    let info := first.toNat % 32
    if info < 24 then some (major, info, rest)
    else if info < 28 ∧ 2 ^ (info - 24) ≤ rest.length then
      some (major, ofBigEndian (rest.take (2 ^ (info - 24))), rest.drop (2 ^ (info - 24)))
    else none

theorem lt_of_widthExponent {n : Nat} (h : n < 2 ^ 64) : n < 256 ^ (2 ^ widthExponent n) := by
  unfold widthExponent
  split_ifs <;> omega

theorem widthExponent_lt (n : Nat) : widthExponent n < 4 := by
  unfold widthExponent
  split_ifs <;> decide

theorem readHead_head {major n : Nat} (hmajor : major < 8) (hn : n < 2 ^ 64)
    (rest : List UInt8) : readHead (head major n ++ rest) = some (major, n, rest) := by
  unfold head
  split_ifs
  · have hfst : (UInt8.ofNat (major * 32 + n)).toNat = major * 32 + n :=
      UInt8.toNat_ofNat_of_lt' (by change _ < 256; omega)
    rw [singleton_append, readHead, hfst, if_pos (by omega),
      show (major * 32 + n) / 32 = major by omega, show (major * 32 + n) % 32 = n by omega]
  · have hexponent := widthExponent_lt n
    have hfst : (UInt8.ofNat (major * 32 + (24 + widthExponent n))).toNat =
        major * 32 + (24 + widthExponent n) :=
      UInt8.toNat_ofNat_of_lt' (by change _ < 256; omega)
    rw [cons_append, readHead, hfst,
      show (major * 32 + (24 + widthExponent n)) % 32 = 24 + widthExponent n by omega,
      show (major * 32 + (24 + widthExponent n)) / 32 = major by omega, if_neg (by omega),
      Nat.add_sub_cancel_left]
    have hlen := length_bigEndian (2 ^ widthExponent n) n
    rw [if_pos ⟨by omega, by rw [length_append]; omega⟩, take_left' hlen, drop_left' hlen,
      ofBigEndian_bigEndian (lt_of_widthExponent hn)]

mutual

def encode : CborValue → List UInt8
  | .unsigned n => head 0 n
  | .byteString bytes => head 2 bytes.length ++ bytes
  | .array items => head 4 items.length ++ encodeAll items
  | .tag number content => head 6 number ++ encode content

def encodeAll : List CborValue → List UInt8
  | [] => []
  | v :: items => encode v ++ encodeAll items

end

/-- A number of items, read one after the other. -/
def readAll (read : List UInt8 → Option (CborValue × List UInt8)) :
    Nat → List UInt8 → Option (List CborValue × List UInt8)
  | 0, bytes => some ([], bytes)
  | count + 1, bytes => do
    let (v, bytes) ← read bytes
    let (items, bytes) ← readAll read count bytes
    return (v :: items, bytes)

/-- A value of limited depth, and what follows it. -/
def read : Nat → List UInt8 → Option (CborValue × List UInt8)
  | 0, _ => none
  | depth + 1, bytes => do
    let (major, n, rest) ← readHead bytes
    match major with
    | 0 => return (.unsigned n, rest)
    | 2 => if n ≤ rest.length then return (.byteString (rest.take n), rest.drop n) else none
    | 4 =>
      let (items, rest) ← readAll (read depth) n rest
      return (.array items, rest)
    | 6 =>
      let (content, rest) ← read depth rest
      return (.tag n content, rest)
    | _ => none

/-- Whether depth and lengths are limited. -/
def within (lengthLimit : Nat) : Nat → CborValue → Bool
  | 0, _ => false
  | _ + 1, .unsigned n => n < 2 ^ 64
  | _ + 1, .byteString bytes => bytes.length ≤ lengthLimit
  | depth + 1, .array items => items.length ≤ lengthLimit && items.all (within lengthLimit depth)
  | depth + 1, .tag number content => number < 2 ^ 64 && within lengthLimit depth content

/-- Only the shortest encoding is decoded. -/
def decode (lengthLimit depth : Nat) (bytes : List UInt8) : Except Unit CborValue :=
  match read depth bytes with
  | some (v, []) =>
    if v.within lengthLimit depth ∧ v.encode = bytes then .ok v else .error ()
  | _ => .error ()

def untagged : CborValue → CborValue
  | .tag _ content => untagged content
  | v => v

def toU16 (v : CborValue) : Except Unit UInt16 :=
  match v.untagged with
  | .unsigned n => if n < UInt16.size then .ok (UInt16.ofNat n) else .error ()
  | _ => .error ()

def toU32 (v : CborValue) : Except Unit UInt32 :=
  match v.untagged with
  | .unsigned n => if n < UInt32.size then .ok (UInt32.ofNat n) else .error ()
  | _ => .error ()

def asBytes (v : CborValue) : Except Unit (List UInt8) :=
  match v.untagged with
  | .byteString bytes => .ok bytes
  | _ => .error ()

def intoArray (v : CborValue) : Except Unit (List CborValue) :=
  match v.untagged with
  | .array items => .ok items
  | _ => .error ()

variable {lengthLimit : Nat} {items : List CborValue} {depth : Nat} {v : CborValue}

theorem readAll_encodeAll {read : List UInt8 → Option (CborValue × List UInt8)}
    (h : ∀ v ∈ items, ∀ rest, read (encode v ++ rest) = some (v, rest)) (rest : List UInt8) :
    readAll read items.length (encodeAll items ++ rest) = some (items, rest) := by
  induction items with
  | nil => rfl
  | cons v items ih =>
    rw [forall_mem_cons] at h
    rw [encodeAll, append_assoc, length_cons, readAll, h.1]
    simp [ih h.2]

theorem read_encode (hlimit : lengthLimit < 2 ^ 64) (h : v.within lengthLimit depth = true)
    (rest : List UInt8) :
    read depth (v.encode ++ rest) = some (v, rest) := by
  induction depth generalizing v rest with
  | zero => cases h
  | succ depth ih =>
    cases v with
    | unsigned n =>
      rw [encode, read, readHead_head (by decide) (of_decide_eq_true h)]
      rfl
    | byteString bytes =>
      have hlen : bytes.length ≤ lengthLimit := of_decide_eq_true h
      rw [encode, append_assoc, read, readHead_head (by decide) (by omega)]
      simp
    | array items =>
      rw [within, Bool.and_eq_true, decide_eq_true_eq, all_eq_true] at h
      rw [encode, append_assoc, read, readHead_head (by decide) (by omega)]
      have hitems := readAll_encodeAll (fun v hv rest => ih (h.2 v hv) rest) rest
      simp [hitems]
    | tag number content =>
      rw [within, Bool.and_eq_true, decide_eq_true_eq] at h
      rw [encode, append_assoc, read, readHead_head (by decide) h.1]
      simp [ih h.2 rest]

theorem decode_encode (hlimit : lengthLimit < 2 ^ 64) (h : v.within lengthLimit depth = true) :
    decode lengthLimit depth v.encode = .ok v := by
  have hread := read_encode hlimit h []
  rw [append_nil] at hread
  rw [decode, hread]
  exact if_pos ⟨h, rfl⟩

theorem encode_of_decode {bytes : List UInt8} (h : decode lengthLimit depth bytes = .ok v) :
    v.within lengthLimit depth = true ∧ v.encode = bytes := by
  unfold decode at h
  split at h
  · split at h
    · rename_i hvld
      cases h
      exact hvld
    · cases h
  · cases h

theorem within_succ (h : v.within lengthLimit depth = true) :
    v.within lengthLimit (depth + 1) = true := by
  induction depth generalizing v with
  | zero => cases h
  | succ depth ih =>
    cases v with
    | unsigned n => exact h
    | byteString bytes => exact h
    | array items =>
      rw [within, Bool.and_eq_true, all_eq_true] at h ⊢
      exact ⟨h.1, fun v hv => ih (h.2 v hv)⟩
    | tag number content =>
      rw [within, Bool.and_eq_true] at h ⊢
      exact ⟨h.1, ih h.2⟩

theorem within_untagged (h : v.within lengthLimit depth = true) :
    v.untagged.within lengthLimit depth = true := by
  induction depth generalizing v with
  | zero => cases h
  | succ depth ih =>
    cases v with
    | unsigned n => exact h
    | byteString bytes => exact h
    | array items => exact h
    | tag number content =>
      rw [within, Bool.and_eq_true] at h
      rw [untagged]
      exact within_succ (ih h.2)

theorem untagged_of_intoArray (h : v.intoArray = .ok items) : v.untagged = .array items := by
  unfold intoArray at h
  split at h
  · rename_i heq
    cases h
    exact heq
  · cases h

end CborValue

/-- Deterministic CBOR, as a library. Items of an array have one level less. -/
def deterministicCbor (lengthLimit depth : Nat) : Cbor CborValue Unit where
  unsigned := .unsigned
  byteString := .byteString
  array := .array
  untagged := CborValue.untagged
  toU16 := CborValue.toU16
  toU32 := CborValue.toU32
  asBytes := CborValue.asBytes
  intoArray := CborValue.intoArray
  encode := CborValue.encode
  decode := CborValue.decode lengthLimit (depth + 1)

theorem lawful_deterministicCbor {lengthLimit : Nat} (hlimit : lengthLimit < 2 ^ 64)
    (depth : Nat) : (deterministicCbor lengthLimit (depth + 1)).Lawful
      (fun v => v.within lengthLimit (depth + 1) = true) lengthLimit where
  untagged_unsigned _ := rfl
  untagged_byteString _ := rfl
  untagged_array _ := rfl
  toU16_unsigned n := by
    have hn := n.toNat_lt
    exact (if_pos hn).trans (by rw [UInt16.ofNat_toNat])
  toU32_unsigned n := by
    have hn := n.toNat_lt
    exact (if_pos hn).trans (by rw [UInt32.ofNat_toNat])
  asBytes_byteString _ := rfl
  intoArray_array _ := rfl
  untagged_of_toU16 v n _ h := by
    dsimp only [deterministicCbor, CborValue.toU16] at h ⊢
    split at h
    · rename_i heq
      split at h
      · rename_i hm
        cases h
        rw [heq, UInt16.toNat_ofNat_of_lt' hm]
      · cases h
    · cases h
  untagged_of_toU32 v n _ h := by
    dsimp only [deterministicCbor, CborValue.toU32] at h ⊢
    split at h
    · rename_i heq
      split at h
      · rename_i hm
        cases h
        rw [heq, UInt32.toNat_ofNat_of_lt' hm]
      · cases h
    · cases h
  untagged_of_asBytes v bytes _ h := by
    dsimp only [deterministicCbor, CborValue.asBytes] at h ⊢
    split at h
    · rename_i heq
      cases h
      exact heq
    · cases h
  within_unsigned n := decide_eq_true (Nat.lt_trans n.toNat_lt (by decide))
  within_byteString _ h := decide_eq_true h
  decode_encode items hlen hwi := by
    apply CborValue.decode_encode hlimit
    change (CborValue.array items).within lengthLimit (depth + 1 + 1) = true
    rw [CborValue.within, Bool.and_eq_true, all_eq_true]
    exact ⟨decide_eq_true hlen, hwi⟩
  encode_of_decode _ _ h := (CborValue.encode_of_decode h).2
  items_of_decode bytes v items h hitems := by
    have hwi := CborValue.within_untagged (CborValue.encode_of_decode h).1
    have huntag := CborValue.untagged_of_intoArray hitems
    rw [huntag, CborValue.within, Bool.and_eq_true, all_eq_true,
      decide_eq_true_eq] at hwi
    exact ⟨huntag, hwi.1, hwi.2⟩

end P2Panda.Library
