import P2Panda.Core.Operation
import P2Panda.Core.Timestamp

/-!
# User data of an endpoint

Signature, timestamp and relay URL of a transport info are joined to one text.
-/

abbrev P2Panda.Text := List Char

namespace P2Panda.Core

open List

def hexEncode (bytes : List UInt8) : Text :=
  bytes.flatMap fun byte => [Nat.digitChar (byte.toNat / 16), Nat.digitChar (byte.toNat % 16)]

def hexVal (c : Char) : Option Nat :=
  if '0' ≤ c ∧ c ≤ '9' then some (c.toNat - '0'.toNat)
  else if 'a' ≤ c ∧ c ≤ 'f' then some (c.toNat - 'a'.toNat + 10)
  else if 'A' ≤ c ∧ c ≤ 'F' then some (c.toNat - 'A'.toNat + 10)
  else none

def hexDecode : Text → Option (List UInt8)
  | [] => some []
  | [_] => none
  | high :: low :: rest => do
    return .ofNat (16 * (← hexVal high) + (← hexVal low)) :: (← hexDecode rest)

theorem hexDecode_hexEncode (bytes : List UInt8) : hexDecode (hexEncode bytes) = some bytes := by
  have hdigit : ∀ digit < 16, hexVal (Nat.digitChar digit) = some digit := by decide
  induction bytes with
  | nil => rfl
  | cons byte bytes ih =>
    have hbyte := byte.toNat_lt
    change hexDecode (_ :: _ :: hexEncode bytes) = _
    rw [hexDecode, ih, hdigit _ (by omega), hdigit _ (by omega)]
    change some (UInt8.ofNat (16 * (_ / 16) + _ % 16) :: bytes) = _
    rw [Nat.div_add_mod, UInt8.ofNat_toNat]

inductive IdentityError where
  | invalidLength (actual expected : Nat)
  | invalidHexEncoding

namespace Signature

def toHex (self : Signature) : Text := hexEncode self.bytes.toList

def fromStr (value : Text) : Except IdentityError Signature :=
  match hexDecode value with
  | none => .error .invalidHexEncoding
  | some bytes =>
    if h : bytes.length = SIGNATURE_LEN then .ok ⟨⟨⟨bytes⟩, h⟩⟩
    else .error (.invalidLength bytes.length SIGNATURE_LEN)

theorem fromStr_toHex (self : Signature) : fromStr self.toHex = .ok self := by
  rw [fromStr, toHex, hexDecode_hexEncode]
  exact dif_pos self.bytes.size_toArray

theorem notMem_toHex (self : Signature) : '|' ∉ self.toHex := by
  have hdigit : ∀ digit < 16, '|' ≠ Nat.digitChar digit := by decide
  intro hmem
  obtain ⟨byte, -, hmem⟩ := mem_flatMap.mp hmem
  have hbyte := byte.toNat_lt
  rcases mem_pair.mp hmem with heq | heq <;> exact hdigit _ (by omega) heq

end Signature

/-- `u64::from_str`. -/
def parseU64 (src : Text) : Option UInt64 :=
  let digits := if src.head? = some '+' then src.tail else src
  let value := Nat.ofDigitChars 10 digits 0
  if digits ≠ [] ∧ digits.all Char.isDigit ∧ value < 2 ^ 64 then some (.ofNat value) else none

theorem notMem_toDigits {c : Char} (h : ¬c.isDigit) (n : Nat) : c ∉ Nat.toDigits 10 n :=
  fun hmem => h (Nat.isDigit_of_mem_toDigits (by decide) (by decide) hmem)

theorem parseU64_toDigits (n : UInt64) : parseU64 (Nat.toDigits 10 n.toNat) = some n := by
  have hsign : (Nat.toDigits 10 n.toNat).head? ≠ some '+' :=
    fun heq => notMem_toDigits (by decide) n.toNat (mem_of_mem_head? heq)
  have hdigits : (Nat.toDigits 10 n.toNat).all Char.isDigit :=
    all_eq_true.mpr fun _ hmem => Nat.isDigit_of_mem_toDigits (by decide) (by decide) hmem
  simp only [parseU64, if_neg hsign, Nat.ofDigitChars_ten_toDigits]
  rw [if_pos ⟨Nat.toDigits_ne_nil, hdigits, n.toNat_lt⟩, UInt64.ofNat_toNat]

inductive HybridTimestampError where
  | size (parts : Nat)
  | parseInt

namespace HybridTimestamp

def display (self : HybridTimestamp) : Text :=
  Nat.toDigits 10 self.timestamp.toNat ++ '/' :: Nat.toDigits 10 self.logical.toNat

def fromStr (s : Text) : Except HybridTimestampError HybridTimestamp :=
  match s.splitOn '/' with
  | [unix, logical] =>
    match parseU64 unix, parseU64 logical with
    | some unix, some logical => .ok ⟨unix, logical⟩
    | _, _ => .error .parseInt
  | parts => .error (.size parts.length)

theorem fromStr_display (self : HybridTimestamp) : fromStr self.display = .ok self := by
  rw [fromStr, display, splitOn_append_cons_self_of_not_mem (notMem_toDigits (by decide) _),
    splitOn_eq_singleton (notMem_toDigits (by decide) _)]
  dsimp only
  rw [parseU64_toDigits, parseU64_toDigits]

theorem notMem_display (self : HybridTimestamp) : '|' ∉ self.display := by
  intro hmem
  rcases mem_append.mp hmem with hmem | hmem
  · exact notMem_toDigits (by decide) _ hmem
  · exact notMem_toDigits (by decide) _ ((mem_cons.mp hmem).resolve_left (by decide))

end HybridTimestamp

end P2Panda.Core

namespace P2Panda.Net

open P2Panda.Core List

/-- How URLs of relays are written and read. -/
structure RelayUrls (U : Type) where
  display : U → Text
  fromStr : Text → Option U

structure UserDataTransportInfo (U : Type) where
  signature : Signature
  timestamp : HybridTimestamp
  relayUrl : Option U

inductive UserDataInfoError where
  | size (parts : Nat)
  | signature (error : IdentityError)
  | timestamp (error : HybridTimestampError)
  | relayUrl

namespace UserDataTransportInfo

variable {U : Type} (urls : RelayUrls U)

def toText (info : UserDataTransportInfo U) : Text :=
  info.signature.toHex ++ '|' :: (info.timestamp.display ++
    (info.relayUrl.map fun url => '|' :: urls.display url).getD [])

/-- The endpoint may refuse a text as user data. -/
def toUserData (tryFrom : Text → Option Text) (info : UserDataTransportInfo U) : Option Text :=
  tryFrom (info.toText urls)

def ofParts (signature timestamp : Text) (relayUrl : Option Text) :
    Except UserDataInfoError (UserDataTransportInfo U) := do
  let signature ← (Signature.fromStr signature).mapError .signature
  let timestamp ← (HybridTimestamp.fromStr timestamp).mapError .timestamp
  match relayUrl.map urls.fromStr with
  | none => return ⟨signature, timestamp, none⟩
  | some none => throw .relayUrl
  | some relayUrl => return ⟨signature, timestamp, relayUrl⟩

def fromUserData (userData : Text) : Except UserDataInfoError (UserDataTransportInfo U) :=
  match userData.splitOn '|' with
  | [signature, timestamp] => ofParts urls signature timestamp none
  | [signature, timestamp, relayUrl] => ofParts urls signature timestamp (some relayUrl)
  | parts => .error (.size parts.length)

theorem splitOn_toText (info : UserDataTransportInfo U) :
    (info.toText urls).splitOn '|' = info.signature.toHex :: info.timestamp.display ::
      info.relayUrl.elim [] fun url => (urls.display url).splitOn '|' := by
  rw [toText, splitOn_append_cons_self_of_not_mem info.signature.notMem_toHex]
  cases info.relayUrl with
  | none =>
    rw [Option.map_none, Option.getD_none, append_nil,
      splitOn_eq_singleton info.timestamp.notMem_display]
    rfl
  | some url =>
    rw [Option.map_some, Option.getD_some,
      splitOn_append_cons_self_of_not_mem info.timestamp.notMem_display]
    rfl

/-- A transport info is read back from user data just if its URL does not contain the separator. -/
theorem fromUserData_iff {tryFrom : Text → Option Text} {info : UserDataTransportInfo U}
    {userData : Text} (hsame : ∀ text userData, tryFrom text = some userData → userData = text)
    (hurl : ∀ url ∈ info.relayUrl, urls.fromStr (urls.display url) = some url)
    (h : info.toUserData urls tryFrom = some userData) :
    fromUserData urls userData = .ok info ↔ ∀ url ∈ info.relayUrl, '|' ∉ urls.display url := by
  rw [hsame _ _ h, fromUserData, splitOn_toText]
  obtain ⟨signature, timestamp, relayUrl⟩ := info
  cases relayUrl with
  | none =>
    change ofParts _ _ _ _ = _ ↔ _
    rw [ofParts, Signature.fromStr_toHex, HybridTimestamp.fromStr_display]
    exact iff_of_true rfl nofun
  | some url =>
    simp only [Option.mem_def, Option.some.injEq, forall_eq', Option.elim]
    by_cases hmem : '|' ∈ urls.display url
    · obtain ⟨before, after, heq, -⟩ := eq_append_cons_of_mem hmem
      obtain ⟨_, rest, hfirst⟩ := exists_cons_of_ne_nil (splitOn_ne_nil '|' before)
      obtain ⟨_, _, hlast⟩ := exists_cons_of_ne_nil (splitOn_ne_nil '|' after)
      refine iff_of_false ?_ (not_not_intro hmem)
      rw [heq, splitOn_append_cons_self, hfirst, hlast]
      cases rest <;> exact nofun
    · rw [splitOn_eq_singleton hmem]
      dsimp only
      rw [ofParts, Signature.fromStr_toHex, HybridTimestamp.fromStr_display, Option.map_some,
        hurl url rfl]
      exact iff_of_true rfl hmem

def ofPath (path : Char) : UserDataTransportInfo Text :=
  ⟨⟨.replicate 64 0⟩, ⟨0, 0⟩, some ['h', 't', 't', 'p', ':', '/', '/', 'r', '/', path]⟩

theorem fromUserData_path :
    ∃ userData, (ofPath 'a').toUserData ⟨id, some⟩ some = some userData ∧
      fromUserData ⟨id, some⟩ userData = .ok (ofPath 'a') := by
  refine ⟨_, rfl, (fromUserData_iff _ ?_ (fun _ _ => rfl) rfl).mpr (by decide)⟩
  rintro text _ ⟨⟩
  rfl

theorem not_fromUserData_separator :
    ∃ userData, (ofPath '|').toUserData ⟨id, some⟩ some = some userData ∧
      fromUserData ⟨id, some⟩ userData ≠ .ok (ofPath '|') := by
  refine ⟨(ofPath '|').toText ⟨id, some⟩, rfl, ?_⟩
  rw [fromUserData, splitOn_toText]
  exact nofun

end UserDataTransportInfo

end P2Panda.Net
