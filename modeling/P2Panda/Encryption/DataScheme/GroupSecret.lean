import P2Panda.Encryption.KeyBundle
import P2Panda.Library.HashMap

/-!
# Group secrets

The secrets of a group are in a bundle which knows the latest: with the highest timestamp, and among
those with the highest identifier.
-/

namespace P2Panda.Encryption.DataScheme

open P2Panda.Library P2Panda.Core

def GROUP_SECRET_SIZE : Nat := 32

abbrev GroupSecretId := Vector UInt8 32

abbrev Timestamp := UInt64

/-- "Extended" 192-bit nonce. -/
abbrev XAeadNonce := Vector UInt8 24

inductive XAeadError where
  | encrypt
  | decrypt
  deriving DecidableEq, Repr

/-- What data encryption takes from other crates besides two-party channels. -/
structure DataPrimitives extends Primitives where
  sha256 : Bytes → GroupSecretId
  xAeadEncrypt : Vector UInt8 32 → Bytes → XAeadNonce → Bytes → Option Bytes
  xAeadDecrypt : Vector UInt8 32 → Bytes → XAeadNonce → Bytes → Option Bytes

structure GroupSecret where
  secret : Secret GROUP_SECRET_SIZE
  timestamp : Timestamp
  deriving DecidableEq

inductive GroupSecretError where
  | rng (error : RngError)
  | encode
  | decode
  | systemTime
  deriving DecidableEq, Repr

variable (checks : Bool) (c : DataPrimitives) (clock : Clock) (order : HashOrder GroupSecretId)
  {secrets : HashMap GroupSecretId GroupSecret}

namespace GroupSecret

def fromBytes (bytes : Vector UInt8 GROUP_SECRET_SIZE) : Outcome GroupSecretError GroupSecret :=
  match clock with
  | some now => .ok ⟨⟨bytes⟩, now⟩
  | none => .err .systemTime

def fromRng (rng : Rng) : Outcome GroupSecretError (GroupSecret × Rng) := do
  let (bytes, rng) ← (rng.randomArray GROUP_SECRET_SIZE).mapErr .rng
  let secret ← fromBytes clock bytes
  return (secret, rng)

def id (secret : GroupSecret) : GroupSecretId := c.sha256 secret.secret.bytes.toList

end GroupSecret

/-- A secret is later than the latest so far: by its timestamp, or by its identifier if the
timestamps of distinct secrets match. -/
def Exceeds (latest : Timestamp × Option GroupSecretId) (entry : GroupSecretId × GroupSecret) :
    Prop :=
  latest.1 < entry.2.timestamp ∨ (latest.1 = entry.2.timestamp ∧
    (latest.2.getD (Vector.replicate 32 0)).toList < entry.1.toList)

instance (latest : Timestamp × Option GroupSecretId) (entry : GroupSecretId × GroupSecret) :
    Decidable (Exceeds latest entry) :=
  inferInstanceAs (Decidable (_ ∨ _))

/-- The loop body of `findLatest`. -/
def laterSecret (latest : Timestamp × Option GroupSecretId)
    (entry : GroupSecretId × GroupSecret) : Timestamp × Option GroupSecretId :=
  if Exceeds latest entry then (entry.2.timestamp, some entry.1) else latest

def findLatest (secrets : HashMap GroupSecretId GroupSecret) : Option GroupSecretId :=
  ((secrets.entries order).foldl laterSecret (0, none)).2

/-- No secret exceeds the latest; if there is none, all of them are exceeded by every other
secret. -/
def IsLatest (secrets : HashMap GroupSecretId GroupSecret) (latest : Option GroupSecretId) :
    Prop :=
  ∃ timestamp, (latest = none → timestamp = 0) ∧
    (∀ id, latest = some id → ∃ s, secrets.lookup id = some s ∧ s.timestamp = timestamp) ∧
    ∀ id s, secrets.lookup id = some s → ¬Exceeds (timestamp, latest) (id, s)

theorem exceeds_trans {latest : Timestamp × Option GroupSecretId}
    {entry entry' : GroupSecretId × GroupSecret} (h : Exceeds latest entry)
    (h' : Exceeds (entry.2.timestamp, some entry.1) entry') : Exceeds latest entry' := by
  cases h with
  | inl hlt =>
    cases h' with
    | inl hlt' => exact Or.inl (UInt64.lt_trans hlt hlt')
    | inr heq' => exact Or.inl (heq'.1 ▸ hlt)
  | inr heq =>
    cases h' with
    | inl hlt' => exact Or.inl (heq.1 ▸ hlt')
    | inr heq' => exact Or.inr ⟨heq.1.trans heq'.1, List.lt_trans heq.2 heq'.2⟩

theorem exceeds_or_exceeds {id id' : GroupSecretId} (hne : id ≠ id') (s s' : GroupSecret) :
    Exceeds (s.timestamp, some id) (id', s') ∨ Exceeds (s'.timestamp, some id') (id, s) := by
  by_cases hlt : s.timestamp < s'.timestamp
  · exact Or.inl (Or.inl hlt)
  by_cases hlt' : s'.timestamp < s.timestamp
  · exact Or.inr (Or.inl hlt')
  have heq := UInt64.le_antisymm (UInt64.not_lt.mp hlt') (UInt64.not_lt.mp hlt)
  by_cases hid : id.toList < id'.toList
  · exact Or.inl (Or.inr ⟨heq, hid⟩)
  · refine Or.inr (Or.inr ⟨heq.symm, List.not_le.mp fun hid' => hne ?_⟩)
    exact Vector.toList_inj.mp (List.le_antisymm hid' (List.not_lt.mp hid))

theorem foldl_laterSecret (entries : List (GroupSecretId × GroupSecret)) :
    ((entries.foldl laterSecret (0, none)).2 = none →
        (entries.foldl laterSecret (0, none)).1 = 0) ∧
      (∀ id, (entries.foldl laterSecret (0, none)).2 = some id →
        ∃ s, (id, s) ∈ entries ∧ s.timestamp = (entries.foldl laterSecret (0, none)).1) ∧
      ∀ entry ∈ entries, ¬Exceeds (entries.foldl laterSecret (0, none)) entry := by
  induction entries using List.reverseRecOn with
  | nil => simp
  | append_singleton entries entry ih =>
    obtain ⟨hnone, hsome, hall⟩ := ih
    rw [List.foldl_concat]
    unfold laterSecret
    split
    · rename_i hexc
      refine ⟨nofun, ?_, ?_⟩
      · intro id hid
        cases hid
        exact ⟨entry.2, by simp, rfl⟩
      · intro other hoth hexceeds'
        cases List.mem_append.mp hoth with
        | inl hmem => exact hall other hmem (exceeds_trans hexc hexceeds')
        | inr hmem =>
          cases List.mem_singleton.mp hmem
          cases hexceeds' with
          | inl hlt => exact UInt64.lt_irrefl _ hlt
          | inr heq => exact List.lt_irrefl _ heq.2
    · rename_i hexc
      refine ⟨hnone, ?_, ?_⟩
      · intro id hid
        obtain ⟨s, hs, hts⟩ := hsome id hid
        exact ⟨s, List.mem_append_left _ hs, hts⟩
      · intro other hoth
        cases List.mem_append.mp hoth with
        | inl hmem => exact hall other hmem
        | inr hmem =>
          cases List.mem_singleton.mp hmem
          exact hexc

theorem isLatest_findLatest (secrets : HashMap GroupSecretId GroupSecret) :
    IsLatest secrets (findLatest order secrets) := by
  obtain ⟨hnone, hsome, hall⟩ := foldl_laterSecret (secrets.entries order)
  refine ⟨_, hnone, ?_, ?_⟩
  · intro id hid
    obtain ⟨s, hs, hts⟩ := hsome id hid
    exact ⟨s, HashMap.mem_entries.mp hs, hts⟩
  · intro id s hs
    exact hall (id, s) (HashMap.mem_entries.mpr hs)

theorem IsLatest.eq_some {latest : Option GroupSecretId} (h : IsLatest secrets latest)
    {id : GroupSecretId} {s : GroupSecret} (hs : secrets.lookup id = some s)
    (hpos : 0 < s.timestamp) (hlater : ∀ id' s', secrets.lookup id' = some s' → id' ≠ id →
      Exceeds (s'.timestamp, some id') (id, s)) : latest = some id := by
  obtain ⟨timestamp, hnone, hsome, hall⟩ := h
  cases latest with
  | none =>
    rw [hnone rfl] at hall
    exact absurd (Or.inl hpos) (hall id s hs)
  | some id' =>
    obtain ⟨s', hs', hts⟩ := hsome id' rfl
    by_cases heq : id' = id
    · rw [heq]
    · rw [← hts] at hall
      exact absurd (hlater id' s' hs' heq) (hall id s hs)

structure SecretBundleState where
  secrets : HashMap GroupSecretId GroupSecret
  latestId : Option GroupSecretId
  isLatest : IsLatest secrets latestId

namespace SecretBundleState

def latest (y : SecretBundleState) : Option GroupSecret := y.latestId.bind y.secrets.lookup

def get (y : SecretBundleState) (id : GroupSecretId) : Option GroupSecret := y.secrets.lookup id

def contains (y : SecretBundleState) (id : GroupSecretId) : Bool := (y.secrets.lookup id).isSome

def values (y : SecretBundleState) : List GroupSecret := (y.secrets.entries order).map Prod.snd

end SecretBundleState

namespace SecretBundle

def ofSecrets (secrets : HashMap GroupSecretId GroupSecret) : SecretBundleState :=
  ⟨secrets, findLatest order secrets, isLatest_findLatest order secrets⟩

def init : SecretBundleState where
  secrets := ∅
  latestId := none
  isLatest := ⟨0, fun _ => rfl, nofun, fun id s hs => by simp at hs⟩

def fromSecrets (secrets : List GroupSecret) : SecretBundleState :=
  ofSecrets order (secrets.foldl (fun m secret => m.insert (secret.id c) secret) ∅)

def generate (y : SecretBundleState) (rng : Rng) :
    Outcome GroupSecretError (GroupSecret × Rng) := do
  let (secret, rng) ← GroupSecret.fromRng clock rng
  let latestTimestamp := (y.latest.map GroupSecret.timestamp).getD 0
  -- a newly generated secret is forced to be the "latest"
  if secret.timestamp ≤ latestTimestamp then do
    let timestamp ← addU64 checks latestTimestamp 1
    return ({ secret with timestamp := timestamp }, rng)
  else return (secret, rng)

def insert (y : SecretBundleState) (secret : GroupSecret) : SecretBundleState :=
  ofSecrets order (y.secrets.insert (secret.id c) secret)

def remove (y : SecretBundleState) (id : GroupSecretId) : SecretBundleState × Option GroupSecret :=
  (ofSecrets order (y.secrets.erase id), y.secrets.lookup id)

def extend (y other : SecretBundleState) : SecretBundleState :=
  ofSecrets order (y.secrets.extend other.secrets)

end SecretBundle

variable {checks c clock order} {y other : SecretBundleState} {s : GroupSecret}

def SecretBundleState.latestTimestamp (y : SecretBundleState) : Timestamp :=
  (y.latest.map GroupSecret.timestamp).getD 0

theorem SecretBundleState.latestTimestamp_spec (y : SecretBundleState) :
    (y.latestId = none → y.latestTimestamp = 0) ∧
      (∀ id, y.latestId = some id →
        ∃ s, y.secrets.lookup id = some s ∧ s.timestamp = y.latestTimestamp) ∧
      ∀ id s, y.secrets.lookup id = some s → ¬Exceeds (y.latestTimestamp, y.latestId) (id, s) := by
  obtain ⟨timestamp, hnone, hsome, hall⟩ := y.isLatest
  have heq : y.latestTimestamp = timestamp := by
    unfold SecretBundleState.latestTimestamp SecretBundleState.latest
    cases hlat : y.latestId with
    | none => exact (hnone hlat).symm
    | some latest =>
      obtain ⟨s', hs', hts⟩ := hsome latest hlat
      rw [Option.bind_some, hs']
      exact hts
  rw [heq]
  exact ⟨hnone, hsome, hall⟩

theorem SecretBundle.latest_insert (h : y.latestTimestamp < s.timestamp) :
    (SecretBundle.insert c order y s).latest = some s := by
  have hlook : (SecretBundle.insert c order y s).secrets.lookup (s.id c) = some s :=
    Finmap.lookup_insert y.secrets
  have hlat : (SecretBundle.insert c order y s).latestId = some (s.id c) := by
    apply (SecretBundle.insert c order y s).isLatest.eq_some hlook
      (UInt64.lt_of_le_of_lt UInt64.zero_le h)
    intro id' s' hs' hne
    have hs' : (y.secrets.insert (s.id c) s).lookup id' = some s' := hs'
    rw [Finmap.lookup_insert_of_ne _ hne] at hs'
    refine Or.inl (UInt64.lt_of_le_of_lt (UInt64.not_lt.mp fun hlt => ?_) h)
    exact y.latestTimestamp_spec.2.2 id' s' hs' (Or.inl hlt)
  rw [SecretBundleState.latest, hlat, Option.bind_some, hlook]

theorem IsLatest.unique {id id' : GroupSecretId} (h : IsLatest secrets (some id))
    (h' : IsLatest secrets (some id')) : id = id' := by
  obtain ⟨timestamp, -, hsome, hall⟩ := h
  obtain ⟨timestamp', -, hsome', hall'⟩ := h'
  obtain ⟨s, hs, rfl⟩ := hsome id rfl
  obtain ⟨s', hs', rfl⟩ := hsome' id' rfl
  by_contra hne
  exact (exceeds_or_exceeds hne s s').elim (hall id' s' hs') (hall' id s hs)

theorem SecretBundle.latest_insert_of_lt (h : s.timestamp < y.latestTimestamp)
    (hid : y.latestId ≠ some (s.id c)) : (SecretBundle.insert c order y s).latest = y.latest := by
  obtain ⟨hnone, hsome, hall⟩ := y.latestTimestamp_spec
  cases hlat : y.latestId with
  | none =>
    rw [hnone hlat] at h
    exact absurd h UInt64.not_lt_zero
  | some id =>
    rw [hlat] at hid hall
    obtain ⟨sl, hsl, hts⟩ := hsome id hlat
    rw [← hts] at h hall
    have hlook : (SecretBundle.insert c order y s).secrets.lookup id = some sl := by
      refine (Finmap.lookup_insert_of_ne y.secrets ?_).trans hsl
      exact fun heq => hid (congrArg some heq)
    -- the latest secret is later than all others still
    have hlatest' : (SecretBundle.insert c order y s).latestId = some id := by
      apply (SecretBundle.insert c order y s).isLatest.eq_some hlook
        (UInt64.lt_of_le_of_lt UInt64.zero_le h)
      intro id' s' hs' hne
      have hs' : (y.secrets.insert (s.id c) s).lookup id' = some s' := hs'
      rw [HashMap.lookup_insert_ite] at hs'
      split at hs'
      · cases hs'
        exact Or.inl h
      · exact (exceeds_or_exceeds hne s' sl).resolve_right (hall id' s' hs')
    rw [SecretBundleState.latest, SecretBundleState.latest, hlatest', hlat, Option.bind_some,
      Option.bind_some, hlook, hsl]

theorem SecretBundle.generate_eq_ok {rng rng' : Rng}
    (h : SecretBundle.generate checks clock y rng = .ok (s, rng')) :
    y.latestTimestamp < s.timestamp ∨
      (checks = false ∧ y.latestTimestamp.toNat + 1 = 2 ^ 64 ∧ s.timestamp = 0) := by
  obtain ⟨⟨secret, rng1⟩, -, h⟩ := Outcome.bind_eq_ok.mp h
  dsimp only at h
  split at h
  · obtain ⟨timestamp, hadd, h⟩ := Outcome.bind_eq_ok.mp h
    cases h
    have hts : y.latestTimestamp + 1 = timestamp := overflowing_eq_ok hadd
    have hbound := y.latestTimestamp.toNat_lt
    by_cases hroom : y.latestTimestamp.toNat + 1 < 2 ^ 64
    · left
      rw [← hts, UInt64.lt_iff_toNat_lt]
      show y.latestTimestamp.toNat < (y.latestTimestamp.toNat + 1) % 2 ^ 64
      omega
    · right
      refine ⟨?_, by omega, ?_⟩
      · cases checks with
        | false => rfl
        | true => exact absurd (lt_of_addU64_eq_ok hadd) hroom
      · rw [← hts]
        apply UInt64.toNat_inj.mp
        show (y.latestTimestamp.toNat + 1) % 2 ^ 64 = 0
        omega
  · rename_i hle
    cases h
    left
    exact Nat.lt_of_not_le hle

variable (c order) in
/-- A new secret is the latest one once it is inserted. If timestamps have run out, it is the
earliest. -/
theorem SecretBundle.latest_generate {rng rng' : Rng}
    (h : SecretBundle.generate checks clock y rng = .ok (s, rng'))
    (hfresh : checks = false → y.contains (s.id c) = false) :
    (y.latestTimestamp.toNat + 1 < 2 ^ 64 ∧
        (SecretBundle.insert c order y s).latest = some s) ∨
      (y.latestTimestamp.toNat + 1 = 2 ^ 64 ∧ s.timestamp = 0 ∧
        (SecretBundle.insert c order y s).latest = y.latest) := by
  cases SecretBundle.generate_eq_ok h with
  | inl hlt =>
    refine Or.inl ⟨?_, SecretBundle.latest_insert hlt⟩
    rw [UInt64.lt_iff_toNat_lt] at hlt
    have hbound := s.timestamp.toNat_lt
    omega
  | inr hwrap =>
    obtain ⟨hchk, hfull, hzero⟩ := hwrap
    refine Or.inr ⟨hfull, hzero, SecretBundle.latest_insert_of_lt ?_ ?_⟩
    · rw [hzero]
      show 0 < y.latestTimestamp.toNat
      omega
    · intro hlat
      obtain ⟨s', hs', -⟩ := y.latestTimestamp_spec.2.1 _ hlat
      have hnot := hfresh hchk
      rw [SecretBundleState.contains, hs'] at hnot
      cases hnot

end P2Panda.Encryption.DataScheme
