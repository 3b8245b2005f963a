import P2Panda.Encryption.MessageScheme.Ratchet
import P2Panda.Library.SlidingWindow

/-!
# Decryption with lost and late messages

The ratchet gives away the material of every generation in reach once, with one exception: a
distance to the head that does not fit a signed integer is taken for one out of reach.
-/

namespace P2Panda.Encryption.MessageScheme

open P2Panda.Library Outcome UInt32 DecryptionRatchet List

variable (checks : Bool) (derive : Hkdf)

/-! ## The chain of the sender -/

def chainSecret (secret : Secret MESSAGE_KEY_SIZE) : Nat → Secret MESSAGE_KEY_SIZE
  | 0 => secret
  | n + 1 => ⟨derive MESSAGE_KEY_SIZE (RatchetSecret.label "chain")
      (chainSecret secret n).bytes.toList []⟩

def keyMaterial (secret : Secret MESSAGE_KEY_SIZE) (n : Nat) : RatchetKeyMaterial :=
  (⟨derive MESSAGE_KEY_SIZE (RatchetSecret.label "key")
      (chainSecret derive secret n).bytes.toList []⟩,
    derive 12 (RatchetSecret.label "nonce") (chainSecret derive secret n).bytes.toList [])

def chainState (secret : Secret MESSAGE_KEY_SIZE) (n : Nat) : RatchetSecretState :=
  ⟨chainSecret derive secret n, UInt32.ofNat n⟩

variable {checks derive} {secret : Secret MESSAGE_KEY_SIZE} {n : Nat}

theorem toNat_ofNat_of_le (h : n ≤ UInt32.size - 1) : (UInt32.ofNat n).toNat = n :=
  toNat_ofNat_of_lt' (by change n < 2 ^ 32; change n ≤ 2 ^ 32 - 1 at h; omega)

theorem ratchetForward_chainState (h : n < UInt32.size - 1) :
    RatchetSecret.ratchetForward checks derive (chainState derive secret n) =
      .ok (chainState derive secret (n + 1), UInt32.ofNat n, keyMaterial derive secret n) := by
  have hsum : (UInt32.ofNat n).toNat + (1 : UInt32).toNat < 2 ^ 32 := by
    rw [toNat_ofNat_of_le (Nat.le_of_lt h)]
    change n + 1 < 2 ^ 32
    change n < 2 ^ 32 - 1 at h
    omega
  unfold RatchetSecret.ratchetForward chainState
  rw [hkdf_eq_ok (by decide), addU32_of_lt hsum]
  simp only [mapErr_ok, ok_bind, Outcome.pure_eq, ofNat_add]
  rfl

variable (checks derive secret) in
def produced : Nat → Outcome RatchetError (RatchetSecretState × Generation × RatchetKeyMaterial)
  | 0 => RatchetSecret.ratchetForward checks derive (RatchetSecret.init secret)
  | n + 1 => do
    let (y, _, _) ← produced n
    RatchetSecret.ratchetForward checks derive y

theorem produced_eq (h : n < UInt32.size - 1) :
    produced checks derive secret n =
      .ok (chainState derive secret (n + 1), UInt32.ofNat n, keyMaterial derive secret n) := by
  induction n with
  | zero => exact ratchetForward_chainState h
  | succ n ih =>
    rw [produced, ih (by omega)]
    exact ratchetForward_chainState h

/-! ## The state of the receiver -/

variable (derive secret) in
def entry (returned : List Generation) (n : Nat) : Option RatchetKeyMaterial :=
  if UInt32.ofNat n ∈ returned then none else some (keyMaterial derive secret n)

variable (derive secret) in
def windowState (tolerance : UInt32) (returned : List Generation) (head : Nat) :
    DecryptionRatchetState :=
  ⟨slidingWindow tolerance.toNat head (entry derive secret returned), chainState derive secret head⟩

theorem ratchetBy_eq {n head : Nat} (h : head + n ≤ UInt32.size - 1)
    (past : List (Option RatchetKeyMaterial)) :
    DecryptionRatchet.ratchetBy checks derive n ⟨past, chainState derive secret head⟩ =
      .ok ⟨(List.range n).map (fun i => some (keyMaterial derive secret (head + n - 1 - i))) ++
        past, chainState derive secret (head + n)⟩ := by
  induction n generalizing head past with
  | zero => rfl
  | succ n ih =>
    rw [ratchetBy, ratchetForward_chainState (by omega), ok_bind]
    dsimp only
    rw [ih (by omega), range_succ, map_append, show head + 1 + n = head + (n + 1) by omega]
    simp

/-! ## Distances -/

section Distances

variable {head : Nat} {g forward tolerance : UInt32}

theorem future_iff (hhead : head ≤ UInt32.size - 1) (hg : g.toNat < UInt32.size - 1) :
    (UInt32.ofNat head < UInt32.ofNat (UInt32.size - 1) - forward ∧
      g > UInt32.ofNat head + forward) ↔ head + forward.toNat < g.toNat := by
  have hsize : UInt32.size = 2 ^ 32 := rfl
  have hfwd := forward.toNat_lt
  have hmax : (UInt32.ofNat (UInt32.size - 1) - forward).toNat = 2 ^ 32 - 1 - forward.toNat := by
    rw [UInt32.toNat_sub_of_le, toNat_ofNat_of_le (Nat.le_refl _), hsize]
    rw [le_iff_toNat_le, toNat_ofNat_of_le (Nat.le_refl _)]
    omega
  rw [gt_iff_lt, UInt32.lt_iff_toNat_lt, UInt32.lt_iff_toNat_lt, UInt32.toNat_add,
    toNat_ofNat_of_le hhead]
  omega

theorem toNat_distance (hhead : head ≤ UInt32.size - 1) (hg : g.toNat < head) :
    (UInt32.ofNat head - g).toNat = head - g.toNat := by
  have hnat := toNat_ofNat_of_le hhead
  rw [UInt32.toNat_sub_of_le, hnat]
  rw [le_iff_toNat_le, hnat]
  exact Nat.le_of_lt hg

theorem past_iff (hhead : head ≤ UInt32.size - 1) :
    (g < UInt32.ofNat head ∧ UInt32.ofNat head - g > tolerance) ↔
      g.toNat < head ∧ tolerance.toNat < head - g.toNat := by
  rw [lt_iff_toNat_lt, toNat_ofNat_of_le hhead]
  constructor
  · rintro ⟨hlt, hfar⟩
    rw [gt_iff_lt, lt_iff_toNat_lt, toNat_distance hhead hlt] at hfar
    exact ⟨hlt, hfar⟩
  · rintro ⟨hlt, hfar⟩
    rw [gt_iff_lt, lt_iff_toNat_lt, toNat_distance hhead hlt]
    exact ⟨hlt, hfar⟩

def reach (checks : Bool) : Nat := if checks then 2 ^ 31 - 1 else 2 ^ 31

theorem windowIndex_eq_ok {d : UInt32} (hpos : 0 < d.toNat) (h : d.toNat ≤ reach checks) :
    subI32 checks (asI32 d) 1 = (.ok ((d.toNat - 1 : Nat) : Int) : Outcome RatchetError Int) := by
  have hidx : asI32 d - 1 = (d.toNat - 1 : Nat) ∨
      checks = false ∧ asI32 d - 1 = d.toNat - 1 - 2 ^ 32 := by
    unfold reach at h
    unfold asI32
    cases checks with
    | true =>
      rw [if_pos rfl] at h
      exact Or.inl (by omega)
    | false =>
      split_ifs
      · exact Or.inl (by omega)
      · exact Or.inr ⟨rfl, by omega⟩
  have hbound : d.toNat - 1 < 2 ^ 31 := by
    unfold reach at h
    split_ifs at h <;> omega
  unfold subI32 overflowing wrapI32
  rcases hidx with hidx | ⟨rfl, hidx⟩
  · have hfits : ¬(((d.toNat - 1 : Nat) : Int) < -2 ^ 31 ∨
        2 ^ 31 ≤ ((d.toNat - 1 : Nat) : Int)) := by
      omega
    rw [hidx, decide_eq_false hfits, Bool.and_false, if_neg Bool.false_ne_true,
      if_neg (by omega), if_neg (by omega)]
  · rw [Bool.false_and, if_neg Bool.false_ne_true]
    congr 1
    omega

theorem windowIndex_of_reach_lt {d : UInt32} (h : reach checks < d.toNat) :
    (∃ m, subI32 checks (asI32 d) 1 = (.panic m : Outcome RatchetError Int)) ∨
      ∃ i < 0, subI32 checks (asI32 d) 1 = (.ok i : Outcome RatchetError Int) := by
  have hlt := d.toNat_lt
  have hidx : asI32 d = d.toNat - 2 ^ 32 := by
    unfold reach at h
    unfold asI32
    rw [if_neg (by split_ifs at h <;> omega)]
  unfold subI32 overflowing wrapI32
  rw [hidx]
  split
  · exact Or.inl ⟨_, rfl⟩
  · rename_i hchk
    refine Or.inr ⟨_, ?_, rfl⟩
    have hrange : ¬((d.toNat : Int) - 2 ^ 32 - 1 < -2 ^ 31) := by
      intro hovf
      cases checks with
      | true => exact hchk (decide_eq_true (Or.inl hovf))
      | false =>
        rw [reach, if_neg Bool.false_ne_true] at h
        omega
    omega

end Distances

/-! ## One request -/

section Request

variable {head : Nat} {g forward tolerance : UInt32} {returned : List Generation}

theorem entry_cons_self : entry derive secret (g :: returned) g.toNat = none := by
  rw [entry, UInt32.ofNat_toNat]
  exact if_pos mem_cons_self

theorem entry_cons_of_ne (hn : n ≤ UInt32.size - 1) (hne : n ≠ g.toNat) :
    entry derive secret (g :: returned) n = entry derive secret returned n := by
  have hnot : UInt32.ofNat n ≠ g := by
    intro heq
    apply hne
    rw [← heq, toNat_ofNat_of_le hn]
  simp only [entry, mem_cons, hnot, false_or]

theorem entry_of_head_le (hn : n ≤ UInt32.size - 1) (hhead : head ≤ n)
    (hretd : ∀ r ∈ returned, r.toNat < head) :
    entry derive secret returned n = some (keyMaterial derive secret n) := by
  apply if_neg
  intro hmem
  have hlt := hretd _ hmem
  rw [toNat_ofNat_of_le hn] at hlt
  omega

theorem secretForDecryption_ahead (hg : g.toNat < UInt32.size - 1) (hhead : head ≤ g.toNat)
    (hfwd : g.toNat ≤ head + forward.toNat) (hretd : ∀ r ∈ returned, r.toNat < head) :
    DecryptionRatchet.secretForDecryption checks derive
        (windowState derive secret tolerance returned head) g forward tolerance =
      .ok (windowState derive secret tolerance (g :: returned) (g.toNat + 1),
        keyMaterial derive secret g.toNat) := by
  have hle : head ≤ UInt32.size - 1 := by omega
  have hnat := toNat_ofNat_of_le hle
  have hge : g ≥ UInt32.ofNat head := by
    rw [ge_iff_le, le_iff_toNat_le, hnat]
    exact hhead
  have hdist : (g - UInt32.ofNat head).toNat = g.toNat - head := by
    rw [UInt32.toNat_sub_of_le _ _ hge, hnat]
  have hsum : head + (g.toNat - head) = g.toNat := by omega
  unfold secretForDecryption windowState
  dsimp only [chainState]
  rw [if_neg (mt (future_iff hle hg).mp (by omega)), if_neg (mt (past_iff hle).mp (by omega)),
    if_pos hge, hdist]
  rw [show ⟨chainSecret derive secret head, UInt32.ofNat head⟩ =
    chainState derive secret head from rfl, ratchetBy_eq (by omega), ok_bind, hsum,
    ratchetForward_chainState hg]
  -- what has been jumped over was not returned before
  have hjumped : (List.range (g.toNat - head)).map
        (fun i => some (keyMaterial derive secret (g.toNat - 1 - i))) =
      (List.range (g.toNat - head)).map
        fun i => entry derive secret returned (head + (g.toNat - head) - 1 - i) := by
    apply map_congr_left
    intro i hi
    rw [mem_range] at hi
    rw [hsum, entry_of_head_le (by omega) (by omega) hretd]
  have hlast : entry derive secret (g :: returned) (head + (g.toNat - head)) = none := by
    rw [hsum]
    exact entry_cons_self
  have hsame : ∀ m < head + (g.toNat - head),
      entry derive secret (g :: returned) m = entry derive secret returned m := by
    intro m hm
    exact entry_cons_of_ne (by omega) (by omega)
  rw [hjumped, take_slidingWindow hlast hsame, hsum]
  rfl

variable (hhead : head ≤ UInt32.size - 1)
include hhead

theorem secretForDecryption_future (hg : g.toNat < UInt32.size - 1)
    (hfwd : head + forward.toNat < g.toNat) :
    DecryptionRatchet.secretForDecryption checks derive
        (windowState derive secret tolerance returned head) g forward tolerance =
      .err .tooDistantInTheFuture := by
  unfold secretForDecryption windowState
  dsimp only [chainState]
  rw [if_pos ((future_iff hhead hg).mpr hfwd)]

theorem not_future (hg : g.toNat < head) :
    ¬(UInt32.ofNat head < UInt32.ofNat (UInt32.size - 1) - forward ∧
      g > UInt32.ofNat head + forward) :=
  mt (future_iff hhead (by omega)).mp (by omega)

theorem secretForDecryption_past (hg : g.toNat < head) (hpast : tolerance.toNat < head - g.toNat) :
    DecryptionRatchet.secretForDecryption checks derive
        (windowState derive secret tolerance returned head) g forward tolerance =
      .err .tooDistantInThePast := by
  unfold secretForDecryption windowState
  dsimp only [chainState]
  rw [if_neg (not_future hhead hg), if_pos ((past_iff hhead).mpr ⟨hg, hpast⟩)]

theorem secretForDecryption_window (hg : g.toNat < head)
    (hpast : head - g.toNat ≤ tolerance.toNat) :
    DecryptionRatchet.secretForDecryption checks derive
        (windowState derive secret tolerance returned head) g forward tolerance =
      (do
        let windowIndex ← subI32 checks (asI32 (UInt32.ofNat head - g)) 1
        if windowIndex ≥ 0 then
          match (slidingWindow tolerance.toNat head
              (entry derive secret returned))[windowIndex.toNat]? with
          | none => .err .indexOutOfBounds
          | some none => .err .secretReuse
          | some (some ratchetSecrets) =>
            return (⟨(slidingWindow tolerance.toNat head (entry derive secret returned)).set
              windowIndex.toNat none, chainState derive secret head⟩, ratchetSecrets)
        else .err .tooDistantInThePast) := by
  have hlt : ¬g ≥ UInt32.ofNat head := by
    rw [ge_iff_le, le_iff_toNat_le, toNat_ofNat_of_le hhead]
    omega
  unfold secretForDecryption windowState
  dsimp only [chainState]
  rw [if_neg (not_future hhead hg), if_neg (mt (past_iff hhead).mp (by omega))]
  exact if_neg hlt

theorem secretForDecryption_behind (hg : g.toNat < head) (hpast : head - g.toNat ≤ tolerance.toNat)
    (hrch : head - g.toNat ≤ reach checks) :
    DecryptionRatchet.secretForDecryption checks derive
        (windowState derive secret tolerance returned head) g forward tolerance =
      if g ∈ returned then .err .secretReuse
      else .ok (windowState derive secret tolerance (g :: returned) head,
        keyMaterial derive secret g.toNat) := by
  have hdist := toNat_distance hhead hg
  have hidx : subI32 checks (asI32 (UInt32.ofNat head - g)) 1 =
      (.ok (head - g.toNat - 1 : Nat) : Outcome RatchetError Int) := by
    rw [windowIndex_eq_ok (by omega) (by omega), hdist]
  rw [secretForDecryption_window hhead hg hpast, hidx, ok_bind,
    if_pos (Int.natCast_nonneg _), Int.toNat_natCast, getElem?_slidingWindow_of_lt _ hg hpast]
  by_cases hmem : g ∈ returned
  · have hent : entry derive secret returned g.toNat = none := by
      rw [entry, UInt32.ofNat_toNat, if_pos hmem]
    rw [hent, if_pos hmem]
  · have hent : entry derive secret returned g.toNat =
        some (keyMaterial derive secret g.toNat) := by
      rw [entry, UInt32.ofNat_toNat, if_neg hmem]
    rw [hent, if_neg hmem, set_slidingWindow hg entry_cons_self]
    · rfl
    · intro m hm hne
      exact entry_cons_of_ne (by omega) hne

theorem secretForDecryption_blind (hg : g.toNat < head) (hpast : head - g.toNat ≤ tolerance.toNat)
    (hrch : reach checks < head - g.toNat) :
    ¬(DecryptionRatchet.secretForDecryption checks derive
        (windowState derive secret tolerance returned head) g forward tolerance).IsOk := by
  rw [secretForDecryption_window hhead hg hpast]
  rw [← toNat_distance hhead hg] at hrch
  rcases windowIndex_of_reach_lt hrch with ⟨m, hidx⟩ | ⟨i, hneg, hidx⟩
  · rw [hidx]
    exact not_isOk_panic m
  · rw [hidx, ok_bind, if_neg (by omega)]
    exact not_isOk_err _

end Request

end P2Panda.Encryption.MessageScheme
