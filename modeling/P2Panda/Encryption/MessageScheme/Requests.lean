import P2Panda.Encryption.MessageScheme.Decryption

/-!
# Sequences of requests for decryption secrets

A receiver asks its ratchet for one generation after the other and stays with the ratchet it has
when a request fails.
-/

namespace P2Panda.Encryption.MessageScheme

open P2Panda.Library Outcome List

/-- A ratchet and the generations it has returned. -/
structure Receiver where
  ratchet : DecryptionRatchetState
  returned : List Generation

namespace Receiver

variable (checks : Bool) (derive : Hkdf) (secret : Secret MESSAGE_KEY_SIZE)
  (forward tolerance : UInt32)

def init : Receiver := ⟨DecryptionRatchet.init secret, []⟩

def head (x : Receiver) : Nat := x.ratchet.ratchetHead.generation.toNat

def request (x : Receiver) (g : Generation) :
    Outcome RatchetError (DecryptionRatchetState × RatchetKeyMaterial) :=
  DecryptionRatchet.secretForDecryption checks derive x.ratchet g forward tolerance

def answered (x : Receiver) (g : Generation) :
    Outcome RatchetError (DecryptionRatchetState × RatchetKeyMaterial) → Receiver
  | .ok (ratchet, _) => ⟨ratchet, g :: x.returned⟩
  | _ => x

def next (x : Receiver) (g : Generation) : Receiver :=
  x.answered g (x.request checks derive forward tolerance g)

def after (requests : List Generation) : Receiver :=
  requests.foldl (next checks derive forward tolerance) (init secret)

/-- The generation is new, at most `forward` ahead of the head and, when behind it, in the
window. -/
structure InRange (x : Receiver) (g : Generation) : Prop where
  new : g ∉ x.returned
  ahead : g.toNat ≤ x.head + forward.toNat
  behind : g.toNat < x.head → x.head - g.toNat ≤ tolerance.toNat

/-- In range, but the distance to the head does not fit a signed integer. -/
structure Blind (x : Receiver) (g : Generation) : Prop where
  inRange : InRange forward tolerance x g
  behind : g.toNat < x.head
  far : reach checks < x.head - g.toNat

structure Window (x : Receiver) : Prop where
  ratchet : x.ratchet = windowState derive secret tolerance x.returned x.head
  returned : ∀ r ∈ x.returned, r.toNat < x.head
  nodup : x.returned.Nodup
  head : x.head ≤ UInt32.size - 1

variable {checks derive secret forward tolerance} {x : Receiver} {g : Generation}

theorem answered_of_not_isOk
    {o : Outcome RatchetError (DecryptionRatchetState × RatchetKeyMaterial)} (h : ¬o.IsOk) :
    x.answered g o = x := by
  unfold answered
  split
  · exact absurd (isOk_ok _) h
  · rfl

theorem head_windowState {returned returned' : List Generation} {n : Nat}
    (hn : n ≤ UInt32.size - 1) :
    head ⟨windowState derive secret tolerance returned n, returned'⟩ = n := by
  exact toNat_ofNat_of_le hn

theorem Window.init : Window derive secret tolerance (init secret) where
  ratchet := by
    change _ = windowState derive secret tolerance [] 0
    rfl
  returned := fun _ hr => absurd hr not_mem_nil
  nodup := nodup_nil
  head := Nat.zero_le _

theorem request_of_inRange (h : Window derive secret tolerance x) (hg : g.toNat < UInt32.size - 1)
    (hin : InRange forward tolerance x g) (hblind : ¬Blind checks forward tolerance x g) :
    x.request checks derive forward tolerance g =
      .ok (windowState derive secret tolerance (g :: x.returned) (max x.head (g.toNat + 1)),
        keyMaterial derive secret g.toNat) := by
  rw [request, h.ratchet]
  by_cases hlt : g.toNat < x.head
  · have hrch : x.head - g.toNat ≤ reach checks :=
      Nat.le_of_not_lt fun hfar => hblind ⟨hin, hlt, hfar⟩
    rw [secretForDecryption_behind h.head hlt (hin.behind hlt) hrch, if_neg hin.new,
      Nat.max_eq_left hlt]
  · rw [secretForDecryption_ahead hg (Nat.le_of_not_lt hlt) hin.ahead h.returned,
      Nat.max_eq_right (by omega)]

theorem request_of_not_inRange (h : Window derive secret tolerance x)
    (hg : g.toNat < UInt32.size - 1)
    (hout : ¬InRange forward tolerance x g ∨ Blind checks forward tolerance x g) :
    ¬(x.request checks derive forward tolerance g).IsOk := by
  rw [request, h.ratchet]
  by_cases hfuture : x.head + forward.toNat < g.toNat
  · rw [secretForDecryption_future h.head hg hfuture]
    exact not_isOk_err _
  by_cases hlt : g.toNat < x.head
  · by_cases hpast : tolerance.toNat < x.head - g.toNat
    · rw [secretForDecryption_past h.head hlt hpast]
      exact not_isOk_err _
    by_cases hfar : reach checks < x.head - g.toNat
    · exact secretForDecryption_blind h.head hlt (Nat.le_of_not_lt hpast) hfar
    rw [secretForDecryption_behind h.head hlt (Nat.le_of_not_lt hpast) (Nat.le_of_not_lt hfar)]
    have hmem : g ∈ x.returned := by
      by_contra hnew
      apply hout.elim
      · intro hnot
        exact hnot ⟨hnew, Nat.le_of_not_lt hfuture, fun _ => Nat.le_of_not_lt hpast⟩
      · intro hblind
        exact hfar hblind.far
    rw [if_pos hmem]
    exact not_isOk_err _
  · -- at or after the head nothing was returned before
    have hin : InRange forward tolerance x g := by
      refine ⟨?_, Nat.le_of_not_lt hfuture, fun hbeh => absurd hbeh hlt⟩
      intro hmem
      exact hlt (h.returned g hmem)
    apply hout.elim
    · intro hnot
      exact absurd hin hnot
    · intro hblind
      exact absurd hblind.behind hlt

theorem Window.next (h : Window derive secret tolerance x) (hg : g.toNat < UInt32.size - 1) :
    Window derive secret tolerance (next checks derive forward tolerance x g) := by
  by_cases hout : ¬InRange forward tolerance x g ∨ Blind checks forward tolerance x g
  · rw [Receiver.next, answered_of_not_isOk (request_of_not_inRange h hg hout)]
    exact h
  · rw [not_or, not_not] at hout
    have hmax : max x.head (g.toNat + 1) ≤ UInt32.size - 1 := by
      have hhead := h.head
      omega
    rw [Receiver.next, request_of_inRange h hg hout.1 hout.2, answered]
    constructor
    · rw [head_windowState hmax]
    · intro r hr
      rw [head_windowState hmax]
      cases mem_cons.mp hr with
      | inl heq =>
        rw [heq]
        omega
      | inr hr =>
        have hlt := h.returned r hr
        omega
    · exact nodup_cons.mpr ⟨hout.1.new, h.nodup⟩
    · rw [head_windowState hmax]
      exact hmax

theorem Window.foldl (h : Window derive secret tolerance x) (requests : List Generation)
    (hreqs : ∀ g ∈ requests, g.toNat < UInt32.size - 1) :
    Window derive secret tolerance (requests.foldl (Receiver.next checks derive forward tolerance)
      x) := by
  induction requests generalizing x with
  | nil => exact h
  | cons g requests ih =>
    rw [forall_mem_cons] at hreqs
    rw [foldl_cons]
    exact ih (h.next hreqs.1) hreqs.2

theorem window_after {requests : List Generation}
    (hreqs : ∀ g ∈ requests, g.toNat < UInt32.size - 1) :
    Window derive secret tolerance (after checks derive secret forward tolerance requests) :=
  Window.init.foldl requests hreqs

variable (checks derive secret forward tolerance) in
/-- A request is answered just if it is in range, with what the sender's ratchet produced for it. -/
structure Served (x : Receiver) (g : Generation) : Prop where
  isOk_iff : (x.request checks derive forward tolerance g).IsOk ↔ InRange forward tolerance x g
  material : ∀ y key, x.request checks derive forward tolerance g = .ok (y, key) →
    ∃ z n, produced checks derive secret g.toNat = .ok (z, n, key)

theorem served_iff (h : Window derive secret tolerance x) (hg : g.toNat < UInt32.size - 1) :
    Served checks derive secret forward tolerance x g ↔ ¬Blind checks forward tolerance x g := by
  constructor
  · intro hserved hblind
    have hfail := request_of_not_inRange h hg (Or.inr hblind)
    exact hfail (hserved.isOk_iff.mpr hblind.inRange)
  · intro hblind
    by_cases hin : InRange forward tolerance x g
    · have hok := request_of_inRange h hg hin hblind
      constructor
      · rw [hok]
        exact iff_of_true (isOk_ok _) hin
      · intro y key hreq
        rw [hok, Outcome.ok.injEq, Prod.mk.injEq] at hreq
        rw [← hreq.2]
        exact ⟨_, _, produced_eq hg⟩
    · have hfail : ¬(x.request checks derive forward tolerance g).IsOk :=
        request_of_not_inRange h hg (Or.inl hin)
      constructor
      · exact iff_of_false hfail hin
      · intro y key hreq
        exact hfail.elim ⟨_, hreq⟩

/-- No key material is returned twice, and each request is answered as it should be, exactly if no
generation in range is further behind the head than a signed integer can say. -/
theorem served_iff_not_blind (checks : Bool) (derive : Hkdf) (secret : Secret MESSAGE_KEY_SIZE)
    (forward tolerance : UInt32) (requests : List Generation)
    (hrequests : ∀ g ∈ requests, g.toNat < 2 ^ 32 - 1) :
    ((after checks derive secret forward tolerance requests).returned.Nodup ∧
        ∀ before g, before ++ [g] <+: requests →
          Served checks derive secret forward tolerance
            (after checks derive secret forward tolerance before) g) ↔
      ∀ before g, before ++ [g] <+: requests →
        ¬Blind checks forward tolerance
          (after checks derive secret forward tolerance before) g := by
  rw [and_iff_right (window_after hrequests).nodup]
  apply forall_congr'
  intro before
  apply forall_congr'
  intro g
  apply imp_congr_right
  intro hbef
  have hsub : ∀ r ∈ before ++ [g], r.toNat < UInt32.size - 1 :=
    fun r hr => hrequests r (hbef.subset hr)
  rw [forall_mem_append, forall_mem_singleton] at hsub
  exact served_iff (window_after hsub.1) hsub.2

theorem not_blind_of_tolerance_lt (htolerance : tolerance.toNat < 2 ^ 31) :
    ¬Blind checks forward tolerance x g := by
  intro hblind
  have hle := hblind.inRange.behind hblind.behind
  have hfar := hblind.far
  unfold reach at hfar
  split at hfar <;> omega

def sampleHkdf : Hkdf := fun N salt ikm info =>
  Vector.replicate N ((salt ++ ikm ++ info).foldl (· + ·) 1)

def sampleSecret : Secret MESSAGE_KEY_SIZE := ⟨Vector.replicate _ 0⟩

theorem served_iff_not_blind_sample :
    (∀ g ∈ ([0, 4, 3, 4, 0, 9] : List Generation), g.toNat < 2 ^ 32 - 1) ∧
      (after true sampleHkdf sampleSecret 3 3 [0, 4, 3, 4, 0, 9]).returned.Nodup ∧
      ∀ before g, before ++ [g] <+: [0, 4, 3, 4, 0, 9] →
        Served true sampleHkdf sampleSecret 3 3
          (after true sampleHkdf sampleSecret 3 3 before) g :=
  have hsmall : ([0, 4, 3, 4, 0, 9] : List Generation).all (fun g => g.toNat < 10) := by decide
  have hrequests : ∀ g ∈ ([0, 4, 3, 4, 0, 9] : List Generation), g.toNat < 2 ^ 32 - 1 := by
    intro g hg
    have := of_decide_eq_true (all_eq_true.mp hsmall g hg)
    omega
  ⟨hrequests, (served_iff_not_blind true sampleHkdf sampleSecret 3 3 _ hrequests).mpr
    fun _ _ _ => not_blind_of_tolerance_lt (by decide)⟩

def u32Max : UInt32 := UInt32.ofNat (UInt32.size - 1)

def jump : Generation := UInt32.ofNat (2 ^ 31)

/-- A receiver which has jumped over `2 ^ 31` generations. -/
def jumped : Receiver := after true sampleHkdf sampleSecret u32Max u32Max [jump]

theorem toNat_u32Max : u32Max.toNat = 2 ^ 32 - 1 := toNat_ofNat_of_le (by decide)

theorem toNat_jump : jump.toNat = 2 ^ 31 := toNat_ofNat_of_le (by decide)

theorem jumped_eq :
    jumped = ⟨windowState sampleHkdf sampleSecret u32Max [jump] (2 ^ 31 + 1), [jump]⟩ := by
  have hin : InRange u32Max u32Max (init sampleSecret) jump := by
    refine ⟨not_mem_nil, ?_, fun h => absurd h (Nat.not_lt_zero _)⟩
    rw [toNat_jump, toNat_u32Max]
    omega
  have hblind : ¬Blind true u32Max u32Max (init sampleSecret) jump :=
    fun h => Nat.not_lt_zero _ h.behind
  have hjump : jump.toNat < UInt32.size - 1 := by
    decide
  have hwindow : Window sampleHkdf sampleSecret u32Max (init sampleSecret) := Window.init
  have hmax : max (init sampleSecret).head (jump.toNat + 1) = 2 ^ 31 + 1 := by
    rfl
  rw [jumped, after, foldl_cons, Receiver.next, request_of_inRange hwindow hjump hin hblind]
  rfl

/-- The first generation is in range, but is taken for one too far behind. -/
theorem request_jumped :
    InRange u32Max u32Max jumped 0 ∧
      request true sampleHkdf u32Max u32Max jumped 0 = .err .tooDistantInThePast := by
  have hhead : jumped.head = 2 ^ 31 + 1 := by
    rw [jumped_eq]
    exact head_windowState (by decide)
  constructor
  · constructor
    · rw [jumped_eq]
      decide
    · exact Nat.zero_le _
    · rw [hhead]
      decide
  · rw [request, jumped_eq]
    rw [secretForDecryption_window (by decide) (by decide) (by decide)]
    have hidx : subI32 true (asI32 (UInt32.ofNat (2 ^ 31 + 1) - 0)) 1 =
        (.ok (-2 ^ 31) : Outcome RatchetError Int) := by
      decide
    rw [hidx, ok_bind, if_neg (by decide)]

end Receiver

end P2Panda.Encryption.MessageScheme
