import Mathlib.Data.List.Basic

/-!
# Computations that return, fail or panic

A Rust function returns a value, returns an error, or panics. `Outcome` keeps the three apart, so
that "the call returns `Ok` or `Err`" can be said.
-/

namespace P2Panda.Library

open List

/-- A value, an error, or an unwinding panic. -/
inductive Outcome (ε α : Type) where
  | ok (value : α)
  | err (error : ε)
  | panic (message : String)
  deriving DecidableEq, Repr

namespace Outcome

variable {ε ε' α β σ : Type} {x : Outcome ε α} {f : σ → α → Outcome ε σ}

/-- The first error or panic ends the computation. -/
protected def bind (x : Outcome ε α) (f : α → Outcome ε β) : Outcome ε β :=
  match x with
  | ok a => f a
  | err e => err e
  | panic m => panic m

instance : Monad (Outcome ε) where
  pure := ok
  bind := Outcome.bind

instance : LawfulMonad (Outcome ε) :=
  LawfulMonad.mk' _ (fun x => by cases x <;> rfl) (fun _ _ => rfl)
    (fun x _ _ => by cases x <;> rfl)

/-- `Result::map_err`; a panic is passed on. -/
def mapErr (f : ε → ε') : Outcome ε α → Outcome ε' α
  | ok a => ok a
  | err e => err (f e)
  | panic m => panic m

/-- `Option::expect`. -/
def expect (message : String) : Option α → Outcome ε α
  | some a => ok a
  | none => panic message

/-- `Result::expect`: an error becomes a panic. -/
def expectOk (message : String) : Outcome ε α → Outcome ε' α
  | ok a => ok a
  | err _ => panic message
  | panic m => panic m

def IsOk (x : Outcome ε α) : Prop := ∃ a, x = ok a

def Returns (x : Outcome ε α) (p : α → Prop) : Prop := ∃ a, x = ok a ∧ p a

instance (x : Outcome ε α) (p : α → Prop) [DecidablePred p] : Decidable (x.Returns p) :=
  match x with
  | ok a => decidable_of_iff (p a) ⟨fun h => ⟨a, rfl, h⟩, fun ⟨_, h, hp⟩ => by cases h; exact hp⟩
  | err _ => isFalse fun ⟨_, h, _⟩ => nomatch h
  | panic _ => isFalse fun ⟨_, h, _⟩ => nomatch h

def IsPanic (x : Outcome ε α) : Prop := ∃ m, x = panic m

instance (x : Outcome ε α) : Decidable x.IsOk :=
  match x with
  | ok a => isTrue ⟨a, rfl⟩
  | err _ => isFalse fun ⟨_, h⟩ => nomatch h
  | panic _ => isFalse fun ⟨_, h⟩ => nomatch h

instance (x : Outcome ε α) : Decidable x.IsPanic :=
  match x with
  | ok _ => isFalse fun ⟨_, h⟩ => nomatch h
  | err _ => isFalse fun ⟨_, h⟩ => nomatch h
  | panic m => isTrue ⟨m, rfl⟩

@[simp] theorem pure_eq (a : α) : (pure a : Outcome ε α) = ok a := rfl

@[simp] theorem ok_bind (a : α) (f : α → Outcome ε β) : (ok a >>= f) = f a := rfl

@[simp] theorem err_bind (e : ε) (f : α → Outcome ε β) : (err e >>= f) = err e := rfl

@[simp] theorem panic_bind (m : String) (f : α → Outcome ε β) :
    (panic m >>= f) = panic m := rfl

@[simp] theorem mapErr_ok (f : ε → ε') (a : α) : mapErr f (ok a) = ok a := rfl

@[simp] theorem mapErr_err (f : ε → ε') (e : ε) :
    mapErr f (err e : Outcome ε α) = err (f e) := rfl

@[simp] theorem mapErr_panic (f : ε → ε') (m : String) :
    mapErr f (panic m : Outcome ε α) = panic m := rfl

@[simp] theorem expect_some (m : String) (a : α) :
    (expect m (some a) : Outcome ε α) = ok a := rfl

@[simp] theorem expect_none (m : String) :
    (expect m none : Outcome ε α) = panic m := rfl

@[simp] theorem expectOk_ok (m : String) (a : α) :
    (expectOk m (ok a : Outcome ε α) : Outcome ε' α) = ok a := rfl

@[simp] theorem isOk_ok (a : α) : (ok a : Outcome ε α).IsOk := ⟨a, rfl⟩

@[simp] theorem returns_ok (a : α) (p : α → Prop) : (ok a : Outcome ε α).Returns p ↔ p a := by
  simp [Returns]

@[simp] theorem not_isOk_err (e : ε) : ¬(err e : Outcome ε α).IsOk := by
  rintro ⟨a, h⟩
  cases h

@[simp] theorem not_isOk_panic (m : String) : ¬(panic m : Outcome ε α).IsOk := by
  rintro ⟨a, h⟩
  cases h

@[simp] theorem not_isPanic_ok (a : α) : ¬(ok a : Outcome ε α).IsPanic := by
  rintro ⟨m, h⟩
  cases h

@[simp] theorem not_isPanic_err (e : ε) : ¬(err e : Outcome ε α).IsPanic := by
  rintro ⟨m, h⟩
  cases h

@[simp] theorem isPanic_panic (m : String) : (panic m : Outcome ε α).IsPanic := ⟨m, rfl⟩

theorem bind_eq_ok {f : α → Outcome ε β} {b : β} :
    (x >>= f) = ok b ↔ ∃ a, x = ok a ∧ f a = ok b := by
  cases x with
  | ok a => simp
  | err e => simp
  | panic m => simp

theorem mapErr_eq_ok {f : ε → ε'} {a : α} : mapErr f x = ok a ↔ x = ok a := by
  cases x with
  | ok a => simp
  | err e => simp
  | panic m => simp

theorem expect_eq_ok {m : String} {o : Option α} {a : α} :
    (expect m o : Outcome ε α) = ok a ↔ o = some a := by
  cases o with
  | none => simp
  | some a => simp

/-- A call which panics with no other message. -/
def PanicsOnly (message : String) (x : Outcome ε α) : Prop := ∀ m, x = panic m → m = message

@[simp] theorem panicsOnly_ok (message : String) (a : α) :
    (ok a : Outcome ε α).PanicsOnly message :=
  fun _ h => nomatch h

@[simp] theorem panicsOnly_err (message : String) (e : ε) :
    (err e : Outcome ε α).PanicsOnly message :=
  fun _ h => nomatch h

/-- What the second call does matters only if the first one returns. -/
theorem PanicsOnly.bind {message : String} {f : α → Outcome ε β} (hx : x.PanicsOnly message)
    (hf : ∀ a, x = ok a → (f a).PanicsOnly message) :
    (x >>= f).PanicsOnly message := by
  intro m h
  cases x with
  | ok a => exact hf a rfl m h
  | err e => cases h
  | panic m' =>
    cases h
    exact hx m rfl

theorem PanicsOnly.mapErr {message : String} (hx : x.PanicsOnly message) (f : ε → ε') :
    (x.mapErr f).PanicsOnly message := by
  intro m h
  cases x with
  | ok a => cases h
  | err e => cases h
  | panic m' =>
    cases h
    exact hx m rfl

theorem isOk_foldlM (h : ∀ s a, (f s a).IsOk) (l : List α) (s : σ) : (l.foldlM f s).IsOk := by
  induction l generalizing s with
  | nil => exact isOk_ok s
  | cons a l ih =>
    obtain ⟨s', hs'⟩ := h s a
    rw [foldlM_cons, hs']
    exact ih s'

theorem foldlM_congr {f g : σ → α → Outcome ε σ} {l : List α} (h : ∀ a ∈ l, ∀ s, f s a = g s a)
    (s : σ) : l.foldlM f s = l.foldlM g s := by
  induction l generalizing s with
  | nil => rfl
  | cons a l ih =>
    rw [forall_mem_cons] at h
    simp only [foldlM_cons, h.1, ih h.2]

theorem foldlM_concat_eq_ok {l : List α} {a : α} {s s' : σ} :
    (l ++ [a]).foldlM f s = ok s' ↔ ∃ t, l.foldlM f s = ok t ∧ f t a = ok s' := by
  rw [foldlM_append, bind_eq_ok]
  simp only [foldlM_cons, foldlM_nil, bind_pure]

/-- The loop rule. `Inv done s` speaks of the items already handled. -/
theorem foldlM_spec (Inv : List α → σ → Prop) (l : List α) (s : σ) (start : Inv [] s)
    (body : ∀ done x rest t, l = done ++ x :: rest → Inv done t →
      ∃ t', f t x = ok t' ∧ Inv (done ++ [x]) t') :
    ∃ s', l.foldlM f s = ok s' ∧ Inv l s' := by
  -- The induction is on what is left; `done` carries the part already run.
  have run : ∀ rest done t, l = done ++ rest → Inv done t →
      ∃ t', rest.foldlM f t = ok t' ∧ Inv (done ++ rest) t' := by
    intro rest
    induction rest with
    | nil =>
      intro done t _ ht
      exact ⟨t, by simp, by simpa using ht⟩
    | cons x rest ih =>
      intro done t hl ht
      obtain ⟨t1, hstep, ht1⟩ := body done x rest t hl ht
      obtain ⟨t2, hrun, ht2⟩ := ih (done ++ [x]) t1 (by simp [hl]) ht1
      refine ⟨t2, ?_, by simpa using ht2⟩
      rw [foldlM_cons, hstep, ok_bind, hrun]
  simpa using run l [] s rfl start

end Outcome

section Except

variable {ε ε' α β : Type}

theorem except_bind_eq_ok {x : Except ε α} {f : α → Except ε β} {b : β} :
    (x >>= f) = .ok b ↔ ∃ a, x = .ok a ∧ f a = .ok b := by
  cases x with
  | ok a => simp [bind, Except.bind]
  | error e => simp [bind, Except.bind]

/-- `if !condition { return Err(error) }`. -/
def ensure (condition : Prop) [Decidable condition] (error : ε) : Except ε Unit :=
  if condition then .ok () else .error error

theorem ensure_eq_ok {condition : Prop} [Decidable condition] {error : ε} {u : Unit} :
    ensure condition error = .ok u ↔ condition := by
  unfold ensure
  split
  · rename_i h
    exact ⟨fun _ => h, fun _ => rfl⟩
  · rename_i h
    exact ⟨nofun, fun h' => absurd h' h⟩

theorem except_mapError_eq_ok {x : Except ε α} {f : ε → ε'} {a : α} :
    x.mapError f = .ok a ↔ x = .ok a := by
  cases x with
  | ok a => simp [Except.mapError]
  | error e => simp [Except.mapError]

end Except

end P2Panda.Library
