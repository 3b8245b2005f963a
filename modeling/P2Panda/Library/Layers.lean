import Mathlib.Logic.Function.Basic

/-!
# Layers of buffered processors

A layer takes items from the channel above it, hands them to its processor, and forwards what is in
its queue. An error is forwarded at once and can overtake the items before it. All layers work at
the same time, on a shared store.
-/

namespace P2Panda.Library

open List Function

/-- The items on their way. The channel `i` is above the layer `i`. -/
structure Layers (S T : Type) (n : Nat) where
  store : S
  channels : Fin (n + 1) → List T
  /-- Items taken over by a layer and not processed yet. -/
  inputs : Fin n → List T
  queues : Fin n → List T

/-- A processor consumes an item: it has items for its queue or an error. There is no result when it
does not end. -/
abbrev Processor (Q S T : Type) := Q → S → T → Option (S × Except T (List T))

namespace Layers

variable {Q S T : Type} {n : Nat}

inductive Move (Q : Type) (n : Nat) where
  /-- A layer takes an item from the channel above it. -/
  | pull (i : Fin n)
  /-- The input branch of a layer. -/
  | process (i : Fin n) (q : Q)
  /-- The output branch of a layer. -/
  | next (i : Fin n)

def init (store : S) : Layers S T n := ⟨store, fun _ => [], fun _ => [], fun _ => []⟩

def step (processors : Fin n → Processor Q S T) (s : Layers S T n) :
    Move Q n → Option (Layers S T n)
  | .pull i =>
    match s.channels i.castSucc with
    | [] => none
    | item :: rest => some
      { s with
        channels := Function.update s.channels i.castSucc rest
        inputs := Function.update s.inputs i (s.inputs i ++ [item]) }
  | .process i q =>
    match s.inputs i with
    | [] => none
    | item :: rest =>
      (processors i q s.store item).map fun
      | (store, .ok items) =>
        { s with
          store := store
          inputs := Function.update s.inputs i rest
          queues := Function.update s.queues i (s.queues i ++ items) }
      | (store, .error item) =>
        { s with
          store := store
          inputs := Function.update s.inputs i rest
          channels := Function.update s.channels i.succ (s.channels i.succ ++ [item]) }
  | .next i =>
    match s.queues i with
    | [] => none
    | item :: rest => some
      { s with
        queues := Function.update s.queues i rest
        channels := Function.update s.channels i.succ (s.channels i.succ ++ [item]) }

def push (s : Layers S T n) (item : T) : Layers S T n :=
  { s with channels := Function.update s.channels 0 (s.channels 0 ++ [item]) }

def pop (s : Layers S T n) : Option (T × Layers S T n) :=
  match s.channels (Fin.last n) with
  | [] => none
  | item :: rest =>
    some (item, { s with channels := Function.update s.channels (Fin.last n) rest })

structure Drained (s : Layers S T n) : Prop where
  channels : ∀ c, s.channels c = []
  inputs : ∀ i, s.inputs i = []
  queues : ∀ i, s.queues i = []

instance (s : Layers S T n) : Decidable s.Drained :=
  decidable_of_iff ((∀ c, s.channels c = []) ∧ (∀ i, s.inputs i = []) ∧ ∀ i, s.queues i = [])
    ⟨fun ⟨hchannels, hinputs, hqueues⟩ => ⟨hchannels, hinputs, hqueues⟩,
      fun h => ⟨h.channels, h.inputs, h.queues⟩⟩

inductive InFlight (p : T → Prop) (s : Layers S T n) : Prop
  | channel (c : Fin (n + 1)) (item : T) : item ∈ s.channels c → p item → InFlight p s
  | input (i : Fin n) (item : T) : item ∈ s.inputs i → p item → InFlight p s
  | queue (i : Fin n) (item : T) : item ∈ s.queues i → p item → InFlight p s

variable {p : T → Prop} {s s' : Layers S T n} {k : Nat} {f : Fin k → List T} {item : T}
  {processors : Fin n → Processor Q S T}

theorem Drained.not_inFlight (h : s.Drained) : ¬s.InFlight p := by
  rintro (⟨c, item, hmem, -⟩ | ⟨i, item, hmem, -⟩ | ⟨i, item, hmem, -⟩)
  · rw [h.channels] at hmem
    cases hmem
  · rw [h.inputs] at hmem
    cases hmem
  · rw [h.queues] at hmem
    cases hmem

/-- With every item that has the property, the processor has one that has it again. -/
def Keeps (p : T → Prop) (processor : Processor Q S T) : Prop :=
  ∀ q store item result, processor q store item = some result → p item →
    match result.2 with
    | .ok items => ∃ item' ∈ items, p item'
    | .error item' => p item'

theorem eq_or_mem_update {i j : Fin k} {first item : T} {rest : List T}
    (hfst : f i = first :: rest) (h : item ∈ f j) :
    (j = i ∧ item = first) ∨ item ∈ Function.update f i rest j := by
  by_cases heq : j = i
  · subst heq
    rw [hfst, mem_cons] at h
    rw [update_self]
    exact h.imp_left fun hitem => ⟨rfl, hitem⟩
  · rw [update_of_ne heq]
    exact Or.inr h

theorem mem_update_concat (f : Fin k → List T) (i : Fin k) (items : List T) (h : item ∈ items) :
    item ∈ Function.update f i (f i ++ items) i := by
  rw [update_self]
  exact mem_append_right _ h

theorem mem_update_append (i : Fin k) (items : List T) {j : Fin k} (h : item ∈ f j) :
    item ∈ Function.update f i (f i ++ items) j := by
  by_cases heq : j = i
  · subst heq
    rw [update_self]
    exact mem_append_left _ h
  · rw [update_of_ne heq]
    exact h

theorem InFlight.step (hkeeps : ∀ i, Keeps p (processors i)) (h : s.InFlight p) {move : Move Q n}
    (hstep : s.step processors move = some s') :
    s'.InFlight p := by
  cases move with
  | pull i =>
    dsimp only [Layers.step] at hstep
    split at hstep
    · cases hstep
    rename_i hfst
    cases hstep
    rcases h with ⟨c, item, hmem, hp⟩ | ⟨j, item, hmem, hp⟩ | ⟨j, item, hmem, hp⟩
    · rcases eq_or_mem_update hfst hmem with ⟨rfl, rfl⟩ | hmem
      · exact .input i item (mem_update_concat _ _ _ (mem_singleton_self item)) hp
      · exact .channel c item hmem hp
    · exact .input j item (mem_update_append i _ hmem) hp
    · exact .queue j item hmem hp
  | process i q =>
    dsimp only [Layers.step] at hstep
    split at hstep
    · cases hstep
    rename_i first rest hfst
    obtain ⟨⟨store, result⟩, hres, hs'⟩ := Option.map_eq_some_iff.mp hstep
    have hfirstKept := hkeeps i q s.store first _ hres
    cases result with
    | ok items =>
      subst hs'
      rcases h with ⟨c, item, hmem, hp⟩ | ⟨j, item, hmem, hp⟩ | ⟨j, item, hmem, hp⟩
      · exact .channel c item hmem hp
      · rcases eq_or_mem_update hfst hmem with ⟨rfl, rfl⟩ | hmem
        · obtain ⟨item', hitem', hp'⟩ := hfirstKept hp
          exact .queue j item' (mem_update_concat _ _ _ hitem') hp'
        · exact .input j item hmem hp
      · exact .queue j item (mem_update_append i _ hmem) hp
    | error item' =>
      subst hs'
      rcases h with ⟨c, item, hmem, hp⟩ | ⟨j, item, hmem, hp⟩ | ⟨j, item, hmem, hp⟩
      · exact .channel c item (mem_update_append i.succ _ hmem) hp
      · rcases eq_or_mem_update hfst hmem with ⟨rfl, rfl⟩ | hmem
        · exact .channel j.succ item'
            (mem_update_concat _ _ _ (mem_singleton_self item')) (hfirstKept hp)
        · exact .input j item hmem hp
      · exact .queue j item hmem hp
  | next i =>
    dsimp only [Layers.step] at hstep
    split at hstep
    · cases hstep
    rename_i hfst
    cases hstep
    rcases h with ⟨c, item, hmem, hp⟩ | ⟨j, item, hmem, hp⟩ | ⟨j, item, hmem, hp⟩
    · exact .channel c item (mem_update_append i.succ _ hmem) hp
    · exact .input j item hmem hp
    · rcases eq_or_mem_update hfst hmem with ⟨rfl, rfl⟩ | hmem
      · exact .channel j.succ item (mem_update_concat _ _ _ (mem_singleton_self item)) hp
      · exact .queue j item hmem hp

theorem InFlight.push (h : s.InFlight p) (item : T) : (s.push item).InFlight p := by
  rcases h with ⟨c, item', hmem, hp⟩ | ⟨j, item', hmem, hp⟩ | ⟨j, item', hmem, hp⟩
  · exact .channel c item' (mem_update_append 0 _ hmem) hp
  · exact .input j item' hmem hp
  · exact .queue j item' hmem hp

theorem inFlight_push (hp : p item) : (s.push item).InFlight p :=
  .channel 0 item (mem_update_concat s.channels 0 [item] (mem_singleton_self item)) hp

theorem InFlight.pop (h : s.InFlight p) (hpop : s.pop = some (item, s')) :
    p item ∨ s'.InFlight p := by
  unfold Layers.pop at hpop
  split at hpop
  · cases hpop
  rename_i hfst
  cases hpop
  rcases h with ⟨c, item', hmem, hp⟩ | ⟨j, item', hmem, hp⟩ | ⟨j, item', hmem, hp⟩
  · rcases eq_or_mem_update hfst hmem with ⟨-, rfl⟩ | hmem
    · exact Or.inl hp
    · exact Or.inr (.channel c item' hmem hp)
  · exact Or.inr (.input j item' hmem hp)
  · exact Or.inr (.queue j item' hmem hp)

/-- All items have a property, which depends on the last channel they came through. -/
structure All (p : Fin (n + 1) → T → Prop) (s : Layers S T n) : Prop where
  channels : ∀ c, ∀ item ∈ s.channels c, p c item
  inputs : ∀ i, ∀ item ∈ s.inputs i, p i.castSucc item
  queues : ∀ i, ∀ item ∈ s.queues i, p i.succ item

/-- From items with one property the processor makes items with another. -/
def Turns (p p' : T → Prop) (processor : Processor Q S T) : Prop :=
  ∀ q store item result, processor q store item = some result → p item →
    match result.2 with
    | .ok items => ∀ item' ∈ items, p' item'
    | .error item' => p' item'

variable {P : Fin (n + 1) → T → Prop}

theorem forall_mem_update {p : Fin k → T → Prop} {i : Fin k} {items : List T}
    (hf : ∀ j, ∀ item ∈ f j, p j item) (hitems : ∀ item ∈ items, p i item) (j : Fin k) :
    ∀ item ∈ Function.update f i items j, p j item := by
  by_cases heq : j = i
  · subst heq
    rw [update_self]
    exact hitems
  · rw [update_of_ne heq]
    exact hf j

theorem forall_mem_concat {items : List T} (hitems : ∀ item ∈ items, p item) (hitem : p item) :
    ∀ item' ∈ items ++ [item], p item' :=
  forall_mem_append.mpr ⟨hitems, forall_mem_singleton.mpr hitem⟩

theorem All.step (hturns : ∀ i : Fin n, Turns (P i.castSucc) (P i.succ) (processors i))
    (h : s.All P) {move : Move Q n} (hstep : s.step processors move = some s') : s'.All P := by
  cases move with
  | pull i =>
    dsimp only [Layers.step] at hstep
    split at hstep
    · cases hstep
    rename_i hfst
    cases hstep
    have hhead := h.channels i.castSucc
    rw [hfst, forall_mem_cons] at hhead
    have hinputs := forall_mem_concat (h.inputs i) hhead.1
    exact ⟨forall_mem_update h.channels hhead.2, forall_mem_update h.inputs hinputs, h.queues⟩
  | process i q =>
    dsimp only [Layers.step] at hstep
    split at hstep
    · cases hstep
    rename_i first rest hfst
    have hhead := h.inputs i
    rw [hfst, forall_mem_cons] at hhead
    have hinputs := forall_mem_update h.inputs hhead.2
    obtain ⟨⟨store, result⟩, hres, hs'⟩ := Option.map_eq_some_iff.mp hstep
    have hturned := hturns i q s.store first _ hres hhead.1
    cases result with
    | ok items =>
      subst hs'
      have hq : ∀ item ∈ s.queues i ++ items, P i.succ item :=
        forall_mem_append.mpr ⟨h.queues i, hturned⟩
      exact ⟨h.channels, hinputs, forall_mem_update h.queues hq⟩
    | error item' =>
      subst hs'
      have hchan := forall_mem_concat (h.channels i.succ) hturned
      exact ⟨forall_mem_update h.channels hchan, hinputs, h.queues⟩
  | next i =>
    dsimp only [Layers.step] at hstep
    split at hstep
    · cases hstep
    rename_i hfst
    cases hstep
    have hhead := h.queues i
    rw [hfst, forall_mem_cons] at hhead
    have hchan := forall_mem_concat (h.channels i.succ) hhead.1
    exact ⟨forall_mem_update h.channels hchan, h.inputs, forall_mem_update h.queues hhead.2⟩

theorem all_init (store : S) : (init store : Layers S T n).All P where
  channels _ _ hmem := nomatch hmem
  inputs _ _ hmem := nomatch hmem
  queues _ _ hmem := nomatch hmem

theorem All.push (h : s.All P) (hitem : P 0 item) : (s.push item).All P :=
  ⟨forall_mem_update h.channels (forall_mem_concat (h.channels 0) hitem), h.inputs, h.queues⟩

theorem All.pop (h : s.All P) (hpop : s.pop = some (item, s')) :
    P (Fin.last n) item ∧ s'.All P := by
  unfold Layers.pop at hpop
  split at hpop
  · cases hpop
  rename_i hfst
  cases hpop
  have hhead := h.channels (Fin.last n)
  rw [hfst, forall_mem_cons] at hhead
  exact ⟨hhead.1, forall_mem_update h.channels hhead.2, h.inputs, h.queues⟩

theorem All.mono {P' : Fin (n + 1) → T → Prop} (h : s.All P)
    (himp : ∀ c item, P c item → P' c item) : s.All P' where
  channels c item hmem := himp c item (h.channels c item hmem)
  inputs i item hmem := himp _ item (h.inputs i item hmem)
  queues i item hmem := himp _ item (h.queues i item hmem)

end Layers

end P2Panda.Library
