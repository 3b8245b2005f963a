import P2Panda.Node.Processor.Pipeline

/-!
# Every input is completed

The event of an input is never lost in the layers, whatever overtakes it, and the consumer marks its
task as done. So when nothing is left in the pipeline, every task has a result.
-/

namespace P2Panda.Node.Pipeline

open P2Panda.Library P2Panda.Core P2Panda.Stream List TaskTracker Option

variable {V L TP C D R Q : Type}

/-- The event of an input with this hash, not one that was freed. -/
def Own (hash : Hash) (event : Event V L TP C) : Prop :=
  event.hash = hash ∧ event.orderer ≠ .completed .readyOutput

def IsOf (inputs : List (Event V L TP C)) (event : Event V L TP C) : Prop :=
  ∃ input ∈ inputs, event.operation = input.operation ∧ event.source = input.source

/-- After the orderer, there are events which were freed by an input as well. -/
def Stems (inputs : List (Event V L TP C)) (c : Fin 6) (event : Event V L TP C) : Prop :=
  IsOf inputs event ∨ (2 ≤ c ∧ event.orderer = .completed .readyOutput)

variable {processors : Processors V L TP C D R Q} {inputs : List (Event V L TP C)}
  {pipeline : Pipeline V L TP C D R} {event : Event V L TP C}
  {layers : Layers (PipelineStore V L TP C D R) (Event V L TP C) 5}

section OneToOne

variable {S T F O : Type} {p p' : T → Prop} {process : Q → S → T → S × Except F O}
  {completed : T → O → T} {failed : T → F → T}

theorem keeps_oneToOne (hcompl : ∀ event result, p event → p (completed event result))
    (hfail : ∀ event error, p event → p (failed event error)) :
    Layers.Keeps p (oneToOne process completed failed) := by
  intro q store event result hres hp
  unfold oneToOne at hres
  split at hres
  · cases hres
    exact ⟨_, mem_singleton_self _, hcompl _ _ hp⟩
  · cases hres
    exact hfail _ _ hp

theorem turns_oneToOne (hcompl : ∀ event result, p event → p' (completed event result))
    (hfail : ∀ event error, p event → p' (failed event error)) :
    Layers.Turns p p' (oneToOne process completed failed) := by
  intro q store event result hres hp
  unfold oneToOne at hres
  split at hres
  · cases hres
    exact forall_mem_singleton.mpr (hcompl _ _ hp)
  · cases hres
    exact hfail _ _ hp

end OneToOne

theorem ordered_eq (output : Event V L TP C × OrdererResult) :
    (Processors.ordered output).operation = output.1.operation ∧
      (Processors.ordered output).source = output.1.source ∧
      (Processors.ordered output).orderer = .completed output.2 := by
  unfold Processors.ordered
  dsimp only
  split <;> exact ⟨rfl, rfl, rfl⟩

/-- What a task may be done with: an event of its operation, of an input or freed by one. -/
def Completes (id : Hash) (inputs : List (Event V L TP C)) (taskId : PipelineTaskId)
    (event : Event V L TP C) : Prop :=
  taskId = ⟨id, event.hash⟩ ∧ Stems inputs 5 event

structure Working (inputs : List (Event V L TP C)) (pipeline : Pipeline V L TP C D R) : Prop where
  sound : pipeline.tasks.Sound (Completes pipeline.id inputs)
  registered : ∀ input ∈ inputs, ∃ task ∈ pipeline.tasks.tasks, task.id = pipeline.taskId input
  inFlight : ∀ {taskId}, (pipeline.tasks.inner.lookup taskId).isSome →
    taskId.pipelineId = pipeline.id ∧
      ((∃ event ∈ pipeline.sending, Own taskId.eventId event) ∨
        pipeline.layers.InFlight (Own taskId.eventId))
  sending : ∀ event ∈ pipeline.sending, IsOf inputs event
  stems : pipeline.layers.All (Stems inputs)
  pending : ∀ event, pipeline.pending = some event → Stems inputs 5 event
  waiting : pipeline.pending = none ∨ pipeline.pendingDependencies ≠ ∅

theorem visit_spec (hwait : pipeline.pending = none ∨ pipeline.pendingDependencies ≠ ∅)
    (event : Event V L TP C) :
    ((pipeline.visit event).2 = some event ∨ (pipeline.visit event).2 = pipeline.pending) ∧
      (event.orderer ≠ .completed .readyOutput → (pipeline.visit event).2 = some event ∨
        (pipeline.visit event).2 = none ∨ (pipeline.visit event).1 ≠ ∅) := by
  unfold visit
  split
  · exact ⟨Or.inl rfl, fun _ => Or.inl rfl⟩
  · rename_i hfreed
    exact ⟨Or.inr rfl, fun hnot => absurd hfreed hnot⟩
  · exact ⟨Or.inr rfl, fun _ => Or.inr hwait⟩

/-- The consumer marks one task as done: that of the event itself, unless it was freed. -/
theorem consume_spec (pipeline : Pipeline V L TP C D R)
    (hwait : pipeline.pending = none ∨ pipeline.pendingDependencies ≠ ∅) (event : Event V L TP C) :
    ∃ done, (done = event ∨ pipeline.pending = some done) ∧
      (event.orderer ≠ .completed .readyOutput → done = event) ∧
      (pipeline.consume event).tasks = pipeline.tasks.markAsDone (pipeline.taskId done) done ∧
      (∀ next, (pipeline.consume event).pending = some next →
        next = event ∨ pipeline.pending = some next) ∧
      ((pipeline.consume event).pending = none ∨
        (pipeline.consume event).pendingDependencies ≠ ∅) := by
  obtain ⟨hpend, hown⟩ := visit_spec hwait event
  unfold consume
  generalize pipeline.visit event = visited at hpend hown
  obtain ⟨pendingDependencies, pending⟩ := visited
  dsimp only at hpend hown ⊢
  have hkept {parent : Event V L TP C} (hparent : pending = some parent) :
      parent = event ∨ pipeline.pending = some parent := by
    rcases hpend with heq | heq
    · rw [hparent, Option.some.injEq] at heq
      exact Or.inl heq
    · exact Or.inr (heq.symm.trans hparent)
  cases pending with
  | none => exact ⟨event, Or.inl rfl, fun _ => rfl, rfl, by simp, Or.inl rfl⟩
  | some parent =>
    by_cases hemp : pendingDependencies = ∅
    · rw [decide_eq_true hemp]
      refine ⟨parent, hkept rfl, fun hnot => ?_, rfl, by simp, Or.inl rfl⟩
      rcases hown hnot with heq | hnone | hne
      · exact Option.some.inj heq
      · cases hnone
      · exact absurd hemp hne
    · rw [decide_eq_false hemp]
      exact ⟨event, Or.inl rfl, fun _ => rfl, rfl, fun next hnext => hkept hnext, Or.inr hemp⟩

theorem frame_consume (pipeline : Pipeline V L TP C D R) (event : Event V L TP C) :
    (pipeline.consume event).id = pipeline.id ∧
      (pipeline.consume event).sending = pipeline.sending ∧
      (pipeline.consume event).layers = pipeline.layers := by
  unfold consume
  dsimp only
  split <;> exact ⟨rfl, rfl, rfl⟩

theorem Stems.mono {c : Fin 6} (h : Stems inputs c event) (input : Event V L TP C) :
    Stems (inputs ++ [input]) c event :=
  h.imp_left fun ⟨input', hmem, heq⟩ => ⟨input', mem_append_left _ hmem, heq⟩

theorem own_inputEvent (operation : Operation V L C) (source : Source) (topic : TP) :
    Own operation.hash (inputEvent operation source topic) :=
  ⟨rfl, by simp [inputEvent, Event.new]⟩

theorem Working.track (h : Working inputs pipeline) (operation : Operation V L C) (source : Source)
    (topic : TP) :
    Working (inputs ++ [inputEvent operation source topic])
      { pipeline with
        sending := pipeline.sending ++ [inputEvent operation source topic]
        tasks := pipeline.tasks.track (pipeline.taskId (inputEvent operation source topic)) } where
  sound := by
    refine (h.sound.mono fun taskId event hok => ?_).track _
    exact ⟨hok.1, hok.2.mono _⟩
  registered := by
    rw [forall_mem_append, forall_mem_singleton]
    refine ⟨fun input hmem => ?_, h.sound.exists_track _⟩
    obtain ⟨task, htask, hid⟩ := h.registered input hmem
    obtain ⟨task', htask', hid'⟩ := exists_of_track htask _
    exact ⟨task', htask', hid'.trans hid⟩
  inFlight := by
    intro taskId hsome
    rcases lookup_track.mp hsome with rfl | hsome
    · exact ⟨rfl, Or.inl ⟨_, by simp, own_inputEvent operation source topic⟩⟩
    · obtain ⟨hid, hflight⟩ := h.inFlight hsome
      refine ⟨hid, hflight.imp_left ?_⟩
      rintro ⟨event, hmem, hown⟩
      exact ⟨event, mem_append_left _ hmem, hown⟩
  sending := by
    rw [forall_mem_append, forall_mem_singleton]
    refine ⟨fun event hmem => ?_, _, by simp, rfl, rfl⟩
    obtain ⟨input, hinp, heq⟩ := h.sending event hmem
    exact ⟨input, mem_append_left _ hinp, heq⟩
  stems := h.stems.mono fun _ _ hstems => hstems.mono _
  pending event hpend := (h.pending event hpend).mono _
  waiting := h.waiting

theorem Working.send (h : Working inputs pipeline) {i : Nat}
    (hev : pipeline.sending[i]? = some event) :
    Working inputs { pipeline with
      sending := pipeline.sending.eraseIdx i
      layers := pipeline.layers.push event } where
  sound := h.sound
  registered := h.registered
  inFlight := by
    intro taskId hsome
    obtain ⟨hid, ⟨event', hmem, hown⟩ | hflight⟩ := h.inFlight hsome
    · refine ⟨hid, ?_⟩
      obtain ⟨j, hj⟩ := mem_iff_getElem?.mp hmem
      by_cases hij : j = i
      · rw [hij, hev] at hj
        cases hj
        exact Or.inr (Layers.inFlight_push hown)
      · exact Or.inl ⟨event', mem_eraseIdx_iff_getElem?.mpr ⟨j, hij, hj⟩, hown⟩
    · exact ⟨hid, Or.inr (hflight.push event)⟩
  sending event' hmem := h.sending event' (mem_of_mem_eraseIdx hmem)
  stems := h.stems.push (Or.inl (h.sending event (mem_of_getElem? hev)))
  pending := h.pending
  waiting := h.waiting

theorem Working.consume (h : Working inputs pipeline)
    (hpop : pipeline.layers.pop = some (event, layers)) :
    Working inputs ({ pipeline with layers := layers }.consume event) := by
  obtain ⟨hev, hstems⟩ := h.stems.pop hpop
  obtain ⟨done, hdone, hown, htasks, hnext, hwait⟩ :=
    consume_spec { pipeline with layers := layers } h.waiting event
  obtain ⟨hid, hsending, hlayers⟩ := frame_consume { pipeline with layers := layers } event
  have hstemsDone : Stems inputs 5 done := by
    rcases hdone with rfl | hpend
    · exact hev
    · exact h.pending done hpend
  refine ⟨?_, ?_, ?_, ?_, ?_, ?_, hwait⟩
  · rw [htasks, hid]
    exact h.sound.markAsDone _ ⟨rfl, hstemsDone⟩
  · intro input hmem
    obtain ⟨task, htask, htaskId⟩ := h.registered input hmem
    obtain ⟨task', htask', htaskId'⟩ := exists_of_markAsDone htask _ _
    rw [htasks]
    refine ⟨task', htask', (htaskId'.trans htaskId).trans ?_⟩
    rw [taskId, taskId, hid]
  · intro taskId hsome
    rw [htasks] at hsome
    rw [hid, hsending, hlayers]
    obtain ⟨hne, hsome⟩ := lookup_markAsDone.mp hsome
    obtain ⟨htaskId, hflight⟩ := h.inFlight hsome
    refine ⟨htaskId, hflight.imp_right fun hflight => ?_⟩
    -- the event that was taken is not the one the task waits for, or the task would be done
    refine (hflight.pop hpop).resolve_left fun hev => hne ?_
    rw [hown hev.2]
    obtain ⟨pipelineId, eventId⟩ := taskId
    rw [taskId, hev.1]
    exact congrArg (PipelineTaskId.mk · eventId) htaskId
  · rw [hsending]
    exact h.sending
  · rw [hlayers]
    exact hstems
  · intro next hpend
    rcases hnext next hpend with rfl | hold
    · exact hev
    · exact h.pending next hold

/-- The operations for which `process` was called. -/
def inputsOf (moves : List (Move V L TP C Q)) : List (Event V L TP C) :=
  moves.filterMap fun
    | .track operation source topic => some (inputEvent operation source topic)
    | _ => none

theorem working_init (id : Hash) (store : PipelineStore V L TP C D R) :
    Working [] (init id store) where
  sound := sound_new
  registered input hmem := nomatch hmem
  inFlight hsome := by simp [init, new] at hsome
  sending event hmem := nomatch hmem
  stems := Layers.all_init store
  pending event hpend := nomatch hpend
  waiting := Or.inl rfl

variable [DecidableEq D]

theorem keeps_ordererLayer (hash : Hash) : Layers.Keeps (Own hash) processors.ordererLayer := by
  intro q store event result hres hown
  obtain ⟨⟨store', outputs⟩, houtputs, rfl⟩ := map_eq_some_iff.mp hres
  have hfwds := Orderer.process_forwards houtputs
  cases outputs with
  | ok outputs =>
    obtain ⟨⟨result, hres, hmem⟩, -⟩ := hfwds
    obtain ⟨hop, -, hord⟩ := ordered_eq (event, result)
    refine ⟨_, mem_map_of_mem hmem, ?_, ?_⟩
    · rw [Event.hash, hop]
      exact hown.1
    · rw [hord]
      simpa using hres
  | error output =>
    cases hfwds
    exact ⟨hown.1, by simp [Event.noop]⟩

theorem keeps_layers (hash : Hash) :
    ∀ i, Layers.Keeps (Own hash) (processors.layers i)
  | 0 => by
    exact keeps_oneToOne (fun _ _ h => h) fun _ _ h => h
  | 1 => keeps_ordererLayer hash
  | 2 => by
    exact keeps_oneToOne (fun _ _ h => h) fun _ _ h => h
  | 3 => by
    exact keeps_oneToOne (fun _ _ h => h) fun _ _ h => h
  | 4 => by
    intro q store event result hres hown
    cases hres
    exact ⟨event, List.mem_singleton_self event, hown⟩

theorem turns_ordererLayer :
    Layers.Turns (Stems inputs 1) (Stems inputs 2) processors.ordererLayer := by
  intro q store event result hres hstems
  have hinp : IsOf inputs event := hstems.resolve_right fun h => absurd h.1 (by decide)
  obtain ⟨⟨store', outputs⟩, houtputs, rfl⟩ := map_eq_some_iff.mp hres
  have hfwds := Orderer.process_forwards houtputs
  cases outputs with
  | ok outputs =>
    intro event' hmem
    obtain ⟨output, houtp, rfl⟩ := mem_map.mp hmem
    obtain ⟨hop, hsrc, hord⟩ := ordered_eq output
    rcases hfwds.2 output houtp with heq | hfreed
    · rw [heq] at hop hsrc
      obtain ⟨input, hinp, hinputOperation, hinputSource⟩ := hinp
      exact Or.inl ⟨input, hinp, hop.trans hinputOperation, hsrc.trans hinputSource⟩
    · rw [hfreed] at hord
      exact Or.inr ⟨le_refl _, hord⟩
  | error output =>
    cases hfwds
    exact Or.inl hinp

theorem turns_layers :
    ∀ i : Fin 5, Layers.Turns (Stems inputs i.castSucc) (Stems inputs i.succ) (processors.layers i)
  | 0 => by
    exact turns_oneToOne (fun _ _ h => h.imp_right fun h => absurd h.1 (by decide))
      fun _ _ h => h.imp_right fun h => absurd h.1 (by decide)
  | 1 => turns_ordererLayer
  | 2 => by
    exact turns_oneToOne (fun _ _ h => h.imp_right fun h => ⟨by decide, h.2⟩)
      fun _ _ h => h.imp_right fun h => ⟨by decide, h.2⟩
  | 3 => by
    exact turns_oneToOne (fun _ _ h => h.imp_right fun h => ⟨by decide, h.2⟩)
      fun _ _ h => h.imp_right fun h => ⟨by decide, h.2⟩
  | 4 => by
    intro q store event result hres hstems
    cases hres
    exact List.forall_mem_singleton.mpr (hstems.imp_right fun h => ⟨by decide, h.2⟩)

theorem Working.layer (h : Working inputs pipeline) {move : Layers.Move Q 5}
    (hstep : pipeline.layers.step processors.layers move = some layers) :
    Working inputs { pipeline with layers := layers } where
  sound := h.sound
  registered := h.registered
  inFlight := by
    intro taskId hsome
    obtain ⟨hid, hflight⟩ := h.inFlight hsome
    exact ⟨hid, hflight.imp_right fun hflight => hflight.step (keeps_layers _) hstep⟩
  sending := h.sending
  stems := h.stems.step turns_layers hstep
  pending := h.pending
  waiting := h.waiting

variable {pipeline pipeline' : Pipeline V L TP C D R}

theorem Working.step (h : Working inputs pipeline) {move : Move V L TP C Q}
    (hstep : pipeline.step processors move = some pipeline') :
    Working (inputs ++ inputsOf [move]) pipeline' := by
  cases move with
  | track operation source topic =>
    cases hstep
    exact h.track operation source topic
  | send i =>
    dsimp only [Pipeline.step] at hstep
    split at hstep
    · cases hstep
    rename_i hev
    cases hstep
    simpa [inputsOf] using h.send hev
  | layer move =>
    obtain ⟨layers, hlayers, rfl⟩ := map_eq_some_iff.mp hstep
    simpa [inputsOf] using h.layer hlayers
  | consume =>
    obtain ⟨⟨event, layers⟩, hpop, rfl⟩ := map_eq_some_iff.mp hstep
    simpa [inputsOf] using h.consume hpop

theorem Working.run (h : Working inputs pipeline) {moves : List (Move V L TP C Q)}
    (hrun : pipeline.run processors moves = some pipeline') :
    Working (inputs ++ inputsOf moves) pipeline' := by
  induction moves generalizing pipeline inputs with
  | nil =>
    cases hrun
    simpa [inputsOf] using h
  | cons move moves ih =>
    obtain ⟨next, hstep, hrest⟩ := bind_eq_some_iff.mp hrun
    have hnext := ih (h.step hstep) hrest
    rw [append_assoc, inputsOf, inputsOf, ← filterMap_append] at hnext
    exact hnext

def sampleHash (n : UInt8) : Hash := ⟨Vector.replicate HASH_LEN n⟩

def sampleOperation (n : UInt8) (extensions : Extensions Nat Unit) :
    Operation (Extensions Nat Unit) Nat Unit where
  hash := sampleHash n
  header :=
    { version := 1
      verifyingKey := ⟨Vector.replicate VERIFYING_KEY_LEN 7⟩
      signature := ⟨Vector.replicate SIGNATURE_LEN 9⟩
      payloadSize := 0
      payloadHash := none
      seqNum := 0
      backlink := none
      extensions := extensions
      extensionsCbor := some extensions
      size := 100
      digest := sampleHash n }
  body := none

def sampleDecode (header : AnyHeader (Extensions Nat Unit)) :
    Except String (Header (Extensions Nat Unit) (Extensions Nat Unit)) :=
  match header.extensions with
  | none => .error "missing extensions"
  | some extensions => .ok
    { version := header.version
      verifyingKey := header.verifyingKey
      signature := header.signature
      payloadSize := header.payloadSize
      payloadHash := header.payloadHash
      seqNum := header.seqNum
      backlink := header.backlink
      extensions := extensions
      extensionsCbor := header.extensions
      size := header.size
      digest := header.digest }

def sampleOrder : HashOrder (Hash × List Hash) where
  iter s := ((s.map toLex.toEmbedding).sort (· ≤ ·)).map ofLex
  nodup_iter _ := (Finset.sort_nodup ..).map ofLex.injective
  mem_iter := by simp

def sampleProcessors :
    Processors (Extensions Nat Unit) Nat Nat Unit (Hash × List Hash) Unit Unit where
  ingest _ db event :=
    ({ db with
        operations := (db.operations.insertOperation event.hash event.operation 0).1 },
      .ok .inserted)
  orderer := ⟨Prod.mk, fun _ => sampleOrder, sampleDecode⟩
  ordererFaults _ _ := none
  logPrune _ db _ := (db, .ok .noop)
  spaces _ db event :=
    match event.spacesArgs with
    | .process _ => (db, .error (.spacesManager "space not found"))
    | .ignore => (db, .ok .ignored)
  hook _ db _ := db

/-- The first operation depends on the second one, fails in the spaces processor when it is freed,
and overtakes both. -/
def sampleMoves : List (Move (Extensions Nat Unit) Nat Nat Unit Unit) :=
  let through (i : Fin 5) : List (Move (Extensions Nat Unit) Nat Nat Unit Unit) :=
    [.layer (.pull i), .layer (.process i ()), .layer (.next i)]
  let verifyingKey : VerifyingKey := ⟨Vector.replicate VERIFYING_KEY_LEN 7⟩
  let first := sampleOperation 1
    (.space 0 (.spaceUpdate (sampleHash 5) verifyingKey [sampleHash 2]))
  let second := sampleOperation 2 (.basic 0 false)
  [.track first .localStore 3, .track second .localStore 3, .send 0, .send 0] ++
  through 0 ++ through 0 ++
  -- the orderer forwards the first operation as pending, then the second one, then the first again
  through 1 ++ through 1 ++ [.layer (.next 1)] ++
  through 2 ++ through 2 ++ through 2 ++
  [.layer (.pull 3), .layer (.process 3 ()), .layer (.pull 3), .layer (.process 3 ()),
    .layer (.pull 3), .layer (.process 3 ()), .layer (.next 3), .layer (.next 3)] ++
  through 4 ++ through 4 ++ through 4 ++ [.consume, .consume, .consume]

def sampleStore : PipelineStore (Extensions Nat Unit) Nat Nat Unit (Hash × List Hash) Unit :=
  ⟨.empty, .empty, ∅, ()⟩

def isFreed (event : Event V L TP C) : Bool :=
  match event.orderer with
  | .completed .readyOutput => true
  | _ => false

end P2Panda.Node.Pipeline
