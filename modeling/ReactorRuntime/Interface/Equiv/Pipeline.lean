import ReactorRuntime.Interface.Pipeline
import Mathlib.Data.List.Infix

/-!
# The cycles of a pipeline

The driver ends each generator once before it creates the next, and what a buffer holds was pushed
since the last reset through its session.  The rest of what a cycle is to be rests on the gate's
present value, which is all that the driver looks at: a drop that it does not see before the gate is
set again, or that comes while it waits for the step lock, leaves a generator of the old cycle to be
advanced (`one_cycle`, `not_one_cycle`).
-/

namespace ReactorRuntime.Interface

/-! ### The gate -/

namespace LiveGate

variable (g : LiveGate)

theorem updateLive_cases :
    g.updateLive.live = g.live ∧ g.updateLive.gateDrops = g.gateDrops ∨
      g.live = false ∧ g.updateLive.live = true ∧ g.updateLive.gateDrops = g.gateDrops ∨
      g.live = true ∧ g.updateLive.live = false ∧ g.updateLive.gateDrops = g.gateDrops + 1 := by
  unfold updateLive
  split_ifs with hopen hlive
  · cases hlive : g.live with
    | false => exact .inr (.inl ⟨rfl, rfl, rfl⟩)
    | true => exact .inl ⟨rfl, rfl⟩
  · exact .inr (.inr ⟨hlive, rfl, rfl⟩)
  · exact .inl ⟨rfl, rfl⟩

theorem dispatch_cases (event : ReactorEvent) :
    (g.dispatch event).live = g.live ∧ (g.dispatch event).gateDrops = g.gateDrops ∨
      g.live = false ∧ (g.dispatch event).live = true ∧
        (g.dispatch event).gateDrops = g.gateDrops ∨
      g.live = true ∧ (g.dispatch event).live = false ∧
        (g.dispatch event).gateDrops = g.gateDrops + 1 := by
  cases event with
  | fileUploaded conn => exact .inl ⟨rfl, rfl⟩
  | _ => exact updateLive_cases _

end LiveGate

/-! ### The log -/

namespace Act

def isCreation : Act → Bool
  | .created .. => true
  | _ => false

/-- Whether the driver is done with a generator. -/
def ends (g : ℕ) : Act → Bool
  | .finished g' | .closed g' => decide (g' = g)
  | _ => false

def isAdvance : Act → Bool
  | .advanced .. => true
  | _ => false

end Act

/-- The generators are created in order, each once the one before has ended; `busy`: the last has
not ended. -/
structure EndsOnce (log : List Act) (generators : ℕ) (busy : Bool) : Prop where
  created : log.countP Act.isCreation = generators
  fresh : ∀ g, generators ≤ g → log.countP (Act.ends g) = 0
  current : busy = true → 0 < generators ∧ log.countP (Act.ends (generators - 1)) = 0
  ended : ∀ g < generators, (busy = true → g ≠ generators - 1) → log.countP (Act.ends g) = 1
  before : ∀ newer g session gate older, log = newer ++ .created g session gate :: older →
    older.countP Act.isCreation = g ∧ ∀ g' < g, older.countP (Act.ends g') = 1
  lt : ∀ g session gate, .created g session gate ∈ log → g < generators

/-- Whenever the buffers are to be reset through a session that a generator was advanced for, what
is left of it is `owed`. -/
def Owes (owed : ℕ → ℕ → Prop) (log : List Act) : Prop :=
  ∀ newer g session drops older, log = newer ++ .advanced g session drops :: older →
    .reset session ∈ newer ∨ owed session drops

/-- Between two advances of different cycles the buffers are reset through the session of the
first. -/
def ResetBetween (log : List Act) : Prop :=
  ∀ newest g' session' drops' newer g session drops older,
    log = newest ++ .advanced g' session' drops' :: (newer ++ .advanced g session drops :: older) →
    drops' ≠ drops → .reset session ∈ newer

/-- A generator is advanced only as long as the gate has not dropped since it was created. -/
def AdvancedInCycle (log : List Act) : Prop :=
  ∀ g session gate session' drops, .created g session gate ∈ log →
    .advanced g session' drops ∈ log → drops = gate.gateDrops

def CreatedOpen (log : List Act) : Prop :=
  ∀ g session gate, .created g session gate ∈ log →
    gate.live = true ∧ gate.sessionsStarted = session

theorem cons_eq_append {act a : Act} {log newer older : List Act}
    (h : act :: log = newer ++ a :: older) :
    newer = [] ∧ a = act ∧ older = log ∨
      ∃ newer', newer = act :: newer' ∧ log = newer' ++ a :: older := by
  rcases List.cons_eq_append_iff.mp h with ⟨rfl, hrest⟩ | ⟨newer', rfl, hrest⟩
  · obtain ⟨rfl, rfl⟩ := List.cons.inj hrest
    exact .inl ⟨rfl, rfl, rfl⟩
  · exact .inr ⟨newer', rfl, hrest⟩

namespace EndsOnce

variable {log : List Act} {n : ℕ} {busy : Bool}

theorem init : EndsOnce [] 0 false :=
  ⟨rfl, fun _ _ => rfl, by rintro ⟨⟩, fun _ h => absurd h (Nat.not_lt_zero _),
    fun newer g session gate older h => absurd h (by simp),
    fun _ _ _ h => absurd h List.not_mem_nil⟩

theorem before_cons (h : EndsOnce log n busy) {act : Act} (hact : act.isCreation = false)
    (newer : List Act) (g session : ℕ) (gate : LiveGate) (older : List Act)
    (heq : act :: log = newer ++ .created g session gate :: older) :
    older.countP Act.isCreation = g ∧ ∀ g' < g, older.countP (Act.ends g') = 1 := by
  rcases cons_eq_append heq with ⟨-, rfl, -⟩ | ⟨newer', -, hlog⟩
  · cases hact
  · exact h.before newer' g session gate older hlog

theorem lt_cons (h : EndsOnce log n busy) {act : Act} (hact : act.isCreation = false)
    (g session : ℕ) (gate : LiveGate) (hmem : .created g session gate ∈ act :: log) : g < n := by
  rcases List.mem_cons.mp hmem with rfl | hmem
  · cases hact
  · exact h.lt g session gate hmem

/-- An entry that neither creates a generator nor ends one. -/
theorem note (h : EndsOnce log n busy) {act : Act} (hcreation : act.isCreation = false)
    (hends : ∀ g, act.ends g = false) : EndsOnce (act :: log) n busy := by
  have hsame : ∀ g, (act :: log).countP (Act.ends g) = log.countP (Act.ends g) := fun g =>
    List.countP_cons_of_neg (by simp [hends])
  refine ⟨?_, fun g hg => ?_, fun hbusy => ?_, fun g hg hne => ?_, h.before_cons hcreation,
    h.lt_cons hcreation⟩
  · rw [List.countP_cons_of_neg (by simp [hcreation])]
    exact h.created
  · rw [hsame]
    exact h.fresh g hg
  · rw [hsame]
    exact h.current hbusy
  · rw [hsame]
    exact h.ended g hg hne

theorem done (h : EndsOnce log n true) {act : Act} (hcreation : act.isCreation = false)
    (hends : ∀ g, act.ends g = decide (n - 1 = g)) : EndsOnce (act :: log) n false := by
  obtain ⟨hpos, hcurrent⟩ := h.current rfl
  have hother : ∀ g, n - 1 ≠ g → (act :: log).countP (Act.ends g) = log.countP (Act.ends g) :=
    fun g hg => List.countP_cons_of_neg (by simp [hends, hg])
  refine ⟨?_, fun g hg => ?_, by rintro ⟨⟩, fun g hg _ => ?_, h.before_cons hcreation,
    h.lt_cons hcreation⟩
  · rw [List.countP_cons_of_neg (by simp [hcreation])]
    exact h.created
  · rw [hother g (by omega)]
    exact h.fresh g hg
  · by_cases hlast : n - 1 = g
    · subst hlast
      rw [List.countP_cons_of_pos (by simp [hends]), hcurrent]
    · rw [hother g hlast]
      exact h.ended g hg fun _ => Ne.symm hlast

theorem create (h : EndsOnce log n false) (session : ℕ) (gate : LiveGate) :
    EndsOnce (.created n session gate :: log) (n + 1) true := by
  have hsame : ∀ g, (Act.created n session gate :: log).countP (Act.ends g) =
      log.countP (Act.ends g) := fun g => List.countP_cons_of_neg (by simp [Act.ends])
  have hended : ∀ g < n, log.countP (Act.ends g) = 1 := fun g hg => h.ended g hg (by rintro ⟨⟩)
  refine ⟨?_, fun g hg => ?_, fun _ => ⟨Nat.succ_pos n, ?_⟩, fun g hg hne => ?_,
    fun newer g session' gate' older heq => ?_, fun g session' gate' hmem => ?_⟩
  · rw [List.countP_cons_of_pos rfl, h.created]
  · rw [hsame]
    exact h.fresh g (by omega)
  · rw [hsame]
    exact h.fresh n (Nat.le_refl n)
  · rw [hsame]
    have hg' : g ≠ n := hne rfl
    exact hended g (by omega)
  · rcases cons_eq_append heq with ⟨-, hact, rfl⟩ | ⟨newer', -, hlog⟩
    · obtain ⟨rfl, -, -⟩ := Act.created.inj hact
      exact ⟨h.created, hended⟩
    · exact h.before newer' g session' gate' older hlog
  · rcases List.mem_cons.mp hmem with hact | hmem
    · obtain ⟨rfl, -, -⟩ := Act.created.inj hact
      exact Nat.lt_succ_self g
    · exact Nat.lt_succ_of_lt (h.lt g session' gate' hmem)

end EndsOnce

namespace Owes

variable {owed owed' : ℕ → ℕ → Prop} {log : List Act}

theorem mono (h : Owes owed log)
    (howed : ∀ session drops, owed session drops → owed' session drops) : Owes owed' log :=
  fun newer g session drops older heq =>
    (h newer g session drops older heq).imp_right (howed session drops)

theorem note (h : Owes owed log) {act : Act} (hact : act.isAdvance = false) :
    Owes owed (act :: log) := by
  intro newer g session drops older heq
  rcases cons_eq_append heq with ⟨-, rfl, -⟩ | ⟨newer', rfl, hlog⟩
  · cases hact
  · exact (h newer' g session drops older hlog).imp_left (List.mem_cons_of_mem _)

theorem advance (h : Owes owed log) {session drops : ℕ} (howed : owed session drops) (g : ℕ) :
    Owes owed (.advanced g session drops :: log) := by
  intro newer g' session' drops' older heq
  rcases cons_eq_append heq with ⟨-, hact, -⟩ | ⟨newer', rfl, hlog⟩
  · obtain ⟨-, rfl, rfl⟩ := Act.advanced.inj hact
    exact .inr howed
  · exact (h newer' g' session' drops' older hlog).imp_left (List.mem_cons_of_mem _)

theorem reset (h : Owes owed log) {served : ℕ}
    (howed : ∀ session drops, owed session drops → session = served) :
    Owes (fun _ _ => False) (.reset served :: log) := by
  intro newer g session drops older heq
  rcases cons_eq_append heq with ⟨-, hact, -⟩ | ⟨newer', rfl, hlog⟩
  · cases hact
  · refine .inl ?_
    rcases h newer' g session drops older hlog with hreset | howes
    · exact List.mem_cons_of_mem _ hreset
    · rw [howed session drops howes]
      exact List.mem_cons_self

end Owes

namespace ResetBetween

variable {log : List Act}

theorem note (h : ResetBetween log) {act : Act} (hact : act.isAdvance = false) :
    ResetBetween (act :: log) := by
  intro newest g' session' drops' newer g session drops older heq
  rcases cons_eq_append heq with ⟨-, rfl, -⟩ | ⟨newest', rfl, hlog⟩
  · cases hact
  · exact h newest' g' session' drops' newer g session drops older hlog

theorem advance (h : ResetBetween log) {owed : ℕ → ℕ → Prop} (howes : Owes owed log) {drops : ℕ}
    (howed : ∀ session drops', owed session drops' → drops' = drops) (g session : ℕ) :
    ResetBetween (.advanced g session drops :: log) := by
  intro newest g' session' drops' newer g₁ session₁ drops₁ older heq hne
  rcases cons_eq_append heq with ⟨-, hact, hlog⟩ | ⟨newest', rfl, hlog⟩
  · obtain ⟨-, -, rfl⟩ := Act.advanced.inj hact
    refine (howes newer g₁ session₁ drops₁ older hlog.symm).resolve_right fun howes => ?_
    exact hne (howed session₁ drops₁ howes).symm
  · exact h newest' g' session' drops' newer g₁ session₁ drops₁ older hlog hne

end ResetBetween

namespace CreatedOpen

theorem note {log : List Act} (h : CreatedOpen log) {act : Act} (hact : act.isCreation = false) :
    CreatedOpen (act :: log) := by
  intro g session gate hmem
  rcases List.mem_cons.mp hmem with rfl | hmem
  · cases hact
  · exact h g session gate hmem

theorem create {log : List Act} (h : CreatedOpen log) {g session : ℕ} {gate : LiveGate}
    (hlive : gate.live = true) (hsession : gate.sessionsStarted = session) :
    CreatedOpen (.created g session gate :: log) := by
  intro g' session' gate' hmem
  rcases List.mem_cons.mp hmem with heq | hmem
  · obtain ⟨-, rfl, rfl⟩ := Act.created.inj heq
    exact ⟨hlive, hsession⟩
  · exact h g' session' gate' hmem

end CreatedOpen

/-! ### The steps -/

namespace ReactorPipeline

variable {cls : PipelineClass} {s s' : ReactorPipeline}

/-- What a step of the dispatcher leaves as it is, or of a track. -/
structure Beside (s t : ReactorPipeline) : Prop where
  log : t.log = s.log
  generators : t.generators = s.generators
  served : t.served = s.served
  run : t.run = s.run ∨ ∃ woken woken', s.run = .waiting woken ∧ t.run = .waiting woken'
  buffers : ∀ track, ∀ entry ∈ (t.inputBuffers track).buffer,
    entry ∈ (s.inputBuffers track).buffer

/-- The gate is as before, but for what only its owner reads. -/
def SameGate (s t : ReactorPipeline) : Prop :=
  t.gate.live = s.gate.live ∧ t.gate.gateDrops = s.gate.gateDrops

inductive Loops (s : ReactorPipeline) : ReactorPipeline → Prop
  | advances (hlive : s.gate.live = true) (lock : StepLock) : Loops s (s.advance lock)
  | locks (hlive : s.gate.live = true) (lock : StepLock) : Loops s { s with lock, run := .locking }
  | leaves (hlive : s.gate.live = false) : Loops s { s with run := .closing true }

theorem loops : Loops s s.loop := by
  unfold loop
  cases hlive : s.gate.live with
  | true =>
    rw [if_pos rfl]
    cases s.lock.seize .driver with
    | some lock => exact .advances hlive lock
    | none => exact .locks hlive _
  | false => exact .leaves hlive

/-- A driver that begins a cycle. -/
def begun (s : ReactorPipeline) : ReactorPipeline :=
  { s with served := s.gate.sessionsStarted }.inference

def cleared (s : ReactorPipeline) : ReactorPipeline :=
  { s with
    inputBuffers := fun track => (s.inputBuffers track).reset (some s.served)
    log := .reset s.served :: .closed s.generator :: s.log }

inductive Step (cls : PipelineClass) (s : ReactorPipeline) : Label → ReactorPipeline → Prop
  | event {event : ReactorEvent} {t : ReactorPipeline} (h : s.Beside t)
      (hlive : t.gate.live = (s.gate.dispatch event).live)
      (hdrops : t.gate.gateDrops = (s.gate.dispatch event).gateDrops) : Step cls s (.event event) t
  | beside {l : Label} {t : ReactorPipeline} (h : s.Beside t) (hgate : s.SameGate t) :
      Step cls s l t
  | wakes {woken : Bool} {t : ReactorPipeline} (hrun : s.run = .waiting woken)
      (h : Loops s.begun t) : Step cls s .wakes t
  | locks (hrun : s.run = .locking) (lock : StepLock) : Step cls s .locks (s.advance lock)
  /-- The driver goes on in its cycle. -/
  | moves {l : Label} (hrun : s.run.inLoop = true) (lock : StepLock) (run : DriverStage)
      (hcycle : run.inCycle = true) (hlocking : run ≠ .locking) : Step cls s l { s with lock, run }
  | restarts (hrun : s.run = .advancing) (lock : StepLock) :
      Step cls s (.turns .finished)
        { ({ s with lock, log := .finished s.generator :: s.log }).inference with run := .pausing }
  | loops {l : Label} {t : ReactorPipeline} (hrun : s.run.inLoop = true) (h : Loops s t) :
      Step cls s l t
  | waits {l : Label} {clean : Bool} (hrun : s.run = .closing clean) :
      Step cls s l { s.cleared with run := .waiting false }
  | begins {l : Label} {clean : Bool} {t : ReactorPipeline} (hrun : s.run = .closing clean)
      (hlive : s.gate.live = true) (h : Loops s.cleared.begun t) : Step cls s l t
  | ends {l : Label} {clean : Bool} (hrun : s.run = .closing clean) :
      Step cls s l { s.cleared with run := .over }
  | gone {l : Label} {woken : Bool} (hrun : s.run = .waiting woken) :
      Step cls s l { s with run := .over }
  | pushes {l : Label} (track : String) (session : ℕ) (buffer : InputBuffer)
      (h : ∀ entry ∈ buffer.buffer,
        entry ∈ (s.inputBuffers track).buffer ∨ entry.session = session) :
      Step cls s l { s.onBuffer track buffer with log := .pushed track session :: s.log }

theorem Beside.trans {t u : ReactorPipeline} (h : s.Beside t) (h' : t.Beside u) : s.Beside u where
  log := h'.log.trans h.log
  generators := h'.generators.trans h.generators
  served := h'.served.trans h.served
  run := by
    rcases h'.run with hrun' | ⟨w, w', hw, hw'⟩
    · rw [hrun']
      exact h.run
    · rcases h.run with hrun | ⟨w₁, w₁', hw₁, -⟩
      · exact .inr ⟨w, w', hrun ▸ hw, hw'⟩
      · exact .inr ⟨w₁, w', hw₁, hw'⟩
  buffers track entry he := h.buffers track entry (h'.buffers track entry he)

theorem beside_setGate (gate : LiveGate) : s.Beside (s.setGate gate) := by
  unfold setGate
  split
  · next woken hrun => exact ⟨rfl, rfl, rfl, .inr ⟨woken, _, hrun, rfl⟩, fun _ _ h => h⟩
  · exact ⟨rfl, rfl, rfl, .inl rfl, fun _ _ h => h⟩

@[simp] theorem gate_setGate (gate : LiveGate) : (s.setGate gate).gate = gate := by
  unfold setGate
  split <;> rfl

theorem beside_finish (item : Handled) : s.Beside (s.finish item) ∧ s.SameGate (s.finish item) := by
  unfold finish
  dsimp only
  split
  · refine ⟨⟨rfl, rfl, rfl, .inl rfl, fun track entry he => ?_⟩, rfl, rfl⟩
    dsimp only at he
    split_ifs at he
    · exact absurd he List.not_mem_nil
    · exact he
  · exact ⟨⟨rfl, rfl, rfl, .inl rfl, fun _ _ h => h⟩, rfl, rfl⟩

theorem beside_handle (item : Handled) (lock : StepLock) :
    s.Beside (s.handle cls item lock) ∧ s.SameGate (s.handle cls item lock) := by
  unfold handle
  split_ifs
  · exact ⟨⟨rfl, rfl, rfl, .inl rfl, fun _ _ h => h⟩, rfl, rfl⟩
  · obtain ⟨hbeside, hgate⟩ := beside_finish (s := { s with lock }) item
    exact ⟨⟨hbeside.log, hbeside.generators, hbeside.served, hbeside.run, hbeside.buffers⟩, hgate⟩

theorem beside_acquire (item : Handled) :
    s.Beside (s.acquire cls item) ∧ s.SameGate (s.acquire cls item) := by
  unfold acquire
  split
  · exact beside_handle item _
  · exact ⟨⟨rfl, rfl, rfl, .inl rfl, fun _ _ h => h⟩, rfl, rfl⟩

theorem beside_dispatch (event : ReactorEvent) : s.Beside (s.dispatchReactorEvent cls event) ∧
    (s.dispatchReactorEvent cls event).gate.live = (s.gate.dispatch event).live ∧
    (s.dispatchReactorEvent cls event).gate.gateDrops = (s.gate.dispatch event).gateDrops := by
  have hset : s.Beside (s.setGate (s.gate.dispatch event)) := beside_setGate _
  unfold dispatchReactorEvent
  dsimp only
  split_ifs
  · have hacquire : (s.setGate (s.gate.dispatch event)).Beside
        ((s.setGate (s.gate.dispatch event)).acquire cls (some event)) ∧ _ :=
      beside_acquire (some event)
    obtain ⟨hbeside, hlive, hdrops⟩ := hacquire
    rw [gate_setGate] at hlive hdrops
    exact ⟨hset.trans hbeside, hlive, hdrops⟩
  · exact ⟨hset, by rw [gate_setGate], by rw [gate_setGate]⟩

theorem mem_onBuffer {track track' : String} {buffer : InputBuffer} {entry : BufferEntry}
    (h : entry ∈ ((s.onBuffer track buffer).inputBuffers track').buffer) :
    track' = track ∧ entry ∈ buffer.buffer ∨ entry ∈ (s.inputBuffers track').buffer := by
  have hbuffers : (s.onBuffer track buffer).inputBuffers =
      Function.update s.inputBuffers track buffer := rfl
  rw [hbuffers] at h
  by_cases htrack : track' = track
  · subst htrack
    rw [Function.update_self] at h
    exact .inl ⟨rfl, h⟩
  · rw [Function.update_of_ne htrack] at h
    exact .inr h

theorem beside_onBuffer (track : String) {buffer : InputBuffer}
    (h : ∀ entry ∈ buffer.buffer, entry ∈ (s.inputBuffers track).buffer) :
    s.Beside (s.onBuffer track buffer) := by
  refine ⟨rfl, rfl, rfl, .inl rfl, fun track' entry he => ?_⟩
  rcases mem_onBuffer he with ⟨rfl, hnew⟩ | hold
  · exact h entry hnew
  · exact hold

theorem step_close {l : Label} {clean : Bool} (hrun : s.run = .closing clean)
    (clean' raises : Bool) : Step cls s l (s.close clean' raises) := by
  unfold close
  dsimp only
  split_ifs
  · unfold wait
    split_ifs with hlive
    · exact .begins hrun hlive loops
    · exact .waits hrun
  · exact .ends hrun

theorem step_of_next {l : Label} (h : s.next cls l = some s') : Step cls s l s' := by
  cases l with
  | event event =>
    simp only [next] at h
    split_ifs at h
    cases h
    obtain ⟨hbeside, hlive, hdrops⟩ := beside_dispatch event
    exact .event hbeside hlive hdrops
  | command =>
    simp only [next] at h
    split_ifs at h
    cases h
    exact .beside (beside_acquire _).1 (beside_acquire _).2
  | granted =>
    simp only [next] at h
    split at h
    · split_ifs at h
      obtain ⟨lock, -, rfl⟩ := Option.map_eq_some_iff.mp h
      exact .beside (beside_handle _ _).1 (beside_handle _ _).2
    · cases h
  | handled =>
    simp only [next] at h
    split at h
    · split_ifs at h
      cases h
      exact .beside (beside_finish _).1 (beside_finish _).2
    · cases h
  | wakes =>
    simp only [next] at h
    split_ifs at h with hrun
    cases h
    exact .wakes hrun loops
  | locks =>
    simp only [next] at h
    split_ifs at h with hrun
    obtain ⟨lock, -, rfl⟩ := Option.map_eq_some_iff.mp h
    exact .locks hrun lock
  | turns turn =>
    simp only [next] at h
    split_ifs at h with hrun
    cases h
    have hloop : s.run.inLoop = true := by rw [hrun]; rfl
    cases turn with
    | finished => exact .restarts hrun _
    | output => exact .moves hloop _ .emitting rfl (by rintro ⟨⟩)
    | idle => exact .moves hloop _ .pausing rfl (by rintro ⟨⟩)
    | bufferClosed => exact .moves hloop _ (.closing true) rfl (by rintro ⟨⟩)
    | raised => exact .moves hloop _ (.closing false) rfl (by rintro ⟨⟩)
  | pauses =>
    simp only [next] at h
    split_ifs at h with hrun
    cases h
    exact .loops (by rw [hrun]; rfl) loops
  | emits raises =>
    simp only [next] at h
    split_ifs at h with hrun hraises
    · cases h
      exact .moves (by rw [hrun]; rfl) s.lock (.closing false) rfl (by rintro ⟨⟩)
    · cases h
      exact .loops (by rw [hrun]; rfl) loops
  | closes raises =>
    simp only [next] at h
    split at h
    · next clean hrun =>
      cases h
      exact step_close hrun _ _
    · cases h
  | cancel =>
    simp only [next] at h
    split_ifs at h
    unfold cancel at h
    split at h
    · next woken hrun =>
      cases h
      exact .gone hrun
    · next hrun =>
      cases h
      exact .moves (by rw [hrun]; rfl) _ (.closing false) rfl (by rintro ⟨⟩)
    · next hrun =>
      cases h
      exact .moves (by rw [hrun]; rfl) _ (.closing false) rfl (by rintro ⟨⟩)
    · next hrun =>
      cases h
      exact .moves (by rw [hrun]; rfl) s.lock (.closing false) rfl (by rintro ⟨⟩)
    · next hrun =>
      cases h
      exact .moves (by rw [hrun]; rfl) s.lock (.closing false) rfl (by rintro ⟨⟩)
    · next clean hrun =>
      cases h
      exact step_close hrun _ _
    · cases h
  | push track frame source session =>
    cases h
    refine .pushes track session _ fun entry he => ?_
    refine (InputBuffer.mem_push he).imp_right fun heq => ?_
    rw [heq]
  | closeTrack track =>
    cases h
    exact .beside (beside_onBuffer track fun _ he => he) ⟨rfl, rfl⟩
  | read track n mode =>
    cases h
    exact .beside (beside_onBuffer track fun _ he => InputBuffer.mem_read he) ⟨rfl, rfl⟩
  | tryRead track n mode =>
    cases h
    exact .beside (beside_onBuffer track fun _ he => InputBuffer.mem_tryRead he) ⟨rfl, rfl⟩
  | clear track =>
    cases h
    exact .beside (beside_onBuffer track fun _ he => absurd he List.not_mem_nil) ⟨rfl, rfl⟩

/-! ### Generators end once -/

def Ends (s : ReactorPipeline) : Prop := EndsOnce s.log s.generators s.run.inCycle

theorem Beside.inCycle {t : ReactorPipeline} (h : s.Beside t) : t.run.inCycle = s.run.inCycle := by
  rcases h.run with hrun | ⟨woken, woken', hs, ht⟩
  · rw [hrun]
  · rw [hs, ht]
    rfl

theorem Beside.inLoop {t : ReactorPipeline} (h : s.Beside t) : t.run.inLoop = s.run.inLoop := by
  rcases h.run with hrun | ⟨woken, woken', hs, ht⟩
  · rw [hrun]
  · rw [hs, ht]
    rfl

theorem inCycle_of_inLoop {stage : DriverStage} (h : stage.inLoop = true) :
    stage.inCycle = true := by
  cases stage with
  | closing clean => rfl
  | _ => exact h

namespace Ends

theorem loops {t : ReactorPipeline} (h : EndsOnce s.log s.generators true) (hloops : Loops s t) :
    t.Ends := by
  cases hloops with
  | advances hlive lock => exact h.note rfl fun _ => rfl
  | locks hlive lock => exact h
  | leaves hlive => exact h

theorem begun (h : EndsOnce s.log s.generators false) :
    EndsOnce s.begun.log s.begun.generators true := h.create _ _

theorem cleared (h : EndsOnce s.log s.generators true) :
    EndsOnce s.cleared.log s.cleared.generators false := by
  have hclosed : EndsOnce (.closed s.generator :: s.log) s.generators false :=
    h.done rfl fun _ => rfl
  exact hclosed.note rfl fun _ => rfl

theorem next {l : Label} (h : s.Ends) (hnext : s.next cls l = some s') : s'.Ends := by
  have hstep := step_of_next hnext
  unfold Ends at h
  cases hstep with
  | event hbeside hlive hdrops =>
    unfold Ends
    rw [hbeside.log, hbeside.generators, hbeside.inCycle]
    exact h
  | beside hbeside hgate =>
    unfold Ends
    rw [hbeside.log, hbeside.generators, hbeside.inCycle]
    exact h
  | wakes hrun hloops =>
    rw [hrun] at h
    exact loops (begun h) hloops
  | locks hrun lock =>
    rw [hrun] at h
    exact h.note rfl fun _ => rfl
  | moves hrun lock run hcycle hlocking =>
    rw [inCycle_of_inLoop hrun] at h
    show EndsOnce s.log s.generators run.inCycle
    rw [hcycle]
    exact h
  | restarts hrun lock =>
    rw [hrun] at h
    have hfinished : EndsOnce (.finished s.generator :: s.log) s.generators false :=
      h.done rfl fun _ => rfl
    exact hfinished.create _ _
  | loops hrun hloops =>
    rw [inCycle_of_inLoop hrun] at h
    exact loops h hloops
  | waits hrun =>
    rw [hrun] at h
    exact cleared h
  | begins hrun hlive hloops =>
    rw [hrun] at h
    exact loops (begun (cleared h)) hloops
  | ends hrun =>
    rw [hrun] at h
    exact cleared h
  | gone hrun =>
    rw [hrun] at h
    exact h
  | pushes track session buffer hentries => exact h.note rfl fun _ => rfl

end Ends

/-! ### What the buffers hold -/

def PushedSince (log : List Act) (track : String) (session : ℕ) : Prop :=
  ∃ newer older, log = newer ++ .pushed track session :: older ∧
    ∀ through, .reset through ∈ newer → through < session

theorem PushedSince.note {log : List Act} {track : String} {session : ℕ}
    (h : PushedSince log track session) {act : Act} (hact : ∀ through, act ≠ .reset through) :
    PushedSince (act :: log) track session := by
  obtain ⟨newer, older, rfl, hresets⟩ := h
  refine ⟨act :: newer, older, rfl, fun through hmem => ?_⟩
  rcases List.mem_cons.mp hmem with heq | hmem
  · exact absurd heq.symm (hact through)
  · exact hresets through hmem

theorem PushedSince.reset {log : List Act} {track : String} {session : ℕ}
    (h : PushedSince log track session) {served : ℕ} (hserved : served < session) :
    PushedSince (.reset served :: log) track session := by
  obtain ⟨newer, older, rfl, hresets⟩ := h
  refine ⟨.reset served :: newer, older, rfl, fun through hmem => ?_⟩
  rcases List.mem_cons.mp hmem with heq | hmem
  · obtain rfl := Act.reset.inj heq
    exact hserved
  · exact hresets through hmem

/-- Each frame in a buffer was pushed since the last reset through its session. -/
def FreshBuffers (s : ReactorPipeline) : Prop :=
  ∀ track, ∀ entry ∈ (s.inputBuffers track).buffer, PushedSince s.log track entry.session

namespace FreshBuffers

theorem of_log {t : ReactorPipeline} (h : s.FreshBuffers)
    (hbuffers : t.inputBuffers = s.inputBuffers)
    (hlog : ∃ acts, t.log = acts ++ s.log ∧ ∀ act ∈ acts, ∀ through, act ≠ .reset through) :
    t.FreshBuffers := by
  obtain ⟨acts, hlog, hacts⟩ := hlog
  intro track entry he
  rw [hbuffers] at he
  rw [hlog]
  have hpushed := h track entry he
  clear hlog
  induction acts with
  | nil => exact hpushed
  | cons act acts ih =>
    have ih := ih fun act' hact' => hacts act' (List.mem_cons_of_mem _ hact')
    exact ih.note (hacts act List.mem_cons_self)

theorem note {t : ReactorPipeline} (h : s.FreshBuffers) (hbuffers : t.inputBuffers = s.inputBuffers)
    {act : Act} (hlog : t.log = act :: s.log) (hact : ∀ through, act ≠ .reset through) :
    t.FreshBuffers := by
  refine h.of_log hbuffers ⟨[act], hlog, fun act' hmem => ?_⟩
  rw [List.mem_singleton.mp hmem]
  exact hact

theorem same {t : ReactorPipeline} (h : s.FreshBuffers) (hbuffers : t.inputBuffers = s.inputBuffers)
    (hlog : t.log = s.log) : t.FreshBuffers :=
  h.of_log hbuffers ⟨[], hlog, fun _ h => absurd h List.not_mem_nil⟩

theorem loops {t : ReactorPipeline} (h : s.FreshBuffers) (hloops : Loops s t) : t.FreshBuffers := by
  cases hloops with
  | advances hlive lock => exact h.note rfl rfl (by rintro _ ⟨⟩)
  | locks hlive lock => exact h.same rfl rfl
  | leaves hlive => exact h.same rfl rfl

theorem begun (h : s.FreshBuffers) : s.begun.FreshBuffers := h.note rfl rfl (by rintro _ ⟨⟩)

/-- A reset keeps the frames of later sessions only. -/
theorem cleared (h : s.FreshBuffers) : s.cleared.FreshBuffers := by
  intro track entry he
  obtain ⟨he, through, hthrough, hlt⟩ := InputBuffer.mem_reset.mp he
  cases hthrough
  have hclosed : PushedSince (.closed s.generator :: s.log) track entry.session :=
    (h track entry he).note (by rintro _ ⟨⟩)
  exact hclosed.reset hlt

theorem beside {t : ReactorPipeline} (h : s.FreshBuffers) (hbeside : s.Beside t) :
    t.FreshBuffers := by
  intro track entry he
  rw [hbeside.log]
  exact h track entry (hbeside.buffers track entry he)

theorem next {l : Label} (h : s.FreshBuffers) (hnext : s.next cls l = some s') :
    s'.FreshBuffers := by
  have hstep := step_of_next hnext
  cases hstep with
  | event hbeside hlive hdrops => exact h.beside hbeside
  | beside hbeside hgate => exact h.beside hbeside
  | wakes hrun hloops => exact h.begun.loops hloops
  | locks hrun lock => exact h.note rfl rfl (by rintro _ ⟨⟩)
  | moves hrun lock run hcycle hlocking => exact h.same rfl rfl
  | restarts hrun lock =>
    refine h.of_log rfl ⟨[_, _], rfl, fun act hmem => ?_⟩
    rcases List.mem_pair.mp hmem with rfl | rfl
    · rintro _ ⟨⟩
    · rintro _ ⟨⟩
  | loops hrun hloops => exact h.loops hloops
  | waits hrun => exact h.cleared.same rfl rfl
  | begins hrun hlive hloops => exact h.cleared.begun.loops hloops
  | ends hrun => exact h.cleared.same rfl rfl
  | gone hrun => exact h.same rfl rfl
  | pushes track session buffer hentries =>
    intro track' entry he
    have hold : entry ∈ (s.inputBuffers track').buffer →
        PushedSince (.pushed track session :: s.log) track' entry.session := fun he =>
      (h track' entry he).note (by rintro _ ⟨⟩)
    rcases mem_onBuffer he with ⟨rfl, hnew⟩ | hkept
    · rcases hentries entry hnew with hkept | rfl
      · exact hold hkept
      · exact ⟨[], s.log, rfl, fun _ hmem => absurd hmem List.not_mem_nil⟩
    · exact hold hkept

end FreshBuffers

/-! ### Drops that the driver sees -/

/-- The gate does not drop while the driver waits for the step lock, and it is not set while the
driver is in the loop of a cycle. -/
def sees (s : ReactorPipeline) : Label → Bool
  | .event event =>
    let gate := s.gate.dispatch event
    !(decide (s.run = .locking) && s.gate.live && !gate.live) &&
      !(s.run.inLoop && !s.gate.live && gate.live)
  | _ => true

/-- The session and the drops of the advances that no reset follows yet. -/
def owed (s : ReactorPipeline) (session drops : ℕ) : Prop :=
  s.run.inCycle = true ∧ session = s.served ∧
    (s.run.inLoop = true → s.gate.live = true → drops = s.gate.gateDrops)

/-- Where the driver sees each drop, a generator that it is to advance is of the present cycle. -/
structure Seen (s : ReactorPipeline) : Prop where
  locking : s.run = .locking → s.gate.live = true
  current : s.run.inLoop = true → s.gate.live = true → ∀ session gate,
    .created s.generator session gate ∈ s.log → gate.gateDrops = s.gate.gateDrops
  owes : Owes s.owed s.log
  reset : ResetBetween s.log
  advanced : AdvancedInCycle s.log
  lt : ∀ g session drops, .advanced g session drops ∈ s.log → g < s.generators

namespace Seen

theorem init : Seen ({} : ReactorPipeline) where
  locking := by rintro ⟨⟩
  current := by rintro ⟨⟩
  owes newer g session drops older h := absurd h (by simp)
  reset newest g' session' drops' newer g session drops older h := absurd h (by simp)
  advanced _ _ _ _ _ h := absurd h List.not_mem_nil
  lt _ _ _ h := absurd h List.not_mem_nil

theorem of_log {t : ReactorPipeline} (h : s.Seen) (hlog : t.log = s.log)
    (hgenerators : t.generators = s.generators) (hserved : t.served = s.served)
    (hlocking : t.run = .locking → t.gate.live = true)
    (hcycle : t.run.inCycle = s.run.inCycle)
    (hgate : t.run.inLoop = true → t.gate.live = true →
      s.run.inLoop = true ∧ s.gate.live = true ∧ t.gate.gateDrops = s.gate.gateDrops) : t.Seen where
  locking := hlocking
  current hloop hlive session gate hmem := by
    obtain ⟨hsloop, hslive, hdrops⟩ := hgate hloop hlive
    rw [hdrops]
    refine h.current hsloop hslive session gate ?_
    rwa [hlog, generator, hgenerators] at hmem
  owes := by
    rw [hlog]
    refine h.owes.mono fun session drops howed => ⟨hcycle.trans howed.1, ?_, fun hloop hlive => ?_⟩
    · rw [hserved]
      exact howed.2.1
    · obtain ⟨hsloop, hslive, hdrops⟩ := hgate hloop hlive
      rw [hdrops]
      exact howed.2.2 hsloop hslive
  reset := hlog ▸ h.reset
  advanced := hlog ▸ h.advanced
  lt g session drops hmem := by
    rw [hgenerators]
    exact h.lt g session drops (hlog ▸ hmem)

theorem note {t : ReactorPipeline} (h : s.Seen) {act : Act} (hadvance : act.isAdvance = false)
    (hcreation : act.isCreation = false) (hlog : t.log = act :: s.log)
    (hgenerators : t.generators = s.generators) (hserved : t.served = s.served)
    (hgate : t.gate = s.gate) (hrun : t.run = s.run) : t.Seen := by
  have hcreated : ∀ {g session gate}, .created g session gate ∈ t.log →
      .created g session gate ∈ s.log := by
    intro g session gate hmem
    rw [hlog] at hmem
    refine (List.mem_cons.mp hmem).resolve_left fun heq => ?_
    rw [← heq] at hcreation
    cases hcreation
  have hadvanced : ∀ {g session drops}, .advanced g session drops ∈ t.log →
      .advanced g session drops ∈ s.log := by
    intro g session drops hmem
    rw [hlog] at hmem
    refine (List.mem_cons.mp hmem).resolve_left fun heq => ?_
    rw [← heq] at hadvance
    cases hadvance
  refine ⟨?_, ?_, ?_, hlog ▸ h.reset.note hadvance, fun g session gate session' drops hc ha =>
    h.advanced g session gate session' drops (hcreated hc) (hadvanced ha), fun g session drops ha =>
    hgenerators ▸ h.lt g session drops (hadvanced ha)⟩
  · rw [hrun, hgate]
    exact h.locking
  · rw [hrun, hgate, generator, hgenerators]
    exact fun hloop hlive session gate hmem => h.current hloop hlive session gate (hcreated hmem)
  · have howed : t.owed = s.owed := by
      unfold owed
      rw [hrun, hserved, hgate]
    rw [hlog, howed]
    exact h.owes.note hadvance

theorem advance (h : s.Seen) (hends : EndsOnce s.log s.generators true)
    (hcurrent : ∀ session gate,
      .created s.generator session gate ∈ s.log → gate.gateDrops = s.gate.gateDrops)
    (howes : Owes (fun session drops => session = s.served ∧ drops = s.gate.gateDrops) s.log)
    (lock : StepLock) : (s.advance lock).Seen where
  locking := by rintro ⟨⟩
  current _ _ session gate hmem := by
    rcases List.mem_cons.mp hmem with heq | hmem
    · cases heq
    · exact hcurrent session gate hmem
  owes := by
    have howed : Owes (s.advance lock).owed s.log :=
      howes.mono fun session drops h' => ⟨rfl, h'.1, fun _ _ => h'.2⟩
    exact howed.advance ⟨rfl, rfl, fun _ _ => rfl⟩ _
  reset := h.reset.advance howes (fun _ _ h' => h'.2) _ _
  advanced g session gate session' drops hcreated hadvanced := by
    rcases List.mem_cons.mp hcreated with heq | hcreated
    · cases heq
    rcases List.mem_cons.mp hadvanced with heq | hadvanced
    · obtain ⟨rfl, -, rfl⟩ := Act.advanced.inj heq
      exact (hcurrent session gate hcreated).symm
    · exact h.advanced g session gate session' drops hcreated hadvanced
  lt g session drops hmem := by
    rcases List.mem_cons.mp hmem with heq | hmem
    · obtain ⟨rfl, -, -⟩ := Act.advanced.inj heq
      have hpos := (hends.current rfl).1
      show s.generators - 1 < s.generators
      omega
    · exact h.lt g session drops hmem

theorem inference (h : s.Seen) (hends : EndsOnce s.log s.generators false) {t : ReactorPipeline}
    {session : ℕ} (hlog : t.log = .created s.generators session s.gate :: s.log)
    (hgenerators : t.generators = s.generators + 1) (hgate : t.gate = s.gate)
    (hlocking : t.run ≠ .locking) (howes : Owes t.owed s.log) : t.Seen where
  locking hrun := absurd hrun hlocking
  current _ _ session gate hmem := by
    rw [generator, hgenerators, hlog] at hmem
    rw [hgate]
    rcases List.mem_cons.mp hmem with heq | hmem
    · obtain ⟨-, -, rfl⟩ := Act.created.inj heq
      rfl
    · have hlt := hends.lt _ session gate hmem
      omega
  owes := by
    rw [hlog]
    exact howes.note rfl
  reset := by
    rw [hlog]
    exact h.reset.note rfl
  advanced g session gate session' drops hcreated hadvanced := by
    rw [hlog] at hcreated hadvanced
    rcases List.mem_cons.mp hadvanced with heq | hadvanced
    · cases heq
    rcases List.mem_cons.mp hcreated with heq | hcreated
    · -- the generator is new, so it was not advanced before
      obtain ⟨rfl, -, -⟩ := Act.created.inj heq
      exact absurd (h.lt _ session' drops hadvanced) (Nat.lt_irrefl _)
    · exact h.advanced g session gate session' drops hcreated hadvanced
  lt g session drops hmem := by
    rw [hlog] at hmem
    rw [hgenerators]
    rcases List.mem_cons.mp hmem with heq | hmem
    · cases heq
    · exact Nat.lt_succ_of_lt (h.lt g session drops hmem)

theorem clear (h : s.Seen) {clean : Bool} (hrun : s.run = .closing clean) {t : ReactorPipeline}
    (hlog : t.log = s.cleared.log) (hgenerators : t.generators = s.generators)
    (hloop : t.run.inLoop = false) : t.Seen ∧ Owes (fun _ _ => False) t.log := by
  have howes : Owes (fun _ _ => False) t.log := by
    rw [hlog]
    have hclosed : Owes s.owed (.closed s.generator :: s.log) := h.owes.note rfl
    exact hclosed.reset fun session drops howed => howed.2.1
  refine ⟨⟨fun hlocking => ?_, fun hloop' => ?_, howes.mono fun _ _ h' => h'.elim, ?_, ?_, ?_⟩,
    howes⟩
  · rw [hlocking] at hloop
    cases hloop
  · rw [hloop'] at hloop
    cases hloop
  · rw [hlog]
    have hclosed : ResetBetween (.closed s.generator :: s.log) := h.reset.note rfl
    exact hclosed.note rfl
  · intro g session gate session' drops hcreated hadvanced
    rw [hlog] at hcreated hadvanced
    refine h.advanced g session gate session' drops ?_ ?_
    · simpa [cleared] using hcreated
    · simpa [cleared] using hadvanced
  · intro g session drops hmem
    rw [hlog] at hmem
    rw [hgenerators]
    exact h.lt g session drops (by simpa [cleared] using hmem)

/-- The head of the loop, where no advance of an earlier cycle is owed a reset. -/
theorem loops {t : ReactorPipeline} (h : s.Seen) (hends : EndsOnce s.log s.generators true)
    (hcurrent : s.gate.live = true → ∀ session gate,
      .created s.generator session gate ∈ s.log → gate.gateDrops = s.gate.gateDrops)
    (howes : Owes (fun session drops => session = s.served ∧
      (s.gate.live = true → drops = s.gate.gateDrops)) s.log) (hloops : Loops s t) : t.Seen := by
  cases hloops with
  | advances hlive lock =>
    exact h.advance hends (hcurrent hlive) (howes.mono fun _ _ h' => ⟨h'.1, h'.2 hlive⟩) lock
  | locks hlive lock =>
    exact ⟨fun _ => hlive, fun _ => hcurrent,
      howes.mono fun _ _ h' => ⟨rfl, h'.1, fun _ => h'.2⟩, h.reset, h.advanced, h.lt⟩
  | leaves hlive =>
    exact ⟨by rintro ⟨⟩, by rintro ⟨⟩, howes.mono fun _ _ h' => ⟨rfl, h'.1, by rintro ⟨⟩⟩,
      h.reset, h.advanced, h.lt⟩

theorem cycle {t : ReactorPipeline} (h : s.Seen) (hends : EndsOnce s.log s.generators false)
    (hloop : s.run.inLoop = false) (howes : Owes (fun _ _ => False) s.log)
    (hloops : Loops s.begun t) : t.Seen := by
  have hlocking : s.begun.run ≠ .locking := by
    intro hlocking
    have hrun : s.run = .locking := hlocking
    rw [hrun] at hloop
    cases hloop
  have hbegun : s.begun.Seen :=
    h.inference hends rfl rfl rfl hlocking (howes.mono fun _ _ h' => h'.elim)
  have howes' : Owes (fun _ _ => False) s.begun.log := howes.note rfl
  refine hbegun.loops (hends.create _ _) (fun _ session gate hmem => ?_)
    (howes'.mono fun _ _ h' => h'.elim) hloops
  rcases List.mem_cons.mp hmem with heq | hmem
  · obtain ⟨-, -, rfl⟩ := Act.created.inj heq
    rfl
  · -- an older entry is of an older generator
    have hlt := hends.lt _ session gate hmem
    exact absurd hlt (Nat.lt_irrefl _)

theorem next {l : Label} (h : s.Seen) (hends : s.Ends) (hsees : s.sees l = true)
    (hnext : s.next cls l = some s') : s'.Seen := by
  have hstep := step_of_next hnext
  unfold Ends at hends
  cases hstep with
  | @event event t hbeside hlive hdrops =>
    simp only [sees, Bool.and_eq_true, Bool.not_eq_true', Bool.and_eq_false_imp,
      decide_eq_true_eq, Bool.not_eq_false'] at hsees
    obtain ⟨hdropped, hset⟩ := hsees
    refine h.of_log hbeside.log hbeside.generators hbeside.served (fun hlocking => ?_)
      hbeside.inCycle fun hloop hopen => ?_
    · have hrun : s.run = .locking := by
        rcases hbeside.run with hrun | ⟨woken, woken', -, ht⟩
        · exact hrun.symm.trans hlocking
        · exact absurd (ht.symm.trans hlocking) (by rintro ⟨⟩)
      rw [hlive]
      exact hdropped ⟨hrun, h.locking hrun⟩
    · rw [hbeside.inLoop] at hloop
      rw [hlive] at hopen
      refine ⟨hloop, ?_⟩
      rcases s.gate.dispatch_cases event with ⟨hl, hd⟩ | ⟨hl, hl', hd⟩ | ⟨hl, hl', hd⟩
      · exact ⟨hl.symm.trans hopen, hdrops.trans hd⟩
      · exact absurd (hset ⟨hloop, hl⟩) (by simp [hopen])
      · exact absurd (hl'.symm.trans hopen) (by simp)
  | beside hbeside hgate =>
    refine h.of_log hbeside.log hbeside.generators hbeside.served (fun hlocking => ?_)
      hbeside.inCycle fun hloop hopen => ?_
    · have hrun : s.run = .locking := by
        rcases hbeside.run with hrun | ⟨woken, woken', -, ht⟩
        · exact hrun.symm.trans hlocking
        · exact absurd (ht.symm.trans hlocking) (by rintro ⟨⟩)
      rw [hgate.1]
      exact h.locking hrun
    · exact ⟨hbeside.inLoop ▸ hloop, hgate.1 ▸ hopen, hgate.2⟩
  | wakes hrun hloops =>
    rw [hrun] at hends
    refine h.cycle hends (by rw [hrun]; rfl) (h.owes.mono fun _ _ howed => ?_) hloops
    have hcycle := howed.1
    rw [hrun] at hcycle
    cases hcycle
  | locks hrun lock =>
    have hlive := h.locking hrun
    rw [hrun] at hends
    refine h.advance hends (h.current (by rw [hrun]; rfl) hlive)
      (h.owes.mono fun _ _ howed => ⟨howed.2.1, howed.2.2 (by rw [hrun]; rfl) hlive⟩) lock
  | moves hrun lock run hcycle hlocking =>
    refine h.of_log rfl rfl rfl (fun hlocking' => absurd hlocking' hlocking)
      (hcycle.trans (inCycle_of_inLoop hrun).symm) fun hloop hlive => ⟨hrun, hlive, rfl⟩
  | restarts hrun lock =>
    have hloop : s.run.inLoop = true := by rw [hrun]; rfl
    rw [hrun] at hends
    have hfinished : EndsOnce (.finished s.generator :: s.log) s.generators false :=
      hends.done rfl fun _ => rfl
    have hseen : Seen { s with lock, log := .finished s.generator :: s.log } :=
      h.note rfl rfl rfl rfl rfl rfl rfl
    refine hseen.inference hfinished rfl rfl rfl (by rintro ⟨⟩) (hseen.owes.mono ?_)
    intro session drops howed
    exact ⟨rfl, howed.2.1, fun _ => howed.2.2 hloop⟩
  | loops hrun hloops =>
    rw [inCycle_of_inLoop hrun] at hends
    exact h.loops hends (h.current hrun)
      (h.owes.mono fun _ _ howed => ⟨howed.2.1, howed.2.2 hrun⟩) hloops
  | waits hrun => exact (h.clear (t := { s.cleared with run := .waiting false }) hrun rfl rfl rfl).1
  | begins hrun hlive hloops =>
    rw [hrun] at hends
    obtain ⟨hseen, howes⟩ := h.clear (t := s.cleared) hrun rfl rfl (by rw [cleared, hrun]; rfl)
    exact hseen.cycle (Ends.cleared hends) (by rw [cleared, hrun]; rfl) howes hloops
  | ends hrun => exact (h.clear (t := { s.cleared with run := .over }) hrun rfl rfl rfl).1
  | gone hrun =>
    refine h.of_log rfl rfl rfl (by rintro ⟨⟩) ?_ (by rintro ⟨⟩)
    rw [hrun]
    rfl
  | pushes track session buffer hentries => exact h.note rfl rfl rfl rfl rfl rfl rfl

end Seen

/-! ### Generators are created while the gate is open -/

/-- The gate is open as the driver's wait for it ends, and a generator finishes only while the gate
of the session that its cycle serves is open. -/
def opens (s : ReactorPipeline) : Label → Bool
  | .wakes => s.gate.live
  | .turns .finished => s.gate.live && decide (s.gate.sessionsStarted = s.served)
  | _ => true

theorem createdOpen_loops {t : ReactorPipeline} (h : CreatedOpen s.log) (hloops : Loops s t) :
    CreatedOpen t.log := by
  cases hloops with
  | advances hlive lock => exact h.note rfl
  | locks hlive lock => exact h
  | leaves hlive => exact h

theorem createdOpen_cleared (h : CreatedOpen s.log) : CreatedOpen s.cleared.log := by
  have hclosed : CreatedOpen (.closed s.generator :: s.log) := h.note rfl
  exact hclosed.note rfl

theorem createdOpen_next {l : Label} (h : CreatedOpen s.log) (hopens : s.opens l = true)
    (hnext : s.next cls l = some s') : CreatedOpen s'.log := by
  have hstep := step_of_next hnext
  cases hstep with
  | event hbeside hlive hdrops => exact hbeside.log ▸ h
  | beside hbeside hgate => exact hbeside.log ▸ h
  | wakes hrun hloops =>
    have hbegun : CreatedOpen s.begun.log := h.create hopens rfl
    exact createdOpen_loops hbegun hloops
  | locks hrun lock => exact h.note rfl
  | moves hrun lock run hcycle hlocking => exact h
  | restarts hrun lock =>
    simp only [opens, Bool.and_eq_true, decide_eq_true_eq] at hopens
    have hfinished : CreatedOpen (.finished s.generator :: s.log) := h.note rfl
    exact hfinished.create hopens.1 hopens.2
  | loops hrun hloops => exact createdOpen_loops h hloops
  | waits hrun => exact createdOpen_cleared h
  | begins hrun hlive hloops =>
    have hbegun : CreatedOpen s.cleared.begun.log := (createdOpen_cleared h).create hlive rfl
    exact createdOpen_loops hbegun hloops
  | ends hrun => exact createdOpen_cleared h
  | gone hrun => exact h
  | pushes track session buffer hentries => exact h.note rfl

/-! ### Runs -/

/-- In every run the generators end once, each before the next is created, and what a buffer holds
was pushed since the last reset through its session.  Where the driver sees each drop, no generator
is advanced after a drop, and the buffers are reset between two cycles; where the gate is open as
generators are created, each is created for a session whose gate is open. -/
theorem one_cycle (cls : PipelineClass) {ls : List Label} {s : ReactorPipeline}
    (hrun : (pipeline cls).run ls = some s) :
    EndsOnce s.log s.generators s.run.inCycle ∧ s.FreshBuffers ∧
      ((pipeline cls).AllSteps (fun s l => s.sees l = true) ls →
        AdvancedInCycle s.log ∧ ResetBetween s.log) ∧
      ((pipeline cls).AllSteps (fun s l => s.opens l = true) ls → CreatedOpen s.log) := by
  have hends : (pipeline cls).IsInvariant Ends :=
    ⟨EndsOnce.init, fun _ _ _ h hnext => h.next hnext⟩
  have hfresh : (pipeline cls).IsInvariant FreshBuffers :=
    ⟨fun _ _ he => absurd he List.not_mem_nil, fun _ _ _ h hnext => h.next hnext⟩
  refine ⟨hends.of_run hrun, hfresh.of_run hrun, fun hall => ?_, fun hall => ?_⟩
  · have hinit : Seen ((pipeline cls).init) :=
      Seen.init.of_log rfl rfl rfl (by rintro ⟨⟩) rfl (by rintro ⟨⟩)
    have hseen : s.Ends ∧ s.Seen :=
      hall.invariant (I := fun s => s.Ends ∧ s.Seen) ⟨EndsOnce.init, hinit⟩
        (fun _ _ _ h hsees hnext => ⟨h.1.next hnext, h.2.next h.1 hsees hnext⟩) hrun
    exact ⟨hseen.2.advanced, hseen.2.reset⟩
  · have hopen : CreatedOpen ((pipeline cls).init).log :=
      fun _ _ _ hmem => absurd hmem List.not_mem_nil
    exact hall.invariant (I := fun s => CreatedOpen s.log) hopen
      (fun _ _ _ h hopens hnext => createdOpen_next h hopens hnext) hrun

def barePipeline (isAsync : Bool) : PipelineClass where
  isAsync
  bounds _ := {}
  hook _ := false

def startRun : List Label :=
  [.event (.clientConnected "a" 1), .event (.sessionStarted false false none), .wakes]

/-- The client leaves during an emit, and another one joins once the generator was closed. -/
def cyclesRun : List Label :=
  startRun ++ [.turns .output, .event (.clientDisconnected "a" 0), .emits false, .closes false,
    .event (.clientConnected "b" 1), .wakes, .turns .finished, .pauses]

theorem isSome_cyclesRun : ((pipeline (barePipeline false)).run cyclesRun).isSome := rfl

theorem one_cycle_cyclesRun :
    let s := ((pipeline (barePipeline false)).run cyclesRun).get isSome_cyclesRun
    AdvancedInCycle s.log ∧ ResetBetween s.log ∧ CreatedOpen s.log := by
  obtain ⟨-, -, hseen, hopen⟩ :=
    one_cycle (barePipeline false) (Option.some_get isSome_cyclesRun).symm
  obtain ⟨hadvanced, hreset⟩ := hseen (by decide +kernel)
  exact ⟨hadvanced, hreset, hopen (by decide +kernel)⟩

/-- The client leaves and joins again during one emit. -/
def rejoinRun : List Label :=
  startRun ++ [.turns .output, .event (.clientDisconnected "a" 0),
    .event (.clientConnected "a" 1), .emits false]

/-- The session ends as the driver is next to get the step lock, which a handler held. -/
def queuedRun : List Label :=
  startRun ++ [.turns .output, .command, .emits false, .handled, .event .sessionEnded, .locks]

/-- An async generator finishes after the client has left. -/
def finishedRun : List Label :=
  startRun ++ [.event (.clientDisconnected "a" 0), .turns .finished]

/-- The gate of the first session, as a generator is created. -/
def openGate : LiveGate :=
  { connected := true, sessionActive := true, sessionsStarted := 1, live := true }

theorem rejoinRun_log : ((pipeline (barePipeline false)).run rejoinRun).map (·.log) =
    some [.advanced 0 1 1, .advanced 0 1 0, .created 0 1 openGate] := by
  decide +kernel

theorem queuedRun_log : ((pipeline (barePipeline false)).run queuedRun).map (·.log) =
    some [.advanced 0 1 1, .advanced 0 1 0, .created 0 1 openGate] := by
  decide +kernel

theorem finishedRun_log : ((pipeline (barePipeline true)).run finishedRun).map (·.log) =
    some [.created 1 1 { openGate with connected := false, live := false, gateDrops := 1 },
      .finished 0, .advanced 0 1 0, .created 0 1 openGate] := by
  decide +kernel

theorem not_advancedInCycle :
    ¬AdvancedInCycle [.advanced 0 1 1, .advanced 0 1 0, .created 0 1 openGate] := by
  intro h
  have hdrops : 1 = openGate.gateDrops := h 0 1 openGate 1 1 (by simp) (by simp)
  exact absurd hdrops (by decide)

/-- A generator is advanced after a drop that the driver did not see, with no reset in between, and
after the session has ended, and one is created once the gate has dropped. -/
theorem not_one_cycle :
    (∃ s, (pipeline (barePipeline false)).run rejoinRun = some s ∧
      ¬AdvancedInCycle s.log ∧ ¬ResetBetween s.log) ∧
    (∃ s, (pipeline (barePipeline false)).run queuedRun = some s ∧ ¬AdvancedInCycle s.log) ∧
    ∃ s, (pipeline (barePipeline true)).run finishedRun = some s ∧ ¬CreatedOpen s.log := by
  obtain ⟨s₁, hrun₁, hlog₁⟩ := Option.map_eq_some_iff.mp rejoinRun_log
  obtain ⟨s₂, hrun₂, hlog₂⟩ := Option.map_eq_some_iff.mp queuedRun_log
  obtain ⟨s₃, hrun₃, hlog₃⟩ := Option.map_eq_some_iff.mp finishedRun_log
  refine ⟨⟨s₁, hrun₁, ?_, ?_⟩, ⟨s₂, hrun₂, ?_⟩, s₃, hrun₃, ?_⟩
  · rw [hlog₁]
    exact not_advancedInCycle
  · rw [hlog₁]
    intro h
    exact absurd (h [] 0 1 1 [] 0 1 0 _ rfl (by decide)) List.not_mem_nil
  · rw [hlog₂]
    exact not_advancedInCycle
  · rw [hlog₃]
    intro h
    obtain ⟨hlive, -⟩ := h 1 1 _ List.mem_cons_self
    cases hlive

end ReactorPipeline

end ReactorRuntime.Interface
