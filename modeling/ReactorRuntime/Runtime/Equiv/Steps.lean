import ReactorRuntime.Runtime.Equiv.Mirror

/-!
# The steps of a session

`stepFacts` reads the numbers of a session's `step_completed` facts off the journal, where a session
is the part from its start to the next one.  In a streamed session they are counted by
`stepsCompleted` (`Counted`), which a report of another session does not touch.

Main result: `step_numbering`.
-/

namespace ReactorRuntime.Runtime

/-! ### The facts of a session -/

/-- The number of a `step_completed` fact. -/
def Transition.stepNumber? (t : Transition) : Option ℕ :=
  match t.event, t.detail with
  | .stepCompleted, .step number _ _ => some number
  | _, _ => none

/-- The sessions started so far and the steps of session `σ`, after one more entry. -/
def note (σ : ℕ) (s : ℕ × List ℕ) (t : Transition) : ℕ × List ℕ :=
  if t.isSessionStart then (s.1 + 1, s.2)
  else if s.1 = σ then (s.1, s.2 ++ t.stepNumber?.toList)
  else s

/-- The steps journalled in session `σ`, in order. -/
def stepFacts (σ : ℕ) (journal : List Transition) : List ℕ := (journal.foldl (note σ) (0, [])).2

def sessionsIn (journal : List Transition) : ℕ := journal.countP (·.isSessionStart)

theorem sessionsIn_concat (journal : List Transition) (t : Transition) :
    sessionsIn (journal ++ [t]) = sessionsIn journal + if t.isSessionStart then 1 else 0 := by
  rw [sessionsIn, List.countP_append, List.countP_singleton, sessionsIn]

theorem foldl_note (σ : ℕ) (journal : List Transition) :
    journal.foldl (note σ) (0, []) = (sessionsIn journal, stepFacts σ journal) := by
  induction journal using List.reverseRecOn with
  | nil => rfl
  | append_singleton journal t ih =>
    refine Prod.ext ?_ rfl
    rw [List.foldl_append, ih, sessionsIn_concat]
    show (note σ (sessionsIn journal, stepFacts σ journal) t).1 = _
    unfold note
    split_ifs <;> rfl

theorem stepFacts_concat (σ : ℕ) (journal : List Transition) (t : Transition) :
    stepFacts σ (journal ++ [t]) =
      (note σ (sessionsIn journal, stepFacts σ journal) t).2 := by
  rw [stepFacts, List.foldl_append, foldl_note]
  rfl

theorem stepFacts_concat_of_ne {σ : ℕ} {journal : List Transition} {t : Transition}
    (h : t.isSessionStart ∨ t.stepNumber? = none ∨ sessionsIn journal ≠ σ) :
    stepFacts σ (journal ++ [t]) = stepFacts σ journal := by
  rw [stepFacts_concat, note]
  split_ifs with hstart hcurrent
  · rfl
  · rcases h with h | h | h
    · exact absurd h hstart
    · rw [h]
      exact List.append_nil _
    · exact absurd hcurrent h
  · rfl

theorem stepFacts_concat_of_eq {σ n : ℕ} {journal : List Transition} {t : Transition}
    (hstart : t.isSessionStart = false) (hstep : t.stepNumber? = some n)
    (hcurrent : sessionsIn journal = σ) :
    stepFacts σ (journal ++ [t]) = stepFacts σ journal ++ [n] := by
  rw [stepFacts_concat, note, hstart, if_neg (by decide), if_pos hcurrent, hstep]
  rfl

theorem stepFacts_eq_nil {σ : ℕ} {journal : List Transition} (h : sessionsIn journal < σ) :
    stepFacts σ journal = [] := by
  induction journal using List.reverseRecOn with
  | nil => rfl
  | append_singleton journal t ih =>
    rw [sessionsIn_concat] at h
    have hlt : sessionsIn journal < σ := by omega
    rw [stepFacts_concat_of_ne (.inr (.inr (by omega))), ih hlt]

/-- What ends a session besides its steps: a command, a timeout, an eviction, or a refused command
of its starting input. -/
def Label.ends : Label → Bool
  | .stopSession _ _ | .timeout | .evicted | .startingInput _ (some _) => true
  | _ => false

namespace Runner

variable {recording : Bool} {r r' r'' : Runner}

/-! ### What touches no step -/

structure StepCount where
  sessionsPosted : ℕ
  starts : List SessionStart
  sessionStart : SessionStart
  stepsCompleted : ℕ
  stepsFailed : Bool
  failedSessions : List ℕ
  startingRequestIds : Finset ℕ
  requests : List ℕ

def stepCount (r : Runner) : StepCount where
  sessionsPosted := r.sessionsPosted
  starts := r.starts
  sessionStart := r.sessionStart
  stepsCompleted := r.stepsCompleted
  stepsFailed := r.stepsFailed
  failedSessions := r.failedSessions
  startingRequestIds := r.startingRequestIds
  requests := r.requests

structure Quiet (r r' : Runner) : Prop where
  count : r'.stepCount = r.stepCount
  sessions : sessionsIn r'.events.emitted = sessionsIn r.events.emitted
  facts : ∀ σ, stepFacts σ r'.events.emitted = stepFacts σ r.events.emitted
  running : r'.machine.state.isRunning → r.machine.state.isRunning

theorem Quiet.refl (r : Runner) : Quiet r r := ⟨rfl, rfl, fun _ => rfl, id⟩

theorem Quiet.trans (h : Quiet r r') (h' : Quiet r' r'') : Quiet r r'' where
  count := h'.count.trans h.count
  sessions := h'.sessions.trans h.sessions
  facts σ := (h'.facts σ).trans (h.facts σ)
  running := h.running ∘ h'.running

theorem Quiet.of_eq (hcount : r'.stepCount = r.stepCount) (hevents : r'.events = r.events)
    (hmachine : r'.machine = r.machine) : Quiet r r' where
  count := hcount
  sessions := by rw [hevents]
  facts σ := by rw [hevents]
  running := by rw [hmachine]; exact id

theorem quiet_move {machine : SessionStateMachine} {event : SessionEvent} {detail : Detail}
    (hevent : event ≠ .stepCompleted)
    (hrunning : machine.state.isRunning → r.machine.state.isRunning) :
    Quiet r (r.move recording machine event detail) := by
  have hstart := isSessionStart_eq_false machine event detail r hrunning
  have hstep : (r.transition machine event detail).stepNumber? = none := by
    unfold Transition.stepNumber?
    split
    next heq _ => exact absurd heq hevent
    · rfl
  obtain ⟨-, -, hsessionStart, hstarts, hposted⟩ :=
    move_of_not_start recording r machine event detail hstart
  constructor
  case count =>
    simp only [stepCount, hsessionStart, hstarts, hposted, stepsCompleted_move, stepsFailed_move,
      failedSessions_move, startingRequestIds_move, requests_move]
  case sessions =>
    rw [events_move, EventStream.emitted_emit, sessionsIn_concat, hstart]
    rfl
  case facts =>
    intro σ
    rw [events_move, EventStream.emitted_emit, stepFacts_concat_of_ne (.inr (.inl hstep))]
  case running =>
    rw [machine_move]
    exact hrunning

theorem quiet_send (r : Runner) (event : SessionEvent) (detail : Detail)
    (hstart : event ≠ .startSession) (hevent : event ≠ .stepCompleted) :
    Quiet r (r.send recording event detail) := by
  unfold send
  cases hsend : r.machine.send event with
  | none => exact Quiet.refl r
  | some machine =>
    exact quiet_move hevent (SessionStateMachine.isRunning_of_send hstart hsend)

theorem quiet_sendWithoutOccupancy (r : Runner) (event : SessionEvent) (detail : Detail)
    (hevent : event ≠ .stepCompleted) :
    Quiet r (r.sendWithoutOccupancy recording event detail) := by
  unfold sendWithoutOccupancy SessionStateMachine.sendWithoutOccupancy
  by_cases hconnectable : r.machine.state.isConnectable = true
  · rw [if_pos hconnectable]
    exact quiet_move hevent id
  · rw [if_neg hconnectable]
    exact Quiet.refl r

theorem quiet_register (r : Runner) (conn : Connection) (system occupies : Bool) :
    Quiet r (r.register recording conn system occupies) := by
  have hregistry (connections : ConnectionManager) : Quiet r { r with connections } :=
    .of_eq rfl rfl rfl
  unfold register
  dsimp only
  split_ifs
  · exact hregistry _
  · exact (hregistry _).trans (quiet_send _ .connectionOpened _ (by decide) (by decide))
  · exact (hregistry _).trans (quiet_sendWithoutOccupancy _ .connectionOpened _ (by decide))

theorem quiet_drop (r : Runner) (cid : ConnId) : Quiet r (r.drop recording cid) := by
  have hregistry (connections : ConnectionManager) : Quiet r { r with connections } :=
    .of_eq rfl rfl rfl
  unfold drop
  by_cases hmem : cid ∉ r.connections.byId
  · rw [if_pos hmem]
    exact Quiet.refl r
  · rw [if_neg hmem]
    cases r.connections.details.lookup cid with
    | none => exact hregistry _
    | some detail =>
      dsimp only
      split_ifs
      · exact (hregistry _).trans (quiet_sendWithoutOccupancy _ .connectionClosed _ (by decide))
      · exact (hregistry _).trans (quiet_send _ .connectionClosed _ (by decide) (by decide))

theorem quiet_finishStartingInput (r : Runner) (task : StartingTask) :
    Quiet r (r.finishStartingInput recording task) := by
  have hset (r : Runner) : Quiet r (if r.startingInputDone.number = task.done then
      { r with startingInputDone := { r.startingInputDone with isSet := true } } else r) := by
    split_ifs
    · exact .of_eq rfl rfl rfl
    · exact Quiet.refl r
  have hposted (r : Runner) : Quiet r { r with posted := r.posted ++ [.startingInputApplied] } :=
    .of_eq rfl rfl rfl
  unfold finishStartingInput
  by_cases happlies : r.applies task = true
  · rw [if_pos happlies]
    by_cases hruns : r.runsUnattended = true
    · rw [if_pos hruns]
      exact (hposted r).trans (hset _)
    · rw [if_neg hruns]
      exact ((quiet_drop r _).trans (hposted _)).trans (hset _)
  · rw [if_neg happlies]
    exact hset r

/-! ### The count of a session's steps -/

/-- In a streamed session the steps journalled are numbered in order, and counted. -/
structure Counted (r : Runner) : Prop where
  sessions : sessionsIn r.events.emitted = r.sessionsPosted
  starts : r.starts.length = r.sessionsPosted
  current : 0 < r.sessionsPosted → r.starts[r.sessionsPosted - 1]? = some r.sessionStart
  began : r.machine.state.isRunning → 0 < r.sessionsPosted
  counted : 0 < r.sessionsPosted → r.sessionStart.generation = .streamed →
    stepFacts r.sessionsPosted r.events.emitted = List.range' 1 r.stepsCompleted
  past : ∀ σ start, σ + 1 < r.sessionsPosted → r.starts[σ]? = some start →
    start.generation = .streamed → ∃ n, stepFacts (σ + 1) r.events.emitted = List.range' 1 n

theorem counted_init : Counted {} where
  sessions := rfl
  starts := rfl
  current h := absurd h (by decide)
  began h := absurd h (by decide)
  counted h := absurd h (by decide)
  past _ _ h := absurd h (Nat.not_lt_zero _)

theorem Counted.quiet (h : Counted r) (hquiet : Quiet r r') : Counted r' := by
  have hposted : r'.sessionsPosted = r.sessionsPosted :=
    congrArg StepCount.sessionsPosted hquiet.count
  have hstarts : r'.starts = r.starts := congrArg StepCount.starts hquiet.count
  have hsessionStart : r'.sessionStart = r.sessionStart :=
    congrArg StepCount.sessionStart hquiet.count
  have hcompleted : r'.stepsCompleted = r.stepsCompleted :=
    congrArg StepCount.stepsCompleted hquiet.count
  constructor
  case sessions => rw [hquiet.sessions, hposted]; exact h.sessions
  case starts => rw [hstarts, hposted]; exact h.starts
  case current => rw [hstarts, hposted, hsessionStart]; exact h.current
  case began => rw [hposted]; exact h.began ∘ hquiet.running
  case counted => rw [hquiet.facts, hposted, hsessionStart, hcompleted]; exact h.counted
  case past =>
    rw [hposted, hstarts]
    intro σ start hlt hstart hstreamed
    rw [hquiet.facts]
    exact h.past σ start hlt hstart hstreamed

/-! ### A step -/

structure Journalled (r r' : Runner) (n : ℕ) : Prop where
  count : r'.stepCount = { r.stepCount with stepsCompleted := n }
  sessions : sessionsIn r'.events.emitted = sessionsIn r.events.emitted
  current : stepFacts (sessionsIn r.events.emitted) r'.events.emitted =
    stepFacts (sessionsIn r.events.emitted) r.events.emitted ++ [n]
  others : ∀ σ ≠ sessionsIn r.events.emitted,
    stepFacts σ r'.events.emitted = stepFacts σ r.events.emitted
  machine : r'.machine = r.machine

theorem journalled_step (r : Runner) (n : ℕ) (saved : Bool) (error : Option String) :
    Journalled r ({ r with stepsCompleted := n }.send recording .stepCompleted
      (.step n saved error)) n := by
  rw [send_fact_eq _ _ _ (.inr rfl)]
  generalize hs : ({ r with stepsCompleted := n } : Runner) = s
  have hmachine : s.machine = r.machine := by rw [← hs]
  have hevents : s.events = r.events := by rw [← hs]
  have hstart := isSessionStart_eq_false s.machine .stepCompleted (.step n saved error) s id
  have hstep : (s.transition s.machine .stepCompleted (.step n saved error)).stepNumber? = some n :=
    rfl
  obtain ⟨-, -, hsessionStart, hstarts, hposted⟩ := move_of_not_start recording s _ _ _ hstart
  constructor
  case count =>
    simp only [stepCount, hsessionStart, hstarts, hposted, stepsCompleted_move, stepsFailed_move,
      failedSessions_move, startingRequestIds_move, requests_move]
    rw [← hs]
  case sessions =>
    rw [events_move, EventStream.emitted_emit, sessionsIn_concat, hstart, hevents]
    rfl
  case current =>
    rw [events_move, EventStream.emitted_emit, hevents]
    exact stepFacts_concat_of_eq hstart hstep rfl
  case others =>
    intro σ hne
    rw [events_move, EventStream.emitted_emit, hevents]
    exact stepFacts_concat_of_ne (.inr (.inr hne.symm))
  case machine => rw [machine_move, hmachine]

theorem Counted.journalled (h : Counted r) {n : ℕ} (hstep : Journalled r r' n)
    (hn : 0 < r.sessionsPosted → r.sessionStart.generation = .streamed →
      n = r.stepsCompleted + 1) : Counted r' := by
  have hposted : r'.sessionsPosted = r.sessionsPosted :=
    congrArg StepCount.sessionsPosted hstep.count
  have hstarts : r'.starts = r.starts := congrArg StepCount.starts hstep.count
  have hsessionStart : r'.sessionStart = r.sessionStart :=
    congrArg StepCount.sessionStart hstep.count
  have hcompleted : r'.stepsCompleted = n := congrArg StepCount.stepsCompleted hstep.count
  constructor
  case sessions => rw [hstep.sessions, hposted]; exact h.sessions
  case starts => rw [hstarts, hposted]; exact h.starts
  case current => rw [hstarts, hposted, hsessionStart]; exact h.current
  case began => rw [hposted, hstep.machine]; exact h.began
  case counted =>
    rw [hposted, hsessionStart, hcompleted]
    intro hpos hstreamed
    have hcurrent := hstep.current
    rw [h.sessions, h.counted hpos hstreamed] at hcurrent
    rw [hcurrent, hn hpos hstreamed, List.range'_1_concat, Nat.add_comm 1]
  case past =>
    rw [hposted, hstarts]
    intro σ start hlt hstart hstreamed
    have hne : σ + 1 ≠ sessionsIn r.events.emitted := by
      rw [h.sessions]
      omega
    rw [hstep.others _ hne]
    exact h.past σ start hlt hstart hstreamed

theorem failSteps (recording : Bool) (h : Counted r) (k : ℕ) (saved : Bool) (error : String) :
    ∃ s, (List.range' (r.stepsCompleted + 1) k).foldl (failStep recording saved error) r = s ∧
      Counted s ∧ s.machine = r.machine ∧
      s.stepCount = { r.stepCount with stepsCompleted := r.stepsCompleted + k } ∧
      ∀ σ ≠ r.sessionsPosted, stepFacts σ s.events.emitted = stepFacts σ r.events.emitted := by
  induction k generalizing r with
  | zero => exact ⟨r, rfl, h, rfl, rfl, fun _ _ => rfl⟩
  | succ k ih =>
    obtain ⟨r₁, hr₁⟩ : ∃ r₁, failStep recording saved error r (r.stepsCompleted + 1) = r₁ :=
      ⟨_, rfl⟩
    have hstep : Journalled r r₁ (r.stepsCompleted + 1) :=
      hr₁ ▸ journalled_step r _ saved (some error)
    have hposted : r₁.sessionsPosted = r.sessionsPosted :=
      congrArg StepCount.sessionsPosted hstep.count
    have hcompleted : r₁.stepsCompleted = r.stepsCompleted + 1 :=
      congrArg StepCount.stepsCompleted hstep.count
    obtain ⟨s, hs, hcounted, hmachine, hcount, hfacts⟩ :=
      ih (h.journalled hstep fun _ _ => rfl)
    refine ⟨s, ?_, hcounted, hmachine.trans hstep.machine, ?_, ?_⟩
    · rw [List.range'_succ, List.foldl_cons, hr₁, ← hs, hcompleted]
    · rw [hcount, hstep.count, hcompleted, Nat.add_assoc, Nat.add_comm 1]
    · intro σ hne
      rw [hfacts σ (by rwa [hposted])]
      exact hstep.others σ (by rwa [h.sessions])

/-! ### The limit of a session -/

/-- The steps of the sessions are counted, a session whose steps were failed has all of them, and
the starting requests are the session's own. -/
structure Numbered (r : Runner) : Prop where
  counted : Counted r
  failed : ∀ σ ∈ r.failedSessions, ∃ start, ∃ limit : Steps, 0 < σ ∧
    r.starts[σ - 1]? = some start ∧ start.steps = some limit ∧
    stepFacts σ r.events.emitted = List.range' 1 limit ∧
    (σ = r.sessionsPosted → r.stepsFailed = true)
  requested : ∀ id ∈ r.startingRequestIds, r.requests[id]? = some r.sessionsPosted

def Below (r : Runner) : Prop :=
  r.machine.state.isRunning → r.sessionStart.generation = .streamed →
    ∀ limit : Steps, r.sessionStart.steps = some limit → r.stepsCompleted < limit

theorem numbered_init : Numbered {} where
  counted := counted_init
  failed _ h := absurd h List.not_mem_nil
  requested _ h := absurd h (Finset.notMem_empty _)

theorem Below.of_stopped (h : r.machine.state.isRunning = false) : Below r := by
  intro hrunning
  rw [h] at hrunning
  cases hrunning

theorem Below.quiet (h : Below r) (hquiet : Quiet r r') : Below r' := by
  have hsessionStart : r'.sessionStart = r.sessionStart :=
    congrArg StepCount.sessionStart hquiet.count
  have hcompleted : r'.stepsCompleted = r.stepsCompleted :=
    congrArg StepCount.stepsCompleted hquiet.count
  rw [Below, hsessionStart, hcompleted]
  exact h ∘ hquiet.running

theorem Below.limit_not_mem (h : Below r) (hcounted : Counted r)
    (hrunning : r.machine.state.isRunning) (hstreamed : r.sessionStart.generation = .streamed)
    {limit : Steps} (hlimit : r.sessionStart.steps = some limit) :
    limit.val ∉ stepFacts r.sessionsPosted r.events.emitted := by
  have hbelow := h hrunning hstreamed limit hlimit
  rw [hcounted.counted (hcounted.began hrunning) hstreamed, List.mem_range'_1]
  omega

namespace Numbered

theorem quiet (h : Numbered r) (hquiet : Quiet r r') : Numbered r' := by
  have hposted : r'.sessionsPosted = r.sessionsPosted :=
    congrArg StepCount.sessionsPosted hquiet.count
  have hstarts : r'.starts = r.starts := congrArg StepCount.starts hquiet.count
  have hfailed : r'.stepsFailed = r.stepsFailed := congrArg StepCount.stepsFailed hquiet.count
  have hsessions : r'.failedSessions = r.failedSessions :=
    congrArg StepCount.failedSessions hquiet.count
  have hids : r'.startingRequestIds = r.startingRequestIds :=
    congrArg StepCount.startingRequestIds hquiet.count
  have hrequests : r'.requests = r.requests := congrArg StepCount.requests hquiet.count
  constructor
  case counted => exact h.counted.quiet hquiet
  case failed =>
    rw [hsessions, hstarts, hposted, hfailed]
    intro σ hσ
    rw [hquiet.facts]
    exact h.failed σ hσ
  case requested => rw [hids, hrequests, hposted]; exact h.requested

theorem journalled (h : Numbered r) {n : ℕ} (hstep : Journalled r r' n)
    (hfailed : r.stepsFailed = false)
    (hn : 0 < r.sessionsPosted → r.sessionStart.generation = .streamed →
      n = r.stepsCompleted + 1) : Numbered r' := by
  have hposted : r'.sessionsPosted = r.sessionsPosted :=
    congrArg StepCount.sessionsPosted hstep.count
  have hstarts : r'.starts = r.starts := congrArg StepCount.starts hstep.count
  have hfailed' : r'.stepsFailed = r.stepsFailed := congrArg StepCount.stepsFailed hstep.count
  have hsessions : r'.failedSessions = r.failedSessions :=
    congrArg StepCount.failedSessions hstep.count
  have hids : r'.startingRequestIds = r.startingRequestIds :=
    congrArg StepCount.startingRequestIds hstep.count
  have hrequests : r'.requests = r.requests := congrArg StepCount.requests hstep.count
  constructor
  case counted => exact h.counted.journalled hstep hn
  case failed =>
    rw [hsessions, hstarts, hposted, hfailed']
    intro σ hσ
    obtain ⟨start, limit, hpos, hstart, hsteps, hfacts, hcurrent⟩ := h.failed σ hσ
    -- the steps of this session were not failed, so it is another one
    have hne : σ ≠ r.sessionsPosted := by
      intro heq
      rw [hcurrent heq] at hfailed
      cases hfailed
    rw [hstep.others σ (by rwa [h.counted.sessions])]
    exact ⟨start, limit, hpos, hstart, hsteps, hfacts, hcurrent⟩
  case requested => rw [hids, hrequests, hposted]; exact h.requested

/-! ### A report -/

/-- A report of the current session is journalled under the next number, and stops the session if
that is its limit. -/
theorem recordStep (h : Numbered r) (hbelow : Below r) {step : CompletedStep} (saved : Bool)
    (hstepped : ¬ (step.request.isSome ∧ step.session = r.sessionsPosted ∧
      r.sessionStart.generation ≠ .stepped)) :
    Numbered (r.recordStep recording step saved) ∧ Below (r.recordStep recording step saved) ∧
      (r.machine.state.isRunning →
        (r.recordStep recording step saved).machine.state.isRunning = false →
        r.sessionStart.generation = .streamed → ∀ limit : Steps,
          r.sessionStart.steps = some limit →
            limit.val ∈ stepFacts r.sessionsPosted
              (r.recordStep recording step saved).events.emitted) := by
  have hsame (hrunning : r.machine.state.isRunning) (hstopped : r.machine.state.isRunning = false)
      (p : Prop) : p := by
    rw [hrunning] at hstopped
    cases hstopped
  unfold Runner.recordStep
  by_cases hsession : step.session ≠ r.sessionsPosted
  · rw [if_pos hsession]
    exact ⟨h, hbelow, fun hrunning hstopped _ _ _ => hsame hrunning hstopped _⟩
  rw [if_neg hsession]
  by_cases hfailed : r.stepsFailed = true
  · rw [if_pos hfailed]
    exact ⟨h, hbelow, fun hrunning hstopped _ _ _ => hsame hrunning hstopped _⟩
  rw [if_neg hfailed]
  dsimp only
  obtain ⟨n, hn⟩ : ∃ n, step.request.getD (r.stepsCompleted + 1) = n := ⟨_, rfl⟩
  have hstep : Journalled r (r.saveStep recording step saved) n := by
    unfold saveStep
    rw [hn]
    exact journalled_step r n saved step.error
  obtain ⟨r₁, hr₁⟩ : ∃ r₁, r.saveStep recording step saved = r₁ := ⟨_, rfl⟩
  rw [hr₁] at hstep ⊢
  have hposted : r₁.sessionsPosted = r.sessionsPosted :=
    congrArg StepCount.sessionsPosted hstep.count
  have hsessionStart : r₁.sessionStart = r.sessionStart :=
    congrArg StepCount.sessionStart hstep.count
  have hcompleted : r₁.stepsCompleted = n := congrArg StepCount.stepsCompleted hstep.count
  -- a streamed session has no requests to answer
  have hnext (hstreamed : r.sessionStart.generation = .streamed) : n = r.stepsCompleted + 1 := by
    have hnone : step.request = none := by
      by_contra hsome
      apply hstepped
      refine ⟨Option.isSome_iff_ne_none.mpr hsome, not_not.mp hsession, ?_⟩
      rw [hstreamed]
      decide
    rw [← hn, hnone]
    rfl
  have hnumbered : Numbered r₁ :=
    h.journalled hstep (Bool.eq_false_iff.mpr hfailed) fun _ => hnext
  by_cases hlimit :
      r₁.sessionStart.steps.map Subtype.val = some r₁.stepsCompleted ∧ r₁.machine.state.isRunning
  · rw [if_pos hlimit]
    have hquiet : Quiet r₁ (r₁.send recording .stopSession (.ending .stopped STEPS_CLOSE_REASON)) :=
      quiet_send _ _ _ (by decide) (by decide)
    refine ⟨hnumbered.quiet hquiet, .of_stopped (isRunning_send_stop _ _), ?_⟩
    intro hrunning _ hstreamed limit hsteps
    have hpos : 0 < r₁.sessionsPosted := hnumbered.counted.began hlimit.2
    rw [hquiet.facts, ← hposted, hnumbered.counted.counted hpos (by rwa [hsessionStart]),
      List.mem_range'_1]
    have heq : limit.val = r₁.stepsCompleted := by
      have := hlimit.1
      rw [hsessionStart, hsteps] at this
      exact Option.some.inj this
    have := limit.property.1
    omega
  · rw [if_neg hlimit]
    refine ⟨hnumbered, ?_, ?_⟩
    · intro hrunning hstreamed limit hsteps
      rw [hsessionStart] at hstreamed hsteps
      have hlt := hbelow (hstep.machine ▸ hrunning) hstreamed limit hsteps
      have hn := hnext hstreamed
      have hne : n ≠ limit.val := by
        intro heq
        apply hlimit
        refine ⟨?_, hrunning⟩
        rw [hsessionStart, hsteps, hcompleted, heq]
        rfl
      omega
    · rw [hstep.machine]
      exact fun hrunning hstopped _ _ _ => hsame hrunning hstopped _

/-! ### A failed starting command -/

theorem failRemainingSteps (recording : Bool) (h : Numbered r) (hbelow : Below r)
    (hrunning : r.machine.state.isRunning) (hstreamed : r.sessionStart.generation = .streamed)
    {limit : Steps} (hsteps : r.sessionStart.steps = some limit) (error : String) (saved : Bool) :
    Numbered (r.failRemainingSteps recording limit error saved) ∧
      Below (r.failRemainingSteps recording limit error saved) ∧
      limit.val ∈ stepFacts r.sessionsPosted
        (r.failRemainingSteps recording limit error saved).events.emitted := by
  have hlt := hbelow hrunning hstreamed limit hsteps
  have hpos := h.counted.began hrunning
  unfold Runner.failRemainingSteps
  dsimp only
  obtain ⟨r₁, hr₁⟩ : ∃ r₁, ({ r with
    stepsFailed := true, failedSessions := r.failedSessions ++ [r.sessionsPosted] } : Runner) = r₁ :=
    ⟨_, rfl⟩
  have hcounted : Counted r₁ := by
    rw [← hr₁]
    exact ⟨h.counted.sessions, h.counted.starts, h.counted.current, h.counted.began,
      h.counted.counted, h.counted.past⟩
  have hcompleted : r₁.stepsCompleted = r.stepsCompleted := by rw [← hr₁]
  obtain ⟨s, hs, hcounted', hmachine, hcount, hfacts⟩ :=
    failSteps recording hcounted (limit + 1 - (r.stepsCompleted + 1)) saved error
  rw [hcompleted] at hs
  rw [hr₁, hs]
  have hquiet : Quiet s (s.send recording .stopSession (.ending .error error)) :=
    quiet_send _ _ _ (by decide) (by decide)
  have hposted : s.sessionsPosted = r.sessionsPosted := by
    rw [← show r₁.sessionsPosted = r.sessionsPosted by rw [← hr₁]]
    exact congrArg StepCount.sessionsPosted hcount
  have hall : stepFacts r.sessionsPosted s.events.emitted = List.range' 1 limit := by
    have hstart : s.sessionStart = r.sessionStart := by
      rw [← show r₁.sessionStart = r.sessionStart by rw [← hr₁]]
      exact congrArg StepCount.sessionStart hcount
    have hdone : s.stepsCompleted = limit := by
      have : s.stepsCompleted = r₁.stepsCompleted + (limit + 1 - (r.stepsCompleted + 1)) :=
        congrArg StepCount.stepsCompleted hcount
      rw [this, hcompleted]
      omega
    rw [← hposted, hcounted'.counted (by rwa [hposted]) (by rwa [hstart]), hdone]
  refine ⟨?_, .of_stopped (isRunning_send_stop _ _), ?_⟩
  · refine Numbered.quiet ?_ hquiet
    have hstarts : s.starts = r.starts := by
      rw [← show r₁.starts = r.starts by rw [← hr₁]]
      exact congrArg StepCount.starts hcount
    have hsessions : s.failedSessions = r.failedSessions ++ [r.sessionsPosted] := by
      rw [← show r₁.failedSessions = r.failedSessions ++ [r.sessionsPosted] by rw [← hr₁]]
      exact congrArg StepCount.failedSessions hcount
    have hfailed : s.stepsFailed = true := by
      rw [← show r₁.stepsFailed = true by rw [← hr₁]]
      exact congrArg StepCount.stepsFailed hcount
    constructor
    case counted => exact hcounted'
    case failed =>
      rw [hsessions, hstarts, hposted, hfailed]
      intro σ hσ
      by_cases hcurrent : σ = r.sessionsPosted
      · subst hcurrent
        exact ⟨r.sessionStart, limit, hpos, h.counted.current hpos, hsteps, hall, fun _ => rfl⟩
      · have hold : σ ∈ r.failedSessions := by
          rcases List.mem_append.mp hσ with hσ | hσ
          · exact hσ
          · exact absurd (List.mem_singleton.mp hσ) hcurrent
        obtain ⟨start, limit', hpos', hstart, hsteps', hfacts', -⟩ := h.failed σ hold
        refine ⟨start, limit', hpos', hstart, hsteps', ?_, fun _ => rfl⟩
        rw [hfacts σ (by rwa [← hr₁]), ← hr₁]
        exact hfacts'
    case requested =>
      rw [hposted, show s.startingRequestIds = r.startingRequestIds by
        rw [← show r₁.startingRequestIds = r.startingRequestIds by rw [← hr₁]]
        exact congrArg StepCount.startingRequestIds hcount, show s.requests = r.requests by
        rw [← show r₁.requests = r.requests by rw [← hr₁]]
        exact congrArg StepCount.requests hcount]
      exact h.requested
  · rw [hquiet.facts, hall, List.mem_range'_1]
    have := limit.property.1
    omega

/-- A failed command journals an error, and fails the remaining steps if it is one of the session's
own starting commands. -/
theorem emitHandlerFailure (h : Numbered r) (hbelow : Below r) (connId : ConnId) (requestId : ℕ)
    (message : String) (saved : Bool) :
    Numbered (r.emitHandlerFailure recording connId requestId message saved) ∧
      Below (r.emitHandlerFailure recording connId requestId message saved) ∧
      (r.machine.state.isRunning →
        (r.emitHandlerFailure recording connId requestId message saved).machine.state.isRunning =
          false →
        ∀ limit : Steps, r.sessionStart.steps = some limit →
          limit.val ∈ stepFacts r.sessionsPosted
            (r.emitHandlerFailure recording connId requestId message saved).events.emitted) := by
  have hquiet : Quiet r (r.send recording .error .fact) :=
    quiet_send r .error .fact (by decide) (by decide)
  have hkept : Kept r (r.send recording .error .fact) :=
    kept_send r .error .fact (by decide) (by decide) (by decide)
  have hposted := congrArg StepCount.sessionsPosted hquiet.count
  have hsessionStart := congrArg StepCount.sessionStart hquiet.count
  unfold Runner.emitHandlerFailure
  generalize r.send recording .error .fact = r₁ at hquiet hkept hposted hsessionStart
  have hposted : r₁.sessionsPosted = r.sessionsPosted := hposted
  have hsessionStart : r₁.sessionStart = r.sessionStart := hsessionStart
  have hstays (hrunning : r.machine.state.isRunning) (hstopped : r₁.machine.state.isRunning = false)
      (p : Prop) : p := by
    rw [hkept.running hrunning] at hstopped
    cases hstopped
  dsimp only
  split
  · exact ⟨h.quiet hquiet, hbelow.quiet hquiet, fun hrunning hstopped _ _ =>
      hstays hrunning hstopped _⟩
  next limit hsteps =>
    split_ifs with hfails
    · rw [Bool.and_eq_true, failsRemainingSteps, Bool.and_eq_true, Bool.and_eq_true, runsUnattended,
        Bool.and_eq_true, decide_eq_true_iff] at hfails
      have hstreamed : r₁.sessionStart.generation = .streamed := by
        cases hgeneration : r₁.sessionStart.generation with
        | streamed => rfl
        | stepped => exact absurd hgeneration hfails.1.1.1.2
      obtain ⟨hnumbered, hlow, hmem⟩ := (h.quiet hquiet).failRemainingSteps recording
        (hbelow.quiet hquiet) hfails.2 hstreamed hsteps message saved
      refine ⟨hnumbered, hlow, fun _ _ limit' hsteps' => ?_⟩
      rw [hsessionStart, hsteps'] at hsteps
      cases hsteps
      rwa [hposted] at hmem
    · exact ⟨h.quiet hquiet, hbelow.quiet hquiet, fun hrunning hstopped _ _ =>
        hstays hrunning hstopped _⟩

/-! ### A starting input, and a start -/

theorem applyStartingInput (h : Numbered r) (hbelow : Below r) (task : StartingTask)
    (refusal : Option String) :
    Numbered (r.applyStartingInput recording task refusal).1 ∧
      Below (r.applyStartingInput recording task refusal).1 := by
  have hfinish : Quiet r (r.finishStartingInput recording task) := quiet_finishStartingInput r task
  unfold Runner.applyStartingInput
  split
  · exact ⟨h.quiet hfinish, hbelow.quiet hfinish⟩
  · split_ifs
    · exact ⟨h.quiet hfinish, hbelow.quiet hfinish⟩
    · -- a request of this session is made
      refine ⟨⟨?_, h.failed, ?_⟩, hbelow⟩
      · exact ⟨h.counted.sessions, h.counted.starts, h.counted.current, h.counted.began,
          h.counted.counted, h.counted.past⟩
      · intro id hid
        show (r.requests ++ [r.sessionsPosted])[id]? = some r.sessionsPosted
        rcases Finset.mem_insert.mp hid with rfl | hid
        · exact List.getElem?_concat_length
        · have hid := h.requested id hid
          rw [List.getElem?_append_left (List.getElem?_eq_some_iff.mp hid).1]
          exact hid
  · cases refusal with
    | none =>
      have hquiet : Quiet r (r.send recording .command .fact) :=
        quiet_send r .command .fact (by decide) (by decide)
      exact ⟨h.quiet hquiet, hbelow.quiet hquiet⟩
    | some refusal =>
      have hquiet : Quiet r (r.send recording .error .fact) :=
        quiet_send r .error .fact (by decide) (by decide)
      dsimp only
      split_ifs
      · have hstop : Quiet _ ((r.send recording .error .fact).send recording .stopSession
            (.ending .startRefused refusal)) := quiet_send _ _ _ (by decide) (by decide)
        have hdone : Quiet _ (((r.send recording .error .fact).send recording .stopSession
            (.ending .startRefused refusal)).finishStartingInput recording task) :=
          quiet_finishStartingInput _ task
        have hend := (hquiet.trans hstop).trans hdone
        exact ⟨h.quiet hend, hbelow.quiet hend⟩
      · exact ⟨h.quiet hquiet, hbelow.quiet hquiet⟩

theorem started (h : Numbered r) (hready : r.machine.state = .ready) (params : SessionParams)
    (drawn : Drawn) (epochs : OfferEpochs) (done : StartingInputDone) :
    Numbered { r.started recording params drawn with
      offerEpochs := epochs
      startingInputDone := done
      stepsCompleted := 0
      startingRequestIds := ∅
      stepsFailed := false } := by
  obtain ⟨hsessionStart, -, hstarts, hposted, -⟩ := started_fields recording hready params drawn
  have hsessions : (r.started recording params drawn).failedSessions = r.failedSessions :=
    failedSessions_move ..
  have htransition := isSessionStart_started hready (.params params drawn)
  have hevents : (r.started recording params drawn).events.emitted = r.events.emitted ++
      [r.transition { state := .waiting } .startSession (.params params drawn)] := by
    rw [Runner.started, events_move, EventStream.emitted_emit]
  have hfacts (σ : ℕ) : stepFacts σ (r.started recording params drawn).events.emitted =
      stepFacts σ r.events.emitted := by
    rw [hevents]
    exact stepFacts_concat_of_ne (.inl htransition)
  constructor
  case counted =>
    constructor
    case sessions =>
      show sessionsIn (r.started recording params drawn).events.emitted =
        (r.started recording params drawn).sessionsPosted
      rw [hevents, sessionsIn_concat, htransition, hposted, h.counted.sessions]
      rfl
    case starts =>
      show (r.started recording params drawn).starts.length =
        (r.started recording params drawn).sessionsPosted
      rw [hstarts, hposted, List.length_append, h.counted.starts]
      rfl
    case current =>
      intro _
      show (r.started recording params drawn).starts[
        (r.started recording params drawn).sessionsPosted - 1]? =
          some (r.started recording params drawn).sessionStart
      rw [hstarts, hposted, hsessionStart, Nat.add_sub_cancel, ← h.counted.starts]
      exact List.getElem?_concat_length
    case began =>
      intro _
      show 0 < (r.started recording params drawn).sessionsPosted
      rw [hposted]
      exact Nat.succ_pos _
    case counted =>
      intro _ _
      show stepFacts (r.started recording params drawn).sessionsPosted
        (r.started recording params drawn).events.emitted = []
      rw [hfacts, hposted, stepFacts_eq_nil]
      rw [h.counted.sessions]
      exact Nat.lt_succ_self _
    case past =>
      intro σ start hlt hstart hstreamed
      have hlt : σ + 1 < (r.started recording params drawn).sessionsPosted := hlt
      have hstart : (r.started recording params drawn).starts[σ]? = some start := hstart
      show ∃ n, stepFacts (σ + 1) (r.started recording params drawn).events.emitted = _
      rw [hposted] at hlt
      rw [hstarts, List.getElem?_append_left (by rw [h.counted.starts]; omega)] at hstart
      rw [hfacts]
      by_cases hlast : σ + 1 < r.sessionsPosted
      · exact h.counted.past σ start hlast hstart hstreamed
      · -- the session that was the last one
        have heq : σ + 1 = r.sessionsPosted := by omega
        have hcurrent := h.counted.current (by omega)
        rw [← heq, Nat.add_sub_cancel, hstart] at hcurrent
        rw [Option.some.inj hcurrent] at hstreamed
        exact ⟨_, heq ▸ h.counted.counted (by omega) hstreamed⟩
  case failed =>
    intro σ hσ
    have hσ : σ ∈ (r.started recording params drawn).failedSessions := hσ
    rw [hsessions] at hσ
    obtain ⟨start, limit, hpos, hstart, hsteps, hall, -⟩ := h.failed σ hσ
    have hlt := (List.getElem?_eq_some_iff.mp hstart).1
    refine ⟨start, limit, hpos, ?_, hsteps, (hfacts σ).trans hall, ?_⟩
    · show (r.started recording params drawn).starts[σ - 1]? = some start
      rw [hstarts, List.getElem?_append_left hlt]
      exact hstart
    · intro heq
      have heq : σ = (r.started recording params drawn).sessionsPosted := heq
      rw [hposted] at heq
      rw [h.counted.starts] at hlt
      omega
  case requested => exact fun id hid => absurd hid (Finset.notMem_empty id)

end Numbered

/-! ### A run -/

theorem quiet_beginSessionInputs (r : Runner) :
    Quiet { r with
      startingInputDone := { number := r.startingInputDone.number + 1, isSet := false }
      stepsCompleted := 0
      startingRequestIds := ∅
      stepsFailed := false } (r.beginSessionInputs recording) := by
  have hend (s : Runner) (number : ℕ) : Quiet s (s.spawnStartingInput number) := by
    unfold spawnStartingInput
    split <;> exact .of_eq rfl rfl rfl
  unfold beginSessionInputs
  dsimp only
  split_ifs
  · exact (quiet_register _ SystemConnection true _).trans (hend _ _)
  · exact hend _ _

theorem numbered_startSession (h : Numbered r) (hbelow : Below r) (params : SessionParams)
    (drawn : Drawn) : Numbered (r.startSession recording params drawn) ∧
      Below (r.startSession recording params drawn) := by
  rcases startSession_eq recording r params drawn with hsame | ⟨hready, heq⟩
  · rw [hsame]
    exact ⟨h, hbelow⟩
  · have hquiet : Quiet _ ({ r.started recording params drawn with
        offerEpochs := (r.started recording params drawn).offerEpochs.sessionStarted
      }.beginSessionInputs recording) := quiet_beginSessionInputs _
    rw [heq]
    refine ⟨(h.started hready params drawn _ _).quiet hquiet, Below.quiet ?_ hquiet⟩
    exact fun _ _ limit _ => limit.property.1

theorem numbered_next {label : Label} (h : Numbered r) (hbelow : Below r)
    (hnext : next recording r label = some r') : Numbered r' ∧ Below r' := by
  have hquiet {r' : Runner} (hquiet : Quiet r r') : Numbered r' ∧ Below r' :=
    ⟨h.quiet hquiet, hbelow.quiet hquiet⟩
  cases label with
  | initializing =>
    cases hnext
    exact hquiet (quiet_send r _ _ (by decide) (by decide))
  | initialized success =>
    cases hnext
    cases success <;> exact hquiet (quiet_send r _ _ (by decide) (by decide))
  | startSession params drawn =>
    cases hnext
    exact numbered_startSession h hbelow params drawn
  | offerAdmitted connId =>
    simp only [next] at hnext
    split_ifs at hnext
    cases hnext
    exact hquiet (.of_eq rfl rfl rfl)
  | connectionOpened conn =>
    simp only [next] at hnext
    split_ifs at hnext
    cases hnext
    have hconsumed : Quiet r { r with
        offers := r.offers.erase conn.id, offerEpochs := r.offerEpochs.consume conn.id } :=
      .of_eq rfl rfl rfl
    unfold connectionOpened
    dsimp only
    split_ifs
    · exact hquiet hconsumed
    · exact hquiet (hconsumed.trans (quiet_register _ conn false true))
  | connectionClosed connId =>
    cases hnext
    exact hquiet (quiet_drop r connId)
  | connectionAnswered connId =>
    cases hnext
    exact hquiet (quiet_send r _ _ (by decide) (by decide))
  | startingInput task refusal =>
    simp only [next] at hnext
    split at hnext
    · cases hnext
    next t ht =>
      cases hnext
      obtain ⟨hnumbered, hlow⟩ : Numbered (r.applyStartingInput recording t refusal).1 ∧
        Below (r.applyStartingInput recording t refusal).1 := h.applyStartingInput hbelow t refusal
      exact ⟨hnumbered.quiet (.of_eq rfl rfl rfl), hlow.quiet (.of_eq rfl rfl rfl)⟩
  | recordStep step saved =>
    simp only [next] at hnext
    split_ifs at hnext with hstepped
    cases hnext
    obtain ⟨hnumbered, hlow, -⟩ := h.recordStep hbelow saved hstepped
    exact ⟨hnumbered, hlow⟩
  | handlerFailed connId requestId message saved =>
    cases hnext
    obtain ⟨hnumbered, hlow, -⟩ := h.emitHandlerFailure hbelow connId requestId message saved
    exact ⟨hnumbered, hlow⟩
  | stopSession reason closeReason =>
    cases hnext
    exact hquiet (quiet_send r _ _ (by decide) (by decide))
  | timeout =>
    cases hnext
    exact hquiet (quiet_send r _ _ (by decide) (by decide))
  | evicted =>
    cases hnext
    exact hquiet (quiet_send r _ _ (by decide) (by decide))
  | journal event =>
    simp only [next] at hnext
    split_ifs at hnext with hevent
    cases hnext
    refine hquiet (quiet_send r event _ ?_ hevent.2)
    rintro rfl
    exact absurd hevent.1 (by decide)
  | teardown task =>
    simp only [next] at hnext
    split at hnext
    · cases hnext
    next t ht =>
      cases hnext
      have hteardown : Quiet r (r.teardown recording t).1 := by
        unfold teardown
        split_ifs
        · exact .of_eq rfl rfl rfl
        · split
          · exact Quiet.refl r
          · exact quiet_send r _ _ (by decide) (by decide)
      exact hquiet (hteardown.trans (.of_eq rfl rfl rfl))
  | stopRecorder stop =>
    simp only [next] at hnext
    split at hnext
    · cases hnext
    · cases hnext
      exact hquiet (.of_eq rfl rfl rfl)

theorem isInvariant_numbered : (runner recording).IsInvariant fun r => Numbered r ∧ Below r where
  init := ⟨numbered_init, .of_stopped rfl⟩
  step _ _ _ h hnext := numbered_next h.1 h.2 hnext

theorem limit_mem_of_ended {label : Label} (h : Numbered r) (hbelow : Below r)
    (hnext : next recording r label = some r') (hends : label.ends = false)
    (hrunning : r.machine.state.isRunning) (hstopped : r'.machine.state.isRunning = false)
    (hstreamed : r.sessionStart.generation = .streamed) {limit : Steps}
    (hlimit : r.sessionStart.steps = some limit) :
    limit.val ∈ stepFacts r.sessionsPosted r'.events.emitted := by
  have hkept {p : Prop} (hkept : Kept r r') : p := by
    rw [hkept.running hrunning] at hstopped
    cases hstopped
  cases label with
  | initializing =>
    cases hnext
    exact hkept (kept_send r _ _ (by decide) (by decide) (by decide))
  | initialized success =>
    cases hnext
    cases success <;> exact hkept (kept_send r _ _ (by decide) (by decide) (by decide))
  | startSession params drawn =>
    cases hnext
    exact hkept (kept_startSession r params drawn)
  | offerAdmitted connId =>
    simp only [next] at hnext
    split_ifs at hnext
    cases hnext
    exact hkept ⟨rfl, id⟩
  | connectionOpened conn =>
    simp only [next] at hnext
    split_ifs at hnext
    cases hnext
    exact hkept (kept_connectionOpened r conn)
  | connectionClosed connId =>
    cases hnext
    exact hkept (kept_drop r connId)
  | connectionAnswered connId =>
    cases hnext
    exact hkept (kept_send r _ _ (by decide) (by decide) (by decide))
  | startingInput task refusal =>
    cases refusal with
    | some refusal => cases hends
    | none =>
      simp only [next] at hnext
      split at hnext
      · cases hnext
      next t ht =>
        cases hnext
        exact hkept ((kept_applyStartingInput r t).trans ⟨rfl, id⟩)
  | recordStep step saved =>
    simp only [next] at hnext
    split_ifs at hnext with hstepped
    cases hnext
    exact (h.recordStep hbelow saved hstepped).2.2 hrunning hstopped hstreamed limit hlimit
  | handlerFailed connId requestId message saved =>
    cases hnext
    exact (h.emitHandlerFailure hbelow connId requestId message saved).2.2 hrunning hstopped limit
      hlimit
  | stopSession reason closeReason => cases hends
  | timeout => cases hends
  | evicted => cases hends
  | journal event =>
    simp only [next] at hnext
    split_ifs at hnext with hevent
    cases hnext
    rw [send_fact_eq r event _ (.inr hevent.1)] at hkept
    exact hkept (kept_move r.machine event _ id id)
  | teardown task =>
    simp only [next] at hnext
    split at hnext
    · cases hnext
    next t ht =>
      cases hnext
      have hteardown : Kept r (r.teardown recording t).1 := by
        unfold teardown
        split_ifs
        · exact ⟨rfl, id⟩
        · split
          · exact Kept.refl r
          · exact kept_send r _ _ (by decide) (by decide) (by decide)
      exact hkept (hteardown.trans ⟨rfl, id⟩)
  | stopRecorder stop =>
    simp only [next] at hnext
    split at hnext
    · cases hnext
    · cases hnext
      exact hkept ⟨rfl, id⟩

theorem act_session {cause : Cause} (hact : Act recording cause r r') :
    r'.sessionsPosted = r.sessionsPosted ∧ r'.sessionStart = r.sessionStart := by
  have hquiet (h : Quiet r r') :
      r'.sessionsPosted = r.sessionsPosted ∧ r'.sessionStart = r.sessionStart :=
    ⟨congrArg StepCount.sessionsPosted h.count, congrArg StepCount.sessionStart h.count⟩
  cases hact with
  | same hsame => exact ⟨hsame.sessionsPosted, hsame.sessionStart⟩
  | event detail hconnection hstart hcleanup hsend =>
    obtain ⟨-, -, hsessionStart, -, hposted⟩ := move_of_not_start recording r _ _ _
      (isSessionStart_eq_false _ _ detail r (SessionStateMachine.isRunning_of_send hstart hsend))
    exact ⟨hposted, hsessionStart⟩
  | register conn system occupies _ => exact hquiet (quiet_register r conn system occupies)
  | drop cid => exact hquiet (quiet_drop r cid)
  | clear _ _ => exact ⟨rfl, rfl⟩
  | cleanup reason _ _ _ hsend =>
    obtain ⟨-, -, hsessionStart, -, hposted⟩ := move_of_not_start recording r _ _ _
      (isSessionStart_eq_false _ .cleanupComplete (.ending reason "") r
        (SessionStateMachine.isRunning_of_send (by decide) hsend))
    exact ⟨hposted, hsessionStart⟩
  | discard => exact ⟨rfl, rfl⟩

/-- While a session runs, no step begins another one. -/
theorem next_session {label : Label} (hoffered : r.Offered)
    (hrunning : r.machine.state.isRunning) (hnext : next recording r label = some r') :
    r'.sessionsPosted = r.sessionsPosted ∧ r'.sessionStart = r.sessionStart := by
  refine next_preserves (I := fun s => s.sessionsPosted = r.sessionsPosted ∧
    s.sessionStart = r.sessionStart) ⟨rfl, rfl⟩ hoffered hnext ?_ ?_ ?_
  · intro s s' hs hact
    have := act_session hact
    exact ⟨this.1.trans hs.1, this.2.trans hs.2⟩
  · intro _ _ _ hready
    rw [hready] at hrunning
    cases hrunning
  · rintro stop rfl
    simp only [next] at hnext
    split at hnext
    · cases hnext
    · cases hnext
      exact ⟨rfl, rfl⟩

/-- In streamed sessions the steps of a session are numbered from 1 with none missing; a session
with a limit is stopped by a step of the runner exactly when the step of its limit is journalled
while it runs; a session whose remaining steps failed has exactly the steps up to its limit; and
neither a report nor a failed command of another session touches the steps or the session. -/
theorem step_numbering (h : (runner recording).Reachable r) :
    (∀ σ start, r.starts[σ]? = some start → start.generation = .streamed →
      ∃ n, stepFacts (σ + 1) r.events.emitted = List.range' 1 n) ∧
    (∀ label r', next recording r label = some r' → label.ends = false →
      r.machine.state.isRunning → r.sessionStart.generation = .streamed →
        ∀ limit : Steps, r.sessionStart.steps = some limit →
          (r'.machine.state.isRunning = false ↔
            limit.val ∈ stepFacts r.sessionsPosted r'.events.emitted)) ∧
    (∀ σ ∈ r.failedSessions, ∃ start, ∃ limit : Steps, r.starts[σ - 1]? = some start ∧
      start.steps = some limit ∧ stepFacts σ r.events.emitted = List.range' 1 limit) ∧
    (∀ step saved, step.session ≠ r.sessionsPosted → r.recordStep recording step saved = r) ∧
    (∀ connId requestId message saved, r.requests[requestId]? ≠ some r.sessionsPosted →
      Quiet r (r.emitHandlerFailure recording connId requestId message saved) ∧
        (r.emitHandlerFailure recording connId requestId message saved).machine = r.machine) := by
  obtain ⟨hr, hbelow⟩ := isInvariant_numbered.of_reachable h
  refine ⟨?_, ?_, ?_, ?_, ?_⟩
  · intro σ start hstart hstreamed
    have hlt := (List.getElem?_eq_some_iff.mp hstart).1
    rw [hr.counted.starts] at hlt
    by_cases hlast : σ + 1 < r.sessionsPosted
    · exact hr.counted.past σ start hlast hstart hstreamed
    · have heq : σ + 1 = r.sessionsPosted := by omega
      have hcurrent := hr.counted.current (by omega)
      rw [← heq, Nat.add_sub_cancel, hstart] at hcurrent
      rw [Option.some.inj hcurrent] at hstreamed
      exact ⟨_, heq ▸ hr.counted.counted (by omega) hstreamed⟩
  · intro label r' hnext hends hrunning hstreamed limit hlimit
    constructor
    · exact fun hstopped =>
        limit_mem_of_ended hr hbelow hnext hends hrunning hstopped hstreamed hlimit
    · intro hmem
      by_contra hrunning'
      have hrunning' : r'.machine.state.isRunning := by simpa using hrunning'
      obtain ⟨hr', hbelow'⟩ := numbered_next hr hbelow hnext
      obtain ⟨hposted, hsessionStart⟩ :=
        next_session (isInvariant_occupancy.of_reachable h).offered hrunning hnext
      rw [← hposted] at hmem
      rw [← hsessionStart] at hstreamed hlimit
      exact hbelow'.limit_not_mem hr'.counted hrunning' hstreamed hlimit hmem
  · intro σ hσ
    obtain ⟨start, limit, -, hstart, hsteps, hall, -⟩ := hr.failed σ hσ
    exact ⟨start, limit, hstart, hsteps, hall⟩
  · intro step saved hsession
    rw [recordStep, if_pos hsession]
  · intro connId requestId message saved hrequest
    have hid : requestId ∉ r.startingRequestIds := fun hid => hrequest (hr.requested _ hid)
    have hquiet : Quiet r (r.send recording .error .fact) :=
      quiet_send r .error .fact (by decide) (by decide)
    have hmachine : (r.send recording .error .fact).machine = r.machine := by
      rw [send_fact_eq r .error .fact (.inr rfl), machine_move]
    have hfails : (r.send recording .error .fact).failsRemainingSteps connId requestId = false := by
      rw [failsRemainingSteps]
      have hids : (r.send recording .error .fact).startingRequestIds = r.startingRequestIds :=
        congrArg StepCount.startingRequestIds hquiet.count
      rw [hids, decide_eq_false hid, Bool.and_false]
    have heq : r.emitHandlerFailure recording connId requestId message saved =
        r.send recording .error .fact := by
      unfold emitHandlerFailure
      dsimp only
      rw [hfails, Bool.false_and]
      split
      · rfl
      · exact if_neg (by decide)
    rw [heq]
    exact ⟨hquiet, hmachine⟩

/-- A session of three steps whose starting command fails after the first, and a late report. -/
def failedRun : List Label :=
  [.initialized true,
    .startSession { start := {
      startingInput := some [⟨"prompt"⟩], steps := some ⟨3, by decide⟩ } } { uuid := "" },
    .startingInput 0 none, .recordStep { session := 1 } true,
    .handlerFailed SYSTEM_CONN_ID 0 "refused" true, .recordStep { session := 1 } true]

theorem isSome_failedRun : ((runner true).run failedRun).isSome := rfl

theorem step_numbering_failed :
    let r := ((runner true).run failedRun).get isSome_failedRun
    stepFacts 1 r.events.emitted = [1, 2, 3] ∧
      ∃ start, ∃ limit : Steps, r.starts[0]? = some start ∧ start.steps = some limit ∧
        stepFacts 1 r.events.emitted = List.range' 1 limit :=
  ⟨by decide +kernel,
    (step_numbering (TransitionSystem.reachable_get failedRun isSome_failedRun)).2.2.1 1
      (by decide +kernel)⟩

end Runner

end ReactorRuntime.Runtime
