import ReactorRuntime.Runtime.Equiv.Occupancy
import ReactorRuntime.Runtime.Life

/-!
# A session lives one life

A step of the runner is a sequence of moves that the journal tells and the model hears (`Moved`), so
what holds of every path of the session machine holds of every run (`told`).  A session that is torn
down has one teardown, which comes to its end whatever happens beside it (`Unwinds`, `leaves`), and
the orphan timer runs only in a session that waits (`Timed`).

Main results: `lives`, `not_lives`.
-/

namespace ReactorRuntime.Runtime

namespace Runner

variable {recording : Bool} {cause : Cause} {r r' r'' : Runner} {ts ts' : List Transition}

/-! ### The moves of a step -/

/-- What the runner did is a sequence of moves: the journal tells them, and the model hears them. -/
structure Moved (r r' : Runner) (ts : List Transition) : Prop where
  emitted : r'.events.emitted = r.events.emitted ++ ts
  path : Path r.machine.state ts r'.machine.state
  posted : r'.posted.filterMap Path.mark = r.posted.filterMap Path.mark ++ ts.flatMap Path.marks

namespace Moved

theorem of_eq (hmachine : r'.machine = r.machine) (hevents : r'.events = r.events)
    (hposted : r'.posted.filterMap Path.mark = r.posted.filterMap Path.mark) : Moved r r' [] where
  emitted := by rw [hevents, List.append_nil]
  path := by
    rw [hmachine]
    exact .nil _
  posted := by
    rw [hposted]
    exact (List.append_nil _).symm

theorem refl (r : Runner) : Moved r r [] := of_eq rfl rfl rfl

theorem trans (h : Moved r r' ts) (h' : Moved r' r'' ts') : Moved r r'' (ts ++ ts') where
  emitted := by rw [h'.emitted, h.emitted, List.append_assoc]
  path := h.path.append h'.path
  posted := by rw [h'.posted, h.posted, List.append_assoc, List.flatMap_append]

end Moved

def boundaryEvents (r : Runner) (t : Transition) : List ReactorEvent :=
  (if t.isSessionStart then [.sessionStarted r.sessionStart.startingInput.isSome
    (r.sessionStart.generation = .stepped) (r.sessionStart.steps.map Subtype.val)] else []) ++
    (if t.isSessionEnd then [.sessionEnded t.ending.1] else [])

def connectionEvents (r : Runner) (t : Transition) : List ReactorEvent :=
  match t.event, t.detail with
  | .connectionOpened, .connection detail =>
    [.clientConnected detail.connId r.connections.count detail.system]
  | .connectionClosed, .connection detail => [.clientDisconnected detail.connId r.connections.count]
  | _, _ => []

theorem filterMap_boundaryEvents (r : Runner) (t : Transition) :
    (boundaryEvents r t).filterMap Path.mark =
      (if t.isSessionStart then [.started] else []) ++
        (if t.isSessionEnd then [.ended] else []) := by
  unfold boundaryEvents
  cases t.isSessionStart <;> cases t.isSessionEnd <;> rfl

theorem filterMap_connectionEvents (r : Runner) (t : Transition) :
    (connectionEvents r t).filterMap Path.mark =
      match t.detail with
      | .connection _ => if t.event.isConnection then [.connection] else []
      | _ => [] := by
  obtain ⟨event, from', to', detail⟩ := t
  unfold connectionEvents
  cases detail <;> cases event <;> rfl

theorem dispatchReactorEvents_posted (r : Runner) (t : Transition) :
    (r.dispatchReactorEvents t).posted =
      r.posted ++ (boundaryEvents r t ++ connectionEvents r t) := by
  obtain ⟨event, from', to', detail⟩ := t
  have hconnection (r : Runner) :
      (match event, detail with
        | .connectionOpened, .connection detail => { r with
            posted := r.posted ++
              [ReactorEvent.clientConnected detail.connId r.connections.count detail.system] }
        | .connectionClosed, .connection detail => { r with
            posted := r.posted ++
              [ReactorEvent.clientDisconnected detail.connId r.connections.count] }
        | _, _ => r).posted = r.posted ++ connectionEvents r ⟨event, from', to', detail⟩ := by
    cases detail <;> cases event <;> first | rfl | exact (List.append_nil _).symm
  unfold dispatchReactorEvents
  refine (hconnection _).trans ?_
  rw [← List.append_assoc]
  unfold boundaryEvents
  cases Transition.isSessionStart ⟨event, from', to', detail⟩ <;>
    cases Transition.isSessionEnd ⟨event, from', to', detail⟩
  · exact congrArg (· ++ connectionEvents r _) (List.append_nil _).symm
  · rfl
  · rfl
  · exact congrArg (· ++ connectionEvents r _) (List.append_assoc ..)

/-- What the model is told of a move, by the events the listener hands it. -/
theorem posted_dispatchReactorEvents (r : Runner) (t : Transition) :
    (r.dispatchReactorEvents t).posted.filterMap Path.mark =
      r.posted.filterMap Path.mark ++ Path.marks t := by
  rw [dispatchReactorEvents_posted, List.filterMap_append, List.filterMap_append,
    filterMap_boundaryEvents, filterMap_connectionEvents]
  rfl

theorem posted_resolveStart (r : Runner) (t : Transition) :
    (r.resolveStart t).posted = r.posted := by
  rw [resolveStart_frame]

theorem posted_move (r : Runner) (machine : SessionStateMachine) (event : SessionEvent)
    (detail : Detail) :
    (r.move recording machine event detail).posted.filterMap Path.mark =
      r.posted.filterMap Path.mark ++ Path.marks (r.transition machine event detail) := by
  unfold move dispatchTransition
  dsimp only
  rw [enterState_eq, startRecorder_frame]
  show (dispatchReactorEvents _ _).posted.filterMap Path.mark = _
  rw [posted_dispatchReactorEvents]
  show (resolveStart _ _).posted.filterMap Path.mark ++ _ = _
  rw [posted_resolveStart]
  rfl

theorem moved_move {machine : SessionStateMachine} {event : SessionEvent} (detail : Detail)
    (hedge : Edge event r.machine.state machine.state) :
    Moved r (r.move recording machine event detail) [r.transition machine event detail] where
  emitted := by rw [events_move, EventStream.emitted_emit]
  path := by
    rw [machine_move]
    exact .cons (t := r.transition machine event detail) hedge (.nil _)
  posted := by rw [posted_move, List.flatMap_singleton]

/-- What a step does, by what it comes from: only the timer times a session out. -/
def Does (cause : Cause) (r r' : Runner) : Prop :=
  ∃ ts, Moved r r' ts ∧ ∀ t ∈ ts, t.event = .timeout → cause = .timer

theorem Does.trans (h : Does cause r r') (h' : Does cause r' r'') : Does cause r r'' := by
  obtain ⟨ts, hmoved, htimer⟩ := h
  obtain ⟨ts', hmoved', htimer'⟩ := h'
  refine ⟨ts ++ ts', hmoved.trans hmoved', fun t ht => ?_⟩
  rcases List.mem_append.mp ht with ht | ht
  · exact htimer t ht
  · exact htimer' t ht

theorem does_of_eq (hmachine : r'.machine = r.machine) (hevents : r'.events = r.events)
    (hposted : r'.posted.filterMap Path.mark = r.posted.filterMap Path.mark) : Does cause r r' :=
  ⟨[], .of_eq hmachine hevents hposted, fun _ ht => absurd ht List.not_mem_nil⟩

theorem does_move {machine : SessionStateMachine} {event : SessionEvent} (detail : Detail)
    (hedge : Edge event r.machine.state machine.state)
    (htimer : event = .timeout → cause = .timer) :
    Does cause r (r.move recording machine event detail) := by
  refine ⟨_, moved_move detail hedge, fun t ht => ?_⟩
  obtain rfl := List.mem_singleton.mp ht
  exact htimer

theorem does_send (r : Runner) (event : SessionEvent) (detail : Detail)
    (htimer : event = .timeout → cause = .timer) :
    Does cause r (r.send recording event detail) := by
  unfold send
  split
  · exact does_of_eq rfl rfl rfl
  next machine hsend => exact does_move detail (.of_send hsend) htimer

theorem does_sendWithoutOccupancy (r : Runner) {event : SessionEvent} (detail : Detail)
    (hevent : event.isConnection = true) :
    Does cause r (r.sendWithoutOccupancy recording event detail) := by
  unfold sendWithoutOccupancy
  split
  · exact does_of_eq rfl rfl rfl
  next machine hsend =>
    unfold SessionStateMachine.sendWithoutOccupancy at hsend
    split_ifs at hsend with hconnectable
    cases hsend
    rw [isConnectable_eq_isRunning] at hconnectable
    apply does_move detail (.connection hevent hconnectable hconnectable)
    rintro rfl
    cases hevent

theorem does_connections (r : Runner) (connections : ConnectionManager) :
    Does cause r { r with connections } := does_of_eq rfl rfl rfl

theorem does_register (r : Runner) (conn : Connection) (system occupies : Bool) :
    Does cause r (r.register recording conn system occupies) := by
  unfold register
  dsimp only
  split_ifs
  · exact does_connections r _
  · exact (does_connections r _).trans (does_send _ .connectionOpened _ SessionEvent.noConfusion)
  · exact (does_connections r _).trans (does_sendWithoutOccupancy _ _ rfl)

theorem does_drop (r : Runner) (cid : ConnId) : Does cause r (r.drop recording cid) := by
  by_cases hmem : cid ∈ r.connections.byId
  swap
  · rw [drop_of_not_mem hmem]
    exact does_of_eq rfl rfl rfl
  rw [drop, if_neg (not_not.mpr hmem)]
  cases r.connections.details.lookup cid with
  | none => exact does_connections r _
  | some detail =>
    dsimp only
    split_ifs
    · exact (does_connections r _).trans (does_sendWithoutOccupancy _ _ rfl)
    · exact (does_connections r _).trans (does_send _ .connectionClosed _ SessionEvent.noConfusion)

theorem does_act (hact : Act recording cause r r') : Does cause r r' := by
  cases hact with
  | same hsame => exact does_of_eq hsame.machine hsame.events hsame.posted
  | event detail _ _ _ hsend htimer => exact does_move detail (.of_send hsend) htimer
  | register conn system occupies _ => exact does_register r conn system occupies
  | drop cid => exact does_drop r cid
  | clear => exact does_of_eq rfl rfl rfl
  | cleanup reason _ _ _ hsend =>
    exact (does_move (.ending reason "") (.of_send hsend) SessionEvent.noConfusion).trans
      (does_of_eq rfl rfl rfl)
  | discard => exact does_of_eq rfl rfl rfl

theorem does_started (hready : r.machine.state = .ready) (params : SessionParams) (drawn : Drawn) :
    Does cause r (r.started recording params drawn) := by
  have hedge : Edge .startSession r.machine.state .waiting := by
    rw [hready]
    exact .start
  exact does_move (.params params drawn) hedge SessionEvent.noConfusion

theorem does_next {label : Label} (hoffered : r.Offered)
    (hnext : next recording r label = some r') : Does label.cause r r' := by
  refine next_preserves (I := Does label.cause r) (does_of_eq rfl rfl rfl) hoffered hnext ?_ ?_ ?_
  · exact fun r₁ r₂ h hact => h.trans (does_act hact)
  · exact fun params drawn _ hready => does_started hready params drawn
  · rintro stop rfl
    simp only [next] at hnext
    split at hnext
    · cases hnext
    · cases hnext
      exact does_of_eq rfl rfl rfl

/-- The journal of a run is a path of the machine, and the model heard of each of its moves. -/
theorem isInvariant_told :
    (runner recording).IsInvariant fun r => Occupancy r ∧ Moved {} r r.events.emitted := by
  refine isInvariant_occupancy.and (.refl _) ?_
  intro r label r' hr htold hnext
  obtain ⟨ts, hmoved, -⟩ := does_next hr.offered hnext
  rw [hmoved.emitted]
  exact htold.trans hmoved

/-! ### The teardown of a session -/

/-- A session that is torn down has one teardown, which makes the runner ready. -/
def Unwinds (r : Runner) : Prop :=
  r.machine.state = .closing → ∃ task, r.teardowns = [task] ∧ task.cleanup.isSome = true

/-- A loss is no news where no session runs. -/
theorem drop_of_not_running (recording : Bool) (hrunning : r.machine.state.isRunning = false)
    (cid : ConnId) :
    (r.drop recording cid).machine = r.machine ∧
      (r.drop recording cid).teardowns = r.teardowns := by
  have hsend (r : Runner) (hrunning : r.machine.state.isRunning = false) (detail : Detail) :
      r.send recording .connectionClosed detail = r := by
    have hne : r.machine.state ≠ .streaming := by
      intro h
      rw [h] at hrunning
      cases hrunning
    rw [send, SessionStateMachine.send, SessionStateMachine.resolve, if_pos hne]
    rfl
  have hwithout (r : Runner) (hrunning : r.machine.state.isRunning = false) (detail : Detail) :
      r.sendWithoutOccupancy recording .connectionClosed detail = r := by
    rw [sendWithoutOccupancy, SessionStateMachine.sendWithoutOccupancy,
      isConnectable_eq_isRunning, hrunning]
    rfl
  by_cases hmem : cid ∈ r.connections.byId
  swap
  · rw [drop_of_not_mem hmem]
    exact ⟨rfl, rfl⟩
  rw [drop, if_neg (not_not.mpr hmem)]
  cases r.connections.details.lookup cid with
  | none => exact ⟨rfl, rfl⟩
  | some detail =>
    dsimp only
    split_ifs
    · rw [hwithout { r with connections := r.connections.remove cid } hrunning]
      exact ⟨rfl, rfl⟩
    · rw [hsend { r with connections := r.connections.remove cid } hrunning]
      exact ⟨rfl, rfl⟩

namespace Unwinds

theorem of_eq (h : Unwinds r) (hmachine : r'.machine = r.machine)
    (hteardowns : r'.teardowns = r.teardowns) : Unwinds r' := by
  unfold Unwinds
  rw [hmachine, hteardowns]
  exact h

theorem of_isRunning (hrunning : r.machine.state.isRunning = true) : Unwinds r :=
  fun hclosing => absurd hclosing (Occupancy.ne_of_isRunning hrunning).2.2.1

/-- The event that leads into `CLOSING` spawns the teardown. -/
theorem event (h : Unwinds r) (hr : Occupancy r) {event : SessionEvent}
    {machine : SessionStateMachine} (detail : Detail) (hconnection : event.isConnection = false)
    (hstart : event ≠ .startSession) (hcleanup : event ≠ .cleanupComplete)
    (hsend : r.machine.send event = some machine) :
    Unwinds (r.move recording machine event detail) := by
  rcases SessionStateMachine.send_eq_some_cases hconnection hstart hcleanup hsend with
    rfl | ⟨-, rfl | rfl⟩ | ⟨hrunning, rfl⟩ | rfl
  · exact h.of_eq (machine_move ..) (teardowns_move_of_eq _ _ _ _ _ rfl)
  · intro hclosing
    rw [machine_move] at hclosing
    cases hclosing
  · intro hclosing
    rw [machine_move] at hclosing
    cases hclosing
  · intro _
    obtain ⟨-, -, hclosing, hterminated⟩ := Occupancy.ne_of_isRunning hrunning
    have hteardowns := teardowns_move_of_closing recording r { state := .closing } event detail
      hclosing rfl
    rw [hr.teardowns_eq_nil hterminated hclosing] at hteardowns
    exact ⟨_, hteardowns, rfl⟩
  · intro hclosing
    rw [machine_move] at hclosing
    cases hclosing

theorem act (h : Unwinds r) (hr : Occupancy r) (hact : Act recording cause r r') :
    Unwinds r' := by
  cases hact with
  | same hsame => exact h.of_eq hsame.machine hsame.teardowns
  | event detail hconnection hstart hcleanup hsend =>
    exact h.event hr detail hconnection hstart hcleanup hsend
  | register conn system occupies hrunning =>
    by_cases hmem : conn.id ∈ r.connections.byId
    · rw [register_of_mem hmem]
      exact h.of_eq rfl rfl
    · rw [register_of_not_mem hmem hrunning]
      apply of_isRunning
      rw [machine_move, opened]
      split_ifs
      · rfl
      · exact hrunning
  | drop cid =>
    cases hrunning : r.machine.state.isRunning
    · obtain ⟨hmachine, hteardowns⟩ := drop_of_not_running recording hrunning cid
      exact h.of_eq hmachine hteardowns
    · by_cases hmem : cid ∈ r.connections.byId
      swap
      · rw [drop_of_not_mem hmem]
        exact h
      obtain ⟨detail, -, hdrop⟩ := drop_of_mem recording hr.consistent hmem
      rw [hdrop, if_pos (hr.told hmem hrunning)]
      apply of_isRunning
      rw [machine_move, closed]
      split_ifs
      · rfl
      · rfl
      · exact hrunning
  | @clear i task hi _ _ =>
    intro hclosing
    obtain ⟨task', htask, hcleanup⟩ := h hclosing
    rw [htask] at hi
    obtain ⟨rfl, rfl⟩ : i = 0 ∧ task' = task := by
      cases i with
      | zero => exact ⟨rfl, Option.some.inj hi⟩
      | succ i => cases hi
    refine ⟨{ task' with cleared := true }, ?_, hcleanup⟩
    show r.teardowns.set 0 _ = _
    rw [htask]
    rfl
  | cleanup reason _ _ _ hsend =>
    intro hclosing
    obtain ⟨-, rfl⟩ := SessionStateMachine.send_cleanup_eq_some hsend
    have hclosing : (r.move recording { state := .ready } .cleanupComplete
      (.ending reason "")).machine.state = .closing := hclosing
    rw [machine_move] at hclosing
    cases hclosing
  | discard hi hidle =>
    intro hclosing
    obtain ⟨task', htask, hcleanup⟩ := h hclosing
    have hmem := List.mem_of_getElem? hi
    rw [htask, List.mem_singleton] at hmem
    rw [← hmem, hidle hclosing] at hcleanup
    cases hcleanup

end Unwinds

theorem isInvariant_unwinds :
    (runner recording).IsInvariant fun r => Occupancy r ∧ Unwinds r := by
  refine isInvariant_of_acts ⟨occupancy_init, fun h => nomatch h⟩ (fun r h => h.1.offered)
    (fun _ r r' h hact => ⟨h.1.act hact, h.2.act h.1 hact⟩) ?_ ?_
  · intro r params drawn h hready
    refine ⟨h.1.started hready params drawn, Unwinds.of_isRunning ?_⟩
    rw [Runner.started, machine_move]
    rfl
  · intro r stop r' h hnext
    simp only [next] at hnext
    split at hnext
    · cases hnext
    · cases hnext
      exact ⟨h.1.of_eq rfl rfl rfl h.1.offered, h.2.of_eq rfl rfl⟩

def actionsLeft (r : Runner) : ℕ :=
  match r.teardowns with
  | [task] => if task.cleared then 1 else 2
  | _ => 0

theorem actionsLeft_of_eq {task : Teardown} (h : r.teardowns = [task]) :
    r.actionsLeft = if task.cleared then 1 else 2 := by
  rw [actionsLeft, h]

/-- Beside its teardown, a session that is torn down stays so until an eviction. -/
theorem closing_act {tasks : List Teardown} (hcause : cause ≠ .teardown)
    (h : r.machine.state = .closing ∧ r.teardowns = tasks ∨ r.machine.state = .terminated)
    (hact : Act recording cause r r') :
    r'.machine.state = .closing ∧ r'.teardowns = tasks ∨ r'.machine.state = .terminated := by
  have hrunning : r.machine.state.isRunning = false := by
    rcases h with ⟨h, -⟩ | h <;> rw [h] <;> rfl
  have hcreated : r.machine.state ≠ .created := by
    rcases h with ⟨h, -⟩ | h <;> rw [h] <;> exact nofun
  cases hact with
  | same hsame =>
    rw [hsame.machine, hsame.teardowns]
    exact h
  | event detail hconnection hstart hcleanup hsend =>
    rw [machine_move]
    rcases SessionStateMachine.send_eq_some_cases hconnection hstart hcleanup hsend with
      rfl | ⟨h', -⟩ | ⟨h', -⟩ | rfl
    · rw [teardowns_move_of_eq _ _ _ _ _ rfl]
      exact h
    · exact absurd h' hcreated
    · rw [h'] at hrunning
      cases hrunning
    · exact .inr rfl
  | register conn system occupies h' =>
    rw [h'] at hrunning
    cases hrunning
  | drop cid =>
    obtain ⟨hmachine, hteardowns⟩ := drop_of_not_running recording hrunning cid
    rw [hmachine, hteardowns]
    exact h
  | clear _ _ h' => exact absurd h' hcause
  | cleanup _ _ _ _ _ h' => exact absurd h' hcause
  | discard _ _ h' => exact absurd h' hcause

/-- Whether a step is an action of a teardown. -/
def isTeardown : Label → Bool
  | .teardown _ => true
  | _ => false

theorem closing_teardown {i : ℕ} (h : Unwinds r) (hclosing : r.machine.state = .closing)
    (hnext : next recording r (.teardown i) = some r') :
    r'.machine.state = .ready ∨
      r'.machine.state = .closing ∧ r'.actionsLeft + 1 = r.actionsLeft := by
  obtain ⟨task, htask, hcleanup⟩ := h hclosing
  obtain ⟨reason, hreason⟩ := Option.isSome_iff_exists.mp hcleanup
  simp only [next, htask] at hnext
  cases i with
  | succ i => cases hnext
  | zero =>
    simp only [List.getElem?_cons_zero] at hnext
    cases hnext
    unfold teardown
    cases hcleared : task.cleared
    · -- the registry is emptied
      refine .inr ⟨hclosing, ?_⟩
      have hset : r.teardowns.set 0 { task with cleared := true } =
          [{ task with cleared := true }] := by
        rw [htask]
        rfl
      have hleft := actionsLeft_of_eq (r := { r with
        connections := r.connections.clear
        teardowns := r.teardowns.set 0 { task with cleared := true } }) hset
      rw [actionsLeft_of_eq htask, hcleared]
      exact congrArg (· + 1) hleft
    · -- the wires are closed
      left
      rw [if_neg (by decide), hreason]
      have hsend : r.machine.send .cleanupComplete = some { state := .ready } := by
        show Option.map _ (TRANSITIONS .cleanupComplete r.machine.state) = _
        rw [hclosing]
        rfl
      show (r.send recording .cleanupComplete (.ending reason "")).machine.state = .ready
      rw [send, hsend]
      exact congrArg SessionStateMachine.state (machine_move ..)

/-- What a step does while a session is torn down: each action of the teardown is one less. -/
theorem closing_next {label : Label} (hr : Occupancy r) (h : Unwinds r)
    (hclosing : r.machine.state = .closing) (hnext : next recording r label = some r') :
    r'.machine.state = .ready ∨ r'.machine.state = .terminated ∨
      r'.machine.state = .closing ∧
        r'.actionsLeft + (if isTeardown label then 1 else 0) = r.actionsLeft := by
  cases hlabel : isTeardown label
  · have hcause : label.cause ≠ .teardown := by
      cases label <;> first | exact Cause.noConfusion | cases hlabel
    have hstays : r'.machine.state = .closing ∧ r'.teardowns = r.teardowns ∨
        r'.machine.state = .terminated := by
      refine next_preserves
        (I := fun r' => r'.machine.state = .closing ∧ r'.teardowns = r.teardowns ∨
          r'.machine.state = .terminated)
        (.inl ⟨hclosing, rfl⟩) hr.offered hnext ?_ ?_ ?_
      · exact fun _ _ h hact => closing_act hcause h hact
      · intro params drawn _ hready
        rw [hclosing] at hready
        cases hready
      · rintro stop rfl
        simp only [next] at hnext
        split at hnext
        · cases hnext
        · cases hnext
          exact .inl ⟨hclosing, rfl⟩
    rcases hstays with ⟨hclosing', hteardowns⟩ | hterminated
    · refine .inr (.inr ⟨hclosing', ?_⟩)
      rw [actionsLeft, actionsLeft, hteardowns]
      rfl
    · exact .inr (.inl hterminated)
  · obtain ⟨i, rfl⟩ : ∃ i, label = .teardown i := by
      cases label <;> first | exact ⟨_, rfl⟩ | cases hlabel
    rcases closing_teardown h hclosing hnext with hready | hclosing'
    · exact .inl hready
    · exact .inr (.inr hclosing')

/-- The teardown of a session can always go on. -/
theorem closing_enabled (recording : Bool) (h : Unwinds r) (hclosing : r.machine.state = .closing) :
    (next recording r (.teardown 0)).isSome = true := by
  obtain ⟨task, htask, -⟩ := h hclosing
  simp only [next, htask, List.getElem?_cons_zero, Option.isSome_some]

end Runner

namespace Life

variable {recording : Bool} {orphanTimeout : ℤ} {s s' : Life} {e : Event}

/-! ### The steps -/

/-- What a step is. -/
theorem next_cases (h : next recording orphanTimeout s e = some s') :
    (∃ now, e = .passes now ∧ s.now < now ∧ s' = { s with now }) ∨
    (e = .timerBegins ∧ s.timer = some .created ∧
      s' = { s with timer := some (.sleeping (s.now + orphanTimeout)) }) ∨
    (∃ wake runner, e = .timeout ∧ s.timer = some (.sleeping wake) ∧ wake ≤ s.now ∧
      Runtime.next recording s.runner .timeout = some runner ∧
      s' = { s with timer := none }.settle orphanTimeout runner fun _ => false) ∨
    (∃ label raises runner, e = .runner label raises ∧ isTimeout label = false ∧
      Runtime.next recording s.runner label = some runner ∧
      s' = s.settle orphanTimeout runner raises) := by
  cases e with
  | passes now =>
    simp only [next] at h
    split_ifs at h with hnow
    exact .inl ⟨now, rfl, hnow, (Option.some.inj h).symm⟩
  | timerBegins =>
    simp only [next] at h
    split_ifs at h with htimer
    exact .inr (.inl ⟨rfl, htimer, (Option.some.inj h).symm⟩)
  | timeout =>
    simp only [next] at h
    split at h
    next wake htimer =>
      split_ifs at h with hwake
      obtain ⟨runner, hrunner, hs⟩ := Option.map_eq_some_iff.mp h
      exact .inr (.inr (.inl ⟨wake, runner, rfl, htimer, hwake, hrunner, hs.symm⟩))
    · cases h
  | runner label raises =>
    simp only [next] at h
    split_ifs at h with htimeout
    obtain ⟨runner, hrunner, hs⟩ := Option.map_eq_some_iff.mp h
    exact .inr (.inr (.inr ⟨label, raises, runner, rfl, by simpa using htimeout, hrunner, hs.symm⟩))

/-- The step of the runner in a step, if there is one. -/
def label : Event → Option Label
  | .timeout => some .timeout
  | .runner label _ => some label
  | _ => none

theorem runner_of_next (h : next recording orphanTimeout s e = some s') :
    label e = none ∧ s'.runner = s.runner ∨
      ∃ l, label e = some l ∧ Runtime.next recording s.runner l = some s'.runner := by
  rcases next_cases h with ⟨now, rfl, -, rfl⟩ | ⟨rfl, -, rfl⟩ |
    ⟨wake, runner, rfl, -, -, hnext, rfl⟩ | ⟨l, raises, runner, rfl, -, hnext, rfl⟩
  · exact .inl ⟨rfl, rfl⟩
  · exact .inl ⟨rfl, rfl⟩
  · exact .inr ⟨.timeout, rfl, hnext⟩
  · exact .inr ⟨l, rfl, hnext⟩

/-- What holds of every run of the runner holds of it beside its timer. -/
theorem isInvariant_runner {I : Runner → Prop} (hI : (Runtime.runner recording).IsInvariant I) :
    (life recording orphanTimeout).IsInvariant fun s => I s.runner where
  init := hI.init
  step s e s' h hnext := by
    rcases runner_of_next hnext with ⟨-, heq⟩ | ⟨l, -, hl⟩
    · rw [heq]
      exact h
    · exact hI.step s.runner l s'.runner h hl

/-! ### The orphan timer -/

def changes (t : Transition) : Bool := t.fromState ≠ t.toState

/-- Where the timer runs. -/
def Waits (state : SessionState) : Prop := state = .waiting ∨ state = .orphaned

theorem waits_foldl {source target : SessionState} {ts : List Transition}
    (h : Path source ts target) {timer : Option OrphanTimer}
    (htimer : timer ≠ none → Waits source) :
    ts.foldl (resetOrphanTimeout orphanTimeout) timer ≠ none → Waits target := by
  induction h generalizing timer with
  | nil => exact htimer
  | @cons t ts target hedge _ ih =>
    apply ih
    unfold resetOrphanTimeout
    split_ifs with hsame hwaits
    · rw [← hsame]
      exact htimer
    · exact fun _ => hwaits
    · exact fun _ => hwaits
    · exact fun h => absurd rfl h

theorem foldl_ne_sleeping {ts : List Transition} {timer : Option OrphanTimer} {wake : ℤ}
    (h : ts.foldl (resetOrphanTimeout orphanTimeout) timer = some (.sleeping wake)) :
    timer = some (.sleeping wake) ∧ ts.any changes = false := by
  induction ts generalizing timer with
  | nil => exact ⟨h, rfl⟩
  | cons t ts ih =>
    obtain ⟨hreset, hrest⟩ := ih h
    unfold resetOrphanTimeout at hreset
    split_ifs at hreset with hsame
    · refine ⟨hreset, ?_⟩
      rw [List.any_cons, hrest, changes, Bool.or_false, decide_eq_false_iff_not]
      exact not_not.mpr hsame
    · cases hreset

/-- The timer runs while a session waits, and sleeps for the whole timeout from the entry into that
state on. -/
structure Timed (orphanTimeout : ℤ) (s : Life) : Prop where
  waits : s.timer ≠ none → Waits s.runner.machine.state
  sleeping : ∀ wake, s.timer = some (.sleeping wake) → s.entered + orphanTimeout ≤ wake
  entered : s.entered ≤ s.now

def moves (s : Life) (runner : Runner) : List Transition :=
  runner.events.emitted.drop s.runner.events.emitted.length

theorem moves_eq {runner : Runner} {ts : List Transition} (h : Runner.Moved s.runner runner ts) :
    moves s runner = ts := by
  rw [moves, h.emitted, List.drop_left]

namespace Timed

theorem settle (h : Timed orphanTimeout s) {runner : Runner} {ts : List Transition}
    (hmoved : Runner.Moved s.runner runner ts) (raises : ConnId → Bool) :
    Timed orphanTimeout (s.settle orphanTimeout runner raises) := by
  have hmoves := moves_eq hmoved
  unfold moves at hmoves
  unfold Life.settle
  rw [hmoves]
  constructor
  case waits => exact waits_foldl hmoved.path h.waits
  case sleeping =>
    intro wake hwake
    obtain ⟨htimer, hchanges⟩ := foldl_ne_sleeping hwake
    have hsleeping := h.sleeping wake htimer
    show (if ts.any changes then s.now else s.entered) + orphanTimeout ≤ wake
    rw [hchanges]
    exact hsleeping
  case entered =>
    show (if ts.any changes then s.now else s.entered) ≤ s.now
    split_ifs
    · exact le_rfl
    · exact h.entered

theorem cancel (h : Timed orphanTimeout s) : Timed orphanTimeout { s with timer := none } where
  waits h := absurd rfl h
  sleeping _ h := nomatch h
  entered := h.entered

end Timed

theorem isInvariant_timed :
    (life recording orphanTimeout).IsInvariant fun s =>
      s.runner.Occupancy ∧ Timed orphanTimeout s := by
  refine (isInvariant_runner Runner.isInvariant_occupancy).and ?_ ?_
  · exact ⟨fun h => absurd rfl h, nofun, le_rfl⟩
  · intro s e s' hr h hnext
    rcases next_cases hnext with ⟨now, rfl, hnow, rfl⟩ | ⟨rfl, hcreated, rfl⟩ |
      ⟨wake, runner, rfl, -, -, hrunner, rfl⟩ | ⟨l, raises, runner, rfl, -, hrunner, rfl⟩
    · exact ⟨h.waits, h.sleeping, h.entered.trans hnow.le⟩
    · constructor
      case waits =>
        intro _
        apply h.waits
        rw [hcreated]
        exact Option.some_ne_none _
      case sleeping =>
        intro wake hwake
        obtain rfl : s.now + orphanTimeout = wake := by
          simpa using hwake
        exact Int.add_le_add_right h.entered orphanTimeout
      case entered => exact h.entered
    · obtain ⟨ts, hmoved, -⟩ := Runner.does_next hr.offered hrunner
      exact h.cancel.settle hmoved _
    · obtain ⟨ts, hmoved, -⟩ := Runner.does_next hr.offered hrunner
      exact h.settle hmoved raises

/-! ### Whole lives -/

structure Session (journal pre : List Transition) (start : Transition)
    (moves post : List Transition) : Prop where
  split : journal = pre ++ start :: (moves ++ post)
  start : start.event = .startSession
  moves : ∀ t ∈ moves, t.event ≠ .startSession
  post : ∀ t ∈ post.head?, t.event = .startSession

theorem ends_once {journal pre moves post : List Transition} {start : Transition}
    {state : SessionState} (hpath : Path .created journal state)
    (h : Session journal pre start moves post) :
    moves.countP Path.ends = (if post = [] ∧ state.isRunning = true then 0 else 1) ∧
      ∀ t ∈ moves, Path.enters t = true → Path.ends t = true ∨
        t.event = .eviction ∧ t.fromState.isRunning = false ∧ t.toState = .terminated := by
  rw [h.split] at hpath
  obtain ⟨middle, -, hrest⟩ := hpath.split
  obtain ⟨-, hstart, hrest⟩ := hrest.of_cons
  obtain ⟨-, hwaiting⟩ := hstart.of_start h.start
  rw [hwaiting] at hrest
  obtain ⟨last, hmoves, hpost⟩ := hrest.split
  constructor
  · have hcount : moves.countP Path.ends + Path.running last = 1 := hmoves.countP_ends h.moves
    cases hcases : post with
    | nil =>
      rw [hcases] at hpost
      obtain rfl := hpost.eq_of_nil
      unfold Path.running at hcount
      cases hrunning : last.isRunning <;> rw [hrunning] at hcount <;> simpa using hcount
    | cons t ts =>
      rw [hcases] at hpost
      obtain ⟨hlast, hedge, -⟩ := hpost.of_cons
      have hready := (hedge.of_start (h.post t (by rw [hcases]; rfl))).1
      rw [hlast, hready] at hcount
      rw [if_neg fun h => absurd h.1 (List.cons_ne_nil t ts)]
      exact hcount
  · intro t ht henters
    rcases Path.enters_cases (hmoves.edge_of_mem ht) henters with hends | ⟨hto, hfrom, hwhy⟩
    · exact .inl hends
    · have hcreated := hmoves.ne_created_of_mem SessionState.noConfusion ht
      exact .inr ⟨hwhy.resolve_right hcreated, hfrom, hto⟩

/-- A session that is torn down leaves `CLOSING` once its teardown has acted as often as it must,
whatever happens beside. -/
theorem leaves {es : List Event} (hr : s.runner.Occupancy) (h : s.runner.Unwinds)
    (hclosing : s.runner.machine.state = .closing)
    (hrun : (life recording orphanTimeout).runFrom s es = some s')
    (hleft : s.runner.actionsLeft ≤ es.countP fun e => (label e).any Runner.isTeardown) :
    ∃ es₁ s₁, es₁ <+: es ∧ (life recording orphanTimeout).runFrom s es₁ = some s₁ ∧
      (s₁.runner.machine.state = .ready ∨ s₁.runner.machine.state = .terminated) := by
  induction es generalizing s with
  | nil =>
    obtain ⟨task, htask, -⟩ := h hclosing
    rw [Runner.actionsLeft_of_eq htask] at hleft
    split_ifs at hleft <;> cases hleft
  | cons e es ih =>
    rw [TransitionSystem.runFrom_cons] at hrun
    obtain ⟨s₁, hstep, hrun⟩ := Option.bind_eq_some_iff.mp hrun
    rw [List.countP_cons] at hleft
    have hr₁ := (isInvariant_runner Runner.isInvariant_unwinds).step s e s₁ ⟨hr, h⟩ hstep
    -- the session has left by this step, or it leaves by a later one
    have hgo (hclosing : s₁.runner.machine.state = .closing)
        (hleft : s₁.runner.actionsLeft ≤ es.countP fun e => (label e).any Runner.isTeardown) :
        ∃ es₁ s₁, es₁ <+: e :: es ∧ (life recording orphanTimeout).runFrom s es₁ = some s₁ ∧
          (s₁.runner.machine.state = .ready ∨ s₁.runner.machine.state = .terminated) := by
      obtain ⟨es₁, s₂, hprefix, hrun₁, hstate⟩ := ih hr₁.1 hr₁.2 hclosing hrun hleft
      refine ⟨e :: es₁, s₂, List.cons_prefix_cons.mpr ⟨rfl, hprefix⟩, ?_, hstate⟩
      rw [TransitionSystem.runFrom_cons, hstep]
      exact hrun₁
    have hnow (hstate : s₁.runner.machine.state = .ready ∨ s₁.runner.machine.state = .terminated) :
        ∃ es₁ s₁, es₁ <+: e :: es ∧ (life recording orphanTimeout).runFrom s es₁ = some s₁ ∧
          (s₁.runner.machine.state = .ready ∨ s₁.runner.machine.state = .terminated) := by
      refine ⟨[e], s₁, List.cons_prefix_cons.mpr ⟨rfl, List.nil_prefix⟩, ?_, hstate⟩
      rw [TransitionSystem.runFrom_cons, hstep]
      rfl
    rcases runner_of_next hstep with ⟨hlabel, heq⟩ | ⟨l, hlabel, hl⟩
    · rw [hlabel] at hleft
      rw [heq] at hgo
      exact hgo hclosing hleft
    · rw [hlabel] at hleft
      rcases Runner.closing_next hr h hclosing hl with hready | hterminated | ⟨hclosing₁, hactions⟩
      · exact hnow (.inl hready)
      · exact hnow (.inr hterminated)
      · apply hgo hclosing₁
        have hleft : s.runner.actionsLeft ≤ (es.countP fun e => (label e).any Runner.isTeardown) +
          if Runner.isTeardown l = true then 1 else 0 := hleft
        omega

theorem settle_self (s : Life) (raises : ConnId → Bool) :
    s.settle orphanTimeout s.runner raises = s := by
  unfold settle
  rw [List.drop_length]
  show ({ s with notices := s.notices ++ [] } : Life) = s
  rw [List.append_nil]

theorem next_start (hready : s.runner.machine.state ≠ .ready) (params : SessionParams)
    (drawn : Drawn) (raises : ConnId → Bool) :
    next recording orphanTimeout s (.runner (.startSession params drawn) raises) = some s := by
  have hsame : s.runner.startSession recording params drawn = s.runner := by
    rcases Runner.startSession_eq recording s.runner params drawn with hsame | ⟨h, -⟩
    · exact hsame
    · exact absurd h hready
  show some (s.settle orphanTimeout (s.runner.startSession recording params drawn) raises) = _
  rw [hsame, settle_self]

theorem next_stop (hrunning : s.runner.machine.state.isRunning = false) (reason : EndReason)
    (closeReason : String) (raises : ConnId → Bool) :
    next recording orphanTimeout s (.runner (.stopSession reason closeReason) raises) = some s := by
  have hsend : s.runner.machine.send .stopSession = none := by
    rw [Option.eq_none_iff_forall_ne_some]
    intro machine hsend
    rw [(SessionStateMachine.send_stop_eq_some (.inl rfl) hsend).1] at hrunning
    cases hrunning
  have hsame : s.runner.send recording .stopSession (.ending reason closeReason) = s.runner := by
    rw [Runner.send, hsend]
  show some (s.settle orphanTimeout
    (s.runner.send recording .stopSession (.ending reason closeReason)) raises) = _
  rw [hsame, settle_self]

/-- A session times out by the timer's own step, in a session that has waited for the whole
timeout. -/
theorem timeout_of_mem (hr : s.runner.Occupancy) (h : Timed orphanTimeout s)
    (hnext : next recording orphanTimeout s e = some s') {t : Transition}
    (ht : t ∈ moves s s'.runner) (htimeout : t.event = .timeout) :
    e = .timeout ∧ Waits s.runner.machine.state ∧ s.entered + orphanTimeout ≤ s.now ∧
      s'.runner.machine.state = .closing := by
  rcases next_cases hnext with ⟨now, rfl, -, rfl⟩ | ⟨rfl, -, rfl⟩ |
    ⟨wake, runner, rfl, htimer, hwake, hrunner, rfl⟩ | ⟨l, raises, runner, rfl, hl, hrunner, rfl⟩
  · rw [moves, List.drop_length] at ht
    cases ht
  · rw [moves, List.drop_length] at ht
    cases ht
  · have hwaits : Waits s.runner.machine.state := by
      apply h.waits
      rw [htimer]
      exact Option.some_ne_none _
    refine ⟨rfl, hwaits, (h.sleeping wake htimer).trans hwake, ?_⟩
    have hsend : s.runner.machine.send .timeout = some { state := .closing } := by
      show Option.map _ (TRANSITIONS .timeout s.runner.machine.state) = _
      rcases hwaits with hstate | hstate <;> rw [hstate] <;> rfl
    cases hrunner
    show (s.runner.send recording .timeout (.ending .timedOut "")).machine.state = .closing
    rw [Runner.send, hsend]
    exact congrArg SessionStateMachine.state (Runner.machine_move ..)
  · obtain ⟨ts, hmoved, htimer⟩ := Runner.does_next hr.offered hrunner
    have ht : t ∈ ts := by
      rw [← moves_eq hmoved]
      exact ht
    have hlabel : l = .timeout := by
      have hcause := htimer t ht htimeout
      cases l <;> first | rfl | cases hcause
    rw [hlabel] at hl
    cases hl

/-- Every session lives one life.  In the journal, a session that was started leaves its running
states once, and whatever else enters `CLOSING` or `TERMINATED` before the next start is an
eviction where none runs.  Each entry into `CLOSING` is answered by one cleanup, unless an eviction
cuts it short or it is under way; then the session has one teardown, which can act, and the session
leaves `CLOSING` by the time it has acted twice.  The model hears the starts and the ends of
sessions in turn, and of connections in between.  A start and a stop that are rejected change
nothing at all.  A session times out only after it has waited for the whole timeout since it
entered its state. -/
theorem lives (h : (life recording orphanTimeout).Reachable s) :
    (∀ pre start moves post, Session s.runner.events.emitted pre start moves post →
      moves.countP Path.ends =
        (if post = [] ∧ s.runner.machine.state.isRunning = true then 0 else 1) ∧
      ∀ t ∈ moves, Path.enters t = true → Path.ends t = true ∨
        t.event = .eviction ∧ t.fromState.isRunning = false ∧ t.toState = .terminated) ∧
    (s.runner.events.emitted.countP Runner.closes =
      s.runner.events.emitted.countP (fun t => t.event = .cleanupComplete) +
        s.runner.events.emitted.countP Path.cutsShort +
        if s.runner.machine.state = .closing then 1 else 0) ∧
    (s.runner.machine.state = .closing →
      (∃ task, s.runner.teardowns = [task] ∧ task.cleanup.isSome = true) ∧
      (∀ raises, (next recording orphanTimeout s (.runner (.teardown 0) raises)).isSome = true) ∧
      ∀ es s', (life recording orphanTimeout).runFrom s es = some s' →
        2 ≤ (es.countP fun e => (label e).any Runner.isTeardown) →
        ∃ es₁ s₁, es₁ <+: es ∧ (life recording orphanTimeout).runFrom s es₁ = some s₁ ∧
          (s₁.runner.machine.state = .ready ∨ s₁.runner.machine.state = .terminated)) ∧
    (∃ held, (s.runner.posted.filterMap Path.mark).foldlM Path.hears false = some held ∧
      (s.runner.machine.state ≠ .terminated →
        held = (s.runner.machine.state.isRunning || s.runner.machine.state = .closing))) ∧
    (s.runner.machine.state ≠ .ready → ∀ params drawn raises,
      next recording orphanTimeout s (.runner (.startSession params drawn) raises) = some s) ∧
    (s.runner.machine.state.isRunning = false → ∀ reason closeReason raises,
      next recording orphanTimeout s (.runner (.stopSession reason closeReason) raises) = some s) ∧
    ∀ e s', next recording orphanTimeout s e = some s' → ∀ t ∈ moves s s'.runner,
      t.event = .timeout →
      e = .timeout ∧ Waits s.runner.machine.state ∧ s.entered + orphanTimeout ≤ s.now ∧
        s'.runner.machine.state = .closing := by
  obtain ⟨hr, htold⟩ := (isInvariant_runner Runner.isInvariant_told).of_reachable h
  obtain ⟨-, hunwinds⟩ := (isInvariant_runner Runner.isInvariant_unwinds).of_reachable h
  obtain ⟨-, htimed⟩ := isInvariant_timed.of_reachable h
  have hpath : Path .created s.runner.events.emitted s.runner.machine.state := htold.path
  refine ⟨?_, ?_, ?_, ?_, ?_, ?_, ?_⟩
  · exact fun pre start moves post => ends_once hpath
  · exact hpath.countP_closes
  · intro hclosing
    refine ⟨hunwinds hclosing, fun raises => ?_, fun es s' hrun hcount => ?_⟩
    · show (Option.map _ (Runtime.next recording s.runner (.teardown 0))).isSome = true
      rw [Option.isSome_map]
      exact Runner.closing_enabled recording hunwinds hclosing
    · apply leaves hr hunwinds hclosing hrun
      obtain ⟨task, htask, -⟩ := hunwinds hclosing
      rw [Runner.actionsLeft_of_eq htask]
      split_ifs
      · exact Nat.le_of_succ_le hcount
      · exact hcount
  · rw [htold.posted]
    exact hpath.foldlM_hears
  · exact fun hready params drawn raises => next_start hready params drawn raises
  · exact fun hrunning reason closeReason raises => next_stop hrunning reason closeReason raises
  · exact fun e s' hnext t ht htimeout => timeout_of_mem hr htimed hnext ht htimeout

/-- A session that is stopped, and evicted while it is torn down. -/
def evictedRun : List Event :=
  [.runner (.initialized true) fun _ => false,
    .runner (.startSession {} { uuid := "" }) fun _ => false,
    .runner (.stopSession .stopped "") fun _ => false, .runner .evicted fun _ => false]

theorem isSome_evictedRun : ((life true 30).run evictedRun).isSome := rfl

/-- The session ended once. -/
theorem lives_evictedRun :
    let s := ((life true 30).run evictedRun).get isSome_evictedRun
    s.runner.machine.state = .terminated ∧
      (s.runner.events.emitted.drop 2).countP Path.ends = 1 := by
  intro s
  have hsession : Session s.runner.events.emitted (s.runner.events.emitted.take 1)
      { event := .startSession, fromState := .ready, toState := .waiting
        detail := .params {} { uuid := "" } } (s.runner.events.emitted.drop 2) [] := by
    constructor
    case split => decide +kernel
    case start => rfl
    case moves => decide +kernel
    case post => decide
  have hlives := lives (TransitionSystem.reachable_get evictedRun isSome_evictedRun)
  exact ⟨by decide +kernel, (hlives.1 _ _ _ _ hsession).1⟩

/-- It entered `CLOSING`, and then `TERMINATED`. -/
theorem not_lives :
    let s := ((life true 30).run evictedRun).get isSome_evictedRun
    s.runner.events.emitted.countP (fun t => t.event = .startSession) = 1 ∧
      (s.runner.events.emitted.drop 2).countP Path.enters = 2 := by
  decide +kernel

end Life

end ReactorRuntime.Runtime
