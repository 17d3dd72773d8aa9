import ReactorRuntime.Runtime.Equiv.Dispatch

/-!
# What leaves the epochs of offers alone

Only a start moves the epoch, and only an admission or the report of a connection touches a stamp:
every other step of the runner leaves the epochs as they are (`framed_next`).  No step leads back to
`CREATED`.
-/

namespace ReactorRuntime.Runtime

namespace Runner

variable {recording : Bool} {r r' : Runner}

/-- The epochs are as before, the model is not loaded again, and no request is forgotten. -/
structure Framed (r r' : Runner) : Prop where
  offerEpochs : r'.offerEpochs = r.offerEpochs
  created : r'.machine.state = .created → r.machine.state = .created
  requests : r.requests <+: r'.requests

theorem Framed.refl (r : Runner) : Framed r r := ⟨rfl, id, List.prefix_rfl⟩

theorem Framed.trans {r₁ r₂ r₃ : Runner} (h : Framed r₁ r₂) (h' : Framed r₂ r₃) : Framed r₁ r₃ :=
  ⟨h'.offerEpochs.trans h.offerEpochs, h.created ∘ h'.created, h.requests.trans h'.requests⟩

theorem created_of_send {m m' : SessionStateMachine} {event : SessionEvent}
    (h : m.send event = some m') (hcreated : m'.state = .created) : m.state = .created := by
  obtain ⟨target, htarget, rfl⟩ := Option.map_eq_some_iff.mp h
  obtain rfl : target = .created := hcreated
  cases event <;> cases hstate : m.state <;>
    simp_all [SessionStateMachine.resolve, TRANSITIONS, SessionState.isConnectable]
  all_goals split_ifs at htarget <;> cases htarget

theorem framed_move (machine : SessionStateMachine) (event : SessionEvent) (detail : Detail)
    (h : machine.state = .created → r.machine.state = .created) :
    Framed r (r.move recording machine event detail) := by
  constructor
  · rw [offerEpochs_move]
  · rw [machine_move]
    exact h
  · rw [requests_move]

theorem framed_send (r : Runner) (event : SessionEvent) (detail : Detail) :
    Framed r (r.send recording event detail) := by
  unfold send
  cases hsend : r.machine.send event with
  | none => exact Framed.refl r
  | some machine => exact framed_move machine event detail (created_of_send hsend)

theorem framed_sendWithoutOccupancy (r : Runner) (event : SessionEvent) (detail : Detail) :
    Framed r (r.sendWithoutOccupancy recording event detail) := by
  unfold sendWithoutOccupancy SessionStateMachine.sendWithoutOccupancy
  by_cases hconnectable : r.machine.state.isConnectable = true
  · rw [if_pos hconnectable]
    exact framed_move r.machine event detail id
  · rw [if_neg hconnectable]
    exact Framed.refl r

theorem framed_register (r : Runner) (conn : Connection) (system occupies : Bool) :
    Framed r (r.register recording conn system occupies) := by
  have hregistry (connections : ConnectionManager) : Framed r { r with connections } := ⟨rfl, id, List.prefix_rfl⟩
  unfold register
  dsimp only
  split_ifs
  · exact hregistry _
  · exact (hregistry _).trans (framed_send _ .connectionOpened _)
  · exact (hregistry _).trans (framed_sendWithoutOccupancy _ .connectionOpened _)

theorem framed_drop (r : Runner) (cid : ConnId) : Framed r (r.drop recording cid) := by
  have hregistry (connections : ConnectionManager) : Framed r { r with connections } := ⟨rfl, id, List.prefix_rfl⟩
  unfold drop
  by_cases hmem : cid ∉ r.connections.byId
  · rw [if_pos hmem]
    exact Framed.refl r
  · rw [if_neg hmem]
    cases r.connections.details.lookup cid with
    | none => exact hregistry _
    | some detail =>
      dsimp only
      split_ifs
      · exact (hregistry _).trans (framed_sendWithoutOccupancy _ .connectionClosed _)
      · exact (hregistry _).trans (framed_send _ .connectionClosed _)

theorem framed_finishStartingInput (r : Runner) (task : StartingTask) :
    Framed r (r.finishStartingInput recording task) := by
  have hset (r : Runner) : Framed r (if r.startingInputDone.number = task.done then
      { r with startingInputDone := { r.startingInputDone with isSet := true } } else r) := by
    split_ifs
    · exact ⟨rfl, id, List.prefix_rfl⟩
    · exact Framed.refl r
  have hposted (r : Runner) : Framed r { r with posted := r.posted ++ [.startingInputApplied] } :=
    ⟨rfl, id, List.prefix_rfl⟩
  unfold finishStartingInput
  by_cases happlies : r.applies task = true
  · rw [if_pos happlies]
    by_cases hruns : r.runsUnattended = true
    · rw [if_pos hruns]
      exact (hposted r).trans (hset _)
    · rw [if_neg hruns]
      exact ((framed_drop r _).trans (hposted _)).trans (hset _)
  · rw [if_neg happlies]
    exact hset r

theorem framed_applyStartingInput (r : Runner) (task : StartingTask) (refusal : Option String) :
    Framed r (r.applyStartingInput recording task refusal).1 := by
  unfold applyStartingInput
  split
  · exact framed_finishStartingInput r task
  · split_ifs
    · exact framed_finishStartingInput r task
    · exact ⟨rfl, id, List.prefix_append _ _⟩
  · cases refusal with
    | none => exact framed_send r .command .fact
    | some refusal =>
      have herror : Framed r (r.send recording .error .fact) := framed_send r .error .fact
      dsimp only
      split_ifs
      · exact (herror.trans (framed_send _ .stopSession _)).trans (framed_finishStartingInput _ task)
      · exact herror

theorem framed_step (r : Runner) (number : ℕ) (detail : Detail) :
    Framed r ({ r with stepsCompleted := number }.send recording .stepCompleted detail) :=
  have hcount : Framed r { r with stepsCompleted := number } := ⟨rfl, id, List.prefix_rfl⟩
  hcount.trans (framed_send _ .stepCompleted detail)

theorem framed_recordStep (r : Runner) (step : CompletedStep) (saved : Bool) :
    Framed r (r.recordStep recording step saved) := by
  unfold recordStep saveStep
  dsimp only
  split_ifs
  · exact Framed.refl r
  · exact Framed.refl r
  · exact (framed_step r _ _).trans (framed_send _ .stopSession _)
  · exact framed_step r _ _

theorem framed_failRemainingSteps (r : Runner) (limit : ℕ) (error : String) (saved : Bool) :
    Framed r (r.failRemainingSteps recording limit error saved) := by
  have hsteps (numbers : List ℕ) (r : Runner) :
      Framed r (numbers.foldl (failStep recording saved error) r) := by
    induction numbers generalizing r with
    | nil => exact Framed.refl r
    | cons number numbers ih => exact (framed_step r _ _).trans (ih _)
  have hfailed : Framed r { r with
      stepsFailed := true
      failedSessions := r.failedSessions ++ [r.sessionsPosted] } := ⟨rfl, id, List.prefix_rfl⟩
  exact (hfailed.trans (hsteps _ _)).trans (framed_send _ .stopSession _)

theorem framed_emitHandlerFailure (r : Runner) (connId : ConnId) (requestId : ℕ) (message : String)
    (saved : Bool) :
    Framed r (r.emitHandlerFailure recording connId requestId message saved) := by
  have herror : Framed r (r.send recording .error .fact) := framed_send r .error .fact
  unfold emitHandlerFailure
  dsimp only
  split
  · exact herror
  · split_ifs
    · exact herror.trans (framed_failRemainingSteps _ _ _ _)
    · exact herror

theorem framed_teardown (r : Runner) (task : Teardown) :
    Framed r (r.teardown recording task).1 := by
  unfold teardown
  split_ifs
  · exact ⟨rfl, id, List.prefix_rfl⟩
  · split
    · exact Framed.refl r
    · exact framed_send r .cleanupComplete _

theorem framed_beginSessionInputs (r : Runner) : Framed r (r.beginSessionInputs recording) := by
  have hend (s : Runner) (number : ℕ) : Framed s (s.spawnStartingInput number) := by
    unfold spawnStartingInput
    split <;> exact ⟨rfl, id, List.prefix_rfl⟩
  have hreset (number : ℕ) : Framed r { r with
      startingInputDone := { number, isSet := false }
      stepsCompleted := 0
      startingRequestIds := ∅
      stepsFailed := false } := ⟨rfl, id, List.prefix_rfl⟩
  unfold beginSessionInputs
  dsimp only
  split_ifs
  · exact ((hreset _).trans (framed_register _ SystemConnection true _)).trans (hend _ _)
  · exact (hreset _).trans (hend _ _)

theorem framed_startSession (recording : Bool) (r : Runner) (params : SessionParams) (drawn : Drawn) :
    r.startSession recording params drawn = r ∨
      Framed { r with offerEpochs := r.offerEpochs.sessionStarted }
        (r.startSession recording params drawn) := by
  unfold startSession
  dsimp only
  split_ifs
  · exact .inl rfl
  · have hsend : Framed r (r.send recording .startSession (.params params drawn)) :=
      framed_send r .startSession _
    have hepoch (r' : Runner) (h : Framed r r') :
        Framed { r with offerEpochs := r.offerEpochs.sessionStarted }
          { r' with offerEpochs := r'.offerEpochs.sessionStarted } :=
      ⟨congrArg OfferEpochs.sessionStarted h.offerEpochs, h.created, h.requests⟩
    exact .inr ((hepoch _ hsend).trans (framed_beginSessionInputs _))

theorem framed_connectionOpened (recording : Bool) (r : Runner) (conn : Connection) :
    Framed { r with offerEpochs := r.offerEpochs.consume conn.id }
      (r.connectionOpened recording conn) := by
  unfold connectionOpened
  dsimp only
  split_ifs
  · exact Framed.refl _
  · exact framed_register _ conn false true

theorem framed_next {label : Label} (hnext : next recording r label = some r')
    (hoffer : ∀ connId, label ≠ .offerAdmitted connId)
    (hopened : ∀ conn, label ≠ .connectionOpened conn) :
    Framed r r' ∨ Framed { r with offerEpochs := r.offerEpochs.sessionStarted } r' := by
  cases label with
  | initializing =>
    cases hnext
    exact .inl (framed_send r _ _)
  | initialized success =>
    cases hnext
    exact .inl (framed_send r _ _)
  | startSession params drawn =>
    cases hnext
    rcases framed_startSession recording r params drawn with hsame | hframed
    · rw [hsame]
      exact .inl (Framed.refl r)
    · exact .inr hframed
  | offerAdmitted connId => exact absurd rfl (hoffer connId)
  | connectionOpened conn => exact absurd rfl (hopened conn)
  | connectionClosed connId =>
    cases hnext
    exact .inl (framed_drop r connId)
  | connectionAnswered connId =>
    cases hnext
    exact .inl (framed_send r _ _)
  | startingInput task refusal =>
    simp only [next] at hnext
    split at hnext
    · cases hnext
    · cases hnext
      exact .inl ((framed_applyStartingInput r _ refusal).trans ⟨rfl, id, List.prefix_rfl⟩)
  | recordStep step saved =>
    simp only [next] at hnext
    split_ifs at hnext
    cases hnext
    exact .inl (framed_recordStep r step saved)
  | handlerFailed connId requestId message saved =>
    cases hnext
    exact .inl (framed_emitHandlerFailure r connId requestId message saved)
  | stopSession reason closeReason =>
    cases hnext
    exact .inl (framed_send r _ _)
  | timeout =>
    cases hnext
    exact .inl (framed_send r _ _)
  | evicted =>
    cases hnext
    exact .inl (framed_send r _ _)
  | journal event =>
    simp only [next] at hnext
    split_ifs at hnext
    cases hnext
    exact .inl (framed_send r _ _)
  | teardown task =>
    simp only [next] at hnext
    split at hnext
    · cases hnext
    · cases hnext
      exact .inl ((framed_teardown r _).trans ⟨rfl, id, List.prefix_rfl⟩)
  | stopRecorder stop =>
    simp only [next] at hnext
    split at hnext
    · cases hnext
    · cases hnext
      exact .inl ⟨rfl, id, List.prefix_rfl⟩

theorem requests_next {label : Label} (hnext : next recording r label = some r') :
    r.requests <+: r'.requests := by
  by_cases hoffer : ∃ connId, label = .offerAdmitted connId
  · obtain ⟨connId, rfl⟩ := hoffer
    simp only [next] at hnext
    split_ifs at hnext
    cases hnext
    exact List.prefix_rfl
  by_cases hopened : ∃ conn, label = .connectionOpened conn
  · obtain ⟨conn, rfl⟩ := hopened
    simp only [next] at hnext
    split_ifs at hnext
    cases hnext
    exact (framed_connectionOpened recording
      { r with offers := r.offers.erase conn.id } conn).requests
  rcases framed_next hnext (not_exists.mp hoffer) (not_exists.mp hopened) with hframed | hframed
  · exact hframed.requests
  · exact hframed.requests

end Runner

end ReactorRuntime.Runtime
