import ReactorRuntime.ModelServer.Equiv.Busy

/-!
# Every session is held for its request

`View.Held` is `Desk.Busy` of what a view holds, with what the thread that calls into the model is
about to do: while a batch was taken it only posts answers, and a session in a reset has no request
until its generation is the new one.

* `View.Reached.held`: it holds in every state a model server reaches.
* `one_request_per_session`: what follows for a session between the locked sections.
-/

namespace ReactorRuntime.ModelServer

variable {Payload Output : Type*}

/-! ### The steps of the other threads -/

theorem Sessions.Heard.open_eq {t t' : Sessions} {frame : Frame Payload Output} (h : Heard t t')
    (hr : t.Registry frame) {c : ℕ} (hc : c ∈ t.connections) :
    t'.generation c = t.generation c ∧ t'.slotOf c = t.slotOf c := by
  have hello {d slot : ℕ} (greets : t.reader d = .hello) :
      Function.update t.slot d (some slot) c = t.slot c :=
    Function.update_of_ne (hr.ne_of_hello greets (.inr hc)) _ _
  cases h with
  | greet d slot greets => exact ⟨rfl, congrArg (Option.getD · 0) (hello greets)⟩
  | enter d slot greets connecting => exact ⟨rfl, congrArg (Option.getD · 0) (hello greets)⟩
  | _ => exact ⟨rfl, rfl⟩

theorem Desk.Busy.heard {t t' : Sessions} {d : Desk Payload} {frame : Frame Payload Output}
    (h : Busy t d) (hr : t.Registry frame) (hh : Sessions.Heard t t') : Busy t' d :=
  h.of_sessions (fun c hc => hh.connections_eq ▸ h.registered c hc) fun _ hitem hdetached =>
    hh.open_eq hr (h.pending_registered hitem hdetached)

namespace Core

/-- The requests a core holds, with the batch taken and the batch in `step()`. -/
def desk (core : Core Payload Output) (window : List (Waiting Payload))
    (items : List (Pending Payload)) : Desk Payload :=
  ⟨core.policy, window, core.pending, core.tickets, items⟩

variable {core : Core Payload Output} {window : List (Waiting Payload)}
  {items : List (Pending Payload)}

theorem desk_accept (cfg : Config) :
    (core.accept cfg).desk window items = core.desk window items := by
  unfold accept
  dsimp only
  split_ifs <;> rfl

theorem desk_hello (cfg : Config) (c : ℕ) (hello : Hello) :
    (core.hello cfg c hello).desk window items = core.desk window items := by
  unfold Core.hello
  dsimp only
  split
  · rfl
  · split_ifs
    · split <;> rfl
    · rfl
    · rfl

theorem desk_helloExpired (c : ℕ) :
    (core.helloExpired c).desk window items = core.desk window items := by
  unfold helloExpired
  split_ifs <;> rfl

theorem desk_takeReset (event : ResetEvent) :
    (core.takeReset event).desk window items = core.desk window items := by
  unfold takeReset
  dsimp only
  split_ifs <;> rfl

theorem desk_complete (item : Pending Payload) (output : Outcome Output) :
    (core.complete item output).desk window items = { core.desk window items with
      pending := core.pending.filter fun p => p.ticket ≠ item.ticket
      policy := if item.detached then core.policy else core.policy.finished [item.connection] } := by
  rw [complete_eq]
  split_ifs <;> rfl

theorem busy_take (h : Desk.Busy core.sessions (core.desk window items)) (c : ℕ)
    (step : Step Payload) (hopen : (core.conns c).state = .opened → c ∈ core.connections) :
    Desk.Busy core.sessions ((core.take c step).desk window items) := by
  unfold take
  split
  · exact h
  · next policy hadmit =>
    unfold admitStep at hadmit
    split_ifs at hadmit with hserving hstate hreset
    split at hadmit
    · cases hadmit
    · next policy' hadd =>
      obtain rfl := Except.ok.inj hadmit
      exact h.add (hopen (not_not.mp hstate)) hadd

theorem busy_cancelRequest (h : Desk.Busy core.sessions (core.desk window items))
    (c requestId : ℕ) :
    Desk.Busy core.sessions ((core.cancelRequest c requestId).desk window items) := by
  unfold cancelRequest
  split
  · next policy hcancel =>
    obtain ⟨before, request, after, hwaiting, rfl, -, rfl⟩ := BatchPolicy.cancel_eq_some hcancel
    exact h.withdraw hwaiting
  · exact h.mark _ fun item hitem => by
      simp only [cancels, Bool.and_eq_true, decide_eq_true_eq, Bool.decide_and] at hitem
      simpa using hitem.2.2.1

theorem busy_resolve (h : Desk.Busy core.sessions (core.desk window items)) (ticket : ℕ)
    (futureEnd : FutureEnd Output) (hdone : ∀ item, core.pendingOf ticket = some item → item.future) :
    Desk.Busy core.sessions ((core.resolve ticket futureEnd).desk window items) := by
  unfold resolve completeTicket
  split
  · exact h
  · next item hitem =>
    have hmem := mem_of_pendingOf hitem
    have hfuture := hdone item hitem
    rw [desk_complete]
    refine h.complete hmem (fun p => ⟨fun hp => ⟨hp, ?_⟩, And.left⟩) h.nodup_items
    rintro rfl
    rw [((h.stepping p).mp hp).2] at hfuture
    cases hfuture

theorem busy_expireRunning (h : Desk.Busy core.sessions (core.desk window items)) :
    Desk.Busy core.sessions (core.expireRunning.2.desk window items) :=
  h.mark _ fun item hitem => by
    simp only [overdueAt, Bool.and_eq_true] at hitem
    exact hitem.1.1

end Core

/-- The steps of the other threads keep the invariant. -/
theorem Heard.busy {cfg : Config} {core core' : Core Payload Output} {frame : Frame Payload Output}
    {window : List (Waiting Payload)} {items : List (Pending Payload)} (hh : Heard cfg core core')
    (hr : core.sessions.Registry frame) (h : Desk.Busy core.sessions (core.desk window items)) :
    Desk.Busy core'.sessions (core'.desk window items) := by
  refine Desk.Busy.heard ?_ hr hh.sessions
  cases hh with
  | tick clock => exact h
  | accept => rwa [Core.desk_accept]
  | hello c hello greets => rwa [Core.desk_hello]
  | helloExpired c => rwa [Core.desk_helloExpired]
  | take c step reads free => exact Core.busy_take h c step (hr.opened c)
  | cancel c requestId => exact Core.busy_cancelRequest h c requestId
  | signal => exact h
  | reset event => rwa [Core.desk_takeReset]
  | reply c message replies holds => exact h
  | hangUp c hung => exact h
  | write c outcome k writes => exact h
  | resolve ticket futureEnd done => exact Core.busy_resolve h ticket futureEnd done
  | stopping state stops => exact h


/-- The other threads add no pending request, and detach none. -/
theorem Heard.pending {cfg : Config} {core core' : Core Payload Output} (h : Heard cfg core core') :
    ∀ item ∈ core'.pending, ∃ p ∈ core.pending, p.connection = item.connection ∧
      p.detached = item.detached := by
  have same {core' : Core Payload Output} (hpending : core'.pending = core.pending) :
      ∀ item ∈ core'.pending, ∃ p ∈ core.pending, p.connection = item.connection ∧
        p.detached = item.detached := by
    rw [hpending]
    exact fun item hitem => ⟨item, hitem, rfl, rfl⟩
  have desk {core' : Core Payload Output} (hdesk : core'.desk [] [] = core.desk [] []) :=
    same (congrArg Desk.pending hdesk)
  cases h with
  | accept => exact desk (core.desk_accept cfg)
  | hello c hello greets => exact desk (Core.desk_hello cfg c hello)
  | helloExpired c => exact desk (core.desk_helloExpired c)
  | reset event => exact desk (core.desk_takeReset event)
  | take c step reads free =>
    unfold Core.take
    split <;> exact same rfl
  | cancel c requestId =>
    unfold Core.cancelRequest
    split
    · exact same rfl
    · intro item hitem
      obtain ⟨p, hp, rfl⟩ := List.mem_map.mp hitem
      refine ⟨p, hp, ?_⟩
      unfold Pending.answerIf
      split_ifs <;> exact ⟨rfl, rfl⟩
  | resolve ticket futureEnd done =>
    unfold Core.resolve Core.completeTicket
    split
    · exact same rfl
    · intro item hitem
      rw [Core.complete_eq] at hitem
      exact ⟨item, (List.mem_filter.mp hitem).1, rfl, rfl⟩
  | _ => exact same rfl

/-! ### The thread that calls into the model -/

def Job.posts : Job Output → Bool
  | .answer _ _ => true
  | .postTo _ _ => true
  | _ => false

structure View.Held (v : View Payload Output) : Prop where
  busy : Desk.Busy v.core.sessions (v.core.desk v.window v.items)
  /-- With a batch taken, the thread that calls into the model only posts answers. -/
  posting : v.window ≠ [] → v.worker.frame = .idle ∧ ∀ job ∈ v.worker.jobs, job.posts
  /-- A session in a reset has no request until its generation is the new one. -/
  dropped : ∀ event ids, v.worker.frame = .resetAnswers event ids → ∀ item ∈ v.core.pending,
    item.connection = event.connection → item.detached

theorem Desk.Busy.same {t t' : Sessions} {d : Desk Payload} (h : Busy t d)
    (hconnections : t'.connections = t.connections) (hgeneration : t'.generation = t.generation)
    (hslot : t'.slot = t.slot) : Busy t' d :=
  h.of_sessions (fun c hc => hconnections ▸ h.registered c hc) fun item _ _ => by
    rw [Sessions.slotOf, Sessions.slotOf, hgeneration, hslot]
    exact ⟨rfl, rfl⟩

theorem Desk.Busy.forget {core : Core Payload Output}
    (h : Busy core.sessions (core.desk [] [])) (c : ℕ) :
    Busy (core.forget c).sessions ((core.forget c).desk [] []) := by
  refine (h.drop rfl rfl c).of_sessions (fun d hd => ?_) fun _ _ _ => ⟨rfl, rfl⟩
  obtain ⟨hne, hd⟩ := Finset.mem_erase.mp hd
  exact List.mem_filter.mpr ⟨h.registered d hd, decide_eq_true hne⟩

theorem Core.Starts.busy {core core' : Core Payload Output} {job : Job Output}
    {frame : Frame Payload Output} {window : List (Waiting Payload)} (hs : core.Starts job core' frame)
    (h : Desk.Busy core.sessions (core.desk window [])) :
    Desk.Busy core'.sessions (core'.desk window []) := by
  cases hs with
  | answer c message =>
    rw [sessions_answer]
    exact h
  | postTo c message registered =>
    rw [sessions_answer]
    exact h
  | closeOpening c unopened =>
    rw [sessions_close, sessions_setState]
    exact h.same rfl rfl rfl
  | _ => exact h

theorem Core.Advances.busy {cfg : Config} {core core' : Core Payload Output}
    {frame frame' : Frame Payload Output} (ha : core.Advances cfg frame core' frame')
    (hr : core.sessions.Registry frame)
    (hdropped : ∀ event ids, frame = .resetAnswers event ids → ∀ item ∈ core.pending,
      item.connection = event.connection → item.detached)
    (h : Desk.Busy core.sessions (core.desk [] [])) :
    Desk.Busy core'.sessions (core'.desk [] []) := by
  cases ha with
  | answer c message =>
    rw [sessions_answer]
    exact h
  | leave c next => exact h
  | left c next left =>
    rw [sessions_close]
    exact h
  | leaveMove c next stays =>
    rw [sessions_setState]
    exact h.same rfl rfl rfl
  | forgetOpen c next => exact h.forget c
  | forget c next =>
    rw [sessions_close, sessions_setState]
    exact (h.forget c).same rfl rfl rfl
  | closeHook c next =>
    rw [sessions_close, sessions_setState]
    exact h.same rfl rfl rfl
  | openNext c =>
    -- the connection is not open yet, so it has no request
    rw [sessions_nextGeneration]
    refine h.of_sessions h.registered fun item hitem hdetached => ⟨?_, rfl⟩
    refine Function.update_of_ne ?_ _ _
    rintro rfl
    have hopened := (hr.mem_connections rfl).mp (h.pending_registered hitem hdetached)
    rw [hr.ready.1] at hopened
    cases hopened
  | opened c serving =>
    rw [sessions_register, sessions_setState, sessions_discardOpening, sessions_sessionOpened]
    refine h.of_sessions (fun d hd => ?_) fun _ _ _ => ⟨rfl, rfl⟩
    rw [Sessions.register]
    dsimp only
    split_ifs
    · exact h.registered d hd
    · exact List.mem_append_left _ (h.registered d hd)
  | openedLate c stops => exact h.same rfl rfl rfl
  | openRaised c exc => exact h.same rfl rfl rfl
  | openRefused c exc serving =>
    rw [sessions_close, sessions_setState, sessions_offerRefusal]
    cases serving <;> exact h.same rfl rfl rfl
  | openClose c =>
    rw [sessions_close, sessions_setState]
    exact h.same rfl rfl rfl
  | resetDrop event => exact h.drop rfl rfl event.connection
  | resetAnswer event requestId dropped =>
    rw [sessions_answer]
    exact h
  | resetClose event =>
    rw [sessions_modify_same _ _ _ rfl rfl rfl rfl, sessions_nextGeneration,
      sessions_sessionClosed]
    refine h.of_sessions h.registered fun item hitem hdetached => ⟨?_, rfl⟩
    refine Function.update_of_ne (fun hc => hdetached ?_) _ _
    exact hdropped event [] rfl item hitem hc
  | resetOpened event =>
    rw [sessions_resetAnswered, sessions_setState, sessions_sessionOpened]
    exact h.same rfl rfl rfl
  | resetRaised event exc => exact h.same rfl rfl rfl
  | resetReject event exc =>
    rw [sessions_answer]
    exact h
  | resetForget event =>
    rw [sessions_setState]
    exact h.same rfl rfl rfl

/-! ### A batch ends -/

namespace Core

variable {core : Core Payload Output} {item : Pending Payload} {items : List (Pending Payload)}

theorem pendingOf_stepping (h : Desk.Busy core.sessions (core.desk [] (item :: items))) :
    core.pendingOf item.ticket = some item :=
  Lists.find?_key h.nodup ((h.stepping item).mp List.mem_cons_self).1

/-- One request of the batch is answered. -/
theorem busy_completeTicket (h : Desk.Busy core.sessions (core.desk [] (item :: items)))
    (output : Outcome Output) :
    Desk.Busy (core.completeTicket item.ticket output).sessions
      ((core.completeTicket item.ticket output).desk [] items) := by
  obtain ⟨hnot, hnodup⟩ := List.nodup_cons.mp h.nodup_items
  rw [sessions_completeTicket, completeTicket, pendingOf_stepping h]
  dsimp only
  rw [desk_complete]
  refine h.complete ((h.stepping item).mp List.mem_cons_self).1 (fun p => ?_) hnodup
  simp only [desk, List.mem_cons]
  constructor
  · exact fun hp => ⟨.inr hp, fun heq => hnot (heq ▸ hp)⟩
  · exact fun hp => hp.1.resolve_left hp.2

/-- One request of the batch is finished, or gets its future. -/
theorem busy_finishOne (h : Desk.Busy core.sessions (core.desk [] (item :: items)))
    (output : StepOutput Output) :
    Desk.Busy (core.finishOne item.ticket output).sessions
      ((core.finishOne item.ticket output).desk [] items) := by
  obtain ⟨hnot, hnodup⟩ := List.nodup_cons.mp h.nodup_items
  cases output with
  | done outcome => exact busy_completeTicket h outcome
  | future =>
    refine h.await ((h.stepping item).mp List.mem_cons_self).1 (fun p => ?_) hnodup
    simp only [desk, List.mem_cons]
    constructor
    · exact fun hp => ⟨.inr hp, fun heq => hnot (heq ▸ hp)⟩
    · exact fun hp => hp.1.resolve_left hp.2

theorem busy_failBatch (h : Desk.Busy core.sessions (core.desk [] items)) (exc : Fault) :
    Desk.Busy (core.failBatch items exc).sessions ((core.failBatch items exc).desk [] []) := by
  induction items generalizing core with
  | nil => exact h
  | cons item items ih => exact ih (busy_completeTicket h _)

theorem busy_finishOutputs (outputs : List (StepOutput Output))
    (hlength : outputs.length = items.length)
    (h : Desk.Busy core.sessions (core.desk [] items)) :
    Desk.Busy ((items.zip outputs).foldl (fun core p => core.finishOne p.1.ticket p.2) core).sessions
      (((items.zip outputs).foldl (fun core p => core.finishOne p.1.ticket p.2) core).desk [] []) := by
  induction items generalizing core outputs with
  | nil => exact h
  | cons item items ih =>
    cases outputs with
    | nil => cases hlength
    | cons output outputs =>
      exact ih outputs (Nat.succ.inj hlength) (busy_finishOne h output)

theorem busy_finishBatch (h : Desk.Busy core.sessions (core.desk [] items))
    (stepReturn : StepReturn Output) :
    Desk.Busy (core.finishBatch items stepReturn).sessions
      ((core.finishBatch items stepReturn).desk [] []) := by
  cases stepReturn with
  | raised exc => exact busy_failBatch h _
  | notSequence typeName => exact busy_failBatch h _
  | outputs outputs =>
    unfold finishBatch
    dsimp only
    split_ifs with hlength
    · exact busy_finishOutputs outputs hlength h
    · exact busy_failBatch h _

/-- The top of the step thread's loop. -/
theorem busy_turn (cfg : Config) (h : Desk.Busy core.sessions (core.desk [] [])) :
    Desk.Busy (core.turn cfg).1.sessions ((core.turn cfg).1.desk (core.turn cfg).2.window []) := by
  have expired := busy_expireRunning h
  rw [sessions_turn]
  unfold turn
  split
  · exact h
  · dsimp only
    split_ifs
    · exact h
    · exact expired
    · exact expired
  · dsimp only
    split_ifs with hevents hnone
    · exact expired
    · have taken := expired.take rfl cfg.settings core.clock core.openSessions
      have hbatch : (core.policy.take cfg.settings core.clock core.openSessions).1.batch = [] :=
        hnone.1
      rwa [show (core.expireRunning.2.desk [] []).policy = core.policy from rfl, hbatch] at taken
    · exact expired.take rfl cfg.settings core.clock core.openSessions

end Core

/-! ### Every run -/

theorem Core.turn_posting (cfg : Config) (core : Core Payload Output)
    (h : (core.turn cfg).2.window ≠ []) :
    (core.turn cfg).2.worker.frame = .idle ∧ ∀ job ∈ (core.turn cfg).2.worker.jobs, job.posts := by
  refine ⟨core.turn_frame cfg, ?_⟩
  revert h
  unfold Core.turn
  split
  · simp [StepThread.window]
  · dsimp only
    split_ifs <;> simp [StepThread.window]
  · dsimp only
    split_ifs
    · simp [StepThread.window]
    · simp [StepThread.window]
    · intro _ job hjob
      simp only [StepThread.worker, List.mem_append, List.mem_map] at hjob
      obtain ⟨_, -, rfl⟩ | ⟨_, -, rfl⟩ := hjob <;> rfl

theorem Core.turn_not_reset (cfg : Config) (core : Core Payload Output) (event : ResetEvent)
    (ids : List ℕ) : (core.turn cfg).2.worker.frame ≠ .resetAnswers event ids := by
  rw [core.turn_frame cfg]
  exact nofun

theorem Moves.held {cfg : Config} {v v' : View Payload Output} (h : Moves cfg v v')
    (hr : v.core.sessions.Registry v.worker.frame) (hv : v.Held) : v'.Held := by
  cases h with
  | @heard core core' worker window items h =>
    refine ⟨h.busy hr hv.busy, hv.posting, fun event ids hframe item hitem hconnection => ?_⟩
    obtain ⟨p, hp, hpc, hpd⟩ := h.pending item hitem
    rw [← hpd]
    exact hv.dropped event ids hframe p hp (hpc.trans hconnection)
  | @start core core' job frame jobs window h =>
    refine ⟨h.busy hv.busy, fun hw => ?_, fun event ids hframe => ?_⟩
    · obtain ⟨-, hjobs⟩ := hv.posting hw
      have hjob := hjobs job List.mem_cons_self
      refine ⟨?_, fun job hj => hjobs job (List.mem_cons_of_mem _ hj)⟩
      cases h <;> first | rfl | cases hjob
    · subst hframe
      cases h
  | @advance core core' frame frame' jobs window h =>
    have hwindow : window = [] := by
      by_contra hw
      obtain rfl : frame = .idle := (hv.posting hw).1
      cases h
    subst hwindow
    have hafter (next : Option ℕ) (event : ResetEvent) (ids : List ℕ) :
        (Frame.after next : Frame Payload Output) ≠ .resetAnswers event ids := by
      cases next <;> rintro ⟨⟩
    refine ⟨h.busy hr hv.dropped hv.busy, fun hne => absurd rfl hne, fun event ids hframe => ?_⟩
    cases h with
    | resetDrop event' =>
      obtain ⟨rfl, -⟩ := Frame.resetAnswers.inj hframe
      intro item hitem hconnection
      obtain ⟨p, -, rfl⟩ := List.mem_map.mp hitem
      unfold Pending.detachFrom at hconnection ⊢
      split_ifs with hp
      · rfl
      · rw [if_neg hp] at hconnection
        exact absurd hconnection hp
    | resetAnswer event' requestId dropped =>
      obtain ⟨rfl, -⟩ := Frame.resetAnswers.inj hframe
      exact hv.dropped event' _ rfl
    | left c next left => exact absurd hframe (hafter next event ids)
    | forget c next => exact absurd hframe (hafter next event ids)
    | closeHook c next => exact absurd hframe (hafter next event ids)
    | _ => cases hframe
  | turn core =>
    exact ⟨Core.busy_turn cfg hv.busy, core.turn_posting cfg,
      fun event ids hframe => absurd hframe (core.turn_not_reset cfg event ids)⟩
  | @finish core window h =>
    have hwindow : window = [] := hv.busy.filter_window.symm.trans h
    subst hwindow
    refine ⟨?_, fun hne => absurd rfl hne, by rintro _ _ ⟨⟩⟩
    have hpolicy : core.policy.finished [] = core.policy := by
      simp [BatchPolicy.finished]
    rw [List.map_nil, hpolicy]
    exact hv.busy
  | @register core window live items hlive hitems =>
    obtain rfl : live = window := hlive.trans hv.busy.filter_window
    subst hitems
    exact ⟨hv.busy.register rfl, fun hne => absurd rfl hne, by rintro _ _ ⟨⟩⟩
  | returned core items stepReturn => exact ⟨Core.busy_finishBatch hv.busy stepReturn, fun hne => absurd rfl hne, by rintro _ _ ⟨⟩⟩
  | joined core =>
    obtain ⟨hwaiting, hbusy⟩ := hv.busy.clear rfl
    exact ⟨.of_empty hwaiting hbusy, fun hne => absurd rfl hne, by rintro _ _ ⟨⟩⟩
  | leaveAll core => exact ⟨hv.busy, fun hne => absurd rfl hne, by rintro _ _ ⟨⟩⟩

theorem View.Reached.held {cfg : Config} {v : View Payload Output} (h : v.Reached cfg) : v.Held := by
  refine View.Reached.induction (I := View.Held) ?_ ?_ h
  · exact ⟨.of_empty rfl rfl, nofun, nofun⟩
  · exact fun v v' hv hheld hmoves => hmoves.held hv.registry hheld

/-! ### What follows for a session -/

namespace Desk

variable {t : Sessions} {d : Desk Payload}

theorem Busy.holds_le_one (h : Busy t d) (c : ℕ) : d.holds c ≤ 1 := by
  rw [h.count c]
  split_ifs <;> omega

theorem Busy.mem_busy_iff (h : Busy t d) {c : ℕ} :
    c ∈ d.policy.busy ↔ (∃ r ∈ d.policy.waiting, r.connection = c) ∨
      (∃ r ∈ d.window, r.connection = c) ∨
      ∃ item ∈ d.pending, item.connection = c ∧ ¬ item.detached := by
  have hholds : c ∈ d.policy.busy ↔ 0 < d.holds c := by
    rw [h.count c]
    split_ifs with hc <;> simp [hc]
  rw [hholds, holds, Nat.add_assoc, Nat.add_pos_iff_pos_or_pos, Nat.add_pos_iff_pos_or_pos,
    List.countP_pos_iff, List.countP_pos_iff, List.countP_pos_iff]
  simp [runs]

end Desk

theorem Core.admit_stillRunning {core : Core Payload Output} {c : ℕ} {step : Step Payload} :
    (∃ text, core.admitStep c step = .error (.stepStillRunning text)) ↔
      core.state = .serving ∧ (core.conns c).state = .opened ∧ c ∉ core.resetPending ∧
        c ∈ core.policy.busy := by
  unfold Core.admitStep
  split_ifs with hserving hopened hreset
  · simp [hserving]
  · simp [hopened]
  · simp [hreset]
  · rw [not_not] at hserving hopened
    simp only [hserving, hopened, hreset, not_false_eq_true, true_and]
    have hadd : core.policy.add (core.waitingFor c step) = none ↔ c ∈ core.policy.busy :=
      BatchPolicy.add_eq_none
    rw [← hadd]
    split
    · next hnone => simp [hnone]
    · next policy hsome => simp [hsome]

/-- A session is busy as long as it has one request that waits or is pending for it, or was taken
and is not pending yet, and never has two of these; one that was forgotten is not busy.  So a step
is refused with `StepStillRunning` exactly when, with nothing else to refuse it, an earlier request
waits, was taken, or is pending in the session's current generation. -/
theorem one_request_per_session {cfg : Config} {s : Server Payload Output}
    (h : (server cfg).Reachable s) (c : ℕ) :
    (s.step.window = [] → (c ∈ s.core.policy.busy ↔
      (∃ r ∈ s.core.policy.waiting, r.connection = c) ∨
        ∃ item ∈ s.core.pending, item.connection = c ∧ ¬ item.detached)) ∧
    s.core.policy.waiting.countP (fun r => r.connection = c) +
      s.step.window.countP (fun r => r.connection = c) +
      s.core.pending.countP (fun item => item.connection = c ∧ ¬ item.detached) ≤ 1 ∧
    (c ∈ s.core.policy.busy → c ∈ s.core.connections) ∧
    ((s.core.conns c).state = .closing ∨ (s.core.conns c).state = .closed →
      s.worker.frame.forgets ≠ some c → c ∉ s.core.policy.busy) ∧
    ∀ step, (∃ text, s.core.admitStep c step = .error (.stepStillRunning text)) ↔
      s.core.state = .serving ∧ (s.core.conns c).state = .opened ∧ c ∉ s.core.resetPending ∧
        ((∃ r ∈ s.core.policy.waiting, r.connection = c) ∨
          (∃ r ∈ s.step.window, r.connection = c) ∨
          ∃ item ∈ s.core.pending, item.connection = c ∧ ¬ item.detached ∧
            item.request.generation = (s.core.conns c).generation) := by
  have hreached : s.view.Reached cfg := ⟨s, h, rfl⟩
  have hbusy : Desk.Busy s.core.sessions (s.core.desk s.step.window s.step.items) :=
    hreached.held.busy
  have hregistry : s.core.sessions.Registry s.worker.frame := hreached.registry
  have hiff : c ∈ s.core.policy.busy ↔ _ := hbusy.mem_busy_iff
  simp only [Core.desk] at hiff
  refine ⟨fun hwindow => ?_, ?_, hbusy.registered c, fun hstate hforgets hmem => ?_, fun step => ?_⟩
  · rw [hiff, hwindow]
    simp
  · exact hbusy.holds_le_one c
  · obtain hopened | ⟨-, hforget⟩ := hregistry.registered c (hbusy.registered c hmem)
    · rw [show (s.core.conns c).state = .opened from hopened] at hstate
      simp at hstate
    · exact hforgets hforget
  · rw [Core.admit_stillRunning, hiff]
    refine and_congr_right fun _ => and_congr_right fun _ => and_congr_right fun _ => ?_
    refine or_congr_right (or_congr_right (exists_congr fun item => and_congr_right fun hitem => ?_))
    refine and_congr_right fun hc => ⟨fun hdetached => ⟨hdetached, ?_⟩, And.left⟩
    subst hc
    exact (hbusy.current item hitem hdetached).1

def oneStepRun : List (Label Unit Unit) := openRun Unit Unit ++ [.receive 1 (.step ⟨0, none, ()⟩)]

theorem isSome_oneStepRun : ((server Config.single).run oneStepRun).isSome := rfl

/-- While the step waits, the next one is refused. -/
theorem one_request_per_session_waiting :
    ∃ text, (((server Config.single).run oneStepRun).get isSome_oneStepRun).core.admitStep 1
      ⟨1, none, ()⟩ = .error (.stepStillRunning text) := by
  refine ((one_request_per_session (TransitionSystem.reachable_get oneStepRun isSome_oneStepRun)
    1).2.2.2.2 _).mpr ⟨?_, ?_, ?_, .inl ⟨⟨1, 0, (), 0, none⟩, ?_, rfl⟩⟩
  · decide +kernel
  · decide +kernel
  · decide +kernel
  · exact List.mem_singleton.mpr rfl

end ReactorRuntime.ModelServer
