import ReactorRuntime.ModelServer.Equiv.Connection
import ReactorRuntime.ModelServer.Equiv.Ledger
import ReactorRuntime.ModelServer.Equiv.Stopping

/-!
# Every step is answered once

* `Moves.accounts`: every step of the model server keeps the accounts.
* `answered_once`: so no request is answered more often than it was received, and once `drain` or
  `stop` has answered what was in flight, every step that was accepted on an open connection is
  answered, unless a cancel withdrew it or the session stopped reading its answers.
* `answer_lost`: a session that stopped reading its answers is left without one.
-/

namespace ReactorRuntime.ModelServer

variable {Payload Output : Type*}

/-! ### The step thread and the end of the step thread -/

section

variable {cfg : Config} {core core' : Core Payload Output} {worker worker' : Worker Payload Output}
  {window window' : List (Waiting Payload)} {items items' : List (Pending Payload)}
  {c requestId : ℕ}

/-- A step that hands requests over between the parts of the model server. -/
theorem Accounts.of_handover (hconns : core'.conns = core.conns)
    (howed : core'.policy.waiting.countP (BatchPolicy.named c requestId) +
        window'.countP (BatchPolicy.named c requestId) +
        core'.pending.countP (Pending.asks c requestId) + worker'.owed c requestId =
      core.policy.waiting.countP (BatchPolicy.named c requestId) +
        window.countP (BatchPolicy.named c requestId) +
        core.pending.countP (Pending.asks c requestId) + worker.owed c requestId)
    (hresets : core'.events.countP (Event.resets c requestId) + worker'.resets c requestId =
      core.events.countP (Event.resets c requestId) + worker.resets c requestId) :
    Accounts ⟨core, worker, window, items⟩ ⟨core', worker', window', items'⟩ c requestId := by
  refine .of_kept (hconns ▸ .refl _) ?_ fun _ _ => ?_
  · simp only [View.owed, View.owedElse, hconns]
    omega
  · simp only [View.owed]
    omega

theorem owes_overdue (Output : Type*) (c requestId : ℕ) (pending : List (Pending Payload))
    (now : Time) (exc : Fault) :
    ((pending.filter (Core.overdueAt now)).map fun p =>
        (Job.answer p.connection (failure p.waiting.requestId exc) : Job Output)).countP
          (Job.owes c requestId) =
      pending.countP fun item => item.asks c requestId && Core.overdueAt now item := by
  rw [List.countP_map, List.countP_filter]
  refine List.countP_congr fun item _ => ?_
  simp only [Function.comp_apply, Job.owes, answersTo_failure, Pending.asks, Core.overdueAt,
    Bool.and_eq_true, decide_eq_true_eq]
  tauto

theorem resets_answers {α : Type*} (l : List α) (connection : α → ℕ) (message : α → ToSession Output) :
    (l.map fun a => (Job.answer (connection a) (message a) : Job Output)).countP
      (Job.resets c requestId) = 0 := by
  rw [List.countP_map]
  exact List.countP_eq_zero.mpr fun _ _ => nofun

theorem resets_postTo {α : Type*} (l : List α) (connection : α → ℕ) (message : α → ToSession Output) :
    (l.map fun a => (Job.postTo (connection a) (message a) : Job Output)).countP
      (Job.resets c requestId) = 0 := by
  rw [List.countP_map]
  exact List.countP_eq_zero.mpr fun _ _ => nofun

theorem owes_refuse (events : List Event) :
    (events.map (Job.refuse : Event → Job Output)).countP (Job.owes c requestId) = 0 ∧
    (events.map (Job.refuse : Event → Job Output)).countP (Job.resets c requestId) =
      events.countP (Event.resets c requestId) := by
  rw [List.countP_map, List.countP_map]
  exact ⟨List.countP_eq_zero.mpr fun _ _ => nofun, rfl⟩

theorem owes_apply (events : List Event) :
    (events.map (Job.apply : Event → Job Output)).countP (Job.owes c requestId) = 0 ∧
    (events.map (Job.apply : Event → Job Output)).countP (Job.resets c requestId) =
      events.countP (Event.resets c requestId) := by
  rw [List.countP_map, List.countP_map]
  exact ⟨List.countP_eq_zero.mpr fun _ _ => nofun, rfl⟩

theorem owes_expired (expired : List (Waiting Payload)) (exc : Fault) :
    (expired.map fun r => (Job.postTo r.connection (failure r.requestId exc) : Job Output)).countP
      (Job.owes c requestId) = expired.countP (BatchPolicy.named c requestId) := by
  rw [List.countP_map]
  refine List.countP_congr fun r _ => ?_
  simp [Job.owes, answersTo_failure, BatchPolicy.named]

theorem Accounts.turn (core : Core Payload Output) (cfg : Config) (c requestId : ℕ) :
    Accounts ⟨core, .rest, [], []⟩
      ⟨(core.turn cfg).1, (core.turn cfg).2.worker, (core.turn cfg).2.window, []⟩ c requestId := by
  have hmarked := countP_answerIf core.pending (Core.overdueAt core.clock) c requestId
  have hoverdue := owes_overdue Output c requestId core.pending core.clock
  have hnobody (hnone : core.expireRunning.1 = []) :
      core.pending.countP (fun item => item.asks c requestId &&
        Core.overdueAt core.clock item) = 0 := by
    rw [← hoverdue (.stepExpired ""), show core.pending.filter (Core.overdueAt core.clock) = [] from
      hnone]
    rfl
  unfold Core.turn
  split
  · exact .refl _ _ _
  · dsimp only
    split_ifs with hend hnone
    · exact .refl _ _ _
    · have := hnobody hnone.2
      refine .of_handover rfl ?_ rfl
      simp only [StepThread.worker, StepThread.window, Core.expireRunning]
      omega
    · refine .of_handover rfl ?_ ?_
      · simp only [StepThread.worker, StepThread.window, Core.expireRunning, Worker.owed,
          List.countP_append, hoverdue, owes_refuse, List.countP_nil]
        omega
      · simp only [StepThread.worker, Core.expireRunning, Worker.resets,
          List.countP_append, resets_answers, owes_refuse, List.countP_nil]
        omega
  · dsimp only
    split_ifs with hevents hnone
    · refine .of_handover rfl ?_ ?_
      · simp only [StepThread.worker, StepThread.window, Core.expireRunning, Worker.owed,
          List.countP_append, hoverdue, owes_apply, List.countP_nil]
        omega
      · simp only [StepThread.worker, Core.expireRunning, Worker.resets,
          List.countP_append, resets_answers, owes_apply, List.countP_nil]
        omega
    · have := hnobody hnone.2.2
      have htake := core.policy.count_take cfg.settings core.clock core.openSessions
        (BatchPolicy.named c requestId)
      rw [hnone.1, hnone.2.1, List.countP_nil] at htake
      refine .of_handover rfl ?_ rfl
      simp only [StepThread.worker, StepThread.window, Core.expireRunning, List.countP_nil]
      omega
    · have htake := core.policy.count_take cfg.settings core.clock core.openSessions
        (BatchPolicy.named c requestId)
      refine .of_handover rfl ?_ ?_
      · simp only [StepThread.worker, StepThread.window, Core.expireRunning, Worker.owed,
          List.countP_append, hoverdue, owes_expired, List.countP_nil]
        omega
      · simp only [StepThread.worker, Core.expireRunning, Worker.resets,
          List.countP_append, resets_answers, resets_postTo, List.countP_nil]

theorem countP_waitingOf (policy : BatchPolicy Payload) {connections : List ℕ}
    (hnodup : connections.Nodup) :
    (connections.flatMap policy.waitingOf).countP (BatchPolicy.named c requestId) =
      if c ∈ connections then policy.waiting.countP (BatchPolicy.named c requestId) else 0 := by
  induction connections with
  | nil => rfl
  | cons d connections ih =>
    obtain ⟨hd, hnodup⟩ := List.nodup_cons.mp hnodup
    have hself : (policy.waitingOf d).countP (BatchPolicy.named c requestId) =
        if d = c then policy.waiting.countP (BatchPolicy.named c requestId) else 0 := by
      rw [BatchPolicy.waitingOf, List.countP_filter]
      split_ifs with hdc
      · refine List.countP_congr fun r _ => ?_
        simp only [BatchPolicy.named, hdc, Bool.and_eq_true, decide_eq_true_eq]
        tauto
      · refine List.countP_eq_zero.mpr fun r _ => ?_
        simp only [BatchPolicy.named, Bool.and_eq_true, decide_eq_true_eq]
        rintro ⟨⟨hrc, -⟩, hrd⟩
        exact hdc (hrd.symm.trans hrc)
    rw [List.flatMap_cons, List.countP_append, hself, ih hnodup]
    by_cases hdc : d = c
    · subst hdc
      simp [hd]
    · simp [hdc, Ne.symm hdc]

theorem Accounts.joined {core : Core Payload Output}
    (hbusy : Desk.Busy core.sessions (core.desk [] [])) (hnodup : core.connections.Nodup)
    (c requestId : ℕ) :
    Accounts ⟨core, .rest, [], []⟩
      ⟨core.answerInFlight.1, ⟨.idle, core.answerInFlight.2⟩, [], []⟩ c requestId := by
  obtain ⟨hwaiting, -⟩ := hbusy.clear rfl
  have hregistered : c ∉ core.connections →
      core.policy.waiting.countP (BatchPolicy.named c requestId) = 0 := by
    intro hc
    refine List.countP_eq_zero.mpr fun r hr hnamed => hc ?_
    have hrc : r.connection = c := (of_decide_eq_true hnamed).1
    exact hrc ▸ hbusy.waiting_registered hr
  have hdropped : (core.connections.flatMap core.policy.waitingOf).countP
      (BatchPolicy.named c requestId) = _ := countP_waitingOf core.policy hnodup
  have hpending : ((core.pending.filter Pending.awaited).map fun p => (Job.answer p.connection
      (failure p.waiting.requestId (.modelServerStopping STOPPING)) : Job Output)).countP
        (Job.owes c requestId) = core.pending.countP (Pending.asks c requestId) := by
    rw [List.countP_map, List.countP_filter]
    refine List.countP_congr fun item _ => ?_
    simp only [Function.comp_apply, Job.owes, answersTo_failure, Pending.asks, Bool.and_eq_true,
      decide_eq_true_eq]
    tauto
  have hwaited : ((core.connections.flatMap core.policy.waitingOf).map fun r => (Job.answer
      r.connection (failure r.requestId (.modelServerStopping STOPPING)) : Job Output)).countP
        (Job.owes c requestId) = core.policy.waiting.countP (BatchPolicy.named c requestId) := by
    rw [List.countP_map]
    refine (List.countP_congr fun r _ => ?_).trans (hdropped.trans ?_)
    · simp [Job.owes, answersTo_failure, BatchPolicy.named]
    · split_ifs with hc
      · rfl
      · exact (hregistered hc).symm
  have hopening : ((core.opening.sort (· ≤ ·)).map (Job.closeOpening : ℕ → Job Output)).countP
      (Job.owes c requestId) = 0 ∧
      ((core.opening.sort (· ≤ ·)).map (Job.closeOpening : ℕ → Job Output)).countP
        (Job.resets c requestId) = 0 := by
    rw [List.countP_map, List.countP_map]
    exact ⟨List.countP_eq_zero.mpr fun _ _ => Bool.false_ne_true, List.countP_eq_zero.mpr fun _ _ => Bool.false_ne_true⟩
  refine .of_handover rfl ?_ ?_
  · rw [hwaiting]
    simp only [Core.answerInFlight, Worker.owed, List.countP_append, hpending, owes_refuse, hwaited,
      hopening, List.countP_nil]
    omega
  · simp only [Core.answerInFlight, Worker.resets, List.countP_append, resets_answers, owes_refuse,
      hopening, List.countP_nil]
    omega

end

theorem Core.asks_pendingFor (core : Core Payload Output) (live : List (Waiting Payload)) (ticket : ℕ)
    (c requestId : ℕ) : (core.pendingFor live ticket).countP (Pending.asks c requestId) =
      live.countP (BatchPolicy.named c requestId) := by
  induction live generalizing ticket with
  | nil => rfl
  | cons request live ih =>
    simp [Core.pendingFor, List.countP_cons, ih, Pending.asks, Pending.awaited, BatchPolicy.named]

theorem View.Reached.nodup {cfg : Config} {v : View Payload Output} (h : v.Reached cfg) :
    v.core.connections.Nodup := by
  refine View.Reached.induction (I := fun v => v.core.sessions.connections.Nodup) List.nodup_nil ?_ h
  intro v v' _ hnodup hmoves
  cases hmoves with
  | heard worker window items h =>
    rw [h.sessions.connections_eq]
    exact hnodup
  | start jobs window h =>
    rw [h.sessions.server.2]
    exact hnodup
  | @advance core core' frame frame' jobs window h =>
    have hsessions := h.sessions
    generalize core'.sessions = t at hsessions
    have filtered (c : ℕ) : (core.sessions.connections.filter (· ≠ c)).Nodup := hnodup.filter _
    cases hsessions with
    | forgetOpen c next => exact filtered c
    | forget c next => exact filtered c
    | opened c message serving =>
      rw [Sessions.register]
      dsimp only
      split_ifs with hc
      · exact hnodup
      · exact hnodup.append (List.nodup_singleton c) (List.disjoint_singleton.mpr hc)
    | openRaised c exc serving => exact hnodup
    | _ => exact hnodup
  | turn core =>
    rw [Core.sessions_turn]
    exact hnodup
  | returned core items stepReturn =>
    rw [Core.sessions_finishBatch]
    exact hnodup
  | _ => exact hnodup

/-- Every step of the model server keeps the accounts. -/
theorem Moves.accounts {cfg : Config} {v v' : View Payload Output} (h : Moves cfg v v')
    (hv : v.Reached cfg) (c requestId : ℕ) : Accounts v v' c requestId := by
  have hheld := hv.held
  have hregistry := hv.registry
  have hnodup := hv.nodup
  cases h with
  | heard worker window items h => exact h.accounts worker hheld.busy c requestId
  | start jobs window h => exact h.accounts hregistry.opened
  | @advance core core' frame frame' jobs window h =>
    have hwindow : window = [] := by
      by_contra hw
      obtain rfl : frame = .idle := (hheld.posting hw).1
      cases h
    subst hwindow
    exact h.accounts hregistry hheld.busy
  | turn core => exact .turn core cfg c requestId
  | @finish core window h =>
    obtain rfl : window = [] := hheld.busy.filter_window.symm.trans h
    exact .of_handover rfl rfl rfl
  | @register core window live items hlive hitems =>
    obtain rfl : live = window := hlive.trans hheld.busy.filter_window
    subst hitems
    refine .of_handover rfl ?_ rfl
    simp only [List.countP_append, Core.asks_pendingFor, List.countP_nil]
    omega
  | returned core items stepReturn => exact .finishBatch hheld.busy stepReturn c requestId
  | joined core => exact .joined hheld.busy hnodup c requestId
  | leaveAll core =>
    have hleave (p : Job Output → Bool) (hp : ∀ d, p (.leave d) = false) :
        (core.connections.map Job.leave).countP p = 0 := by
      rw [List.countP_map]
      exact List.countP_eq_zero.mpr fun d _ => by simp [hp]
    refine .of_handover rfl ?_ ?_
    · simp only [Worker.owed, hleave (Job.owes c requestId) fun _ => rfl, List.countP_nil]
    · simp only [Worker.resets, hleave (Job.resets c requestId) fun _ => rfl, List.countP_nil]

/-! ### Every run -/

namespace Sessions

theorem Heard.state_back {t t' : Sessions} (h : Heard t t') (c : ℕ) :
    (t'.state c = .connecting ∨ t'.state c = .opening →
      t.state c = .connecting ∨ t.state c = .opening) ∧
    (t'.state c = .opened → t.state c = .opened) := by
  cases h with
  | enter d slot greets connecting =>
    by_cases hc : c = d
    · subst hc
      exact ⟨fun _ => .inl connecting, fun h => by simp at h⟩
    · simp only [Function.update_of_ne hc]
      exact ⟨id, id⟩
  | _ => exact ⟨id, id⟩

theorem Start.state_back {t t' : Sessions} {job : Job Output} {frame : Frame Payload Output}
    (h : Start t job t' frame) (c : ℕ) :
    (t'.state c = .connecting ∨ t'.state c = .opening →
      t.state c = .connecting ∨ t.state c = .opening) ∧
    (t'.state c = .opened → t.state c = .opened) := by
  cases h with
  | closeOpening d unopened =>
    by_cases hc : c = d
    · simp [Sessions.move, hc]
    · simp [Sessions.move, hc]
  | _ => exact ⟨id, id⟩

theorem Advance.state_back {t t' : Sessions} {frame frame' : Frame Payload Output}
    (h : Advance t frame t' frame') (hr : t.Registry frame) (c : ℕ) :
    (t'.state c = .connecting ∨ t'.state c = .opening →
      t.state c = .connecting ∨ t.state c = .opening) ∧
    (t'.state c = .opened → t.state c = .opened ∨ t.state c = .opening) := by
  have moved {state : ConnectionState} {t₀ : Sessions} (d : ℕ) (hstate : t₀.state = t.state)
      (hmoved : state = .closing ∨ state = .closed) :
      ((t₀.move d state).state c = .connecting ∨ (t₀.move d state).state c = .opening →
        t.state c = .connecting ∨ t.state c = .opening) ∧
      ((t₀.move d state).state c = .opened → t.state c = .opened ∨ t.state c = .opening) := by
    by_cases hc : c = d
    · obtain rfl | rfl := hmoved <;> simp [Sessions.move, hc]
    · rw [Sessions.move, hstate]
      simp only [Function.update_of_ne hc]
      exact ⟨id, .inl⟩
  cases h with
  | leaveMove d next => exact moved d rfl (.inl rfl)
  | forget d next => exact moved d rfl (.inr rfl)
  | closeHook d next => exact moved d rfl (.inr rfl)
  | openRefused d exc serving => exact moved d rfl (.inl rfl)
  | openClose d => exact moved d rfl (.inl rfl)
  | resetForget event => exact moved event.connection rfl (.inl rfl)
  | opened d message serving =>
    by_cases hc : c = d
    · subst hc
      exact ⟨fun _ => .inr hr.ready.1, fun _ => .inr hr.ready.1⟩
    · simp only [Sessions.register, Sessions.move, Function.update_of_ne hc]
      exact ⟨id, .inl⟩
  | resetOpened event message =>
    by_cases hc : c = event.connection
    · subst hc
      simp [Sessions.move, show t.state event.connection = .opened from hr.ready]
    · simp only [Sessions.move, Function.update_of_ne hc]
      exact ⟨id, .inl⟩
  | openRaised d exc serving => exact ⟨id, .inl⟩
  | _ => exact ⟨id, .inl⟩

end Sessions

theorem Moves.state_back {cfg : Config} {v v' : View Payload Output} (h : Moves cfg v v')
    (hr : v.core.sessions.Registry v.worker.frame) (c : ℕ) :
    (v'.core.sessions.state c = .connecting ∨ v'.core.sessions.state c = .opening →
      v.core.sessions.state c = .connecting ∨ v.core.sessions.state c = .opening) ∧
    (v'.core.sessions.state c = .opened →
      v.core.sessions.state c = .opened ∨ v.core.sessions.state c = .opening) := by
  cases h with
  | heard worker window items h =>
    exact (h.sessions.state_back c).imp_right fun hopen hc => .inl (hopen hc)
  | start jobs window h =>
    exact (h.sessions.state_back c).imp_right fun hopen hc => .inl (hopen hc)
  | advance jobs window h => exact h.sessions.state_back hr c
  | turn core =>
    rw [Core.sessions_turn]
    exact ⟨id, .inl⟩
  | returned core items stepReturn =>
    rw [Core.sessions_finishBatch]
    exact ⟨id, .inl⟩
  | _ => exact ⟨id, .inl⟩

/-- What the accounts of all steps come to. -/
structure View.Balanced (v : View Payload Output) : Prop where
  upper : ∀ c requestId, v.owed c requestId + v.owedElse c requestId +
    (v.core.conns c).answered requestId ≤ (v.core.conns c).history.received.count requestId
  /-- A connection that is not open yet has no step accepted. -/
  young : ∀ c, v.core.sessions.state c = .connecting ∨ v.core.sessions.state c = .opening →
    (v.core.conns c).history.accepted = []
  lower : ∀ c requestId, v.core.sessions.state c = .opened →
    ¬ (v.core.conns c).history.overflowed →
    (v.core.conns c).history.accepted.count requestId ≤ v.owed c requestId +
      (v.core.conns c).answered requestId + (v.core.conns c).history.withdrawn.count requestId

theorem View.Balanced.next {cfg : Config} {v v' : View Payload Output} (h : v.Balanced)
    (hv : v.Reached cfg) (hmoves : Moves cfg v v') : v'.Balanced := by
  have accounts := hmoves.accounts hv
  have hback := hmoves.state_back hv.registry
  refine ⟨fun c requestId => ?_, fun c hc => ?_, fun c requestId hc hroom => ?_⟩
  · have := (accounts c requestId).upper
    have := h.upper c requestId
    omega
  · have hc' := (hback c).1 hc
    have hne : (v.core.conns c).state ≠ .opened := by
      obtain hc' | hc' := hc' <;> exact fun hopen => by cases hopen.symm.trans hc'
    rw [(accounts c 0).accepted hne, h.young c hc']
  · obtain hc' | hc' := (hback c).2 hc
    · have := (accounts c requestId).lower hc' hc hroom
      have := h.lower c requestId hc' fun hfull => hroom ((accounts c requestId).overflowed hfull)
      omega
    · have hne : (v.core.conns c).state ≠ .opened := fun hopen => by cases hopen.symm.trans hc'
      rw [(accounts c requestId).accepted hne, h.young c (.inr hc')]
      exact Nat.zero_le _

theorem View.Reached.balanced {cfg : Config} {v : View Payload Output} (h : v.Reached cfg) :
    v.Balanced := by
  refine View.Reached.induction (I := View.Balanced) ?_ ?_ h
  · refine ⟨fun c requestId => ?_, fun _ _ => rfl, fun c requestId hc => by cases hc⟩
    simp [View.owed, View.owedElse, Worker.owed, Worker.resets, Frame.owes, Frame.resets,
      Connection.answered, BatchPolicy.empty]
  · exact fun v v' hv hbalanced hmoves => hbalanced.next hv hmoves

/-! ### What a session reads -/

def OutboxItem.answersTo (requestId : ℕ) : OutboxItem Output → Bool
  | .message m => m.answersTo requestId
  | .flush => false

namespace Connection

/-- How many answers to the request are in the outbox or on the link. -/
def delivered (k : Connection Payload Output) (requestId : ℕ) : ℕ :=
  k.wire.countP (ToSession.answersTo requestId) + k.outbox.countP (OutboxItem.answersTo requestId)

theorem delivered_enqueue (k : Connection Payload Output) (message : ToSession Output)
    (producer : Option (ServerRequest Payload)) (requestId : ℕ) :
    (k.enqueue message producer).delivered requestId =
      k.delivered requestId + (message.answersTo requestId).toNat := by
  simp only [delivered, enqueue, countP_concat, OutboxItem.answersTo]
  omega

theorem countP_send (message : ToSession Output) (outcome : SendOutcome) (requestId : ℕ) :
    (send message outcome).1.countP (ToSession.answersTo requestId) ≤
      (message.answersTo requestId).toNat := by
  have single (sent : ToSession Output)
      (h : sent.answersTo requestId = message.answersTo requestId) :
      [sent].countP (ToSession.answersTo requestId) ≤ (message.answersTo requestId).toNat := by
    rw [List.countP_singleton, h]
    cases message.answersTo requestId <;> simp
  cases outcome with
  | sent => exact single message rfl
  | refused exc =>
    cases message with
    | result requestId output => exact single (failure requestId exc) rfl
    | _ => exact Nat.zero_le _
  | gone => exact Nat.zero_le _

theorem delivered_write {k k' : Connection Payload Output} {outcome : SendOutcome}
    (h : k.write outcome = some k') (requestId : ℕ) :
    k'.delivered requestId ≤ k.delivered requestId := by
  obtain ⟨item, outbox, sent, _, _, houtbox, hsent, rfl⟩ := write_eq_some h
  have hle : sent.countP (ToSession.answersTo requestId) ≤ (item.answersTo requestId).toNat := by
    obtain rfl | ⟨message, rfl, rfl⟩ := hsent
    · exact Nat.zero_le _
    · exact countP_send message outcome requestId
  have hitem : k.outbox.countP (OutboxItem.answersTo requestId) =
      outbox.countP (OutboxItem.answersTo requestId) + (item.answersTo requestId).toNat := by
    rw [houtbox, List.countP_cons]
    cases item.answersTo requestId <;> rfl
  simp only [delivered, List.countP_append]
  omega

/-- A session reads no answer that was not posted. -/
theorem delivered_le : IsInvariant fun k : Connection Payload Output =>
    ∀ requestId, k.delivered requestId ≤ k.answered requestId where
  init := fun _ => le_rfl
  step k k' h hstep requestId := by
    have enqueued {k : Connection Payload Output} (message : ToSession Output)
        (producer : Option (ServerRequest Payload))
        (h : k.delivered requestId ≤ k.answered requestId) :
        (k.enqueue message producer).delivered requestId ≤
          (k.enqueue message producer).answered requestId := by
      rw [delivered_enqueue, answered_enqueue]
      omega
    have posted {k : Connection Payload Output} (message : ToSession Output)
        (producer : Option (ServerRequest Payload))
        (h : k.delivered requestId ≤ k.answered requestId) :
        (k.answer message producer).delivered requestId ≤
          (k.answer message producer).answered requestId := by
      rw [answer_eq]
      split_ifs
      · exact h
      · exact h
      · exact enqueued message producer h
    cases hstep with
    | answer message plain => exact posted message none (h requestId)
    | offer message plain =>
      rw [offer_eq]
      split_ifs
      · exact h requestId
      · exact enqueued message none (h requestId)
    | outcome message request slot generation => exact posted message _ (h requestId)
    | reply message replies holds => exact posted message none (h requestId)
    | close =>
      unfold close
      split_ifs
      · exact h requestId
      · simpa [delivered, OutboxItem.answersTo, answered] using h requestId
    | write _ outcome writes =>
      refine (delivered_write writes requestId).trans ?_
      obtain ⟨_, _, _, _, _, -, -, rfl⟩ := write_eq_some writes
      exact h requestId
    | _ => exact h requestId

end Connection

/-! ### Every step is answered once -/

/-- `drain` or `stop` has answered the requests that were in flight. -/
def Server.Answered (s : Server Payload Output) : Prop :=
  s.main = .idle ∧ s.core.state ≠ .serving ∨
    ∃ call worker, s.main = .answering call worker ∧ worker.done

/-- Then nothing is owed any more, and every registered connection is open. -/
theorem Server.Answered.settled {cfg : Config} {s : Server Payload Output} (h : s.Answered)
    (hs : (server cfg).Reachable s) :
    s.core.Quiet ∧ s.step.window = [] ∧ s.worker = .rest := by
  have hsettled : s.Settled ∧ (s.step = .ended → s.worker = .rest) := by
    obtain ⟨hidle, hstops⟩ | ⟨call, worker, hmain, hdone⟩ := h
    · refine ⟨by simp [Server.Settled, hidle, hstops], fun hended => ?_⟩
      rw [Server.worker, hidle, hended]
      rfl
    · refine ⟨by simp [Server.Settled, hmain], fun _ => ?_⟩
      rw [Server.worker, hmain]
      exact Worker.eq_rest_of_done hdone
  obtain ⟨hended, hquiet⟩ := (Server.stopping_of_reachable hs).settled hsettled.1
  refine ⟨hquiet, ?_, hsettled.2 hended⟩
  rw [hended]
  rfl

/-- Let the ids a session sends be distinct.  Then no step or reset is answered more than once, in the
outbox or on the link; and once `drain` or `stop` has answered what was in flight, every step that
was accepted on a connection that is still registered, and whose outbox never was full, has been
answered once, or was withdrawn by a cancel. -/
theorem answered_once {cfg : Config} {s : Server Payload Output} (h : (server cfg).Reachable s)
    (c : ℕ) (hdistinct : (s.core.conns c).history.received.Nodup) :
    (∀ requestId, (s.core.conns c).answered requestId ≤ 1 ∧
      (s.core.conns c).wire.countP (ToSession.answersTo requestId) ≤ 1) ∧
    (s.Answered → c ∈ s.core.connections → ¬ (s.core.conns c).history.overflowed →
      ∀ requestId ∈ (s.core.conns c).history.accepted,
        requestId ∉ (s.core.conns c).history.withdrawn →
          (s.core.conns c).answered requestId = 1) := by
  have hreached : s.view.Reached cfg := ⟨s, h, rfl⟩
  have hbalanced := hreached.balanced
  have honce (requestId : ℕ) : (s.core.conns c).answered requestId ≤ 1 := by
    have hcount := List.nodup_iff_count_le_one.mp hdistinct requestId
    have hupper : s.view.owed c requestId + s.view.owedElse c requestId +
        (s.core.conns c).answered requestId ≤
          (s.core.conns c).history.received.count requestId := hbalanced.upper c requestId
    omega
  refine ⟨fun requestId => ⟨honce requestId, ?_⟩,
    fun hanswered hregistered hroom requestId haccepted hwithdrawn => ?_⟩
  · have hdelivered : (s.core.conns c).delivered requestId ≤ (s.core.conns c).answered requestId :=
      hreached.connection Connection.delivered_le c requestId
    have := honce requestId
    unfold Connection.delivered at hdelivered
    omega
  · obtain ⟨⟨hwaiting, hpending⟩, hwindow, hworker⟩ := hanswered.settled h
    have hregistry : s.core.sessions.Registry s.worker.frame := hreached.registry
    have hopened : (s.core.conns c).state = .opened :=
      (hregistry.mem_connections (by rw [hworker]; rfl)).mp hregistered
    have howed : s.view.owed c requestId = 0 := by
      simp [View.owed, Server.view, hwaiting, hpending, hwindow, hworker, Worker.owed, Frame.owes]
    have hlower : (s.core.conns c).history.accepted.count requestId ≤ s.view.owed c requestId +
        (s.core.conns c).answered requestId +
          (s.core.conns c).history.withdrawn.count requestId :=
      hbalanced.lower c requestId hopened hroom
    have := List.count_pos_iff.mpr haccepted
    have := List.count_eq_zero.mpr hwithdrawn
    have := honce requestId
    omega

/-- The end of a run: `drain` is called and returns, with nothing pending. -/
def drainRun (Payload Output : Type*) : List (Label Payload Output) :=
  .drain :: .stepThread .returned :: List.replicate 3 (.main .returned)

/-- A session sends one step, and the model server drains before it takes a batch. -/
def drainedRun : List (Label Unit Unit) :=
  openRun Unit Unit ++ .receive 1 (.step ⟨0, none, ()⟩) :: drainRun Unit Unit

theorem isSome_drainedRun : ((server Config.single).run drainedRun).isSome := by
  decide +kernel

theorem answered_once_drained :
    ((((server Config.single).run drainedRun).get isSome_drainedRun).core.conns 1).answered 0 = 1 :=
  (answered_once (TransitionSystem.reachable_get drainedRun isSome_drainedRun) 1
      (by decide +kernel)).2
    (.inl ⟨MainThread.call?_eq_none.mp (by decide +kernel), by decide +kernel⟩) (by decide +kernel) (by decide +kernel) 0 (by decide +kernel)
    (by decide +kernel)

/-- A session has one step accepted and reads nothing any more.  It sends 63 more, whose refusals
fill its outbox, and the model server drains. -/
def floodRun : List (Label Unit Unit) :=
  openRun Unit Unit ++ .receive 1 (.step ⟨0, none, ()⟩) ::
    ((List.range 63).flatMap fun n => [.receive 1 (.step ⟨n + 1, none, ()⟩), .reply 1]) ++
    drainRun Unit Unit

/-- An accepted step that no cancel withdrew is left without an answer, although its connection is
still registered, when its session stopped reading. -/
theorem answer_lost : ¬ ∀ s : Server Unit Unit, (server Config.single).Reachable s → s.Answered →
    ∀ c ∈ s.core.connections, (s.core.conns c).history.received.Nodup →
      ∀ requestId ∈ (s.core.conns c).history.accepted,
        requestId ∉ (s.core.conns c).history.withdrawn →
          (s.core.conns c).answered requestId = 1 := by
  have hrun : ((server Config.single).run floodRun).any fun s =>
      s.main.call? = none ∧ s.core.state ≠ .serving ∧ 1 ∈ s.core.connections ∧
        (s.core.conns 1).history.received.Nodup ∧ 0 ∈ (s.core.conns 1).history.accepted ∧
        0 ∉ (s.core.conns 1).history.withdrawn ∧ (s.core.conns 1).answered 0 = 0 := by
    decide +kernel
  obtain ⟨s, hs, hlost⟩ := (Option.any_eq_true ..).mp hrun
  obtain ⟨hcall, hstate, hregistered, hdistinct, haccepted, hwithdrawn, hnone⟩ :=
    of_decide_eq_true hlost
  have hidle : s.main = .idle := MainThread.call?_eq_none.mp hcall
  intro hall
  have := hall s ⟨floodRun, hs⟩ (.inl ⟨hidle, hstate⟩) 1 hregistered hdistinct 0 haccepted hwithdrawn
  omega

end ReactorRuntime.ModelServer
