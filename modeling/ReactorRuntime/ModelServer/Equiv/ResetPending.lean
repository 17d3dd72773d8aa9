import ReactorRuntime.ModelServer.Equiv.Stopping

/-!
# Steps while a reset is pending

A reset of a session is outstanding from its receipt until a message that answers it is posted.  The
mark in `_reset_pending` is one for all the resets of a session, and is cleared before the answer is
posted.  `Server.Orderly` is the condition on a step of the model server under which the mark is
there for as long as a reset is outstanding.

* `steps_refused_while_reset_pending`: in a run whose steps are all orderly, a step that a session
  sends while a reset of it is outstanding is refused with `ResetRequired`.
* `step_accepted_while_reset_pending`: with two resets outstanding, the answer to the first lets a
  step pass that comes before the second is answered.
-/

namespace ReactorRuntime.ModelServer

variable {Payload Output : Type*}

/-! ### Outstanding resets -/

namespace Connection

/-- The reset was received, and no message that answers it was posted. -/
def Outstanding (k : Connection Payload Output) (requestId : ℕ) : Prop :=
  requestId ∈ k.history.resets ∧
    ∀ posted ∈ k.history.posted, posted.message.requestId? ≠ some requestId

instance (k : Connection Payload Output) (requestId : ℕ) : Decidable (k.Outstanding requestId) :=
  inferInstanceAs (Decidable (_ ∧ _))

def Lives (k : Connection Payload Output) : Prop := k.state = .opening ∨ k.state = .opened

/-- No message was received yet. -/
def Unheard (k : Connection Payload Output) : Prop := k.reader = .absent ∨ k.reader = .hello

/-- What an operation keeps that neither receives a reset nor begins to open the connection. -/
structure Calm (k k' : Connection Payload Output) : Prop where
  resets : k'.history.resets = k.history.resets
  posted : k.history.posted <+: k'.history.posted
  unheard : k'.Unheard → k.Unheard
  opening : k'.state = .opening → k.state = .opening
  lives : k'.Lives → k.Lives

theorem Calm.of_history {k k' : Connection Payload Output} (hhistory : k'.history = k.history)
    (hreader : k'.reader = k.reader) (hstate : k'.state = k.state) : Calm k k' where
  resets := by rw [hhistory]
  posted := hhistory ▸ List.prefix_rfl
  unheard := by
    unfold Unheard
    rw [hreader]
    exact id
  opening := fun h => hstate ▸ h
  lives := by
    unfold Lives
    rw [hstate]
    exact id

theorem Calm.refl (k : Connection Payload Output) : Calm k k := .of_history rfl rfl rfl

theorem Calm.trans {k k' k'' : Connection Payload Output} (h : Calm k k') (h' : Calm k' k'') :
    Calm k k'' where
  resets := h'.resets.trans h.resets
  posted := h.posted.trans h'.posted
  unheard := h.unheard ∘ h'.unheard
  opening := h.opening ∘ h'.opening
  lives := h.lives ∘ h'.lives

theorem Calm.close (k : Connection Payload Output) : Calm k k.close :=
  .of_history k.history_close k.reader_close k.state_close

theorem Calm.enqueue (k : Connection Payload Output) (message : ToSession Output)
    (producer : Option (ServerRequest Payload)) : Calm k (k.enqueue message producer) :=
  ⟨rfl, List.prefix_append _ _, id, id, id⟩

theorem Calm.answer (k : Connection Payload Output) (message : ToSession Output)
    (producer : Option (ServerRequest Payload)) : Calm k (k.answer message producer) := by
  rw [answer_eq]
  split_ifs
  · exact .refl k
  · exact ⟨rfl, List.prefix_rfl, id, id, id⟩
  · exact .enqueue k message producer

theorem Calm.offer (k : Connection Payload Output) (message : ToSession Output) :
    Calm k (k.offer message) := by
  rw [offer_eq]
  split_ifs
  · exact .refl k
  · exact .enqueue k message none

theorem Calm.leave (k : Connection Payload Output) {state : ConnectionState}
    (h : state = .closing ∨ state = .closed) : Calm k { k with state } where
  resets := rfl
  posted := List.prefix_rfl
  unheard := id
  opening := by rintro rfl; simp at h
  lives := by rintro (rfl | rfl) <;> simp at h

theorem Calm.opened {k : Connection Payload Output} (h : k.Lives) :
    Calm k { k with state := .opened } :=
  ⟨rfl, List.prefix_rfl, id, nofun, fun _ => h⟩

theorem Calm.reader (k : Connection Payload Output) {reader : Reader}
    (h : reader = .leaving ∨ reader = .ended) : Calm k { k with reader } where
  resets := rfl
  posted := List.prefix_rfl
  unheard := by rintro (rfl | rfl) <;> simp at h
  opening := id
  lives := id

/-- A message that is posted is an answer from then on. -/
theorem Calm.outstanding {k k' : Connection Payload Output} (h : Calm k k') {requestId : ℕ}
    (h' : k'.Outstanding requestId) : k.Outstanding requestId :=
  ⟨h.resets ▸ h'.1, fun posted hposted => h'.2 posted (h.posted.subset hposted)⟩

theorem not_outstanding_answer {k : Connection Payload Output} (hlives : k.Lives)
    (hroom : k.outbox.length < DEFAULT_OUTBOX) {message : ToSession Output} {requestId : ℕ}
    (hmessage : message.requestId? = some requestId) (producer : Option (ServerRequest Payload)) :
    ¬ (k.answer message producer).Outstanding requestId := by
  have hclosed : k.state ≠ .closed := by
    obtain h | h := hlives <;> simp [h]
  rw [answer_eq, if_neg hclosed, if_neg (by omega)]
  rintro ⟨-, hnone⟩
  exact hnone _ (List.mem_append_right _ List.mem_cons_self) hmessage

end Connection

/-- What an operation keeps that neither receives a reset, nor begins to open a connection, nor
queues an event, nor changes a mark. -/
structure Core.Still (core core' : Core Payload Output) : Prop where
  calm : ∀ c, (core.conns c).Calm (core'.conns c)
  events : core'.events = core.events
  resetPending : core'.resetPending = core.resetPending

namespace Core

variable {core core' core'' : Core Payload Output}

theorem calm_update {c : ℕ} {k : Connection Payload Output}
    (h : core'.conns = Function.update core.conns c k) (hk : (core.conns c).Calm k) (d : ℕ) :
    (core.conns d).Calm (core'.conns d) := by
  rw [h, Function.update_apply]
  split_ifs with hd
  · rw [hd]
    exact hk
  · exact .refl _

theorem calm_modify (core : Core Payload Output) (c : ℕ)
    (f : Connection Payload Output → Connection Payload Output)
    (hhistory : ∀ k, (f k).history = k.history) (hreader : ∀ k, (f k).reader = k.reader)
    (hstate : ∀ k, (f k).state = k.state) (d : ℕ) :
    (core.conns d).Calm ((core.modify c f).conns d) :=
  calm_update rfl (.of_history (hhistory _) (hreader _) (hstate _)) d

theorem calm_leave (core : Core Payload Output) (c : ℕ) {state : ConnectionState}
    (h : state = .closing ∨ state = .closed) (d : ℕ) :
    (core.conns d).Calm (((core.setState c state).close c).conns d) :=
  (calm_update (c := c) rfl (.leave _ h) d).trans (calm_update (c := c) rfl (.close _) d)

theorem not_outstanding_answer (core : Core Payload Output) {c requestId : ℕ}
    {message : ToSession Output} (hroom : (core.conns c).outbox.length < DEFAULT_OUTBOX)
    (hmessage : message.requestId? = some requestId)
    (hlives : ((core.answer c message).conns c).Lives) :
    ¬ ((core.answer c message).conns c).Outstanding requestId := by
  have hanswer : ((core.answer c message).conns c) = (core.conns c).answer message :=
    Function.update_self ..
  rw [hanswer] at hlives ⊢
  exact Connection.not_outstanding_answer ((Connection.Calm.answer _ message none).lives hlives) hroom
    hmessage none

namespace Still

theorem refl (core : Core Payload Output) : core.Still core := ⟨fun _ => .refl _, rfl, rfl⟩

theorem trans (h : core.Still core') (h' : core'.Still core'') : core.Still core'' :=
  ⟨fun c => (h.calm c).trans (h'.calm c), h'.events.trans h.events,
    h'.resetPending.trans h.resetPending⟩

theorem of_eq (hconns : core'.conns = core.conns) (hevents : core'.events = core.events)
    (hpending : core'.resetPending = core.resetPending) : core.Still core' :=
  ⟨fun _ => hconns ▸ .refl _, hevents, hpending⟩

theorem answer (c : ℕ) (message : ToSession Output) (producer : Option (ServerRequest Payload)) :
    core.Still (core.answer c message producer) :=
  ⟨calm_update rfl (.answer _ message producer), rfl, rfl⟩

theorem foldl {α : Type*} {f : Core Payload Output → α → Core Payload Output}
    (hf : ∀ (core : Core Payload Output) (a : α), core.Still (f core a)) :
    ∀ (as : List α) (core : Core Payload Output), core.Still (as.foldl f core)
  | [], core => refl core
  | a :: as, core => (hf core a).trans (foldl hf as (f core a))

theorem completeTicket (core : Core Payload Output) (ticket : ℕ) (output : Outcome Output) :
    core.Still (core.completeTicket ticket output) := by
  unfold Core.completeTicket
  split
  · exact refl core
  · rw [complete_eq]
    split_ifs
    · exact (answer _ _ _).trans (of_eq rfl rfl rfl)
    · exact (answer _ _ _).trans (of_eq rfl rfl rfl)
    · exact of_eq rfl rfl rfl
    · exact of_eq rfl rfl rfl

theorem finishBatch (core : Core Payload Output) (items : List (Pending Payload))
    (stepReturn : StepReturn Output) : core.Still (core.finishBatch items stepReturn) := by
  have fail (exc : Fault) : core.Still (core.failBatch items exc) :=
    foldl (fun core _ => completeTicket core _ _) items core
  cases stepReturn with
  | raised exc => exact fail _
  | notSequence typeName => exact fail _
  | outputs outputs =>
    unfold Core.finishBatch
    dsimp only
    split_ifs
    · refine foldl (fun core p => ?_) _ core
      cases p.2 with
      | done outcome => exact completeTicket core _ _
      | future => exact of_eq rfl rfl rfl
    · exact fail _

end Still

end Core

/-! ### The events that wait -/

def Job.event? : Job Output → Option Event
  | .apply event => some event
  | _ => none

/-- The lifecycle event a frame is applying, for as long as the connection is not open yet, or the
mark of the reset is not cleared. -/
def Frame.event? : Frame Payload Output → Option Event
  | .leave _ next | .leaveMove _ next | .forget _ _ next | .closeHook _ next => next.map .enter
  | .openNext c | .openHook c | .openRefused c _ _ | .openClose c => some (.enter c)
  | .resetDrop event | .resetAnswers event _ | .resetHook event => some (.reset event)
  | .idle | .answer _ _ | .resetReject _ _ | .resetForget _ => none

def Frame.settles : Frame Payload Output → Option (ℕ × ℕ)
  | .answer c message => message.requestId?.map fun requestId => (c, requestId)
  | .resetReject event _ => some (event.connection, event.requestId)
  | _ => none

def Job.events (jobs : List (Job Output)) : List Event := jobs.filterMap Job.event?

/-- The lifecycle events that were not applied yet, in the order they will be. -/
def Core.waiting (core : Core Payload Output) (worker : Worker Payload Output) : List Event :=
  worker.frame.event?.toList ++ Job.events worker.jobs ++ core.events

/-- While the model server serves, the resets that are outstanding wait with their session's mark
set, or are being answered. -/
structure Core.Marked (core : Core Payload Output) (worker : Worker Payload Output) : Prop where
  unheard : ∀ c, (core.conns c).Unheard → (core.conns c).history.resets = []
  recorded : ∀ event, .reset event ∈ core.waiting worker →
    event.requestId ∈ (core.conns event.connection).history.resets
  /-- The server serves, so no event is refused. -/
  applies : ∀ event, .refuse event ∉ worker.jobs
  entering : ∀ c, (core.conns c).state = .opening → .enter c ∈ core.waiting worker
  /-- A session is opened before its resets are applied. -/
  ordered : (core.waiting worker).Pairwise fun a b =>
    ∀ event, a = .reset event → b ≠ .enter event.connection
  marked : ∀ event, .reset event ∈ core.waiting worker → (core.conns event.connection).Lives →
    event.connection ∈ core.resetPending
  tracked : ∀ c, (core.conns c).Lives → ∀ requestId, (core.conns c).Outstanding requestId →
    (∃ sessionId, .reset ⟨c, requestId, sessionId⟩ ∈ core.waiting worker) ∨
      worker.frame.settles = some (c, requestId)

namespace Core.Marked

variable {core core' : Core Payload Output} {worker worker' : Worker Payload Output}

/-- What a step keeps that applies no event but the ones it drops. -/
theorem of_calm (h : core.Marked worker) (hcalm : ∀ c, (core.conns c).Calm (core'.conns c))
    (happlies : ∀ event, .refuse event ∉ worker'.jobs)
    (hwaiting : (core'.waiting worker').Sublist (core.waiting worker))
    (henter : ∀ c, .enter c ∈ core.waiting worker → (core'.conns c).state = .opening →
      .enter c ∈ core'.waiting worker')
    (hreset : ∀ event, .reset event ∈ core.waiting worker →
      (core'.conns event.connection).Lives → .reset event ∈ core'.waiting worker' ∨
        worker'.frame.settles = some (event.connection, event.requestId))
    (hpending : ∀ event, .reset event ∈ core'.waiting worker' →
      (core'.conns event.connection).Lives → event.connection ∈ core.resetPending →
        event.connection ∈ core'.resetPending)
    (hsettles : ∀ c requestId, worker.frame.settles = some (c, requestId) →
      (core'.conns c).Lives → (core'.conns c).Outstanding requestId →
        worker'.frame.settles = some (c, requestId)) : core'.Marked worker' where
  unheard c hc := (hcalm c).resets.trans (h.unheard c ((hcalm c).unheard hc))
  recorded event hevent := (hcalm _).resets ▸ h.recorded event (hwaiting.subset hevent)
  applies := happlies
  entering c hc := henter c (h.entering c ((hcalm c).opening hc)) hc
  ordered := h.ordered.sublist hwaiting
  marked event hevent hlives := hpending event hevent hlives
    (h.marked event (hwaiting.subset hevent) ((hcalm _).lives hlives))
  tracked c hlives requestId houtstanding := by
    obtain ⟨sessionId, hevent⟩ | hframe := h.tracked c ((hcalm c).lives hlives) requestId
      ((hcalm c).outstanding houtstanding)
    · exact (hreset _ hevent hlives).imp_left fun hw => ⟨sessionId, hw⟩
    · exact .inr (hsettles c requestId hframe hlives houtstanding)

theorem still (h : core.Marked worker) (hstill : core.Still core') : core'.Marked worker := by
  have hwaiting : core'.waiting worker = core.waiting worker := by
    rw [waiting, hstill.events]
    rfl
  refine h.of_calm hstill.calm h.applies (hwaiting ▸ List.Sublist.refl _) ?_ ?_ ?_ ?_
  · exact fun c hc _ => hwaiting ▸ hc
  · exact fun event hevent _ => .inl (hwaiting ▸ hevent)
  · exact fun event _ _ hc => hstill.resetPending ▸ hc
  · exact fun c requestId hframe _ _ => hframe

theorem waiting_queue {event : Event} (hevents : core'.events = core.events ++ [event]) :
    core'.waiting worker = core.waiting worker ++ [event] := by
  rw [waiting, hevents, ← List.append_assoc]
  rfl

theorem ordered_queue (h : core.Marked worker) {event : Event}
    (hentered : ∀ c, event = .enter c → (core.conns c).history.resets = []) :
    (core.waiting worker ++ [event]).Pairwise fun a b =>
      ∀ event, a = .reset event → b ≠ .enter event.connection := by
  refine List.pairwise_append.mpr ⟨h.ordered, List.pairwise_singleton _ _, ?_⟩
  rintro a ha b hb reset rfl rfl
  have := h.recorded reset ha
  rw [hentered _ (List.mem_singleton.mp hb).symm] at this
  cases this

theorem queueLeave (h : core.Marked worker) (hcalm : ∀ c, (core.conns c).Calm (core'.conns c))
    {c : ℕ} (hevents : core'.events = core.events ++ [.leave c])
    (hpending : core'.resetPending = core.resetPending) : core'.Marked worker where
  unheard d hd := (hcalm d).resets.trans (h.unheard d ((hcalm d).unheard hd))
  recorded event hevent := by
    rw [waiting_queue hevents] at hevent
    exact (hcalm _).resets ▸ h.recorded event (by simpa using hevent)
  applies := h.applies
  entering d hd := by
    rw [waiting_queue hevents]
    exact List.mem_append_left _ (h.entering d ((hcalm d).opening hd))
  ordered := by
    rw [waiting_queue hevents]
    exact h.ordered_queue nofun
  marked event hevent hlives := by
    rw [waiting_queue hevents] at hevent
    exact hpending ▸ h.marked event (by simpa using hevent) ((hcalm _).lives hlives)
  tracked d hlives requestId houtstanding := by
    rw [waiting_queue hevents]
    refine (h.tracked d ((hcalm d).lives hlives) requestId
      ((hcalm d).outstanding houtstanding)).imp_left ?_
    exact fun ⟨sessionId, hevent⟩ => ⟨sessionId, List.mem_append_left _ hevent⟩

theorem queueEnter (h : core.Marked worker) {c : ℕ} {k : Connection Payload Output}
    (hconns : core'.conns = Function.update core.conns c k) (hhistory : k.history =
      (core.conns c).history) (hunheard : (core.conns c).Unheard)
    (hevents : core'.events = core.events ++ [.enter c])
    (hpending : core'.resetPending = core.resetPending) : core'.Marked worker := by
  have hresets : (core.conns c).history.resets = [] := h.unheard c hunheard
  have conns {d : ℕ} (hd : d ≠ c) : core'.conns d = core.conns d := by
    rw [hconns, Function.update_of_ne hd]
  have self : (core'.conns c).history = (core.conns c).history := by
    rw [hconns, Function.update_self, hhistory]
  have history (d : ℕ) : (core'.conns d).history = (core.conns d).history := by
    by_cases hd : d = c
    · rw [hd, self]
    · rw [conns hd]
  have ne_of_reset {event : ResetEvent} (hevent : .reset event ∈ core.waiting worker) :
      event.connection ≠ c := by
    rintro rfl
    have := h.recorded event hevent
    rw [hresets] at this
    cases this
  have old {event : ResetEvent} (hevent : .reset event ∈ core'.waiting worker) :
      .reset event ∈ core.waiting worker := by
    rw [waiting_queue hevents] at hevent
    simpa using hevent
  refine ⟨fun d hd => ?_, fun event hevent => ?_, h.applies, fun d hd => ?_, ?_,
    fun event hevent hlives => ?_, fun d hlives requestId houtstanding => ?_⟩
  · rw [history d]
    by_cases hdc : d = c
    · rw [hdc, hresets]
    · exact h.unheard d (conns hdc ▸ hd)
  · rw [history]
    exact h.recorded event (old hevent)
  · rw [waiting_queue hevents]
    by_cases hdc : d = c
    · simp [hdc]
    · exact List.mem_append_left _ (h.entering d (conns hdc ▸ hd))
  · rw [waiting_queue hevents]
    refine h.ordered_queue fun d hd => ?_
    obtain rfl := Event.enter.inj hd
    exact hresets
  · rw [hpending]
    exact h.marked event (old hevent) (conns (ne_of_reset (old hevent)) ▸ hlives)
  · have houtstanding' : (core.conns d).Outstanding requestId := by
      rw [Connection.Outstanding, history d] at houtstanding
      exact houtstanding
    by_cases hdc : d = c
    · rw [hdc, Connection.Outstanding, hresets] at houtstanding'
      cases houtstanding'.1
    · rw [waiting_queue hevents]
      refine (h.tracked d (conns hdc ▸ hlives) requestId houtstanding').imp_left ?_
      exact fun ⟨sessionId, hevent⟩ => ⟨sessionId, List.mem_append_left _ hevent⟩

theorem takeReset (h : core.Marked worker) (hserving : core.state = .serving) (event : ResetEvent)
    (heard : ¬ (core.conns event.connection).Unheard) : (core.takeReset event).Marked worker := by
  have hconns : (core.takeReset event).conns = Function.update core.conns event.connection
      { core.conns event.connection with history := { (core.conns event.connection).history with
        received := (core.conns event.connection).history.received ++ [event.requestId]
        resets := (core.conns event.connection).history.resets ++ [event.requestId] } } := by
    unfold Core.takeReset
    dsimp only
    rw [if_pos hserving]
    rfl
  have hevents : (core.takeReset event).events = core.events ++ [.reset event] := by
    unfold Core.takeReset
    dsimp only
    rw [if_pos hserving]
    rfl
  have hpending : (core.takeReset event).resetPending =
      insert event.connection core.resetPending := by
    unfold Core.takeReset
    dsimp only
    rw [if_pos hserving]
  have state (d : ℕ) : ((core.takeReset event).conns d).state = (core.conns d).state ∧
      ((core.takeReset event).conns d).reader = (core.conns d).reader ∧
      ((core.takeReset event).conns d).history.posted = (core.conns d).history.posted := by
    rw [hconns, Function.update_apply]
    split_ifs with hd
    · rw [hd]
      exact ⟨rfl, rfl, rfl⟩
    · exact ⟨rfl, rfl, rfl⟩
  have resets (d : ℕ) : ((core.takeReset event).conns d).history.resets =
      if d = event.connection then (core.conns d).history.resets ++ [event.requestId]
      else (core.conns d).history.resets := by
    rw [hconns, Function.update_apply]
    split_ifs with hd
    · rw [hd]
    · rfl
  have lives (d : ℕ) : ((core.takeReset event).conns d).Lives ↔ (core.conns d).Lives := by
    rw [Connection.Lives, (state d).1]
    rfl
  refine ⟨fun d hd => ?_, fun other hother => ?_, h.applies, fun d hd => ?_, ?_,
    fun other hother hlives => ?_, fun d hlives requestId houtstanding => ?_⟩
  · have hd' : (core.conns d).Unheard := by
      rw [Connection.Unheard, (state d).2.1] at hd
      exact hd
    have hne : d ≠ event.connection := by
      rintro rfl
      exact heard hd'
    rw [resets, if_neg hne]
    exact h.unheard d hd'
  · rw [waiting_queue hevents, List.mem_append, List.mem_singleton] at hother
    rw [resets]
    obtain hother | hother := hother
    · split_ifs
      · exact List.mem_append_left _ (h.recorded other hother)
      · exact h.recorded other hother
    · obtain rfl := Event.reset.inj hother
      simp
  · rw [waiting_queue hevents]
    exact List.mem_append_left _ (h.entering d ((state d).1 ▸ hd))
  · rw [waiting_queue hevents]
    exact h.ordered_queue nofun
  · rw [waiting_queue hevents, List.mem_append, List.mem_singleton] at hother
    rw [hpending]
    obtain hother | hother := hother
    · exact Finset.mem_insert_of_mem (h.marked other hother ((lives _).mp hlives))
    · obtain rfl := Event.reset.inj hother
      exact Finset.mem_insert_self _ _
  · rw [Connection.Outstanding, resets, (state d).2.2] at houtstanding
    rw [waiting_queue hevents]
    by_cases hnew : d = event.connection ∧ requestId = event.requestId
    · obtain ⟨rfl, rfl⟩ := hnew
      exact .inl ⟨event.sessionId, List.mem_append_right _ List.mem_cons_self⟩
    · have houtstanding' : (core.conns d).Outstanding requestId := by
        refine ⟨?_, houtstanding.2⟩
        obtain ⟨hmem, -⟩ := houtstanding
        split_ifs at hmem with hd
        · obtain hmem | hmem := List.mem_append.mp hmem
          · exact hmem
          · exact absurd ⟨hd, List.mem_singleton.mp hmem⟩ hnew
        · exact hmem
      refine (h.tracked d ((lives d).mp hlives) requestId houtstanding').imp_left ?_
      exact fun ⟨sessionId, hevent⟩ => ⟨sessionId, List.mem_append_left _ hevent⟩

end Core.Marked

/-! ### The other threads -/

/-- The steps of the other threads. -/
theorem Core.Marked.heard {cfg : Config} {core core' : Core Payload Output}
    {worker : Worker Payload Output} (h : core.Marked worker) (hserving : core'.state = .serving)
    (hfresh : (core.conns core.numbers).reader = .absent) (hh : Heard cfg core core') :
    core'.Marked worker := by
  have one {core' : Core Payload Output} {c : ℕ} {k : Connection Payload Output}
      (hconns : core'.conns = Function.update core.conns c k) (hk : (core.conns c).Calm k)
      (hevents : core'.events = core.events) (hpending : core'.resetPending = core.resetPending) :
      core'.Marked worker :=
    h.still ⟨Core.calm_update hconns hk, hevents, hpending⟩
  have same {core' : Core Payload Output} (hconns : core'.conns = core.conns)
      (hevents : core'.events = core.events) (hpending : core'.resetPending = core.resetPending) :
      core'.Marked worker :=
    h.still (.of_eq hconns hevents hpending)
  cases hh with
  | tick clock => exact same rfl rfl rfl
  | accept =>
    unfold Core.accept
    dsimp only
    split_ifs
    · exact one (c := core.numbers) rfl ⟨rfl, List.prefix_rfl, fun _ => .inl hfresh, id, id⟩ rfl rfl
    · exact one (c := core.numbers) rfl (.close _) rfl rfl
  | hello c hello greets =>
    have refuse (reason : String) : (core.modify c fun k =>
        { k.offer (.refused reason) with reader := .leaving }).Marked worker :=
      one rfl ((Connection.Calm.offer _ (.refused reason)).trans (.reader _ (.inl rfl))) rfl rfl
    unfold Core.hello
    dsimp only
    split
    · exact refuse _
    · split_ifs
      · split
        · next opening hmove =>
          obtain ⟨-, rfl⟩ := Connection.move_eq_some.mp hmove
          exact h.queueEnter rfl rfl (.inr greets) rfl rfl
        · exact one (k := { core.conns c with slot := some hello.slot.toNat, reader := .leaving }) rfl
            ⟨rfl, List.prefix_rfl, fun _ => .inr greets, id, id⟩ rfl rfl
      · refine one rfl (Connection.Calm.trans ?_ ((Connection.Calm.close
          { core.conns c with slot := some hello.slot.toNat }).trans (.reader _ (.inl rfl)))) rfl rfl
        exact .of_history rfl rfl rfl
      · exact refuse _
  | helloExpired c =>
    unfold Core.helloExpired
    split_ifs
    · exact one (c := c) rfl (.of_history rfl rfl rfl) rfl rfl
    · exact h
  | take c step reads free =>
    unfold Core.take
    split
    · exact one (c := c) rfl ⟨rfl, List.prefix_rfl, id, id, id⟩ rfl rfl
    · exact one (c := c) rfl ⟨rfl, List.prefix_rfl, id, id, id⟩ rfl rfl
  | cancel c requestId =>
    unfold Core.cancelRequest
    split
    · exact one (c := c) rfl ⟨rfl, List.prefix_rfl, id, id, id⟩ rfl rfl
    · exact one (c := c) rfl ⟨rfl, List.prefix_rfl, id, id, id⟩ rfl rfl
  | signal => exact h
  | reset event reads =>
    refine h.takeReset ((core.state_takeReset event).symm.trans hserving) event ?_
    simp [Connection.Unheard, reads]
  | reply c message replies holds =>
    rw [Core.answer_modify]
    refine one (c := c) rfl (Connection.Calm.trans ?_ (.answer { core.conns c with replies } _ _))
      rfl rfl
    exact .of_history rfl rfl rfl
  | hangUp c hung =>
    exact h.queueLeave (Core.calm_update (c := c) rfl (.reader _ (.inr rfl))) rfl rfl
  | write c outcome k writes =>
    obtain ⟨_, _, _, _, _, -, -, rfl⟩ := Connection.write_eq_some writes
    exact one rfl (.of_history rfl rfl rfl) rfl rfl
  | resolve ticket futureEnd done => exact h.still (.completeTicket core ticket _)
  | stopping state stops => exact same rfl rfl rfl

/-! ### The step thread -/

theorem Core.waiting_job (core : Core Payload Output) (job : Job Output) (jobs : List (Job Output)) :
    core.waiting ⟨.idle, job :: jobs⟩ = job.event?.toList ++ core.waiting ⟨.idle, jobs⟩ := by
  cases hjob : job.event? <;>
    simp [Core.waiting, Job.events, Frame.event?, hjob]

theorem Core.Starts.marked {core core' : Core Payload Output} {job : Job Output}
    {jobs : List (Job Output)} {frame : Frame Payload Output} (hs : core.Starts job core' frame)
    (h : core.Marked ⟨.idle, job :: jobs⟩) : core'.Marked ⟨frame, jobs⟩ := by
  have happlies : ∀ event, .refuse event ∉ jobs := fun event hevent =>
    h.applies event (List.mem_cons_of_mem _ hevent)
  -- the event of the job goes to the frame, or the job had none
  have moved {core' : Core Payload Output} {frame : Frame Payload Output}
      (hcalm : ∀ c, (core.conns c).Calm (core'.conns c)) (hevents : core'.events = core.events)
      (hpending : core'.resetPending = core.resetPending)
      (hevent : frame.event? = job.event?) : core'.Marked ⟨frame, jobs⟩ := by
    have hwaiting : core'.waiting ⟨frame, jobs⟩ = core.waiting ⟨.idle, job :: jobs⟩ := by
      rw [waiting_job, waiting, hevent, hevents, List.append_assoc]
      rfl
    refine h.of_calm hcalm happlies (hwaiting ▸ List.Sublist.refl _) ?_ ?_ ?_ nofun
    · exact fun c hc _ => hwaiting ▸ hc
    · exact fun event hevent _ => .inl (hwaiting ▸ hevent)
    · exact fun event _ _ hc => hpending ▸ hc
  have same (hevent : frame.event? = job.event?) : core.Marked ⟨frame, jobs⟩ :=
    moved (fun _ => .refl _) rfl rfl hevent
  -- the event of the job is dropped
  have dropped {core' : Core Payload Output} {frame : Frame Payload Output} {event : Event}
      (hjob : job.event? = some event) (hframe : frame.event? = none)
      (hcalm : ∀ c, (core.conns c).Calm (core'.conns c)) (hevents : core'.events = core.events)
      (henter : ∀ c, event = .enter c → (core'.conns c).state ≠ .opening)
      (hreset : ∀ reset, event = .reset reset → ¬ (core'.conns reset.connection).Lives)
      (hpending : ∀ c, (core'.conns c).Lives → c ∈ core.resetPending → c ∈ core'.resetPending) :
      core'.Marked ⟨frame, jobs⟩ := by
    have hwaiting : core.waiting ⟨.idle, job :: jobs⟩ = event :: core'.waiting ⟨frame, jobs⟩ := by
      rw [waiting_job, hjob, waiting, waiting, hevents, hframe]
      rfl
    refine h.of_calm hcalm happlies (hwaiting ▸ List.sublist_cons_self _ _) ?_ ?_ ?_ nofun
    · intro c hc hopening
      rw [hwaiting] at hc
      obtain hc | hc := List.mem_cons.mp hc
      · exact absurd hopening (henter c hc.symm)
      · exact hc
    · intro reset hc hlives
      rw [hwaiting] at hc
      obtain hc | hc := List.mem_cons.mp hc
      · exact absurd hlives (hreset reset hc.symm)
      · exact .inl hc
    · exact fun reset _ hlives hc => hpending reset.connection hlives hc
  cases hs with
  | answer c message =>
    exact moved (Core.Still.answer c message none).calm rfl rfl rfl
  | postTo c message registered =>
    exact moved (Core.Still.answer c message none).calm rfl rfl rfl
  | postToNobody c message gone => exact same rfl
  | leave c => exact same rfl
  | applyLeave c => exact dropped rfl rfl (fun _ => .refl _) rfl nofun nofun fun _ _ hc => hc
  | refuseLeave c => exact absurd List.mem_cons_self (h.applies _)
  | enterLate c late =>
    refine dropped rfl rfl (fun _ => .refl _) rfl ?_ nofun fun _ _ hc => hc
    rintro d hd
    obtain rfl := Event.enter.inj hd
    exact late
  | replace c held opening holds ne => exact same rfl
  | enter c opening free => exact same rfl
  | refuseEnter c => exact absurd List.mem_cons_self (h.applies _)
  | reset event opened => exact same rfl
  | resetLate event late =>
    have hdead : ¬ (core.conns event.connection).Lives := by
      rintro (hopening | hopened)
      · -- the session's open would wait behind its reset
        have henter := h.entering event.connection hopening
        have hordered := h.ordered
        rw [waiting_job] at henter hordered
        obtain henter | henter := List.mem_append.mp henter
        · cases henter with
          | tail _ hnil => cases hnil
        · exact (List.pairwise_append.mp hordered).2.2 (.reset event) List.mem_cons_self _ henter
            event rfl rfl
      · exact late hopened
    refine dropped rfl rfl (fun _ => .refl _) rfl nofun ?_ ?_
    · rintro reset hreset
      obtain rfl := Event.reset.inj hreset
      exact hdead
    · rintro c hlives hc
      refine Finset.mem_erase.mpr ⟨?_, hc⟩
      rintro rfl
      exact hdead hlives
  | refuseReset event => exact absurd List.mem_cons_self (h.applies _)
  | closeOpening c unopened =>
    exact moved (core.calm_leave c (.inl rfl)) rfl rfl rfl
  | closeOpened c => exact same rfl

theorem event?_after (next : Option ℕ) :
    (Frame.after next : Frame Payload Output).event? = next.map .enter := by
  cases next <;> rfl

theorem Core.Advances.marked {cfg : Config} {core core' : Core Payload Output}
    {frame frame' : Frame Payload Output} {jobs : List (Job Output)}
    (ha : core.Advances cfg frame core' frame') (hr : core.sessions.Registry frame)
    (h : core.Marked ⟨frame, jobs⟩)
    (halone : ∀ event, frame = .resetHook event → ∀ other,
      .reset other ∈ Job.events jobs ++ core.events → other.connection ≠ event.connection)
    (hroom : ∀ c requestId, frame.settles = some (c, requestId) →
      (core.conns c).outbox.length < DEFAULT_OUTBOX) : core'.Marked ⟨frame', jobs⟩ := by
  have happlies := h.applies
  -- the frame is still about the same event
  have same {core' : Core Payload Output} {frame' : Frame Payload Output}
      (hcalm : ∀ c, (core.conns c).Calm (core'.conns c)) (hevents : core'.events = core.events)
      (hpending : ∀ c, (core'.conns c).Lives → c ∈ core.resetPending → c ∈ core'.resetPending)
      (hevent : frame'.event? = frame.event?)
      (hsettles : ∀ c requestId, frame.settles = some (c, requestId) → (core'.conns c).Lives →
        ¬ (core'.conns c).Outstanding requestId) : core'.Marked ⟨frame', jobs⟩ := by
    have hwaiting : core'.waiting ⟨frame', jobs⟩ = core.waiting ⟨frame, jobs⟩ := by
      rw [waiting, waiting, hevent, hevents]
    refine h.of_calm hcalm happlies (hwaiting ▸ List.Sublist.refl _) ?_ ?_ ?_ ?_
    · exact fun c hc _ => hwaiting ▸ hc
    · exact fun event hevent _ => .inl (hwaiting ▸ hevent)
    · exact fun event _ hlives hc => hpending _ hlives hc
    · exact fun c requestId hc hlives hout => absurd hout (hsettles c requestId hc hlives)
  -- the frame is done with its event
  have dropped {core' : Core Payload Output} {frame' : Frame Payload Output} {event : Event}
      (hframe : frame.event? = some event) (hframe' : frame'.event? = none)
      (hcalm : ∀ c, (core.conns c).Calm (core'.conns c)) (hevents : core'.events = core.events)
      (henter : ∀ c, event = .enter c → (core'.conns c).state ≠ .opening)
      (hreset : ∀ reset, event = .reset reset →
        frame'.settles = some (reset.connection, reset.requestId))
      (hpending : ∀ reset, .reset reset ∈ Job.events jobs ++ core.events →
        reset.connection ∈ core.resetPending → reset.connection ∈ core'.resetPending)
      (hsettles : frame.settles = none) : core'.Marked ⟨frame', jobs⟩ := by
    have hwaiting' : core'.waiting ⟨frame', jobs⟩ = Job.events jobs ++ core.events := by
      rw [waiting, hframe', hevents]
      rfl
    have hwaiting : core.waiting ⟨frame, jobs⟩ = event :: core'.waiting ⟨frame', jobs⟩ := by
      rw [hwaiting', waiting, hframe]
      rfl
    refine h.of_calm hcalm happlies (hwaiting ▸ List.sublist_cons_self _ _) ?_ ?_ ?_ ?_
    · intro c hc hopening
      rw [hwaiting] at hc
      obtain hc | hc := List.mem_cons.mp hc
      · exact absurd hopening (henter c hc.symm)
      · exact hc
    · intro reset hc _
      rw [hwaiting] at hc
      obtain hc | hc := List.mem_cons.mp hc
      · exact .inr (hreset reset hc.symm)
      · exact .inl hc
    · exact fun reset hc _ => hpending reset (hwaiting' ▸ hc)
    · intro c requestId hc
      rw [hsettles] at hc
      cases hc
  -- the mark is cleared of a connection that is being left
  have erased {core' : Core Payload Output} {c : ℕ}
      (hstate : (core'.conns c).state = .closing ∨ (core'.conns c).state = .closed) (d : ℕ)
      (hlives : (core'.conns d).Lives) (hd : d ∈ core.resetPending) :
      d ∈ core.resetPending.erase c := by
    refine Finset.mem_erase.mpr ⟨?_, hd⟩
    rintro rfl
    obtain hlives | hlives := hlives <;> simp [hlives] at hstate
  cases ha with
  | answer c message =>
    refine same (Core.Still.answer c message none).calm rfl (fun _ _ hc => hc) rfl ?_
    rintro d requestId hsettles hlives
    obtain ⟨answered, hmessage, hd⟩ := Option.map_eq_some_iff.mp hsettles
    obtain ⟨rfl, rfl⟩ := Prod.ext_iff.mp hd
    exact core.not_outstanding_answer (hroom c answered hsettles) hmessage hlives
  | leave c next => exact same (fun _ => .refl _) rfl (fun _ _ hc => hc) rfl (by rintro _ _ ⟨⟩)
  | left c next left =>
    exact same (Core.calm_update (c := c) rfl (.close _)) rfl (fun _ _ hc => hc)
      (event?_after next) (by rintro _ _ ⟨⟩)
  | leaveMove c next stays =>
    exact same (Core.calm_update (c := c) rfl (.leave _ (.inl rfl))) rfl (fun _ _ hc => hc) rfl (by rintro _ _ ⟨⟩)
  | forgetOpen c next =>
    have hclosing : (core.conns c).state = .closing := hr.ready.1
    exact same (fun _ => .refl _) rfl (erased (.inl hclosing)) rfl (by rintro _ _ ⟨⟩)
  | forget c next =>
    refine same ((core.forget c).calm_leave c (.inr rfl)) rfl (erased (.inr ?_)) (event?_after next) (by rintro _ _ ⟨⟩)
    simp [close, setState, modify]
  | closeHook c next =>
    exact same ((core.sessionClosed c).calm_leave c (.inr rfl)) rfl (fun _ _ hc => hc)
      (event?_after next) (by rintro _ _ ⟨⟩)
  | openNext c =>
    exact same (Core.calm_update (c := c) rfl (.of_history rfl rfl rfl)) rfl (fun _ _ hc => hc) rfl
      (by rintro _ _ ⟨⟩)
  | opened c serving =>
    have hopening : (core.conns c).state = .opening := hr.ready.1
    refine dropped rfl rfl (Core.calm_update (c := c) rfl (.opened (.inl hopening))) rfl ?_ (by rintro _ ⟨⟩)
      (fun _ _ hc => hc) rfl
    rintro d hd
    obtain rfl := Event.enter.inj hd
    simp [register, setState, modify]
  | openedLate c stops => exact same (fun _ => .refl _) rfl (fun _ _ hc => hc) rfl (by rintro _ _ ⟨⟩)
  | openRaised c exc => exact same (fun _ => .refl _) rfl (fun _ _ hc => hc) rfl (by rintro _ _ ⟨⟩)
  | openRefused c exc serving =>
    have hcalm : ∀ d, (core.conns d).Calm ((core.offerRefusal c exc serving).conns d) := by
      cases serving
      · exact fun _ => .refl _
      · exact Core.calm_update (c := c) rfl (.offer _ _)
    refine dropped rfl rfl (fun d => (hcalm d).trans (calm_leave _ c (.inl rfl) d)) ?_ ?_ (by rintro _ ⟨⟩) ?_ rfl
    · cases serving <;> rfl
    · rintro d hd
      obtain rfl := Event.enter.inj hd
      simp [close, setState, modify]
    · cases serving <;> exact fun _ _ hc => hc
  | openClose c =>
    refine dropped rfl rfl ((core.sessionClosed c).calm_leave c (.inl rfl)) rfl ?_ (by rintro _ ⟨⟩)
      (fun _ _ hc => hc) rfl
    rintro d hd
    obtain rfl := Event.enter.inj hd
    simp [close, setState, modify]
  | resetDrop event => exact same (fun _ => .refl _) rfl (fun _ _ hc => hc) rfl (by rintro _ _ ⟨⟩)
  | resetAnswer event requestId dropped =>
    exact same (Core.Still.answer _ _ none).calm rfl (fun _ _ hc => hc) rfl (by rintro _ _ ⟨⟩)
  | resetClose event =>
    have hgeneration (d : ℕ) : (core.conns d).Calm
        (((core.sessionClosed event.connection).nextGeneration event.connection).conns d) :=
      core.calm_modify event.connection (fun k => { k with
          generation := core.generations ((core.conns event.connection).slot.getD 0) + 1 })
        (fun _ => rfl) (fun _ => rfl) (fun _ => rfl) d
    refine same (fun d => (hgeneration d).trans ?_) rfl (fun _ _ hc => hc) rfl (by rintro _ _ ⟨⟩)
    exact calm_modify _ event.connection (fun k => { k with sessionId := event.sessionId })
      (fun _ => rfl) (fun _ => rfl) (fun _ => rfl) d
  | resetOpened event =>
    have hopened : (core.conns event.connection).state = .opened := hr.ready
    refine dropped rfl rfl (Core.calm_update (c := event.connection) rfl (.opened (.inr hopened))) rfl
      (fun _ h => Event.noConfusion h) ?_ ?_ rfl
    · rintro reset hreset
      obtain rfl := Event.reset.inj hreset
      rfl
    · exact fun other hother hc => Finset.mem_erase.mpr ⟨halone event rfl other hother, hc⟩
  | resetRaised event exc =>
    refine dropped rfl rfl (fun _ => .refl _) rfl (fun _ h => Event.noConfusion h) ?_ ?_ rfl
    · rintro reset hreset
      obtain rfl := Event.reset.inj hreset
      rfl
    · exact fun other hother hc => Finset.mem_erase.mpr ⟨halone event rfl other hother, hc⟩
  | resetReject event exc =>
    refine same (Core.Still.answer _ _ none).calm rfl (fun _ _ hc => hc) rfl ?_
    rintro d requestId hsettles hlives
    obtain ⟨rfl, rfl⟩ := Prod.ext_iff.mp (Option.some.inj hsettles)
    exact core.not_outstanding_answer (hroom _ _ hsettles) rfl hlives
  | resetForget event =>
    exact same (Core.calm_update (c := event.connection) rfl (.leave _ (.inl rfl))) rfl
      (fun _ _ hc => hc) rfl (by rintro _ _ ⟨⟩)

/-! ### Every run -/

def Event.resets? : Event → Option ℕ
  | .reset event => some event.connection
  | _ => none

/-- The session whose reset a frame is in `session_opened()` for. -/
def Frame.reopens : Frame Payload Output → Option ℕ
  | .resetHook event => some event.connection
  | _ => none

/-- A step of the model server under which the mark of a session is there while a reset of it is
outstanding: no step of a session is received between the clearing of its mark and the answer to its
reset, no other reset of the session waits when the mark is cleared, and the answer finds room in
the outbox. -/
def Server.Orderly (s : Server Payload Output) : Label Payload Output → Prop
  | .receive c (.step _) => ∀ p ∈ s.worker.frame.settles, p.1 ≠ c
  | .stepThread _ =>
    (∀ c ∈ s.worker.frame.reopens, ∀ event ∈ Job.events s.worker.jobs ++ s.core.events,
      event.resets? ≠ some c) ∧
    ∀ p ∈ s.worker.frame.settles, (s.core.conns p.1).outbox.length < DEFAULT_OUTBOX
  | _ => True

instance (s : Server Payload Output) : (label : Label Payload Output) → Decidable (s.Orderly label)
  | .receive _ (.step _) => inferInstanceAs (Decidable (∀ _, _))
  | .stepThread _ => inferInstanceAs (Decidable (_ ∧ _))
  | .receive _ (.cancel _) | .receive _ (.signal _) | .receive _ (.reset _ _) => .isTrue trivial
  | .tick _ | .accept | .hello _ _ | .helloExpired _ | .reply _ | .hangUp _ | .write _ _
  | .resolve _ _ | .stepReturn _ | .drain | .stop | .main _ => .isTrue trivial

/-- The top of the step thread's loop. -/
theorem Core.Marked.turn {cfg : Config} {core : Core Payload Output} (h : core.Marked .rest)
    (hserving : core.state = .serving) :
    (core.turn cfg).1.Marked (core.turn cfg).2.worker := by
  have moved {core' : Core Payload Output} {jobs : List (Job Output)}
      (hconns : core'.conns = core.conns) (hpending : core'.resetPending = core.resetPending)
      (happlies : ∀ event, .refuse event ∉ jobs)
      (hevents : Job.events jobs ++ core'.events = core.events) : core'.Marked ⟨.idle, jobs⟩ := by
    have hwaiting : core'.waiting ⟨.idle, jobs⟩ = core.waiting .rest := hevents
    refine h.of_calm (fun _ => hconns ▸ .refl _) happlies (hwaiting ▸ List.Sublist.refl _) ?_ ?_ ?_
      nofun
    · exact fun c hc _ => hwaiting ▸ hc
    · exact fun event hevent _ => .inl (hwaiting ▸ hevent)
    · exact fun event _ _ hc => hpending ▸ hc
  unfold Core.turn
  rw [hserving]
  dsimp only
  split_ifs with hevents
  · refine moved rfl rfl (fun event hevent => ?_) ?_
    · simp at hevent
    · simp [Job.events, List.filterMap_append, Function.comp_def, Job.event?]
  · exact moved rfl rfl nofun rfl
  · refine moved rfl rfl (fun event hevent => ?_) ?_
    · simp at hevent
    · simp [Job.events, List.filterMap_append, Function.comp_def, Job.event?, Core.expireRunning]

theorem Core.Marked.stepThread {cfg : Config} {core core' : Core Payload Output}
    {hook : HookReturn} {step step' : StepThread Payload Output} (h : core.Marked step.worker)
    (hserving : core.state = .serving) (hr : core.sessions.Registry step.worker.frame)
    (halone : ∀ event, step.worker.frame = .resetHook event → ∀ other,
      .reset other ∈ Job.events step.worker.jobs ++ core.events →
        other.connection ≠ event.connection)
    (hroom : ∀ c requestId, step.worker.frame.settles = some (c, requestId) →
      (core.conns c).outbox.length < DEFAULT_OUTBOX)
    (hstep : step.step cfg core hook = some (core', step')) : core'.Marked step'.worker := by
  cases step with
  | loop =>
    obtain ⟨rfl, rfl⟩ := Prod.ext_iff.mp (Option.some.inj hstep)
    exact h.turn hserving
  | working worker batch =>
    rw [StepThread.step] at hstep
    split_ifs at hstep with hdone
    · obtain ⟨rfl, rfl⟩ := Prod.ext_iff.mp (Option.some.inj hstep)
      obtain rfl := Worker.eq_rest_of_done hdone
      exact h
    · obtain ⟨rfl, rfl⟩ := Prod.ext_iff.mp (Option.some.inj hstep)
      obtain rfl := Worker.eq_rest_of_done hdone
      exact h
    · obtain ⟨p, hp, rfl, rfl⟩ : ∃ p, worker.step cfg core hook = some p ∧ p.1 = core' ∧
          .working p.2 batch = step' := by
        simpa using hstep
      have hsteps := Worker.step_steps hp
      obtain ⟨core', worker'⟩ := p
      cases hsteps with
      | start jobs hs => exact hs.marked h
      | advance jobs ha => exact ha.marked hr h halone hroom
  | running live batch =>
    cases live with
    | nil =>
      obtain ⟨rfl, rfl⟩ := Prod.ext_iff.mp (Option.some.inj hstep)
      exact h.still (.of_eq rfl rfl rfl)
    | cons request live =>
      obtain ⟨rfl, rfl⟩ := Prod.ext_iff.mp (Option.some.inj hstep)
      exact h.still (.of_eq rfl rfl rfl)
  | stepping items => cases hstep
  | ended => cases hstep

theorem Server.Stopping.worker_eq {s : Server Payload Output} (h : s.Stopping)
    (hserving : s.core.state = .serving) : s.worker = s.step.worker := by
  have hidle : s.main = .idle := by
    by_contra hmain
    exact h.stops hmain hserving
  rw [Server.worker, hidle]

theorem Server.marked_next {cfg : Config} {s s' : Server Payload Output}
    {label : Label Payload Output} (hs : (server cfg).Reachable s)
    (h : s.core.state = .serving → s.core.Marked s.worker) (horderly : s.Orderly label)
    (hstep : s.next cfg label = some s') (hserving' : s'.core.state = .serving) :
    s'.core.Marked s'.worker := by
  have hstopping := Server.stopping_of_reachable hs
  have hregistry : s.core.sessions.Registry s.worker.frame := View.Reached.registry ⟨s, hs, rfl⟩
  rw [(Server.stopping_of_reachable (hs.step hstep)).worker_eq hserving']
  -- a server that serves did before, and its main thread is idle
  have before (hsame : s'.core.state = s.core.state) :
      s.core.state = .serving ∧ s.core.Marked s.step.worker := by
    have hserving := hsame.symm.trans hserving'
    exact ⟨hserving, hstopping.worker_eq hserving ▸ h hserving⟩
  cases Server.next_steps hstep with
  | heard core hheard same =>
    obtain ⟨-, hmarked⟩ := before same
    exact hmarked.heard hserving' (hregistry.fresh _ le_rfl) hheard
  | @stepThread hook core step hp =>
    obtain ⟨hserving, hmarked⟩ := before (StepThread.step_server hp).1
    obtain ⟨halone, hroom⟩ := horderly
    rw [hstopping.worker_eq hserving] at hregistry halone hroom
    refine hmarked.stepThread hserving hregistry (fun event hframe other hother heq => ?_)
      (fun c requestId hsettles => hroom (c, requestId) hsettles) hp
    refine halone event.connection (by rw [hframe]; rfl) (.reset other) hother ?_
    rw [Event.resets?, heq]
  | @stepReturn items stepReturn hp =>
    have hserver : (s.core.finishBatch items stepReturn).state = s.core.state :=
      congrArg Sessions.server (s.core.sessions_finishBatch items stepReturn)
    obtain ⟨-, hmarked⟩ := before hserver
    rw [hp] at hmarked
    exact hmarked.still (.finishBatch s.core items stepReturn)
  | call stops stop drain hcall =>
    unfold Server.call at hcall
    split at hcall
    · cases hcall
      exact absurd hserving' stops
    · cases hcall
  | main hmain =>
    have hne : s.main ≠ .idle := by
      rintro hidle
      simp [Server.mainThread, hidle] at hmain
    exact absurd ((Server.mainThread_server hmain).symm.trans hserving') (hstopping.stops hne)

/-- In a run whose steps are all orderly, a step that an open session sends to a model server that
serves, while a reset of the session is outstanding, is refused with `ResetRequired`. -/
theorem steps_refused_while_reset_pending {cfg : Config} {ls : List (Label Payload Output)}
    {s s' : Server Payload Output} {c requestId : ℕ} {step : Step Payload}
    (horderly : (server cfg).AllSteps Server.Orderly (ls ++ [.receive c (.step step)]))
    (hrun : (server cfg).run ls = some s) (hserving : s.core.state = .serving)
    (hopened : (s.core.conns c).state = .opened)
    (houtstanding : (s.core.conns c).Outstanding requestId)
    (hstep : s.next cfg (.receive c (.step step)) = some s') :
    ∃ text, (s'.core.conns c).replies = [failure step.requestId (.resetRequired text)] ∧
      s'.core.policy = s.core.policy := by
  have hI : ((server cfg).Reachable s) ∧ (s.core.state = .serving → s.core.Marked s.worker) := by
    have hall := (TransitionSystem.allStepsFrom_concat.mp horderly).1
    refine TransitionSystem.AllSteps.invariant (I := fun s => (server cfg).Reachable s ∧
      (s.core.state = .serving → s.core.Marked s.worker)) ?_ ?_ hall hrun
    · refine ⟨TransitionSystem.reachable_init, fun _ => ?_⟩
      refine ⟨fun _ _ => rfl, nofun, nofun, nofun, .nil, nofun, fun c hlives => ?_⟩
      obtain hlives | hlives := hlives <;> cases hlives
    · exact fun s label s' ⟨hs, hmarked⟩ hlabel hnext => ⟨hs.step hnext,
        Server.marked_next hs hmarked hlabel hnext⟩
  obtain ⟨hs, hmarked⟩ := hI
  have hlast : ∀ p ∈ s.worker.frame.settles, p.1 ≠ c :=
    (TransitionSystem.allStepsFrom_concat.mp horderly).2 s hrun
  have hpending : c ∈ s.core.resetPending := by
    have hlives : (s.core.conns c).Lives := .inr hopened
    obtain ⟨sessionId, hevent⟩ | hsettles :=
      (hmarked hserving).tracked c hlives requestId houtstanding
    · exact (hmarked hserving).marked _ hevent hlives
    · exact absurd rfl (hlast _ hsettles)
  have hadmit : s.core.admitStep c step = .error (.resetRequired
      "a reset is still pending: wait for ResetDone before stepping") := by
    unfold Core.admitStep
    rw [if_neg (not_not.mpr hserving), if_neg (not_not.mpr hopened), if_pos hpending]
  rw [Server.next] at hstep
  split at hstep
  · next hreader hreplies =>
    cases hstep
    have htake : s.core.take c step = s.core.modify c fun k => { k with
        replies := k.replies ++ [failure step.requestId (.resetRequired
          "a reset is still pending: wait for ResetDone before stepping")]
        history := { k.history with received := k.history.received ++ [step.requestId] } } := by
      rw [Core.take, hadmit]
    refine ⟨"a reset is still pending: wait for ResetDone before stepping", ?_, ?_⟩
    · simp [Core.dispatch, htake, Core.modify, hreplies]
    · simp [Core.dispatch, htake, Core.modify]
  · cases hstep

/-- A session opens and sends a reset, and a step before the step thread goes on. -/
def resetRun : List (Label Unit Unit) := openRun Unit Unit ++ [.receive 1 (.reset 0 none)]

theorem isSome_resetRun : ((server Config.single).run resetRun).isSome := rfl

theorem isSome_resetRun_step : ((((server Config.single).run resetRun).get isSome_resetRun).next
    Config.single (.receive 1 (.step ⟨1, none, ()⟩))).isSome := rfl

theorem steps_refused_while_reset_pending_run :
    ∃ text, ((((((server Config.single).run resetRun).get isSome_resetRun).next Config.single
      (.receive 1 (.step ⟨1, none, ()⟩))).get isSome_resetRun_step).core.conns 1).replies =
        [failure 1 (.resetRequired text)] := by
  have houtstanding : ((((server Config.single).run resetRun).get isSome_resetRun).core.conns
      1).Outstanding 0 := by
    decide +kernel
  obtain ⟨text, hreplies, -⟩ := steps_refused_while_reset_pending (by decide +kernel)
    (Option.some_get isSome_resetRun).symm (by decide +kernel) (by decide +kernel) houtstanding
    (Option.some_get isSome_resetRun_step).symm
  exact ⟨text, hreplies⟩

/-- A session opens and sends two resets, and the first is answered. -/
def twoResetsRun : List (Label Unit Unit) :=
  openRun Unit Unit ++ [.receive 1 (.reset 0 none), .receive 1 (.reset 1 none)] ++
    List.replicate 6 (.stepThread .returned)

/-- A step is accepted while a reset is outstanding: the answer to the first of two resets cleared
the mark of both. -/
theorem step_accepted_while_reset_pending : ¬ ∀ (ls : List (Label Unit Unit)) s s' c requestId step,
    (server Config.single).run ls = some s → s.core.state = .serving →
      (s.core.conns c).state = .opened → (s.core.conns c).Outstanding requestId →
      s.next Config.single (.receive c (.step step)) = some s' →
      ∃ text, (s'.core.conns c).replies = [failure step.requestId (.resetRequired text)] := by
  have hrun : ((server Config.single).run twoResetsRun).any fun s =>
      s.core.state = .serving ∧ (s.core.conns 1).state = .opened ∧ (s.core.conns 1).Outstanding 1 ∧
        (s.next Config.single (.receive 1 (.step ⟨2, none, ()⟩))).any fun s' =>
          (s'.core.conns 1).replies = [] := by
    decide +kernel
  obtain ⟨s, hs, haccepted⟩ := (Option.any_eq_true ..).mp hrun
  obtain ⟨hserving, hopened, houtstanding, hnext⟩ := of_decide_eq_true haccepted
  obtain ⟨s', hs', hreplies⟩ := (Option.any_eq_true ..).mp hnext
  intro hall
  obtain ⟨text, htext⟩ := hall twoResetsRun s s' 1 1 ⟨2, none, ()⟩ hs hserving hopened houtstanding hs'
  rw [of_decide_eq_true hreplies] at htext
  cases htext

end ReactorRuntime.ModelServer
