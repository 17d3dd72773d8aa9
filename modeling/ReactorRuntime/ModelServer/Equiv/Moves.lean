import ReactorRuntime.ModelServer.Threads

/-!
# What a step of the model server can be

The invariants of the model server are about its `View`: the core, what the thread that calls into
the model has to do, the batch taken and not yet registered, and the batch that is in `step()`.
`Server.Steps.moves` says once what a step does to the view, so the invariants go by the cases of
`Moves` and never unfold the threads.

`Server.Sound` is what keeps the threads apart: the main thread works only once the step thread has
ended, and the requests about to be registered are those of the batch whose sessions are open.
-/

namespace ReactorRuntime.ModelServer

variable {Payload Output : Type*}

/-! ### The view -/

/-- What the invariants are about. -/
structure View (Payload Output : Type*) where
  core : Core Payload Output
  worker : Worker Payload Output := ⟨.idle, []⟩
  /-- The batch that was taken, until its requests are pending. -/
  window : List (Waiting Payload) := []
  /-- The batch that is in `step()`. -/
  items : List (Pending Payload) := []

abbrev Worker.rest : Worker Payload Output := ⟨.idle, []⟩

namespace StepThread

def worker : StepThread Payload Output → Worker Payload Output
  | working worker _ => worker
  | _ => .rest

def window : StepThread Payload Output → List (Waiting Payload)
  | working _ batch => batch
  | running _ batch => batch
  | _ => []

/-- The batch the step thread handed to `step()`. -/
def items : StepThread Payload Output → List (Pending Payload)
  | stepping items => items
  | _ => []

end StepThread

/-- What the thread that calls into the model has to do. -/
def Server.worker (s : Server Payload Output) : Worker Payload Output :=
  match s.main with
  | .answering _ worker => worker
  | .leaving worker => worker
  | _ => s.step.worker

def Server.view (s : Server Payload Output) : View Payload Output where
  core := s.core
  worker := s.worker
  window := s.step.window
  items := s.step.items

theorem Worker.eq_rest_of_done {worker : Worker Payload Output} (h : worker.done) :
    worker = .rest := by
  obtain ⟨frame, jobs⟩ := worker
  unfold Worker.done at h
  split at h <;> simp_all

/-! ### The steps of the other threads -/

/-- A step that is not one of the thread that calls into the model. -/
inductive Heard (cfg : Config) : Core Payload Output → Core Payload Output → Prop
  | tick (core : Core Payload Output) (clock : Time) : Heard cfg core { core with clock }
  | accept (core : Core Payload Output) : Heard cfg core (core.accept cfg)
  | hello (core : Core Payload Output) (c : ℕ) (hello : Hello)
      (greets : (core.conns c).reader = .hello) : Heard cfg core (core.hello cfg c hello)
  | helloExpired (core : Core Payload Output) (c : ℕ) : Heard cfg core (core.helloExpired c)
  | take (core : Core Payload Output) (c : ℕ) (step : Step Payload)
      (reads : (core.conns c).reader = .active) (free : (core.conns c).replies = []) :
      Heard cfg core (core.take c step)
  | cancel (core : Core Payload Output) (c requestId : ℕ) :
      Heard cfg core (core.cancelRequest c requestId)
  | signal (core : Core Payload Output) : Heard cfg core core
  | reset (core : Core Payload Output) (event : ResetEvent)
      (reads : (core.conns event.connection).reader = .active) :
      Heard cfg core (core.takeReset event)
  | reply (core : Core Payload Output) (c : ℕ) (message : ToSession Output)
      (replies : List (ToSession Output)) (holds : (core.conns c).replies = message :: replies) :
      Heard cfg core ((core.modify c fun k => { k with replies }).answer c message)
  | hangUp (core : Core Payload Output) (c : ℕ) (hung : (core.conns c).reader ≠ .absent) :
      Heard cfg core (core.hangUp c)
  | write (core : Core Payload Output) (c : ℕ) (outcome : Connection.SendOutcome)
      (k : Connection Payload Output) (writes : (core.conns c).write outcome = some k) :
      Heard cfg core (core.modify c fun _ => k)
  | resolve (core : Core Payload Output) (ticket : ℕ) (futureEnd : Core.FutureEnd Output)
      (done : ∀ item, core.pendingOf ticket = some item → item.future) :
      Heard cfg core (core.resolve ticket futureEnd)
  | stopping (core : Core Payload Output) (state : ServerState) (stops : state ≠ .serving) :
      Heard cfg core { core with state }

/-! ### The steps of the thread that calls into the model -/

namespace Core

theorem closed_eq_some {core core' : Core Payload Output} {c : ℕ} :
    core.closed c = some core' ↔ .closed ∈ (core.conns c).state.moves ∧
      core' = (core.setState c .closed).close c := by
  simp only [closed, Option.map_eq_some_iff, move_eq_some]
  constructor
  · rintro ⟨_, ⟨hmoves, rfl⟩, rfl⟩
    exact ⟨hmoves, rfl⟩
  · rintro ⟨hmoves, rfl⟩
    exact ⟨_, ⟨hmoves, rfl⟩, rfl⟩

theorem closing_eq_some {core core' : Core Payload Output} {c : ℕ} :
    core.closing c = some core' ↔ .closing ∈ (core.conns c).state.moves ∧
      core' = (core.setState c .closing).close c := by
  simp only [closing, Option.map_eq_some_iff, move_eq_some]
  constructor
  · rintro ⟨_, ⟨hmoves, rfl⟩, rfl⟩
    exact ⟨hmoves, rfl⟩
  · rintro ⟨hmoves, rfl⟩
    exact ⟨_, ⟨hmoves, rfl⟩, rfl⟩

/-- What the first step of a job is. -/
inductive Starts (core : Core Payload Output) :
    Job Output → Core Payload Output → Frame Payload Output → Prop
  | answer (c : ℕ) (message : ToSession Output) :
      Starts core (.answer c message) (core.answer c message) .idle
  | postTo (c : ℕ) (message : ToSession Output) (registered : c ∈ core.connections) :
      Starts core (.postTo c message) (core.answer c message) .idle
  | postToNobody (c : ℕ) (message : ToSession Output) (gone : c ∉ core.connections) :
      Starts core (.postTo c message) core .idle
  | leave (c : ℕ) : Starts core (.leave c) core (.leave c none)
  | applyLeave (c : ℕ) : Starts core (.apply (.leave c)) core (.leave c none)
  | refuseLeave (c : ℕ) : Starts core (.refuse (.leave c)) core (.leave c none)
  | enterLate (c : ℕ) (late : (core.conns c).state ≠ .opening) :
      Starts core (.apply (.enter c)) (core.discardOpening c) .idle
  | replace (c held : ℕ) (opening : (core.conns c).state = .opening)
      (holds : core.bySlot ((core.conns c).slot.getD 0) = some held) (ne : held ≠ c) :
      Starts core (.apply (.enter c)) core (.leave held (some c))
  | enter (c : ℕ) (opening : (core.conns c).state = .opening)
      (free : ∀ held, core.bySlot ((core.conns c).slot.getD 0) = some held → held = c) :
      Starts core (.apply (.enter c)) core (.openNext c)
  | refuseEnter (c : ℕ) : Starts core (.refuse (.enter c)) core .idle
  | reset (event : ResetEvent) (opened : (core.conns event.connection).state = .opened) :
      Starts core (.apply (.reset event)) core (.resetDrop event)
  | resetLate (event : ResetEvent) (late : (core.conns event.connection).state ≠ .opened) :
      Starts core (.apply (.reset event)) (core.resetAnswered event.connection) .idle
  | refuseReset (event : ResetEvent) :
      Starts core (.refuse (.reset event)) (core.resetAnswered event.connection)
        (.answer event.connection (failure event.requestId (.modelServerStopping STOPPING)))
  | closeOpening (c : ℕ)
      (unopened : (core.conns c).state = .connecting ∨ (core.conns c).state = .opening) :
      Starts core (.closeOpening c) ((core.setState c .closing).close c) .idle
  | closeOpened (c : ℕ) : Starts core (.closeOpening c) core .idle

theorem start_starts {core core' : Core Payload Output} {job : Job Output}
    {frame : Frame Payload Output} (h : core.start job = some (core', frame)) :
    core.Starts job core' frame := by
  cases job with
  | answer c message =>
    obtain ⟨rfl, rfl⟩ := Prod.ext_iff.mp (Option.some.inj h)
    exact .answer c message
  | postTo c message =>
    obtain ⟨rfl, rfl⟩ := Prod.ext_iff.mp (Option.some.inj h)
    dsimp only
    split_ifs with hc
    · exact .postTo c message hc
    · exact .postToNobody c message hc
  | leave c =>
    obtain ⟨rfl, rfl⟩ := Prod.ext_iff.mp (Option.some.inj h)
    exact .leave c
  | refuse event =>
    obtain ⟨rfl, rfl⟩ := Prod.ext_iff.mp (Option.some.inj h)
    cases event with
    | enter c => exact .refuseEnter c
    | leave c => exact .refuseLeave c
    | reset event => exact .refuseReset event
  | apply event =>
    obtain ⟨rfl, rfl⟩ := Prod.ext_iff.mp (Option.some.inj h)
    cases event with
    | leave c => exact .applyLeave c
    | reset event =>
      unfold Core.apply
      dsimp only
      split_ifs with hstate
      · exact .resetLate event hstate
      · exact .reset event (not_not.mp hstate)
    | enter c =>
      unfold Core.apply
      dsimp only
      split_ifs with hstate
      · exact .enterLate c hstate
      · split
        · next held hheld =>
          split_ifs with hne
          · exact .enter c (not_not.mp hstate) fun d hd =>
              Option.some.inj (hd.symm.trans hheld) ▸ hne
          · exact .replace c held (not_not.mp hstate) hheld hne
        · next hfree =>
          exact .enter c (not_not.mp hstate) fun d hd => absurd (hd.symm.trans hfree) (by simp)
  | closeOpening c =>
    obtain ⟨moved, hmoved, rfl, rfl⟩ : ∃ moved, core.closeOpening c = some moved ∧ moved = core' ∧
        .idle = frame := by
      simpa [Core.start] using h
    unfold Core.closeOpening at hmoved
    split_ifs at hmoved with hstate
    · obtain ⟨-, rfl⟩ := closing_eq_some.mp hmoved
      exact .closeOpening c hstate
    · cases hmoved
      exact .closeOpened c

inductive Advances (cfg : Config) (core : Core Payload Output) :
    Frame Payload Output → Core Payload Output → Frame Payload Output → Prop
  | answer (c : ℕ) (message : ToSession Output) :
      Advances cfg core (.answer c message) (core.answer c message) .idle
  | leave (c : ℕ) (next : Option ℕ) :
      Advances cfg core (.leave c next) (core.discardOpening c) (.leaveMove c next)
  | left (c : ℕ) (next : Option ℕ)
      (left : (core.conns c).state = .closing ∨ (core.conns c).state = .closed) :
      Advances cfg core (.leaveMove c next) (core.close c) (.after next)
  | leaveMove (c : ℕ) (next : Option ℕ)
      (stays : ¬ ((core.conns c).state = .closing ∨ (core.conns c).state = .closed)) :
      Advances cfg core (.leaveMove c next) (core.setState c .closing)
        (.forget c ((core.conns c).state = .opened) next)
  | forgetOpen (c : ℕ) (next : Option ℕ) :
      Advances cfg core (.forget c true next) (core.forget c) (.closeHook c next)
  | forget (c : ℕ) (next : Option ℕ) :
      Advances cfg core (.forget c false next) (((core.forget c).setState c .closed).close c)
        (.after next)
  | closeHook (c : ℕ) (next : Option ℕ) :
      Advances cfg core (.closeHook c next) (((core.sessionClosed c).setState c .closed).close c)
        (.after next)
  | openNext (c : ℕ) : Advances cfg core (.openNext c) (core.nextGeneration c) (.openHook c)
  | opened (c : ℕ) (serving : core.state = .serving) :
      Advances cfg core (.openHook c)
        ((((core.sessionOpened c .returned).discardOpening c).setState c .opened).register c)
        (.answer c (.welcome ((core.conns c).slot.getD 0) (core.conns c).generation
          cfg.settings.maxBatch))
  | openedLate (c : ℕ) (stops : core.state ≠ .serving) :
      Advances cfg core (.openHook c) ((core.sessionOpened c .returned).discardOpening c)
        (.openClose c)
  | openRaised (c : ℕ) (exc : Raised) :
      Advances cfg core (.openHook c) ((core.sessionOpened c (.raised exc)).discardOpening c)
        (.openRefused c exc (core.state = .serving))
  | openRefused (c : ℕ) (exc : Raised) (serving : Bool) :
      Advances cfg core (.openRefused c exc serving)
        (((core.offerRefusal c exc serving).setState c .closing).close c) .idle
  | openClose (c : ℕ) :
      Advances cfg core (.openClose c) (((core.sessionClosed c).setState c .closing).close c) .idle
  | resetDrop (event : ResetEvent) :
      Advances cfg core (.resetDrop event) (core.resetDrop event.connection).2
        (.resetAnswers event (core.resetDrop event.connection).1)
  | resetAnswer (event : ResetEvent) (requestId : ℕ) (dropped : List ℕ) :
      Advances cfg core (.resetAnswers event (requestId :: dropped))
        (core.answer event.connection (failure requestId (.stepExpired "the session reset")))
        (.resetAnswers event dropped)
  | resetClose (event : ResetEvent) :
      Advances cfg core (.resetAnswers event [])
        (((core.sessionClosed event.connection).nextGeneration event.connection).modify
          event.connection fun k => { k with sessionId := event.sessionId }) (.resetHook event)
  | resetOpened (event : ResetEvent) :
      Advances cfg core (.resetHook event)
        (((core.sessionOpened event.connection .returned).setState event.connection
          .opened).resetAnswered event.connection)
        (.answer event.connection
          (.resetDone event.requestId (core.conns event.connection).generation))
  | resetRaised (event : ResetEvent) (exc : Raised) :
      Advances cfg core (.resetHook event)
        ((core.sessionOpened event.connection (.raised exc)).resetAnswered event.connection)
        (.resetReject event exc)
  | resetReject (event : ResetEvent) (exc : Raised) :
      Advances cfg core (.resetReject event exc)
        (core.answer event.connection (failure event.requestId (.modelServerRejected
          ("session_opened() refused the reset: " ++ exc.describe)))) (.resetForget event)
  | resetForget (event : ResetEvent) :
      Advances cfg core (.resetForget event) (core.setState event.connection .closing)
        (.forget event.connection false none)

theorem advance_advances {cfg : Config} {core core' : Core Payload Output} {hook : HookReturn}
    {frame frame' : Frame Payload Output}
    (h : core.advance cfg hook frame = some (core', frame')) :
    core.Advances cfg frame core' frame' := by
  cases frame with
  | idle => cases h
  | answer c message =>
    obtain ⟨rfl, rfl⟩ := Prod.ext_iff.mp (Option.some.inj h)
    exact .answer c message
  | leave c next =>
    obtain ⟨rfl, rfl⟩ := Prod.ext_iff.mp (Option.some.inj h)
    exact .leave c next
  | leaveMove c next =>
    replace h : core.leaveMove c next = some (core', frame') := h
    unfold Core.leaveMove at h
    split_ifs at h with hstate
    · obtain ⟨rfl, rfl⟩ := Prod.ext_iff.mp (Option.some.inj h)
      exact .left c next hstate
    · obtain ⟨moved, hmoved, rfl, rfl⟩ : ∃ moved, core.move c .closing = some moved ∧ moved = core' ∧
          .forget c ((core.conns c).state = .opened) next = frame' := by
        simpa using h
      obtain ⟨-, rfl⟩ := move_eq_some.mp hmoved
      exact .leaveMove c next hstate
  | forget c wasOpen next =>
    cases wasOpen with
    | true =>
      obtain ⟨rfl, rfl⟩ := Prod.ext_iff.mp (Option.some.inj h)
      exact .forgetOpen c next
    | false =>
      obtain ⟨moved, hmoved, rfl, rfl⟩ : ∃ moved, (core.forget c).closed c = some moved ∧
          moved = core' ∧ .after next = frame' := by
        simpa [Core.advance] using h
      obtain ⟨-, rfl⟩ := closed_eq_some.mp hmoved
      exact .forget c next
  | closeHook c next =>
    obtain ⟨moved, hmoved, rfl, rfl⟩ : ∃ moved, (core.sessionClosed c).closed c = some moved ∧
        moved = core' ∧ .after next = frame' := by
      simpa [Core.advance] using h
    obtain ⟨-, rfl⟩ := closed_eq_some.mp hmoved
    exact .closeHook c next
  | openNext c =>
    obtain ⟨rfl, rfl⟩ := Prod.ext_iff.mp (Option.some.inj h)
    exact .openNext c
  | openHook c =>
    replace h : core.opened cfg c hook = some (core', frame') := h
    cases hook with
    | raised exc =>
      obtain ⟨rfl, rfl⟩ := Prod.ext_iff.mp (Option.some.inj h)
      exact .openRaised c exc
    | returned =>
      unfold Core.opened at h
      dsimp only at h
      split_ifs at h with hserving
      · obtain ⟨moved, hmoved, rfl, rfl⟩ : ∃ moved, ((core.sessionOpened c .returned).discardOpening
            c).move c .opened = some moved ∧ moved.register c = core' ∧
            .answer c (.welcome ((moved.conns c).slot.getD 0) (moved.conns c).generation
              cfg.settings.maxBatch) = frame' := by
          simpa using h
        obtain ⟨-, rfl⟩ := move_eq_some.mp hmoved
        have hconn : ((((core.sessionOpened c .returned).discardOpening c).setState c
            .opened).conns c) = { core.conns c with state := .opened } := Function.update_self ..
        rw [hconn]
        exact .opened c hserving
      · obtain ⟨rfl, rfl⟩ := Prod.ext_iff.mp (Option.some.inj h)
        exact .openedLate c hserving
  | openRefused c exc serving =>
    obtain ⟨moved, hmoved, rfl, rfl⟩ : ∃ moved, core.openRefused c exc serving = some moved ∧
        moved = core' ∧ .idle = frame' := by
      simpa [Core.advance] using h
    obtain ⟨-, rfl⟩ := closing_eq_some.mp hmoved
    exact .openRefused c exc serving
  | openClose c =>
    obtain ⟨moved, hmoved, rfl, rfl⟩ : ∃ moved, (core.sessionClosed c).closing c = some moved ∧
        moved = core' ∧ .idle = frame' := by
      simpa [Core.advance] using h
    obtain ⟨-, rfl⟩ := closing_eq_some.mp hmoved
    exact .openClose c
  | resetDrop event =>
    obtain ⟨rfl, rfl⟩ := Prod.ext_iff.mp (Option.some.inj h)
    exact .resetDrop event
  | resetAnswers event dropped =>
    cases dropped with
    | cons requestId dropped =>
      obtain ⟨rfl, rfl⟩ := Prod.ext_iff.mp (Option.some.inj h)
      exact .resetAnswer event requestId dropped
    | nil =>
      obtain ⟨rfl, rfl⟩ := Prod.ext_iff.mp (Option.some.inj h)
      exact .resetClose event
  | resetHook event =>
    replace h : core.resetOpened event hook = some (core', frame') := h
    cases hook with
    | raised exc =>
      obtain ⟨rfl, rfl⟩ := Prod.ext_iff.mp (Option.some.inj h)
      exact .resetRaised event exc
    | returned =>
      obtain ⟨moved, hmoved, rfl, rfl⟩ : ∃ moved, (core.sessionOpened event.connection
          .returned).move event.connection .opened = some moved ∧
          moved.resetAnswered event.connection = core' ∧
          .answer event.connection (.resetDone event.requestId
            (moved.conns event.connection).generation) = frame' := by
        simpa [resetOpened] using h
      obtain ⟨-, rfl⟩ := move_eq_some.mp hmoved
      have hconn : ((core.sessionOpened event.connection .returned).setState event.connection
          .opened).conns event.connection =
          { core.conns event.connection with state := .opened } := Function.update_self ..
      rw [hconn]
      exact .resetOpened event
  | resetReject event exc =>
    obtain ⟨rfl, rfl⟩ := Prod.ext_iff.mp (Option.some.inj h)
    exact .resetReject event exc
  | resetForget event =>
    obtain ⟨moved, hmoved, rfl, rfl⟩ : ∃ moved, core.move event.connection .closing = some moved ∧
        moved = core' ∧ .forget event.connection false none = frame' := by
      simpa [Core.advance] using h
    obtain ⟨-, rfl⟩ := move_eq_some.mp hmoved
    exact .resetForget event

end Core

/-! ### The moves of the view -/

inductive Moves (cfg : Config) : View Payload Output → View Payload Output → Prop
  /-- Another thread. -/
  | heard {core core'} (worker window items) (h : Heard cfg core core') :
      Moves cfg ⟨core, worker, window, items⟩ ⟨core', worker, window, items⟩
  /-- The thread that calls into the model begins its next job. -/
  | start {core core'} {job : Job Output} {frame} (jobs window) (h : core.Starts job core' frame) :
      Moves cfg ⟨core, ⟨.idle, job :: jobs⟩, window, []⟩ ⟨core', ⟨frame, jobs⟩, window, []⟩
  /-- The thread that calls into the model goes on. -/
  | advance {core core' frame frame'} (jobs window) (h : core.Advances cfg frame core' frame') :
      Moves cfg ⟨core, ⟨frame, jobs⟩, window, []⟩ ⟨core', ⟨frame', jobs⟩, window, []⟩
  /-- The top of the step thread's loop. -/
  | turn (core) :
      Moves cfg ⟨core, .rest, [], []⟩
        ⟨(core.turn cfg).1, (core.turn cfg).2.worker, (core.turn cfg).2.window, []⟩
  /-- No session of the batch is open. -/
  | finish {core : Core Payload Output} {window : List (Waiting Payload)}
      (h : window.filter (fun r => r.connection ∈ core.connections) = []) :
      Moves cfg ⟨core, .rest, window, []⟩
        ⟨{ core with policy := core.policy.finished (window.map Waiting.connection) }, .rest, [], []⟩
  /-- The batch becomes pending. -/
  | register {core : Core Payload Output} {window live items}
      (hlive : live = window.filter (fun r => r.connection ∈ core.connections))
      (hitems : items = core.pendingFor live core.tickets) :
      Moves cfg ⟨core, .rest, window, []⟩
        ⟨{ core with pending := core.pending ++ items, tickets := core.tickets + items.length },
          .rest, [], items⟩
  /-- `step()` ended. -/
  | returned (core items stepReturn) :
      Moves cfg ⟨core, .rest, [], items⟩ ⟨core.finishBatch items stepReturn, .rest, [], []⟩
  /-- The step thread has ended, and the main thread answers what is left. -/
  | joined (core) :
      Moves cfg ⟨core, .rest, [], []⟩
        ⟨core.answerInFlight.1, ⟨.idle, core.answerInFlight.2⟩, [], []⟩
  /-- `stop` closes every session. -/
  | leaveAll (core) :
      Moves cfg ⟨core, .rest, [], []⟩ ⟨core, ⟨.idle, core.connections.map .leave⟩, [], []⟩

/-! ### The threads in terms of the view -/

/-- The main thread works only once the step thread has ended, and the requests about to be pending
are those whose sessions are open. -/
structure Server.Sound (s : Server Payload Output) : Prop where
  answering : ∀ call worker, s.main = .answering call worker → s.step = .ended
  leaving : ∀ worker, s.main = .leaving worker → s.step = .ended
  live : ∀ live batch, s.step = .running live batch →
    live = batch.filter fun r => r.connection ∈ s.core.connections

/-- What a step of the thread that calls into the model is. -/
inductive Worker.Steps (cfg : Config) (core : Core Payload Output) :
    Worker Payload Output → Core Payload Output → Worker Payload Output → Prop
  | start {core' job frame} (jobs : List (Job Output)) (h : core.Starts job core' frame) :
      Steps cfg core ⟨.idle, job :: jobs⟩ core' ⟨frame, jobs⟩
  | advance {core' frame frame'} (jobs : List (Job Output))
      (h : core.Advances cfg frame core' frame') :
      Steps cfg core ⟨frame, jobs⟩ core' ⟨frame', jobs⟩

theorem Worker.step_steps {cfg : Config} {core core' : Core Payload Output} {hook : HookReturn}
    {worker worker' : Worker Payload Output}
    (h : worker.step cfg core hook = some (core', worker')) :
    Worker.Steps cfg core worker core' worker' := by
  obtain ⟨frame, jobs⟩ := worker
  unfold Worker.step at h
  split at h
  · cases h
  · next job rest hframe hjobs =>
    obtain rfl : frame = .idle := hframe
    obtain rfl : jobs = job :: rest := hjobs
    obtain ⟨p, hp, hcore, hworker⟩ : ∃ p, core.start job = some p ∧ p.1 = core' ∧
        (⟨p.2, rest⟩ : Worker Payload Output) = worker' := by
      simpa using h
    subst hcore hworker
    exact .start rest (Core.start_starts hp)
  · obtain ⟨p, hp, hcore, hworker⟩ : ∃ p, core.advance cfg hook frame = some p ∧ p.1 = core' ∧
        (⟨p.2, jobs⟩ : Worker Payload Output) = worker' := by
      simpa using h
    subst hcore hworker
    exact .advance jobs (Core.advance_advances hp)

theorem Worker.step_moves {cfg : Config} {core core' : Core Payload Output} {hook : HookReturn}
    {worker worker' : Worker Payload Output} (window : List (Waiting Payload))
    (h : worker.step cfg core hook = some (core', worker')) :
    Moves cfg ⟨core, worker, window, []⟩ ⟨core', worker', window, []⟩ := by
  cases Worker.step_steps h with
  | start jobs hs => exact .start jobs window hs
  | advance jobs ha => exact .advance jobs window ha

theorem Core.turn_items (cfg : Config) (core : Core Payload Output) :
    (core.turn cfg).2.items = [] := by
  unfold Core.turn
  split
  · rfl
  · dsimp only
    split_ifs <;> rfl
  · dsimp only
    split_ifs <;> rfl

theorem StepThread.step_moves {cfg : Config} {core core' : Core Payload Output} {hook : HookReturn}
    {step step' : StepThread Payload Output}
    (hlive : ∀ live batch, step = .running live batch →
      live = batch.filter fun r => r.connection ∈ core.connections)
    (h : step.step cfg core hook = some (core', step')) :
    Moves cfg ⟨core, step.worker, step.window, step.items⟩
        ⟨core', step'.worker, step'.window, step'.items⟩ ∨
      core' = core ∧ step'.worker = step.worker ∧ step'.window = step.window ∧
        step'.items = step.items := by
  cases step with
  | loop =>
    obtain ⟨rfl, rfl⟩ : (core.turn cfg).1 = core' ∧ (core.turn cfg).2 = step' := by
      simpa [StepThread.step, Prod.ext_iff] using h
    left
    rw [Core.turn_items]
    exact .turn core
  | working worker batch =>
    rw [StepThread.step] at h
    split_ifs at h with hdone hbatch
    · obtain ⟨rfl, rfl⟩ : core = core' ∧ StepThread.loop = step' := by simpa using h
      exact .inr ⟨rfl, (Worker.eq_rest_of_done hdone).symm, hbatch.symm, rfl⟩
    · obtain ⟨rfl, rfl⟩ : core = core' ∧
          .running (batch.filter fun r => r.connection ∈ core.connections) batch = step' := by
        simpa using h
      exact .inr ⟨rfl, (Worker.eq_rest_of_done hdone).symm, rfl, rfl⟩
    · obtain ⟨p, hp, rfl, rfl⟩ : ∃ p, worker.step cfg core hook = some p ∧ p.1 = core' ∧
          .working p.2 batch = step' := by
        simpa using h
      exact .inl (Worker.step_moves batch hp)
  | running live batch =>
    left
    cases live with
    | nil =>
      obtain ⟨rfl, rfl⟩ : { core with policy := core.policy.finished (batch.map (·.connection)) } =
          core' ∧ StepThread.loop = step' := by
        simpa [StepThread.step] using h
      exact .finish (hlive _ _ rfl).symm
    | cons request live =>
      obtain ⟨rfl, rfl⟩ := Prod.ext_iff.mp (Option.some.inj h)
      exact .register (hlive _ _ rfl) rfl
  | stepping items => cases h
  | ended => cases h

theorem Server.mainThread_moves {cfg : Config} {s s' : Server Payload Output} {hook : HookReturn}
    (hs : s.Sound) (h : s.mainThread cfg hook = some s') :
    Moves cfg s.view s'.view ∨ s'.view = s.view := by
  obtain ⟨core, step, main⟩ := s
  cases main with
  | idle => cases h
  | joining call =>
    cases step with
    | ended =>
      cases h
      exact .inl (.joined core)
    | _ => cases h
  | answering call worker =>
    obtain rfl : step = .ended := hs.answering _ _ rfl
    simp only [mainThread] at h
    split_ifs at h with hdone
    · obtain rfl := Worker.eq_rest_of_done hdone
      cases call with
      | drain =>
        cases h
        exact .inr rfl
      | stop =>
        cases h
        exact .inl (.leaveAll core)
    · obtain ⟨p, hp, rfl⟩ := Option.map_eq_some_iff.mp h
      exact .inl (Worker.step_moves [] hp)
  | leaving worker =>
    obtain rfl : step = .ended := hs.leaving _ rfl
    simp only [mainThread] at h
    split_ifs at h with hdone
    · obtain rfl := Worker.eq_rest_of_done hdone
      cases h
      exact .inr rfl
    · obtain ⟨p, hp, rfl⟩ := Option.map_eq_some_iff.mp h
      exact .inl (Worker.step_moves [] hp)

/-- What the beginning of `drain` or `stop` does to the view. -/
theorem Server.call_moves {cfg : Config} {s s' : Server Payload Output} {state : ServerState}
    {call : MainCall} (hstate : state ≠ .serving) (h : s.call state call = some s') :
    Moves cfg s.view s'.view := by
  obtain ⟨core, step, main⟩ := s
  cases main with
  | idle =>
    cases h
    exact .heard _ _ _ (.stopping core state hstate)
  | _ => cases h

theorem Server.Sound.view_with {s : Server Payload Output} (hs : s.Sound) (hne : s.step ≠ .ended)
    (core : Core Payload Output) (step : StepThread Payload Output) :
    (⟨core, step, s.main⟩ : Server Payload Output).view =
      ⟨core, step.worker, step.window, step.items⟩ := by
  rw [view, worker]
  split
  · next hm => exact absurd (hs.answering _ _ hm) hne
  · next hm => exact absurd (hs.leaving _ hm) hne
  · rfl

theorem Server.Sound.view_eq {s : Server Payload Output} (hs : s.Sound) (hne : s.step ≠ .ended) :
    s.view = ⟨s.core, s.step.worker, s.step.window, s.step.items⟩ :=
  hs.view_with hne s.core s.step

/-- What a step of the model server is: one of another thread, one of the step thread, the return of
`step()`, the beginning of a call of the main thread, or one of the main thread. -/
inductive Server.Steps (cfg : Config) (s : Server Payload Output) :
    Label Payload Output → Server Payload Output → Prop
  | heard {label} (core : Core Payload Output) (h : Heard cfg s.core core)
      (same : core.state = s.core.state) : Steps cfg s label { s with core }
  | stepThread {hook core step} (h : s.step.step cfg s.core hook = some (core, step)) :
      Steps cfg s (.stepThread hook) { s with core, step }
  | stepReturn {items} (stepReturn : Core.StepReturn Output) (h : s.step = .stepping items) :
      Steps cfg s (.stepReturn stepReturn)
        { s with core := s.core.finishBatch items stepReturn, step := .loop }
  | call {label s' state call} (stops : state ≠ .serving)
      (stop : call = .stop → state = .stopped)
      (drain : call = .drain → state = .stopped → s.core.state = .stopped)
      (h : s.call state call = some s') : Steps cfg s label s'
  | main {s' hook} (h : s.mainThread cfg hook = some s') : Steps cfg s (.main hook) s'

namespace Core

variable (core : Core Payload Output)

theorem state_accept (cfg : Config) : (core.accept cfg).state = core.state := by
  unfold accept
  dsimp only
  split_ifs <;> rfl

theorem state_hello (cfg : Config) (c : ℕ) (hello : Hello) :
    (core.hello cfg c hello).state = core.state := by
  unfold Core.hello
  dsimp only
  split
  · rfl
  · split_ifs
    · split <;> rfl
    · rfl
    · rfl

theorem state_helloExpired (c : ℕ) : (core.helloExpired c).state = core.state := by
  unfold helloExpired
  split_ifs <;> rfl

theorem state_take (c : ℕ) (step : Step Payload) : (core.take c step).state = core.state := by
  unfold take
  split <;> rfl

theorem state_cancelRequest (c requestId : ℕ) :
    (core.cancelRequest c requestId).state = core.state := by
  unfold cancelRequest
  split <;> rfl

theorem state_takeReset (event : ResetEvent) : (core.takeReset event).state = core.state := by
  unfold takeReset
  dsimp only
  split_ifs <;> rfl

theorem state_resolve (ticket : ℕ) (futureEnd : FutureEnd Output) :
    (core.resolve ticket futureEnd).state = core.state := by
  unfold resolve completeTicket
  split
  · rfl
  · rw [complete_eq]
    split_ifs <;> rfl

end Core

theorem Server.next_steps {cfg : Config} {s s' : Server Payload Output}
    {label : Label Payload Output} (h : s.next cfg label = some s') : s.Steps cfg label s' := by
  cases label with
  | tick ticks =>
    cases h
    exact .heard _ (.tick _ _) rfl
  | accept =>
    cases h
    exact .heard _ (.accept _) (s.core.state_accept cfg)
  | hello c hello =>
    rw [next] at h
    split_ifs at h with hr
    cases h
    exact .heard _ (.hello _ c hello hr) (s.core.state_hello cfg c hello)
  | helloExpired c =>
    cases h
    exact .heard _ (.helloExpired _ c) (s.core.state_helloExpired c)
  | receive c message =>
    rw [next] at h
    split at h
    · next hr hf =>
      cases h
      cases message with
      | step step => exact .heard _ (.take _ c step hr hf) (s.core.state_take c step)
      | cancel requestId => exact .heard _ (.cancel _ c requestId) (s.core.state_cancelRequest c _)
      | signal signal => exact .heard _ (.signal _) rfl
      | reset requestId sessionId =>
        exact .heard _ (.reset _ ⟨c, requestId, sessionId⟩ hr) (s.core.state_takeReset _)
    · cases h
  | reply c =>
    obtain ⟨core, hcore, rfl⟩ := Option.map_eq_some_iff.mp h
    unfold Core.reply at hcore
    split at hcore
    · cases hcore
    · next message replies hk =>
      cases hcore
      exact .heard _ (.reply _ c message replies hk) rfl
  | hangUp c =>
    rw [next] at h
    split at h
    · cases h
    · cases h
    · next hr _ =>
      cases h
      exact .heard _ (.hangUp _ c hr) rfl
    · cases h
  | write c outcome =>
    obtain ⟨k, hk, rfl⟩ := Option.map_eq_some_iff.mp h
    exact .heard _ (.write _ c outcome k hk) rfl
  | resolve ticket futureEnd =>
    rw [next] at h
    split at h
    · next item hitem =>
      split_ifs at h with hf
      cases h
      refine .heard _ (.resolve _ ticket futureEnd fun i hi => ?_) (s.core.state_resolve ticket _)
      exact Option.some.inj (hitem.symm.trans hi) ▸ hf
    · cases h
      exact .heard _ (.signal _) rfl
  | stepThread hook =>
    obtain ⟨⟨core, step⟩, hp, rfl⟩ := Option.map_eq_some_iff.mp h
    exact .stepThread hp
  | stepReturn stepReturn =>
    rw [next] at h
    split at h
    · next items hstep =>
      cases h
      exact .stepReturn stepReturn hstep
    · cases h
  | drain =>
    have hcall : s.call _ .drain = some s' := h
    refine .call ?_ (by simp) (fun _ hstate => ?_) hcall
    · split <;> simp_all
    · split at hstate <;> simp_all
  | stop =>
    have hcall : s.call .stopped .stop = some s' := h
    exact .call (by simp) (fun _ => rfl) (by simp) hcall
  | main hook => exact .main h

theorem Server.Steps.moves {cfg : Config} {s s' : Server Payload Output}
    {label : Label Payload Output} (hs : s.Sound) (h : s.Steps cfg label s') : Moves cfg s.view s'.view ∨ s'.view = s.view := by
  cases h with
  | heard core h same => exact .inl (.heard _ _ _ h)
  | @stepThread hook core step h =>
    have hne : s.step ≠ .ended := by
      rintro hended
      rw [hended] at h
      cases h
    rw [hs.view_eq hne, hs.view_with hne]
    obtain hmoves | ⟨rfl, hw, hb, hi⟩ := StepThread.step_moves hs.live h
    · exact .inl hmoves
    · exact .inr (by rw [hw, hb, hi])
  | @stepReturn items stepReturn h =>
    have hne : s.step ≠ .ended := by simp [h]
    rw [hs.view_eq hne, hs.view_with hne, h]
    exact .inl (.returned s.core items stepReturn)
  | call stops stop drain h => exact .inl (call_moves stops h)
  | main h => exact mainThread_moves hs h

end ReactorRuntime.ModelServer
