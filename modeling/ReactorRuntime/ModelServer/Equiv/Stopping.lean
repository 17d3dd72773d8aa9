import ReactorRuntime.ModelServer.Equiv.Held

/-!
# What is left when the model server stops

`Server.Stopping` is what `drain` and `stop` establish, stage by stage: once the requests in flight
are answered nothing waits and nothing runs, and while `stop` closes the sessions each registered
connection is one it has still to close.

* `Server.stopping_of_reachable`: it holds in every state a model server reaches.
* `connections_eq_nil`: once `stop` has returned, no connection is registered.
-/

namespace ReactorRuntime.ModelServer

variable {Payload Output : Type*}

/-! ### The invariant -/

def MainThread.call? : MainThread Payload Output → Option MainCall
  | idle => none
  | joining call => some call
  | answering call _ => some call
  | leaving _ => some .stop

theorem MainThread.call?_eq_none {main : MainThread Payload Output} :
    main.call? = none ↔ main = .idle := by
  cases main <;> simp [MainThread.call?]

/-- The connection a frame is about to take out of the registry, from the start of `_leave` on. -/
def Frame.leaves : Frame Payload Output → Option ℕ
  | .leave c _ => some c
  | .leaveMove c _ => some c
  | .forget c _ _ => some c
  | _ => none

def Core.Quiet (core : Core Payload Output) : Prop :=
  core.policy.waiting = [] ∧ core.pending = []

/-- The requests that were in flight when `drain` or `stop` was called are answered, or their
answers are among the jobs of the main thread. -/
def Server.Settled (s : Server Payload Output) : Prop :=
  match s.main with
  | .idle => s.core.state ≠ .serving
  | .joining _ => False
  | .answering _ _ => True
  | .leaving _ => True

structure Server.Stopping (s : Server Payload Output) : Prop where
  stops : s.main ≠ .idle → s.core.state ≠ .serving
  stopped : s.main.call? = some .stop → s.core.state = .stopped
  settled : s.Settled → s.step = .ended ∧ s.core.Quiet
  /-- `stop` still has to close every session that is left. -/
  leaving : ∀ worker, s.main = .leaving worker → ∀ c ∈ s.core.connections,
    .leave c ∈ worker.jobs ∨ worker.frame.leaves = some c
  left : s.core.state = .stopped → s.main.call? ≠ some .stop → s.core.connections = []

/-! ### What the steps keep -/

theorem Sessions.Start.server {t t' : Sessions} {job : Job Output} {frame : Frame Payload Output}
    (h : Start t job t' frame) : t'.server = t.server ∧ t'.connections = t.connections := by
  cases h <;> exact ⟨rfl, rfl⟩

theorem Sessions.Advance.server {t t' : Sessions} {frame frame' : Frame Payload Output}
    (h : Advance t frame t' frame') : t'.server = t.server ∧
      (t.server ≠ .serving → ∀ c ∈ t'.connections, c ∈ t.connections) := by
  cases h with
  | opened c message serving => exact ⟨rfl, fun hne => absurd serving hne⟩
  | forgetOpen c next => exact ⟨rfl, fun _ c hc => (List.mem_filter.mp hc).1⟩
  | forget c next => exact ⟨rfl, fun _ c hc => (List.mem_filter.mp hc).1⟩
  | openRaised c exc serving => exact ⟨rfl, fun _ c hc => hc⟩
  | _ => exact ⟨rfl, fun _ c hc => hc⟩

namespace Core

variable {cfg : Config} {core core' : Core Payload Output}

theorem Starts.quiet {job : Job Output} {frame : Frame Payload Output}
    (h : core.Starts job core' frame) (hcore : core.Quiet) : core'.Quiet := by
  cases h <;> exact hcore

theorem Advances.quiet {frame frame' : Frame Payload Output}
    (h : core.Advances cfg frame core' frame') (hcore : core.Quiet) : core'.Quiet := by
  have drop (c : ℕ) : (core.policy.drop c).2.waiting = [] ∧
      core.pending.map (Pending.detachFrom c) = [] := by
    simp [BatchPolicy.drop, hcore.1, hcore.2]
  cases h with
  | forgetOpen c next => exact drop c
  | forget c next => exact drop c
  | resetDrop event => exact drop event.connection
  | openRefused c exc serving => cases serving <;> exact hcore
  | _ => exact hcore

end Core

/-- A server that does not serve takes no request, and none becomes pending by another thread. -/
theorem Heard.quiet {cfg : Config} {core core' : Core Payload Output} (h : Heard cfg core core')
    (hstops : core.state ≠ .serving) (hcore : core.Quiet) : core'.Quiet := by
  have desk {core' : Core Payload Output} (hdesk : core'.desk [] [] = core.desk [] []) :
      core'.Quiet := by
    simp only [Core.desk, Desk.mk.injEq] at hdesk
    rw [Core.Quiet, hdesk.1, hdesk.2.2.1]
    exact hcore
  refine ⟨?_, ?_⟩
  · cases h with
    | accept => exact (desk (core.desk_accept cfg)).1
    | hello c hello greets => exact (desk (Core.desk_hello cfg c hello)).1
    | helloExpired c => exact (desk (core.desk_helloExpired c)).1
    | reset event => exact (desk (core.desk_takeReset event)).1
    | take c step reads free =>
      unfold Core.take Core.admitStep
      rw [if_pos hstops]
      exact hcore.1
    | cancel c requestId =>
      unfold Core.cancelRequest
      split
      · next policy hcancel =>
        obtain ⟨before, request, after, hwaiting, -⟩ := BatchPolicy.cancel_eq_some hcancel
        rw [hcore.1] at hwaiting
        simp at hwaiting
      · exact hcore.1
    | resolve ticket futureEnd done =>
      unfold Core.resolve Core.completeTicket
      split
      · exact hcore.1
      · rw [Core.complete_eq]
        split_ifs <;> exact hcore.1
    | _ => exact hcore.1
  · refine List.eq_nil_iff_forall_not_mem.mpr fun item hitem => ?_
    obtain ⟨p, hp, -⟩ := h.pending item hitem
    rw [hcore.2] at hp
    cases hp

namespace Worker.Steps

variable {cfg : Config} {core core' : Core Payload Output} {worker worker' : Worker Payload Output}

theorem server (h : Worker.Steps cfg core worker core' worker') : core'.state = core.state ∧
    (core.state ≠ .serving → ∀ c ∈ core'.connections, c ∈ core.connections) := by
  cases h with
  | start jobs h =>
    obtain ⟨hserver, hconnections⟩ := h.sessions.server
    have hconnections : core'.connections = core.connections := hconnections
    exact ⟨hserver, fun _ c hc => hconnections ▸ hc⟩
  | advance jobs h => exact h.sessions.server

theorem quiet (h : Worker.Steps cfg core worker core' worker') (hcore : core.Quiet) :
    core'.Quiet := by
  cases h with
  | start jobs h => exact h.quiet hcore
  | advance jobs h => exact h.quiet hcore

theorem leaving (h : Worker.Steps cfg core worker core' worker')
    (hr : core.sessions.Registry worker.frame) (hstops : core.state ≠ .serving)
    (hleaving : ∀ c ∈ core.connections, .leave c ∈ worker.jobs ∨ worker.frame.leaves = some c) :
    ∀ c ∈ core'.connections, .leave c ∈ worker'.jobs ∨ worker'.frame.leaves = some c := by
  intro c hc
  have hc' := h.server.2 hstops c hc
  cases h with
  | start jobs h =>
    obtain hjob | hframe := hleaving c hc'
    · obtain rfl | hjob := List.mem_cons.mp hjob
      · cases h
        exact .inr rfl
      · exact .inl hjob
    · cases hframe
  | @advance _ frame frame' jobs h =>
    refine (hleaving c hc').imp_right fun hframe => ?_
    have hforgot (core' : Core Payload Output) (hsessions : core'.connections =
        (core.forget c).connections) : c ∉ core'.connections := by
      simp [hsessions, Core.forget]
    cases h with
    | leave d next => exact hframe
    | left d next left =>
      obtain rfl : d = c := Option.some.inj hframe
      rw [show (core.conns d).state = .opened from (hr.mem_connections rfl).mp hc'] at left
      simp at left
    | leaveMove d next stays => exact hframe
    | forgetOpen d next =>
      obtain rfl : d = c := Option.some.inj hframe
      exact absurd hc (hforgot _ rfl)
    | forget d next =>
      obtain rfl : d = c := Option.some.inj hframe
      exact absurd hc (hforgot _ rfl)
    | _ => cases hframe

end Worker.Steps

theorem StepThread.step_server {cfg : Config} {core core' : Core Payload Output}
    {hook : HookReturn} {step step' : StepThread Payload Output}
    (h : step.step cfg core hook = some (core', step')) : core'.state = core.state ∧
      (core.state ≠ .serving → ∀ c ∈ core'.connections, c ∈ core.connections) := by
  have same {core' : Core Payload Output} (hsessions : core'.sessions = core.sessions) :
      core'.state = core.state ∧
        (core.state ≠ .serving → ∀ c ∈ core'.connections, c ∈ core.connections) := by
    have hconnections : core'.connections = core.connections :=
      congrArg Sessions.connections hsessions
    exact ⟨congrArg Sessions.server hsessions, fun _ c hc => hconnections ▸ hc⟩
  cases step with
  | loop =>
    obtain ⟨rfl, rfl⟩ : (core.turn cfg).1 = core' ∧ (core.turn cfg).2 = step' := by
      simpa [StepThread.step, Prod.ext_iff] using h
    exact same (core.sessions_turn cfg)
  | working worker batch =>
    rw [StepThread.step] at h
    split_ifs at h
    · obtain ⟨rfl, rfl⟩ := Prod.ext_iff.mp (Option.some.inj h)
      exact same rfl
    · obtain ⟨rfl, rfl⟩ := Prod.ext_iff.mp (Option.some.inj h)
      exact same rfl
    · obtain ⟨p, hp, rfl, rfl⟩ : ∃ p, worker.step cfg core hook = some p ∧ p.1 = core' ∧
          .working p.2 batch = step' := by
        simpa using h
      exact (Worker.step_steps hp).server
  | running live batch =>
    cases live with
    | nil =>
      obtain ⟨rfl, rfl⟩ := Prod.ext_iff.mp (Option.some.inj h)
      exact same rfl
    | cons request live =>
      obtain ⟨rfl, rfl⟩ := Prod.ext_iff.mp (Option.some.inj h)
      exact same rfl
  | stepping items => cases h
  | ended => cases h

theorem Server.mainThread_server {cfg : Config} {s s' : Server Payload Output} {hook : HookReturn}
    (h : s.mainThread cfg hook = some s') : s'.core.state = s.core.state := by
  obtain ⟨core, step, main⟩ := s
  cases main with
  | idle => cases h
  | joining call =>
    cases step with
    | ended =>
      cases h
      rfl
    | _ => cases h
  | answering call worker =>
    simp only [mainThread] at h
    split_ifs at h
    · cases call <;> obtain rfl := Option.some.inj h <;> rfl
    · obtain ⟨p, hp, rfl⟩ := Option.map_eq_some_iff.mp h
      exact (Worker.step_steps hp).server.1
  | leaving worker =>
    simp only [mainThread] at h
    split_ifs at h
    · cases h
      rfl
    · obtain ⟨p, hp, rfl⟩ := Option.map_eq_some_iff.mp h
      exact (Worker.step_steps hp).server.1

/-! ### Every run -/

theorem Server.Stopping.mainThread {cfg : Config} {s s' : Server Payload Output} {hook : HookReturn}
    (h : s.Stopping) (hreached : s.view.Reached cfg) (hsound : s.Sound)
    (hstep : s.mainThread cfg hook = some s') : s'.Stopping := by
  have hheld := hreached.held
  have hregistry := hreached.registry
  obtain ⟨core, step, main⟩ := s
  have hstops (hne : main ≠ .idle) : core.state ≠ .serving := h.stops hne
  cases main with
  | idle => cases hstep
  | joining call =>
    cases step with
    | ended =>
      cases hstep
      refine ⟨fun _ => hstops (by rintro ⟨⟩), h.stopped, fun _ => ⟨rfl, ?_, rfl⟩, by rintro _ ⟨⟩, h.left⟩
      exact (Desk.Busy.clear hheld.busy rfl).1
    | _ => cases hstep
  | answering call worker =>
    obtain ⟨rfl, hquiet⟩ : step = .ended ∧ core.Quiet := h.settled trivial
    simp only [Server.mainThread] at hstep
    split_ifs at hstep with hdone
    · cases call with
      | drain =>
        cases hstep
        exact ⟨fun hne => absurd rfl hne, by rintro ⟨⟩, fun _ => ⟨rfl, hquiet⟩, by rintro _ ⟨⟩,
          fun hs _ => h.left hs (by simp [MainThread.call?])⟩
      | stop =>
        cases hstep
        refine ⟨fun _ => hstops (by rintro ⟨⟩), fun _ => h.stopped rfl, fun _ => ⟨rfl, hquiet⟩, ?_, ?_⟩
        · rintro worker' hmain c hc
          obtain rfl := MainThread.leaving.inj hmain
          exact .inl (List.mem_map_of_mem hc)
        · exact fun _ hne => absurd rfl hne
    · obtain ⟨⟨core', worker'⟩, hp, rfl⟩ := Option.map_eq_some_iff.mp hstep
      have hsteps := Worker.step_steps hp
      obtain ⟨hserver, hconnections⟩ := hsteps.server
      refine ⟨fun _ => ?_, fun hcall => ?_, fun _ => ⟨rfl, hsteps.quiet hquiet⟩, by rintro _ ⟨⟩,
        fun hs hcall => ?_⟩
      · exact hserver.symm ▸ hstops (by rintro ⟨⟩)
      · exact hserver.trans (h.stopped hcall)
      · have hnil : core.connections = [] := h.left (hserver.symm.trans hs) hcall
        refine List.eq_nil_iff_forall_not_mem.mpr fun c hc => ?_
        have := hconnections (hstops (by rintro ⟨⟩)) c hc
        rw [hnil] at this
        cases this
  | leaving worker =>
    obtain ⟨rfl, hquiet⟩ : step = .ended ∧ core.Quiet := h.settled trivial
    have hstopped : core.state = .stopped := h.stopped rfl
    simp only [Server.mainThread] at hstep
    split_ifs at hstep with hdone
    · obtain rfl := Worker.eq_rest_of_done hdone
      cases hstep
      refine ⟨fun hne => absurd rfl hne, by rintro ⟨⟩, fun _ => ⟨rfl, hquiet⟩, by rintro _ ⟨⟩,
        fun _ _ => ?_⟩
      refine List.eq_nil_iff_forall_not_mem.mpr fun c hc => ?_
      obtain hjob | hframe := h.leaving _ rfl c hc
      · cases hjob
      · cases hframe
    · obtain ⟨⟨core', worker'⟩, hp, rfl⟩ := Option.map_eq_some_iff.mp hstep
      have hsteps := Worker.step_steps hp
      obtain ⟨hserver, hconnections⟩ := hsteps.server
      refine ⟨fun _ => ?_, fun _ => hserver.trans hstopped, fun _ => ⟨rfl, hsteps.quiet hquiet⟩, ?_,
        fun _ hne => absurd rfl hne⟩
      · exact hserver.symm ▸ hstops (by rintro ⟨⟩)
      · rintro worker'' hmain
        obtain rfl := MainThread.leaving.inj hmain
        exact hsteps.leaving hregistry (hstops (by rintro ⟨⟩)) (h.leaving worker rfl)

theorem Server.Stopping.next {cfg : Config} {s s' : Server Payload Output}
    {label : Label Payload Output} (h : s.Stopping) (hreached : s.view.Reached cfg)
    (hsound : s.Sound) (hsteps : s.Steps cfg label s') :
    s'.Stopping := by
  cases hsteps with
  | heard core hheard same =>
    have hconnections : core.connections = s.core.connections := hheard.sessions.connections_eq
    refine ⟨fun hmain => same ▸ h.stops hmain, fun hcall => same.trans (h.stopped hcall),
      fun hsettled => ?_, fun worker hmain => ?_, fun hs hcall => ?_⟩
    · have hsettled' : s.Settled := by
        unfold Server.Settled at hsettled ⊢
        rw [← same]
        exact hsettled
      obtain ⟨hended, hquiet⟩ := h.settled hsettled'
      refine ⟨hended, hheard.quiet ?_ hquiet⟩
      by_cases hmain : s.main = .idle
      · simpa [Server.Settled, hmain] using hsettled'
      · exact h.stops hmain
    · rw [hconnections]
      exact h.leaving worker hmain
    · rw [hconnections]
      exact h.left (same ▸ hs) hcall
  | @stepThread hook core step hstep =>
    have hne : s.step ≠ .ended := by
      rintro hended
      rw [hended] at hstep
      cases hstep
    obtain ⟨hserver, hconnections⟩ := StepThread.step_server hstep
    refine ⟨fun hmain => hserver ▸ h.stops hmain, fun hcall => hserver.trans (h.stopped hcall),
      fun hsettled => ?_, fun worker hmain => absurd (hsound.leaving worker hmain) hne,
      fun hs hcall => ?_⟩
    · refine absurd (h.settled ?_).1 hne
      unfold Server.Settled at hsettled ⊢
      rw [← hserver]
      exact hsettled
    · have hstopped : s.core.state = .stopped := hserver ▸ hs
      refine List.eq_nil_iff_forall_not_mem.mpr fun c hc => ?_
      have := hconnections (by simp [hstopped]) c hc
      rw [h.left hstopped hcall] at this
      cases this
  | @stepReturn items stepReturn hstep =>
    have hsessions := s.core.sessions_finishBatch items stepReturn
    have hserver : (s.core.finishBatch items stepReturn).state = s.core.state :=
      congrArg Sessions.server hsessions
    have hconnections : (s.core.finishBatch items stepReturn).connections = s.core.connections :=
      congrArg Sessions.connections hsessions
    have hne : s.step ≠ .ended := by simp [hstep]
    refine ⟨fun hmain => hserver ▸ h.stops hmain, fun hcall => hserver.trans (h.stopped hcall),
      fun hsettled => ?_, fun worker hmain => absurd (hsound.leaving worker hmain) hne,
      fun hs hcall => hconnections.trans (h.left (hserver ▸ hs) hcall)⟩
    refine absurd (h.settled ?_).1 hne
    unfold Server.Settled at hsettled ⊢
    rw [← hserver]
    exact hsettled
  | @call _ _ state call hstops hstop hdrain hcall =>
    obtain ⟨core, step, main⟩ := s
    cases main with
    | idle =>
      cases hcall
      refine ⟨fun _ => hstops, fun hc => hstop (Option.some.inj hc), nofun, nofun, fun hs hc => ?_⟩
      cases call with
      | drain => exact h.left (hdrain rfl hs) nofun
      | stop => exact absurd rfl hc
    | _ => cases hcall
  | main hmain => exact h.mainThread hreached hsound hmain

theorem Server.stopping_of_reachable {cfg : Config} {s : Server Payload Output}
    (h : (server cfg).Reachable s) : s.Stopping := by
  have hI : (server cfg).IsInvariant fun s : Server Payload Output =>
      (server cfg).Reachable s ∧ s.Stopping := by
    refine ⟨⟨TransitionSystem.reachable_init, ?_⟩, fun s label s' ⟨hs, hstopping⟩ hstep => ?_⟩
    · exact ⟨fun hne => absurd rfl hne, nofun, fun hne => absurd rfl hne, nofun, nofun⟩
    · exact ⟨hs.step hstep, hstopping.next ⟨s, hs, rfl⟩ ((Server.regular cfg).of_reachable hs).sound
        (Server.next_steps hstep)⟩
  exact (hI.of_reachable h).2

theorem connections_eq_nil {cfg : Config} {s : Server Payload Output}
    (h : (server cfg).Reachable s) (hstopped : s.core.state = .stopped) (hidle : s.main = .idle) :
    s.core.connections = [] :=
  (Server.stopping_of_reachable h).left hstopped (by simp [hidle, MainThread.call?])

end ReactorRuntime.ModelServer
