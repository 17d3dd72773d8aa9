import ReactorRuntime.Runtime.Outgoing
import ReactorRuntime.Runtime.Equiv.Epochs
import ReactorRuntime.Runtime.Equiv.Steps

/-!
# Whom a model's messages reach

The registry holds connections of the runner's present session only, and the messages kept for a
step are cleared as the next session starts.  But what the model sends carries no session: code of
an earlier one that runs late reaches whoever is connected by then (`not_messages_own`).  So the
messages stay within their session as long as code sends only while its session is the runner's, or
where nobody is registered (`messages_own`).
-/

namespace ReactorRuntime.Runtime

namespace Runner

variable {recording : Bool} {r r' : Runner}

theorem sessionsPosted_next {label : Label} (hoffered : r.Offered)
    (hnext : next recording r label = some r')
    (hstart : ∀ params drawn, label ≠ .startSession params drawn) :
    r'.sessionsPosted = r.sessionsPosted := by
  refine next_preserves (I := fun s => s.sessionsPosted = r.sessionsPosted) rfl hoffered hnext
    (fun s s' hs hact => (act_session hact).1.trans hs)
    (fun params drawn hlabel => absurd hlabel (hstart params drawn)) ?_
  rintro stop rfl
  simp only [next] at hnext
  split at hnext
  · cases hnext
  · cases hnext
    rfl

theorem next_startSession (hoccupancy : Occupancy r) {params : SessionParams} {drawn : Drawn}
    (hnext : next recording r (.startSession params drawn) = some r') :
    (r.machine.send .startSession = none ∧ r' = r) ∨
      r.machine.send .startSession ≠ none ∧ r.connections.byId = ∅ ∧
        r'.sessionsPosted = r.sessionsPosted + 1 := by
  cases hnext
  cases hsend : r.machine.send .startSession with
  | none =>
    refine .inl ⟨rfl, ?_⟩
    rw [startSession, hsend]
    rfl
  | some machine =>
    have hready := (SessionStateMachine.send_start_eq_some hsend).1
    refine .inr ⟨by rintro ⟨⟩, hoccupancy.idle (.inr hready), ?_⟩
    rw [startSession_of_some recording hsend]
    exact (congrArg StepCount.sessionsPosted (quiet_beginSessionInputs _).count).trans
      (started_fields recording hready params drawn).2.2.2.1

end Runner

/-! ### Code that sends in its session -/

/-- What was taken for a hop is of the step's session, or of the one that made the request. -/
def Hop.Own (requests : List ℕ) : Hop → Prop
  | .step report messages => ∀ n ∈ messages, n = report.session
  | .failure _ requestId _ captured => ∀ n ∈ captured, requests[requestId]? = some n

namespace Outgoing

open Runner (Occupancy Numbered Below)

variable {recording storing : Bool} {wires : Connection → Wire} {s s' : Outgoing}

/-- Code sends only while its session is the runner's, or where no connection is registered; and
nothing is kept while the runner begins to start a session. -/
def sendsInSession (storing : Bool) (s : Outgoing) : Label → Bool
  | .reply code connId _ _ | .refuse code connId =>
    decide (s.session code = some s.runner.sessionsPosted) ||
      (s.runner.connections.byId.lookup connId).isNone
  | .broadcast code =>
    !storing || (decide (s.session code = some s.runner.sessionsPosted) && !s.starting)
  | .broadcasts =>
    decide (s.broadcasting = some s.runner.sessionsPosted) ||
      s.runner.connections.byId.keys.isEmpty
  | _ => true

/-- The registry and the messages that are kept are of the runner's session. -/
structure Own (s : Outgoing) : Prop where
  occupancy : Occupancy s.runner
  numbered : Numbered s.runner
  below : Below s.runner
  registered : ∀ id ∈ s.runner.connections.byId, s.registeredIn id = s.runner.sessionsPosted
  messages : ∀ n ∈ s.stepMessages, n = s.runner.sessionsPosted
  starting : s.starting = true → s.stepMessages = []
  hops : ∀ hop ∈ s.hops, hop.Own s.runner.requests
  handed : ∀ h ∈ s.handed, h.code = h.registered
  kept : ∀ k ∈ s.kept, k.code = k.step

theorem Hop.Own.mono {requests requests' : List ℕ} (h : requests <+: requests') {hop : Hop}
    (hown : hop.Own requests) : hop.Own requests' := by
  cases hop with
  | step step messages => exact hown
  | failure connId requestId message captured =>
    intro n hn
    have hrequest := hown n hn
    obtain ⟨hlt, hget⟩ := List.getElem?_eq_some_iff.mp hrequest
    obtain ⟨rest, rfl⟩ := h
    rw [List.getElem?_append_left hlt]
    exact hrequest

namespace Own

theorem init : Own ({} : Outgoing) where
  occupancy := Runner.occupancy_init
  numbered := Runner.numbered_init
  below := .of_stopped rfl
  registered id hid := absurd hid (AList.notMem_empty id)
  messages _ h := absurd h List.not_mem_nil
  starting _ := rfl
  hops _ h := absurd h List.not_mem_nil
  handed _ h := absurd h List.not_mem_nil
  kept _ h := absurd h List.not_mem_nil

theorem of_thread {t : Outgoing} (h : s.Own) (hrunner : t.runner = s.runner)
    (hregistered : t.registeredIn = s.registeredIn)
    (hmessages : ∀ n ∈ t.stepMessages, n = s.runner.sessionsPosted)
    (hstarting : t.starting = true → t.stepMessages = [])
    (hhops : ∀ hop ∈ t.hops, hop.Own s.runner.requests)
    (hhanded : ∀ h ∈ t.handed, h.code = h.registered) (hkept : t.kept = s.kept) : t.Own where
  occupancy := hrunner ▸ h.occupancy
  numbered := hrunner ▸ h.numbered
  below := hrunner ▸ h.below
  registered := by
    rw [hrunner, hregistered]
    exact h.registered
  messages := hrunner ▸ hmessages
  starting := hstarting
  hops := hrunner ▸ hhops
  handed := hhanded
  kept := hkept ▸ h.kept

theorem of_runner {t : Outgoing} {l : Runtime.Label} {runner : Runner} (h : s.Own)
    (hnext : Runtime.next recording s.runner l = some runner)
    (hposted : runner.sessionsPosted = s.runner.sessionsPosted ∨
      s.runner.connections.byId = ∅ ∧ t.stepMessages = [])
    (hrunner : t.runner = runner) (hregistered : t.registeredIn = (s.ran runner).registeredIn)
    (hmessages : ∀ n ∈ t.stepMessages, n ∈ s.stepMessages) (hstarting : t.starting = false)
    (hhops : ∀ hop ∈ t.hops, hop ∈ s.hops) (hhanded : t.handed = s.handed)
    (hkept : ∀ k ∈ t.kept, k.code = k.step) : t.Own where
  occupancy := hrunner ▸ Runner.isInvariant_occupancy.step _ _ _ h.occupancy hnext
  numbered := hrunner ▸ (Runner.numbered_next h.numbered h.below hnext).1
  below := hrunner ▸ (Runner.numbered_next h.numbered h.below hnext).2
  registered := by
    rw [hrunner, hregistered]
    intro id hid
    show (if runner.connections.byId.lookup id = s.runner.connections.byId.lookup id then
      s.registeredIn id else runner.sessionsPosted) = runner.sessionsPosted
    split_ifs with hsame
    · -- an old connection, so no session was started
      have hold : id ∈ s.runner.connections.byId := by
        rw [← AList.lookup_isSome, ← hsame, AList.lookup_isSome]
        exact hid
      rcases hposted with hposted | ⟨hempty, -⟩
      · rw [hposted]
        exact h.registered id hold
      · rw [hempty] at hold
        exact absurd hold (AList.notMem_empty id)
    · rfl
  messages n hn := by
    rw [hrunner]
    rcases hposted with hposted | ⟨-, hnil⟩
    · rw [hposted]
      exact h.messages n (hmessages n hn)
    · rw [hnil] at hn
      exact absurd hn List.not_mem_nil
  starting hstart := by
    rw [hstarting] at hstart
    cases hstart
  hops hop hmem := hrunner ▸ Hop.Own.mono (Runner.requests_next hnext) (h.hops hop (hhops hop hmem))
  handed := hhanded ▸ h.handed
  kept := hkept

theorem hand {code : ℕ} {connId : ConnId} {takes : Wire → Bool} (h : s.Own)
    (hsends : code = s.runner.sessionsPosted ∨
      s.runner.connections.byId.lookup connId = none) : (s.hand wires code connId takes).Own := by
  unfold Outgoing.hand
  cases hlookup : s.runner.connections.byId.lookup connId with
  | none => exact h
  | some conn =>
    dsimp only
    split_ifs
    · refine h.of_thread rfl rfl h.messages h.starting h.hops (fun entry hentry => ?_) rfl
      rcases List.mem_append.mp hentry with hentry | hentry
      · exact h.handed entry hentry
      · obtain rfl := List.mem_singleton.mp hentry
        have hmem : connId ∈ s.runner.connections.byId := by
          rw [← AList.lookup_isSome, hlookup]
          rfl
        have hcode := hsends.resolve_right (by rw [hlookup]; rintro ⟨⟩)
        exact hcode.trans (h.registered connId hmem).symm
    · exact h

theorem reply {code : ℕ} {connId : ConnId} (requestId : Option ℕ) (reply : Reply) (h : s.Own)
    (hsends : code = s.runner.sessionsPosted ∨
      s.runner.connections.byId.lookup connId = none) :
    (s.sendAddressed wires code connId requestId reply).Own := by
  unfold sendAddressed
  dsimp only
  split_ifs
  · exact h
  · have hroutes : Own { s with replyRoutes := (s.replyRoute connId requestId).2 } :=
      h.of_thread rfl rfl h.messages h.starting h.hops h.handed rfl
    exact hroutes.hand hsends

theorem mem_append_singleton {hop hop' : Hop} (h : s.Own)
    (hown : hop'.Own s.runner.requests) (hmem : hop ∈ s.hops ++ [hop']) :
    hop.Own s.runner.requests := by
  rcases List.mem_append.mp hmem with hmem | hmem
  · exact h.hops hop hmem
  · rw [List.mem_singleton.mp hmem]
    exact hown

theorem onHandlerFailure (h : s.Own) (connId : ConnId) (requestId : ℕ) (message : String) :
    (s.onHandlerFailure storing connId requestId message).Own := by
  unfold Outgoing.onHandlerFailure
  split_ifs with htakes
  · simp only [Bool.and_eq_true, Runner.failsRemainingSteps, decide_eq_true_eq] at htakes
    have hrequest := h.numbered.requested requestId htakes.2.2
    have hown : Hop.Own s.runner.requests (.failure connId requestId message s.stepMessages) := by
      intro n hn
      rw [h.messages n hn]
      exact hrequest
    exact h.of_thread rfl rfl (fun _ hn => absurd hn List.not_mem_nil) (fun _ => rfl)
      (fun hop hmem => h.mem_append_singleton hown hmem) h.handed rfl
  · have hown : Hop.Own s.runner.requests (.failure connId requestId message []) :=
      fun n hn => absurd hn List.not_mem_nil
    exact h.of_thread rfl rfl h.messages h.starting
      (fun hop hmem => h.mem_append_singleton hown hmem) h.handed rfl

theorem onStepCompleted (h : s.Own) (step : CompletedStep) :
    (s.onStepCompleted storing step).Own := by
  unfold Outgoing.onStepCompleted
  split_ifs with htakes
  · simp only [Bool.and_eq_true, decide_eq_true_eq] at htakes
    have hown : Hop.Own s.runner.requests (.step step s.stepMessages) := by
      intro n hn
      rw [h.messages n hn]
      exact htakes.2.symm
    exact h.of_thread rfl rfl (fun _ hn => absurd hn List.not_mem_nil) (fun _ => rfl)
      (fun hop hmem => h.mem_append_singleton hown hmem) h.handed rfl
  · have hown : Hop.Own s.runner.requests (.step step []) :=
      fun n hn => absurd hn List.not_mem_nil
    exact h.of_thread rfl rfl h.messages h.starting
      (fun hop hmem => h.mem_append_singleton hown hmem) h.handed rfl

theorem keepMessage (h : s.Own) {code : ℕ}
    (hkeeps : storing = true → code = s.runner.sessionsPosted ∧ s.starting = false) :
    (s.keepMessage storing code).Own := by
  have hmessages : ∀ n ∈ (s.keepMessage storing code).stepMessages, n ∈ s.stepMessages ∨
      storing = true ∧ n = code := by
    intro n hn
    have hn : n ∈ if storing then (s.stepMessages ++ [code]).rtake STEP_MESSAGES_LIMIT
      else s.stepMessages := hn
    split_ifs at hn with hstoring
    · rcases List.mem_append.mp (List.mem_of_mem_drop hn) with hn | hn
      · exact .inl hn
      · exact .inr ⟨hstoring, List.mem_singleton.mp hn⟩
    · exact .inl hn
  refine h.of_thread rfl rfl (fun n hn => ?_) (fun hstarting => ?_) h.hops h.handed rfl
  · rcases hmessages n hn with hn | ⟨hstoring, rfl⟩
    · exact h.messages n hn
    · exact (hkeeps hstoring).1
  · have hstarting : s.starting = true := hstarting
    refine List.eq_nil_iff_forall_not_mem.mpr fun n hn => ?_
    rcases hmessages n hn with hn | ⟨hstoring, -⟩
    · rw [h.starting hstarting] at hn
      exact absurd hn List.not_mem_nil
    · rw [(hkeeps hstoring).2] at hstarting
      cases hstarting

theorem broadcastAll (h : s.Own) {code : ℕ} (hsends : code = s.runner.sessionsPosted ∨
    s.runner.connections.byId.keys = []) : (s.broadcastAll code).Own := by
  refine h.of_thread rfl rfl h.messages h.starting h.hops (fun entry hentry => ?_) rfl
  rcases List.mem_append.mp hentry with hentry | hentry
  · exact h.handed entry hentry
  · obtain ⟨connId, hconn, rfl⟩ := List.mem_map.mp hentry
    rcases hsends with hcode | hempty
    · exact hcode.trans (h.registered connId hconn).symm
    · rw [hempty] at hconn
      exact absurd hconn List.not_mem_nil

theorem of_keep (h : s.Own) {saved : Bool} {messages : List ℕ}
    (hmessages : ∀ n ∈ messages, n = s.runner.sessionsPosted) :
    ∀ k ∈ s.kept ++ s.keep storing saved messages, k.code = k.step := by
  intro k hk
  rcases List.mem_append.mp hk with hk | hk
  · exact h.kept k hk
  · unfold keep at hk
    split_ifs at hk
    · obtain ⟨n, hn, rfl⟩ := List.mem_map.mp hk
      exact hmessages n hn
    · exact absurd hk List.not_mem_nil

theorem runtime {l : Runtime.Label} (h : s.Own) (hnext : s.runtime recording l = some s') :
    s'.Own := by
  unfold Outgoing.runtime at hnext
  split at hnext
  · cases hnext
  · cases hnext
  · by_cases hstarts : starts s.runner l = s.starting
    swap
    · rw [if_neg hstarts] at hnext
      cases hnext
    rw [if_pos hstarts] at hnext
    obtain ⟨runner, hrunner, rfl⟩ := Option.map_eq_some_iff.mp hnext
    refine h.of_runner hrunner ?_ rfl rfl (fun _ hn => hn) rfl (fun _ hmem => hmem) rfl h.kept
    by_cases hlabel : ∃ params drawn, l = .startSession params drawn
    · obtain ⟨params, drawn, rfl⟩ := hlabel
      rcases Runner.next_startSession h.occupancy hrunner with ⟨-, rfl⟩ | ⟨haccepts, hempty, -⟩
      · exact .inl rfl
      · -- a start that is accepted comes after the messages were cleared
        refine .inr ⟨hempty, h.starting ?_⟩
        rw [← hstarts]
        exact Option.isSome_iff_ne_none.mpr haccepts
    · push Not at hlabel
      exact .inl (Runner.sessionsPosted_next h.occupancy.offered hrunner hlabel)

theorem hop {saved : Bool} (h : s.Own) (hstarting : s.starting = false)
    (hnext : s.hop recording storing saved = some s') : s'.Own := by
  unfold Outgoing.hop at hnext
  split at hnext
  · next step messages hops hhops =>
    obtain ⟨runner, hrunner, rfl⟩ := Option.map_eq_some_iff.mp hnext
    have hown : ∀ n ∈ messages, n = step.session :=
      h.hops (.step step messages) (hhops ▸ List.mem_cons_self)
    refine h.of_runner hrunner
      (.inl (Runner.sessionsPosted_next h.occupancy.offered hrunner (by rintro _ _ ⟨⟩))) rfl rfl
      (fun _ hn => hn) hstarting (fun hop hmem => ?_) rfl ?_
    · rw [hhops]
      exact List.mem_cons_of_mem _ hmem
    · dsimp only
      split_ifs with hrecords
      · simp only [records, Bool.and_eq_true, decide_eq_true_eq] at hrecords
        exact h.of_keep fun n hn => (hown n hn).trans hrecords.1
      · rw [List.append_nil]
        exact h.kept
  · next connId requestId message captured hops hhops =>
    obtain ⟨runner, hrunner, rfl⟩ := Option.map_eq_some_iff.mp hnext
    have hown : ∀ n ∈ captured, s.runner.requests[requestId]? = some n :=
      h.hops (.failure connId requestId message captured) (hhops ▸ List.mem_cons_self)
    have hposted : runner.sessionsPosted = s.runner.sessionsPosted :=
      Runner.sessionsPosted_next h.occupancy.offered hrunner (by rintro _ _ ⟨⟩)
    have htail : ∀ hop ∈ hops, hop ∈ s.hops := by
      intro hop hmem
      rw [hhops]
      exact List.mem_cons_of_mem _ hmem
    split_ifs with hfails
    · refine h.of_runner hrunner (.inl hposted) rfl rfl
        (fun _ hn => absurd hn List.not_mem_nil) hstarting htail rfl (h.of_keep fun n hn => ?_)
      simp only [failsSteps, Runner.failsRemainingSteps, Bool.and_eq_true, decide_eq_true_eq]
        at hfails
      -- the request is one of the present session's own
      have hrequest := h.numbered.requested requestId hfails.1.2.2
      rcases List.mem_append.mp hn with hn | hn
      · exact Option.some.inj ((hown n hn).symm.trans hrequest)
      · exact h.messages n hn
    · exact h.of_runner hrunner (.inl hposted) rfl rfl (fun _ hn => hn) hstarting htail rfl h.kept
  · cases hnext

theorem same {t : Outgoing} (h : s.Own) (hrunner : t.runner = s.runner)
    (hregistered : t.registeredIn = s.registeredIn) (hmessages : t.stepMessages = s.stepMessages)
    (hstarting : t.starting = s.starting) (hhops : t.hops = s.hops) (hhanded : t.handed = s.handed)
    (hkept : t.kept = s.kept) : t.Own :=
  h.of_thread hrunner hregistered (hmessages ▸ h.messages)
    (by rw [hstarting, hmessages]; exact h.starting) (hhops ▸ h.hops) (hhanded ▸ h.handed) hkept

theorem next {l : Label} (h : s.Own) (hsends : s.sendsInSession storing l = true)
    (hnext : s.next recording storing wires l = some s') : s'.Own := by
  cases l with
  | clears =>
    simp only [Outgoing.next] at hnext
    split_ifs at hnext
    cases hnext
    exact h.of_thread rfl rfl (fun _ hn => absurd hn List.not_mem_nil) (fun _ => rfl) h.hops
      h.handed rfl
  | runtime l => exact h.runtime hnext
  | submit connId requestId route =>
    simp only [Outgoing.next] at hnext
    by_cases hstarting : s.starting = true
    · rw [if_pos hstarting] at hnext
      cases hnext
    rw [if_neg hstarting] at hnext
    cases hnext
    exact h.same rfl rfl rfl rfl rfl rfl rfl
  | hop saved =>
    simp only [Outgoing.next] at hnext
    split_ifs at hnext with hstarting
    exact h.hop (by simpa using hstarting) hnext
  | take =>
    simp only [Outgoing.next] at hnext
    split_ifs at hnext
    unfold Outgoing.take at hnext
    split at hnext
    · cases hnext
      exact h.same rfl rfl rfl rfl rfl rfl rfl
    · cases hnext
  | handled =>
    simp only [Outgoing.next] at hnext
    split_ifs at hnext
    cases hnext
    exact h.same rfl rfl rfl rfl rfl rfl rfl
  | beginStep =>
    simp only [Outgoing.next] at hnext
    split_ifs at hnext
    cases hnext
    exact h.same rfl rfl rfl rfl rfl rfl rfl
  | endStep =>
    simp only [Outgoing.next] at hnext
    split_ifs at hnext
    cases hnext
    exact h.same rfl rfl rfl rfl rfl rfl rfl
  | reply code connId requestId reply =>
    simp only [Outgoing.next] at hnext
    split_ifs at hnext
    obtain ⟨session, hsession, rfl⟩ := Option.map_eq_some_iff.mp hnext
    refine h.reply requestId reply ?_
    simpa [sendsInSession, hsession] using hsends
  | refuse code connId =>
    simp only [Outgoing.next] at hnext
    split_ifs at hnext
    obtain ⟨session, hsession, rfl⟩ := Option.map_eq_some_iff.mp hnext
    refine h.hand ?_
    simpa [sendsInSession, hsession] using hsends
  | broadcast code =>
    simp only [Outgoing.next] at hnext
    split_ifs at hnext
    obtain ⟨session, hsession, rfl⟩ := Option.map_eq_some_iff.mp hnext
    refine h.keepMessage fun hstoring => ?_
    simpa [sendsInSession, hsession, hstoring] using hsends
  | broadcasts =>
    obtain ⟨session, hsession, rfl⟩ := Option.map_eq_some_iff.mp hnext
    refine h.broadcastAll ?_
    simpa [sendsInSession, hsession] using hsends
  | completeStep step =>
    simp only [Outgoing.next] at hnext
    split_ifs at hnext
    cases hnext
    exact h.onStepCompleted step
  | noteFailure connId requestId message =>
    simp only [Outgoing.next] at hnext
    split_ifs at hnext
    cases hnext
    exact h.onHandlerFailure connId requestId message

end Own

/-! ### Runs -/

def v1Wires (_ : Connection) : Wire := { version := .v1, observes := false }

def sessionRun : List Label :=
  [.clears, .runtime (.startSession {} { uuid := "" }), .runtime (.offerAdmitted 1),
    .runtime (.connectionOpened { id := 1 })]

/-- The session is stopped, and its connections are torn down. -/
def stopRun : List Label :=
  [.runtime (.stopSession .stopped ""), .runtime (.teardown 0), .runtime (.teardown 0)]

/-- Two sessions, with a handler that answers and broadcasts in each, and a step that takes what was
kept. -/
def promptRun : List Label :=
  .runtime (.initialized true) :: sessionRun ++ [.submit 1 (some 0) .protocol, .take, .handled,
    .take, .handled, .take, .broadcast .handler, .broadcasts,
    .reply .handler 1 (some 0) .acknowledgement, .handled, .completeStep { session := 1 },
    .hop true] ++ stopRun ++ sessionRun ++ [.take, .handled, .take, .handled, .take, .handled,
    .beginStep, .broadcast .step, .broadcasts, .endStep, .completeStep { session := 2 }, .hop true]

theorem isSome_promptRun : ((outgoing false true v1Wires).run promptRun).isSome := rfl

/-- The handler of a command of the first session answers, sends and refuses a step once the second
has a client with the same id. -/
def lateRun : List Label :=
  .runtime (.initialized true) :: sessionRun ++ [.submit 1 (some 0) .protocol, .take, .handled,
    .take, .handled, .take] ++ stopRun ++ sessionRun ++
    [.reply .handler 1 (some 0) .message, .reply .handler 1 none .message, .refuse .handler 1]

/-- The hook for the end of the first session broadcasts once the second has a client, whose first
step takes the message. -/
def farewellRun : List Label :=
  .runtime (.initialized true) :: sessionRun ++ stopRun ++ sessionRun ++ [.take, .handled, .take,
    .handled, .take, .broadcast .handler, .broadcasts, .handled, .completeStep { session := 2 },
    .hop true]

theorem lateRun_handed : ((outgoing false true v1Wires).run lateRun).map (·.handed) =
    some [⟨1, 1, 2⟩, ⟨1, 1, 2⟩, ⟨1, 1, 2⟩] := by
  decide +kernel

theorem farewellRun_handed : ((outgoing false true v1Wires).run farewellRun).map
    (fun s => (s.handed, s.kept)) = some ([⟨1, 1, 2⟩], [⟨1, 2⟩]) := by
  decide +kernel

end Outgoing

end ReactorRuntime.Runtime
