import ReactorRuntime.ModelServer.Equiv.Held

/-!
# What happens on one connection

`Connection.Steps` is what one step of the model server may do to one connection: a message is
posted, a refusal is left for the reader to post, the writer takes its turn, and so on.  A result is
posted only as the outcome of a request that carries the connection's slot and generation.

* `Moves.along`: a step of the model server does nothing else to any connection.
* `View.Reached.connection`: so what these steps preserve holds of every connection.
-/

namespace ReactorRuntime.ModelServer

variable {Payload Output : Type*}

/-- A message that is not the result of a request. -/
def ToSession.plain : ToSession Output → Bool
  | .result _ _ => false
  | _ => true

/-! ### The steps -/

inductive Connection.Steps : Connection Payload Output → Connection Payload Output → Prop
  /-- The fields the server keeps change. -/
  | set (k : Connection Payload Output) (state : ConnectionState) (slot : Option ℕ)
      (generation : ℕ) (sessionId : Option String) (linkClosed : Bool) (reader : Reader) :
      Steps k { k with state, slot, generation, sessionId, linkClosed, reader }
  | answer (k : Connection Payload Output) (message : ToSession Output) (plain : message.plain) :
      Steps k (k.answer message)
  | offer (k : Connection Payload Output) (message : ToSession Output) (plain : message.plain) :
      Steps k (k.offer message)
  /-- The outcome of a request of the connection's slot and generation is posted. -/
  | outcome (k : Connection Payload Output) (message : ToSession Output)
      (request : ServerRequest Payload) (slot : k.slot = some request.slot)
      (generation : k.generation = request.generation) : Steps k (k.answer message (some request))
  /-- The reader posts a refusal. -/
  | reply (k : Connection Payload Output) (message : ToSession Output)
      (replies : List (ToSession Output)) (holds : k.replies = message :: replies) :
      Steps k ({ k with replies }.answer message)
  /-- A refusal is left for the reader to post. -/
  | refuse (k : Connection Payload Output) (message : ToSession Output) (plain : message.plain) :
      Steps k { k with replies := k.replies ++ [message] }
  /-- What was received, accepted and withdrawn is recorded. -/
  | record (k : Connection Payload Output) (received resets accepted withdrawn : List ℕ) :
      Steps k { k with history := { k.history with received, resets, accepted, withdrawn } }
  | close (k : Connection Payload Output) : Steps k k.close
  | write (k k' : Connection Payload Output) (outcome : Connection.SendOutcome)
      (writes : k.write outcome = some k') : Steps k k'

def Core.Along (core core' : Core Payload Output) : Prop :=
  ∀ c, Relation.ReflTransGen Connection.Steps (core.conns c) (core'.conns c)

namespace Core.Along

variable {core core' core'' : Core Payload Output}

theorem refl (core : Core Payload Output) : core.Along core := fun _ => .refl

theorem of_eq (h : core'.conns = core.conns) : core.Along core' := fun _ => h ▸ .refl

theorem trans (h : core.Along core') (h' : core'.Along core'') : core.Along core'' :=
  fun c => (h c).trans (h' c)

theorem modify {c : ℕ} {k : Connection Payload Output}
    (h : core'.conns = Function.update core.conns c k)
    (hk : Relation.ReflTransGen Connection.Steps (core.conns c) k) : core.Along core' := fun d => by
  rw [h, Function.update_apply]
  split_ifs with hd
  · rw [hd]
    exact hk
  · exact .refl

theorem step {c : ℕ} {k : Connection Payload Output}
    (h : core'.conns = Function.update core.conns c k)
    (hk : Connection.Steps (core.conns c) k) : core.Along core' :=
  modify h (.single hk)

theorem answer (c : ℕ) {message : ToSession Output} (plain : message.plain) :
    core.Along (core.answer c message) := step rfl (.answer _ _ plain)

theorem close (c : ℕ) : core.Along (core.close c) := step rfl (.close _)

theorem setState (c : ℕ) (state : ConnectionState) : core.Along (core.setState c state) :=
  step rfl (.set (core.conns c) state _ _ _ _ _)

theorem withdraw (c : ℕ) (ids : List ℕ) : core.Along (core.withdraw c ids) :=
  step rfl (.record (core.conns c) _ _ _ _)

theorem foldl {α : Type*} {f : Core Payload Output → α → Core Payload Output}
    (I : Core Payload Output → List α → Prop)
    (hf : ∀ core a as, I core (a :: as) → core.Along (f core a) ∧ I (f core a) as) :
    ∀ (as : List α) (core : Core Payload Output), I core as → core.Along (as.foldl f core)
  | [], core, _ => refl core
  | a :: as, core, h => (hf core a as h).1.trans (foldl I hf as _ (hf core a as h).2)

end Core.Along

/-! ### The other threads -/

namespace Core

variable (core : Core Payload Output)

theorem along_accept (cfg : Config) : core.Along (core.accept cfg) := by
  unfold accept
  dsimp only
  split_ifs
  · exact .step rfl (.set (core.conns core.numbers) _ _ _ _ _ _)
  · exact .step rfl (.close (core.conns core.numbers))

theorem along_hello (cfg : Config) (c : ℕ) (hello : Hello) :
    core.Along (core.hello cfg c hello) := by
  have set (k : Connection Payload Output) (state : ConnectionState) (slot : Option ℕ)
      (reader : Reader) : Connection.Steps k { k with state, slot, reader } :=
    .set k state slot k.generation k.sessionId k.linkClosed reader
  have refuse (reason : String) : core.Along (core.modify c fun k =>
      { k.offer (.refused reason) with reader := .leaving }) :=
    .modify rfl ((Relation.ReflTransGen.single (.offer _ (.refused reason) rfl)).tail
      (set _ _ _ .leaving))
  unfold Core.hello
  dsimp only
  split
  · exact refuse _
  · split_ifs
    · split
      · next opening hmove =>
        obtain ⟨-, rfl⟩ := Connection.move_eq_some.mp hmove
        exact .step rfl (set (core.conns c) _ _ _)
      · exact .step rfl (set (core.conns c) _ _ _)
    · exact .modify rfl (.tail (.tail (.single (set (core.conns c) (core.conns c).state
        (some hello.slot.toNat) (core.conns c).reader)) (.close _)) (set _ _ _ .leaving))
    · exact refuse _

theorem along_helloExpired (c : ℕ) : core.Along (core.helloExpired c) := by
  unfold helloExpired
  split_ifs
  · exact .step rfl (.set (core.conns c) _ _ _ _ _ _)
  · exact .refl core

theorem along_take (c : ℕ) (step : Step Payload) : core.Along (core.take c step) := by
  unfold take
  split
  · next refusal _ =>
    exact .modify rfl ((Relation.ReflTransGen.single
      (.refuse (core.conns c) (failure step.requestId refusal) rfl)).tail (.record _ _ _ _ _))
  · exact .step rfl (.record (core.conns c) _ _ _ _)

theorem along_cancelRequest (c requestId : ℕ) : core.Along (core.cancelRequest c requestId) := by
  unfold cancelRequest
  split
  · exact Along.withdraw c _
  · exact Along.withdraw c _

theorem along_takeReset (event : ResetEvent) : core.Along (core.takeReset event) := by
  unfold takeReset
  dsimp only
  split_ifs
  · exact .step rfl (.record (core.conns event.connection) _ _ _ _)
  · exact .modify rfl (.tail (.single (.refuse (core.conns event.connection)
      (failure event.requestId (.modelServerStopping STOPPING)) rfl)) (.record _ _ _ _ _))

/-! ### Finishing requests -/

variable {core : Core Payload Output}

/-- A request is answered only in the slot and the generation it was handed out in. -/
theorem along_complete {window : List (Waiting Payload)} {items : List (Pending Payload)}
    (h : Desk.Busy core.sessions (core.desk window items))
    (hslotted : ∀ c ∈ core.connections, ∃ slot, (core.conns c).slot = some slot)
    {item : Pending Payload} (hitem : item ∈ core.pending) (output : Outcome Output) :
    core.Along (core.complete item output) := by
  by_cases ha : core.answers item
  · have hconns := (core.conns_complete item output).trans (if_pos ha)
    obtain ⟨hawaited, -, hgeneration, hregistered⟩ := ha
    obtain ⟨slot, hslot⟩ := hslotted _ hregistered
    have hdetached : ¬ item.detached := by
      simp only [Pending.awaited, Bool.and_eq_true, Bool.not_eq_eq_eq_not, Bool.not_true] at hawaited
      simp [hawaited.2]
    have hcurrent : item.request.slot = core.sessions.slotOf item.connection :=
      (h.current item hitem hdetached).2
    have hslotOf : core.sessions.slotOf item.connection = slot :=
      congrArg (Option.getD · 0) hslot
    exact .step hconns (.outcome _ _ item.request (by rw [hslot, hcurrent, hslotOf]) hgeneration)
  · exact .of_eq ((core.conns_complete item output).trans (if_neg ha))

theorem along_completeTicket {window : List (Waiting Payload)} {items : List (Pending Payload)}
    (h : Desk.Busy core.sessions (core.desk window items))
    (hslotted : ∀ c ∈ core.connections, ∃ slot, (core.conns c).slot = some slot) (ticket : ℕ)
    (output : Outcome Output) : core.Along (core.completeTicket ticket output) := by
  unfold completeTicket
  split
  · exact .refl core
  · next item hitem =>
    exact along_complete h hslotted (mem_of_pendingOf hitem) output

theorem along_finishOne {item : Pending Payload} {items : List (Pending Payload)}
    (h : Desk.Busy core.sessions (core.desk [] (item :: items)))
    (hslotted : ∀ c ∈ core.connections, ∃ slot, (core.conns c).slot = some slot)
    (output : StepOutput Output) : core.Along (core.finishOne item.ticket output) := by
  cases output with
  | done outcome => exact along_completeTicket h hslotted _ _
  | future => exact .of_eq rfl

def Slotted (t : Sessions) : Prop := ∀ c ∈ t.connections, ∃ slot, t.slot c = some slot

theorem along_failBatch {items : List (Pending Payload)}
    (h : Desk.Busy core.sessions (core.desk [] items)) (hslotted : Slotted core.sessions)
    (exc : Fault) : core.Along (core.failBatch items exc) := by
  refine Along.foldl (fun core items =>
    Desk.Busy core.sessions (core.desk [] items) ∧ Slotted core.sessions) ?_ items core ⟨h, hslotted⟩
  intro core item items ⟨h, hslotted⟩
  refine ⟨along_completeTicket h hslotted _ _, busy_completeTicket h _, ?_⟩
  rwa [sessions_completeTicket]

theorem along_finishOutputs {items : List (Pending Payload)} (outputs : List (StepOutput Output))
    (hlength : outputs.length = items.length) (h : Desk.Busy core.sessions (core.desk [] items))
    (hslotted : Slotted core.sessions) :
    core.Along ((items.zip outputs).foldl (fun core p => core.finishOne p.1.ticket p.2) core) := by
  have hitems : (items.zip outputs).map Prod.fst = items :=
    List.map_fst_zip hlength.ge
  refine Along.foldl (fun core pairs => Desk.Busy core.sessions (core.desk [] (pairs.map Prod.fst)) ∧
    Slotted core.sessions) ?_ _ core ⟨by rwa [hitems], hslotted⟩
  intro core p pairs ⟨h, hslotted⟩
  refine ⟨along_finishOne h hslotted _, busy_finishOne h _, ?_⟩
  rwa [sessions_finishOne]

theorem along_finishBatch {items : List (Pending Payload)}
    (h : Desk.Busy core.sessions (core.desk [] items)) (hslotted : Slotted core.sessions)
    (stepReturn : StepReturn Output) : core.Along (core.finishBatch items stepReturn) := by
  cases stepReturn with
  | raised exc => exact along_failBatch h hslotted _
  | notSequence typeName => exact along_failBatch h hslotted _
  | outputs outputs =>
    unfold finishBatch
    dsimp only
    split_ifs with hlength
    · exact along_finishOutputs outputs hlength h hslotted
    · exact along_failBatch h hslotted _

end Core

/-! ### The thread that calls into the model -/

def Job.plain : Job Output → Bool
  | .answer _ message => message.plain
  | .postTo _ message => message.plain
  | _ => true

/-- A frame posts no result. -/
def Frame.plain : Frame Payload Output → Bool
  | .answer _ message => message.plain
  | _ => true

/-- The thread that calls into the model posts results only when a batch ends. -/
def Worker.plain (worker : Worker Payload Output) : Prop :=
  worker.frame.plain ∧ ∀ job ∈ worker.jobs, job.plain

theorem Core.Starts.plain {core core' : Core Payload Output} {job : Job Output}
    {frame : Frame Payload Output} (h : core.Starts job core' frame) : frame.plain := by
  cases h <;> rfl

theorem Core.Advances.plain {cfg : Config} {core core' : Core Payload Output}
    {frame frame' : Frame Payload Output} (h : core.Advances cfg frame core' frame') :
    frame'.plain := by
  have after (next : Option ℕ) : (Frame.after next : Frame Payload Output).plain := by
    cases next <;> rfl
  cases h <;> first | rfl | exact after _

theorem Core.turn_plain (cfg : Config) (core : Core Payload Output) :
    (core.turn cfg).2.worker.plain := by
  refine ⟨by rw [core.turn_frame cfg]; rfl, fun job hjob => ?_⟩
  unfold Core.turn at hjob
  split at hjob
  · cases hjob
  · dsimp only at hjob
    split_ifs at hjob
    · cases hjob
    · cases hjob
    · simp only [StepThread.worker, List.mem_append, List.mem_map] at hjob
      obtain ⟨_, -, rfl⟩ | ⟨_, -, rfl⟩ := hjob <;> rfl
  · dsimp only at hjob
    split_ifs at hjob
    · simp only [StepThread.worker, List.mem_append, List.mem_map] at hjob
      obtain ⟨_, -, rfl⟩ | ⟨_, -, rfl⟩ := hjob <;> rfl
    · cases hjob
    · simp only [StepThread.worker, List.mem_append, List.mem_map] at hjob
      obtain ⟨_, -, rfl⟩ | ⟨_, -, rfl⟩ := hjob <;> rfl

theorem Core.conns_turn (cfg : Config) (core : Core Payload Output) :
    (core.turn cfg).1.conns = core.conns := by
  unfold Core.turn
  split
  · rfl
  · dsimp only
    split_ifs <;> rfl
  · dsimp only
    split_ifs <;> rfl

theorem Moves.plain {cfg : Config} {v v' : View Payload Output} (h : Moves cfg v v')
    (hv : v.worker.plain) : v'.worker.plain := by
  cases h with
  | heard worker window items h => exact hv
  | start jobs window h => exact ⟨h.plain, fun job hjob => hv.2 job (List.mem_cons_of_mem _ hjob)⟩
  | advance jobs window h => exact ⟨h.plain, hv.2⟩
  | turn core => exact core.turn_plain cfg
  | joined core =>
    refine ⟨rfl, fun job hjob => ?_⟩
    simp only [Core.answerInFlight, List.mem_append, List.mem_map] at hjob
    obtain ((⟨_, -, rfl⟩ | ⟨_, -, rfl⟩) | ⟨_, -, rfl⟩) | ⟨_, -, rfl⟩ := hjob <;> rfl
  | leaveAll core =>
    refine ⟨rfl, fun job hjob => ?_⟩
    obtain ⟨_, -, rfl⟩ := List.mem_map.mp hjob
    rfl
  | _ => exact ⟨rfl, nofun⟩

theorem View.Reached.plain {cfg : Config} {v : View Payload Output} (h : v.Reached cfg) :
    v.worker.plain :=
  View.Reached.induction (I := fun v => v.worker.plain) ⟨rfl, nofun⟩
    (fun _ _ _ hv hmoves => hmoves.plain hv) h

theorem Core.Starts.along {core core' : Core Payload Output} {job : Job Output}
    {frame : Frame Payload Output} (h : core.Starts job core' frame) (hplain : job.plain) :
    core.Along core' := by
  cases h with
  | answer c message => exact .answer c hplain
  | postTo c message registered => exact .answer c hplain
  | closeOpening c unopened => exact (Along.setState c _).trans (.close c)
  | _ => exact .of_eq rfl

theorem Core.Advances.along {cfg : Config} {core core' : Core Payload Output}
    {frame frame' : Frame Payload Output} (h : core.Advances cfg frame core' frame')
    (hplain : frame.plain) : core.Along core' := by
  have closed {core' : Core Payload Output} (c : ℕ) (state : ConnectionState)
      (h : core.Along core') : core.Along ((core'.setState c state).close c) :=
    h.trans ((Along.setState c state).trans (.close c))
  have generation {core' : Core Payload Output} (c : ℕ) (hconns : core'.conns = core.conns) :
      core.Along (core'.nextGeneration c) := by
    refine .step (c := c) (k := { core'.conns c with
      generation := core'.generations ((core'.conns c).slot.getD 0) + 1 }) ?_ ?_
    · rw [← hconns]
      rfl
    · rw [hconns]
      exact .set (core.conns c) _ _ _ _ _ _
  cases h with
  | answer c message => exact .answer c hplain
  | left c next left => exact .close c
  | leaveMove c next stays => exact .setState c _
  | forget c next => exact closed c _ (.of_eq rfl)
  | closeHook c next => exact closed c _ (.of_eq rfl)
  | openNext c => exact generation c rfl
  | opened c serving =>
    exact .step rfl (.set (core.conns c) _ _ _ _ _ _)
  | openRefused c exc serving =>
    refine closed c _ ?_
    cases serving
    · exact .refl core
    · exact .step rfl (.offer _ _ rfl)
  | openClose c => exact closed c _ (.of_eq rfl)
  | resetAnswer event requestId dropped => exact .answer _ rfl
  | resetClose event =>
    refine Along.trans (generation event.connection rfl) ?_
    exact .step rfl (.set _ _ _ _ event.sessionId _ _)
  | resetOpened event => exact .step rfl (.set (core.conns event.connection) _ _ _ _ _ _)
  | resetReject event exc => exact .answer _ rfl
  | resetForget event => exact .setState _ _
  | _ => exact .of_eq rfl

/-! ### Every run -/

theorem Sessions.Registry.slotted_connections {t : Sessions} {frame : Frame Payload Output}
    (h : t.Registry frame) : Core.Slotted t := fun c hc => h.slotted c (.inr hc)

/-- A step of the model server does nothing to a connection but the steps of the connection. -/
theorem Moves.along {cfg : Config} {v v' : View Payload Output} (h : Moves cfg v v')
    (hr : v.core.sessions.Registry v.worker.frame) (hv : v.Held) (hplain : v.worker.plain) :
    v.core.Along v'.core := by
  cases h with
  | heard worker window items h =>
    cases h with
    | accept => exact Core.along_accept _ cfg
    | hello c hello greets => exact Core.along_hello _ cfg c hello
    | helloExpired c => exact Core.along_helloExpired _ c
    | take c step reads free => exact Core.along_take _ c step
    | cancel c requestId => exact Core.along_cancelRequest _ c requestId
    | reset event => exact Core.along_takeReset _ event
    | reply c message replies holds =>
      rw [Core.answer_modify]
      exact .step rfl (.reply _ message replies holds)
    | hangUp c hung => exact .step rfl (.set _ _ _ _ _ _ .ended)
    | write c outcome k writes => exact .step rfl (.write _ _ outcome writes)
    | resolve ticket futureEnd done =>
      exact Core.along_completeTicket hv.busy hr.slotted_connections ticket _
    | _ => exact .of_eq rfl
  | start jobs window h => exact h.along (hplain.2 _ List.mem_cons_self)
  | advance jobs window h => exact h.along hplain.1
  | turn core =>
    exact .of_eq (core.conns_turn cfg)
  | returned core items stepReturn =>
    exact Core.along_finishBatch hv.busy hr.slotted_connections stepReturn
  | _ => exact .of_eq rfl

/-- What holds of a new connection and is kept by the steps of a connection. -/
structure Connection.IsInvariant (P : Connection Payload Output → Prop) : Prop where
  init : P {}
  step : ∀ k k', P k → Connection.Steps k k' → P k'

theorem Core.Along.invariant {P : Connection Payload Output → Prop}
    (hP : Connection.IsInvariant P) {core core' : Core Payload Output} (h : core.Along core')
    (hcore : ∀ c, P (core.conns c)) (c : ℕ) : P (core'.conns c) := by
  have hk := h c
  generalize core'.conns c = k at hk
  induction hk with
  | refl => exact hcore c
  | tail _ hstep ih => exact hP.step _ _ ih hstep

theorem View.Reached.connection {P : Connection Payload Output → Prop}
    (hP : Connection.IsInvariant P) {cfg : Config} {v : View Payload Output} (h : v.Reached cfg) :
    ∀ c, P (v.core.conns c) :=
  View.Reached.induction (I := fun v => ∀ c, P (v.core.conns c)) (fun _ => hP.init)
    (fun _ _ hv hcore hmoves => (hmoves.along hv.registry hv.held hv.plain).invariant hP hcore) h

end ReactorRuntime.ModelServer
