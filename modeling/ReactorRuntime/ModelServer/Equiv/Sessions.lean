import ReactorRuntime.ModelServer.Sessions
import ReactorRuntime.ModelServer.Equiv.Moves

/-!
# What the core does to its sessions

`Core.sessions` forgets requests and answers.  The theorems here say what each operation of the
core is on what remains: an operation of `Sessions` under the same name, or nothing at all.
-/

namespace ReactorRuntime.ModelServer

variable {Payload Output : Type*}

namespace Core

variable (core : Core Payload Output)

/-! ### One connection at a time -/

theorem sessions_modify (c : ℕ) (f : Connection Payload Output → Connection Payload Output) :
    (core.modify c f).sessions = { core.sessions with
      state := Function.update core.sessions.state c (f (core.conns c)).state
      slot := Function.update core.sessions.slot c (f (core.conns c)).slot
      generation := Function.update core.sessions.generation c (f (core.conns c)).generation
      reader := Function.update core.sessions.reader c (f (core.conns c)).reader } := by
  have apply {α : Type} (g : Connection Payload Output → α) :
      (fun d => g ((core.modify c f).conns d)) =
        Function.update (fun d => g (core.conns d)) c (g (f (core.conns c))) := by
    funext d
    rw [conns_modify, Function.update_apply, apply_ite g]
  rw [sessions, apply Connection.state, apply Connection.slot, apply Connection.generation,
    apply Connection.reader]
  rfl

theorem sessions_modify_same (c : ℕ) (f : Connection Payload Output → Connection Payload Output)
    (hstate : (f (core.conns c)).state = (core.conns c).state)
    (hslot : (f (core.conns c)).slot = (core.conns c).slot)
    (hgeneration : (f (core.conns c)).generation = (core.conns c).generation)
    (hreader : (f (core.conns c)).reader = (core.conns c).reader) :
    (core.modify c f).sessions = core.sessions := by
  rw [sessions_modify, hstate, hslot, hgeneration, hreader]
  simp [sessions]

@[simp] theorem sessions_answer (c : ℕ) (message : ToSession Output)
    (producer : Option (ServerRequest Payload)) :
    (core.answer c message producer).sessions = core.sessions :=
  core.sessions_modify_same c _ (by simp) (by simp) (by simp) (by simp)

@[simp] theorem sessions_close (c : ℕ) : (core.close c).sessions = core.sessions :=
  core.sessions_modify_same c _ (by simp) (by simp) (by simp) (by simp)

@[simp] theorem sessions_setState (c : ℕ) (state : ConnectionState) :
    (core.setState c state).sessions = core.sessions.move c state := by
  rw [setState, sessions_modify]
  simp [sessions, Sessions.move]

@[simp] theorem sessions_reader (c : ℕ) (reader : Reader) :
    (core.modify c fun k => { k with reader }).sessions =
      { core.sessions with reader := Function.update core.sessions.reader c reader } := by
  rw [sessions_modify]
  simp [sessions]

theorem accept_sessions (cfg : Config) :
    Sessions.Heard core.sessions (core.accept cfg).sessions := by
  unfold accept
  dsimp only
  split_ifs
  · have h := sessions_reader ({ core with numbers := core.numbers + 1 }) core.numbers .hello
    exact h ▸ .accept core.sessions
  · rw [sessions_close]
    exact .turnAway _

theorem hello_sessions (cfg : Config) (c : ℕ) (hello : Hello)
    (greets : (core.conns c).reader = .hello) :
    Sessions.Heard core.sessions (core.hello cfg c hello).sessions := by
  have refuse (reason : String) : Sessions.Heard core.sessions (core.modify c fun k =>
      { k.offer (.refused reason) with reader := .leaving }).sessions := by
    rw [sessions_modify]
    have := Sessions.Heard.refuse core.sessions c greets
    simpa [sessions] using this
  have greet (k : Connection Payload Output) (hstate : k.state = (core.conns c).state)
      (hslot : k.slot = some hello.slot.toNat)
      (hgeneration : k.generation = (core.conns c).generation) :
      Sessions.Heard core.sessions
        (core.modify c fun _ => { k with reader := .leaving }).sessions := by
    rw [sessions_modify, hstate, hslot, hgeneration]
    have := Sessions.Heard.greet core.sessions c hello.slot.toNat greets
    simpa [sessions] using this
  unfold Core.hello
  dsimp only
  split
  · exact refuse _
  · split_ifs with hslot hserving
    · split
      · next opening hmove =>
        obtain ⟨hmoves, rfl⟩ := Connection.move_eq_some.mp hmove
        have hconnecting : (core.conns c).state = .connecting := by
          cases hstate : (core.conns c).state <;> simp [hstate, ConnectionState.moves] at hmoves
          rfl
        have := Sessions.Heard.enter core.sessions c hello.slot.toNat greets hconnecting
        rw [sessions_modify]
        simpa [sessions, queue] using this
      · exact greet { core.conns c with slot := some hello.slot.toNat } rfl rfl rfl
    · exact greet _ (by simp) (by simp) (by simp)
    · exact refuse _

/-! ### The operations of the lifecycle -/

@[simp] theorem sessions_sessionOpened (c : ℕ) (hook : HookReturn) :
    (core.sessionOpened c hook).sessions = core.sessions.sessionOpened c hook := by
  cases hook <;> rfl

@[simp] theorem sessions_sessionClosed (c : ℕ) :
    (core.sessionClosed c).sessions = core.sessions.sessionClosed c := rfl

@[simp] theorem sessions_nextGeneration (c : ℕ) :
    (core.nextGeneration c).sessions = core.sessions.nextGeneration c := by
  have h := core.sessions_modify c fun k =>
    { k with generation := core.generations ((core.conns c).slot.getD 0) + 1 }
  simp only [sessions, Sessions.mk.injEq] at h
  simp only [sessions, nextGeneration, Sessions.nextGeneration, Sessions.slotOf, h,
    Function.update_eq_self]

@[simp] theorem sessions_forget (c : ℕ) :
    (core.forget c).sessions = core.sessions.forget c := rfl

@[simp] theorem sessions_register (c : ℕ) :
    (core.register c).sessions = core.sessions.register c := rfl

@[simp] theorem sessions_discardOpening (c : ℕ) :
    (core.discardOpening c).sessions = core.sessions := rfl

@[simp] theorem sessions_resetAnswered (c : ℕ) :
    (core.resetAnswered c).sessions = core.sessions := rfl

@[simp] theorem sessions_offerRefusal (c : ℕ) (exc : Raised) (serving : Bool) :
    (core.offerRefusal c exc serving).sessions = core.sessions := by
  unfold offerRefusal
  split_ifs
  · exact core.sessions_modify_same c _ (by simp) (by simp) (by simp) (by simp)
  · rfl

/-! ### Finishing requests -/

@[simp] theorem sessions_complete (item : Pending Payload) (output : Outcome Output) :
    (core.complete item output).sessions = core.sessions := by
  rw [complete_eq]
  split_ifs
  · exact core.sessions_answer _ _ _
  · exact core.sessions_answer _ _ _
  · rfl
  · rfl

@[simp] theorem sessions_completeTicket (ticket : ℕ) (output : Outcome Output) :
    (core.completeTicket ticket output).sessions = core.sessions := by
  unfold completeTicket
  split
  · rfl
  · exact core.sessions_complete _ _

@[simp] theorem sessions_finishOne (ticket : ℕ) (output : StepOutput Output) :
    (core.finishOne ticket output).sessions = core.sessions := by
  cases output with
  | done outcome => exact core.sessions_completeTicket ticket outcome
  | future => rfl

theorem sessions_foldl {α : Type*} (f : Core Payload Output → α → Core Payload Output)
    (hf : ∀ core a, (f core a).sessions = core.sessions) (as : List α) :
    (as.foldl f core).sessions = core.sessions := by
  induction as generalizing core with
  | nil => rfl
  | cons a as ih => rw [List.foldl_cons, ih, hf]

@[simp] theorem sessions_failBatch (items : List (Pending Payload)) (exc : Fault) :
    (core.failBatch items exc).sessions = core.sessions :=
  core.sessions_foldl _ (fun core _ => core.sessions_completeTicket _ _) items

@[simp] theorem sessions_finishBatch (items : List (Pending Payload))
    (stepReturn : StepReturn Output) :
    (core.finishBatch items stepReturn).sessions = core.sessions := by
  cases stepReturn with
  | raised exc => exact core.sessions_failBatch _ _
  | notSequence typeName => exact core.sessions_failBatch _ _
  | outputs outputs =>
    unfold finishBatch
    dsimp only
    split_ifs
    · exact core.sessions_foldl _ (fun core _ => core.sessions_finishOne _ _) _
    · exact core.sessions_failBatch _ _

@[simp] theorem sessions_turn (cfg : Config) : (core.turn cfg).1.sessions = core.sessions := by
  unfold turn
  split
  · rfl
  · dsimp only
    split_ifs <;> rfl
  · dsimp only
    split_ifs <;> rfl

end Core

/-! ### The thread that calls into the model -/

theorem Core.Starts.sessions {core core' : Core Payload Output} {job : Job Output}
    {frame : Frame Payload Output} (h : core.Starts job core' frame) :
    Sessions.Start core.sessions job core'.sessions frame := by
  cases h with
  | answer c message =>
    rw [sessions_answer]
    exact .done _ _ nofun
  | postTo c message registered =>
    rw [sessions_answer]
    exact .done _ _ nofun
  | postToNobody c message gone => exact .done _ _ nofun
  | leave c => exact .leave _ c
  | applyLeave c => exact .applyLeave _ c
  | refuseLeave c => exact .refuseLeave _ c
  | enterLate c late => exact .done _ _ nofun
  | replace c held opening holds ne => exact .replace _ c held opening holds ne
  | enter c opening free => exact .enter _ c opening free
  | refuseEnter c => exact .done _ _ nofun
  | reset event opened => exact .reset _ event opened
  | resetLate event late => exact .done _ _ nofun
  | refuseReset event => exact .refuseReset _ event _
  | closeOpening c unopened =>
    rw [sessions_close, sessions_setState]
    exact .closeOpening _ c unopened
  | closeOpened c => exact .done _ _ nofun

theorem Core.Advances.sessions {cfg : Config} {core core' : Core Payload Output}
    {frame frame' : Frame Payload Output} (h : core.Advances cfg frame core' frame') :
    Sessions.Advance core.sessions frame core'.sessions frame' := by
  cases h with
  | answer c message =>
    rw [sessions_answer]
    exact .answer _ c message
  | leave c next => exact .leave _ c next
  | left c next left =>
    rw [sessions_close]
    exact .left _ c next left
  | leaveMove c next stays =>
    rw [sessions_setState]
    exact .leaveMove _ c next
  | forgetOpen c next => exact .forgetOpen _ c next
  | forget c next =>
    rw [sessions_close, sessions_setState, sessions_forget]
    exact .forget _ c next
  | closeHook c next =>
    rw [sessions_close, sessions_setState, sessions_sessionClosed]
    exact .closeHook _ c next
  | openNext c =>
    rw [sessions_nextGeneration]
    exact .openNext _ c
  | opened c serving =>
    rw [sessions_register, sessions_setState, sessions_discardOpening, sessions_sessionOpened]
    exact .opened _ c _ serving
  | openedLate c stops => exact .openedLate _ c
  | openRaised c exc => exact .openRaised _ c exc _
  | openRefused c exc serving =>
    rw [sessions_close, sessions_setState, sessions_offerRefusal]
    exact .openRefused _ c exc serving
  | openClose c =>
    rw [sessions_close, sessions_setState, sessions_sessionClosed]
    exact .openClose _ c
  | resetDrop event => exact .resetDrop _ event _
  | resetAnswer event requestId dropped =>
    rw [sessions_answer]
    exact .resetAnswer _ event requestId dropped
  | resetClose event =>
    rw [sessions_modify_same _ _ _ rfl rfl rfl rfl, sessions_nextGeneration,
      sessions_sessionClosed]
    exact .resetClose _ event
  | resetOpened event =>
    rw [sessions_resetAnswered, sessions_setState, sessions_sessionOpened]
    exact .resetOpened _ event _
  | resetRaised event exc => exact .resetRaised _ event exc
  | resetReject event exc =>
    rw [sessions_answer]
    exact .resetReject _ event exc
  | resetForget event =>
    rw [sessions_setState]
    exact .resetForget _ event

/-! ### The other threads -/

theorem Heard.sessions {cfg : Config} {core core' : Core Payload Output}
    (h : Heard cfg core core') : Sessions.Heard core.sessions core'.sessions := by
  have same (c : ℕ) (k : Connection Payload Output) (hstate : k.state = (core.conns c).state)
      (hslot : k.slot = (core.conns c).slot)
      (hgeneration : k.generation = (core.conns c).generation)
      (hreader : k.reader = (core.conns c).reader) :
      Sessions.Heard core.sessions (core.modify c fun _ => k).sessions := by
    rw [core.sessions_modify_same c _ hstate hslot hgeneration hreader]
    exact .same _
  cases h with
  | tick clock => exact .same _
  | accept => exact core.accept_sessions cfg
  | hello c hello greets => exact core.hello_sessions cfg c hello greets
  | helloExpired c =>
    unfold Core.helloExpired
    split_ifs
    · exact same c _ rfl rfl rfl rfl
    · exact .same _
  | take c step reads free =>
    unfold Core.take
    split
    · exact same c _ rfl rfl rfl rfl
    · exact same c _ rfl rfl rfl rfl
  | cancel c requestId =>
    unfold Core.cancelRequest
    split
    · exact same c _ rfl rfl rfl rfl
    · exact same c _ rfl rfl rfl rfl
  | signal => exact .same _
  | reset event =>
    unfold Core.takeReset
    dsimp only
    split_ifs
    · exact same event.connection _ rfl rfl rfl rfl
    · exact same event.connection _ rfl rfl rfl rfl
  | reply c message replies holds =>
    rw [Core.sessions_answer]
    exact same c _ rfl rfl rfl rfl
  | hangUp c hung =>
    rw [Core.hangUp, Core.sessions_reader]
    exact .hangUp _ c hung
  | write c outcome k writes =>
    obtain ⟨_, _, _, _, _, -, -, rfl⟩ := Connection.write_eq_some writes
    exact same c _ rfl rfl rfl rfl
  | resolve ticket futureEnd done =>
    unfold Core.resolve
    rw [Core.sessions_completeTicket]
    exact .same _
  | stopping state stops => exact .stopping _ state stops

end ReactorRuntime.ModelServer
