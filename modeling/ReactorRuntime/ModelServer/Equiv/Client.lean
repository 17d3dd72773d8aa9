import ReactorRuntime.ModelServer.Client
import Mathlib.Tactic.Cases

/-!
# What a call of the client carries along

A link is lost in one section, by one thread, which then tells (`LinkMove`, `Accounts`).  The table
of replies holds answers under their own request ids (`Table`), and a call carries along what it
will end by: the answer it took there, the deadline that passed, or the end of the link (`Fits`).
-/

namespace ReactorRuntime.ModelServer.Client

open Lists

variable {Payload Output : Type} {config : Config} {s s' : State Payload Output} {i : ℕ}
  {c c' : Call Payload Output}

/-! ### Losing the link -/

/-- The message that a thread in `_lose` has still to tell. -/
def Losing.message? : Losing → Option String
  | .begun _ => none
  | .closing message => some message
  | .telling message => some message

def Call.pending (c : Call Payload Output) : Option String :=
  match c.progress with
  | .losing _ stage => stage.message?
  | _ => none

def Reader.pending : Reader Output → Option String
  | .losing stage => stage.message?
  | _ => none

def Over (s : State Payload Output) (ended : Ended) : Prop :=
  (∃ message ∈ s.losses, ended = .modelServerLost message) ∨ ended = .closed ∧ s.state = .closed

structure Linked (s : State Payload Output) : Prop where
  opened : s.state = .opened → s.ended = none ∧ s.losses = []
  lost : s.state = .lost → ∃ message, s.ended = some (.modelServerLost message) ∧
    s.losses = [message]
  closed : s.state = .closed → s.ended = some .closed ∧ s.losses.length ≤ 1

/-- Each loss is told, or will be by the one thread that saw it. -/
structure Accounts (s : State Payload Output) : Prop where
  told : ∀ message ∈ s.told, message ∈ s.losses
  calls : ∀ c ∈ s.calls, ∀ message, c.pending = some message → message ∈ s.losses
  reader : ∀ message, s.reader.pending = some message → message ∈ s.losses
  count : s.told.length + s.calls.countP (fun c => c.pending.isSome) +
    (if s.reader.pending.isSome then 1 else 0) = s.losses.length

theorem Linked.over_of_ended (h : Linked s) {ended : Ended} (hended : s.ended = some ended) :
    Over s ended := by
  cases hstate : s.state with
  | opened =>
    rw [(h.opened hstate).1] at hended
    cases hended
  | lost =>
    obtain ⟨message, hmessage, hlosses⟩ := h.lost hstate
    rw [hmessage] at hended
    refine .inl ⟨message, ?_, (Option.some.inj hended).symm⟩
    rw [hlosses]
    exact List.mem_singleton_self message
  | closed =>
    rw [(h.closed hstate).1] at hended
    exact .inr ⟨(Option.some.inj hended).symm, hstate⟩

/-- What a step does to the link: nothing, `close`, the loss itself, or the telling; with what the
thread had to tell before, and has to tell after. -/
inductive LinkMove (s s' : State Payload Output) : Option String → Option String → Prop where
  | same (pending : Option String) (hstate : s'.state = s.state) (hended : s'.ended = s.ended)
    (hlosses : s'.losses = s.losses) (htold : s'.told = s.told) : LinkMove s s' pending pending
  | close (hstate : s'.state = .closed) (hended : s'.ended = some .closed)
    (hlosses : s'.losses = s.losses) (htold : s'.told = s.told) : LinkMove s s' none none
  | lost (message : String) (hopened : s.state = .opened) (hstate : s'.state = .lost)
    (hended : s'.ended = some (.modelServerLost message))
    (hlosses : s'.losses = s.losses ++ [message]) (htold : s'.told = s.told) :
    LinkMove s s' none (some message)
  | told (message : String) (hstate : s'.state = s.state) (hended : s'.ended = s.ended)
    (hlosses : s'.losses = s.losses) (htold : s'.told = s.told ++ [message]) :
    LinkMove s s' (some message) none

theorem lose_linkMove (s : State Payload Output) (losing : Losing) :
    LinkMove s (lose s losing).1 losing.message? ((lose s losing).2.bind Losing.message?) := by
  cases losing with
  | begun reason =>
    by_cases hstate : s.state = .opened
    · have hlose : lose s (.begun reason) = _ := if_neg (not_not_intro hstate)
      rw [hlose]
      exact .lost _ hstate rfl rfl rfl rfl
    · have hlose : lose s (.begun reason) = (s, none) := if_pos hstate
      rw [hlose]
      exact .same _ rfl rfl rfl rfl
  | closing message => exact .same _ rfl rfl rfl rfl
  | telling message => exact .told message rfl rfl rfl rfl

section LinkMove

variable {before after : Option String}

theorem Linked.move (h : Linked s) (hmove : LinkMove s s' before after) : Linked s' := by
  cases hmove with
  | same _ hstate hended hlosses =>
    constructor
    · rw [hstate, hended, hlosses]
      exact h.opened
    · rw [hstate, hended, hlosses]
      exact h.lost
    · rw [hstate, hended, hlosses]
      exact h.closed
  | close hstate hended hlosses =>
    refine ⟨fun hopened => ?_, fun hlost => ?_, fun _ => ⟨hended, ?_⟩⟩
    · cases hstate.symm.trans hopened
    · cases hstate.symm.trans hlost
    · rw [hlosses]
      cases hold : s.state with
      | opened => rw [(h.opened hold).2]; exact Nat.zero_le _
      | lost =>
        obtain ⟨message, -, hmessage⟩ := h.lost hold
        rw [hmessage]
        exact Nat.le_refl 1
      | closed => exact (h.closed hold).2
  | lost message hopened hstate hended hlosses =>
    refine ⟨fun hnew => ?_, fun _ => ⟨message, hended, ?_⟩, fun hnew => ?_⟩
    · cases hstate.symm.trans hnew
    · rw [hlosses, (h.opened hopened).2, List.nil_append]
    · cases hstate.symm.trans hnew
  | told message hstate hended hlosses =>
    constructor
    · rw [hstate, hended, hlosses]
      exact h.opened
    · rw [hstate, hended, hlosses]
      exact h.lost
    · rw [hstate, hended, hlosses]
      exact h.closed

theorem LinkMove.ends (h : LinkMove s s' before after) {ended : Ended} (hover : Over s ended) :
    Over s' ended := by
  cases h with
  | same _ hstate _ hlosses =>
    unfold Over
    rwa [hstate, hlosses]
  | close hstate _ hlosses =>
    refine hover.imp ?_ fun hclosed => ⟨hclosed.1, hstate⟩
    rw [hlosses]
    exact id
  | lost message hopened _ _ hlosses =>
    rcases hover with ⟨old, hold, heq⟩ | ⟨-, hclosed⟩
    · refine .inl ⟨old, ?_, heq⟩
      rw [hlosses]
      exact List.mem_append_left _ hold
    · cases hopened.symm.trans hclosed
  | told _ hstate _ hlosses =>
    unfold Over
    rwa [hstate, hlosses]

/-- What has come to an end stays so. -/
theorem LinkMove.ended_ne (h : LinkMove s s' before after) (hended : s.ended ≠ none) :
    s'.ended ≠ none := by
  cases h with
  | same _ _ hsame => rwa [hsame]
  | close _ hclosed => rw [hclosed]; exact Option.some_ne_none _
  | lost _ _ _ hlost => rw [hlost]; exact Option.some_ne_none _
  | told _ _ hsame => rwa [hsame]

theorem LinkMove.losses (h : LinkMove s s' before after) {message : String}
    (hmem : message ∈ s.losses) : message ∈ s'.losses := by
  cases h with
  | same _ _ _ hsame => rwa [hsame]
  | close _ _ hsame => rwa [hsame]
  | lost _ _ _ _ hlosses => rw [hlosses]; exact List.mem_append_left _ hmem
  | told _ _ _ hsame => rwa [hsame]

theorem LinkMove.balance (h : LinkMove s s' before after) :
    s'.told.length + (if after.isSome then 1 else 0) + s.losses.length =
      s.told.length + (if before.isSome then 1 else 0) + s'.losses.length := by
  cases h with
  | same _ _ _ hlosses htold => rw [hlosses, htold]
  | close _ _ hlosses htold => rw [hlosses, htold]
  | lost message _ _ _ hlosses htold =>
    rw [hlosses, htold, List.length_append, List.length_singleton]
    simp only [Option.isSome_some, Option.isSome_none, if_true, Bool.false_eq_true, if_false]
    omega
  | told message _ _ hlosses htold =>
    rw [hlosses, htold, List.length_append, List.length_singleton]
    simp only [Option.isSome_some, Option.isSome_none, if_true, Bool.false_eq_true, if_false]

theorem LinkMove.mem (h : LinkMove s s' before after)
    (htold : ∀ message ∈ s.told, message ∈ s.losses)
    (hbefore : ∀ message, before = some message → message ∈ s.losses) :
    (∀ message ∈ s'.told, message ∈ s'.losses) ∧
      ∀ message, after = some message → message ∈ s'.losses := by
  cases h with
  | same _ _ _ hlosses hsame =>
    rw [hlosses, hsame]
    exact ⟨htold, hbefore⟩
  | close _ _ hlosses hsame =>
    rw [hlosses, hsame]
    exact ⟨htold, hbefore⟩
  | lost message _ _ _ hlosses hsame =>
    rw [hlosses, hsame]
    refine ⟨fun old hold => List.mem_append_left _ (htold old hold), fun new hnew => ?_⟩
    rw [← Option.some.inj hnew]
    exact List.mem_append_right _ (List.mem_singleton_self message)
  | told message _ _ hlosses hmore =>
    rw [hlosses, hmore]
    refine ⟨fun old hold => ?_, fun new hnew => ?_⟩
    · rcases List.mem_append.mp hold with hold | hold
      · exact htold old hold
      · rw [List.mem_singleton.mp hold]
        exact hbefore message rfl
    · cases hnew

/-- What a step does to the link is a matter of four fields. -/
theorem LinkMove.congr (h : LinkMove s s' before after) {s'' : State Payload Output}
    (heq : (s''.state, s''.ended, s''.losses, s''.told) =
      (s'.state, s'.ended, s'.losses, s'.told)) : LinkMove s s'' before after := by
  simp only [Prod.mk.injEq] at heq
  obtain ⟨hstate, hended, hlosses, htold⟩ := heq
  cases h with
  | same _ h₁ h₂ h₃ h₄ =>
    exact .same _ (hstate.trans h₁) (hended.trans h₂) (hlosses.trans h₃) (htold.trans h₄)
  | close h₁ h₂ h₃ h₄ =>
    exact .close (hstate.trans h₁) (hended.trans h₂) (hlosses.trans h₃) (htold.trans h₄)
  | lost message hopened h₁ h₂ h₃ h₄ =>
    exact .lost message hopened (hstate.trans h₁) (hended.trans h₂) (hlosses.trans h₃)
      (htold.trans h₄)
  | told message h₁ h₂ h₃ h₄ =>
    exact .told message (hstate.trans h₁) (hended.trans h₂) (hlosses.trans h₃) (htold.trans h₄)

theorem Accounts.call (h : Accounts s) (hc : s.calls[i]? = some c)
    (hmove : LinkMove s s' c.pending c'.pending) (hcalls : s'.calls = s.calls.set i c')
    (hreader : s'.reader = s.reader) : Accounts s' := by
  obtain ⟨hlt, hget⟩ := List.getElem?_eq_some_iff.mp hc
  obtain ⟨htold, hafter⟩ := hmove.mem h.told (h.calls c (List.mem_of_getElem? hc))
  refine ⟨htold, fun d hd message hmessage => ?_, fun message hmessage => ?_, ?_⟩
  · rw [hcalls] at hd
    rcases List.mem_or_eq_of_mem_set hd with hd | rfl
    · exact hmove.losses (h.calls d hd message hmessage)
    · exact hafter message hmessage
  · rw [hreader] at hmessage
    exact hmove.losses (h.reader message hmessage)
  · have hbalance := hmove.balance
    have hcount := h.count
    have hpos : (if c.pending.isSome then 1 else 0) ≤
        s.calls.countP fun c => c.pending.isSome := by
      split_ifs with hsome
      · exact List.countP_pos_iff.mpr ⟨c, List.mem_of_getElem? hc, hsome⟩
      · exact Nat.zero_le _
    rw [hcalls, hreader, List.countP_set hlt, hget]
    omega

theorem Accounts.read (h : Accounts s) (hmove : LinkMove s s' s.reader.pending s'.reader.pending)
    (hcalls : s'.calls = s.calls) : Accounts s' := by
  obtain ⟨htold, hafter⟩ := hmove.mem h.told h.reader
  refine ⟨htold, fun d hd message hmessage => ?_, hafter, ?_⟩
  · rw [hcalls] at hd
    exact hmove.losses (h.calls d hd message hmessage)
  · have hbalance := hmove.balance
    have hcount := h.count
    rw [hcalls]
    omega

end LinkMove

@[simp] theorem Call.pending_raise (exc : Exc) : (c.raise exc).pending = none := by
  unfold raise
  split_ifs <;> rfl

@[simp] theorem Call.pending_afterSend (clock : Time) (message : ToModelServer Payload) :
    (c.afterSend clock message).pending = none := by
  cases message <;> rfl

@[simp] theorem Call.pending_afterRaise (exc : Exc) (message : ToModelServer Payload) :
    (c.afterRaise exc message).pending = none := by
  cases message with
  | cancel _ => cases exc <;> rfl
  | step _ => rfl
  | reset _ _ => rfl
  | signal _ => rfl

/-- What a step of a call that is not a send leaves as it is, beside the link. -/
structure Moves (s s' : State Payload Output) (before after : Option String) : Prop where
  link : LinkMove s s' before after
  received : s'.received = s.received
  sends : s'.sends = s.sends
  clock : s'.clock = s.clock
  reader : s'.reader = s.reader
  calls : s'.calls = s.calls
  replies : ∀ e ∈ s'.replies, e ∈ s.replies

/-- A step that leaves the link as it is. -/
theorem Moves.of_same {before after : Option String}
    (hlink : (s'.state, s'.ended, s'.losses, s'.told) = (s.state, s.ended, s.losses, s.told))
    (hframe : (s'.received, s'.sends, s'.clock, s'.reader, s'.calls) =
      (s.received, s.sends, s.clock, s.reader, s.calls))
    (hreplies : ∀ e ∈ s'.replies, e ∈ s.replies) (hbefore : before = none) (hafter : after = none) :
    Moves s s' before after := by
  rw [hbefore, hafter]
  simp only [Prod.mk.injEq] at hlink hframe
  obtain ⟨hstate, hended, hlosses, htold⟩ := hlink
  obtain ⟨hreceived, hsends, hclock, hreader, hcalls⟩ := hframe
  exact ⟨.same none hstate hended hlosses htold, hreceived, hsends, hclock, hreader, hcalls,
    hreplies⟩

/-- Nothing but the link is touched in `_lose`. -/
theorem lose_fst (s : State Payload Output) (stage : Losing) : ∃ state ended losses told,
    (lose s stage).1 = { s with state, ended, losses, told } := by
  cases stage with
  | begun reason =>
    by_cases hstate : s.state = .opened
    · have hlose : lose s (.begun reason) = _ := if_neg (not_not_intro hstate)
      rw [hlose]
      exact ⟨_, _, _, _, rfl⟩
    · have hlose : lose s (.begun reason) = (s, none) := if_pos hstate
      rw [hlose]
      exact ⟨_, _, _, _, rfl⟩
  | closing message => exact ⟨_, _, _, _, rfl⟩
  | telling message => exact ⟨_, _, _, _, rfl⟩

theorem lose_moves (s : State Payload Output) (stage : Losing) :
    Moves s (lose s stage).1 stage.message? ((lose s stage).2.bind Losing.message?) := by
  obtain ⟨state, ended, losses, told, hlose⟩ := lose_fst s stage
  have hlink := lose_linkMove s stage
  rw [hlose] at hlink ⊢
  exact ⟨hlink, rfl, rfl, rfl, rfl, rfl, fun _ he => he⟩

/-- A step of a call that is not a send. -/
theorem advance_moves (h : advance config s i c = some (s', c')) :
    Moves s s' c.pending c'.pending := by
  obtain ⟨request, progress, wait, requestId, deadline⟩ := c
  cases progress with
  | begun =>
    cases request with
    | step _ timeout =>
      simp only [advance] at h
      split at h <;> cases h <;> exact .of_same rfl rfl (fun _ he => he) rfl rfl
    | reset _ timeout =>
      simp only [advance] at h
      split at h <;> cases h <;> exact .of_same rfl rfl (fun _ he => he) rfl rfl
    | signal _ =>
      cases h
      exact .of_same rfl rfl (fun _ he => he) rfl rfl
    | close =>
      simp only [advance] at h
      split_ifs at h with hclosed <;> cases h
      · exact .of_same rfl rfl (fun _ he => he) rfl rfl
      · exact ⟨.close rfl rfl rfl rfl, rfl, rfl, rfl, rfl, rfl, fun _ he => he⟩
  | locking =>
    simp only [advance] at h
    split_ifs at h
    cases h
    exact .of_same rfl rfl (fun _ he => he) rfl rfl
  | usable =>
    simp only [advance] at h
    split at h
    · cases h
      exact .of_same rfl rfl (fun _ he => he) rfl (Call.pending_raise _)
    · split at h <;> cases h <;> exact .of_same rfl rfl (fun _ he => he) rfl rfl
  | opening =>
    cases request with
    | step request _ =>
      simp only [advance] at h
      split_ifs at h <;> cases h
      · exact .of_same rfl rfl (fun _ he => he) rfl (Call.pending_raise _)
      · exact .of_same rfl rfl (fun _ he => he) rfl rfl
    | reset sessionId _ =>
      cases h
      exact .of_same rfl rfl (fun _ he => he) rfl rfl
    | signal _ => cases h
    | close => cases h
  | entering message =>
    cases h
    exact .of_same rfl rfl (fun _ he => he) rfl rfl
  | sending message => cases h
  | losing message stage =>
    have hlose := lose_moves s stage
    simp only [advance] at h
    split at h <;> rename_i heq <;> cases h <;> rw [heq] at hlose <;> exact hlose
  | checking message =>
    simp only [advance] at h
    split at h <;> cases h
    · exact .of_same rfl rfl (fun _ he => he) rfl (Call.pending_afterRaise _ _)
    · exact .of_same rfl rfl (fun _ he => he) rfl (Call.pending_afterSend _ _)
  | waiting =>
    simp only [advance] at h
    split at h
    · cases h
      exact .of_same rfl rfl (fun _ he => List.mem_of_mem_filter he) rfl rfl
    · split at h
      · cases h
        exact .of_same rfl rfl (fun _ he => he) rfl rfl
      · split_ifs at h <;> cases h <;> exact .of_same rfl rfl (fun _ he => he) rfl rfl
  | cleaning outcome =>
    cases h
    refine .of_same rfl rfl (fun e he => ?_) rfl ?_
    · cases he
    · cases outcome <;> rfl
  | concluding answer =>
    cases answer with
    | none =>
      simp only [advance] at h
      split at h <;> cases h <;> exact .of_same rfl rfl (fun _ he => he) rfl rfl
    | some answer =>
      simp only [advance, Option.some.injEq, Prod.mk.injEq] at h
      obtain ⟨rfl, rfl⟩ := h
      split <;> exact .of_same rfl rfl (fun _ he => he) rfl rfl
  | leaving result =>
    cases h
    exact .of_same rfl rfl (fun _ he => he) rfl rfl
  | closing =>
    cases h
    exact .of_same rfl rfl (fun _ he => he) rfl rfl
  | ended result => cases h

/-! ### Where a call's result comes from -/

/-- An answer that was received and carries the call's own request id. -/
def Answered (s : State Payload Output) (c : Call Payload Output) (answer : ToSession Output) :
    Prop :=
  answer ∈ s.received ∧ ∃ requestId, c.requestId = some requestId ∧
    answer.requestId? = some requestId

def TimedOut (s : State Payload Output) (c : Call Payload Output) : Prop :=
  ∃ wait deadline, c.wait = some wait ∧ c.deadline = some deadline ∧ deadline ≤ s.clock

/-- A result that comes from an answer with the call's own request id, from its timeout, or from the
link's end. -/
inductive FromLink (s : State Payload Output) (c : Call Payload Output) : Result Output → Prop where
  | answered {answer : ToSession Output} (h : Answered s c answer) :
    FromLink s c (conclude c.request answer)
  | timedOut (h : TimedOut s c) : FromLink s c (.error (.stepTimedOut c.wait))
  | atEnd {ended : Ended} (h : Over s ended) : FromLink s c (.error (.ended ended))

def Request.timeout : Request Payload → Option Time
  | step _ timeout => timeout
  | reset _ timeout => timeout
  | signal _ => none
  | close => none

def Request.isReset : Request Payload → Bool
  | reset _ _ => true
  | _ => false

/-- What a call raises by itself: its timeout is negative, it is a step and the slot has to be reset
first, or its message could not be encoded. -/
inductive Refused (s : State Payload Output) (i : ℕ) (c : Call Payload Output) :
    Result Output → Prop where
  | negative {timeout : Time} (htimeout : c.request.timeout = some timeout) (h : timeout < 0) :
    Refused s i c (.error (.valueError timeout))
  | unready (h : c.request.isReset = false) : Refused s i c (.error .resetRequired)
  | unencoded {message : ToModelServer Payload} {text : String}
    (h : (i, message, .unencoded text) ∈ s.sends) : Refused s i c (.error (.unencoded text))

/-- Where the result of a step or a reset comes from. -/
def Sourced (s : State Payload Output) (i : ℕ) (c : Call Payload Output) (result : Result Output) :
    Prop :=
  FromLink s c result ∨ Refused s i c result

inductive Raised (s : State Payload Output) (i : ℕ) : Exc → Prop where
  | atEnd {ended : Ended} (h : Over s ended) : Raised s i (.ended ended)
  | unencoded {message : ToModelServer Payload} {text : String}
    (h : (i, message, .unencoded text) ∈ s.sends) : Raised s i (.unencoded text)

def Sends (s : State Payload Output) (c : Call Payload Output) : ToModelServer Payload → Prop
  | .step _ => c.request.isExchange = true
  | .reset _ _ => c.request.isExchange = true
  | .cancel _ => c.request.isExchange = true ∧ TimedOut s c
  | .signal _ => c.request.isExchange = false

/-- What a call carries along. -/
def Fits (s : State Payload Output) (i : ℕ) (c : Call Payload Output) : Prop :=
  match c.progress with
  | .begun => True
  | .locking => c.request.isExchange = true
  | .usable => c.request ≠ .close
  | .opening => c.request.isExchange = true
  | .entering message => Sends s c message
  | .sending message => Sends s c message
  | .losing message _ => Sends s c message
  | .checking message => Sends s c message
  | .waiting => c.request.isExchange = true ∧ (c.deadline.isSome = true → c.wait.isSome = true)
  | .cleaning (.ok (some answer)) => c.request.isExchange = true ∧ Answered s c answer
  | .cleaning (.ok none) => c.request.isExchange = true ∧ TimedOut s c
  | .cleaning (.error exc) => c.request.isExchange = true ∧ Raised s i exc
  | .concluding (some answer) => c.request.isExchange = true ∧ Answered s c answer
  | .concluding none => c.request.isExchange = true ∧ TimedOut s c
  | .leaving result => c.request.isExchange = true ∧ Sourced s i c result
  | .closing => c.request.isExchange = false
  | .ended result => c.request.isExchange = true → Sourced s i c result

/-- What was received and sent stays so, time goes on, and what is over stays over. -/
structure Later (s s' : State Payload Output) : Prop where
  received : ∀ answer ∈ s.received, answer ∈ s'.received
  sends : ∀ send ∈ s.sends, send ∈ s'.sends
  clock : s.clock ≤ s'.clock
  ends : ∀ ended, Over s ended → Over s' ended

section Later

variable (h : Later s s')

include h

theorem Later.answered {answer : ToSession Output} (hanswer : Answered s c answer) :
    Answered s' c answer :=
  hanswer.imp_left (h.received answer)

theorem Later.timedOut (htimed : TimedOut s c) : TimedOut s' c := by
  obtain ⟨wait, deadline, hwait, hdeadline, hle⟩ := htimed
  exact ⟨wait, deadline, hwait, hdeadline, Int.le_trans hle h.clock⟩

theorem Later.sourced {result : Result Output} (hsourced : Sourced s i c result) :
    Sourced s' i c result := by
  rcases hsourced with hlink | hrefused
  · refine .inl ?_
    cases hlink with
    | answered hanswer => exact .answered (h.answered hanswer)
    | timedOut htimed => exact .timedOut (h.timedOut htimed)
    | atEnd hover => exact .atEnd (h.ends _ hover)
  · refine .inr ?_
    cases hrefused with
    | negative htimeout hneg => exact .negative htimeout hneg
    | unready hreset => exact .unready hreset
    | unencoded hsend => exact .unencoded (h.sends _ hsend)

theorem Later.raised {exc : Exc} (hraised : Raised s i exc) : Raised s' i exc := by
  cases hraised with
  | atEnd hover => exact .atEnd (h.ends _ hover)
  | unencoded hsend => exact .unencoded (h.sends _ hsend)

theorem Later.sendsMessage {message : ToModelServer Payload} (hsends : Sends s c message) :
    Sends s' c message := by
  cases message with
  | step _ => exact hsends
  | reset _ _ => exact hsends
  | cancel _ => exact hsends.imp_right h.timedOut
  | signal _ => exact hsends

theorem Later.fits (hfits : Fits s i c) : Fits s' i c := by
  unfold Fits at hfits ⊢
  cases hprogress : c.progress with
  | begun => trivial
  | locking => rwa [hprogress] at hfits
  | usable => rwa [hprogress] at hfits
  | opening => rwa [hprogress] at hfits
  | entering message =>
    rw [hprogress] at hfits
    exact h.sendsMessage hfits
  | sending message =>
    rw [hprogress] at hfits
    exact h.sendsMessage hfits
  | losing message _ =>
    rw [hprogress] at hfits
    exact h.sendsMessage hfits
  | checking message =>
    rw [hprogress] at hfits
    exact h.sendsMessage hfits
  | waiting => rwa [hprogress] at hfits
  | cleaning outcome =>
    rw [hprogress] at hfits
    rcases outcome with exc | answer | answer
    · exact hfits.imp_right h.raised
    · exact hfits.imp_right h.timedOut
    · exact hfits.imp_right h.answered
  | concluding answer =>
    rw [hprogress] at hfits
    cases answer with
    | some _ => exact hfits.imp_right h.answered
    | none => exact hfits.imp_right h.timedOut
  | leaving result =>
    rw [hprogress] at hfits
    exact hfits.imp_right h.sourced
  | closing => rwa [hprogress] at hfits
  | ended result =>
    rw [hprogress] at hfits
    exact fun hexchange => h.sourced (hfits hexchange)

end Later

theorem Moves.later {before after : Option String} (h : Moves s s' before after) : Later s s' where
  received _ hanswer := h.received ▸ hanswer
  sends _ hsend := h.sends ▸ hsend
  clock := h.clock ▸ Int.le_refl _
  ends _ hover := h.link.ends hover

/-- The table of replies holds answers that were received, under their request ids. -/
def Table (s : State Payload Output) : Prop :=
  ∀ e ∈ s.replies, e.2 ∈ s.received ∧ e.2.requestId? = some e.1

section Fits

theorem Sourced.progress {result : Result Output} (h : Sourced s i c result)
    (progress : Progress Payload Output) : Sourced s i { c with progress } result := by
  rcases h with hlink | hrefused
  · refine .inl ?_
    cases hlink with
    | answered hanswer => exact .answered (c := { c with progress }) hanswer
    | timedOut htimed => exact .timedOut (c := { c with progress }) htimed
    | atEnd hover => exact .atEnd hover
  · refine .inr ?_
    cases hrefused with
    | negative htimeout hneg => exact .negative (c := { c with progress }) htimeout hneg
    | unready hreset => exact .unready (c := { c with progress }) hreset
    | unencoded hsend => exact .unencoded hsend

theorem of_wait_eq_error {timeout : Option Time} {exc : Exc}
    (h : wait config timeout = .error exc) :
    ∃ time, timeout = some time ∧ time < 0 ∧ exc = .valueError time := by
  cases timeout with
  | none => cases h
  | some time =>
    simp only [wait] at h
    split_ifs at h with hneg
    cases h
    exact ⟨time, rfl, hneg, rfl⟩

theorem fits_raise {exc : Exc} (h : c.request.isExchange = true → Sourced s i c (.error exc)) :
    Fits s i (c.raise exc) := by
  unfold Call.raise
  split_ifs with hexchange
  · exact ⟨hexchange, (h hexchange).progress _⟩
  · exact fun hnot => absurd hnot hexchange

theorem fits_afterSend {message : ToModelServer Payload} (h : Sends s c message) (clock : Time) :
    Fits s i (c.afterSend clock message) := by
  have hwait : (c.wait.map (clock + ·)).isSome = true → c.wait.isSome = true := by
    rw [Option.isSome_map]
    exact id
  cases message with
  | step _ => exact ⟨h, hwait⟩
  | reset _ _ => exact ⟨h, hwait⟩
  | cancel _ => exact ⟨h.1, .inl (.timedOut h.2)⟩
  | signal _ =>
    intro hexchange
    cases h.symm.trans hexchange

theorem fits_afterRaise {message : ToModelServer Payload} {exc : Exc} (h : Sends s c message)
    (hexc : Raised s i exc) : Fits s i (c.afterRaise exc message) := by
  cases message with
  | step _ => exact ⟨h, hexc⟩
  | reset _ _ => exact ⟨h, hexc⟩
  | cancel _ =>
    cases hexc with
    | atEnd hover => exact ⟨h.1, .inl (.atEnd hover)⟩
    | unencoded _ => exact ⟨h.1, .inl (.timedOut h.2)⟩
  | signal _ =>
    intro hexchange
    cases h.symm.trans hexchange

/-- A call carries along what it needs. -/
theorem fits_advance (hfits : Fits s i c) (hlinked : Linked s) (htable : Table s)
    (h : advance config s i c = some (s', c')) : Fits s i c' := by
  obtain ⟨request, progress, wait, requestId, deadline⟩ := c
  cases progress with
  | begun =>
    cases request with
    | step _ timeout =>
      simp only [advance] at h
      split at h <;> rename_i hwait <;> cases h
      · rfl
      · obtain ⟨time, rfl, hneg, rfl⟩ := of_wait_eq_error hwait
        exact fun _ => .inr (.negative rfl hneg)
    | reset _ timeout =>
      simp only [advance] at h
      split at h <;> rename_i hwait <;> cases h
      · rfl
      · obtain ⟨time, rfl, hneg, rfl⟩ := of_wait_eq_error hwait
        exact fun _ => .inr (.negative rfl hneg)
    | signal _ =>
      cases h
      intro hclose
      cases hclose
    | close =>
      simp only [advance] at h
      split_ifs at h <;> cases h
      · exact fun hexchange => nomatch hexchange
      · rfl
  | locking =>
    simp only [advance] at h
    split_ifs at h
    cases h
    rintro rfl
    cases hfits
  | usable =>
    simp only [advance] at h
    split at h <;> rename_i hended
    · cases h
      exact fits_raise fun _ => .inl (.atEnd (hlinked.over_of_ended hended))
    · cases request with
      | step _ _ => cases h; rfl
      | reset _ _ => cases h; rfl
      | signal _ => cases h; rfl
      | close => exact absurd rfl hfits
  | opening =>
    cases request with
    | step request _ =>
      simp only [advance] at h
      split_ifs at h <;> cases h
      · exact fits_raise fun _ => .inr (.unready rfl)
      · rfl
    | reset sessionId _ =>
      cases h
      rfl
    | signal _ => cases h
    | close => cases h
  | entering message =>
    cases h
    exact hfits
  | sending message => cases h
  | losing message stage =>
    simp only [advance] at h
    split at h <;> cases h <;> exact hfits
  | checking message =>
    simp only [advance] at h
    split at h <;> rename_i hended <;> cases h
    · exact fits_afterRaise hfits (.atEnd (hlinked.over_of_ended hended))
    · exact fits_afterSend hfits _
  | waiting =>
    obtain ⟨hexchange, hwait⟩ := hfits
    simp only [advance] at h
    split at h
    · rename_i answer hanswer
      obtain ⟨requestId, rfl, hlookup⟩ := Option.bind_eq_some_iff.mp hanswer
      obtain ⟨hreceived, hid⟩ := htable _ (Dict.mem_of_lookup hlookup)
      cases h
      exact ⟨hexchange, hreceived, requestId, rfl, hid⟩
    · split at h
      · rename_i hended
        cases h
        exact ⟨hexchange, .atEnd (hlinked.over_of_ended hended)⟩
      · split_ifs at h with hpassed <;> cases h
        · obtain ⟨time, hdeadline, hle⟩ := hpassed
          obtain rfl := Option.mem_def.mp hdeadline
          obtain ⟨wait, rfl⟩ := Option.isSome_iff_exists.mp (hwait rfl)
          exact ⟨hexchange, wait, time, rfl, rfl, hle⟩
        · exact ⟨hexchange, hwait⟩
  | cleaning outcome =>
    cases h
    rcases outcome with exc | answer | answer
    · obtain ⟨hexchange, hraised⟩ := hfits
      refine ⟨hexchange, ?_⟩
      cases hraised with
      | atEnd hover => exact .inl (.atEnd hover)
      | unencoded hsend => exact .inr (.unencoded hsend)
    · exact hfits
    · exact hfits
  | concluding answer =>
    cases answer with
    | none =>
      obtain ⟨hexchange, htimed⟩ := hfits
      simp only [advance] at h
      split at h <;> cases h
      · exact ⟨hexchange, htimed⟩
      · exact ⟨hexchange, .inl (.timedOut htimed)⟩
    | some answer =>
      obtain ⟨hexchange, hanswered⟩ := hfits
      simp only [advance, Option.some.injEq, Prod.mk.injEq] at h
      obtain ⟨-, rfl⟩ := h
      exact ⟨hexchange, .inl (.answered hanswered)⟩
  | leaving result =>
    cases h
    exact fun _ => hfits.2.progress _
  | closing =>
    cases h
    intro hexchange
    cases hfits.symm.trans hexchange
  | ended result => cases h

end Fits

end ReactorRuntime.ModelServer.Client
