import ReactorRuntime.ModelServer.Equiv.Held

/-!
# The ledger of requests and answers

For a connection and a request id, `View.owed` counts the answers to steps that some part of the model
server has still to give, and `View.owedElse` the answers to resets and the refusals of the reader.
`Accounts` is what a step does to them: nothing is owed or answered that was not received, and on an
open connection whose outbox has room no answer to an accepted step is lost.

* `Moves.accounts`: every step of the model server keeps the accounts.
-/

namespace ReactorRuntime.ModelServer

variable {Payload Output : Type*}

/-! ### What is owed -/

/-- Whether a message is a `Result` or a `Failed` for the request. -/
def ToSession.answersTo (requestId : ℕ) : ToSession Output → Bool
  | .result answered _ => answered = requestId
  | .failed answered _ => answered = requestId
  | _ => false

/-- How often a message to the connection `d` answers the request of the connection `c`. -/
def hit (c requestId d : ℕ) (message : ToSession Output) : ℕ :=
  if d = c ∧ message.answersTo requestId then 1 else 0

/-- Whether a session waits for this request's answer, under this id. -/
def Pending.asks (c requestId : ℕ) (item : Pending Payload) : Bool :=
  item.awaited ∧ item.connection = c ∧ item.waiting.requestId = requestId

def ResetEvent.named (c requestId : ℕ) (event : ResetEvent) : Bool :=
  event.connection = c ∧ event.requestId = requestId

def Job.owes (c requestId : ℕ) : Job Output → Bool
  | .answer d message => d = c ∧ message.answersTo requestId
  | .postTo d message => d = c ∧ message.answersTo requestId
  | _ => false

def Event.resets (c requestId : ℕ) : Event → Bool
  | .reset event => event.named c requestId
  | _ => false

def Job.resets (c requestId : ℕ) : Job Output → Bool
  | .apply event => event.resets c requestId
  | .refuse event => event.resets c requestId
  | _ => false

def Frame.owes (c requestId : ℕ) : Frame Payload Output → ℕ
  | .answer d message => hit c requestId d message
  | .resetAnswers event dropped => if event.connection = c then dropped.count requestId else 0
  | _ => 0

def Frame.resets (c requestId : ℕ) : Frame Payload Output → Bool
  | .resetDrop event => event.named c requestId
  | .resetAnswers event _ => event.named c requestId
  | .resetHook event => event.named c requestId
  | .resetReject event _ => event.named c requestId
  | _ => false

/-- How many answers to the request the thread that calls into the model has to post. -/
def Worker.owed (worker : Worker Payload Output) (c requestId : ℕ) : ℕ :=
  worker.jobs.countP (Job.owes c requestId) + worker.frame.owes c requestId

/-- How many of its jobs are about the reset, the one it is in included. -/
def Worker.resets (worker : Worker Payload Output) (c requestId : ℕ) : ℕ :=
  worker.jobs.countP (Job.resets c requestId) + (worker.frame.resets c requestId).toNat

namespace View

/-- How many answers to the step are still to be posted. -/
def owed (v : View Payload Output) (c requestId : ℕ) : ℕ :=
  v.core.policy.waiting.countP (BatchPolicy.named c requestId) +
    v.window.countP (BatchPolicy.named c requestId) +
    v.core.pending.countP (Pending.asks c requestId) + v.worker.owed c requestId

/-- How many answers to the reset, and refusals of the reader, are still to be posted. -/
def owedElse (v : View Payload Output) (c requestId : ℕ) : ℕ :=
  v.core.events.countP (Event.resets c requestId) + v.worker.resets c requestId +
    (v.core.conns c).replies.countP (ToSession.answersTo requestId)

end View

/-- How many answers to the request entered the outbox. -/
def Connection.answered (k : Connection Payload Output) (requestId : ℕ) : ℕ :=
  k.history.posted.countP fun posted => posted.message.answersTo requestId

/-! ### One connection -/

namespace Connection

/-- What an operation keeps that neither posts, receives nor records anything of a request. -/
structure Kept (k k' : Connection Payload Output) : Prop where
  answered : ∀ requestId, k'.answered requestId = k.answered requestId
  received : k'.history.received = k.history.received
  accepted : k'.history.accepted = k.history.accepted
  withdrawn : k'.history.withdrawn = k.history.withdrawn
  overflowed : k'.history.overflowed = k.history.overflowed
  replies : k'.replies = k.replies

theorem Kept.of_history {k k' : Connection Payload Output} (hhistory : k'.history = k.history)
    (hreplies : k'.replies = k.replies) : Kept k k' := by
  refine ⟨fun requestId => ?_, ?_, ?_, ?_, ?_, hreplies⟩
  · rw [Connection.answered, hhistory]
    rfl
  all_goals rw [hhistory]

theorem Kept.refl (k : Connection Payload Output) : Kept k k := .of_history rfl rfl

theorem Kept.trans {k k' k'' : Connection Payload Output} (h : Kept k k') (h' : Kept k' k'') :
    Kept k k'' where
  answered requestId := (h'.answered requestId).trans (h.answered requestId)
  received := h'.received.trans h.received
  accepted := h'.accepted.trans h.accepted
  withdrawn := h'.withdrawn.trans h.withdrawn
  overflowed := h'.overflowed.trans h.overflowed
  replies := h'.replies.trans h.replies

theorem Kept.close (k : Connection Payload Output) : Kept k k.close :=
  .of_history k.history_close k.replies_close

variable (k : Connection Payload Output) (message : ToSession Output)
  (producer : Option (ServerRequest Payload)) (requestId : ℕ)

theorem answered_enqueue : (k.enqueue message producer).answered requestId =
    k.answered requestId + (message.answersTo requestId).toNat := by
  rw [answered, answered, enqueue, List.countP_append, List.countP_singleton]
  cases message.answersTo requestId <;> rfl

theorem Kept.offer (hnone : ∀ requestId, message.answersTo requestId = false) :
    Kept k (k.offer message) := by
  rw [offer_eq]
  split_ifs
  · exact .refl k
  · refine ⟨fun requestId => ?_, rfl, rfl, rfl, rfl, rfl⟩
    rw [answered_enqueue]
    simp [hnone]

theorem answered_answer_le : k.answered requestId ≤ (k.answer message producer).answered requestId ∧
    (k.answer message producer).answered requestId ≤
      k.answered requestId + (message.answersTo requestId).toNat := by
  rw [answer_eq]
  split_ifs
  · exact ⟨le_rfl, Nat.le_add_right _ _⟩
  · exact ⟨le_rfl, Nat.le_add_right _ _⟩
  · rw [answered_enqueue]
    exact ⟨Nat.le_add_right _ _, le_rfl⟩

/-- An answer on an open connection is posted, or finds the outbox full. -/
theorem answered_answer (hstate : k.state ≠ .closed)
    (hroom : ¬ (k.answer message producer).history.overflowed) :
    (k.answer message producer).answered requestId =
      k.answered requestId + (message.answersTo requestId).toNat := by
  rw [answer_eq, if_neg hstate] at hroom ⊢
  split_ifs at hroom ⊢
  · exact absurd rfl hroom
  · exact k.answered_enqueue message producer requestId

theorem overflowed_answer (h : k.history.overflowed) :
    (k.answer message producer).history.overflowed := by
  rw [answer_eq]
  split_ifs
  · exact h
  · rfl
  · exact h

end Connection

/-! ### The accounts of a step -/

structure Accounts (v v' : View Payload Output) (c requestId : ℕ) : Prop where
  upper : v'.owed c requestId + v'.owedElse c requestId + (v'.core.conns c).answered requestId +
      (v.core.conns c).history.received.count requestId ≤
    v.owed c requestId + v.owedElse c requestId + (v.core.conns c).answered requestId +
      (v'.core.conns c).history.received.count requestId
  lower : (v.core.conns c).state = .opened → (v'.core.conns c).state = .opened →
    ¬ (v'.core.conns c).history.overflowed →
    v.owed c requestId + (v.core.conns c).answered requestId +
        (v.core.conns c).history.withdrawn.count requestId +
        (v'.core.conns c).history.accepted.count requestId ≤
      v'.owed c requestId + (v'.core.conns c).answered requestId +
        (v'.core.conns c).history.withdrawn.count requestId +
        (v.core.conns c).history.accepted.count requestId
  overflowed : (v.core.conns c).history.overflowed → (v'.core.conns c).history.overflowed
  accepted : (v.core.conns c).state ≠ .opened →
    (v'.core.conns c).history.accepted = (v.core.conns c).history.accepted

namespace Accounts

variable {v v' v'' : View Payload Output} {c requestId : ℕ}

theorem trans (h : Accounts v v' c requestId) (h' : Accounts v' v'' c requestId)
    (hstate : (v'.core.conns c).state = (v.core.conns c).state) : Accounts v v'' c requestId where
  upper := by
    have := h.upper
    have := h'.upper
    omega
  lower hopen hopen' hroom := by
    have := h.lower hopen (hstate.trans hopen) fun hfull => hroom (h'.overflowed hfull)
    have := h'.lower (hstate.trans hopen) hopen' hroom
    omega
  overflowed hfull := h'.overflowed (h.overflowed hfull)
  accepted hne := (h'.accepted (hstate ▸ hne)).trans (h.accepted hne)

/-- A step that posts nothing. -/
theorem of_kept (hkept : (v.core.conns c).Kept (v'.core.conns c))
    (hupper : v'.owed c requestId + v'.owedElse c requestId ≤
      v.owed c requestId + v.owedElse c requestId)
    (hlower : (v.core.conns c).state = .opened → (v'.core.conns c).state = .opened →
      v.owed c requestId ≤ v'.owed c requestId) : Accounts v v' c requestId where
  upper := by
    rw [hkept.answered, hkept.received]
    omega
  lower hopen hopen' _ := by
    have := hlower hopen hopen'
    rw [hkept.answered, hkept.withdrawn, hkept.accepted]
    omega
  overflowed hfull := hkept.overflowed ▸ hfull
  accepted _ := hkept.accepted

theorem of_answer {d : ℕ} {message : ToSession Output} {producer : Option (ServerRequest Payload)}
    (hconns : v'.core.conns = (v.core.answer d message producer).conns)
    (hupper : v'.owed c requestId + v'.owedElse c requestId + hit c requestId d message ≤
      v.owed c requestId + v.owedElse c requestId)
    (hlower : v.owed c requestId ≤ v'.owed c requestId + hit c requestId d message) :
    Accounts v v' c requestId := by
  have hc : v'.core.conns c =
      if c = d then (v.core.conns d).answer message producer else v.core.conns c := by
    rw [hconns, Core.answer, Core.conns_modify]
  by_cases hcd : c = d
  · subst hcd
    rw [if_pos rfl] at hc
    have hhit : hit c requestId c message = (message.answersTo requestId).toNat := by
      cases h : message.answersTo requestId <;> simp [hit, h]
    obtain ⟨hle, hle'⟩ := (v.core.conns c).answered_answer_le message producer requestId
    refine ⟨?_, fun hopen hopen' hroom => ?_, fun hfull => ?_, fun _ => ?_⟩
    · rw [hc, Connection.received_answer]
      omega
    · rw [hc] at hroom
      rw [hc, Connection.withdrawn_answer, Connection.accepted_answer,
        (v.core.conns c).answered_answer message producer requestId (by simp [hopen]) hroom]
      omega
    · rw [hc]
      exact Connection.overflowed_answer _ _ _ hfull
    · rw [hc, Connection.accepted_answer]
  · rw [if_neg hcd] at hc
    have hhit : hit c requestId d message = 0 := by
      rw [hit, if_neg fun h => hcd h.1.symm]
    exact .of_kept (hc ▸ .refl _) (by omega) fun _ _ => by omega

end Accounts

/-! ### The other threads -/

def Core.Kept (core core' : Core Payload Output) : Prop :=
  ∀ c, (core.conns c).Kept (core'.conns c)

namespace Core

variable {core core' : Core Payload Output}

theorem Kept.modify {d : ℕ} {k : Connection Payload Output}
    (h : core'.conns = Function.update core.conns d k) (hk : (core.conns d).Kept k) :
    core.Kept core' := fun c => by
  rw [h, Function.update_apply]
  split_ifs with hc
  · rw [hc]
    exact hk
  · exact .refl _

theorem Kept.of_eq (h : core'.conns = core.conns) : core.Kept core' := fun _ => h ▸ .refl _

theorem Kept.trans {core'' : Core Payload Output} (h : core.Kept core') (h' : core'.Kept core'') :
    core.Kept core'' := fun c => (h c).trans (h' c)

theorem kept_close (d : ℕ) : core.Kept (core.close d) := .modify rfl (.close _)

theorem kept_setState (d : ℕ) (state : ConnectionState) : core.Kept (core.setState d state) :=
  .modify rfl (.of_history rfl rfl)

theorem kept_hangUp (d : ℕ) : core.Kept (core.hangUp d) := .modify rfl (.of_history rfl rfl)

theorem kept_accept (cfg : Config) : core.Kept (core.accept cfg) := by
  unfold accept
  dsimp only
  split_ifs
  · exact .modify rfl (.of_history rfl rfl)
  · exact .modify rfl (.close _)

theorem kept_hello (cfg : Config) (d : ℕ) (hello : Hello) : core.Kept (core.hello cfg d hello) := by
  have refuse (reason : String) : core.Kept (core.modify d fun k =>
      { k.offer (.refused reason) with reader := .leaving }) :=
    .modify rfl ((Connection.Kept.offer _ (.refused reason) fun _ => rfl).trans (.of_history rfl rfl))
  unfold Core.hello
  dsimp only
  split
  · exact refuse _
  · split_ifs
    · split
      · next opening hmove =>
        obtain ⟨-, rfl⟩ := Connection.move_eq_some.mp hmove
        exact .modify rfl (.of_history rfl rfl)
      · exact .modify rfl (.of_history rfl rfl)
    · exact .modify rfl (.of_history (Connection.history_close _) (Connection.replies_close _))
    · exact refuse _

theorem kept_helloExpired (d : ℕ) : core.Kept (core.helloExpired d) := by
  unfold helloExpired
  split_ifs
  · exact .modify rfl (.of_history rfl rfl)
  · exact .of_eq rfl

theorem resets_accept (cfg : Config) : (core.accept cfg).events = core.events := by
  unfold accept
  dsimp only
  split_ifs <;> rfl

theorem resets_hello (cfg : Config) (d : ℕ) (hello : Hello) (c requestId : ℕ) :
    (core.hello cfg d hello).events.countP (Event.resets c requestId) =
      core.events.countP (Event.resets c requestId) := by
  unfold Core.hello
  dsimp only
  split
  · rfl
  · split_ifs
    · split
      · simp [queue, modify, Event.resets]
      · rfl
    · rfl
    · rfl

theorem resets_helloExpired (d : ℕ) : (core.helloExpired d).events = core.events := by
  unfold helloExpired
  split_ifs <;> rfl

end Core

theorem countP_concat {α : Type*} (p : α → Bool) (l : List α) (a : α) :
    (l ++ [a]).countP p = l.countP p + (p a).toNat := by
  rw [List.countP_append, List.countP_singleton]
  cases p a <;> rfl

theorem count_concat (l : List ℕ) (a b : ℕ) :
    (l ++ [a]).count b = l.count b + (decide (a = b)).toNat :=
  countP_concat (· == b) l a

theorem answersTo_failure (requestId requestId' : ℕ) (exc : Fault) :
    (failure requestId' exc : ToSession Output).answersTo requestId =
      decide (requestId' = requestId) := rfl

theorem answersTo_answer (requestId requestId' : ℕ) (outcome : Outcome Output) :
    (outcome.answer requestId').answersTo requestId = decide (requestId' = requestId) := by
  cases outcome <;> rfl

/-- Marking requests as answered takes their tokens away. -/
theorem countP_answerIf (l : List (Pending Payload)) (p : Pending Payload → Bool)
    (c requestId : ℕ) : (l.map (Pending.answerIf p)).countP (Pending.asks c requestId) +
      l.countP (fun item => item.asks c requestId && p item) =
        l.countP (Pending.asks c requestId) := by
  induction l with
  | nil => rfl
  | cons item l ih =>
    simp only [List.map_cons, List.countP_cons]
    have hitem : ((item.answerIf p).asks c requestId).toNat +
        (item.asks c requestId && p item).toNat = (item.asks c requestId).toNat := by
      cases hp : p item <;> simp [Pending.answerIf, hp, Pending.asks, Pending.awaited]
    simp only [Bool.toNat, cond_eq_ite] at hitem
    omega

section

variable {cfg : Config} {core : Core Payload Output} {worker : Worker Payload Output}
  {window : List (Waiting Payload)} {items : List (Pending Payload)}

/-- A step of another thread that is about no request. -/
theorem Accounts.of_heard {core' : Core Payload Output} {c requestId : ℕ}
    (hkept : (core.conns c).Kept (core'.conns c)) (hdesk : core'.desk [] [] = core.desk [] [])
    (hevents : core'.events.countP (Event.resets c requestId) =
      core.events.countP (Event.resets c requestId)) :
    Accounts ⟨core, worker, window, items⟩ ⟨core', worker, window, items⟩ c requestId := by
  simp only [Core.desk, Desk.mk.injEq] at hdesk
  obtain ⟨hpolicy, -, hpending, -, -⟩ := hdesk
  refine .of_kept hkept (Nat.le_of_eq ?_) fun _ _ => Nat.le_of_eq ?_
  · simp only [View.owed, View.owedElse, hpolicy, hpending, hevents, hkept.replies]
  · simp only [View.owed, hpolicy, hpending]

theorem Accounts.of_update {core' : Core Payload Output} {c d requestId : ℕ}
    {k : Connection Payload Output} (hconns : core'.conns = Function.update core.conns d k)
    (hupper : c = d →
      core'.policy.waiting.countP (BatchPolicy.named c requestId) +
          core'.pending.countP (Pending.asks c requestId) +
          core'.events.countP (Event.resets c requestId) +
          k.replies.countP (ToSession.answersTo requestId) + k.answered requestId +
          (core.conns c).history.received.count requestId ≤
        core.policy.waiting.countP (BatchPolicy.named c requestId) +
          core.pending.countP (Pending.asks c requestId) +
          core.events.countP (Event.resets c requestId) +
          (core.conns c).replies.countP (ToSession.answersTo requestId) +
          (core.conns c).answered requestId + k.history.received.count requestId)
    (hlower : c = d →
      core.policy.waiting.countP (BatchPolicy.named c requestId) +
          core.pending.countP (Pending.asks c requestId) + (core.conns c).answered requestId +
          (core.conns c).history.withdrawn.count requestId +
          k.history.accepted.count requestId ≤
        core'.policy.waiting.countP (BatchPolicy.named c requestId) +
          core'.pending.countP (Pending.asks c requestId) + k.answered requestId +
          k.history.withdrawn.count requestId + (core.conns c).history.accepted.count requestId)
    (hfull : (core.conns d).history.overflowed → k.history.overflowed)
    (haccepted : (core.conns d).state ≠ .opened →
      k.history.accepted = (core.conns d).history.accepted)
    (hother : c ≠ d →
      core'.policy.waiting.countP (BatchPolicy.named c requestId) =
          core.policy.waiting.countP (BatchPolicy.named c requestId) ∧
        core'.pending.countP (Pending.asks c requestId) =
          core.pending.countP (Pending.asks c requestId) ∧
        core'.events.countP (Event.resets c requestId) =
          core.events.countP (Event.resets c requestId)) :
    Accounts ⟨core, worker, window, items⟩ ⟨core', worker, window, items⟩ c requestId := by
  by_cases hcd : c = d
  · have hc : core'.conns c = k := by rw [hconns, hcd, Function.update_self]
    have hupper := hupper hcd
    have hlower := hlower hcd
    refine ⟨?_, fun _ _ _ => ?_, fun h => ?_, fun h => ?_⟩
    · simp only [View.owed, View.owedElse, hc]
      omega
    · simp only [View.owed, hc]
      omega
    · simp only [hc]
      exact hfull (hcd ▸ h)
    · simp only [hc]
      subst hcd
      exact haccepted h
  · have hc : core'.conns c = core.conns c := by rw [hconns, Function.update_of_ne hcd]
    obtain ⟨hwaiting, hpending, hevents⟩ := hother hcd
    refine .of_kept (hc ▸ .refl _) (Nat.le_of_eq ?_) fun _ _ => Nat.le_of_eq ?_
    · simp only [View.owed, View.owedElse, hwaiting, hpending, hevents, hc]
    · simp only [View.owed, hwaiting, hpending]

theorem Accounts.take (d : ℕ) (step : Step Payload) (c requestId : ℕ) :
    Accounts ⟨core, worker, window, items⟩ ⟨core.take d step, worker, window, items⟩ c requestId := by
  unfold Core.take
  split
  · next refusal _ =>
    refine .of_update rfl (fun hcd => ?_) (fun hcd => ?_) id (fun _ => rfl) fun _ => ⟨rfl, rfl, rfl⟩
    · subst hcd
      simp only [Core.modify, Connection.answered, count_concat, countP_concat, answersTo_failure]
      omega
    · subst hcd
      exact le_rfl
  · next policy hadmit =>
    unfold Core.admitStep at hadmit
    split_ifs at hadmit with hserving hstate hreset
    split at hadmit
    · cases hadmit
    · next policy' hadd =>
      obtain rfl := Except.ok.inj hadmit
      obtain ⟨-, rfl⟩ := BatchPolicy.add_eq_some.mp hadd
      have hnamed (e : ℕ) : (BatchPolicy.named e requestId (core.waitingFor d step)).toNat =
          if d = e then (decide (step.requestId = requestId)).toNat else 0 := by
        by_cases h : d = e <;> simp [BatchPolicy.named, Core.waitingFor, h]
      refine .of_update rfl (fun hcd => ?_) (fun hcd => ?_) id (fun hne => absurd hne hstate)
        fun hcd => ⟨?_, rfl, rfl⟩
      · subst hcd
        simp only [Core.modify, Connection.answered, count_concat, countP_concat, hnamed, if_true]
        omega
      · subst hcd
        simp only [Core.modify, Connection.answered, count_concat, countP_concat, hnamed, if_true]
        omega
      · dsimp only
        rw [countP_concat, hnamed, if_neg (Ne.symm hcd), Nat.add_zero]

theorem Accounts.takeReset (event : ResetEvent) (c requestId : ℕ) :
    Accounts ⟨core, worker, window, items⟩ ⟨core.takeReset event, worker, window, items⟩ c
      requestId := by
  unfold Core.takeReset
  dsimp only
  split_ifs
  · have hresets (e : ℕ) : (Event.resets e requestId (.reset event)).toNat =
        if event.connection = e then (decide (event.requestId = requestId)).toNat else 0 := by
      by_cases h : event.connection = e <;> simp [Event.resets, ResetEvent.named, h]
    refine .of_update rfl (fun hcd => ?_) (fun hcd => ?_) id (fun _ => rfl) fun hcd => ⟨rfl, rfl, ?_⟩
    · subst hcd
      simp only [Core.modify, Core.queue, Connection.answered, count_concat, countP_concat, hresets,
        if_true]
      omega
    · subst hcd
      exact le_rfl
    · simp only [Core.modify, Core.queue]
      rw [countP_concat, hresets, if_neg (Ne.symm hcd), Nat.add_zero]
  · refine .of_update rfl (fun hcd => ?_) (fun hcd => ?_) id (fun _ => rfl) fun _ => ⟨rfl, rfl, rfl⟩
    · subst hcd
      simp only [Core.modify, Connection.answered, count_concat, countP_concat, answersTo_failure]
      omega
    · subst hcd
      exact le_rfl

theorem Accounts.cancelRequest (d cancelled c requestId : ℕ) :
    Accounts ⟨core, worker, window, items⟩ ⟨core.cancelRequest d cancelled, worker, window, items⟩ c
      requestId := by
  unfold Core.cancelRequest
  split
  · next policy hcancel =>
    obtain ⟨before, request, after, hwaiting, hrequest, hid, rfl⟩ :=
      BatchPolicy.cancel_eq_some hcancel
    have hnamed (e : ℕ) : (BatchPolicy.named e requestId request).toNat =
        if d = e then (decide (cancelled = requestId)).toNat else 0 := by
      by_cases h : d = e <;> simp [BatchPolicy.named, hrequest, hid, h]
    have hcount (e : ℕ) : core.policy.waiting.countP (BatchPolicy.named e requestId) =
        (before ++ after).countP (BatchPolicy.named e requestId) +
          (BatchPolicy.named e requestId request).toNat := by
      rw [hwaiting, List.countP_append, List.countP_cons, List.countP_append]
      cases BatchPolicy.named e requestId request <;> simp [Nat.add_assoc]
    refine .of_update rfl (fun hcd => ?_) (fun hcd => ?_) id (fun _ => rfl) fun hcd => ⟨?_, rfl, rfl⟩
    · subst hcd
      simp only [Core.withdraw, Core.modify, Connection.answered, hcount]
      omega
    · subst hcd
      simp only [Core.withdraw, Core.modify, Connection.answered, hcount, hnamed, count_concat,
        if_true]
      omega
    · rw [hcount, hnamed, if_neg (Ne.symm hcd), Nat.add_zero]
  · have hmarked := countP_answerIf core.pending (Core.cancels d cancelled) c requestId
    refine .of_update rfl (fun hcd => ?_) (fun hcd => ?_) id (fun _ => rfl) fun hcd => ⟨rfl, ?_, rfl⟩
    · subst hcd
      simp only [Core.withdraw, Core.modify, Connection.answered]
      omega
    · subst hcd
      have hids : ((core.pending.filter (Core.cancels c cancelled)).map
          fun item => item.waiting.requestId).count requestId =
            core.pending.countP fun item => item.asks c requestId && Core.cancels c cancelled item := by
        rw [List.count, List.countP_map, List.countP_filter]
        refine List.countP_congr fun item _ => ?_
        simp only [Pending.asks, Core.cancels, Function.comp_apply, beq_iff_eq, Bool.and_eq_true,
          decide_eq_true_eq]
        tauto
      simp only [Core.withdraw, Core.modify, Connection.answered, List.count_append, hids]
      omega
    · have hnone : core.pending.countP (fun item => item.asks c requestId &&
          Core.cancels d cancelled item) = 0 := by
        refine List.countP_eq_zero.mpr fun item _ => ?_
        simp only [Pending.asks, Core.cancels, Bool.and_eq_true, decide_eq_true_eq]
        rintro ⟨⟨-, hitem, -⟩, hitem', -⟩
        exact hcd (hitem.symm.trans hitem')
      dsimp only
      omega

/-- The reader posts a refusal. -/
theorem Accounts.reply {d : ℕ} {message : ToSession Output} {replies : List (ToSession Output)}
    (holds : (core.conns d).replies = message :: replies) (c requestId : ℕ) :
    Accounts ⟨core, worker, window, items⟩
      ⟨(core.modify d fun k => { k with replies }).answer d message, worker, window, items⟩ c
      requestId := by
  rw [Core.answer_modify]
  have hanswered :=
    Connection.answered_answer_le { core.conns d with replies } message none requestId
  refine .of_update rfl (fun hcd => ?_) (fun hcd => ?_)
    (Connection.overflowed_answer { core.conns d with replies } message none)
    (fun _ => Connection.accepted_answer { core.conns d with replies } message none)
    fun _ => ⟨rfl, rfl, rfl⟩
  · subst hcd
    have hreplies : (core.conns c).replies.countP (ToSession.answersTo requestId) =
        replies.countP (ToSession.answersTo requestId) + (message.answersTo requestId).toNat := by
      rw [holds, List.countP_cons]
      cases message.answersTo requestId <;> rfl
    simp only [Core.modify, Connection.received_answer, Connection.replies_answer, hreplies]
    simp only [Connection.answered] at hanswered ⊢
    omega
  · subst hcd
    simp only [Core.modify, Connection.withdrawn_answer, Connection.accepted_answer]
    simp only [Connection.answered] at hanswered ⊢
    omega

/-! ### Finishing requests -/

theorem hit_answer (c requestId : ℕ) {item : Pending Payload} (hawaited : item.awaited)
    (output : Outcome Output) :
    hit c requestId item.connection (output.answer item.waiting.requestId) =
      (item.asks c requestId).toNat := by
  simp only [hit, answersTo_answer, Pending.asks, hawaited, true_and, decide_eq_true_eq]
  split_ifs with h <;> simp [h]

theorem Accounts.complete (h : Desk.Busy core.sessions (core.desk window items))
    {item : Pending Payload}
    (hitem : item ∈ core.pending) (output : Outcome Output) (c requestId : ℕ) :
    Accounts ⟨core, worker, window, items⟩ ⟨core.complete item output, worker, window, items⟩ c
      requestId := by
  have hpending : core.pending.countP (Pending.asks c requestId) =
      (core.complete item output).pending.countP (Pending.asks c requestId) +
        (item.asks c requestId).toNat := by
    have hnodup : (core.pending.map Pending.ticket).Nodup := h.nodup
    rw [Core.complete_eq, Lists.countP_filter_key_ne hnodup hitem]
    cases item.asks c requestId <;> rfl
  have hwaiting : (core.complete item output).policy.waiting = core.policy.waiting := by
    rw [Core.complete_eq]
    dsimp only
    split_ifs <;> rfl
  have hevents : (core.complete item output).events = core.events := by
    rw [Core.complete_eq]
    split_ifs <;> rfl
  have hconns := core.conns_complete item output
  by_cases ha : core.answers item
  · rw [if_pos ha] at hconns
    have hreplies : ((core.complete item output).conns c).replies = (core.conns c).replies := by
      rw [hconns, Core.answer, Core.conns_modify]
      split_ifs with hc
      · rw [Connection.replies_answer, hc]
      · rfl
    have hhit := hit_answer c requestId ha.1 output
    refine .of_answer hconns ?_ ?_
    · simp only [View.owed, View.owedElse, hwaiting, hevents, hreplies]
      omega
    · simp only [View.owed, hwaiting]
      omega
  · rw [if_neg ha] at hconns
    refine .of_kept (hconns ▸ .refl _) ?_ fun hopen _ => ?_
    · simp only [View.owed, View.owedElse, hwaiting, hevents, hconns]
      omega
    · -- an open session is held for every request it waits for
      have hasks : item.asks c requestId = false := by
        refine Bool.eq_false_iff.mpr fun hasks => ha ?_
        obtain ⟨hawaited, rfl, -⟩ := of_decide_eq_true hasks
        have hdetached : ¬ item.detached := by
          simp only [Pending.awaited, Bool.and_eq_true, Bool.not_eq_eq_eq_not, Bool.not_true]
            at hawaited
          simp [hawaited.2]
        exact ⟨hawaited, hopen, (h.current item hitem hdetached).1.symm,
          h.pending_registered hitem hdetached⟩
      simp only [View.owed, hwaiting, hpending, hasks]
      exact le_rfl

theorem Accounts.completeTicket (h : Desk.Busy core.sessions (core.desk window items)) (ticket : ℕ) (output : Outcome Output)
    (c requestId : ℕ) :
    Accounts ⟨core, worker, window, items⟩ ⟨core.completeTicket ticket output, worker, window, items⟩
      c requestId := by
  unfold Core.completeTicket
  split
  · exact .of_kept (.refl _) le_rfl fun _ _ => le_rfl
  · next item hitem =>
    exact .complete h (Core.mem_of_pendingOf hitem) output c requestId

theorem Accounts.refl (v : View Payload Output) (c requestId : ℕ) : Accounts v v c requestId :=
  .of_kept (.refl _) le_rfl fun _ _ => le_rfl

theorem Accounts.finishOne {item : Pending Payload} {items : List (Pending Payload)}
    (h : Desk.Busy core.sessions (core.desk [] (item :: items))) (output : Core.StepOutput Output)
    (c requestId : ℕ) :
    Accounts ⟨core, worker, [], item :: items⟩
      ⟨core.finishOne item.ticket output, worker, [], item :: items⟩ c requestId := by
  cases output with
  | done outcome => exact .completeTicket h item.ticket outcome c requestId
  | future =>
    have hasks : Pending.asks c requestId ∘ Pending.awaitFor item.ticket =
        (Pending.asks c requestId : Pending Payload → Bool) := by
      funext p
      by_cases hp : p.ticket = item.ticket <;>
        simp [Pending.asks, Pending.awaitFor, Pending.awaited, hp]
    have hpending : (core.pending.map (Pending.awaitFor item.ticket)).countP
        (Pending.asks c requestId) = core.pending.countP (Pending.asks c requestId) := by
      rw [List.countP_map, hasks]
    refine .of_kept (.refl _) (Nat.le_of_eq ?_) fun _ _ => Nat.le_of_eq ?_
    · simp only [View.owed, View.owedElse, Core.finishOne, Core.awaitFuture, hpending]
    · simp only [View.owed, Core.finishOne, Core.awaitFuture, hpending]

theorem Accounts.foldl {α : Type*} {f : Core Payload Output → α → Core Payload Output}
    (I : Core Payload Output → List α → Prop) {c requestId : ℕ}
    (hf : ∀ core a as, I core (a :: as) → I (f core a) as ∧
      (f core a).sessions = core.sessions ∧
      Accounts ⟨core, worker, [], []⟩ ⟨f core a, worker, [], []⟩ c requestId) :
    ∀ (as : List α) (core : Core Payload Output), I core as →
      Accounts ⟨core, worker, [], []⟩ ⟨as.foldl f core, worker, [], []⟩ c requestId ∧
        (as.foldl f core).sessions = core.sessions
  | [], core, _ => ⟨.refl _ _ _, rfl⟩
  | a :: as, core, h => by
    obtain ⟨hI, hsessions, haccounts⟩ := hf core a as h
    obtain ⟨haccounts', hsessions'⟩ := foldl I hf as (f core a) hI
    refine ⟨haccounts.trans haccounts' ?_, hsessions'.trans hsessions⟩
    exact congrFun (congrArg Sessions.state hsessions) c

theorem Accounts.of_items {core' : Core Payload Output} {worker' : Worker Payload Output}
    {window' : List (Waiting Payload)} {items' : List (Pending Payload)} {c requestId : ℕ}
    (h : Accounts ⟨core, worker, window, items⟩ ⟨core', worker', window', items'⟩ c requestId)
    (items'' items''' : List (Pending Payload)) :
    Accounts ⟨core, worker, window, items''⟩ ⟨core', worker', window', items'''⟩ c requestId :=
  ⟨h.upper, h.lower, h.overflowed, h.accepted⟩

theorem Accounts.failBatch {items : List (Pending Payload)}
    (h : Desk.Busy core.sessions (core.desk [] items)) (exc : Fault) (c requestId : ℕ) :
    Accounts ⟨core, worker, [], items⟩ ⟨core.failBatch items exc, worker, [], []⟩ c requestId := by
  refine (Accounts.foldl (fun core items => Desk.Busy core.sessions (core.desk [] items)) ?_ items
    core h).1.of_items _ _
  intro core item items h
  exact ⟨Core.busy_completeTicket h _, core.sessions_completeTicket _ _,
    (Accounts.completeTicket h _ _ _ _).of_items [] []⟩

theorem Accounts.finishBatch {items : List (Pending Payload)}
    (h : Desk.Busy core.sessions (core.desk [] items)) (stepReturn : Core.StepReturn Output)
    (c requestId : ℕ) :
    Accounts ⟨core, worker, [], items⟩ ⟨core.finishBatch items stepReturn, worker, [], []⟩ c
      requestId := by
  cases stepReturn with
  | raised exc => exact .failBatch h _ c requestId
  | notSequence typeName => exact .failBatch h _ c requestId
  | outputs outputs =>
    unfold Core.finishBatch
    dsimp only
    split_ifs with hlength
    · have hitems : (items.zip outputs).map Prod.fst = items := List.map_fst_zip hlength.ge
      refine (Accounts.foldl
        (fun core pairs => Desk.Busy core.sessions (core.desk [] (pairs.map Prod.fst))) ?_
        (items.zip outputs) core (by rwa [hitems])).1.of_items _ _
      intro core p pairs h
      exact ⟨Core.busy_finishOne h p.2, core.sessions_finishOne p.1.ticket p.2,
        (Accounts.finishOne h p.2 c requestId).of_items [] []⟩
    · exact .failBatch h _ c requestId

end

/-- A step of another thread. -/
theorem Heard.accounts {cfg : Config} {core core' : Core Payload Output} (h : Heard cfg core core')
    (worker : Worker Payload Output) {window : List (Waiting Payload)}
    {items : List (Pending Payload)} (hbusy : Desk.Busy core.sessions (core.desk window items))
    (c requestId : ℕ) :
    Accounts ⟨core, worker, window, items⟩ ⟨core', worker, window, items⟩ c requestId := by
  cases h with
  | accept =>
    exact .of_heard (Core.kept_accept cfg c) (core.desk_accept cfg) (by rw [Core.resets_accept])
  | hello d hello greets =>
    exact .of_heard (Core.kept_hello cfg d hello c) (Core.desk_hello cfg d hello)
      (Core.resets_hello cfg d hello c requestId)
  | helloExpired d =>
    exact .of_heard (Core.kept_helloExpired d c) (core.desk_helloExpired d)
      (by rw [Core.resets_helloExpired])
  | take d step reads free => exact .take d step c requestId
  | cancel d cancelled => exact .cancelRequest d cancelled c requestId
  | reset event => exact .takeReset event c requestId
  | reply d message replies holds => exact .reply holds c requestId
  | hangUp d hung =>
    refine .of_heard (core.kept_hangUp d c) rfl ?_
    simp [Core.hangUp, Core.queue, Core.modify, Event.resets]
  | write d outcome k writes =>
    obtain ⟨_, _, _, _, _, -, -, hk⟩ := Connection.write_eq_some writes
    have hkept : core.Kept (core.modify d fun _ => k) :=
      .modify rfl (.of_history (by rw [hk]) (by rw [hk]))
    exact .of_heard (hkept c) rfl rfl
  | resolve ticket futureEnd done => exact .completeTicket hbusy ticket _ c requestId
  | _ => exact .of_heard (.refl _) rfl rfl

/-! ### The thread that calls into the model -/

section

variable {cfg : Config} {core core' : Core Payload Output} {worker worker' : Worker Payload Output}
  {window : List (Waiting Payload)} {c requestId : ℕ}

/-- A step that posts nothing, of the thread that calls into the model. -/
theorem Accounts.of_worker (hkept : core.Kept core') (hdesk : core'.desk [] [] = core.desk [] [])
    (hevents : core'.events = core.events)
    (hupper : worker'.owed c requestId + worker'.resets c requestId ≤
      worker.owed c requestId + worker.resets c requestId)
    (hlower : (core.conns c).state = .opened → worker.owed c requestId ≤ worker'.owed c requestId) :
    Accounts ⟨core, worker, window, []⟩ ⟨core', worker', window, []⟩ c requestId := by
  simp only [Core.desk, Desk.mk.injEq] at hdesk
  obtain ⟨hpolicy, -, hpending, -, -⟩ := hdesk
  refine .of_kept (hkept c) ?_ fun hopen _ => ?_
  · simp only [View.owed, View.owedElse, hpolicy, hpending, hevents, (hkept c).replies]
    omega
  · have := hlower hopen
    simp only [View.owed, hpolicy, hpending]
    omega

/-- A post of the thread that calls into the model. -/
theorem Accounts.of_post {d : ℕ} {message : ToSession Output}
    (hupper : worker'.owed c requestId + worker'.resets c requestId + hit c requestId d message ≤
      worker.owed c requestId + worker.resets c requestId)
    (hlower : worker.owed c requestId ≤ worker'.owed c requestId + hit c requestId d message) :
    Accounts ⟨core, worker, window, []⟩ ⟨core.answer d message, worker', window, []⟩ c requestId := by
  have hreplies : ((core.answer d message).conns c).replies = (core.conns c).replies := by
    rw [Core.answer, Core.conns_modify]
    split_ifs with hc
    · rw [Connection.replies_answer, hc]
    · rfl
  refine .of_answer rfl ?_ ?_
  · simp only [View.owed, View.owedElse, hreplies]
    simp only [Core.answer, Core.modify]
    omega
  · simp only [View.owed]
    simp only [Core.answer, Core.modify]
    omega

theorem Worker.owed_cons (frame : Frame Payload Output) (job : Job Output) (jobs : List (Job Output)) :
    Worker.owed ⟨frame, job :: jobs⟩ c requestId =
      Worker.owed ⟨frame, jobs⟩ c requestId + (job.owes c requestId).toNat := by
  simp only [Worker.owed, List.countP_cons]
  cases job.owes c requestId <;> simp only [Bool.toNat, cond_true, cond_false] <;> grind

theorem Worker.resets_cons (frame : Frame Payload Output) (job : Job Output)
    (jobs : List (Job Output)) :
    Worker.resets ⟨frame, job :: jobs⟩ c requestId =
      Worker.resets ⟨frame, jobs⟩ c requestId + (job.resets c requestId).toNat := by
  simp only [Worker.resets, List.countP_cons]
  cases job.resets c requestId <;> simp only [Bool.toNat, cond_true, cond_false] <;> grind

theorem hit_eq (c requestId d : ℕ) (message : ToSession Output) :
    hit c requestId d message = (decide (d = c ∧ message.answersTo requestId)).toNat := by
  rw [hit]
  split_ifs with h <;> simp [h]

theorem hit_failure (c requestId : ℕ) (event : ResetEvent) (exc : Fault) :
    hit c requestId event.connection (failure event.requestId exc : ToSession Output) =
      (event.named c requestId).toNat := by
  simp [hit_eq, answersTo_failure, ResetEvent.named]

theorem Core.Starts.accounts {job : Job Output} {frame : Frame Payload Output}
    {jobs : List (Job Output)} (h : core.Starts job core' frame)
    (hopen : ∀ d, (core.conns d).state = .opened → d ∈ core.connections) :
    Accounts ⟨core, ⟨.idle, job :: jobs⟩, window, []⟩ ⟨core', ⟨frame, jobs⟩, window, []⟩ c
      requestId := by
  cases h with
  | answer d message =>
    refine .of_post ?_ ?_
    · rw [Worker.owed_cons, Worker.resets_cons, hit_eq]
      simp only [Job.owes, Job.resets, Bool.toNat_false]
      omega
    · rw [Worker.owed_cons, hit_eq]
      exact le_rfl
  | postTo d message registered =>
    refine .of_post ?_ ?_
    · rw [Worker.owed_cons, Worker.resets_cons, hit_eq]
      simp only [Job.owes, Job.resets, Bool.toNat_false]
      omega
    · rw [Worker.owed_cons, hit_eq]
      exact le_rfl
  | postToNobody d message gone =>
    refine .of_worker (.of_eq rfl) rfl rfl ?_ fun hc => ?_
    · rw [Worker.owed_cons, Worker.resets_cons]
      omega
    · have hdc : d ≠ c := fun hdc => gone (hopen d (hdc ▸ hc))
      rw [Worker.owed_cons, Job.owes]
      simp [hdc]
  | refuseReset event =>
    refine .of_worker (.of_eq rfl) rfl rfl ?_ fun _ => ?_
    · rw [Worker.owed_cons, Worker.resets_cons]
      simp only [Worker.owed, Worker.resets, Frame.owes, Frame.resets, hit_failure, Job.owes,
        Job.resets, Event.resets, Bool.toNat_false]
      omega
    · rw [Worker.owed_cons]
      simp only [Worker.owed, Frame.owes, Job.owes, Bool.toNat_false]
      omega
  | closeOpening d unopened =>
    refine .of_worker ((Core.kept_setState d _).trans (Core.kept_close d)) rfl rfl ?_ fun _ => ?_
    · rw [Worker.owed_cons, Worker.resets_cons]
      omega
    · rw [Worker.owed_cons]
      simp [Job.owes]
  | reset event opened =>
    refine .of_worker (.of_eq rfl) rfl rfl ?_ fun _ => ?_
    · rw [Worker.owed_cons, Worker.resets_cons]
      simp only [Worker.owed, Worker.resets, Frame.owes, Frame.resets, Job.resets, Event.resets,
        Bool.toNat_false]
      omega
    · rw [Worker.owed_cons]
      simp [Worker.owed, Frame.owes, Job.owes]
  | _ =>
    refine .of_worker (.of_eq rfl) rfl rfl ?_ fun _ => ?_
    · rw [Worker.owed_cons, Worker.resets_cons]
      simp only [Worker.owed, Worker.resets, Frame.owes, Frame.resets, Bool.toNat_false]
      omega
    · rw [Worker.owed_cons]
      simp [Worker.owed, Frame.owes, Job.owes]

theorem countP_detachFrom_self (l : List (Pending Payload)) (c requestId : ℕ) :
    (l.map (Pending.detachFrom c)).countP (Pending.asks c requestId) = 0 := by
  refine List.countP_eq_zero.mpr ?_
  rw [List.forall_mem_map]
  intro item _
  by_cases hc : item.connection = c <;> simp [Pending.asks, Pending.detachFrom, Pending.awaited, hc]

theorem countP_detachFrom_of_ne (l : List (Pending Payload)) {c d : ℕ} (requestId : ℕ)
    (hcd : c ≠ d) : (l.map (Pending.detachFrom d)).countP (Pending.asks c requestId) =
      l.countP (Pending.asks c requestId) := by
  rw [List.countP_map]
  refine List.countP_congr fun item _ => ?_
  simp only [Function.comp_apply, Pending.detachFrom]
  split_ifs with hd
  · simp [Pending.asks, hd, Ne.symm hcd]
  · rfl

theorem countP_drop_self (policy : BatchPolicy Payload) (c requestId : ℕ) :
    (policy.drop c).2.waiting.countP (BatchPolicy.named c requestId) = 0 := by
  refine List.countP_eq_zero.mpr fun r hr => ?_
  have := (List.mem_filter.mp hr).2
  simp_all [BatchPolicy.named]

theorem countP_drop_of_ne (policy : BatchPolicy Payload) {c d : ℕ} (requestId : ℕ) (hcd : c ≠ d) :
    (policy.drop d).2.waiting.countP (BatchPolicy.named c requestId) =
      policy.waiting.countP (BatchPolicy.named c requestId) := by
  rw [BatchPolicy.drop, List.countP_filter]
  refine List.countP_congr fun r _ => ?_
  simp only [BatchPolicy.named, Bool.and_eq_true, decide_eq_true_eq]
  refine ⟨And.left, fun h => ⟨h, ?_⟩⟩
  rw [h.1]
  exact hcd

/-- What is dropped for a session is dropped for this session alone. -/
theorem Accounts.of_drop {d : ℕ} (hkept : core.Kept core')
    (hpolicy : core'.policy = (core.policy.drop d).2)
    (hpending : core'.pending = core.pending.map (Pending.detachFrom d))
    (hevents : core'.events = core.events)
    (hupper : c = d → worker'.owed c requestId + worker'.resets c requestId ≤
      worker.owed c requestId + worker.resets c requestId +
        core.policy.waiting.countP (BatchPolicy.named c requestId) +
        core.pending.countP (Pending.asks c requestId))
    (hlower : c = d → (core.conns c).state = .opened →
      worker.owed c requestId + core.policy.waiting.countP (BatchPolicy.named c requestId) +
        core.pending.countP (Pending.asks c requestId) ≤ worker'.owed c requestId)
    (hother : c ≠ d → worker'.owed c requestId = worker.owed c requestId ∧
      worker'.resets c requestId = worker.resets c requestId) :
    Accounts ⟨core, worker, window, []⟩ ⟨core', worker', window, []⟩ c requestId := by
  by_cases hcd : c = d
  · subst hcd
    refine .of_kept (hkept c) ?_ fun hopen _ => ?_
    · have := hupper rfl
      simp only [View.owed, View.owedElse, hpolicy, hpending, hevents, (hkept c).replies,
        countP_detachFrom_self, countP_drop_self]
      omega
    · have := hlower rfl hopen
      simp only [View.owed, hpolicy, hpending, countP_detachFrom_self, countP_drop_self]
      omega
  · obtain ⟨howed, hresets⟩ := hother hcd
    refine .of_kept (hkept c) (Nat.le_of_eq ?_) fun _ _ => Nat.le_of_eq ?_
    · simp only [View.owed, View.owedElse, hpolicy, hpending, hevents, (hkept c).replies, howed,
        hresets, countP_detachFrom_of_ne _ _ hcd, countP_drop_of_ne _ _ hcd]
    · simp only [View.owed, hpolicy, hpending, howed, countP_detachFrom_of_ne _ _ hcd,
        countP_drop_of_ne _ _ hcd]

theorem count_resetDrop (h : Desk.Busy core.sessions (core.desk [] [])) (c requestId : ℕ) :
    (core.resetDrop c).1.count requestId =
      core.policy.waiting.countP (BatchPolicy.named c requestId) +
        core.pending.countP (Pending.asks c requestId) := by
  have hfuture (item : Pending Payload) (hitem : item ∈ core.pending) : item.future = true := by
    have := h.stepping item
    simp only [Core.desk, List.not_mem_nil, false_iff, not_and, Bool.not_eq_false] at this
    exact this hitem
  unfold Core.resetDrop Core.dropPending BatchPolicy.drop BatchPolicy.waitingOf
  dsimp only
  rw [List.count_append, List.count_eq_countP, List.count_eq_countP, List.countP_map,
    List.countP_map, List.countP_filter, List.countP_filter, List.countP_map, List.countP_filter]
  congr 1
  · refine List.countP_congr fun r _ => ?_
    simp [BatchPolicy.named, and_comm]
  · refine List.countP_congr fun item hitem => ?_
    simp only [Function.comp_apply, Pending.detachFrom]
    split_ifs with hc
    · simp only [Pending.asks, Pending.awaited, hfuture item hitem, Bool.and_eq_true, beq_iff_eq,
        decide_eq_true_eq, Bool.not_eq_true', Bool.not_eq_true]
      tauto
    · simp [Pending.asks, hc]

theorem Core.Advances.accounts {frame frame' : Frame Payload Output} {jobs : List (Job Output)}
    (h : core.Advances cfg frame core' frame') (hr : core.sessions.Registry frame)
    (hbusy : Desk.Busy core.sessions (core.desk [] [])) :
    Accounts ⟨core, ⟨frame, jobs⟩, [], []⟩ ⟨core', ⟨frame', jobs⟩, [], []⟩ c requestId := by
  have hafter (next : Option ℕ) : (Frame.after next : Frame Payload Output).owes c requestId = 0 ∧
      (Frame.after next : Frame Payload Output).resets c requestId = false := by
    cases next <;> exact ⟨rfl, rfl⟩
  -- a step that has nothing to do with requests
  have same {core' : Core Payload Output} {frame frame' : Frame Payload Output}
      (hkept : core.Kept core') (hdesk : core'.desk [] [] = core.desk [] [])
      (hevents : core'.events = core.events)
      (howes : frame'.owes c requestId = frame.owes c requestId)
      (hresets : frame'.resets c requestId = frame.resets c requestId) :
      Accounts ⟨core, ⟨frame, jobs⟩, [], []⟩ ⟨core', ⟨frame', jobs⟩, [], []⟩ c requestId := by
    refine .of_worker hkept hdesk hevents ?_ fun _ => ?_
    · simp only [Worker.owed, Worker.resets, howes, hresets]
      exact le_rfl
    · simp only [Worker.owed, howes]
      exact le_rfl
  have closed {core' : Core Payload Output} (d : ℕ) (state : ConnectionState)
      (hkept : core.Kept core') : core.Kept ((core'.setState d state).close d) :=
    hkept.trans ((kept_setState d state).trans (kept_close d))
  cases h with
  | answer d message =>
    refine .of_post ?_ ?_
    · simp only [Worker.owed, Worker.resets, Frame.owes, Frame.resets]
      omega
    · simp only [Worker.owed, Frame.owes]
      omega
  | leave d next => exact same (.of_eq rfl) rfl rfl rfl rfl
  | left d next left => exact same (kept_close d) rfl rfl (hafter next).1 (hafter next).2
  | leaveMove d next stays => exact same (kept_setState d _) rfl rfl rfl rfl
  | forgetOpen d next =>
    refine .of_drop (.of_eq rfl) rfl rfl rfl (fun _ => ?_) (fun hcd hopen => ?_) fun _ => ⟨rfl, rfl⟩
    · simp only [Worker.owed, Worker.resets, Frame.owes, Frame.resets]
      omega
    · subst hcd
      rw [show (core.conns c).state = .closing from hr.ready.1] at hopen
      cases hopen
  | forget d next =>
    refine .of_drop (closed d _ (.of_eq rfl)) rfl rfl rfl (fun _ => ?_) (fun hcd hopen => ?_)
      fun _ => ?_
    · simp only [Worker.owed, Worker.resets, hafter]
      simp only [Frame.owes, Frame.resets]
      omega
    · subst hcd
      rw [show (core.conns c).state = .closing from hr.ready.1] at hopen
      cases hopen
    · simp only [Worker.owed, Worker.resets, hafter]
      exact ⟨rfl, rfl⟩
  | closeHook d next =>
    exact same (closed d _ (.of_eq rfl)) rfl rfl (hafter next).1 (hafter next).2
  | openNext d => exact same (.modify rfl (.of_history rfl rfl)) rfl rfl rfl rfl
  | opened d serving =>
    refine same (.modify rfl (.of_history rfl rfl)) rfl rfl ?_ rfl
    simp [Frame.owes, hit, ToSession.answersTo]
  | openedLate d stops => exact same (.of_eq rfl) rfl rfl rfl rfl
  | openRaised d exc => exact same (.of_eq rfl) rfl rfl rfl rfl
  | openRefused d exc serving =>
    cases serving
    · exact same (closed d _ (.of_eq rfl)) rfl rfl rfl rfl
    · exact same (closed d _ (.modify rfl (.offer _ _ fun _ => rfl))) rfl rfl rfl rfl
  | openClose d => exact same (closed d _ (.of_eq rfl)) rfl rfl rfl rfl
  | resetDrop event =>
    have hcount := count_resetDrop hbusy event.connection requestId
    refine .of_drop (.of_eq rfl) rfl rfl rfl (fun hcd => ?_) (fun hcd _ => ?_) fun hcd => ?_
    · subst hcd
      simp only [Worker.owed, Worker.resets, Frame.owes, Frame.resets, if_true]
      omega
    · subst hcd
      simp only [Worker.owed, Frame.owes, if_true]
      omega
    · simp [Worker.owed, Worker.resets, Frame.owes, Frame.resets, Ne.symm hcd]
  | resetAnswer event answered dropped =>
    have howes : (Frame.resetAnswers event (answered :: dropped) : Frame Payload Output).owes c
        requestId = (Frame.resetAnswers event dropped : Frame Payload Output).owes c requestId +
          hit c requestId event.connection (failure answered (.stepExpired "the session reset") :
            ToSession Output) := by
      simp only [Frame.owes, hit_eq, answersTo_failure, List.count_cons]
      by_cases hc : event.connection = c <;> by_cases hid : answered = requestId <;> simp [hc, hid]
    refine .of_post ?_ ?_
    · simp only [Worker.owed, Worker.resets, howes]
      simp only [Frame.resets]
      omega
    · simp only [Worker.owed, howes]
      omega
  | resetClose event =>
    refine same (Kept.trans ?_ (.modify rfl (.of_history rfl rfl))) rfl rfl ?_ rfl
    · exact .modify rfl (.of_history rfl rfl)
    · simp [Frame.owes]
  | resetOpened event =>
    refine .of_worker (.modify rfl (.of_history rfl rfl)) rfl rfl ?_ fun _ => ?_
    · simp [Worker.owed, Worker.resets, Frame.owes, Frame.resets, hit, ToSession.answersTo]
    · simp [Worker.owed, Frame.owes]
  | resetRaised event exc => exact same (.of_eq rfl) rfl rfl rfl rfl
  | resetReject event exc =>
    refine .of_post ?_ ?_
    · simp only [Worker.owed, Worker.resets, Frame.owes, Frame.resets, hit_failure, Bool.toNat_false]
      omega
    · simp only [Worker.owed, Frame.owes]
      omega
  | resetForget event => exact same (kept_setState _ _) rfl rfl rfl rfl

end

end ReactorRuntime.ModelServer
