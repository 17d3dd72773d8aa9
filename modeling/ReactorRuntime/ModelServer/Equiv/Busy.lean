import ReactorRuntime.Lists.Keyed
import ReactorRuntime.ModelServer.Equiv.Batching
import ReactorRuntime.ModelServer.Equiv.Registry

/-!
# One request for each session

A `Desk` is what the core holds about requests: the policy, the batch taken, the pending table and
the batch in `step()`.  `Busy` is the invariant between it and the sessions: a session is busy as
long as it has one request that waits, was taken or is pending for it, and never more than one; and
a request that is pending for its session carries the session's slot and its current generation.

The theorems here say what each operation on requests does to it; `ModelServer/Equiv/Held.lean` goes
through the steps of the threads.
-/

namespace ReactorRuntime.ModelServer

variable {Payload Output : Type*}

/-! ### The invariant -/

/-- What the core holds about requests. -/
structure Desk (Payload : Type*) where
  policy : BatchPolicy Payload
  /-- The batch that was taken, until its requests are pending. -/
  window : List (Waiting Payload)
  pending : List (Pending Payload)
  tickets : ℕ
  /-- The batch that is in `step()`. -/
  items : List (Pending Payload)

namespace Desk

def runs (c : ℕ) (item : Pending Payload) : Bool := item.connection = c ∧ ¬ item.detached

/-- How many requests a session is held for. -/
def holds (d : Desk Payload) (c : ℕ) : ℕ :=
  d.policy.waiting.countP (fun r => r.connection = c) +
    d.window.countP (fun r => r.connection = c) + d.pending.countP (runs c)

/-- A session is busy exactly as long as it is held for one request. -/
structure Busy (t : Sessions) (d : Desk Payload) : Prop where
  count : ∀ c, d.holds c = if c ∈ d.policy.busy then 1 else 0
  registered : ∀ c ∈ d.policy.busy, c ∈ t.connections
  /-- A pending request is its session's own. -/
  own : ∀ item ∈ d.pending, item.waiting.connection = item.connection
  nodup : (d.pending.map Pending.ticket).Nodup
  fresh : ∀ item ∈ d.pending, item.ticket < d.tickets
  /-- A request that is pending for its session is one of the session's current generation. -/
  current : ∀ item ∈ d.pending, ¬ item.detached →
    item.request.generation = t.generation item.connection ∧
      item.request.slot = t.slotOf item.connection
  /-- The requests in `step()` are the pending ones without a future. -/
  stepping : ∀ item, item ∈ d.items ↔ item ∈ d.pending ∧ item.future = false
  nodup_items : d.items.Nodup
  /-- A request in `step()` is neither answered nor detached. -/
  unanswered : ∀ item ∈ d.items, item.answered = false ∧ item.detached = false

variable {t : Sessions} {d : Desk Payload}

/-- A desk without requests. -/
theorem Busy.of_empty {policy : BatchPolicy Payload} {tickets : ℕ} (hwaiting : policy.waiting = [])
    (hbusy : policy.busy = ∅) : Busy t ⟨policy, [], [], tickets, []⟩ := by
  refine ⟨fun c => ?_, ?_, ?_, ?_, ?_, ?_, ?_, ?_, ?_⟩ <;> simp [holds, hwaiting, hbusy]

/-! ### Requests come and go -/

/-- A session that has a request waiting, taken or pending for it is busy. -/
theorem Busy.mem_busy (h : Busy t d) {c : ℕ} (hc : 0 < d.holds c) : c ∈ d.policy.busy := by
  by_contra hbusy
  rw [h.count c, if_neg hbusy] at hc
  omega

theorem Busy.add (h : Busy t d) {request : Waiting Payload} {policy : BatchPolicy Payload}
    (hopen : request.connection ∈ t.connections) (hadd : d.policy.add request = some policy) :
    Busy t { d with policy } := by
  obtain ⟨hfree, rfl⟩ := BatchPolicy.add_eq_some.mp hadd
  refine { h with count := fun c => ?_, registered := fun c hc => ?_ }
  · have hcount := h.count c
    simp only [holds, List.countP_append, List.countP_cons, List.countP_nil, Finset.mem_insert,
      decide_eq_true_eq] at hcount ⊢
    by_cases hc : request.connection = c
    · subst hc
      rw [if_neg hfree] at hcount
      simp only [true_or, if_true]
      omega
    · simp only [hc, Ne.symm hc, false_or, if_false]
      omega
  · obtain rfl | hc := Finset.mem_insert.mp hc
    · exact hopen
    · exact h.registered c hc

theorem Busy.withdraw (h : Busy t d) {request : Waiting Payload} {before after : List (Waiting Payload)}
    (hwaiting : d.policy.waiting = before ++ request :: after) :
    Busy t { d with
      policy := ⟨before ++ after, d.policy.busy.erase request.connection⟩ } := by
  refine { h with
    count := fun c => ?_
    registered := fun c hc => h.registered c (Finset.mem_of_mem_erase hc) }
  have hcount := h.count c
  simp only [holds, hwaiting, List.countP_append, List.countP_cons, Finset.mem_erase,
    decide_eq_true_eq] at hcount ⊢
  by_cases hc : request.connection = c
  · subst hc
    simp only [ne_eq, not_true_eq_false, false_and, if_false, if_true] at hcount ⊢
    split_ifs at hcount <;> omega
  · simp only [hc, Ne.symm hc, ne_eq, not_false_eq_true, true_and, if_false] at hcount ⊢
    omega

/-- What only marks requests as answered changes nothing here. -/
theorem Busy.mark (h : Busy t d) (p : Pending Payload → Bool) (hp : ∀ item, p item → item.future) :
    Busy t { d with pending := d.pending.map (Pending.answerIf p) } := by
  have answerIf (item : Pending Payload) : (item.answerIf p).ticket = item.ticket ∧
      (item.answerIf p).request = item.request ∧ (item.answerIf p).waiting = item.waiting ∧
      (item.answerIf p).connection = item.connection ∧ (item.answerIf p).future = item.future ∧
      (item.answerIf p).detached = item.detached := by
    unfold Pending.answerIf
    split_ifs <;> simp
  refine { h with
    count := fun c => ?_, own := ?_, nodup := ?_, fresh := ?_, current := ?_, stepping := ?_ }
  · have hruns : runs c ∘ Pending.answerIf p = runs c := by
      funext item
      simp only [Function.comp_apply, runs, answerIf]
    have hcount := h.count c
    simpa only [holds, List.countP_map, hruns] using hcount
  · simp only [List.forall_mem_map, answerIf]
    exact h.own
  · have hticket : Pending.ticket ∘ Pending.answerIf p = Pending.ticket := by
      funext item
      simp only [Function.comp_apply, answerIf]
    rw [List.map_map, hticket]
    exact h.nodup
  · simp only [List.forall_mem_map, answerIf]
    exact h.fresh
  · simp only [List.forall_mem_map, answerIf]
    exact h.current
  · intro item
    rw [h.stepping, List.mem_map]
    constructor
    · rintro ⟨hmem, hfuture⟩
      exact ⟨⟨item, hmem, if_neg fun hp' => by simp [hp item hp'] at hfuture⟩, hfuture⟩
    · rintro ⟨⟨item', hmem, rfl⟩, hfuture⟩
      rw [(answerIf item').2.2.2.2.1] at hfuture
      rw [Pending.answerIf, if_neg fun hp' => by simp [hp item' hp'] at hfuture]
      exact ⟨hmem, hfuture⟩

/-- A pending request is finished: it is in the table no more, and its session is released unless
it was detached. -/
theorem Busy.complete (h : Busy t d) {item : Pending Payload} (hitem : item ∈ d.pending)
    {items : List (Pending Payload)} (hitems : ∀ p, p ∈ items ↔ p ∈ d.items ∧ p ≠ item)
    (hnodup : items.Nodup) :
    Busy t { d with
      pending := d.pending.filter fun p => p.ticket ≠ item.ticket
      policy := if item.detached then d.policy else d.policy.finished [item.connection]
      items } := by
  have hmem {p : Pending Payload} (hp : p ∈ d.pending.filter fun p => p.ticket ≠ item.ticket) :
      p ∈ d.pending := (List.mem_filter.mp hp).1
  refine
    { count := fun c => ?_, registered := fun c hc => h.registered c ?_
      own := fun p hp => h.own p (hmem hp), nodup := Lists.nodup_key_filter h.nodup _
      fresh := fun p hp => h.fresh p (hmem hp), current := fun p hp => h.current p (hmem hp)
      stepping := fun p => ?_, nodup_items := hnodup
      unanswered := fun p hp => h.unanswered p ((hitems p).mp hp).1 }
  · have hcount := h.count c
    have hpending := Lists.countP_filter_key_ne h.nodup hitem (runs c)
    simp only [holds] at hcount ⊢
    by_cases hdetached : item.detached
    · have : runs c item = false := by simp [runs, hdetached]
      rw [if_pos hdetached]
      rw [this] at hpending
      simp only [Bool.false_eq_true, if_false, add_zero] at hpending
      omega
    · rw [if_neg hdetached]
      by_cases hc : item.connection = c
      · have : runs c item = true := by simp [runs, hdetached, hc]
        rw [this, if_pos rfl] at hpending
        have hfree : c ∉ (d.policy.finished [item.connection]).busy := by
          simp [BatchPolicy.finished, hc]
        rw [if_neg hfree]
        simp only [BatchPolicy.finished]
        split_ifs at hcount <;> omega
      · have : runs c item = false := by simp [runs, hc]
        rw [this] at hpending
        have hbusy : c ∈ (d.policy.finished [item.connection]).busy ↔ c ∈ d.policy.busy := by
          simp [BatchPolicy.finished, Ne.symm hc]
        simp only [hbusy]
        simp only [BatchPolicy.finished, Bool.false_eq_true, if_false] at hpending ⊢
        omega
  · dsimp only at hc
    split_ifs at hc
    · exact hc
    · exact (Finset.mem_sdiff.mp hc).1
  · rw [hitems, h.stepping, List.mem_filter]
    have hne : p ∈ d.pending → (p ≠ item ↔ p.ticket ≠ item.ticket) := fun hp =>
      not_congr ⟨fun heq => heq ▸ rfl, Lists.eq_of_key_eq h.nodup hp hitem⟩
    simp only [decide_eq_true_eq]
    tauto

/-- A request gets its future and leaves the batch in `step()`. -/
theorem Busy.await (h : Busy t d) {item : Pending Payload} (hitem : item ∈ d.pending)
    {items : List (Pending Payload)} (hitems : ∀ p, p ∈ items ↔ p ∈ d.items ∧ p ≠ item)
    (hnodup : items.Nodup) :
    Busy t { d with
      pending := d.pending.map (Pending.awaitFor item.ticket)
      items } := by
  have awaitFor (p : Pending Payload) : (p.awaitFor item.ticket).ticket = p.ticket ∧
      (p.awaitFor item.ticket).request = p.request ∧
      (p.awaitFor item.ticket).waiting = p.waiting ∧
      (p.awaitFor item.ticket).connection = p.connection ∧
      (p.awaitFor item.ticket).detached = p.detached := by
    unfold Pending.awaitFor
    split_ifs <;> simp
  refine { h with
    count := fun c => ?_, own := ?_, nodup := ?_, fresh := ?_, current := ?_
    stepping := fun p => ?_, nodup_items := hnodup
    unanswered := fun p hp => h.unanswered p ((hitems p).mp hp).1 }
  · have hruns : runs c ∘ Pending.awaitFor item.ticket = (runs c : Pending Payload → Bool) := by
      funext p
      simp only [Function.comp_apply, runs, awaitFor]
    have hcount := h.count c
    simpa only [holds, List.countP_map, hruns] using hcount
  · simp only [List.forall_mem_map, awaitFor]
    exact h.own
  · have hticket : Pending.ticket ∘ Pending.awaitFor item.ticket =
        (Pending.ticket : Pending Payload → ℕ) := by
      funext p
      simp only [Function.comp_apply, awaitFor]
    rw [List.map_map, hticket]
    exact h.nodup
  · simp only [List.forall_mem_map, awaitFor]
    exact h.fresh
  · simp only [List.forall_mem_map, awaitFor]
    exact h.current
  · rw [hitems, h.stepping, List.mem_map]
    constructor
    · rintro ⟨⟨hmem, hfuture⟩, hne⟩
      refine ⟨⟨p, hmem, if_neg fun hticket => ?_⟩, hfuture⟩
      exact hne (Lists.eq_of_key_eq h.nodup hmem hitem hticket)
    · rintro ⟨⟨q, hmem, rfl⟩, hfuture⟩
      by_cases hticket : q.ticket = item.ticket
      · simp [Pending.awaitFor, hticket] at hfuture
      · rw [Pending.awaitFor, if_neg hticket] at hfuture ⊢
        exact ⟨⟨hmem, hfuture⟩, fun heq => hticket (heq ▸ rfl)⟩

/-- A turn of the policy: requests expire, and a batch is taken. -/
theorem Busy.take (h : Busy t d) (hwindow : d.window = []) (settings : ServerSettings) (now : Time)
    (openSessions : ℕ) :
    Busy t { d with
      policy := (d.policy.take settings now openSessions).2
      window := (d.policy.take settings now openSessions).1.batch } := by
  obtain ⟨-, -, hbusy⟩ := d.policy.take_spec settings now openSessions
  refine { h with
    count := fun c => ?_
    registered := fun c hc => h.registered c ?_ }
  · have hcount := h.count c
    have htake := d.policy.count_take settings now openSessions (fun r => r.connection = c)
    have hexpired : c ∈ ((d.policy.take settings now openSessions).1.expired.map
        Waiting.connection).toFinset ↔ 0 < (d.policy.take settings now openSessions).1.expired.countP
          fun r => r.connection = c := by
      simp [List.countP_pos_iff]
    simp only [holds, hwindow, List.countP_nil] at hcount ⊢
    simp only [hbusy, Finset.mem_sdiff, hexpired]
    by_cases hc : c ∈ d.policy.busy
    · simp only [hc, if_true, true_and] at hcount ⊢
      split_ifs <;> omega
    · simp only [hc, if_false, false_and] at hcount ⊢
      omega
  · rw [show (d.policy.take settings now openSessions).2.busy = _ from hbusy] at hc
    exact (Finset.mem_sdiff.mp hc).1

/-- A session that is forgotten, or reset, has no request any more. -/
theorem Busy.drop (h : Busy t d) (hwindow : d.window = []) (hitems : d.items = []) (c : ℕ) :
    Busy t { d with
      policy := (d.policy.drop c).2
      pending := d.pending.map (Pending.detachFrom c) } := by
  have detachFrom (p : Pending Payload) : (p.detachFrom c).ticket = p.ticket ∧
      (p.detachFrom c).request = p.request ∧ (p.detachFrom c).waiting = p.waiting ∧
      (p.detachFrom c).connection = p.connection ∧ (p.detachFrom c).future = p.future ∧
      ((p.detachFrom c).detached = false → p.detached = false) := by
    unfold Pending.detachFrom
    split_ifs <;> simp
  refine { h with
    count := fun e => ?_, registered := fun e he => h.registered e (Finset.mem_of_mem_erase he)
    own := ?_, nodup := ?_, fresh := ?_, current := ?_, stepping := fun p => ?_ }
  · have hcount := h.count e
    simp only [holds, hwindow, BatchPolicy.drop, List.countP_nil, List.countP_filter,
      List.countP_map, Finset.mem_erase] at hcount ⊢
    by_cases hec : e = c
    · subst hec
      have hnone : runs e ∘ Pending.detachFrom e = fun _ : Pending Payload => false := by
        funext p
        by_cases hp : p.connection = e <;> simp [runs, Pending.detachFrom, hp]
      simp [hnone]
    · have hruns : runs e ∘ Pending.detachFrom c = (runs e : Pending Payload → Bool) := by
        funext p
        by_cases hp : p.connection = c
        · simp [runs, Pending.detachFrom, hp, Ne.symm hec]
        · simp [runs, Pending.detachFrom, hp]
      have hwaiting : (fun r : Waiting Payload => decide (r.connection = e) &&
          decide (r.connection ≠ c)) = fun r => decide (r.connection = e) := by
        funext r
        by_cases hr : r.connection = e
        · simp [hr, hec]
        · simp [hr]
      simp only [hruns, hwaiting, hec, ne_eq, not_false_eq_true, true_and]
      exact hcount
  · simp only [List.forall_mem_map, detachFrom]
    exact h.own
  · have hticket : Pending.ticket ∘ Pending.detachFrom c = (Pending.ticket : Pending Payload → ℕ) := by
      funext p
      simp only [Function.comp_apply, detachFrom]
    rw [List.map_map, hticket]
    exact h.nodup
  · simp only [List.forall_mem_map, detachFrom]
    exact h.fresh
  · simp only [List.forall_mem_map, Bool.not_eq_true]
    intro p hp hdetached
    rw [(detachFrom p).2.1, (detachFrom p).2.2.2.1]
    exact h.current p hp (by simpa using (detachFrom p).2.2.2.2.2 hdetached)
  · have hstepping := h.stepping
    simp only [hitems, List.not_mem_nil, false_iff, not_and] at hstepping ⊢
    intro hp
    obtain ⟨q, hq, rfl⟩ := List.mem_map.mp hp
    rw [(detachFrom q).2.2.2.2.1]
    exact hstepping q hq

/-- The sessions of a batch that was taken are open. -/
theorem Busy.window_registered (h : Busy t d) {request : Waiting Payload} (hr : request ∈ d.window) :
    request.connection ∈ t.connections := by
  refine h.registered _ (h.mem_busy ?_)
  have : 0 < d.window.countP fun r => r.connection = request.connection :=
    List.countP_pos_iff.mpr ⟨request, hr, by simp⟩
  simp only [holds]
  omega

theorem Busy.filter_window (h : Busy t d) :
    d.window.filter (fun r => r.connection ∈ t.connections) = d.window :=
  List.filter_eq_self.mpr fun _ hr => decide_eq_true (h.window_registered hr)

/-- The requests that wait are those of open sessions. -/
theorem Busy.waiting_registered (h : Busy t d) {request : Waiting Payload}
    (hr : request ∈ d.policy.waiting) : request.connection ∈ t.connections := by
  refine h.registered _ (h.mem_busy ?_)
  have : 0 < d.policy.waiting.countP fun r => r.connection = request.connection :=
    List.countP_pos_iff.mpr ⟨request, hr, by simp⟩
  simp only [holds]
  omega

theorem Busy.pending_registered (h : Busy t d) {item : Pending Payload} (hitem : item ∈ d.pending)
    (hdetached : ¬ item.detached) : item.connection ∈ t.connections := by
  refine h.registered _ (h.mem_busy ?_)
  have : 0 < d.pending.countP (runs item.connection) :=
    List.countP_pos_iff.mpr ⟨item, hitem, by simp [runs, hdetached]⟩
  simp only [holds]
  omega

/-- What the sessions do elsewhere has no part in the requests. -/
theorem Busy.of_sessions {t' : Sessions} (h : Busy t d)
    (hregistered : ∀ c ∈ d.policy.busy, c ∈ t'.connections)
    (hcurrent : ∀ item ∈ d.pending, ¬ item.detached →
      t'.generation item.connection = t.generation item.connection ∧
        t'.slotOf item.connection = t.slotOf item.connection) : Busy t' d :=
  { h with
    registered := hregistered
    current := fun item hitem hdetached => by
      obtain ⟨hgeneration, hslot⟩ := hcurrent item hitem hdetached
      rw [hgeneration, hslot]
      exact h.current item hitem hdetached }

end Desk

/-! ### A batch becomes pending -/

namespace Core

theorem mem_of_pendingOf {core : Core Payload Output} {ticket : ℕ} {item : Pending Payload}
    (h : core.pendingOf ticket = some item) : item ∈ core.pending :=
  List.mem_of_find?_eq_some h

variable (core : Core Payload Output)

theorem tickets_pendingFor (live : List (Waiting Payload)) (ticket : ℕ) :
    (core.pendingFor live ticket).map Pending.ticket = List.range' ticket live.length := by
  induction live generalizing ticket with
  | nil => rfl
  | cons request live ih => simp [pendingFor, ih, List.range'_succ]

theorem length_pendingFor (live : List (Waiting Payload)) (ticket : ℕ) :
    (core.pendingFor live ticket).length = live.length := by
  simpa using congrArg List.length (core.tickets_pendingFor live ticket)

theorem mem_pendingFor {live : List (Waiting Payload)} {ticket : ℕ} {item : Pending Payload}
    (h : item ∈ core.pendingFor live ticket) :
    item.waiting ∈ live ∧ item.waiting.connection = item.connection ∧
      item.request.generation = core.sessions.generation item.connection ∧
      item.request.slot = core.sessions.slotOf item.connection ∧
      item.future = false ∧ item.answered = false ∧ item.detached = false := by
  induction live generalizing ticket with
  | nil => cases h
  | cons request live ih =>
    obtain rfl | h := List.mem_cons.mp h
    · exact ⟨List.mem_cons_self, rfl, rfl, rfl, rfl, rfl, rfl⟩
    · exact ⟨List.mem_cons_of_mem _ (ih h).1, (ih h).2⟩

theorem count_pendingFor (live : List (Waiting Payload)) (ticket : ℕ) (c : ℕ) :
    (core.pendingFor live ticket).countP (Desk.runs c) =
      live.countP fun r => r.connection = c := by
  induction live generalizing ticket with
  | nil => rfl
  | cons request live ih => simp [pendingFor, List.countP_cons, Desk.runs, ih]

end Core

namespace Desk

variable {t : Sessions} {d : Desk Payload}

/-- The batch that was taken becomes pending, as the batch that goes into `step()`. -/
theorem Busy.register {core : Core Payload Output} (h : Busy core.sessions d)
    (hitems : d.items = []) :
    Busy core.sessions { d with
      window := []
      pending := d.pending ++ core.pendingFor d.window d.tickets
      tickets := d.tickets + (core.pendingFor d.window d.tickets).length
      items := core.pendingFor d.window d.tickets } := by
  have hticket {item : Pending Payload} (hitem : item ∈ core.pendingFor d.window d.tickets) :
      d.tickets ≤ item.ticket ∧
        item.ticket < d.tickets + (core.pendingFor d.window d.tickets).length := by
    have := List.mem_map_of_mem (f := Pending.ticket) hitem
    rw [core.tickets_pendingFor, List.mem_range'_1] at this
    rwa [core.length_pendingFor]
  have hnodup : ((core.pendingFor d.window d.tickets).map Pending.ticket).Nodup := by
    rw [core.tickets_pendingFor]
    exact List.nodup_range'
  have hfuture : ∀ item ∈ d.pending, item.future = true := by
    intro item hitem
    have := h.stepping item
    rw [hitems] at this
    simpa [hitem] using this
  refine
    { count := fun c => ?_, registered := h.registered, own := fun item hitem => ?_
      nodup := ?_, fresh := fun item hitem => ?_, current := fun item hitem => ?_
      stepping := fun item => ?_, nodup_items := hnodup.of_map _
      unanswered := fun item hitem => (core.mem_pendingFor hitem).2.2.2.2.2 }
  · have hcount := h.count c
    simp only [holds, List.countP_append, core.count_pendingFor, List.countP_nil] at hcount ⊢
    omega
  · obtain hitem | hitem := List.mem_append.mp hitem
    · exact h.own item hitem
    · exact (core.mem_pendingFor hitem).2.1
  · rw [List.map_append, List.nodup_append]
    refine ⟨h.nodup, hnodup, ?_⟩
    rintro _ ha _ hb rfl
    obtain ⟨item, hitem, rfl⟩ := List.mem_map.mp ha
    obtain ⟨item', hitem', heq⟩ := List.mem_map.mp hb
    have := h.fresh item hitem
    have := (hticket hitem').1
    omega
  · obtain hitem | hitem := List.mem_append.mp hitem
    · exact (h.fresh item hitem).trans_le (Nat.le_add_right _ _)
    · exact (hticket hitem).2
  · obtain hitem | hitem := List.mem_append.mp hitem
    · exact h.current item hitem
    · intro _
      exact ⟨(core.mem_pendingFor hitem).2.2.1, (core.mem_pendingFor hitem).2.2.2.1⟩
  · rw [List.mem_append]
    constructor
    · exact fun hitem => ⟨.inr hitem, (core.mem_pendingFor hitem).2.2.2.2.1⟩
    · rintro ⟨hitem | hitem, hnone⟩
      · simp [hfuture item hitem] at hnone
      · exact hitem

/-! ### Everything is dropped -/

theorem foldl_drop (policy : BatchPolicy Payload) (connections : List ℕ) :
    connections.foldl (fun policy c => (policy.drop c).2) policy =
      ⟨policy.waiting.filter fun r => r.connection ∉ connections,
        policy.busy \ connections.toFinset⟩ := by
  induction connections generalizing policy with
  | nil => simp
  | cons c connections ih =>
    rw [List.foldl_cons, ih, BatchPolicy.drop]
    congr 1
    · rw [List.filter_filter]
      refine List.filter_congr fun r _ => ?_
      simp [Bool.and_comm]
    · ext e
      simp only [Finset.mem_sdiff, Finset.mem_erase, List.mem_toFinset, List.mem_cons]
      tauto

theorem Busy.clear {core : Core Payload Output} (h : Busy core.sessions d)
    (hpolicy : d.policy = core.policy) :
    core.answerInFlight.1.policy.waiting = [] ∧ core.answerInFlight.1.policy.busy = ∅ := by
  unfold Core.answerInFlight
  dsimp only
  rw [foldl_drop, BatchPolicy.finished]
  constructor
  · refine List.filter_eq_nil_iff.mpr fun r hr => ?_
    have : r.connection ∈ core.connections := h.waiting_registered (hpolicy ▸ hr)
    simpa using this
  · have hempty : core.policy.busy \ core.connections.toFinset = ∅ := by
      rw [Finset.sdiff_eq_empty_iff_subset]
      intro c hc
      exact List.mem_toFinset.mpr (h.registered c (hpolicy ▸ hc))
    dsimp only
    rw [hempty, Finset.empty_sdiff]

end Desk

end ReactorRuntime.ModelServer
