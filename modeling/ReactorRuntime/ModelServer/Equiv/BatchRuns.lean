import ReactorRuntime.ModelServer.BatchRuns
import ReactorRuntime.ModelServer.Equiv.Batching
import Mathlib.Order.Bounds.Basic

/-!
# What the batching policy keeps to in every run

* `Conserved`: each request that was queued waits, or left in exactly one way, and the requests
  that wait do so in the order they came in.  This needs nothing of the caller.
* `Asked`: if the thread asks again in time, it does so before the window of a request that waits
  has ended.
* `Released`: if `finished` is told only of sessions whose requests a step answered, the busy
  sessions are those with one request waiting and those with one running, and none is both.
-/

namespace ReactorRuntime.ModelServer

variable {Payload : Type*}

/-! ### One turn -/

theorem isLeast_foldl_min (first : Time) (times : List Time) :
    IsLeast {w | w = first ∨ w ∈ times} (times.foldl min first) := by
  induction times generalizing first with
  | nil =>
    constructor
    · exact Or.inl rfl
    · rintro w (rfl | h)
      · exact le_rfl
      · simp at h
  | cons time times ih =>
    obtain ⟨hmem, hlower⟩ := ih (min first time)
    rw [List.foldl_cons]
    constructor
    · rcases hmem with h | h
      · rcases min_choice first time with hmin | hmin
        · exact Or.inl (h.trans hmin)
        · exact Or.inr (List.mem_cons.mpr (Or.inl (h.trans hmin)))
      · exact Or.inr (List.mem_cons_of_mem _ h)
    · have hfirst : times.foldl min (min first time) ≤ min first time := hlower (Or.inl rfl)
      rintro w (rfl | h)
      · exact hfirst.trans (min_le_left _ _)
      · rcases List.mem_cons.mp h with rfl | h
        · exact hfirst.trans (min_le_right _ _)
        · exact hlower (Or.inr h)

namespace BatchPolicy

variable (policy : BatchPolicy Payload) (settings : ServerSettings) (now : Time)
  (openSessions : ℕ)

/-- What a turn decides: nothing waits, or the batch may still fill, or a batch is taken. -/
theorem take_cases :
    let expired := policy.waiting.filter fun r => r.overdue now
    let live := policy.waiting.filter fun r => ¬ r.overdue now
    (live = [] ∧ policy.take settings now openSessions =
        (⟨[], expired, none⟩, policy.expire now)) ∨
      ∃ first rest, live = first :: rest ∧
        ((¬ (policy.expire now).full settings openSessions ∧
            now < first.arrived + settings.batchWindow ∧
            policy.take settings now openSessions =
              (⟨[], expired, some ((live.filterMap Waiting.deadline).foldl min
                (first.arrived + settings.batchWindow))⟩, policy.expire now)) ∨
          policy.take settings now openSessions =
            (⟨live.take settings.maxBatch, expired, none⟩,
              ⟨live.drop settings.maxBatch, (policy.expire now).busy⟩)) := by
  intro expired live
  have hwaiting : (policy.expire now).waiting = live := rfl
  unfold take
  dsimp only
  split
  · next h => exact Or.inl ⟨h, rfl⟩
  · next first rest h =>
    refine Or.inr ⟨first, rest, h, ?_⟩
    split_ifs with hfill
    · exact Or.inl ⟨hfill.1, hfill.2, rfl⟩
    · exact Or.inr rfl

/-- The batch is what comes first of the requests whose deadline has not passed. -/
theorem batch_prefix : (policy.take settings now openSessions).1.batch <+:
    policy.waiting.filter fun r => ¬ r.overdue now :=
  ⟨_, (policy.take_spec settings now openSessions).2.1⟩

theorem left_suffix : (policy.take settings now openSessions).2.waiting <:+
    policy.waiting.filter fun r => ¬ r.overdue now :=
  ⟨_, (policy.take_spec settings now openSessions).2.1⟩

theorem length_batch_le :
    (policy.take settings now openSessions).1.batch.length ≤ settings.maxBatch := by
  rcases policy.take_cases settings now openSessions with ⟨-, h⟩ | ⟨first, rest, -, h⟩
  · simp [h]
  · rcases h with ⟨-, -, h⟩ | h
    · simp [h]
    · rw [h]
      exact List.length_take_le _ _

end BatchPolicy

namespace BatchRun

variable {settings : ServerSettings} {s : BatchRun Payload}

/-! ### What each call does -/

theorem add_cases (s : BatchRun Payload) (request : Waiting Payload) :
    (request.connection ∈ s.policy.busy ∧ s.add request = s) ∨
      (request.connection ∉ s.policy.busy ∧ s.add request = { s with
        policy := ⟨s.policy.waiting ++ [request], insert request.connection s.policy.busy⟩
        due := if s.free then some (s.due.getD s.clock) else s.due
        accepted := s.accepted ++ [request] }) := by
  unfold add
  rcases hadd : s.policy.add request with _ | policy
  · exact Or.inl ⟨BatchPolicy.add_eq_none.mp hadd, rfl⟩
  · obtain ⟨hbusy, rfl⟩ := BatchPolicy.add_eq_some.mp hadd
    exact Or.inr ⟨hbusy, rfl⟩

theorem cancel_cases (s : BatchRun Payload) (connection requestId : ℕ) :
    s.cancel connection requestId = s ∨
      ∃ before request after, s.policy.waiting = before ++ request :: after ∧
        request.connection = connection ∧ s.cancel connection requestId = { s with
          policy := ⟨before ++ after, s.policy.busy.erase connection⟩
          cancelled := s.cancelled ++ [request] } := by
  unfold cancel BatchPolicy.cancel
  split_ifs with hany
  · obtain ⟨a, ha, hnamed⟩ := List.any_eq_true.mp hany
    obtain ⟨request, before, after, hbefore, hrequest, hwaiting, herase⟩ :=
      List.exists_of_eraseP ha hnamed
    -- the request that is erased is the one that is found
    have hfind : s.policy.waiting.find? (BatchPolicy.named connection requestId) = some request :=
      List.find?_eq_some_iff_append.mpr
        ⟨hrequest, before, after, hwaiting, fun b hb => by simpa using hbefore b hb⟩
    refine Or.inr ⟨before, request, after, hwaiting, (of_decide_eq_true hrequest).1, ?_⟩
    simp [herase, hfind]
  · exact Or.inl rfl

theorem take_cases (settings : ServerSettings) (s : BatchRun Payload) (openSessions : ℕ) :
    let turn := (s.policy.take settings s.clock openSessions).1
    let policy := (s.policy.take settings s.clock openSessions).2
    (turn.batch = [] ∧ s.take settings openSessions = { s with
        policy := policy
        due := if s.free then turn.wakeAt else s.due
        expired := s.expired ++ turn.expired }) ∨
      (turn.batch ≠ [] ∧ s.take settings openSessions = { s with
        policy := policy
        free := false
        due := none
        running := s.running ∪ (turn.batch.map Waiting.connection).toFinset
        batches := s.batches ++ [turn.batch]
        expired := s.expired ++ turn.expired }) := by
  intro turn policy
  unfold take
  dsimp only
  split
  · next h => exact Or.inl ⟨h, rfl⟩
  · next h => exact Or.inr ⟨by simp [turn, h], rfl⟩

/-! ### Every request leaves once, and in the order it came -/

/-- Where the requests that were queued are. -/
structure Conserved (s : BatchRun Payload) : Prop where
  counts : ∀ p : Waiting Payload → Bool, s.accepted.countP p =
    s.policy.waiting.countP p + s.batches.flatten.countP p + s.expired.countP p +
      s.cancelled.countP p + s.dropped.countP p
  inOrder : s.policy.waiting.Sublist s.accepted
  arrived : s.accepted.Pairwise fun earlier later => earlier.arrived ≤ later.arrived

theorem Conserved.start (clock : Time) : Conserved (start clock : BatchRun Payload) where
  counts _ := rfl
  inOrder := List.nil_sublist _
  arrived := List.Pairwise.nil

theorem Conserved.add (h : Conserved s) {request : Waiting Payload}
    (hlater : ∀ earlier ∈ s.accepted, earlier.arrived ≤ request.arrived) :
    Conserved (s.add request) := by
  rcases s.add_cases request with ⟨-, heq⟩ | ⟨-, heq⟩
  · rw [heq]
    exact h
  · rw [heq]
    refine ⟨fun p => ?_, h.inOrder.append_right _, ?_⟩
    · have hcounts := h.counts p
      simp only [List.countP_append]
      omega
    · refine List.pairwise_append.mpr ⟨h.arrived, List.pairwise_singleton _ _, ?_⟩
      intro earlier hmem later hlast
      rw [List.mem_singleton.mp hlast]
      exact hlater earlier hmem

theorem Conserved.cancel (h : Conserved s) (connection requestId : ℕ) :
    Conserved (s.cancel connection requestId) := by
  rcases s.cancel_cases connection requestId with heq | ⟨before, request, after, hwaiting, -, heq⟩
  · rw [heq]
    exact h
  · rw [heq]
    refine ⟨fun p => ?_, ?_, h.arrived⟩
    · have hcounts := h.counts p
      simp only [hwaiting, List.countP_append, List.countP_cons, List.countP_nil] at hcounts ⊢
      omega
    · have hsub : (before ++ after).Sublist (before ++ request :: after) :=
        (List.sublist_cons_self request after).append_left before
      exact (hwaiting ▸ hsub).trans h.inOrder

theorem Conserved.drop (h : Conserved s) (connection : ℕ) : Conserved (s.drop connection) where
  counts p := by
    have hcounts := h.counts p
    have hsplit := List.countP_eq_countP_filter_add s.policy.waiting p
      fun r => decide (r.connection = connection)
    simp only [BatchRun.drop, BatchPolicy.drop, BatchPolicy.waitingOf, List.countP_append,
      decide_not] at hsplit ⊢
    omega
  inOrder := List.filter_sublist.trans h.inOrder
  arrived := h.arrived

theorem Conserved.take (h : Conserved s) (openSessions : ℕ) :
    Conserved (s.take settings openSessions) := by
  have hleft : (s.policy.take settings s.clock openSessions).2.waiting.Sublist s.accepted :=
    ((s.policy.left_suffix settings s.clock openSessions).sublist.trans
      List.filter_sublist).trans h.inOrder
  have hcount := s.policy.count_take settings s.clock openSessions
  rcases s.take_cases settings openSessions with ⟨hbatch, heq⟩ | ⟨-, heq⟩
  · rw [heq]
    refine ⟨fun p => ?_, hleft, h.arrived⟩
    have hcounts := h.counts p
    have hturn := hcount p
    rw [hbatch, List.countP_nil] at hturn
    simp only [List.countP_append]
    omega
  · rw [heq]
    refine ⟨fun p => ?_, hleft, h.arrived⟩
    have hcounts := h.counts p
    have hturn := hcount p
    simp only [List.countP_append, List.flatten_append, List.flatten_singleton]
    omega

theorem Conserved.step {s' : BatchRun Payload} {call : BatchCall Payload} (h : Conserved s)
    (hstep : step settings s call = some s') : Conserved s' := by
  cases call with
  | add request =>
    simp only [BatchRun.step, Option.ite_none_right_eq_some] at hstep
    obtain ⟨hlater, heq⟩ := hstep
    cases heq
    exact h.add hlater
  | cancel connection requestId =>
    cases hstep
    exact h.cancel connection requestId
  | drop connection =>
    cases hstep
    exact h.drop connection
  | finished connections =>
    cases hstep
    exact ⟨h.counts, h.inOrder, h.arrived⟩
  | take openSessions =>
    cases hstep
    exact h.take openSessions
  | passes clock =>
    simp only [BatchRun.step, Option.ite_none_right_eq_some] at hstep
    obtain rfl := Option.some.inj hstep.2
    exact ⟨h.counts, h.inOrder, h.arrived⟩
  | stepped =>
    simp only [BatchRun.step, Option.ite_none_left_eq_some] at hstep
    obtain rfl := Option.some.inj hstep.2
    exact ⟨h.counts, h.inOrder, h.arrived⟩

theorem conserved {clock : Time} (hreach : (transitions settings clock).Reachable s) :
    Conserved s :=
  TransitionSystem.IsInvariant.of_reachable (I := Conserved)
    ⟨Conserved.start clock, fun _ _ _ h hstep => h.step hstep⟩ hreach

/-! ### The thread asks again before a window has ended -/

/-- A turn that takes no batch names a time to ask again if a request is left waiting, and it does
not come after the end of any window. -/
theorem wakeAt_le {openSessions : ℕ}
    (hbatch : (s.policy.take settings s.clock openSessions).1.batch = [])
    {first : Waiting Payload} {rest : List (Waiting Payload)}
    (hleft : (s.policy.take settings s.clock openSessions).2.waiting = first :: rest) :
    ∃ w, (s.policy.take settings s.clock openSessions).1.wakeAt = some w ∧ s.clock < w ∧
      w ≤ first.arrived + settings.batchWindow := by
  rcases s.policy.take_cases settings s.clock openSessions with ⟨hlive, htake⟩ |
    ⟨first', rest', hlive, ⟨-, hnow, htake⟩ | htake⟩
  · rw [htake] at hleft
    simp only [BatchPolicy.expire] at hleft
    rw [hlive] at hleft
    cases hleft
  · rw [htake] at hleft ⊢
    simp only [BatchPolicy.expire] at hleft
    rw [hlive] at hleft
    obtain ⟨rfl, rfl⟩ := List.cons.inj hleft
    obtain ⟨hmem, hlower⟩ := isLeast_foldl_min (first'.arrived + settings.batchWindow)
      ((s.policy.waiting.filter fun r => ¬ r.overdue s.clock).filterMap Waiting.deadline)
    refine ⟨_, rfl, ?_, hlower (Or.inl rfl)⟩
    -- the earliest of some times that are all ahead of the clock
    rcases hmem with heq | hmem
    · rw [heq]
      exact hnow
    · obtain ⟨r, hr, hdeadline⟩ := List.mem_filterMap.mp hmem
      have hahead := (List.mem_filter.mp hr).2
      simp only [Waiting.overdue, hdeadline, decide_eq_true_eq, not_le] at hahead
      exact hahead
  · rw [htake, hlive] at hbatch
    have hpos := settings.maxBatch_pos
    have hlength : ((first' :: rest').take settings.maxBatch).length = 0 :=
      List.length_eq_zero_iff.mpr hbatch
    simp only [List.length_take, List.length_cons] at hlength
    omega

structure Asked (settings : ServerSettings) (s : BatchRun Payload) : Prop where
  ahead : ∀ w, s.due = some w → s.clock ≤ w
  /-- It asks now, or before the window of a request that came no later than those that wait. -/
  inTime : ∀ w, s.due = some w → w ≤ s.clock ∨ ∃ r ∈ s.accepted,
    w ≤ r.arrived + settings.batchWindow ∧ ∀ q ∈ s.policy.waiting, r.arrived ≤ q.arrived
  asks : s.free = true → s.policy.waiting ≠ [] → s.due.isSome = true

theorem Asked.start (clock : Time) : Asked settings (start clock : BatchRun Payload) where
  ahead w h := by cases h
  inTime w h := by cases h
  asks _ h := (h rfl).elim

/-- What a call keeps that queues no request and does not ask. -/
theorem Asked.of_subset {s' : BatchRun Payload} (h : Asked settings s) (hclock : s'.clock = s.clock)
    (hfree : s'.free = s.free) (hdue : s'.due = s.due) (haccepted : s'.accepted = s.accepted)
    (hwaiting : s'.policy.waiting ⊆ s.policy.waiting) : Asked settings s' where
  ahead w hw := hclock ▸ h.ahead w (hdue ▸ hw)
  inTime w hw := by
    rw [hclock, haccepted]
    rcases h.inTime w (hdue ▸ hw) with hnow | ⟨r, hr, hwindow, hold⟩
    · exact Or.inl hnow
    · exact Or.inr ⟨r, hr, hwindow, fun q hq => hold q (hwaiting hq)⟩
  asks hf hne := by
    rw [hdue]
    refine h.asks (hfree ▸ hf) ?_
    rintro hnil
    rw [hnil] at hwaiting
    exact hne (List.eq_nil_of_subset_nil hwaiting)

theorem Asked.add (h : Asked settings s) {request : Waiting Payload}
    (hlater : ∀ earlier ∈ s.accepted, earlier.arrived ≤ request.arrived) :
    Asked settings (s.add request) := by
  rcases s.add_cases request with ⟨-, heq⟩ | ⟨-, heq⟩
  · rw [heq]
    exact h
  · rw [heq]
    -- the time to ask is the one the last turn named, or now
    have hdue : ∀ w, (if s.free then some (s.due.getD s.clock) else s.due) = some w →
        s.due = some w ∨ w = s.clock := by
      intro w hw
      split_ifs at hw
      · rcases hsome : s.due with _ | w'
        · rw [hsome] at hw
          exact Or.inr (Option.some.inj hw).symm
        · rw [hsome] at hw
          exact Or.inl hw
      · exact Or.inl hw
    constructor
    · intro w hw
      rcases hdue w hw with hw | rfl
      · exact h.ahead w hw
      · exact le_rfl
    · intro w hw
      rcases hdue w hw with hw | rfl
      · rcases h.inTime w hw with hnow | ⟨r, hr, hwindow, hold⟩
        · exact Or.inl hnow
        · refine Or.inr ⟨r, List.mem_append_left _ hr, hwindow, fun q hq => ?_⟩
          rcases List.mem_append.mp hq with hq | hq
          · exact hold q hq
          · rw [List.mem_singleton.mp hq]
            exact hlater r hr
      · exact Or.inl le_rfl
    · intro hfree _
      dsimp only at hfree ⊢
      rw [if_pos hfree]
      rfl

theorem Asked.take (h : Asked settings s) (hs : Conserved s) (openSessions : ℕ) :
    Asked settings (s.take settings openSessions) := by
  have hsub : (s.policy.take settings s.clock openSessions).2.waiting ⊆ s.policy.waiting :=
    fun r hr => (List.mem_filter.mp
      ((s.policy.left_suffix settings s.clock openSessions).subset hr)).1
  rcases s.take_cases settings openSessions with ⟨hbatch, heq⟩ | ⟨-, heq⟩
  · rw [heq]
    rcases hfree : s.free with _ | _
    · refine h.of_subset rfl ?_ rfl rfl hsub
      exact hfree.symm
    · rcases hleft : (s.policy.take settings s.clock openSessions).2.waiting with _ | ⟨first, rest⟩
      · -- nothing waits: whatever is due comes to nothing
        have hnone : (s.policy.take settings s.clock openSessions).1.wakeAt = none := by
          rcases s.policy.take_cases settings s.clock openSessions with ⟨-, htake⟩ |
            ⟨first, rest, hlive, ⟨-, -, htake⟩ | htake⟩
          · rw [htake]
          · rw [htake] at hleft
            simp only [BatchPolicy.expire] at hleft
            rw [hlive] at hleft
            cases hleft
          · rw [htake]
        constructor
        · intro w hw
          rw [hnone] at hw
          cases hw
        · intro w hw
          rw [hnone] at hw
          cases hw
        · intro _ hne
          exact (hne hleft).elim
      · obtain ⟨w, hw, hahead, hwindow⟩ := wakeAt_le hbatch hleft
        have hall : ∀ q ∈ first :: rest, first.arrived ≤ q.arrived := by
          have hsorted : (first :: rest).Pairwise fun a b => a.arrived ≤ b.arrived :=
            (hs.arrived.sublist hs.inOrder).sublist
              (hleft ▸ (s.policy.left_suffix settings s.clock openSessions).sublist.trans
                List.filter_sublist)
          intro q hq
          rcases List.mem_cons.mp hq with rfl | hq
          · exact le_rfl
          · exact List.rel_of_pairwise_cons hsorted hq
        have hfirst : first ∈ s.accepted :=
          hs.inOrder.subset (hsub (hleft ▸ List.mem_cons_self))
        constructor
        · intro w' hw'
          obtain rfl := Option.some.inj (hw.symm.trans hw')
          exact hahead.le
        · intro w' hw'
          obtain rfl := Option.some.inj (hw.symm.trans hw')
          exact Or.inr ⟨first, hfirst, hwindow, hleft ▸ hall⟩
        · intro _ _
          exact Option.isSome_of_eq_some hw
  · rw [heq]
    constructor
    · intro w hw
      cases hw
    · intro w hw
      cases hw
    · intro hfree
      cases hfree

theorem Asked.step {s' : BatchRun Payload} {call : BatchCall Payload} (h : Asked settings s)
    (hs : Conserved s) (hasks : s.asksInTime call = true)
    (hstep : step settings s call = some s') : Asked settings s' := by
  cases call with
  | add request =>
    simp only [BatchRun.step, Option.ite_none_right_eq_some] at hstep
    obtain ⟨hlater, heq⟩ := hstep
    cases heq
    exact h.add hlater
  | cancel connection requestId =>
    cases hstep
    rcases s.cancel_cases connection requestId with heq | ⟨before, r, after, hwaiting, -, heq⟩
    · rw [heq]
      exact h
    · rw [heq]
      refine h.of_subset rfl rfl rfl rfl ?_
      rw [hwaiting]
      exact ((List.sublist_cons_self r after).append_left before).subset
  | drop connection =>
    cases hstep
    exact h.of_subset rfl rfl rfl rfl List.filter_sublist.subset
  | finished connections =>
    cases hstep
    exact h.of_subset rfl rfl rfl rfl (List.Subset.refl _)
  | take openSessions =>
    cases hstep
    exact h.take hs openSessions
  | passes clock =>
    simp only [BatchRun.step, Option.ite_none_right_eq_some] at hstep
    obtain ⟨hclock, heq⟩ := hstep
    cases heq
    constructor
    · intro w hw
      simp only [BatchRun.asksInTime] at hasks
      rw [hw] at hasks
      simpa using hasks
    · intro w hw
      rcases h.inTime w hw with hnow | hwindow
      · exact Or.inl (hnow.trans hclock)
      · exact Or.inr hwindow
    · exact h.asks
  | stepped =>
    simp only [BatchRun.step, Option.ite_none_left_eq_some] at hstep
    obtain rfl := Option.some.inj hstep.2
    constructor
    · intro w hw
      exact (Option.some.inj hw).le
    · intro w hw
      exact Or.inl (Option.some.inj hw).ge
    · intro _ _
      rfl

/-! ### One request for each session -/

/-- The busy sessions: those with a request waiting, and those with one running. -/
structure Released (s : BatchRun Payload) : Prop where
  oneEach : (s.policy.waiting.map Waiting.connection).Nodup
  busy : s.policy.busy = (s.policy.waiting.map Waiting.connection).toFinset ∪ s.running
  apart : ∀ r ∈ s.policy.waiting, r.connection ∉ s.running

theorem Released.start (clock : Time) : Released (start clock : BatchRun Payload) where
  oneEach := List.nodup_nil
  busy := rfl
  apart _ h := by simp [BatchRun.start, BatchPolicy.empty] at h

theorem Released.eq_of_connection (h : Released s) {r q : Waiting Payload}
    (hr : r ∈ s.policy.waiting) (hq : q ∈ s.policy.waiting) (heq : r.connection = q.connection) :
    r = q :=
  List.inj_on_of_nodup_map h.oneEach hr hq heq

theorem Released.add (h : Released s) (request : Waiting Payload) : Released (s.add request) := by
  rcases s.add_cases request with ⟨-, heq⟩ | ⟨hbusy, heq⟩
  · rw [heq]
    exact h
  · rw [heq]
    rw [h.busy, Finset.mem_union, List.mem_toFinset, not_or] at hbusy
    refine ⟨?_, ?_, ?_⟩
    · rw [List.map_append]
      refine List.nodup_append.mpr ⟨h.oneEach, List.nodup_singleton _, ?_⟩
      rintro c hc c' hc' rfl
      rw [List.mem_singleton.mp hc'] at hc
      exact hbusy.1 hc
    · ext c
      simp only [h.busy, Finset.mem_insert, Finset.mem_union, List.mem_toFinset, List.map_append,
        List.mem_append, List.map_cons, List.map_nil, List.mem_singleton]
      tauto
    · intro r hr
      rcases List.mem_append.mp hr with hr | hr
      · exact h.apart r hr
      · rw [List.mem_singleton.mp hr]
        exact hbusy.2

theorem Released.cancel (h : Released s) (connection requestId : ℕ) :
    Released (s.cancel connection requestId) := by
  rcases s.cancel_cases connection requestId with heq | ⟨before, r, after, hwaiting, rfl, heq⟩
  · rw [heq]
    exact h
  · rw [heq]
    have hone := h.oneEach
    have hapart : r.connection ∉ s.running := h.apart r (by simp [hwaiting])
    rw [hwaiting, List.map_append, List.map_cons] at hone
    obtain ⟨hmem, hone⟩ := List.nodup_cons.mp (List.perm_middle.nodup_iff.mp hone)
    rw [← List.map_append] at hmem hone
    refine ⟨hone, ?_, fun q hq => ?_⟩
    · ext c
      simp only [h.busy, hwaiting, Finset.mem_erase, Finset.mem_union, List.mem_toFinset,
        List.map_append, List.map_cons, List.mem_append, List.mem_cons] at hmem ⊢
      constructor
      · tauto
      · rintro (hc | hc)
        · refine ⟨?_, by tauto⟩
          rintro rfl
          exact hmem hc
        · refine ⟨?_, Or.inr hc⟩
          rintro rfl
          exact hapart hc
    · refine h.apart q ?_
      rw [hwaiting]
      exact ((List.sublist_cons_self r after).append_left before).subset hq

theorem Released.drop (h : Released s) (connection : ℕ) : Released (s.drop connection) := by
  refine ⟨?_, ?_, ?_⟩
  · exact h.oneEach.sublist (List.filter_sublist.map _)
  · ext c
    simp only [BatchRun.drop, BatchPolicy.drop, h.busy, Finset.mem_erase, Finset.mem_union,
      List.mem_toFinset, List.mem_map, List.mem_filter, decide_eq_true_eq]
    constructor
    · rintro ⟨hne, ⟨r, hr, rfl⟩ | hrunning⟩
      · exact Or.inl ⟨r, ⟨hr, hne⟩, rfl⟩
      · exact Or.inr ⟨hne, hrunning⟩
    · rintro (⟨r, ⟨hr, hne⟩, rfl⟩ | ⟨hne, hrunning⟩)
      · exact ⟨hne, Or.inl ⟨r, hr, rfl⟩⟩
      · exact ⟨hne, Or.inr hrunning⟩
  · intro r hr hrunning
    exact h.apart r (List.mem_filter.mp hr).1 (Finset.mem_of_mem_erase hrunning)

theorem Released.finished (h : Released s) {connections : List ℕ}
    (hanswers : ∀ r ∈ s.policy.waiting, r.connection ∉ connections) :
    Released (s.finished connections) := by
  refine ⟨h.oneEach, ?_, ?_⟩
  · ext c
    simp only [BatchRun.finished, BatchPolicy.finished, h.busy, Finset.mem_sdiff, Finset.mem_union,
      List.mem_toFinset, List.mem_map]
    constructor
    · rintro ⟨hc | hc, hnot⟩
      · exact Or.inl hc
      · exact Or.inr ⟨hc, hnot⟩
    · rintro (⟨r, hr, rfl⟩ | ⟨hc, hnot⟩)
      · exact ⟨Or.inl ⟨r, hr, rfl⟩, hanswers r hr⟩
      · exact ⟨Or.inr hc, hnot⟩
  · intro r hr hrunning
    exact h.apart r hr (Finset.mem_sdiff.mp hrunning).1

theorem Released.busy_expire (h : Released s) (now : Time) : (s.policy.expire now).busy =
    ((s.policy.expire now).waiting.map Waiting.connection).toFinset ∪ s.running := by
  ext c
  simp only [BatchPolicy.expire, h.busy, Finset.mem_sdiff, Finset.mem_union, List.mem_toFinset,
    List.mem_map, List.mem_filter, decide_eq_true_eq]
  constructor
  · rintro ⟨⟨r, hr, rfl⟩ | hc, hnot⟩
    · exact Or.inl ⟨r, ⟨hr, fun hover => hnot ⟨r, ⟨hr, hover⟩, rfl⟩⟩, rfl⟩
    · exact Or.inr hc
  · rintro (⟨r, ⟨hr, hlive⟩, rfl⟩ | hc)
    · refine ⟨Or.inl ⟨r, hr, rfl⟩, ?_⟩
      rintro ⟨q, ⟨hq, hover⟩, heq⟩
      rw [h.eq_of_connection hq hr heq] at hover
      exact hlive hover
    · refine ⟨Or.inr hc, ?_⟩
      rintro ⟨q, ⟨hq, -⟩, rfl⟩
      exact h.apart q hq hc

/-- The sessions `take` counts as running are those with a request that was taken. -/
theorem Released.running_expire (h : Released s) (now : Time) :
    (s.policy.expire now).running = s.running.card := by
  have hdisjoint : Disjoint ((s.policy.expire now).waiting.map Waiting.connection).toFinset
      s.running := by
    refine Finset.disjoint_left.mpr fun c hc => ?_
    obtain ⟨r, hr, rfl⟩ := List.mem_map.mp (List.mem_toFinset.mp hc)
    exact h.apart r (List.mem_filter.mp hr).1
  unfold BatchPolicy.running
  rw [h.busy_expire, Finset.card_union_of_disjoint hdisjoint]
  omega

theorem Released.oneEach_take (h : Released s) (settings : ServerSettings) (openSessions : ℕ) :
    (((s.policy.take settings s.clock openSessions).1.batch ++
      (s.policy.take settings s.clock openSessions).2.waiting).map Waiting.connection).Nodup := by
  rw [(s.policy.take_spec settings s.clock openSessions).2.1]
  exact h.oneEach.sublist (List.filter_sublist.map _)

theorem Released.take (h : Released s) (openSessions : ℕ) :
    Released (s.take settings openSessions) := by
  obtain ⟨hexpired, hsplit, hbusy⟩ := s.policy.take_spec settings s.clock openSessions
  have hone := h.oneEach_take settings openSessions
  have hlive : ∀ r, r ∈ (s.policy.take settings s.clock openSessions).2.waiting →
      r.connection ∉ s.running := by
    intro r hr
    have hmem := (s.policy.left_suffix settings s.clock openSessions).subset hr
    exact h.apart r (List.mem_filter.mp hmem).1
  have hbusy' : (s.policy.take settings s.clock openSessions).2.busy =
      (((s.policy.take settings s.clock openSessions).1.batch ++
        (s.policy.take settings s.clock openSessions).2.waiting).map
          Waiting.connection).toFinset ∪ s.running := by
    rw [hbusy, hexpired, hsplit]
    exact h.busy_expire s.clock
  rcases s.take_cases settings openSessions with ⟨hbatch, heq⟩ | ⟨-, heq⟩
  · rw [heq]
    rw [hbatch, List.nil_append] at hone hbusy'
    exact ⟨hone, hbusy', hlive⟩
  · rw [heq]
    rw [List.map_append] at hone hbusy'
    obtain ⟨-, hleft, hapart⟩ := List.nodup_append.mp hone
    refine ⟨hleft, ?_, fun r hr => ?_⟩
    · rw [hbusy', List.toFinset_append]
      ext c
      simp only [Finset.mem_union]
      tauto
    · rw [Finset.mem_union, not_or]
      refine ⟨hlive r hr, fun hmem => ?_⟩
      exact hapart _ (List.mem_toFinset.mp hmem) _ (List.mem_map_of_mem hr) rfl

theorem Released.step {s' : BatchRun Payload} {call : BatchCall Payload} (h : Released s)
    (hanswers : s.answersStepped call = true) (hstep : step settings s call = some s') :
    Released s' := by
  cases call with
  | add request =>
    simp only [BatchRun.step, Option.ite_none_right_eq_some] at hstep
    obtain rfl := Option.some.inj hstep.2
    exact h.add request
  | cancel connection requestId =>
    cases hstep
    exact h.cancel connection requestId
  | drop connection =>
    cases hstep
    exact h.drop connection
  | finished connections =>
    cases hstep
    simp only [answersStepped, List.all_eq_true, decide_eq_true_eq] at hanswers
    exact h.finished hanswers
  | take openSessions =>
    cases hstep
    exact h.take openSessions
  | passes clock =>
    simp only [BatchRun.step, Option.ite_none_right_eq_some] at hstep
    obtain rfl := Option.some.inj hstep.2
    exact ⟨h.oneEach, h.busy, h.apart⟩
  | stepped =>
    simp only [BatchRun.step, Option.ite_none_left_eq_some] at hstep
    obtain rfl := Option.some.inj hstep.2
    exact ⟨h.oneEach, h.busy, h.apart⟩

/-! ### Every run -/

/-- What a turn decides and leaves, whatever calls came before. -/
structure Turns (settings : ServerSettings) (s : BatchRun Payload) (openSessions : ℕ) : Prop where
  expired : (s.policy.take settings s.clock openSessions).1.expired =
    s.policy.waiting.filter fun r => r.overdue s.clock
  oldest : (s.policy.take settings s.clock openSessions).1.batch <+:
    s.policy.waiting.filter fun r => ¬ r.overdue s.clock
  inTime : ∀ r ∈ (s.policy.take settings s.clock openSessions).1.batch, r.overdue s.clock = false
  fits : (s.policy.take settings s.clock openSessions).1.batch.length ≤ settings.maxBatch
  /-- The batch may still fill, until the window of the oldest request ends or one expires. -/
  waits : (s.policy.take settings s.clock openSessions).1.batch = [] → ∀ first rest,
    (s.policy.take settings s.clock openSessions).2.waiting = first :: rest →
      s.clock < first.arrived + settings.batchWindow ∧
      ∃ w, (s.policy.take settings s.clock openSessions).1.wakeAt = some w ∧
        IsLeast {w | w = first.arrived + settings.batchWindow ∨
          ∃ r ∈ first :: rest, r.deadline = some w} w

theorem turns (s : BatchRun Payload) (openSessions : ℕ) : Turns settings s openSessions where
  expired := (s.policy.take_spec settings s.clock openSessions).1
  oldest := s.policy.batch_prefix settings s.clock openSessions
  inTime r hr := by
    have hlive := (s.policy.batch_prefix settings s.clock openSessions).subset hr
    simpa using (List.mem_filter.mp hlive).2
  fits := s.policy.length_batch_le settings s.clock openSessions
  waits hbatch first rest hleft := by
    obtain ⟨w, hw, hahead, hwindow⟩ := wakeAt_le hbatch hleft
    refine ⟨hahead.trans_le hwindow, w, hw, ?_⟩
    rcases s.policy.take_cases settings s.clock openSessions with ⟨-, htake⟩ |
      ⟨first', rest', hlive, ⟨-, -, htake⟩ | htake⟩
    · rw [htake] at hw
      cases hw
    · rw [htake] at hw hleft
      simp only [BatchPolicy.expire] at hleft
      rw [hlive] at hleft
      obtain ⟨rfl, rfl⟩ := List.cons.inj hleft
      have hleast := isLeast_foldl_min (first'.arrived + settings.batchWindow)
        ((first' :: rest').filterMap Waiting.deadline)
      rw [hlive] at hw
      rw [← Option.some.inj hw]
      simpa only [List.mem_filterMap] using hleast
    · rw [htake] at hw
      cases hw

/-- What a turn keeps to where the calls of `finished` were about requests that were taken. -/
structure OneEach (settings : ServerSettings) (s : BatchRun Payload) (openSessions : ℕ) :
    Prop where
  batch : ((s.policy.take settings s.clock openSessions).1.batch.map Waiting.connection).Nodup
  /-- A batch that waits to fill is short of `max_batch`, and of the sessions that can send. -/
  fills : (s.policy.take settings s.clock openSessions).1.batch = [] →
    (s.policy.take settings s.clock openSessions).2.waiting ≠ [] →
      (s.policy.take settings s.clock openSessions).2.waiting.length <
        min settings.maxBatch (max (openSessions - s.running.card) 1)

theorem Released.turn (h : Released s) (openSessions : ℕ) : OneEach settings s openSessions where
  batch := by
    have hone := h.oneEach_take settings openSessions
    rw [List.map_append] at hone
    exact (List.nodup_append.mp hone).1
  fills hbatch hleft := by
    rcases s.policy.take_cases settings s.clock openSessions with ⟨hlive, htake⟩ |
      ⟨first, rest, hlive, ⟨hfull, -, htake⟩ | htake⟩
    · rw [htake] at hleft
      exact (hleft hlive).elim
    · rw [htake]
      unfold BatchPolicy.full at hfull
      rw [h.running_expire] at hfull
      dsimp only
      omega
    · rw [htake, hlive] at hbatch
      have hpos := settings.maxBatch_pos
      have hlength : ((first :: rest).take settings.maxBatch).length = 0 :=
        List.length_eq_zero_iff.mpr hbatch
      simp only [List.length_take, List.length_cons] at hlength
      omega

/-- In every order of calls, a queued request waits or left in one way, and the requests wait in
the order they arrived in.  A turn takes the oldest of those in time, and names the time to ask
again while a batch fills; if `finished` was only told of requests that were taken, it takes one of
each session and does not wait for a session that cannot send.  A thread that asks again in time
and runs no batch lets no request wait on after its window. -/
theorem batched {clock : Time} {ls : List (BatchCall Payload)} {s : BatchRun Payload}
    (hrun : (transitions settings clock).run ls = some s) :
    (s.accepted.Perm
        (s.policy.waiting ++ s.batches.flatten ++ s.expired ++ s.cancelled ++ s.dropped) ∧
      s.policy.waiting.Sublist s.accepted ∧
      s.policy.waiting.Pairwise fun earlier later => earlier.arrived ≤ later.arrived) ∧
    (∀ openSessions, Turns settings s openSessions) ∧
    ((transitions settings clock).AllSteps (fun s call => s.answersStepped call) ls →
      ∀ openSessions, OneEach settings s openSessions) ∧
    ((transitions settings clock).AllSteps (fun s call => s.asksInTime call) ls →
      ∀ now, s.clock < now → s.asksInTime (.passes now) = true → s.free = true →
        ∀ r ∈ s.policy.waiting, now ≤ r.arrived + settings.batchWindow) := by
  have hconserved : Conserved s := conserved ⟨ls, hrun⟩
  refine ⟨⟨?_, hconserved.inOrder, hconserved.arrived.sublist hconserved.inOrder⟩, s.turns, ?_, ?_⟩
  · classical
    refine List.perm_iff_count.mpr fun r => ?_
    have hcounts := hconserved.counts (· == r)
    simp only [List.count, List.countP_append]
    exact hcounts
  · intro hall openSessions
    have hreleased : Released s := hall.invariant (I := Released) (Released.start clock)
      (fun s call s' hs hanswers hstep => hs.step hanswers hstep) hrun
    exact hreleased.turn openSessions
  · intro hall now hpasses hasks hfree r hr
    have hboth : Conserved s ∧ Asked settings s := hall.invariant
      (I := fun s => Conserved s ∧ Asked settings s)
      ⟨Conserved.start clock, Asked.start clock⟩
      (fun s call s' hs hasks hstep => ⟨hs.1.step hstep, hs.2.step hs.1 hasks hstep⟩) hrun
    obtain ⟨w, hw⟩ := Option.isSome_iff_exists.mp
      (hboth.2.asks hfree (List.ne_nil_of_mem hr))
    have hle : now ≤ w := by
      simp only [asksInTime] at hasks
      rw [hw] at hasks
      simpa using hasks
    rcases hboth.2.inTime w hw with hnow | ⟨q, -, hwindow, hold⟩
    · exact absurd (hpasses.trans_le hle) (not_lt.mpr hnow)
    · exact hle.trans (hwindow.trans (Int.add_le_add_right (hold r hr) _))

/-- A batch of two may wait for five units of time. -/
def twoSettings : ServerSettings := ⟨2, 5, by decide, by decide⟩

/-- A request waits for its window, is stepped and answered, and another one comes. -/
def windowRun : List (BatchCall String) :=
  [.add ⟨1, 1, "a", 0, some 9⟩, .take 2, .passes 5, .take 2, .finished [1], .stepped, .take 2,
    .add ⟨2, 1, "b", 5, none⟩, .take 2]

theorem isSome_windowRun : ((transitions twoSettings 0).run windowRun).isSome := rfl

theorem batched_windowRun :
    OneEach twoSettings (((transitions twoSettings 0).run windowRun).get isSome_windowRun) 2 ∧
      ∀ now, 5 < now → now ≤ 10 → ∀ r ∈
        (((transitions twoSettings 0).run windowRun).get isSome_windowRun).policy.waiting,
          now ≤ r.arrived + 5 := by
  obtain ⟨-, -, honeEach, hasks⟩ := batched (Option.some_get isSome_windowRun).symm
  refine ⟨honeEach (by decide +kernel) 2, fun now hnow hdue => ?_⟩
  refine hasks (by decide +kernel) now hnow ?_ (by decide +kernel)
  exact decide_eq_true hdue

/-- `finished` is told of a session whose request waits, and the session sends a second one. -/
def releasedRun : List (BatchCall String) :=
  [.add ⟨1, 1, "a", 0, none⟩, .finished [1], .add ⟨1, 2, "b", 0, none⟩]

theorem not_batched : ∃ s, (transitions twoSettings 0).run releasedRun = some s ∧
    (s.policy.take twoSettings s.clock 2).1.batch.map Waiting.connection = [1, 1] := by
  have hany : (((transitions twoSettings 0).run releasedRun).any fun s =>
      (s.policy.take twoSettings s.clock 2).1.batch.map Waiting.connection == [1, 1]) = true := by
    decide +kernel
  obtain ⟨s, hs, htwo⟩ := (Option.any_eq_true _ _).mp hany
  exact ⟨s, hs, by simpa using htwo⟩

end BatchRun

end ReactorRuntime.ModelServer
