import ReactorRuntime.ModelServer.Equiv.Connection

/-!
# Results stay in their generation

* `Connection.genuine`: what was posted as a result was produced in the slot and the generation the
  connection had at that moment.
* `generation_isolation`: this, for every connection, and what becomes of the requests of an earlier
  generation.
-/

namespace ReactorRuntime.ModelServer

variable {Payload Output : Type*}

/-- A message that was posted is the outcome of a request of its slot and generation, or no result
at all. -/
structure Posted.Genuine (posted : Posted Payload Output) : Prop where
  produced : posted.message.plain ∨ posted.producer.isSome
  current : ∀ request ∈ posted.producer, posted.slot = some request.slot ∧
    posted.generation = request.generation

/-- Everything that was posted is genuine, and the reader posts no result. -/
structure Connection.Genuine (k : Connection Payload Output) : Prop where
  posted : ∀ posted ∈ k.history.posted, posted.Genuine
  replies : ∀ message ∈ k.replies, message.plain

namespace Connection

variable {k : Connection Payload Output} {message : ToSession Output}
  {producer : Option (ServerRequest Payload)}

theorem Genuine.enqueue (h : k.Genuine)
    (hposted : Posted.Genuine ⟨message, k.slot, k.generation, producer⟩) :
    (k.enqueue message producer).Genuine where
  posted posted hp := by
    obtain hp | hp := List.mem_append.mp hp
    · exact h.posted posted hp
    · obtain rfl := List.mem_singleton.mp hp
      exact hposted
  replies := h.replies

theorem Genuine.answer (h : k.Genuine)
    (hposted : Posted.Genuine ⟨message, k.slot, k.generation, producer⟩) :
    (k.answer message producer).Genuine := by
  rw [answer_eq]
  split_ifs
  · exact h
  · exact ⟨h.posted, h.replies⟩
  · exact h.enqueue hposted

theorem Genuine.offer (h : k.Genuine)
    (hposted : (⟨message, k.slot, k.generation, none⟩ : Posted Payload Output).Genuine) :
    (k.offer message).Genuine := by
  rw [offer_eq]
  split_ifs
  · exact h
  · exact h.enqueue hposted

theorem genuine : IsInvariant (Genuine : Connection Payload Output → Prop) where
  init := ⟨nofun, nofun⟩
  step k k' h hstep := by
    have plain {message : ToSession Output} (hplain : message.plain) :
        Posted.Genuine (⟨message, k.slot, k.generation, none⟩ : Posted Payload Output) :=
      ⟨.inl hplain, nofun⟩
    cases hstep with
    | set state slot generation sessionId linkClosed reader => exact ⟨h.posted, h.replies⟩
    | answer message hplain => exact h.answer (plain hplain)
    | offer message hplain => exact h.offer (plain hplain)
    | outcome message request slot generation =>
      refine h.answer ⟨.inr rfl, fun r hr => ?_⟩
      cases hr
      exact ⟨slot, generation⟩
    | reply message replies holds =>
      have hreplies := h.replies
      rw [holds, List.forall_mem_cons] at hreplies
      have h' : Genuine { k with replies } := ⟨h.posted, hreplies.2⟩
      exact h'.answer (plain hreplies.1)
    | refuse message hplain =>
      refine ⟨h.posted, List.forall_mem_append.mpr ⟨h.replies, ?_⟩⟩
      simpa using hplain
    | record received resets accepted withdrawn => exact ⟨h.posted, h.replies⟩
    | close =>
      refine ⟨?_, ?_⟩
      · rw [history_close]
        exact h.posted
      · rw [replies_close]
        exact h.replies
    | write _ outcome writes =>
      obtain ⟨_, _, _, _, _, -, -, rfl⟩ := write_eq_some writes
      exact ⟨h.posted, h.replies⟩

end Connection

theorem View.Reached.pending {cfg : Config} {v : View Payload Output} (h : v.Reached cfg)
    {item : Pending Payload} (hitem : item ∈ v.core.pending) (hdetached : ¬ item.detached) :
    item.request.generation = (v.core.conns item.connection).generation ∧
      (v.core.conns item.connection).slot = some item.request.slot ∧
      v.core.bySlot item.request.slot = some item.connection := by
  obtain ⟨hgeneration, hslot⟩ := h.held.busy.current item hitem hdetached
  have hregistered : item.connection ∈ v.core.sessions.connections :=
    h.held.busy.pending_registered hitem hdetached
  obtain ⟨slot, hcs⟩ := h.registry.slotted item.connection (.inr hregistered)
  have hslotOf : v.core.sessions.slotOf item.connection = slot := congrArg (Option.getD · 0) hcs
  obtain rfl : item.request.slot = slot := hslot.trans hslotOf
  exact ⟨hgeneration, hcs, (h.registry.bySlot _ _).mpr ⟨hregistered, hcs⟩⟩

/-- Finishing a request its session is not held for changes no connection and releases nobody. -/
theorem Core.resolve_detached {core : Core Payload Output} {ticket : ℕ} {item : Pending Payload}
    (hitem : core.pendingOf ticket = some item) (hdetached : item.detached)
    (futureEnd : Core.FutureEnd Output) :
    (core.resolve ticket futureEnd).conns = core.conns ∧
      (core.resolve ticket futureEnd).policy = core.policy := by
  have hanswers : ¬ core.answers item := fun ha => by
    simpa [Pending.awaited, hdetached] using ha.1
  unfold Core.resolve Core.completeTicket
  rw [hitem]
  dsimp only
  rw [Core.complete_eq, if_neg hanswers, if_pos hdetached]
  exact ⟨rfl, rfl⟩

/-- Every result was produced by a request of the slot and the generation its connection had when it
was posted, every request in `step()` is one of its connection's current generation, and a future
of an earlier generation, or of a connection that does not hold its slot any more, neither answers
nor releases a session. -/
theorem generation_isolation {cfg : Config} {s : Server Payload Output}
    (h : (server cfg).Reachable s) :
    (∀ c, ∀ posted ∈ (s.core.conns c).history.posted, ∀ requestId output,
      posted.message = .result requestId output → ∃ request, posted.producer = some request ∧
        posted.slot = some request.slot ∧ posted.generation = request.generation) ∧
    (∀ items, s.step = .stepping items → ∀ item ∈ items,
      item.request.generation = (s.core.conns item.connection).generation ∧
        (s.core.conns item.connection).slot = some item.request.slot) ∧
    ∀ ticket item futureEnd, s.core.pendingOf ticket = some item →
      item.request.generation ≠ (s.core.conns item.connection).generation ∨
        s.core.bySlot item.request.slot ≠ some item.connection →
      (s.core.resolve ticket futureEnd).conns = s.core.conns ∧
        (s.core.resolve ticket futureEnd).policy = s.core.policy := by
  have hreached : s.view.Reached cfg := ⟨s, h, rfl⟩
  refine ⟨fun c posted hposted requestId output hmessage => ?_, fun items hitems item hitem => ?_,
    fun ticket item futureEnd hitem hearlier => ?_⟩
  · have hgenuine := (hreached.connection Connection.genuine c).posted posted hposted
    have hplain : ¬ posted.message.plain := by simp [hmessage, ToSession.plain]
    obtain ⟨request, hrequest⟩ :=
      Option.isSome_iff_exists.mp (hgenuine.produced.resolve_left hplain)
    exact ⟨request, hrequest, hgenuine.current request hrequest⟩
  · have hstepping : item ∈ s.view.items := by rwa [Server.view, hitems]
    have hpending := ((hreached.held.busy.stepping item).mp hstepping).1
    have hdetached := (hreached.held.busy.unanswered item hstepping).2
    obtain ⟨hgeneration, hslot, -⟩ := hreached.pending hpending (by simp [hdetached])
    exact ⟨hgeneration, hslot⟩
  · refine Core.resolve_detached hitem ?_ futureEnd
    by_contra hdetached
    obtain ⟨hgeneration, -, hslot⟩ :=
      hreached.pending (Core.mem_of_pendingOf hitem) hdetached
    exact hearlier.elim (fun hne => hne hgeneration) fun hne => hne hslot

/-- A session opens and sends a step, which is stepped and gives a value. -/
def resultRun : List (Label Unit Unit) :=
  openRun Unit Unit ++ .receive 1 (.step ⟨0, none, ()⟩) ::
    List.replicate 3 (.stepThread .returned) ++ [.stepReturn (.outputs [.done (.value ())])]

theorem isSome_resultRun : ((server Config.single).run resultRun).isSome := rfl

/-- The result was posted in the first generation of slot 0, and is a request's of that one. -/
theorem generation_isolation_result :
    ∃ request : ServerRequest Unit, some (⟨0, 1, (), none⟩ : ServerRequest Unit) = some request ∧
      some 0 = some request.slot ∧ 1 = request.generation :=
  (generation_isolation (TransitionSystem.reachable_get resultRun isSome_resultRun)).1 1
    ⟨.result 0 (), some 0, 1, some ⟨0, 1, (), none⟩⟩ (by decide +kernel) 0 () rfl

end ReactorRuntime.ModelServer
