import ReactorRuntime.ModelServer.Batching

/-!
# What the batching policy does to its requests

One theorem for each operation of `BatchPolicy`, with everything it does: later proofs cite these
and do not unfold the policy.
-/

namespace ReactorRuntime.ModelServer.BatchPolicy

variable {Payload : Type*} {policy policy' : BatchPolicy Payload}

theorem add_eq_some {request : Waiting Payload} : policy.add request = some policy' ↔
    request.connection ∉ policy.busy ∧
      policy' = ⟨policy.waiting ++ [request], insert request.connection policy.busy⟩ := by
  unfold add
  split_ifs with h
  · simp [h]
  · simp [h, eq_comm]

theorem add_eq_none {request : Waiting Payload} :
    policy.add request = none ↔ request.connection ∈ policy.busy := by
  unfold add
  split_ifs with h <;> simp [h]

theorem cancel_eq_some {c requestId : ℕ} (h : policy.cancel c requestId = some policy') :
    ∃ before request after, policy.waiting = before ++ request :: after ∧
      request.connection = c ∧ request.requestId = requestId ∧
      policy' = ⟨before ++ after, policy.busy.erase c⟩ := by
  unfold cancel at h
  split_ifs at h with hany
  cases h
  obtain ⟨a, ha, hnamed⟩ := List.any_eq_true.mp hany
  obtain ⟨request, before, after, -, hrequest, hwaiting, herase⟩ := List.exists_of_eraseP ha hnamed
  refine ⟨before, request, after, hwaiting, ?_, ?_, by rw [herase]⟩
  · exact (of_decide_eq_true hrequest).1
  · exact (of_decide_eq_true hrequest).2

theorem take_spec (policy : BatchPolicy Payload) (settings : ServerSettings) (now : Time)
    (openSessions : ℕ) :
    (policy.take settings now openSessions).1.expired =
        policy.waiting.filter (Waiting.overdue now) ∧
      (policy.take settings now openSessions).1.batch ++
          (policy.take settings now openSessions).2.waiting =
        policy.waiting.filter (fun r => ¬ r.overdue now) ∧
      (policy.take settings now openSessions).2.busy =
        policy.busy \ ((policy.take settings now openSessions).1.expired.map
          Waiting.connection).toFinset := by
  unfold take expire
  dsimp only
  split
  · next h => exact ⟨rfl, h.symm ▸ rfl, rfl⟩
  · split_ifs
    · exact ⟨rfl, rfl, rfl⟩
    · exact ⟨rfl, List.take_append_drop _ _, rfl⟩

/-- A request that waited is expired, or taken, or waits still. -/
theorem count_take (policy : BatchPolicy Payload) (settings : ServerSettings) (now : Time)
    (openSessions : ℕ) (p : Waiting Payload → Bool) :
    policy.waiting.countP p =
      (policy.take settings now openSessions).1.expired.countP p +
        ((policy.take settings now openSessions).1.batch.countP p +
          (policy.take settings now openSessions).2.waiting.countP p) := by
  obtain ⟨hexpired, hbatch, -⟩ := policy.take_spec settings now openSessions
  rw [← List.countP_append, hbatch, hexpired,
    List.countP_eq_countP_filter_add policy.waiting p (Waiting.overdue now)]
  simp

end ReactorRuntime.ModelServer.BatchPolicy
