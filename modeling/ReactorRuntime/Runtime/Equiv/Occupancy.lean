import ReactorRuntime.Runtime.Equiv.Acts

/-!
# The occupancy of a session

The machine counts the connections that occupy the session, the manager holds the connections
themselves, and the two are told by different calls.  `Occupancy` is what the actions preserve
(`Occupancy.act`): while the session runs the counts agree, and a teardown empties the registry
before it lets the session be ready again.

Main result: `occupancy`.
-/

namespace ReactorRuntime.Runtime

namespace Runner

variable {recording : Bool} {r r' : Runner}

/-- The machine, the registry and the teardowns agree on who is connected. -/
structure Occupancy (r : Runner) : Prop where
  consistent : r.connections.Consistent
  live : r.machine.state.isRunning → r.machine.live = r.connections.occupants
  streaming : r.machine.state.isRunning →
    (r.machine.state = .streaming ↔ 0 < r.connections.occupants)
  idle : r.machine.state = .created ∨ r.machine.state = .ready → r.connections.byId = ∅
  teardowns : r.machine.state ≠ .terminated →
    r.teardowns.length ≤ if r.machine.state = .closing then 1 else 0
  cleared : r.machine.state = .closing → ∀ task ∈ r.teardowns, task.cleared →
    r.connections.byId = ∅
  offered : r.Offered

theorem occupancy_init : Occupancy {} where
  consistent := ConnectionManager.consistent_clear (m := {})
  live h := absurd h (by decide)
  streaming h := absurd h (by decide)
  idle _ := rfl
  teardowns _ := le_rfl
  cleared h := absurd h (by decide)
  offered _ := rfl

namespace Occupancy

theorem teardowns_eq_nil (h : Occupancy r) (hterminated : r.machine.state ≠ .terminated)
    (hclosing : r.machine.state ≠ .closing) : r.teardowns = [] := by
  have := h.teardowns hterminated
  rw [if_neg hclosing] at this
  exact List.length_eq_zero_iff.mp (Nat.le_zero.mp this)

theorem ne_of_isRunning {state : SessionState} (h : state.isRunning) :
    state ≠ .created ∧ state ≠ .ready ∧ state ≠ .closing ∧ state ≠ .terminated := by
  cases state <;> first | exact absurd h (by decide) | decide

/-- Where no session runs and none can begin, only the tables have to be consistent. -/
theorem of_terminated (hconsistent : r.connections.Consistent)
    (hterminated : r.machine.state = .terminated) : Occupancy r where
  consistent := hconsistent
  live h := by rw [hterminated] at h; cases h
  streaming h := by rw [hterminated] at h; cases h
  idle h := by rw [hterminated] at h; rcases h with h | h <;> cases h
  teardowns h := absurd hterminated h
  cleared h := by rw [hterminated] at h; cases h
  offered h := by rw [hterminated] at h; cases h

/-- The invariant in a session that runs. -/
theorem of_isRunning (hconsistent : r.connections.Consistent)
    (hrunning : r.machine.state.isRunning) (hteardowns : r.teardowns = [])
    (hlive : r.machine.live = r.connections.occupants)
    (hstreaming : r.machine.state = .streaming ↔ 0 < r.connections.occupants) : Occupancy r := by
  obtain ⟨hcreated, hready, hclosing, -⟩ := ne_of_isRunning hrunning
  exact
    { consistent := hconsistent
      live := fun _ => hlive
      streaming := fun _ => hstreaming
      idle := fun h => (h.elim hcreated hready).elim
      teardowns := fun _ => by rw [hteardowns]; exact Nat.zero_le _
      cleared := fun h => absurd h hclosing
      offered := fun h => absurd h hcreated }

/-- The invariant in a session that is torn down. -/
theorem of_closing (hconsistent : r.connections.Consistent)
    (hclosing : r.machine.state = .closing) (hteardowns : r.teardowns.length ≤ 1)
    (hcleared : ∀ task ∈ r.teardowns, task.cleared → r.connections.byId = ∅) : Occupancy r where
  consistent := hconsistent
  live h := by rw [hclosing] at h; cases h
  streaming h := by rw [hclosing] at h; cases h
  idle h := by rw [hclosing] at h; rcases h with h | h <;> cases h
  teardowns _ := by rw [if_pos hclosing]; exact hteardowns
  cleared _ := hcleared
  offered h := by rw [hclosing] at h; cases h

/-- The invariant where no session has begun. -/
theorem of_idle (hconsistent : r.connections.Consistent)
    (hidle : r.machine.state = .created ∨ r.machine.state = .ready)
    (hempty : r.connections.byId = ∅) (hteardowns : r.teardowns = []) (hoffered : r.Offered) :
    Occupancy r where
  consistent := hconsistent
  live h := by rcases hidle with hidle | hidle <;> rw [hidle] at h <;> cases h
  streaming h := by rcases hidle with hidle | hidle <;> rw [hidle] at h <;> cases h
  idle _ := hempty
  teardowns _ := by rw [hteardowns]; exact Nat.zero_le _
  cleared h := by rcases hidle with hidle | hidle <;> rw [hidle] at h <;> cases h
  offered := hoffered

theorem of_eq (h : Occupancy r) (hmachine : r'.machine = r.machine)
    (hconnections : r'.connections = r.connections) (hteardowns : r'.teardowns = r.teardowns)
    (hoffered : r'.Offered) : Occupancy r' where
  consistent := by rw [hconnections]; exact h.consistent
  live := by rw [hmachine, hconnections]; exact h.live
  streaming := by rw [hmachine, hconnections]; exact h.streaming
  idle := by rw [hmachine, hconnections]; exact h.idle
  teardowns := by rw [hmachine, hteardowns]; exact h.teardowns
  cleared := by rw [hmachine, hteardowns, hconnections]; exact h.cleared
  offered := hoffered

/-! ### The machine moves -/

theorem event (h : Occupancy r) {event : SessionEvent} {machine : SessionStateMachine}
    (detail : Detail) (hconnection : event.isConnection = false) (hstart : event ≠ .startSession)
    (hcleanup : event ≠ .cleanupComplete) (hsend : r.machine.send event = some machine) :
    Occupancy (r.move recording machine event detail) := by
  rcases SessionStateMachine.send_eq_some_cases hconnection hstart hcleanup hsend with
    rfl | ⟨hcreated, hmachine⟩ | ⟨hrunning, rfl⟩ | rfl
  · -- a fact of the journal
    apply h.of_eq (machine_move ..) (connections_move ..) (teardowns_move_of_eq _ _ _ _ _ rfl)
    intro hcreated
    rw [offers_move]
    exact h.offered (by rwa [machine_move] at hcreated)
  · -- the model loads
    have hidle : machine.state = .created ∨ machine.state = .ready := by
      rcases hmachine with rfl | rfl
      · exact .inr rfl
      · exact .inl rfl
    have hmove := machine_move recording r machine event detail
    apply of_idle
    · rw [connections_move]
      exact h.consistent
    · rw [hmove]
      exact hidle
    · rw [connections_move]
      exact h.idle (.inl hcreated)
    · rw [teardowns_move_of_not_end]
      · exact h.teardowns_eq_nil (by rw [hcreated]; decide) (by rw [hcreated]; decide)
      · rcases hidle with hidle | hidle <;> rw [hidle] <;> decide
      · rcases hidle with hidle | hidle <;> rw [hidle] <;> decide
    · intro _
      rw [offers_move]
      exact h.offered hcreated
  · -- the session ends: its teardown is spawned
    obtain ⟨-, -, hclosing, hterminated⟩ := ne_of_isRunning hrunning
    have hteardowns := teardowns_move_of_closing recording r { state := .closing } event detail
      hclosing rfl
    rw [h.teardowns_eq_nil hterminated hclosing, List.nil_append] at hteardowns
    apply of_closing
    · rw [connections_move]
      exact h.consistent
    · rw [machine_move]
    · rw [hteardowns]
      exact le_rfl
    · intro task htask hcleared
      rw [hteardowns, List.mem_singleton] at htask
      rw [htask] at hcleared
      cases hcleared
  · exact of_terminated (by rw [connections_move]; exact h.consistent) (by rw [machine_move])

theorem started (h : Occupancy r) (hready : r.machine.state = .ready) (params : SessionParams)
    (drawn : Drawn) : Occupancy (r.started recording params drawn) := by
  have hempty := h.idle (.inr hready)
  have hoccupants := ConnectionManager.occupants_eq_zero_of_empty hempty
  apply of_isRunning
  · rw [Runner.started, connections_move]
    exact h.consistent
  · rw [Runner.started, machine_move]
    rfl
  · rw [Runner.started, teardowns_move_of_not_end _ _ _ _ _ (by decide) (by decide)]
    exact h.teardowns_eq_nil (by rw [hready]; decide) (by rw [hready]; decide)
  · rw [Runner.started, machine_move, connections_move, hoccupants]
  · rw [Runner.started, machine_move, connections_move, hoccupants]
    decide

/-! ### A connection -/

theorem register (h : Occupancy r) (conn : Connection) (system occupies : Bool)
    (hrunning : r.machine.state.isRunning) :
    Occupancy (r.register recording conn system occupies) := by
  obtain ⟨-, -, hclosing, hterminated⟩ := ne_of_isRunning hrunning
  have hteardowns := h.teardowns_eq_nil hterminated hclosing
  by_cases hmem : conn.id ∈ r.connections.byId
  · rw [register_of_mem hmem]
    refine of_isRunning (h.consistent.replace hmem) hrunning hteardowns ?_ ?_
    · show r.machine.live = (r.connections.replace conn).occupants
      rw [ConnectionManager.occupants_replace hmem]
      exact h.live hrunning
    · show r.machine.state = .streaming ↔ 0 < (r.connections.replace conn).occupants
      rw [ConnectionManager.occupants_replace hmem]
      exact h.streaming hrunning
  · rw [register_of_not_mem hmem hrunning]
    have hopened : (opened r.machine occupies).state.isRunning := by
      unfold opened
      split_ifs
      · rfl
      · exact hrunning
    apply of_isRunning
    · rw [connections_move]
      exact h.consistent.add
    · rw [machine_move]
      exact hopened
    · obtain ⟨-, -, hclosing, hterminated⟩ := ne_of_isRunning hopened
      rw [teardowns_move_of_not_end _ _ _ _ _ hclosing hterminated]
      exact hteardowns
    · rw [machine_move, connections_move, ConnectionManager.occupants_add h.consistent hmem,
        ← h.live hrunning]
      cases occupies <;> rfl
    · rw [machine_move, connections_move, ConnectionManager.occupants_add h.consistent hmem]
      cases occupies with
      | true =>
        rw [opened, if_pos rfl, if_pos rfl]
        exact ⟨fun _ => Nat.succ_pos _, fun _ => rfl⟩
      | false =>
        rw [opened, if_neg (by decide), if_neg (by decide)]
        exact h.streaming hrunning

theorem told (h : Occupancy r) {cid : ConnId} (hmem : cid ∈ r.connections.byId)
    (hrunning : r.machine.state.isRunning) :
    r.machine.state = .streaming ∨
      r.machine.state.isRunning ∧ cid ∈ r.connections.unoccupying := by
  by_cases hoccupies : cid ∈ r.connections.unoccupying
  · exact .inr ⟨hrunning, hoccupies⟩
  · have hoccupants := ConnectionManager.occupants_remove hmem
    rw [if_pos hoccupies] at hoccupants
    exact .inl ((h.streaming hrunning).mpr (by omega))

theorem drop (h : Occupancy r) (cid : ConnId) : Occupancy (r.drop recording cid) := by
  by_cases hmem : cid ∈ r.connections.byId
  swap
  · rw [drop_of_not_mem hmem]
    exact h
  obtain ⟨detail, -, hdrop⟩ := drop_of_mem recording h.consistent hmem
  have hoccupants := ConnectionManager.occupants_remove hmem
  have hempty : r.connections.byId ≠ ∅ := by
    intro hempty
    rw [hempty] at hmem
    exact AList.notMem_empty cid hmem
  rw [hdrop]
  by_cases hrunning : r.machine.state.isRunning = true
  · obtain ⟨-, -, hclosing, hterminated⟩ := ne_of_isRunning hrunning
    have hlive := h.live hrunning
    have hstreaming := h.streaming hrunning
    rw [if_pos (h.told hmem hrunning)]
    have hclosed : (closed r.machine (cid ∉ r.connections.unoccupying)).state.isRunning := by
      unfold closed
      split_ifs
      · rfl
      · rfl
      · exact hrunning
    apply of_isRunning
    · rw [connections_move]
      exact h.consistent.remove
    · rw [machine_move]
      exact hclosed
    · obtain ⟨-, -, hclosing', hterminated'⟩ := ne_of_isRunning hclosed
      rw [teardowns_move_of_not_end _ _ _ _ _ hclosing' hterminated']
      exact h.teardowns_eq_nil hterminated hclosing
    · rw [machine_move, connections_move]
      show (closed r.machine (cid ∉ r.connections.unoccupying)).live =
        (r.connections.remove cid).occupants
      by_cases hoccupies : cid ∈ r.connections.unoccupying
      · rw [if_neg (not_not.mpr hoccupies)] at hoccupants
        rw [closed, if_neg (by simpa using hoccupies)]
        omega
      · rw [if_pos hoccupies] at hoccupants
        rw [closed, if_pos (by simpa using hoccupies)]
        show r.machine.live - 1 = _
        omega
    · rw [machine_move, connections_move]
      show (closed r.machine (cid ∉ r.connections.unoccupying)).state = .streaming ↔
        0 < (r.connections.remove cid).occupants
      by_cases hoccupies : cid ∈ r.connections.unoccupying
      · rw [if_neg (not_not.mpr hoccupies)] at hoccupants
        rw [closed, if_neg (by simpa using hoccupies), hstreaming]
        omega
      · rw [if_pos hoccupies] at hoccupants
        rw [closed, if_pos (by simpa using hoccupies)]
        show (if r.machine.live ≤ 1 then SessionState.orphaned else .streaming) = .streaming ↔ _
        split_ifs with hlast
        · exact ⟨False.elim, fun _ => by omega⟩
        · exact ⟨fun _ => by omega, fun _ => rfl⟩
  · -- no session runs: the registry changes only while a session is torn down, or after the end
    rw [if_neg]
    swap
    · rintro (hstreaming | ⟨hrun, -⟩)
      · rw [hstreaming] at hrunning
        exact hrunning rfl
      · exact hrunning hrun
    constructor
    case consistent => exact h.consistent.remove
    case live => exact fun h => absurd h hrunning
    case streaming => exact fun h => absurd h hrunning
    case idle => exact fun hidle => absurd (h.idle hidle) hempty
    case teardowns => exact h.teardowns
    case cleared =>
      exact fun hclosing task htask hcleared =>
        absurd (h.cleared hclosing task htask hcleared) hempty
    case offered => exact h.offered

/-! ### A teardown -/

/-- The registry is emptied while a session closes, or after the runner's end. -/
theorem clear (h : Occupancy r) {i : ℕ} {task : Teardown} (hi : r.teardowns[i]? = some task) :
    Occupancy { r with
      connections := r.connections.clear
      teardowns := r.teardowns.set i { task with cleared := true } } := by
  by_cases hterminated : r.machine.state = .terminated
  · exact of_terminated (ConnectionManager.consistent_clear (m := r.connections)) hterminated
  · have hclosing : r.machine.state = .closing := by
      by_contra hclosing
      rw [h.teardowns_eq_nil hterminated hclosing] at hi
      cases hi
    have hlength := h.teardowns hterminated
    rw [if_pos hclosing] at hlength
    refine of_closing (ConnectionManager.consistent_clear (m := r.connections)) hclosing ?_ ?_
    · show (r.teardowns.set i _).length ≤ 1
      rwa [List.length_set]
    · intro _ _ _
      rfl

theorem cleanup (h : Occupancy r) {i : ℕ} {task : Teardown} {machine : SessionStateMachine}
    (reason : EndReason) (hi : r.teardowns[i]? = some task) (hcleared : task.cleared = true)
    (hsend : r.machine.send .cleanupComplete = some machine) :
    Occupancy { r.move recording machine .cleanupComplete (.ending reason "") with
      teardowns := r.teardowns.eraseIdx i } := by
  obtain ⟨hclosing, rfl⟩ := SessionStateMachine.send_cleanup_eq_some hsend
  have hlength := h.teardowns (by rw [hclosing]; decide)
  rw [if_pos hclosing] at hlength
  obtain ⟨hlt, htask⟩ := List.getElem?_eq_some_iff.mp hi
  have hempty := h.cleared hclosing task (List.mem_of_getElem? hi) hcleared
  refine of_idle ?_ (.inr ?_) ?_ ?_ ?_
  · show (r.move recording _ _ _).connections.Consistent
    rw [connections_move]
    exact h.consistent
  · show (r.move recording _ _ _).machine.state = .ready
    rw [machine_move]
  · show (r.move recording _ _ _).connections.byId = ∅
    rw [connections_move]
    exact hempty
  · show r.teardowns.eraseIdx i = []
    apply List.length_eq_zero_iff.mp
    rw [List.length_eraseIdx_of_lt hlt]
    omega
  · intro hcreated
    have hcreated : (r.move recording { state := .ready } .cleanupComplete
      (.ending reason "")).machine.state = .created := hcreated
    rw [machine_move] at hcreated
    cases hcreated

theorem discard (h : Occupancy r) (i : ℕ) :
    Occupancy { r with teardowns := r.teardowns.eraseIdx i } where
  consistent := h.consistent
  live := h.live
  streaming := h.streaming
  idle := h.idle
  teardowns hterminated :=
    (List.length_eraseIdx_le r.teardowns i).trans (h.teardowns hterminated)
  cleared hclosing task htask :=
    h.cleared hclosing task (List.mem_of_mem_eraseIdx htask)
  offered := h.offered

/-! ### A run -/

theorem act (h : Occupancy r) {cause : Cause} (hact : Act recording cause r r') : Occupancy r' := by
  cases hact with
  | same hsame =>
    exact h.of_eq hsame.machine hsame.connections hsame.teardowns (hsame.offered h.offered)
  | event detail hconnection hstart hcleanup hsend =>
    exact h.event detail hconnection hstart hcleanup hsend
  | register conn system occupies hrunning => exact h.register conn system occupies hrunning
  | drop cid => exact h.drop cid
  | clear hi _ => exact h.clear hi
  | cleanup reason hi hcleared _ hsend => exact h.cleanup reason hi hcleared hsend
  | discard => exact h.discard _

end Occupancy

theorem isInvariant_occupancy : (runner recording).IsInvariant Occupancy := by
  refine isInvariant_of_acts occupancy_init (fun r h => h.offered) (fun _ r r' h => h.act)
    (fun r params drawn h hready => h.started hready params drawn) ?_
  intro r stop r' h hnext
  simp only [next] at hnext
  split at hnext
  · cases hnext
  · cases hnext
    exact h.of_eq rfl rfl rfl h.offered

/-- While a session runs the machine's count is the number of registered connections that occupy
it, and the session streams exactly when there is one.  The registry's tables are about the same
connections, and no connection is registered while no session has begun. -/
theorem occupancy (h : (runner recording).Reachable r) :
    (r.machine.state.isRunning → r.machine.live = r.connections.occupants ∧
      (r.machine.state = .streaming ↔ 0 < r.connections.occupants)) ∧
    (∀ cid, cid ∈ r.connections.byId ↔ cid ∈ r.connections.details) ∧
    (∀ cid ∈ r.connections.unoccupying, cid ∈ r.connections.byId) ∧
    (r.machine.state = .ready → r.connections.byId = ∅) := by
  have hr := isInvariant_occupancy.of_reachable h
  refine ⟨fun hrunning => ⟨hr.live hrunning, hr.streaming hrunning⟩, ?_, ?_, ?_⟩
  · exact fun cid => (hr.consistent.details cid).symm
  · exact hr.consistent.unoccupying
  · exact fun hready => hr.idle (.inr hready)


def joinedRun : List Label :=
  [.initialized true, .startSession { start := { startingInput := some [] } } { uuid := "" },
    .offerAdmitted 1, .connectionOpened { id := 1 }]

theorem isSome_joinedRun : ((runner true).run joinedRun).isSome := rfl

/-- The system client is registered with the client, and does not count. -/
theorem occupancy_joined :
    let r := ((runner true).run joinedRun).get isSome_joinedRun
    r.connections.count = 2 ∧ r.machine.live = r.connections.occupants ∧
      (r.machine.state = .streaming ↔ 0 < r.connections.occupants) :=
  ⟨by decide +kernel,
    (occupancy (TransitionSystem.reachable_get joinedRun isSome_joinedRun)).1 (by decide +kernel)⟩

end Runner

end ReactorRuntime.Runtime
