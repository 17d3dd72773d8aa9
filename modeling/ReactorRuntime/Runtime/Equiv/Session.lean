import ReactorRuntime.Runtime.Session
import Mathlib.Tactic.Common

/-!
# What the machine does with an event

Which states the events of the session lead from and to: a start leads from `READY`, the end of a
cleanup from `CLOSING`, only a stop, a timeout or an eviction ends a session that runs, and a fact
of the journal moves nothing.
-/

namespace ReactorRuntime.Runtime

theorem isConnectable_eq_isRunning (state : SessionState) :
    state.isConnectable = state.isRunning := by cases state <;> rfl

theorem isRunning_of_not_stale {state : SessionState} (hstale : state.isStale = false)
    (hcreated : state ≠ .created) : state.isRunning = true := by
  cases state <;> first | exact absurd rfl hcreated | rfl | cases hstale

namespace SessionStateMachine

attribute [local simp] resolve TRANSITIONS updateCount SessionEvent.isJournal SessionState.isRunning

theorem send_stop_eq_some {m m' : SessionStateMachine} {event : SessionEvent}
    (hevent : event = .stopSession ∨ event = .timeout) (h : m.send event = some m') :
    m.state.isRunning ∧ m' = { state := .closing } := by
  obtain ⟨target, htarget, rfl⟩ := Option.map_eq_some_iff.mp h
  rcases hevent with rfl | rfl <;>
    cases hstate : m.state <;>
    simp_all [resolve, TRANSITIONS, SessionState.isRunning, updateCount, SessionEvent.isJournal]

theorem send_eq_some_cases {m m' : SessionStateMachine} {event : SessionEvent}
    (hconnection : event.isConnection = false) (hstart : event ≠ .startSession)
    (hcleanup : event ≠ .cleanupComplete) (h : m.send event = some m') :
    m' = m ∨ m.state = .created ∧ (m' = { state := .ready } ∨ m' = { state := .created }) ∨
      m.state.isRunning ∧ m' = { state := .closing } ∨ m' = { state := .terminated } := by
  obtain ⟨state, live⟩ := m
  obtain ⟨target, htarget, rfl⟩ := Option.map_eq_some_iff.mp h
  cases event <;> try contradiction
  all_goals
    cases state <;> simp only [resolve, TRANSITIONS, reduceCtorEq, Option.some.injEq] at htarget <;>
      subst htarget <;>
      simp [updateCount, SessionEvent.isJournal, SessionState.isRunning]

theorem send_cleanup_eq_some {m m' : SessionStateMachine}
    (h : m.send .cleanupComplete = some m') : m.state = .closing ∧ m' = { state := .ready } := by
  obtain ⟨target, htarget, rfl⟩ := Option.map_eq_some_iff.mp h
  cases hstate : m.state <;>
    simp_all [resolve, TRANSITIONS, updateCount, SessionEvent.isJournal]

theorem send_start_eq_some {m m' : SessionStateMachine} (h : m.send .startSession = some m') :
    m.state = .ready ∧ m' = { state := .waiting } := by
  obtain ⟨target, htarget, rfl⟩ := Option.map_eq_some_iff.mp h
  cases hstate : m.state <;>
    simp_all [resolve, TRANSITIONS, updateCount, SessionEvent.isJournal]

theorem send_closed {m : SessionStateMachine} (hrunning : m.state = .streaming) :
    m.send .connectionClosed =
      some { state := if m.live ≤ 1 then .orphaned else .streaming, live := m.live - 1 } := by
  obtain ⟨state, live⟩ := m
  obtain rfl : state = .streaming := hrunning
  show Option.map _ (if live ≤ 1 then some _ else some _) = _
  split <;> rfl

theorem send_opened {m : SessionStateMachine} (hrunning : m.state.isRunning) :
    m.send .connectionOpened = some { state := .streaming, live := m.live + 1 } := by
  obtain ⟨state, live⟩ := m
  show Option.map _ (if state.isConnectable then some SessionState.streaming else none) = _
  rw [isConnectable_eq_isRunning, if_pos hrunning]
  rfl

theorem send_keeps {m m' : SessionStateMachine} {event : SessionEvent}
    (hstop : event ≠ .stopSession) (htimeout : event ≠ .timeout) (heviction : event ≠ .eviction)
    (h : m.send event = some m') :
    (m.state.isRunning → m'.state.isRunning) ∧ (m'.state = .closing → m.state = .closing) := by
  obtain ⟨state, live⟩ := m
  obtain ⟨target, htarget, rfl⟩ := Option.map_eq_some_iff.mp h
  show (state.isRunning → target.isRunning) ∧ (target = .closing → state = .closing)
  cases event <;> try contradiction
  case connectionOpened =>
    obtain ⟨-, rfl⟩ : state.isConnectable = true ∧ SessionState.streaming = target := by
      simpa [resolve] using htarget
    exact ⟨fun _ => rfl, SessionState.noConfusion⟩
  case connectionClosed =>
    have htarget : (if state ≠ .streaming then none
        else if live ≤ 1 then some SessionState.orphaned else some .streaming) = some target :=
      htarget
    split at htarget
    · cases htarget
    · split at htarget <;> obtain rfl := Option.some.inj htarget <;>
        exact ⟨fun _ => rfl, SessionState.noConfusion⟩
  all_goals
    cases state <;> simp only [resolve, TRANSITIONS, reduceCtorEq, Option.some.injEq] at htarget <;>
      subst htarget <;> decide

theorem isRunning_of_send {m m' : SessionStateMachine} {event : SessionEvent}
    (hstart : event ≠ .startSession) (h : m.send event = some m') :
    m'.state.isRunning → m.state.isRunning := by
  obtain ⟨state, live⟩ := m
  obtain ⟨target, htarget, rfl⟩ := Option.map_eq_some_iff.mp h
  show target.isRunning → state.isRunning
  cases event <;> try contradiction
  case connectionOpened =>
    obtain ⟨hconnectable, -⟩ : state.isConnectable = true ∧ SessionState.streaming = target := by
      simpa [resolve] using htarget
    exact fun _ => isConnectable_eq_isRunning state ▸ hconnectable
  case connectionClosed =>
    have htarget : (if state ≠ .streaming then none
        else if live ≤ 1 then some SessionState.orphaned else some .streaming) = some target :=
      htarget
    split at htarget
    · cases htarget
    next hstreaming =>
      rw [not_not.mp hstreaming]
      exact fun _ => rfl
  all_goals
    cases state <;> simp only [resolve, TRANSITIONS, reduceCtorEq, Option.some.injEq] at htarget <;>
      subst htarget <;> decide

theorem isRunning_of_send_closing {m m' : SessionStateMachine} {event : SessionEvent}
    (h : m.send event = some m') (hclosing : m'.state = .closing) (hne : m.state ≠ .closing) :
    m.state.isRunning := by
  by_cases hend : event = .stopSession ∨ event = .timeout
  · exact (send_stop_eq_some hend h).1
  · rw [not_or] at hend
    by_cases heviction : event = .eviction
    · obtain ⟨target, htarget, rfl⟩ := Option.map_eq_some_iff.mp h
      obtain rfl : target = .closing := hclosing
      rw [heviction] at htarget
      cases hstate : m.state <;> simp_all [resolve, TRANSITIONS]
    · exact absurd ((send_keeps hend.1 hend.2 heviction h).2 hclosing) hne

theorem eq_eviction_of_send_terminated {m m' : SessionStateMachine} {event : SessionEvent}
    (h : m.send event = some m') (hrunning : m.state.isRunning) (hto : m'.state = .terminated) :
    event = .eviction := by
  by_contra heviction
  by_cases hend : event = .stopSession ∨ event = .timeout
  · rw [(send_stop_eq_some hend h).2] at hto
    cases hto
  · rw [not_or] at hend
    have := (send_keeps hend.1 hend.2 heviction h).1 hrunning
    rw [hto] at this
    cases this

theorem send_fact (m : SessionStateMachine) {event : SessionEvent}
    (hevent : event = .connectionAnswered ∨ event.isJournal) : m.send event = some m := by
  obtain ⟨state, live⟩ := m
  rcases hevent with rfl | hevent
  · cases state <;> rfl
  · cases event <;> simp only [SessionEvent.isJournal, reduceCtorEq] at hevent <;>
      cases state <;> rfl

end SessionStateMachine

end ReactorRuntime.Runtime
