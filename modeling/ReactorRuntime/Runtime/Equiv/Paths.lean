import ReactorRuntime.Runtime.Equiv.Dispatch

/-!
# The paths of the session machine

A move that the machine accepts is an edge of one of seven kinds (`Edge`), and the journal of a run
is a path of such edges (`Path`).  What holds of every path needs no more of the runner: a session
that is started leaves its running states once (`Path.countP_ends`), comes back from each `CLOSING`
by one cleanup (`Path.countP_closes`), and what the model hears of it is between its two boundaries
(`Path.foldlM_marks`).
-/

namespace ReactorRuntime.Runtime

/-- The moves that the machine accepts, by event and states. -/
inductive Edge : SessionEvent → SessionState → SessionState → Prop where
  | stay {event : SessionEvent} {state : SessionState}
    (hevent : event.isJournal = true ∨ event = .connectionAnswered ∨ event = .initializing) :
    Edge event state state
  | loaded {event : SessionEvent} {state : SessionState}
    (hevent : event = .initializationSuccess ∨ event = .initializationFail)
    (hstate : state = .ready ∨ state = .terminated) : Edge event .created state
  | start : Edge .startSession .ready .waiting
  | connection {event : SessionEvent} {source target : SessionState}
    (hevent : event.isConnection = true) (hsource : source.isRunning = true)
    (htarget : target.isRunning = true) : Edge event source target
  | close {event : SessionEvent} {source : SessionState}
    (hevent : event = .stopSession ∨ event = .timeout) (hsource : source.isRunning = true) :
    Edge event source .closing
  | cleanup : Edge .cleanupComplete .closing .ready
  | evict {source : SessionState} (hsource : source ≠ .terminated) :
    Edge .eviction source .terminated

namespace Edge

theorem of_send {m m' : SessionStateMachine} {event : SessionEvent} (h : m.send event = some m') :
    Edge event m.state m'.state := by
  obtain ⟨state, live⟩ := m
  obtain ⟨target, htarget, rfl⟩ := Option.map_eq_some_iff.mp h
  show Edge event state target
  cases event
  case connectionOpened =>
    obtain ⟨hconnectable, rfl⟩ : state.isConnectable = true ∧ SessionState.streaming = target := by
      simpa [SessionStateMachine.resolve] using htarget
    rw [isConnectable_eq_isRunning] at hconnectable
    exact .connection rfl hconnectable rfl
  case connectionClosed =>
    have htarget : (if state ≠ .streaming then none
        else if live ≤ 1 then some SessionState.orphaned else some .streaming) = some target :=
      htarget
    by_cases hstreaming : state = .streaming
    · subst hstreaming
      rw [if_neg (not_not.mpr rfl)] at htarget
      split_ifs at htarget <;> obtain rfl := Option.some.inj htarget <;>
        exact .connection rfl rfl rfl
    · rw [if_pos hstreaming] at htarget
      cases htarget
  all_goals
    cases state <;>
      simp only [SessionStateMachine.resolve, TRANSITIONS, reduceCtorEq, Option.some.injEq]
        at htarget <;>
      subst htarget <;>
      first
      | exact .stay (.inl rfl)
      | exact .stay (.inr (.inl rfl))
      | exact .stay (.inr (.inr rfl))
      | exact .start
      | exact .cleanup
      | exact .close (.inl rfl) rfl
      | exact .close (.inr rfl) rfl
      | exact .evict (by decide)
      | exact .loaded (.inl rfl) (.inl rfl)
      | exact .loaded (.inr rfl) (.inr rfl)

theorem terminated {event : SessionEvent} {source target : SessionState}
    (h : Edge event source target) (hsource : source = .terminated) : target = .terminated := by
  subst hsource
  rcases h with - | - | - | ⟨-, hsource, -⟩ | ⟨-, hsource⟩ | - | hne
  · rfl
  · cases hsource
  · cases hsource
  · exact absurd rfl hne

/-- The model is loaded once. -/
theorem ne_created {event : SessionEvent} {source target : SessionState}
    (h : Edge event source target) (hsource : source ≠ .created) : target ≠ .created := by
  rcases h with - | - | - | ⟨-, -, htarget⟩ | - | - | -
  · exact hsource
  · exact absurd rfl hsource
  · exact SessionState.noConfusion
  · rintro rfl
    cases htarget
  · exact SessionState.noConfusion
  · exact SessionState.noConfusion
  · exact SessionState.noConfusion

theorem of_start {event : SessionEvent} {source target : SessionState}
    (h : Edge event source target) (hevent : event = .startSession) :
    source = .ready ∧ target = .waiting := by
  rcases h with hstay | ⟨h, -⟩ | - | ⟨h, -, -⟩ | ⟨h, -⟩ | - | -
  · rcases hstay with h | h | h <;> rw [hevent] at h <;> cases h
  · rcases h with h | h <;> rw [hevent] at h <;> cases h
  · exact ⟨rfl, rfl⟩
  · rw [hevent] at h
    cases h
  · rcases h with h | h <;> rw [hevent] at h <;> cases h
  · cases hevent
  · cases hevent

end Edge

/-- A sequence of moves from a state to another. -/
inductive Path : SessionState → List Transition → SessionState → Prop where
  | nil (state : SessionState) : Path state [] state
  | cons {t : Transition} {ts : List Transition} {target : SessionState}
    (hedge : Edge t.event t.fromState t.toState) (hrest : Path t.toState ts target) :
    Path t.fromState (t :: ts) target

namespace Path

variable {source middle target : SessionState} {ts ts' : List Transition}

theorem append (h : Path source ts middle) (h' : Path middle ts' target) :
    Path source (ts ++ ts') target := by
  induction h with
  | nil => exact h'
  | cons hedge _ ih => exact .cons hedge (ih h')

theorem split (h : Path source (ts ++ ts') target) :
    ∃ middle, Path source ts middle ∧ Path middle ts' target := by
  induction ts generalizing source with
  | nil => exact ⟨source, .nil source, h⟩
  | cons t ts ih =>
    rw [List.cons_append] at h
    rcases h with - | ⟨hedge, hrest⟩
    obtain ⟨middle, hleft, hright⟩ := ih hrest
    exact ⟨middle, .cons hedge hleft, hright⟩

theorem eq_of_nil (h : Path source [] target) : source = target := by
  cases h
  rfl

theorem of_cons {t : Transition} (h : Path source (t :: ts) target) :
    source = t.fromState ∧ Edge t.event t.fromState t.toState ∧ Path t.toState ts target := by
  generalize hts : t :: ts = l at h
  cases h with
  | nil => cases hts
  | cons hedge hrest =>
    obtain ⟨rfl, rfl⟩ := List.cons.inj hts
    exact ⟨rfl, hedge, hrest⟩

theorem edge_of_mem (h : Path source ts target) {t : Transition} (ht : t ∈ ts) :
    Edge t.event t.fromState t.toState := by
  induction h with
  | nil => cases ht
  | cons hedge _ ih =>
    rcases List.mem_cons.mp ht with rfl | ht
    · exact hedge
    · exact ih ht

theorem ne_created_of_mem (h : Path source ts target) (hsource : source ≠ .created) {t : Transition}
    (ht : t ∈ ts) : t.fromState ≠ .created := by
  induction h with
  | nil => cases ht
  | cons hedge _ ih =>
    rcases List.mem_cons.mp ht with rfl | ht
    · exact hsource
    · exact ih (hedge.ne_created hsource) ht

theorem terminated (h : Path source ts target) (hsource : source = .terminated) :
    target = .terminated := by
  induction h with
  | nil => exact hsource
  | cons hedge _ ih => exact ih (hedge.terminated hsource)

/-! ### The ends of sessions -/

def ends (t : Transition) : Bool := t.fromState.isRunning && !t.toState.isRunning

def running (state : SessionState) : ℕ := if state.isRunning then 1 else 0

theorem countP_ends (h : Path source ts target) (hstart : ∀ t ∈ ts, t.event ≠ .startSession) :
    ts.countP ends + running target = running source := by
  induction h with
  | nil => exact Nat.zero_add _
  | @cons t ts target hedge hrest ih =>
    have hrest := ih fun t ht => hstart t (List.mem_cons_of_mem _ ht)
    have hne := hstart t List.mem_cons_self
    rw [List.countP_cons, ends, Nat.add_right_comm, hrest]
    obtain ⟨event, from', to', detail⟩ := t
    clear hrest ih
    show running to' + (if (from'.isRunning && !to'.isRunning) = true then 1 else 0) = running from'
    rcases hedge with - | ⟨-, hstate⟩ | - | ⟨-, hsource, htarget⟩ | ⟨-, hsource⟩ | - | -
    · cases from' <;> rfl
    · rcases hstate with rfl | rfl <;> rfl
    · exact absurd rfl hne
    · rw [running, running, hsource, htarget]
      rfl
    · rw [running, running, hsource]
      rfl
    · rfl
    · cases from' <;> rfl

def enters (t : Transition) : Bool :=
  t.fromState ≠ t.toState ∧ (t.toState = .closing ∨ t.toState = .terminated)

/-- A move that enters `CLOSING` or `TERMINATED` ends a session, or leads into `TERMINATED` from
where none runs: the load failed, or the process is evicted. -/
theorem enters_cases {t : Transition} (hedge : Edge t.event t.fromState t.toState)
    (henters : enters t = true) :
    ends t = true ∨ t.toState = .terminated ∧ t.fromState.isRunning = false ∧
      (t.event = .eviction ∨ t.fromState = .created) := by
  obtain ⟨event, from', to', detail⟩ := t
  obtain ⟨hne, hto⟩ : from' ≠ to' ∧ (to' = .closing ∨ to' = .terminated) :=
    decide_eq_true_iff.mp henters
  show (from'.isRunning && !to'.isRunning) = true ∨ to' = .terminated ∧ from'.isRunning = false ∧
    (event = .eviction ∨ from' = .created)
  rcases hedge with - | - | - | ⟨-, hsource, htarget⟩ | ⟨-, hsource⟩ | - | -
  · exact absurd rfl hne
  · rcases hto with rfl | rfl
    · exact .inr ⟨by simp_all, rfl, .inr rfl⟩
    · exact .inr ⟨rfl, rfl, .inr rfl⟩
  · rcases hto with h | h <;> cases h
  · rcases hto with rfl | rfl <;> cases htarget
  · exact .inl (by rw [hsource]; rfl)
  · rcases hto with h | h <;> cases h
  · cases hrunning : from'.isRunning
    · exact .inr ⟨rfl, rfl, .inl rfl⟩
    · exact .inl rfl

/-! ### The teardowns -/

/-- Whether a move evicts a session that is torn down. -/
def cutsShort (t : Transition) : Bool := t.event = .eviction ∧ t.fromState = .closing

/-- The teardowns that are under way in a state: one, or none. -/
def closing (state : SessionState) : ℕ := if state = .closing then 1 else 0

theorem closes_edge {t : Transition} (hedge : Edge t.event t.fromState t.toState) :
    (if Runner.closes t = true then 1 else 0) + closing t.fromState =
      (if decide (t.event = .cleanupComplete) = true then 1 else 0) +
        (if cutsShort t = true then 1 else 0) + closing t.toState := by
  obtain ⟨event, from', to', detail⟩ := t
  unfold Runner.closes cutsShort closing
  rcases hedge with hevent | ⟨hevent, hstate⟩ | - | ⟨hevent, hsource, htarget⟩ | ⟨hevent, hsource⟩ |
    - | -
  · have hcleanup : event ≠ .cleanupComplete := by
      rintro rfl
      rcases hevent with h | h | h <;> cases h
    have heviction : event ≠ .eviction := by
      rintro rfl
      rcases hevent with h | h | h <;> cases h
    simp [hcleanup, heviction]
  · rcases hstate with rfl | rfl <;> rcases hevent with rfl | rfl <;> rfl
  · rfl
  · have hcleanup : event ≠ .cleanupComplete := by
      rintro rfl
      cases hevent
    have heviction : event ≠ .eviction := by
      rintro rfl
      cases hevent
    have hfrom : from' ≠ .closing := by
      rintro rfl
      cases hsource
    have hto : to' ≠ .closing := by
      rintro rfl
      cases htarget
    simp [hcleanup, heviction, hfrom, hto]
  · have hfrom : from' ≠ .closing := by
      rintro rfl
      cases hsource
    rcases hevent with rfl | rfl <;> simp [hfrom]
  · rfl
  · cases from' <;> rfl

theorem countP_closes (h : Path source ts target) :
    ts.countP Runner.closes + closing source =
      ts.countP (fun t => t.event = .cleanupComplete) + ts.countP cutsShort + closing target := by
  induction h with
  | nil => rfl
  | @cons t ts target hedge hrest ih =>
    have hone := closes_edge hedge
    rw [List.countP_cons, List.countP_cons, List.countP_cons]
    omega

/-! ### What the model hears -/

/-- What the model hears of a session's bounds and connections. -/
inductive Mark where
  | started
  | connection
  | ended
  deriving DecidableEq

/-- What the model hears of a session in an event that the runner hands it. -/
def mark : ReactorEvent → Option Mark
  | .sessionStarted .. => some .started
  | .sessionEnded _ => some .ended
  | .clientConnected .. | .clientDisconnected .. => some .connection
  | .startingInputApplied => none

/-- What the model hears of a move. -/
def marks (t : Transition) : List Mark :=
  (if t.isSessionStart then [.started] else []) ++ (if t.isSessionEnd then [.ended] else []) ++
    match t.detail with
    | .connection _ => if t.event.isConnection then [.connection] else []
    | _ => []

/-- Whether a session is open after what the model hears, `none` where it begins while one is open,
or ends or connects a client while none is. -/
def hears : Bool → Mark → Option Bool
  | false, .started => some true
  | true, .connection => some true
  | true, .ended => some false
  | _, _ => none

def opened (state : SessionState) : Bool := state.isRunning || state = .closing

theorem marks_of_not_connection {t : Transition} (h : t.event.isConnection = false) :
    marks t = (if t.isSessionStart then [.started] else []) ++
      (if t.isSessionEnd then [.ended] else []) := by
  unfold marks
  rw [h]
  cases t.detail <;> exact List.append_nil _

theorem not_boundary_of_eq {t : Transition} (h : t.fromState = t.toState) :
    t.isSessionStart = false ∧ t.isSessionEnd = false := by
  unfold Transition.isSessionStart Transition.isSessionEnd
  rw [h]
  cases t.toState <;> exact ⟨rfl, rfl⟩

theorem not_boundary_of_isRunning {t : Transition} (h : t.fromState.isRunning = true) :
    t.isSessionStart = false ∧ t.isSessionEnd = false := by
  unfold Transition.isSessionStart Transition.isSessionEnd
  cases hfrom : t.fromState <;> rw [hfrom] at h <;> first | exact ⟨rfl, rfl⟩ | cases h

/-- The model hears of each move what takes it from the state before to the state after, if the move
does not evict. -/
theorem hears_edge {t : Transition} (hedge : Edge t.event t.fromState t.toState)
    (hto : t.toState ≠ .terminated) :
    (marks t).foldlM hears (opened t.fromState) = some (opened t.toState) := by
  obtain ⟨event, from', to', detail⟩ := t
  show (marks ⟨event, from', to', detail⟩).foldlM hears (opened from') = some (opened to')
  rcases hedge with hevent | ⟨hevent, hstate⟩ | - | ⟨hevent, hsource, htarget⟩ | ⟨hevent, hsource⟩ |
    - | -
  · have hconnection : event.isConnection = false := by
      rcases hevent with h | rfl | rfl
      · cases event <;> first | rfl | cases h
      · rfl
      · rfl
    obtain ⟨hstart, hend⟩ := not_boundary_of_eq (t := ⟨event, from', from', detail⟩) rfl
    rw [marks_of_not_connection hconnection, hstart, hend]
    rfl
  · rcases hstate with rfl | rfl
    · have hconnection : event.isConnection = false := by rcases hevent with rfl | rfl <;> rfl
      rw [marks_of_not_connection hconnection]
      rfl
    · exact absurd rfl hto
  · rw [marks_of_not_connection rfl]
    rfl
  · -- a connection opens or closes in a session that runs
    obtain ⟨hstart, hend⟩ := not_boundary_of_isRunning (t := ⟨event, from', to', detail⟩) hsource
    unfold marks
    rw [hstart, hend, hevent, opened, opened, hsource, htarget]
    cases detail <;> rfl
  · have hconnection : event.isConnection = false := by rcases hevent with rfl | rfl <;> rfl
    obtain ⟨hstart, hend⟩ :=
      not_boundary_of_isRunning (t := ⟨event, from', .closing, detail⟩) hsource
    rw [marks_of_not_connection hconnection, hstart, hend, opened, hsource]
    rfl
  · rw [marks_of_not_connection rfl]
    rfl
  · exact absurd rfl hto

/-- The model hears nothing of an eviction, nor of a load that failed, nor of what follows. -/
theorem marks_of_terminated {t : Transition} (hedge : Edge t.event t.fromState t.toState)
    (hto : t.toState = .terminated) : marks t = [] := by
  have hconnection : t.event.isConnection = false := by
    by_contra hconnection
    obtain ⟨event, from', to', detail⟩ := t
    obtain rfl : to' = .terminated := hto
    rcases hedge with hevent | ⟨hevent, -⟩ | - | ⟨-, -, htarget⟩ | - | - | -
    · cases event <;> first | exact hconnection rfl | (rcases hevent with h | h | h <;> cases h)
    · rcases hevent with rfl | rfl <;> exact hconnection rfl
    · cases htarget
    · exact hconnection rfl
  rw [marks_of_not_connection hconnection, Transition.isSessionStart, Transition.isSessionEnd, hto]
  simp

theorem flatMap_marks_of_terminated (h : Path source ts target) (hsource : source = .terminated) :
    ts.flatMap marks = [] := by
  induction h with
  | nil => rfl
  | cons hedge _ ih =>
    have hto := hedge.terminated hsource
    rw [List.flatMap_cons, marks_of_terminated hedge hto, ih hto]
    rfl

/-- Along a path the model hears of each session its start, then its connections, then its end; the
end is missing where the session is open, or was evicted. -/
theorem foldlM_hears (h : Path source ts target) :
    ∃ open', (ts.flatMap marks).foldlM hears (opened source) = some open' ∧
      (target ≠ .terminated → open' = opened target) := by
  induction h with
  | nil => exact ⟨_, rfl, fun _ => rfl⟩
  | @cons t ts target hedge hrest ih =>
    rw [List.flatMap_cons, List.foldlM_append]
    by_cases hto : t.toState = .terminated
    · rw [marks_of_terminated hedge hto, hrest.flatMap_marks_of_terminated hto]
      exact ⟨_, rfl, fun htarget => absurd (hrest.terminated hto) htarget⟩
    · obtain ⟨open', hopen, htarget⟩ := ih
      refine ⟨open', ?_, htarget⟩
      rw [hears_edge hedge hto]
      exact hopen

end Path

end ReactorRuntime.Runtime
