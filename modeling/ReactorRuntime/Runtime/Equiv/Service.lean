import ReactorRuntime.Runtime.Service

/-!
# Components start and wind down in order

What `run` calls is, in every run, the calls of `start`, in an order that has each component after
those that depend on it, then those of `drain` and then those of `stop`, each in the order in which
the components were started (`Fits`, which no step breaks: `inv_isInvariant`).
-/

namespace ReactorRuntime.Runtime.Service

open Graphs

variable {cs : Components} {s s' : State} {act : Act} {acts : List Act}

/-! ### What is called -/

def Event.isRequest : Event → Bool
  | .requested _ => true
  | _ => false

def State.calls (s : State) : List Event := s.log.filter fun e => !e.isRequest

def Event.returned? : Event → Option String
  | .ends .start name false => some name
  | _ => none

def Event.isStart : Event → Bool
  | .begins .start _ | .ends .start _ _ => true
  | _ => false

/-- One call after another, each of which returns or raises. -/
inductive Ran (call : Call) : List String → List Event → Prop where
  | nil : Ran call [] []
  | concat {names : List String} {log : List Event} (h : Ran call names log) (name : String)
    (raised : Bool) :
    Ran call (names ++ [name]) (log ++ [.begins call name, .ends call name raised])

/-- A part of one call after another. -/
def InTurn (call : Call) (names : List String) (log : List Event) : Prop :=
  ∃ full, Ran call names full ∧ log <+: full

def Components.DependsOn (cs : Components) (a b : String) : Prop :=
  Graphs.DependsOn cs.get? ServiceComponent.dependsOn a b

/-- A dependency is unknown, or cyclic. -/
def Components.Faulty (cs : Components) : Prop :=
  Graphs.Faulty cs.get? ServiceComponent.dependsOn

/-- Each start begins after those of all the components that depend on it have returned. -/
def InOrder (cs : Components) (calls : List Event) : Prop :=
  ∀ before name after, calls = before ++ .begins .start name :: after →
    ∀ other, cs.DependsOn other name → .ends .start other false ∈ before

/-- No start begins after a request that came after the first one had begun. -/
def NotLate (log : List Event) : Prop :=
  ∀ before failure after, log = before ++ .requested failure :: after →
    (∃ name, .begins .start name ∈ before) → ∀ name, .begins .start name ∉ after

/-- The starts come first, then the drains and then the stops of what was started; all of it once
the run has ended. -/
def InPhases (calls : List Event) (ended : Prop) : Prop :=
  ∃ starts drains stops, calls = starts ++ (drains ++ stops) ∧
    (∀ e ∈ starts, e.isStart = true) ∧
    InTurn .drain (calls.filterMap Event.returned?) drains ∧
    InTurn .stop (calls.filterMap Event.returned?) stops ∧
    (stops ≠ [] ∨ ended → Ran .drain (calls.filterMap Event.returned?) drains) ∧
    (ended → Ran .stop (calls.filterMap Event.returned?) stops)

/-- What a run of the service comes to. -/
structure WindsDown (cs : Components) (s : State) : Prop where
  refused : s.phase ≠ .idle → ((∃ refusal, s.phase = .refused refusal) ↔ cs.Faulty)
  starts_nothing : (∃ refusal, s.phase = .refused refusal) → s.calls = []
  inOrder : InOrder cs s.calls
  notLate : NotLate s.log
  windDown : InPhases s.calls (s.phase = .ended)
  once : (s.calls.filterMap Event.returned?).Nodup
  deadline : s.phase ≠ .ended → (s.deadline.isSome ↔ ∃ failure, .requested failure ∈ s.log)
  exitCode : s.exitCode = if .requested true ∈ s.log then failureExitCode else 0

/-! ### The order of the components -/

theorem Components.mem_names {name : String} : name ∈ cs.names ↔ (cs.get? name).isSome := by
  unfold names get?
  rw [List.find?_isSome, List.mem_map]
  simp only [decide_eq_true_eq]

theorem Components.name_of_get? {name : String} {c : ServiceComponent}
    (h : cs.get? name = some c) : c.name = name := by
  have hname := List.find?_some (p := fun c : ServiceComponent => decide (c.name = name)) h
  exact of_decide_eq_true hname

theorem map_name_ordered {m : Marks String ServiceComponent}
    (h : Sorted cs.get? ServiceComponent.dependsOn m) :
    m.ordered.map ServiceComponent.name = m.done := by
  refine List.ext_getElem? fun i => ?_
  have hfound := congrArg (fun l => l[i]?) h.found
  simp only [List.getElem?_map] at hfound ⊢
  cases hordered : m.ordered[i]? with
  | none =>
    rw [hordered] at hfound
    cases hdone : m.done[i]? with
    | none => rfl
    | some name =>
      rw [hdone] at hfound
      cases hfound
  | some c =>
    rw [hordered] at hfound
    cases hdone : m.done[i]? with
    | none =>
      rw [hdone] at hfound
      cases hfound
    | some name =>
      rw [hdone] at hfound
      exact congrArg some (Components.name_of_get? (Option.some.inj hfound))

theorem mem_of_reverse_topologicalOrder {order started todo : List ServiceComponent}
    {c : ServiceComponent} (horder : cs.topologicalOrder = .ok order)
    (hsplit : order.reverse = started ++ c :: todo) {other : String}
    (hother : cs.DependsOn other c.name) : other ∈ started.map ServiceComponent.name := by
  unfold Components.topologicalOrder at horder
  cases hmarks : Graphs.order cs.get? ServiceComponent.dependsOn cs.names with
  | error refusal =>
    rw [hmarks] at horder
    cases horder
  | ok m =>
    rw [hmarks] at horder
    obtain rfl := Except.ok.inj horder
    obtain ⟨hsorted, hall⟩ := sorted_of_order (fun name => Components.mem_names) hmarks
    have hdone : m.done = todo.reverse.map ServiceComponent.name ++
        c.name :: started.reverse.map ServiceComponent.name := by
      have hordered := congrArg List.reverse hsplit
      rw [List.reverse_reverse] at hordered
      rw [← map_name_ordered hsorted, hordered]
      simp
    have hin : other ∈ m.done := by
      obtain ⟨value, hvalue, -⟩ := id hother
      rw [hall, Components.mem_names, hvalue]
      rfl
    simpa using hsorted.mem_after hdone hin hother

/-! ### What every step keeps -/

def returnedCalls (started : List ServiceComponent) : List Event :=
  started.flatMap fun c => [.begins .start c.name, .ends .start c.name false]

def failedCalls : Option String → List Event
  | none => []
  | some name => [.begins .start name, .ends .start name true]

/-- There is an order, and these components come first in that of the starts. -/
def Components.Starts (cs : Components) (started : List ServiceComponent) : Prop :=
  ∃ order, cs.topologicalOrder = .ok order ∧ started <+: order.reverse

/-- What was called, by where `run` is. -/
def Fits (cs : Components) (started : List ServiceComponent) (raised : Option String)
    (calls : List Event) : Phase → Prop
  | .idle => started = [] ∧ raised = none ∧ calls = []
  | .refused refusal =>
    cs.topologicalOrder = .error refusal ∧ started = [] ∧ raised = none ∧ calls = []
  | .starting c todo => raised = none ∧
    (∃ order, cs.topologicalOrder = .ok order ∧ order.reverse = started ++ c :: todo) ∧
    calls = returnedCalls started ++ [.begins .start c.name]
  | .waiting => raised = none ∧ cs.Starts started ∧ calls = returnedCalls started
  | .draining c todo => cs.Starts started ∧ ∃ drained log, started = drained ++ c :: todo ∧
    Ran .drain (drained.map ServiceComponent.name) log ∧
    calls = returnedCalls started ++ failedCalls raised ++ (log ++ [.begins .drain c.name])
  | .stopping c todo => cs.Starts started ∧ ∃ drains stopped log, started = stopped ++ c :: todo ∧
    Ran .drain (started.map ServiceComponent.name) drains ∧
    Ran .stop (stopped.map ServiceComponent.name) log ∧
    calls = returnedCalls started ++ failedCalls raised ++
      (drains ++ (log ++ [.begins .stop c.name]))
  | .ended => cs.Starts started ∧ ∃ drains stops,
    Ran .drain (started.map ServiceComponent.name) drains ∧
    Ran .stop (started.map ServiceComponent.name) stops ∧
    calls = returnedCalls started ++ failedCalls raised ++ (drains ++ stops)

/-- What the log says of the flags, and in what order the starts come. -/
structure Marked (cs : Components) (s : State) : Prop where
  inOrder : InOrder cs s.calls
  notLate : NotLate s.log
  shutdown : s.shutdown = true ↔ ∃ failure, .requested failure ∈ s.log
  failure : s.failure = true ↔ .requested true ∈ s.log

/-- What holds of a service in every run. -/
structure Inv (cs : Components) (s : State) : Prop extends Marked cs s where
  fits : Fits cs s.started s.raised s.calls s.phase
  deadline : s.phase ≠ .ended → (s.deadline.isSome ↔ s.shutdown = true)

theorem calls_concat {event : Event} (hlog : s'.log = s.log ++ [event])
    (h : event.isRequest = false) : s'.calls = s.calls ++ [event] := by
  simp [State.calls, hlog, h]

theorem InOrder.concat {calls : List Event} (h : InOrder cs calls) {event : Event}
    (hevent : ∀ name, event = .begins .start name →
      ∀ other, cs.DependsOn other name → .ends .start other false ∈ calls) :
    InOrder cs (calls ++ [event]) := by
  intro before name after heq other hother
  obtain ⟨rfl, rfl, -⟩ | ⟨rest, -, hcalls⟩ := Lists.concat_eq_append_cons_iff.mp heq
  · exact hevent name rfl other hother
  · exact h before name rest hcalls other hother

theorem NotLate.concat {log : List Event} (h : NotLate log) {event : Event}
    (hevent : ∀ name, event = .begins .start name →
      (∀ failure, .requested failure ∉ log) ∨ ∀ name, .begins .start name ∉ log) :
    NotLate (log ++ [event]) := by
  rintro before failure after heq ⟨name, hname⟩ name' hname'
  obtain ⟨rfl, rfl, rfl⟩ | ⟨rest, rfl, hlog⟩ := Lists.concat_eq_append_cons_iff.mp heq
  · cases hname'
  · obtain hname' | hname' := List.mem_append.mp hname'
    · exact h before failure rest hlog ⟨name, hname⟩ name' hname'
    · obtain hnone | hnone := hevent name' (List.mem_singleton.mp hname').symm
      · exact hnone failure (hlog ▸ List.mem_append_right _ List.mem_cons_self)
      · exact hnone name (hlog ▸ List.mem_append_left _ hname)

theorem Marked.of_eq (h : Marked cs s) (hlog : s'.log = s.log)
    (hshutdown : s'.shutdown = s.shutdown) (hfailure : s'.failure = s.failure) : Marked cs s' where
  inOrder := by
    unfold State.calls
    rw [hlog]
    exact h.inOrder
  notLate := by
    rw [hlog]
    exact h.notLate
  shutdown := by
    rw [hlog, hshutdown]
    exact h.shutdown
  failure := by
    rw [hlog, hfailure]
    exact h.failure

theorem Marked.concat (h : Marked cs s) {event : Event} (hlog : s'.log = s.log ++ [event])
    (hshutdown : s'.shutdown = s.shutdown) (hfailure : s'.failure = s.failure)
    (hrequest : event.isRequest = false)
    (hevent : ∀ name, event = .begins .start name →
      (∀ other, cs.DependsOn other name → .ends .start other false ∈ s.calls) ∧
        ((∀ failure, .requested failure ∉ s.log) ∨ ∀ name, .begins .start name ∉ s.log)) :
    Marked cs s' := by
  have hmem : ∀ failure, Event.requested failure ∈ s'.log ↔ .requested failure ∈ s.log := by
    intro failure
    rw [hlog, List.mem_append, List.mem_singleton]
    refine or_iff_left ?_
    rintro rfl
    cases hrequest
  exact
    { inOrder := by
        rw [calls_concat hlog hrequest]
        exact h.inOrder.concat fun name heq => (hevent name heq).1
      notLate := by
        rw [hlog]
        exact h.notLate.concat fun name heq => (hevent name heq).2
      shutdown := by
        rw [hshutdown, h.shutdown]
        exact exists_congr fun failure => (hmem failure).symm
      failure := by rw [hfailure, h.failure, hmem] }

theorem Marked.concat_of_ne (h : Marked cs s) {event : Event} (hlog : s'.log = s.log ++ [event])
    (hshutdown : s'.shutdown = s.shutdown) (hfailure : s'.failure = s.failure)
    (hrequest : event.isRequest = false) (hevent : ∀ name, event ≠ .begins .start name) :
    Marked cs s' :=
  h.concat hlog hshutdown hfailure hrequest fun name heq => absurd heq (hevent name)

theorem Inv.stopNext (h : Marked cs s) (hdeadline : s.deadline.isSome ↔ s.shutdown = true)
    (hstarts : cs.Starts s.started) {stopped todo : List ServiceComponent} {drains log : List Event}
    (hstarted : s.started = stopped ++ todo)
    (hdrains : Ran .drain (s.started.map ServiceComponent.name) drains)
    (hlog : Ran .stop (stopped.map ServiceComponent.name) log)
    (hcalls : s.calls = returnedCalls s.started ++ failedCalls s.raised ++ (drains ++ log)) :
    Inv cs (s.stopNext todo) := by
  cases todo with
  | nil =>
    rw [List.append_nil] at hstarted
    exact
      { h.of_eq rfl rfl rfl with
        fits := ⟨hstarts, drains, log, hdrains, hstarted ▸ hlog, hcalls⟩
        deadline := fun hphase => absurd rfl hphase }
  | cons c todo =>
    have hmarked : Marked cs (s.stopNext (c :: todo)) :=
      h.concat_of_ne rfl rfl rfl rfl fun name heq => by cases heq
    exact
      { hmarked with
        fits := by
          refine ⟨hstarts, drains, stopped, log, hstarted, hdrains, hlog, ?_⟩
          rw [calls_concat (s := s) rfl rfl, hcalls]
          simp only [List.append_assoc]
          rfl
        deadline := fun _ => hdeadline }

theorem Inv.drainNext (h : Marked cs s) (hdeadline : s.deadline.isSome ↔ s.shutdown = true)
    (hstarts : cs.Starts s.started) {drained todo : List ServiceComponent} {log : List Event}
    (hstarted : s.started = drained ++ todo)
    (hlog : Ran .drain (drained.map ServiceComponent.name) log)
    (hcalls : s.calls = returnedCalls s.started ++ failedCalls s.raised ++ log) :
    Inv cs (s.drainNext todo) := by
  cases todo with
  | nil =>
    rw [List.append_nil] at hstarted
    have hnone : s.started = [] ++ s.started := rfl
    refine Inv.stopNext h hdeadline hstarts hnone (hstarted ▸ hlog) .nil ?_
    rw [hcalls, List.append_nil]
  | cons c todo =>
    have hmarked : Marked cs (s.drainNext (c :: todo)) :=
      h.concat_of_ne rfl rfl rfl rfl fun name heq => by cases heq
    exact
      { hmarked with
        fits := by
          refine ⟨hstarts, drained, log, hstarted, hlog, ?_⟩
          rw [calls_concat (s := s) rfl rfl, hcalls]
          simp only [List.append_assoc]
          rfl
        deadline := fun _ => hdeadline }

theorem mem_returnedCalls {started : List ServiceComponent} {name : String}
    (h : name ∈ started.map ServiceComponent.name) :
    .ends .start name false ∈ returnedCalls started := by
  obtain ⟨c, hc, rfl⟩ := List.mem_map.mp h
  exact List.mem_flatMap.mpr ⟨c, hc, List.mem_cons_of_mem _ List.mem_cons_self⟩

theorem returnedCalls_concat (started : List ServiceComponent) (c : ServiceComponent) :
    returnedCalls (started ++ [c]) =
      returnedCalls started ++ [.begins .start c.name, .ends .start c.name false] := by
  simp [returnedCalls]

/-- The starts go on, unless a request came. -/
theorem Inv.startNext (h : Marked cs s) (hdeadline : s.deadline.isSome ↔ s.shutdown = true)
    {order todo : List ServiceComponent} (horder : cs.topologicalOrder = .ok order)
    (hsplit : order.reverse = s.started ++ todo) (hraised : s.raised = none)
    (hcalls : s.calls = returnedCalls s.started)
    (hlate : (∀ failure, .requested failure ∉ s.log) ∨ ∀ name, .begins .start name ∉ s.log) :
    Inv cs (s.startNext todo) := by
  cases todo with
  | nil =>
    exact
      { h.of_eq rfl rfl rfl with
        fits := ⟨hraised, ⟨order, horder, hsplit ▸ List.prefix_append _ _⟩, hcalls⟩
        deadline := fun _ => hdeadline }
  | cons c todo =>
    have hmarked : Marked cs (s.startNext (c :: todo)) := by
      refine h.concat rfl rfl rfl rfl fun name heq => ⟨fun other hother => ?_, hlate⟩
      obtain ⟨-, rfl⟩ := Event.begins.inj heq
      show _ ∈ s.calls
      rw [hcalls]
      exact mem_returnedCalls (mem_of_reverse_topologicalOrder horder hsplit hother)
    exact
      { hmarked with
        fits := by
          refine ⟨hraised, ⟨order, horder, hsplit⟩, ?_⟩
          rw [calls_concat (s := s) rfl rfl, hcalls]
          rfl
        deadline := fun _ => hdeadline }

/-- A request changes the flags and arms the deadline, and nothing that is called. -/
theorem Inv.requestShutdown (h : Inv cs s) (failure : Bool) :
    Inv cs (s.requestShutdown failure) := by
  have hcalls : ∀ log : List Event,
      (log ++ [Event.requested failure]).filter (fun e => !e.isRequest) =
        log.filter fun e => !e.isRequest := by
    intro log
    simp [Event.isRequest]
  have hrequested : ∀ s' : State, s'.phase = s.phase → s'.started = s.started →
      s'.raised = s.raised → s'.failure = (s.failure || failure) → s'.shutdown = true →
      s'.log = s.log ++ [.requested failure] → s'.deadline.isSome → Inv cs s' := by
    intro s' hphase hstarted hraised hfailure hshutdown hlog hdeadline
    exact
      { inOrder := by
          unfold State.calls
          rw [hlog, hcalls]
          exact h.inOrder
        notLate := by
          rw [hlog]
          exact h.notLate.concat fun name heq => by cases heq
        shutdown := by
          rw [hlog, hshutdown]
          exact iff_of_true rfl ⟨failure, List.mem_append_right _ List.mem_cons_self⟩
        failure := by
          rw [hlog, hfailure, Bool.or_eq_true, h.failure, List.mem_append, List.mem_singleton]
          simp [eq_comm]
        fits := by
          unfold State.calls
          rw [hphase, hstarted, hraised, hlog, hcalls]
          exact h.fits
        deadline := fun _ => by rw [hshutdown]; exact iff_of_true hdeadline rfl }
  unfold State.requestShutdown State.armDeadline
  cases hdeadline : s.deadline with
  | none => exact hrequested _ rfl rfl rfl rfl rfl rfl rfl
  | some budget => exact hrequested _ rfl rfl rfl rfl rfl rfl rfl

theorem not_mem_log_of_calls_nil (h : s.calls = []) (name : String) :
    .begins .start name ∉ s.log := by
  intro hin
  have hcall : Event.begins .start name ∈ s.calls := List.mem_filter.mpr ⟨hin, rfl⟩
  rw [h] at hcall
  cases hcall

theorem Inv.refuse (h : Inv cs s) (hphase : s.phase = .idle) {refusal : Refusal String}
    (hrefused : cs.topologicalOrder = .error refusal) :
    Inv cs { s with phase := .refused refusal } := by
  obtain ⟨hstarted, hraised, hcalls⟩ : Fits cs s.started s.raised s.calls .idle :=
    hphase ▸ h.fits
  have hdeadline := h.deadline (by rw [hphase]; exact Phase.noConfusion)
  exact
    { h.toMarked.of_eq rfl rfl rfl with
      fits := ⟨hrefused, hstarted, hraised, hcalls⟩
      deadline := fun _ => hdeadline }

theorem Inv.run (h : Inv cs s) (hphase : s.phase = .idle) {order : List ServiceComponent}
    (horder : cs.topologicalOrder = .ok order) : Inv cs (s.startNext order.reverse) := by
  obtain ⟨hstarted, hraised, hcalls⟩ : Fits cs s.started s.raised s.calls .idle :=
    hphase ▸ h.fits
  have hdeadline := h.deadline (by rw [hphase]; exact Phase.noConfusion)
  refine Inv.startNext h.toMarked hdeadline horder (by rw [hstarted]; rfl) hraised ?_
    (.inr (not_mem_log_of_calls_nil hcalls))
  rw [hcalls, hstarted]
  rfl

theorem Inv.ends_start (h : Inv cs s) {c : ServiceComponent} {todo : List ServiceComponent}
    (hphase : s.phase = .starting c todo) {raised : Bool}
    (hstep : s.step cs (.ends raised) = some s') : Inv cs s' := by
  obtain ⟨hraised, ⟨order, horder, hsplit⟩, hcalls⟩ :
      Fits cs s.started s.raised s.calls (.starting c todo) := hphase ▸ h.fits
  have hdeadline := h.deadline (by rw [hphase]; exact Phase.noConfusion)
  have hbefore : cs.Starts s.started := ⟨order, horder, hsplit ▸ List.prefix_append _ _⟩
  have hsplit' : order.reverse = s.started ++ [c] ++ todo := by
    rw [hsplit, List.append_assoc]
    rfl
  have hafter : cs.Starts (s.started ++ [c]) := ⟨order, horder, hsplit' ▸ List.prefix_append _ _⟩
  have hmarked : ∀ s'' : State, s''.log = s.log ++ [.ends .start c.name raised] →
      s''.shutdown = s.shutdown → s''.failure = s.failure → Marked cs s'' :=
    fun s'' hlog hshutdown hfailure =>
      h.toMarked.concat_of_ne hlog hshutdown hfailure rfl fun name heq => by cases heq
  have hended : ∀ s'' : State, s''.log = s.log ++ [.ends .start c.name raised] →
      s''.calls = returnedCalls s.started ++
        [.begins .start c.name, .ends .start c.name raised] := by
    intro s'' hlog
    rw [calls_concat hlog rfl, hcalls, List.append_assoc]
    rfl
  simp only [State.step, hphase] at hstep
  cases raised with
  | true =>
    rw [if_pos rfl] at hstep
    cases hstep
    have hfailed : Marked cs { s.note (.ends .start c.name true) with raised := some c.name } :=
      hmarked _ rfl rfl rfl
    refine Inv.drainNext hfailed hdeadline hbefore (rfl : _ = [] ++ s.started) .nil ?_
    rw [hended _ rfl, List.append_nil]
    rfl
  | false =>
    rw [if_neg Bool.false_ne_true] at hstep
    have hreturned : ∀ s'' : State, s''.log = s.log ++ [.ends .start c.name false] →
        s''.calls = returnedCalls (s.started ++ [c]) := by
      intro s'' hlog
      rw [hended s'' hlog, returnedCalls_concat]
    cases hshutdown : s.shutdown with
    | true =>
      rw [hshutdown, if_pos rfl] at hstep
      cases hstep
      have hwaits : Marked cs
          { s.note (.ends .start c.name false) with
            phase := .waiting
            started := s.started ++ [c] } :=
        hmarked _ rfl rfl rfl
      exact
        { hwaits with
          fits := ⟨hraised, hafter, hreturned _ rfl⟩
          deadline := fun _ => hdeadline }
    | false =>
      rw [hshutdown, if_neg Bool.false_ne_true] at hstep
      cases hstep
      have hgoes : Marked cs
          { s.note (.ends .start c.name false) with started := s.started ++ [c] } :=
        hmarked _ rfl rfl rfl
      refine Inv.startNext hgoes hdeadline horder hsplit' hraised (hreturned _ rfl)
        (.inl fun failure hin => ?_)
      have hold : .requested failure ∈ s.log := by
        obtain hin | hin := List.mem_append.mp hin
        · exact hin
        · cases List.mem_singleton.mp hin
      have hset := h.shutdown.mpr ⟨failure, hold⟩
      exact Bool.false_ne_true (hshutdown.symm.trans hset)

theorem Inv.ends_later (h : Inv cs s) {c : ServiceComponent} {todo : List ServiceComponent}
    (raised : Bool) :
    (s.phase = .draining c todo → Inv cs ((s.note (.ends .drain c.name raised)).drainNext todo)) ∧
    (s.phase = .stopping c todo → Inv cs ((s.note (.ends .stop c.name raised)).stopNext todo)) := by
  have hmarked : ∀ call, call ≠ .start → Marked cs (s.note (.ends call c.name raised)) :=
    fun call _ => h.toMarked.concat_of_ne rfl rfl rfl rfl fun name heq => by cases heq
  constructor
  · intro hphase
    obtain ⟨hstarts, drained, log, hstarted, hlog, hcalls⟩ :
        Fits cs s.started s.raised s.calls (.draining c todo) := hphase ▸ h.fits
    have hdeadline := h.deadline (by rw [hphase]; exact Phase.noConfusion)
    have hnext : Ran .drain ((drained ++ [c]).map ServiceComponent.name)
        (log ++ [.begins .drain c.name, .ends .drain c.name raised]) := by
      rw [List.map_append]
      exact hlog.concat c.name raised
    refine Inv.drainNext (hmarked .drain Call.noConfusion) hdeadline hstarts ?_ hnext ?_
    · show s.started = _
      rw [hstarted, List.append_assoc]
      rfl
    · rw [calls_concat (s := s) rfl rfl, hcalls]
      simp only [List.append_assoc]
      rfl
  · intro hphase
    obtain ⟨hstarts, drains, stopped, log, hstarted, hdrains, hlog, hcalls⟩ :
        Fits cs s.started s.raised s.calls (.stopping c todo) := hphase ▸ h.fits
    have hdeadline := h.deadline (by rw [hphase]; exact Phase.noConfusion)
    have hnext : Ran .stop ((stopped ++ [c]).map ServiceComponent.name)
        (log ++ [.begins .stop c.name, .ends .stop c.name raised]) := by
      rw [List.map_append]
      exact hlog.concat c.name raised
    refine Inv.stopNext (hmarked .stop Call.noConfusion) hdeadline hstarts ?_ hdrains hnext ?_
    · show s.started = _
      rw [hstarted, List.append_assoc]
      rfl
    · rw [calls_concat (s := s) rfl rfl, hcalls]
      simp only [List.append_assoc]
      rfl

theorem inv_isInvariant (cs : Components) : (service cs).IsInvariant (Inv cs) where
  init :=
    { fits := ⟨rfl, rfl, rfl⟩
      inOrder := fun before name after heq => by simp [State.calls, service] at heq
      notLate := fun before failure after heq => by simp [service] at heq
      shutdown := by simp [service]
      failure := by simp [service]
      deadline := fun _ => by simp [service] }
  step s act s' h hstep := by
    cases act with
    | run =>
      cases hphase : s.phase <;> simp only [service, State.step, hphase, reduceCtorEq] at hstep
      cases horder : cs.topologicalOrder with
      | error refusal =>
        rw [horder] at hstep
        cases hstep
        exact h.refuse hphase horder
      | ok order =>
        rw [horder] at hstep
        cases hstep
        exact h.run hphase horder
    | request failure =>
      cases hstep
      exact h.requestShutdown failure
    | ends raised =>
      cases hphase : s.phase with
      | starting c todo => exact h.ends_start hphase hstep
      | draining c todo =>
        simp only [service, State.step, hphase] at hstep
        cases hstep
        exact (h.ends_later raised).1 hphase
      | stopping c todo =>
        simp only [service, State.step, hphase] at hstep
        cases hstep
        exact (h.ends_later raised).2 hphase
      | _ => simp only [service, State.step, hphase, reduceCtorEq] at hstep
    | wake =>
      cases hphase : s.phase <;> simp only [service, State.step, hphase, reduceCtorEq] at hstep
      split_ifs at hstep
      cases hstep
      obtain ⟨hraised, hstarts, hcalls⟩ : Fits cs s.started s.raised s.calls .waiting :=
        hphase ▸ h.fits
      refine Inv.drainNext h.toMarked (h.deadline (by rw [hphase]; exact Phase.noConfusion))
        hstarts (rfl : _ = [] ++ s.started) .nil ?_
      rw [hcalls, hraised]
      simp [failedCalls]

/-! ### What a run comes to -/

theorem Components.topologicalOrder_eq_ok_iff :
    (∃ order, cs.topologicalOrder = .ok order) ↔ ¬cs.Faulty := by
  unfold topologicalOrder Faulty
  rw [← order_eq_ok_iff fun name => mem_names]
  constructor
  · rintro ⟨order, horder⟩
    cases hmarks : Graphs.order cs.get? ServiceComponent.dependsOn cs.names with
    | ok m => exact ⟨m, rfl⟩
    | error refusal =>
      rw [hmarks] at horder
      cases horder
  · rintro ⟨m, hm⟩
    exact ⟨m.ordered, by rw [hm]; rfl⟩

theorem Ran.exists_full {call : Call} {names : List String} {log : List Event}
    (h : Ran call names log) (more : List String) :
    ∃ full, Ran call (names ++ more) full ∧ log <+: full := by
  induction more generalizing names log with
  | nil => exact ⟨log, by rwa [List.append_nil], List.prefix_rfl⟩
  | cons name more ih =>
    obtain ⟨full, hfull, hpre⟩ := ih (h.concat name false)
    rw [List.append_assoc, List.singleton_append] at hfull
    exact ⟨full, hfull, (List.prefix_append _ _).trans hpre⟩

/-- A call that has begun is a part of one after another. -/
theorem Ran.inTurn_begins {call : Call} {names : List String} {log : List Event}
    (h : Ran call names log) (name : String) (more : List String) :
    InTurn call (names ++ name :: more) (log ++ [.begins call name]) := by
  obtain ⟨full, hfull, hpre⟩ := (h.concat name false).exists_full more
  rw [List.append_assoc, List.singleton_append] at hfull
  have hbegins : log ++ [.begins call name] <+:
      log ++ [.begins call name, .ends call name false] :=
    List.prefix_append_right_inj _ |>.mpr (List.prefix_append [_] [_])
  exact ⟨full, hfull, hbegins.trans hpre⟩

theorem Ran.filterMap_returned {call : Call} {names : List String} {log : List Event}
    (h : Ran call names log) (hcall : call ≠ .start) : log.filterMap Event.returned? = [] := by
  induction h with
  | nil => rfl
  | concat h name raised ih =>
    rw [List.filterMap_append, ih]
    cases call with
    | start => exact absurd rfl hcall
    | drain => rfl
    | stop => rfl

theorem filterMap_returnedCalls (started : List ServiceComponent) (raised : Option String) :
    (returnedCalls started ++ failedCalls raised).filterMap Event.returned? =
      started.map ServiceComponent.name := by
  have hfailed : (failedCalls raised).filterMap Event.returned? = [] := by
    cases raised <;> rfl
  rw [List.filterMap_append, hfailed, List.append_nil]
  induction started with
  | nil => rfl
  | cons c started ih => exact congrArg _ ih

theorem isStart_of_mem {started : List ServiceComponent} {raised : Option String} {e : Event}
    (h : e ∈ returnedCalls started ++ failedCalls raised) : e.isStart = true := by
  obtain h | h := List.mem_append.mp h
  · obtain ⟨c, -, hc⟩ := List.mem_flatMap.mp h
    simp only [List.mem_cons, List.not_mem_nil, or_false] at hc
    rcases hc with rfl | rfl <;> rfl
  · cases raised with
    | none => cases h
    | some name =>
      simp only [failedCalls, List.mem_cons, List.not_mem_nil, or_false] at h
      rcases h with rfl | rfl <;> rfl

theorem InTurn.nil (call : Call) (names : List String) : InTurn call names [] := by
  obtain ⟨full, hfull, -⟩ := (Ran.nil : Ran call [] []).exists_full names
  exact ⟨full, hfull, List.nil_prefix⟩

theorem Ran.inTurn {call : Call} {names : List String} {log : List Event}
    (h : Ran call names log) : InTurn call names log :=
  ⟨log, h, List.prefix_rfl⟩

/-- While nothing has been drained, there are only starts. -/
theorem inPhases_of_isStart {calls : List Event} (h : ∀ e ∈ calls, e.isStart = true) :
    InPhases calls False :=
  ⟨calls, [], [], (List.append_nil _).symm, h, .nil _ _, .nil _ _,
    fun hor => (hor.resolve_left fun hne => hne rfl).elim, False.elim⟩

theorem isStart_concat {started : List ServiceComponent} {name : String} {e : Event}
    (h : e ∈ returnedCalls started ++ [.begins .start name]) : e.isStart = true := by
  obtain h | h := List.mem_append.mp h
  · exact @isStart_of_mem _ none _ (List.mem_append_left _ h)
  · rw [List.mem_singleton.mp h]
    rfl

theorem Inv.inPhases (h : Inv cs s) : InPhases s.calls (s.phase = .ended) := by
  have hfits := h.fits
  -- only the calls of `start` say what was started
  have hnames : ∀ drains stops : List Event,
      s.calls = returnedCalls s.started ++ failedCalls s.raised ++ (drains ++ stops) →
      drains.filterMap Event.returned? = [] → stops.filterMap Event.returned? = [] →
      s.calls.filterMap Event.returned? = s.started.map ServiceComponent.name := by
    intro drains stops hcalls hdrains hstops
    rw [hcalls, List.filterMap_append, filterMap_returnedCalls, List.filterMap_append, hdrains,
      hstops, List.append_nil, List.append_nil]
  have hopen : s.phase ≠ .ended → (∀ e ∈ s.calls, e.isStart = true) →
      InPhases s.calls (s.phase = .ended) := by
    intro hne hstarts
    rw [eq_false hne]
    exact inPhases_of_isStart hstarts
  cases hphase : s.phase with
  | idle =>
    rw [hphase] at hfits hopen
    refine hopen Phase.noConfusion fun e he => ?_
    rw [hfits.2.2] at he
    cases he
  | refused refusal =>
    rw [hphase] at hfits hopen
    refine hopen Phase.noConfusion fun e he => ?_
    rw [hfits.2.2.2] at he
    cases he
  | starting c todo =>
    rw [hphase] at hfits hopen
    refine hopen Phase.noConfusion fun e he => ?_
    rw [hfits.2.2] at he
    exact isStart_concat he
  | waiting =>
    rw [hphase] at hfits hopen
    refine hopen Phase.noConfusion fun e he => ?_
    rw [hfits.2.2] at he
    exact @isStart_of_mem _ none _ (List.mem_append_left _ he)
  | draining c todo =>
    rw [hphase] at hfits
    obtain ⟨-, drained, log, hstarted, hlog, hcalls⟩ := hfits
    have hturn := hlog.inTurn_begins c.name (todo.map ServiceComponent.name)
    have hdrains : (log ++ [Event.begins .drain c.name]).filterMap Event.returned? = [] := by
      rw [List.filterMap_append, hlog.filterMap_returned Call.noConfusion]
      rfl
    rw [← List.append_nil (log ++ [Event.begins .drain c.name])] at hcalls
    have hall := hnames _ _ hcalls hdrains rfl
    refine ⟨_, _, _, hcalls, fun e he => isStart_of_mem he, ?_, .nil _ _, ?_, ?_⟩
    · rw [hall, hstarted, List.map_append]
      exact hturn
    · rintro (hne | hended)
      · exact absurd rfl hne
      · cases hended
    · intro hended
      cases hended
  | stopping c todo =>
    rw [hphase] at hfits
    obtain ⟨-, drains, stopped, log, hstarted, hdrains, hlog, hcalls⟩ := hfits
    have hturn := hlog.inTurn_begins c.name (todo.map ServiceComponent.name)
    have hstops : (log ++ [Event.begins .stop c.name]).filterMap Event.returned? = [] := by
      rw [List.filterMap_append, hlog.filterMap_returned Call.noConfusion]
      rfl
    have hall := hnames _ _ hcalls (hdrains.filterMap_returned Call.noConfusion) hstops
    refine ⟨_, _, _, hcalls, fun e he => isStart_of_mem he, ?_, ?_, fun _ => ?_, ?_⟩
    · rw [hall]
      exact hdrains.inTurn
    · rw [hall, hstarted, List.map_append]
      exact hturn
    · rw [hall]
      exact hdrains
    · intro hended
      cases hended
  | ended =>
    rw [hphase] at hfits
    obtain ⟨-, drains, stops, hdrains, hstops, hcalls⟩ := hfits
    have hall := hnames _ _ hcalls (hdrains.filterMap_returned Call.noConfusion)
      (hstops.filterMap_returned Call.noConfusion)
    refine ⟨_, _, _, hcalls, fun e he => isStart_of_mem he, ?_, ?_, fun _ => ?_, fun _ => ?_⟩
    · rw [hall]
      exact hdrains.inTurn
    · rw [hall]
      exact hstops.inTurn
    · rw [hall]
      exact hdrains
    · rw [hall]
      exact hstops

theorem Components.Starts.nodup {started : List ServiceComponent} (h : cs.Starts started) :
    (started.map ServiceComponent.name).Nodup := by
  obtain ⟨order, horder, hpre⟩ := h
  unfold Components.topologicalOrder at horder
  cases hmarks : Graphs.order cs.get? ServiceComponent.dependsOn cs.names with
  | error refusal =>
    rw [hmarks] at horder
    cases horder
  | ok m =>
    rw [hmarks] at horder
    obtain rfl := Except.ok.inj horder
    obtain ⟨hsorted, -⟩ := sorted_of_order (fun name => Components.mem_names) hmarks
    have hnodup : (m.ordered.reverse.map ServiceComponent.name).Nodup := by
      rw [List.map_reverse, List.nodup_reverse, map_name_ordered hsorted]
      exact hsorted.nodup
    exact hnodup.sublist (hpre.sublist.map _)

theorem Inv.nodup_returned (h : Inv cs s) : (s.calls.filterMap Event.returned?).Nodup := by
  have hfits := h.fits
  have hstarts : ∀ later : List Event, later.filterMap Event.returned? = [] →
      ∀ raised, s.calls = returnedCalls s.started ++ failedCalls raised ++ later →
      cs.Starts s.started → (s.calls.filterMap Event.returned?).Nodup := by
    intro later hlater raised hcalls hstarts
    rw [hcalls, List.filterMap_append, filterMap_returnedCalls, hlater, List.append_nil]
    exact hstarts.nodup
  cases hphase : s.phase with
  | idle =>
    rw [hphase] at hfits
    rw [hfits.2.2]
    exact List.nodup_nil
  | refused refusal =>
    rw [hphase] at hfits
    rw [hfits.2.2.2]
    exact List.nodup_nil
  | starting c todo =>
    rw [hphase] at hfits
    obtain ⟨-, ⟨order, horder, hsplit⟩, hcalls⟩ := hfits
    refine hstarts [.begins .start c.name] rfl none ?_
      ⟨order, horder, hsplit ▸ List.prefix_append _ _⟩
    rw [hcalls, failedCalls, List.append_nil]
  | waiting =>
    rw [hphase] at hfits
    refine hstarts [] rfl none ?_ hfits.2.1
    rw [hfits.2.2, failedCalls, List.append_nil, List.append_nil]
  | draining c todo =>
    rw [hphase] at hfits
    obtain ⟨hfirst, drained, log, -, hlog, hcalls⟩ := hfits
    refine hstarts _ ?_ s.raised hcalls hfirst
    rw [List.filterMap_append, hlog.filterMap_returned Call.noConfusion]
    rfl
  | stopping c todo =>
    rw [hphase] at hfits
    obtain ⟨hfirst, drains, stopped, log, -, hdrains, hlog, hcalls⟩ := hfits
    refine hstarts _ ?_ s.raised hcalls hfirst
    rw [List.filterMap_append, List.filterMap_append,
      hdrains.filterMap_returned Call.noConfusion, hlog.filterMap_returned Call.noConfusion]
    rfl
  | ended =>
    rw [hphase] at hfits
    obtain ⟨hfirst, drains, stops, hdrains, hstops, hcalls⟩ := hfits
    refine hstarts _ ?_ s.raised hcalls hfirst
    rw [List.filterMap_append, hdrains.filterMap_returned Call.noConfusion,
      hstops.filterMap_returned Call.noConfusion]
    rfl

/-- Components start and wind down in order, in every run. -/
theorem winds_down (hrun : (service cs).run acts = some s) : WindsDown cs s := by
  have h := (inv_isInvariant cs).of_run hrun
  have hfits := h.fits
  exact
    { refused := by
        intro hidle
        have hopen : ∀ order, cs.topologicalOrder = .ok order →
            (∀ refusal, s.phase ≠ .refused refusal) →
            ((∃ refusal, s.phase = .refused refusal) ↔ cs.Faulty) := by
          intro order horder hne
          have hfaultless := Components.topologicalOrder_eq_ok_iff.mp ⟨order, horder⟩
          exact ⟨fun ⟨refusal, heq⟩ => absurd heq (hne refusal), fun hf => absurd hf hfaultless⟩
        cases hphase : s.phase with
        | idle => exact absurd hphase hidle
        | refused refusal =>
          rw [hphase] at hfits
          refine ⟨fun _ => ?_, fun _ => ⟨refusal, rfl⟩⟩
          by_contra hfaultless
          obtain ⟨order, horder⟩ := Components.topologicalOrder_eq_ok_iff.mpr hfaultless
          cases hfits.1.symm.trans horder
        | starting c todo =>
          rw [hphase] at hfits hopen
          obtain ⟨-, ⟨order, horder, -⟩, -⟩ := hfits
          exact hopen order horder fun refusal => Phase.noConfusion
        | waiting =>
          rw [hphase] at hfits hopen
          obtain ⟨-, ⟨order, horder, -⟩, -⟩ := hfits
          exact hopen order horder fun refusal => Phase.noConfusion
        | draining c todo | stopping c todo | ended =>
          rw [hphase] at hfits hopen
          obtain ⟨⟨order, horder, -⟩, -⟩ := hfits
          exact hopen order horder fun refusal => Phase.noConfusion
      starts_nothing := by
        rintro ⟨refusal, hphase⟩
        rw [hphase] at hfits
        exact hfits.2.2.2
      inOrder := h.inOrder
      notLate := h.notLate
      windDown := h.inPhases
      once := h.nodup_returned
      deadline := fun hphase => (h.deadline hphase).trans h.shutdown
      exitCode := by
        unfold State.exitCode
        exact if_congr h.failure rfl rfl }

/-! ### Runs -/

/-- A runner, an edge in front of it and a monitor in front of that. -/
def threeComponents : Components where
  entries := [⟨"runner", []⟩, ⟨"http", ["runner"]⟩, ⟨"monitor", ["http", "runner"]⟩]
  nodup_names := by decide

/-- A failure is requested while the edge starts: the runner is not started, and what was started is
drained and stopped, though a drain raises. -/
def failingRun : List Act :=
  [.run, .ends false, .request true, .ends false, .request false, .wake, .ends true, .ends false,
    .ends false, .ends false]

theorem isSome_failingRun : ((service threeComponents).run failingRun).isSome := rfl

theorem winds_down_failingRun :
    ∃ s, (service threeComponents).run failingRun = some s ∧
      (s.phase = .ended ∧ s.started.map ServiceComponent.name = ["monitor", "http"]) ∧
      WindsDown threeComponents s := by
  refine ⟨_, (Option.some_get isSome_failingRun).symm, by decide +kernel, ?_⟩
  exact winds_down (Option.some_get isSome_failingRun).symm

end ReactorRuntime.Runtime.Service
