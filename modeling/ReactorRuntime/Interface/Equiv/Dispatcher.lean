import ReactorRuntime.Interface.Dispatcher

/-!
# What the dispatcher does with each item

Items are dispatched in the order in which they were posted.  The inbound loop ends with the model's
loop, unless something that is no `Exception` comes out of a handler or a hook, the send of an
answer raises, or a factory of the state does: nothing watches its task then.  As long as none of
this happens, a command that carries a request id is answered once (`dispatched_and_answered`).
-/

namespace ReactorRuntime.Interface

namespace Dispatcher

variable {app : AppClass} {s s' : Dispatcher}

/-! ### The steps -/

inductive Takes (s : Dispatcher) (item : Inbound) (rest : List Inbound) (raises : Bool) :
    Dispatcher → Prop
  | locks (gate : LiveGate) (failedStepCalls : List (String × String))
      (h : ∀ request, item ≠ .step request) :
      Takes s item rest raises { s with
        queue := rest, dispatched := s.dispatched ++ [item], gate, failedStepCalls
        inbound := .locking item }
  | finishes (gate : LiveGate) (failedStepCalls : List (String × String))
      (h : ∀ envelope, item = .command envelope → envelope.stepRequestId ≠ none) :
      Takes s item rest raises { s with
        queue := rest, dispatched := s.dispatched ++ [item], gate, failedStepCalls
        inbound := .idle, handled := s.handled + 1 }
  | awaits {request : StepEnvelope} (h : item = .step request) :
      Takes s item rest raises { s with
        queue := rest, dispatched := s.dispatched ++ [item], pendingStep := some request
        stepDone := false, inbound := .awaiting }
  | dies (failedStepCalls : List (String × String)) (h : raises = true) :
      Takes s item rest raises { s with
        queue := rest, dispatched := s.dispatched ++ [item], failedStepCalls, inbound := .over }

inductive Step (app : AppClass) (s : Dispatcher) : Label → Dispatcher → Prop
  | enqueues {l : Label} {items : List Inbound} (hrun : s.run ≠ .over)
      (h : ∀ envelope, .command envelope ∈ items → envelope.command ∈ app.commands ∧
        (envelope.requestId.isSome → envelope.stepRequestId = none)) :
      Step app s l (s.enqueue items)
  | connects {l : Label} (connections : String → Option Protocol.ProtocolVersion) :
      Step app s l { s with connections }
  | takes {item : Inbound} {rest : List Inbound} {raises : Bool} {t : Dispatcher}
      (hidle : s.inbound = .idle) (hqueue : s.queue = item :: rest)
      (h : Takes s item rest raises t) : Step app s (.take raises) t
  | handles {item : Inbound} (hlocking : s.inbound = .locking item) :
      Step app s (.acquire false) { s with inbound := .handling item }
  | unknown {envelope : CommandEnvelope} (hlocking : s.inbound = .locking (.command envelope))
      (h : envelope.command ∉ app.commands) : Step app s (.acquire false) s.finish
  | skips {event : ReactorEvent} (gate : LiveGate)
      (hlocking : s.inbound = .locking (.event event)) :
      Step app s (.acquire false) { s with gate }.finish
  | factoryRaises : Step app s (.acquire true) { s with inbound := .over }
  | answers {envelope : CommandEnvelope} {ending : Ending} {answer : Answer}
      (failedStepCalls : List (String × String))
      (hhandling : s.inbound = .handling (.command envelope))
      (hanswer : answerTo envelope ending = some answer)
      (hreaches : s.reaches envelope answer = true) :
      Step app s (.endHandler ending false) { { s with failedStepCalls }.finish with
        answers := s.answers ++ [(s.dispatched.length - 1, answer)] }
  | ends {envelope : CommandEnvelope} {ending : Ending} (failedStepCalls : List (String × String))
      (hhandling : s.inbound = .handling (.command envelope)) (hending : ending ≠ .escaped)
      (h : ∀ answer, answerTo envelope ending = some answer → s.reaches envelope answer = false) :
      Step app s (.endHandler ending false) { s with failedStepCalls }.finish
  | escapes {ending : Ending} {raises : Bool} (failedStepCalls : List (String × String))
      (h : raises = true ∨ ending = .escaped) :
      Step app s (.endHandler ending raises) { s with failedStepCalls, inbound := .over }
  | returns {event : ReactorEvent} {ending : Ending} (gate : LiveGate)
      (hhandling : s.inbound = .handling (.event event)) (hending : ending ≠ .escaped) :
      Step app s (.endHandler ending false) { s with gate }.finish
  | resumes (hawaiting : s.inbound = .awaiting) : Step app s .resume s.finish
  | begins (hrun : s.run = .waiting) : Step app s .beginTurn { s with run := .turning none }
  | beginsStep {request : StepEnvelope} (hrun : s.run = .waiting)
      (h : s.pendingStep = some request) : Step app s .beginStep
        { s with run := .turning (some request), pendingStep := none }
  | endsTurn {ending : TurnEnding} {request : Option StepEnvelope} (gate : LiveGate)
      (hrun : s.run = .turning request) : Step app s (.endTurn ending)
        { s with run := .waiting, stepDone := s.stepDone || request.isSome, gate }
  | closes {l : Label} {failed : Bool}
      (h : failed = true ∨ l = .endTurn .escaped ∨ l = .runRaises true) :
      Step app s l (s.close failed)
  | stops : Step app s .stop { s.close false with stopped := true }

theorem takes_of_finish {item : Inbound} {rest : List Inbound} {raises : Bool} (gate : LiveGate)
    (failedStepCalls : List (String × String))
    (h : ∀ envelope, item = .command envelope → envelope.stepRequestId ≠ none) :
    Takes s item rest raises { s with
      queue := rest, dispatched := s.dispatched ++ [item], gate, failedStepCalls }.finish :=
  .finishes gate failedStepCalls h

theorem takes_of_take {raises : Bool} (h : s.take app raises = some s') :
    ∃ item rest, s.inbound = .idle ∧ s.queue = item :: rest ∧ Takes s item rest raises s' := by
  unfold take at h
  split at h
  · next item rest hidle hqueue =>
    refine ⟨item, rest, hidle, hqueue, ?_⟩
    cases item with
    | command envelope =>
      dsimp only at h
      split_ifs at h
      cases h
      unfold dispatchCommand
      split
      · next key hkey =>
        split_ifs
        · refine takes_of_finish s.gate s.failedStepCalls fun _ heq hstep => ?_
          cases heq
          rw [CommandEnvelope.stepKey, hstep] at hkey
          split at hkey
          · next hsome => cases hsome
          · cases hkey
        · exact .locks s.gate s.failedStepCalls nofun
      · exact .locks s.gate s.failedStepCalls nofun
    | step request =>
      have hrefused : ∀ failedStepCalls,
          sendStepRefusal { s with
            queue := rest, dispatched := s.dispatched ++ [.step request], failedStepCalls }
            request.conn raises = some s' → Takes s (.step request) rest raises s' := by
        intro failedStepCalls h
        unfold sendStepRefusal at h
        split_ifs at h with hraises hreaches
        · cases h
          exact .dies failedStepCalls hraises
        · cases h
          exact takes_of_finish s.gate failedStepCalls nofun
      dsimp only at h
      unfold dispatchStep at h
      split_ifs at h
      · exact hrefused _ h
      · exact hrefused s.failedStepCalls h
      · cases h
        exact .awaits rfl
    | event event =>
      dsimp only at h
      split_ifs at h
      cases h
      unfold dispatchReactorEvent
      cases event with
      | startingInputApplied => exact takes_of_finish _ s.failedStepCalls nofun
      | sessionStarted startingInput stepped steps => exact .locks _ s.failedStepCalls nofun
      | sessionEnded => exact .locks _ [] nofun
      | clientConnected conn total =>
        dsimp only
        split_ifs
        · exact .locks _ s.failedStepCalls nofun
        · exact takes_of_finish _ s.failedStepCalls nofun
      | clientDisconnected conn total =>
        dsimp only
        split_ifs
        · exact .locks _ s.failedStepCalls nofun
        · exact takes_of_finish _ s.failedStepCalls nofun
      | fileUploaded conn =>
        dsimp only
        split_ifs
        · exact .locks _ s.failedStepCalls nofun
        · exact takes_of_finish _ s.failedStepCalls nofun
  · cases h

theorem finishEvent_eq (event : ReactorEvent) :
    ∃ gate, s.finishEvent event = { s with gate }.finish := by
  cases event <;> exact ⟨_, rfl⟩

theorem noteFailure_eq (envelope : CommandEnvelope) (ending : Ending) :
    ∃ failedStepCalls, s.noteFailure envelope ending = { s with failedStepCalls } := by
  unfold noteFailure
  split <;> exact ⟨_, rfl⟩

theorem step_of_next {l : Label} (h : s.next app l = some s') : Step app s l s' := by
  cases l with
  | submitCommand name conn requestId =>
    simp only [next] at h
    split_ifs at h with hrun
    cases h
    refine .enqueues hrun.1 fun envelope hmem => ?_
    obtain rfl : envelope = _ := Inbound.command.inj (List.mem_singleton.mp hmem)
    exact ⟨hrun.2, fun _ => rfl⟩
  | submitStep calls request =>
    simp only [next] at h
    split_ifs at h with hrun
    cases h
    refine .enqueues hrun.1 fun envelope hmem => ?_
    rcases List.mem_append.mp hmem with hmem | hmem
    · obtain ⟨name, hname, heq⟩ := List.mem_map.mp hmem
      obtain rfl := Inbound.command.inj heq
      exact ⟨hrun.2 name hname, nofun⟩
    · cases List.mem_singleton.mp hmem
  | post event =>
    simp only [next] at h
    split_ifs at h with hrun
    cases h
    refine .enqueues hrun fun envelope hmem => ?_
    cases List.mem_singleton.mp hmem
  | register conn version =>
    cases h
    exact .connects _
  | unregister conn =>
    cases h
    exact .connects _
  | take raises =>
    obtain ⟨item, rest, hidle, hqueue, htakes⟩ := takes_of_take h
    exact .takes hidle hqueue htakes
  | acquire raises =>
    simp only [next] at h
    unfold acquire at h
    split at h
    · cases h
    · next envelope hlocking _ =>
      split_ifs at h with hraises hknown
      · cases h
        rw [Bool.not_eq_true] at hraises
        subst hraises
        exact .handles hlocking
      · cases h
        rw [Bool.not_eq_true] at hraises
        subst hraises
        exact .unknown hlocking hknown
    · next event hlocking _ =>
      cases raises with
      | true =>
        rw [if_pos rfl] at h
        split at h
        · split_ifs at h
          cases h
          exact .factoryRaises
        · cases h
      | false =>
        rw [if_neg Bool.false_ne_true] at h
        split_ifs at h with hhook
        · cases h
          exact .handles hlocking
        · cases h
          obtain ⟨gate, heq⟩ := finishEvent_eq (s := s) event
          rw [heq]
          exact .skips gate hlocking
    · cases h
  | endHandler ending raises =>
    simp only [next] at h
    unfold endHandler at h
    split at h
    · next envelope hhandling =>
      obtain ⟨failedStepCalls, heq⟩ := noteFailure_eq (s := s) envelope ending
      unfold endCommand at h
      rw [heq] at h
      dsimp only at h
      split_ifs at h with hescaped hraises hraises hmay
      · cases h
        exact .escapes s.failedStepCalls (.inr hescaped)
      · cases h
        exact .escapes failedStepCalls (.inl hraises)
      · rw [Bool.not_eq_true] at hraises
        subst hraises
        split at h
        · next answer hanswer =>
          split_ifs at h with hreaches
          · cases h
            exact .answers failedStepCalls hhandling hanswer hreaches
          · cases h
            refine .ends failedStepCalls hhandling hescaped fun answer' hanswer' => ?_
            obtain rfl := Option.some.inj (hanswer.symm.trans hanswer')
            exact Bool.not_eq_true _ ▸ hreaches
        · next hnone =>
          cases h
          refine .ends failedStepCalls hhandling hescaped fun answer' hanswer' => ?_
          rw [hnone] at hanswer'
          cases hanswer'
    · next event hhandling =>
      split_ifs at h with hraises hescaped
      · cases h
        exact .escapes s.failedStepCalls (.inr hescaped)
      · cases h
        rw [Bool.not_eq_true] at hraises
        subst hraises
        obtain ⟨gate, heq⟩ := finishEvent_eq (s := s) event
        rw [heq]
        exact .returns gate hhandling hescaped
    · cases h
  | resume =>
    simp only [next] at h
    split_ifs at h with hawaiting
    cases h
    exact .resumes hawaiting.1
  | beginTurn =>
    simp only [next] at h
    split_ifs at h with hrun
    cases h
    exact .begins hrun.1
  | beginStep =>
    simp only [next] at h
    split_ifs at h with hrun
    cases h
    obtain ⟨request, hrequest⟩ := Option.isSome_iff_exists.mp hrun.2.1
    rw [hrequest]
    exact .beginsStep hrun.1 hrequest
  | endTurn ending =>
    simp only [next] at h
    unfold endTurn at h
    split at h
    · next request hrun =>
      cases ending with
      | returned =>
        cases h
        exact .endsTurn _ hrun
      | refused raises =>
        dsimp only at h
        split_ifs at h
        · cases h
          exact .closes (.inl rfl)
        · cases h
          exact .endsTurn s.gate hrun
      | raised =>
        cases h
        exact .closes (.inl rfl)
      | escaped =>
        cases h
        exact .closes (.inr (.inl rfl))
    · cases h
  | runRaises escaped =>
    simp only [next] at h
    split_ifs at h
    cases h
    cases escaped with
    | true => exact .closes (.inr (.inr rfl))
    | false => exact .closes (.inl rfl)
  | crash =>
    simp only [next] at h
    split_ifs at h
    cases h
    exact .closes (.inl rfl)
  | stop =>
    simp only [next] at h
    split_ifs at h
    cases h
    exact .stops

/-! ### The order -/

/-- Items are dispatched as they were posted, one at a time, and a command is answered once. -/
structure Ordered (app : AppClass) (s : Dispatcher) : Prop where
  queue : s.dispatched ++ s.queue = s.posted
  known : ∀ envelope, .command envelope ∈ s.posted → envelope.command ∈ app.commands ∧
    (envelope.requestId.isSome → envelope.stepRequestId = none)
  current : ∀ item, s.inbound = .locking item ∨ s.inbound = .handling item →
    s.dispatched[s.handled]? = some item ∧ s.dispatched.length = s.handled + 1 ∧
      ∀ request, item ≠ .step request
  awaiting : s.inbound = .awaiting → ∃ request,
    s.dispatched[s.handled]? = some (.step request) ∧ s.dispatched.length = s.handled + 1
  idle : s.inbound = .idle → s.dispatched.length = s.handled
  handled : s.handled ≤ s.dispatched.length
  answers : ∀ a ∈ s.answers, a.1 < s.handled
  once : (s.answers.map Prod.fst).Nodup

namespace Ordered

theorem init : Ordered app ({} : Dispatcher) := by
  refine ⟨rfl, fun _ h => absurd h List.not_mem_nil, fun _ h => ?_, nofun, fun _ => rfl,
    Nat.le_refl _, fun _ h => absurd h List.not_mem_nil, List.nodup_nil⟩
  rcases h with h | h <;> cases h

theorem of_eq (h : s.Ordered app) (hinbound : s'.inbound = s.inbound)
    (hqueue : s'.queue = s.queue) (hposted : s'.posted = s.posted)
    (hdispatched : s'.dispatched = s.dispatched) (hhandled : s'.handled = s.handled)
    (hanswers : s'.answers = s.answers) : s'.Ordered app := by
  obtain ⟨queue, known, current, awaiting, idle, handled, answers, once⟩ := h
  rw [← hdispatched, ← hqueue, ← hposted] at queue
  rw [← hposted] at known
  rw [← hinbound, ← hdispatched, ← hhandled] at current awaiting idle
  rw [← hdispatched, ← hhandled] at handled
  rw [← hanswers, ← hhandled] at answers
  rw [← hanswers] at once
  exact ⟨queue, known, current, awaiting, idle, handled, answers, once⟩

theorem finishes (h : s.Ordered app) (hlength : s.dispatched.length = s.handled + 1)
    (hinbound : s'.inbound = .idle) (hqueue : s'.queue = s.queue) (hposted : s'.posted = s.posted)
    (hdispatched : s'.dispatched = s.dispatched) (hhandled : s'.handled = s.handled + 1)
    (hanswers : s'.answers = s.answers ∨ ∃ a, s'.answers = s.answers ++ [(s.handled, a)]) :
    s'.Ordered app := by
  have hidle : ∀ {P : Prop} {stage : InboundStage}, s'.inbound = stage → stage ≠ .idle → P := by
    intro P stage hstage hne
    exact absurd (hstage.symm.trans hinbound) hne
  refine ⟨?_, ?_, fun item hitem => ?_, fun hawaiting => hidle hawaiting nofun, fun _ => ?_, ?_,
    fun a ha => ?_, ?_⟩
  · rw [hdispatched, hqueue, hposted]
    exact h.queue
  · rw [hposted]
    exact h.known
  · rcases hitem with hitem | hitem
    · exact hidle hitem nofun
    · exact hidle hitem nofun
  · rw [hdispatched, hhandled]
    exact hlength
  · rw [hdispatched, hhandled, hlength]
  · rw [hhandled]
    rcases hanswers with hsame | ⟨answer, hmore⟩
    · rw [hsame] at ha
      exact Nat.lt_succ_of_lt (h.answers a ha)
    · rw [hmore] at ha
      rcases List.mem_append.mp ha with ha | ha
      · exact Nat.lt_succ_of_lt (h.answers a ha)
      · rw [List.mem_singleton.mp ha]
        exact Nat.lt_succ_self _
  · rcases hanswers with hsame | ⟨answer, hmore⟩
    · rw [hsame]
      exact h.once
    · -- no earlier answer is to this item
      rw [hmore, List.map_append, List.nodup_append]
      refine ⟨h.once, by simp, fun i hi j hj => ?_⟩
      obtain ⟨a, ha, rfl⟩ := List.mem_map.mp hi
      obtain rfl : j = s.handled := List.mem_singleton.mp hj
      exact (h.answers a ha).ne

theorem dies (h : s.Ordered app) (hinbound : s'.inbound = .over) (hqueue : s'.queue = s.queue)
    (hposted : s'.posted = s.posted) (hdispatched : s'.dispatched = s.dispatched)
    (hhandled : s'.handled = s.handled) (hanswers : s'.answers = s.answers) : s'.Ordered app := by
  have hover : ∀ {P : Prop} {stage : InboundStage}, s'.inbound = stage → stage ≠ .over → P := by
    intro P stage hstage hne
    exact absurd (hstage.symm.trans hinbound) hne
  refine ⟨?_, ?_, fun item hitem => ?_, fun h => hover h nofun, fun h => hover h nofun, ?_, ?_, ?_⟩
  · rw [hdispatched, hqueue, hposted]
    exact h.queue
  · rw [hposted]
    exact h.known
  · rcases hitem with hitem | hitem
    · exact hover hitem nofun
    · exact hover hitem nofun
  · rw [hdispatched, hhandled]
    exact h.handled
  · rw [hanswers, hhandled]
    exact h.answers
  · rw [hanswers]
    exact h.once

theorem length_of_busy (h : s.Ordered app) {item : Inbound}
    (hbusy : s.inbound = .locking item ∨ s.inbound = .handling item) :
    s.dispatched.length = s.handled + 1 := (h.current item hbusy).2.1

theorem takes (h : s.Ordered app) {item : Inbound} {rest : List Inbound} {raises : Bool}
    (hidle : s.inbound = .idle) (hqueue : s.queue = item :: rest)
    (htakes : Takes s item rest raises s') : s'.Ordered app := by
  have hlength := h.idle hidle
  have horder : s.dispatched ++ [item] ++ rest = s.posted := by
    rw [List.append_assoc, ← h.queue, hqueue]
    rfl
  have hnew : (s.dispatched ++ [item]).length = s.handled + 1 := by
    rw [List.length_append, hlength]
    rfl
  have hitem : (s.dispatched ++ [item])[s.handled]? = some item := by
    rw [← hlength]
    exact List.getElem?_concat_length
  cases htakes with
  | locks gate failedStepCalls hstep =>
    refine ⟨horder, h.known, fun item' hitem' => ?_, nofun, nofun, hnew ▸ Nat.le_succ _, h.answers,
      h.once⟩
    have heq : item' = item := by
      rcases hitem' with heq | heq <;> cases heq
      rfl
    subst heq
    exact ⟨hitem, hnew, hstep⟩
  | finishes gate failedStepCalls hstep =>
    refine ⟨horder, h.known, fun item' hitem' => ?_, nofun, fun _ => hnew, hnew.ge,
      fun a ha => Nat.lt_succ_of_lt (h.answers a ha), h.once⟩
    rcases hitem' with heq | heq <;> cases heq
  | @awaits request hrequest =>
    refine ⟨horder, h.known, fun item' hitem' => ?_, fun _ => ⟨request, ?_, hnew⟩, nofun,
      hnew ▸ Nat.le_succ _, h.answers, h.once⟩
    · rcases hitem' with heq | heq <;> cases heq
    · rw [← hrequest]
      exact hitem
  | dies failedStepCalls hraises =>
    refine ⟨horder, h.known, fun item' hitem' => ?_, nofun, nofun, hnew ▸ Nat.le_succ _, h.answers,
      h.once⟩
    rcases hitem' with heq | heq <;> cases heq

theorem next {l : Label} (h : s.Ordered app) (hnext : s.next app l = some s') : s'.Ordered app := by
  have hstep := step_of_next hnext
  cases hstep with
  | @enqueues _ items hrun hitems =>
    refine ⟨?_, fun envelope hmem => ?_, h.current, h.awaiting, h.idle, h.handled, h.answers,
      h.once⟩
    · show s.dispatched ++ (s.queue ++ items) = s.posted ++ items
      rw [← List.append_assoc, h.queue]
    · rcases List.mem_append.mp hmem with hmem | hmem
      · exact h.known envelope hmem
      · exact hitems envelope hmem
  | connects connections => exact h.of_eq rfl rfl rfl rfl rfl rfl
  | takes hidle hqueue htakes => exact h.takes hidle hqueue htakes
  | @handles item hlocking =>
    refine ⟨h.queue, h.known, fun item' hitem' => ?_, nofun, nofun, h.handled, h.answers, h.once⟩
    have heq : item' = item := by
      rcases hitem' with heq | heq <;> cases heq
      rfl
    subst heq
    exact h.current item' (.inl hlocking)
  | unknown hlocking hunknown =>
    exact h.finishes (h.length_of_busy (.inl hlocking)) rfl rfl rfl rfl rfl (.inl rfl)
  | skips gate hlocking =>
    exact h.finishes (h.length_of_busy (.inl hlocking)) rfl rfl rfl rfl rfl (.inl rfl)
  | factoryRaises => exact h.dies rfl rfl rfl rfl rfl rfl
  | @answers envelope ending answer failedStepCalls hhandling hanswer hreaches =>
    have hlength := h.length_of_busy (.inr hhandling)
    refine h.finishes hlength rfl rfl rfl rfl rfl (.inr ⟨answer, ?_⟩)
    show s.answers ++ [(s.dispatched.length - 1, answer)] = _
    rw [hlength, Nat.add_sub_cancel]
  | ends failedStepCalls hhandling hending hanswer =>
    exact h.finishes (h.length_of_busy (.inr hhandling)) rfl rfl rfl rfl rfl (.inl rfl)
  | escapes failedStepCalls hescapes => exact h.dies rfl rfl rfl rfl rfl rfl
  | returns gate hhandling hending =>
    exact h.finishes (h.length_of_busy (.inr hhandling)) rfl rfl rfl rfl rfl (.inl rfl)
  | resumes hawaiting =>
    obtain ⟨request, -, hlength⟩ := h.awaiting hawaiting
    exact h.finishes hlength rfl rfl rfl rfl rfl (.inl rfl)
  | begins hrun => exact h.of_eq rfl rfl rfl rfl rfl rfl
  | beginsStep hrun hrequest => exact h.of_eq rfl rfl rfl rfl rfl rfl
  | endsTurn gate hrun => exact h.of_eq rfl rfl rfl rfl rfl rfl
  | closes hcloses => exact h.dies rfl rfl rfl rfl rfl rfl
  | stops => exact h.dies rfl rfl rfl rfl rfl rfl

end Ordered

/-! ### Who goes on -/

/-- Something that is no `Exception` comes out of a handler, a hook or the step loop, the send of an
answer of the dispatcher raises, or a factory of the state does. -/
def Label.escapes : Label → Bool
  | .take raises | .acquire raises => raises
  | .endHandler ending raises => raises || ending = .escaped
  | .endTurn ending => ending = .escaped
  | .runRaises escaped => escaped
  | _ => false

/-- The inbound loop has ended with the model's loop, and that was stopped or reported. -/
structure Watched (s : Dispatcher) : Prop where
  inbound : s.inbound = .over → s.run = .over
  run : s.run = .over → s.stopped = true ∨ s.failed = true

namespace Watched

theorem init : Watched ({} : Dispatcher) := ⟨nofun, nofun⟩

/-- What leaves the loops under way. -/
theorem of_running (h : s.Watched) (hinbound : s'.inbound ≠ .over)
    (hrun : s'.run = .over → s.run = .over) (hstopped : s'.stopped = s.stopped)
    (hfailed : s'.failed = s.failed) : s'.Watched := by
  refine ⟨fun hover => absurd hover hinbound, fun hover => ?_⟩
  rw [hstopped, hfailed]
  exact h.run (hrun hover)

theorem next {l : Label} (h : s.Watched) (hl : l.escapes = false)
    (hnext : s.next app l = some s') : s'.Watched := by
  have hstep := step_of_next hnext
  cases hstep with
  | enqueues hrun hitems => exact ⟨h.inbound, h.run⟩
  | connects connections => exact ⟨h.inbound, h.run⟩
  | takes hidle hqueue htakes =>
    cases htakes with
    | dies failedStepCalls hraises => cases hraises.symm.trans hl
    | _ => exact h.of_running nofun id rfl rfl
  | factoryRaises => cases hl
  | escapes failedStepCalls hescapes =>
    rcases hescapes with rfl | rfl
    · cases hl
    · rw [Label.escapes] at hl
      simp at hl
  | begins hrun => exact ⟨fun hover => absurd ((h.inbound hover).symm.trans hrun) nofun, nofun⟩
  | beginsStep hrun hrequest =>
    exact ⟨fun hover => absurd ((h.inbound hover).symm.trans hrun) nofun, nofun⟩
  | endsTurn gate hrun =>
    exact ⟨fun hover => absurd ((h.inbound hover).symm.trans hrun) nofun, nofun⟩
  | closes hcloses =>
    rcases hcloses with rfl | rfl | rfl
    · exact ⟨fun _ => rfl, fun _ => .inr (Bool.or_true _)⟩
    · cases hl
    · cases hl
  | stops => exact ⟨fun _ => rfl, fun _ => .inl rfl⟩
  | _ => exact h.of_running nofun id rfl rfl

end Watched

/-- The step of the request that the inbound loop waits for is to come, under way or over. -/
def Awaited (s : Dispatcher) : Prop :=
  s.inbound = .awaiting →
    s.stepDone = true ∨ s.pendingStep.isSome ∨ ∃ request, s.run = .turning (some request)

theorem Awaited.next {l : Label} (h : s.Awaited) (hnext : s.next app l = some s') : s'.Awaited := by
  have hstep := step_of_next hnext
  intro hawaiting
  cases hstep with
  | enqueues hrun hitems => exact h hawaiting
  | connects connections => exact h hawaiting
  | takes hidle hqueue htakes =>
    cases htakes with
    | awaits hrequest => exact .inr (.inl rfl)
    | _ => cases hawaiting
  | begins hrun =>
    rcases h hawaiting with hdone | hpending | ⟨request, hturning⟩
    · exact .inl hdone
    · exact .inr (.inl hpending)
    · cases hrun.symm.trans hturning
  | beginsStep hrun hrequest => exact .inr (.inr ⟨_, rfl⟩)
  | @endsTurn ending request gate hrun =>
    rcases h hawaiting with hdone | hpending | ⟨request', hturning⟩
    · exact .inl (by show (s.stepDone || request.isSome) = true; rw [hdone]; rfl)
    · exact .inr (.inl hpending)
    · obtain rfl : request = some request' := RunStage.turning.inj (hrun.symm.trans hturning)
      exact .inl (Bool.or_true _)
  | _ => cases hawaiting

/-- A step of the inbound loop, or one of the step loop that it waits for. -/
def Label.isOwn : Label → Bool
  | .take _ | .acquire _ | .endHandler .. | .resume | .beginStep | .endTurn _ => true
  | _ => false

/-- The dispatcher is never stuck: an item that is not dispatched to the end goes on. -/
theorem progress (h : s.Ordered app) (hawaited : s.Awaited) (hrun : s.run ≠ .over)
    (hinbound : s.inbound ≠ .over) (hleft : s.handled ≠ s.posted.length) :
    ∃ l : Label, l.isOwn = true ∧ l.escapes = false ∧ (s.next app l).isSome = true := by
  have hturn : ∀ request, s.run = .turning request →
      ∃ l : Label, l.isOwn = true ∧ l.escapes = false ∧ (s.next app l).isSome = true := by
    intro request hturning
    refine ⟨.endTurn .returned, rfl, rfl, ?_⟩
    rw [Dispatcher.next, endTurn, hturning]
    rfl
  by_cases hturning : ∃ request, s.run = .turning request
  · obtain ⟨request, hturning⟩ := hturning
    exact hturn request hturning
  have hwaiting : s.run = .waiting := by
    cases hstage : s.run with
    | waiting => rfl
    | turning request => exact absurd ⟨request, hstage⟩ hturning
    | _ => exact absurd hstage hrun
  cases hstage : s.inbound with
  | idle =>
    cases hqueue : s.queue with
    | nil =>
      have horder := h.queue
      rw [hqueue, List.append_nil] at horder
      rw [← horder, h.idle hstage] at hleft
      exact absurd rfl hleft
    | cons item rest =>
      refine ⟨.take false, rfl, rfl, ?_⟩
      rw [Dispatcher.next, take, hstage, hqueue]
      cases item with
      | command envelope => rfl
      | step request =>
        dsimp only
        unfold dispatchStep
        split_ifs
        · rfl
        · rfl
        · contradiction
        · rfl
      | event event => rfl
  | locking item =>
    refine ⟨.acquire false, rfl, rfl, ?_⟩
    rw [Dispatcher.next, acquire, hstage, hwaiting]
    cases item with
    | command envelope =>
      dsimp only
      rw [if_neg Bool.false_ne_true]
      split_ifs <;> rfl
    | step request => exact absurd rfl ((h.current _ (.inl hstage)).2.2 request)
    | event event =>
      dsimp only
      rw [if_neg Bool.false_ne_true]
      split_ifs <;> rfl
  | handling item =>
    refine ⟨.endHandler (.returned false) false, rfl, rfl, ?_⟩
    rw [Dispatcher.next, endHandler, hstage]
    cases item with
    | command envelope =>
      dsimp only
      unfold endCommand
      rw [if_neg (by exact nofun), if_neg (by exact nofun)]
      split
      · split_ifs <;> rfl
      · rfl
    | step request => exact absurd rfl ((h.current _ (.inr hstage)).2.2 request)
    | event event => rfl
  | awaiting =>
    rcases hawaited hstage with hdone | hpending | ⟨request, hturning'⟩
    · refine ⟨.resume, rfl, rfl, ?_⟩
      rw [Dispatcher.next, if_pos ⟨hstage, hdone⟩]
      rfl
    · refine ⟨.beginStep, rfl, rfl, ?_⟩
      have hfree : s.isHandling = false := by rw [isHandling, hstage]
      rw [Dispatcher.next, if_pos ⟨hwaiting, hpending, by rw [hfree]; rfl⟩]
      rfl
    · exact absurd ⟨_, hturning'⟩ hturning
  | _ => exact absurd hstage hinbound

/-! ### Who is answered -/

def hasPosted (conn : String) (s : Dispatcher) : Bool :=
  s.posted.any fun item =>
    match item with
    | .command envelope => envelope.conn = some conn
    | _ => false

/-- The connection is registered with protocol v1 from its first command on. -/
def stays (conn : String) (s : Dispatcher) : Bool := s.reachesV1 conn || !s.hasPosted conn

/-- Every command of the connection that carries a request id and was dispatched to the end was
answered. -/
def Resolved (conn : String) (s : Dispatcher) : Prop :=
  ∀ i envelope, s.dispatched[i]? = some (.command envelope) → i < s.handled →
    envelope.conn = some conn → envelope.requestId.isSome = true → i ∈ s.answers.map Prod.fst

theorem exists_answerTo {envelope : CommandEnvelope} {ending : Ending}
    (hconn : envelope.conn.isSome = true) (hid : envelope.requestId.isSome = true)
    (hending : ending ≠ .escaped) : ∃ answer, answerTo envelope ending = some answer := by
  cases ending with
  | returned message =>
    cases message with
    | true => exact ⟨.message, by rw [answerTo, if_pos hconn]⟩
    | false => exact ⟨.acknowledgement, by rw [answerTo, hconn, hid]; rfl⟩
  | commandError => exact ⟨.failure, by rw [answerTo, if_pos hconn]⟩
  | raised => exact ⟨.failure, by rw [answerTo, if_pos hconn]⟩
  | escaped => exact absurd rfl hending

theorem reaches_of_reachesV1 {envelope : CommandEnvelope} {conn : String}
    (hconn : envelope.conn = some conn) (hid : envelope.requestId.isSome = true)
    (hv1 : s.reachesV1 conn = true) (answer : Answer) : s.reaches envelope answer = true := by
  have hregistered : s.connections conn = some .v1 := of_decide_eq_true hv1
  cases answer with
  | message =>
    rw [reaches, hconn]
    show (s.connections conn).isSome = true
    rw [hregistered]
    rfl
  | acknowledgement =>
    rw [reaches, hconn, hid]
    exact hv1
  | failure =>
    rw [reaches, hconn, hid]
    exact hv1

namespace Resolved

variable {conn : String}

/-- What dispatches nothing to the end. -/
theorem of_prefix (h : s.Resolved conn) (hordered : s.Ordered app)
    (hdispatched : s.dispatched <+: s'.dispatched) (hhandled : s'.handled = s.handled)
    (hanswers : s'.answers = s.answers) : s'.Resolved conn := by
  intro i envelope hitem hlt
  rw [hhandled] at hlt
  rw [hanswers]
  refine h i envelope ?_ hlt
  obtain ⟨items, heq⟩ := hdispatched
  rw [← heq, List.getElem?_append_left (lt_of_lt_of_le hlt hordered.handled)] at hitem
  exact hitem

theorem of_finish (h : s.Resolved conn) (hordered : s.Ordered app)
    (hdispatched : s.dispatched <+: s'.dispatched) (hhandled : s'.handled = s.handled + 1)
    (hanswers : s.answers <+: s'.answers)
    (hlast : ∀ envelope, s'.dispatched[s.handled]? = some (.command envelope) →
      envelope.conn = some conn → envelope.requestId.isSome = true →
      s.handled ∈ s'.answers.map Prod.fst) : s'.Resolved conn := by
  intro i envelope hitem hlt hconn hid
  rw [hhandled] at hlt
  rcases Nat.lt_succ_iff_lt_or_eq.mp hlt with hlt | rfl
  · obtain ⟨items, heq⟩ := hdispatched
    rw [← heq, List.getElem?_append_left (lt_of_lt_of_le hlt hordered.handled)] at hitem
    exact (hanswers.map Prod.fst).subset (h i envelope hitem hlt hconn hid)
  · exact hlast envelope hitem hconn hid

theorem next {l : Label} (h : s.Resolved conn) (hordered : s.Ordered app)
    (hstays : s.stays conn = true) (hnext : s.next app l = some s') : s'.Resolved conn := by
  have hstep := step_of_next hnext
  have hposted : ∀ {envelope}, s.dispatched[s.handled]? = some (.command envelope) →
      .command envelope ∈ s.posted := by
    intro envelope hitem
    rw [← hordered.queue]
    exact List.mem_append_left _ (List.mem_of_getElem? hitem)
  cases hstep with
  | enqueues hrun hitems => exact h
  | connects connections => exact h
  | @takes item rest raises t hidle hqueue htakes =>
    have hprefix : s.dispatched <+: s.dispatched ++ [item] := List.prefix_append _ _
    cases htakes with
    | finishes gate failedStepCalls hcall =>
      refine h.of_finish hordered hprefix rfl List.prefix_rfl fun envelope hitem hconn hid => ?_
      -- a call of a step request carries no request id
      have hlast : (s.dispatched ++ [item])[s.handled]? = some item := by
        rw [← hordered.idle hidle]
        exact List.getElem?_concat_length
      obtain rfl : item = .command envelope := Option.some.inj (hlast.symm.trans hitem)
      have hmem : Inbound.command envelope ∈ s.posted := by
        rw [← hordered.queue, hqueue]
        exact List.mem_append_right _ List.mem_cons_self
      exact absurd ((hordered.known envelope hmem).2 hid) (hcall envelope rfl)
    | _ => exact h.of_prefix hordered hprefix rfl rfl
  | handles hlocking => exact h
  | @unknown envelope hlocking hunknown =>
    have hitem := (hordered.current _ (.inl hlocking)).1
    exact absurd (hordered.known envelope (hposted hitem)).1 hunknown
  | skips gate hlocking =>
    have hitem := (hordered.current _ (.inl hlocking)).1
    refine h.of_finish hordered List.prefix_rfl rfl List.prefix_rfl fun envelope hitem' => ?_
    cases hitem.symm.trans hitem'
  | factoryRaises => exact h
  | @answers envelope ending answer failedStepCalls hhandling hanswer hreaches =>
    have hlength := hordered.length_of_busy (.inr hhandling)
    refine h.of_finish hordered List.prefix_rfl rfl (List.prefix_append _ _) fun _ _ _ _ => ?_
    show s.handled ∈ (s.answers ++ [(s.dispatched.length - 1, answer)]).map Prod.fst
    rw [hlength, Nat.add_sub_cancel, List.map_append]
    exact List.mem_append_right _ (List.mem_singleton.mpr rfl)
  | @ends envelope ending failedStepCalls hhandling hending hanswer =>
    have hitem := (hordered.current _ (.inr hhandling)).1
    refine h.of_finish hordered List.prefix_rfl rfl List.prefix_rfl
      fun envelope' hitem' hconn hid => ?_
    obtain rfl := Inbound.command.inj (Option.some.inj (hitem.symm.trans hitem'))
    -- the connection is there, and its command is answered
    obtain ⟨answer, hsome⟩ := exists_answerTo (by rw [hconn]; rfl) hid hending
    have hhas : s.hasPosted conn = true := by
      rw [hasPosted, List.any_eq_true]
      exact ⟨_, hposted hitem, decide_eq_true hconn⟩
    rw [stays, hhas, Bool.not_true, Bool.or_false] at hstays
    have hreaches := reaches_of_reachesV1 hconn hid hstays answer
    rw [hanswer answer hsome] at hreaches
    cases hreaches
  | escapes failedStepCalls hescapes => exact h
  | returns gate hhandling hending =>
    have hitem := (hordered.current _ (.inr hhandling)).1
    refine h.of_finish hordered List.prefix_rfl rfl List.prefix_rfl fun envelope hitem' => ?_
    cases hitem.symm.trans hitem'
  | resumes hawaiting =>
    obtain ⟨request, hitem, -⟩ := hordered.awaiting hawaiting
    refine h.of_finish hordered List.prefix_rfl rfl List.prefix_rfl fun envelope hitem' => ?_
    cases hitem.symm.trans hitem'
  | begins hrun => exact h
  | beginsStep hrun hrequest => exact h
  | endsTurn gate hrun => exact h
  | closes hcloses => exact h
  | stops => exact h

end Resolved

theorem filter_eq_singleton {answers : List (ℕ × Answer)} {i : ℕ}
    (hnodup : (answers.map Prod.fst).Nodup) (hmem : i ∈ answers.map Prod.fst) :
    ∃ answer, answers.filter (fun a => a.1 = i) = [(i, answer)] := by
  induction answers with
  | nil => cases hmem
  | cons a answers ih =>
    rw [List.map_cons, List.nodup_cons] at hnodup
    rw [List.map_cons, List.mem_cons] at hmem
    by_cases ha : a.1 = i
    · subst ha
      have hrest : answers.filter (fun b => b.1 = a.1) = [] := by
        refine List.filter_eq_nil_iff.mpr fun b hb heq => hnodup.1 ?_
        rw [← of_decide_eq_true heq]
        exact List.mem_map_of_mem hb
      exact ⟨a.2, by rw [List.filter_cons_of_pos (by simp), hrest]⟩
    · rw [List.filter_cons_of_neg (by simpa using ha)]
      exact ih hnodup.2 (hmem.resolve_left (Ne.symm ha))

/-! ### Every run -/

/-- **The dispatcher outlives every handler.**  In every run, items are dispatched in the order in
which they were posted, and no command is answered twice.  In a run in which nothing escapes, the
inbound loop has ended only with a model that was stopped or whose failure sink was called, and
until then an item that is not dispatched to the end goes on; and every command that carries a
request id, of a connection that is registered with protocol v1 from its first command on, was
answered once by the end of its dispatch. -/
theorem dispatched_and_answered (app : AppClass) (ls : List Label)
    (hrun : (dispatcher app).run ls = some s) :
    s.dispatched ++ s.queue = s.posted ∧ (s.answers.map Prod.fst).Nodup ∧
    ((dispatcher app).AllSteps (fun _ l => l.escapes = false) ls →
      (s.inbound = .over → s.stopped = true ∨ s.failed = true) ∧
      (s.stopped = false → s.failed = false → s.handled ≠ s.posted.length →
        ∃ l : Label, l.isOwn = true ∧ l.escapes = false ∧ (s.next app l).isSome = true)) ∧
    ∀ conn, (dispatcher app).AllSteps (fun s _ => s.stays conn = true) ls →
      ∀ (i : ℕ) (envelope : CommandEnvelope), s.posted[i]? = some (.command envelope) →
        envelope.conn = some conn → envelope.requestId.isSome = true → i < s.handled →
        ∃ answer, s.answers.filter (fun a => a.1 = i) = [(i, answer)] := by
  have hordered : (dispatcher app).IsInvariant (Ordered app) :=
    ⟨Ordered.init, fun _ _ _ h hnext => h.next hnext⟩
  have hawaited : (dispatcher app).IsInvariant Awaited :=
    ⟨nofun, fun _ _ _ h hnext => h.next hnext⟩
  have hordered' := hordered.of_run hrun
  refine ⟨hordered'.queue, hordered'.once, fun hescapes => ?_,
    fun conn hstays i envelope hitem hconn hid hlt => ?_⟩
  · have hwatched := hescapes.invariant (I := Watched) Watched.init
      (fun _ _ _ h hl hnext => h.next hl hnext) hrun
    refine ⟨fun hover => hwatched.run (hwatched.inbound hover), fun hstopped hfailed hleft => ?_⟩
    have hgoes : s.run ≠ .over := by
      intro hover
      rcases hwatched.run hover with h | h
      · exact absurd (h.symm.trans hstopped) nofun
      · exact absurd (h.symm.trans hfailed) nofun
    exact progress hordered' (hawaited.of_run hrun) hgoes
      (fun hover => hgoes (hwatched.inbound hover)) hleft
  · obtain ⟨hresolved, -⟩ := hstays.invariant (I := fun s => Resolved conn s ∧ Ordered app s)
      ⟨fun _ _ _ hlt => absurd hlt (Nat.not_lt_zero _), Ordered.init⟩
      (fun _ _ _ h hl hnext => ⟨h.1.next h.2 hl hnext, h.2.next hnext⟩) hrun
    refine filter_eq_singleton hordered'.once (hresolved i envelope ?_ hlt hconn hid)
    have hmem := lt_of_lt_of_le hlt hordered'.handled
    rw [← hordered'.queue, List.getElem?_append_left hmem] at hitem
    exact hitem

/-- A model with one command, a hook for every event and a state. -/
def someApp : AppClass where
  commands := ["go"]
  hook _ := true
  state := true

/-- A session starts, and a client's command and its step request are dispatched. -/
def servedRun : List Label :=
  [.post (.sessionStarted false true none), .register "a" .v1, .post (.clientConnected "a" 1),
   .submitCommand "go" (some "a") (some "r"), .submitStep ["go"] ⟨"a", "s"⟩,
   .take false, .acquire false, .endHandler (.returned false) false,
   .take false, .acquire false, .endHandler .raised false,
   .take false, .acquire false, .endHandler (.returned true) false,
   .take false, .acquire false, .endHandler (.returned false) false,
   .take false, .beginStep, .endTurn .returned, .resume]

theorem isSome_servedRun : ((dispatcher someApp).run servedRun).isSome := rfl

theorem dispatched_and_answered_served :
    (∃ answer, (((dispatcher someApp).run servedRun).get isSome_servedRun).answers.filter
        (fun a => a.1 = 2) = [(2, answer)]) ∧
      ((((dispatcher someApp).run servedRun).get isSome_servedRun).inbound = .over →
        (((dispatcher someApp).run servedRun).get isSome_servedRun).stopped = true ∨
        (((dispatcher someApp).run servedRun).get isSome_servedRun).failed = true) := by
  obtain ⟨-, -, hwatched, hresolved⟩ :=
    dispatched_and_answered someApp servedRun (Option.some_get isSome_servedRun).symm
  refine ⟨hresolved "a" (by decide +kernel) 2
    { command := "go", conn := some "a", requestId := some "r" } (by decide +kernel) rfl rfl
    (by decide +kernel), (hwatched (by decide +kernel)).1⟩

/-- A handler ends with `asyncio.CancelledError`. -/
def cancelledRun : List Label :=
  [.register "a" .v1, .submitCommand "go" (some "a") (some "r"), .take false, .acquire false,
   .endHandler .escaped false]

theorem isSome_cancelledRun : ((dispatcher someApp).run cancelledRun).isSome := rfl

/-- A handler returns a message that no codec carries. -/
def uncarriedRun : List Label :=
  [.register "a" .v1, .submitCommand "go" (some "a") (some "r"), .take false, .acquire false,
   .endHandler (.returned true) true]

theorem isSome_uncarriedRun : ((dispatcher someApp).run uncarriedRun).isSome := rfl

def factoryRun : List Label :=
  [.post (.sessionStarted false false none), .take false, .acquire true]

theorem isSome_factoryRun : ((dispatcher someApp).run factoryRun).isSome := rfl

/-- The inbound loop has ended while the step loop goes on. -/
def hasEndedSilently (s : Dispatcher) : Bool :=
  s.inbound = .over && s.run = .waiting && !s.stopped && !s.failed && s.answers.isEmpty

theorem not_dispatched_and_answered :
    (((dispatcher someApp).run cancelledRun).get isSome_cancelledRun).hasEndedSilently = true ∧
      (((dispatcher someApp).run uncarriedRun).get isSome_uncarriedRun).hasEndedSilently = true ∧
      (((dispatcher someApp).run factoryRun).get isSome_factoryRun).hasEndedSilently = true := by
  decide +kernel

end Dispatcher

end ReactorRuntime.Interface
