import ReactorRuntime.StepResults.Store
import Mathlib.Data.List.Nodup
import Mathlib.Data.List.Range

/-!
# What the step store admits, it saves

`saves_in_order`: in a run in which no save raises and `close()` does not run out of time, the
saves of one session are always a first part of what was admitted for it, in the order of the
admissions; and once the writer thread has ended every save an admission promised was made exactly
once, provided the thread did not end at a look that found the failed ranges gone and the queue not
empty (`LastLook`).

The thread can end at such a look: its wait came back empty, a step was admitted, and `close()` set
`_closing` before the thread looked at it (`admitted_not_saved`).
-/

namespace ReactorRuntime.StepResults

variable {Bundle Message : Type*}

/-! ### The saves of a session -/

def saves (l : List (Entry Bundle Message)) : List (Entry Bundle Message) :=
  l.flatMap Entry.steps

def ofSession (σ : ℕ) (l : List (Entry Bundle Message)) : List (Entry Bundle Message) :=
  l.filter (·.session = σ)

@[simp] theorem saves_nil : saves ([] : List (Entry Bundle Message)) = [] := rfl

@[simp] theorem saves_cons (e : Entry Bundle Message) (l : List (Entry Bundle Message)) :
    saves (e :: l) = e.steps ++ saves l := List.flatMap_cons

@[simp] theorem saves_append (l l' : List (Entry Bundle Message)) :
    saves (l ++ l') = saves l ++ saves l' := List.flatMap_append

@[simp] theorem ofSession_nil (σ : ℕ) : ofSession σ ([] : List (Entry Bundle Message)) = [] := rfl

@[simp] theorem ofSession_append (σ : ℕ) (l l' : List (Entry Bundle Message)) :
    ofSession σ (l ++ l') = ofSession σ l ++ ofSession σ l' := List.filter_append ..

theorem ofSession_eq_nil {σ : ℕ} {l : List (Entry Bundle Message)}
    (h : ∀ e ∈ l, e.session ≠ σ) : ofSession σ l = [] :=
  List.filter_eq_nil_iff.mpr fun e he => by simpa using h e he

theorem mem_steps {e p : Entry Bundle Message} (h : p ∈ e.steps) :
    p.session = e.session ∧ p.ticket = e.ticket := by
  obtain ⟨q, -, rfl⟩ := List.mem_map.mp h
  exact ⟨rfl, rfl⟩

theorem mem_saves {p : Entry Bundle Message} {l : List (Entry Bundle Message)}
    (h : p ∈ saves l) : ∃ e ∈ l, p ∈ e.steps := List.mem_flatMap.mp h

theorem ofSession_saves_eq_nil {σ : ℕ} {l : List (Entry Bundle Message)}
    (h : ∀ e ∈ l, e.session ≠ σ) : ofSession σ (saves l) = [] := by
  refine ofSession_eq_nil fun p hp => ?_
  obtain ⟨e, he, hpe⟩ := mem_saves hp
  rw [(mem_steps hpe).1]
  exact h e he

theorem Pending.steps_nodup (p : Pending Bundle Message) : p.steps.Nodup := by
  unfold Pending.steps
  split_ifs
  · exact List.nodup_singleton p
  · refine List.Nodup.map (fun a b hab => ?_) List.nodup_range'
    exact congrArg Pending.step hab

theorem Entry.steps_nodup (e : Entry Bundle Message) : e.steps.Nodup := by
  refine List.Nodup.map (fun p q hpq => ?_) e.pending.steps_nodup
  exact congrArg Entry.pending hpq

/-- Entries with different numbers stand for different saves. -/
theorem nodup_saves {l : List (Entry Bundle Message)} (h : (l.map Entry.ticket).Nodup) :
    (saves l).Nodup := by
  refine List.nodup_flatMap.mpr ⟨fun e _ => e.steps_nodup, ?_⟩
  have hne : l.Pairwise fun e f => e.ticket ≠ f.ticket := List.pairwise_map.mp h
  refine hne.imp fun {e f} hef p hpe hpf => hef ?_
  rw [← (mem_steps hpe).2, (mem_steps hpf).2]

/-! ### What the writer thread holds -/

/-- What the thread saves before it reaches the queue again. -/
def Turn.first : Turn Bundle Message → List (Entry Bundle Message)
  | .loop | .drain _ _ => []
  | .range rest => rest

/-- The failed range the thread took and has not begun to save. -/
def Turn.over : Turn Bundle Message → Option (Entry Bundle Message)
  | .drain f _ => some f
  | .loop | .range _ => none

/-- What the thread saves before it reaches the queue again. -/
def Worker.first : Worker Bundle Message → List (Entry Bundle Message)
  | .next turn => turn.first
  | .taken e turn | .saving e turn => e :: turn.first
  | _ => []

/-- The failed range the thread took and has not begun to save. -/
def Worker.over : Worker Bundle Message → Option (Entry Bundle Message)
  | .sizing f => some f
  | .next turn | .taken _ turn | .saving _ turn => turn.over
  | _ => none

/-- Where the thread goes on, while it saves a range. -/
def Worker.turn : Worker Bundle Message → Option (Turn Bundle Message)
  | .next turn | .taken _ turn | .saving _ turn => some turn
  | _ => none

namespace StepStore

/-- The failed ranges whose steps are still to be saved, in order. -/
def ahead (s : StepStore Bundle Message) : List (Entry Bundle Message) :=
  s.worker.over.toList ++ s.failed

/-- Whether the runtime admits nothing more for the session. -/
def Over (s : StepStore Bundle Message) (σ : ℕ) : Prop :=
  σ < s.session ∨ σ = s.session ∧ s.stepsFailed = true

/-- What holds of the store while no drain is given up.  It carries where the saves of every
session are, in the order in which they will be made. -/
structure Sound (s : StepStore Bundle Message) : Prop where
  accounted : ∀ σ, ofSession σ (saves s.admitted) =
    ofSession σ (s.saved ++ s.worker.first ++ s.queue ++ saves s.ahead)
  past : ∀ f ∈ s.ahead, s.Over f.session
  drained : ∀ f turns, s.worker.turn = some (.drain f turns) →
    ∀ e ∈ s.queue.drop turns, e.session ≠ f.session
  offeredStep : ∀ p, s.offering = some (.step p) → p.steps = [p] ∧ s.stepsFailed = false
  offeredFailed : ∀ p, s.offering = some (.failed p) → s.stepsFailed = true
  offered : s.offering.isSome → s.closed = false
  closing : s.closing = true → s.closed = true
  looking : s.worker = .lookFailed → s.closing = true
  ended : s.worker = .ended → s.closing = true ∧ s.queue = [] ∧ s.failed = []
  numbered : s.admitted.map Entry.ticket = List.range s.admitted.length
  kept : s.abandon = false

theorem sound_init : Sound ({} : StepStore Bundle Message) where
  accounted _ := rfl
  past _ := nofun
  drained _ _ := nofun
  offeredStep _ := nofun
  offeredFailed _ := nofun
  offered := nofun
  closing := nofun
  looking := nofun
  ended := nofun
  numbered := rfl
  kept := rfl

variable {s : StepStore Bundle Message}

/-! ### The runtime's calls -/

theorem Sound.startSession (h : s.Sound) (hidle : s.offering = none) (recordingId : String) :
    ({ s with session := s.session + 1, recordingId, stepsFailed := false } :
      StepStore Bundle Message).Sound :=
  { h with
    past := by
      intro f hf
      rcases h.past f hf with hlt | ⟨heq, -⟩
      · exact .inl (Nat.lt_succ_of_lt hlt)
      · exact .inl (Nat.lt_succ_of_le heq.le)
    offeredStep := by intro p hp; exact absurd (hidle.symm.trans hp) nofun
    offeredFailed := by intro p hp; exact absurd (hidle.symm.trans hp) nofun }

theorem Sound.failSteps (h : s.Sound) (hidle : s.offering = none) :
    ({ s with stepsFailed := true } : StepStore Bundle Message).Sound :=
  { h with
    past := by
      intro f hf
      rcases h.past f hf with hlt | ⟨heq, -⟩
      · exact .inl hlt
      · exact .inr ⟨heq, rfl⟩
    offeredStep := by intro p hp; exact absurd (hidle.symm.trans hp) nofun
    offeredFailed := by intro p hp; exact absurd (hidle.symm.trans hp) nofun }

/-- Starting the writer thread leaves it with nothing in hand. -/
theorem Sound.ensureStarted (h : s.Sound) : s.ensureStarted.Sound := by
  unfold StepStore.ensureStarted
  split
  next hw =>
    have hfirst : s.worker.first = [] := by rw [hw]; rfl
    have hahead : s.ahead = s.failed := by rw [ahead, hw]; rfl
    exact
      { h with
        accounted := by
          intro σ
          have := h.accounted σ
          rw [hfirst, hahead] at this
          exact this
        past := by
          intro f hf
          exact h.past f (hahead ▸ hf)
        drained := nofun
        looking := nofun
        ended := nofun }
  next => exact h

theorem ensureStarted_frame (s : StepStore Bundle Message) :
    s.ensureStarted.closed = s.closed ∧ s.ensureStarted.stepsFailed = s.stepsFailed := by
  unfold StepStore.ensureStarted
  split <;> exact ⟨rfl, rfl⟩

/-- An admission that holds the lock. -/
theorem Sound.offer (h : s.Sound) (hopen : s.closed = false) {o : Offer Bundle Message}
    (hstep : ∀ p, o = .step p → p.steps = [p] ∧ s.stepsFailed = false)
    (hfailed : ∀ p, o = .failed p → s.stepsFailed = true) :
    ({ s with offering := some o } : StepStore Bundle Message).Sound :=
  { h with
    offeredStep := by intro p hp; exact hstep p (Option.some.inj hp)
    offeredFailed := by intro p hp; exact hfailed p (Option.some.inj hp)
    offered := fun _ => hopen }

theorem Sound.admitStep (h : s.Sound) {p : Pending Bundle Message} (hp : p.last ≤ p.step)
    (hfailed : s.stepsFailed = false) : (s.admitStep p).Sound := by
  obtain ⟨hclosed, hsteps⟩ := ensureStarted_frame s
  unfold StepStore.admitStep
  split_ifs with hid hopen
  · exact h
  · exact h
  · refine h.ensureStarted.offer (hclosed.trans (by simpa using hopen)) ?_ nofun
    rintro q ⟨⟩
    refine ⟨?_, hsteps.trans hfailed⟩
    rw [Pending.steps, if_pos hp]

theorem Sound.admitFailed (h : s.Sound) (hfailed : s.stepsFailed = true) (sessionId : String)
    (first last : ℕ) (error : String) (messages : List Message) :
    (s.admitFailed sessionId first last error messages).Sound := by
  obtain ⟨hclosed, hsteps⟩ := ensureStarted_frame s
  unfold StepStore.admitFailed
  split_ifs with hrange hid hopen
  · exact h
  · exact h
  · exact h
  · refine h.ensureStarted.offer (hclosed.trans (by simpa using hopen)) nofun ?_
    intro _ _
    exact hsteps.trans hfailed

theorem numbered_concat (h : s.admitted.map Entry.ticket = List.range s.admitted.length)
    (p : Pending Bundle Message) :
    (s.admitted ++ [s.entry p]).map Entry.ticket =
      List.range (s.admitted ++ [s.entry p]).length := by
  rw [List.map_append, h, List.length_append, List.length_singleton, List.range_succ]
  rfl

/-- An entry put into a queue belongs to a session that still admits, so it goes last among the
saves of its session. -/
theorem Sound.put (h : s.Sound) {o : Offer Bundle Message} (ho : s.offering = some o)
    (maxsize : ℕ) : (s.put maxsize o).Sound := by
  have hopen : s.closed = false := h.offered (by rw [ho]; rfl)
  have hrunning : s.worker ≠ .ended := by
    intro hw
    have := h.closing (h.ended hw).1
    rw [hopen] at this
    exact absurd this nofun
  cases o with
  | step p =>
    obtain ⟨hp, hsteps⟩ := h.offeredStep p ho
    -- the session is not over, so no failed range of it is ahead
    have hfresh : ∀ f ∈ s.ahead, f.session ≠ s.session := by
      intro f hf
      rcases h.past f hf with hlt | ⟨-, hover⟩
      · exact hlt.ne
      · rw [hsteps] at hover
        exact absurd hover nofun
    have hentry : (s.entry p).steps = [s.entry p] := by rw [Entry.steps, entry, hp]; rfl
    simp only [StepStore.put]
    split_ifs
    · exact { h with offeredStep := nofun, offeredFailed := nofun, offered := nofun }
    · exact
        { h with
          accounted := by
            intro σ
            show ofSession σ (saves (s.admitted ++ [s.entry p])) = ofSession σ
              (s.saved ++ s.worker.first ++ (s.queue ++ [s.entry p]) ++ saves s.ahead)
            have hacc := h.accounted σ
            simp only [ofSession_append, saves_append, saves_cons, saves_nil, List.append_nil,
              hentry, hacc, List.append_assoc] at hacc ⊢
            by_cases hσ : s.session = σ
            · have hnone : ofSession σ (saves s.ahead) = [] :=
                ofSession_saves_eq_nil (hσ ▸ hfresh)
              simp [hnone]
            · have hother : ofSession σ [s.entry p] = [] :=
                ofSession_eq_nil (by rintro e he; rw [List.mem_singleton.mp he]; exact hσ)
              simp [hother]
          drained := by
            intro f turns hturn e he
            have hf : f ∈ s.ahead := by
              have hover : s.worker.over = some f := by
                cases hw : s.worker <;> rw [hw] at hturn <;> cases hturn <;> rfl
              simp [ahead, hover]
            rcases List.mem_append.mp ((List.drop_append ..) ▸ he) with hold | hnew
            · exact h.drained f turns hturn e hold
            · rw [List.mem_singleton.mp (List.mem_of_mem_drop hnew)]
              exact (hfresh f hf).symm
          offeredStep := nofun
          offeredFailed := nofun
          offered := nofun
          ended := fun hw => absurd hw hrunning
          numbered := numbered_concat h.numbered p }
  | failed p =>
    have hsteps := h.offeredFailed p ho
    exact
      { h with
        accounted := by
          intro σ
          show ofSession σ (saves (s.admitted ++ [s.entry p])) = ofSession σ
            (s.saved ++ s.worker.first ++ s.queue ++
              saves (s.worker.over.toList ++ (s.failed ++ [s.entry p])))
          have hacc := h.accounted σ
          simp only [ahead, ofSession_append, saves_append, List.append_assoc] at hacc ⊢
          simp [hacc]
        past := by
          intro f hf
          have hf' : f ∈ s.worker.over.toList ++ (s.failed ++ [s.entry p]) := hf
          rw [← List.append_assoc] at hf'
          rcases List.mem_append.mp hf' with hold | hnew
          · exact h.past f hold
          · rw [List.mem_singleton.mp hnew]
            exact .inr ⟨rfl, hsteps⟩
        offeredStep := nofun
        offeredFailed := nofun
        offered := nofun
        ended := fun hw => absurd hw hrunning
        numbered := numbered_concat h.numbered p }

theorem Sound.close (h : s.Sound) (hidle : s.offering = none) : s.close.Sound :=
  { h with
    offered := by
      intro ho
      have : s.offering.isSome := ho
      rw [hidle] at this
      exact absurd this nofun
    closing := fun _ => rfl
    looking := fun _ => rfl
    ended := fun hw => ⟨rfl, (h.ended hw).2⟩ }

/-! ### The writer thread -/

theorem Sound.reframe (h : s.Sound) {queue failed saved : List (Entry Bundle Message)}
    {worker : Worker Bundle Message}
    (hsaves : ∀ σ, ofSession σ (s.saved ++ s.worker.first ++ s.queue ++ saves s.ahead) =
      ofSession σ (saved ++ worker.first ++ queue ++ saves (worker.over.toList ++ failed)))
    (hahead : ∀ f ∈ worker.over.toList ++ failed, f ∈ s.ahead)
    (hdrained : ∀ f turns, worker.turn = some (.drain f turns) →
      ∀ e ∈ queue.drop turns, e.session ≠ f.session)
    (hlooking : worker = .lookFailed → s.closing = true)
    (hended : worker = .ended → s.closing = true ∧ queue = [] ∧ failed = []) :
    ({ s with queue, failed, worker, saved } : StepStore Bundle Message).Sound :=
  { h with
    accounted := fun σ => (h.accounted σ).trans (hsaves σ)
    past := fun f hf => h.past f (hahead f hf)
    drained := hdrained
    looking := hlooking
    ended := hended }

theorem Sound.beginRange (h : s.Sound) {f : Entry Bundle Message} {turns : ℕ}
    (hw : s.worker = .next (.drain f turns)) (hempty : s.queue.drop turns = s.queue) :
    ({ s with worker := .next (.range f.steps) } : StepStore Bundle Message).Sound := by
  have hnone : ∀ e ∈ s.queue, e.session ≠ f.session := by
    intro e he
    exact h.drained f turns (by rw [hw]; rfl) e (hempty.symm ▸ he)
  refine h.reframe ?_ ?_ (by rintro _ _ ⟨⟩) (by rintro ⟨⟩) (by rintro ⟨⟩)
  · intro σ
    rw [ahead, hw]
    show ofSession σ (s.saved ++ [] ++ s.queue ++ saves (f :: s.failed)) =
      ofSession σ (s.saved ++ f.steps ++ s.queue ++ saves s.failed)
    simp only [saves_cons, ofSession_append, List.append_nil, List.append_assoc]
    by_cases hσ : f.session = σ
    · have hqueue : ofSession σ s.queue = [] := ofSession_eq_nil (hσ ▸ hnone)
      simp [hqueue]
    · have hsteps : ofSession σ f.steps = [] := by
        refine ofSession_eq_nil fun p hp => ?_
        rw [(mem_steps hp).1]
        exact hσ
      simp [hsteps]
  · intro e he
    rw [ahead, hw]
    exact List.mem_cons_of_mem f he

theorem Sound.take (h : s.Sound) {e : Entry Bundle Message} {rest : List (Entry Bundle Message)}
    {turn : Turn Bundle Message} (hqueue : s.queue = e :: rest) (hfirst : s.worker.first = [])
    (hturn : turn.first = []) (hover : turn.over = s.worker.over)
    (hdrained : ∀ f turns, turn = .drain f turns → ∀ e ∈ rest.drop turns, e.session ≠ f.session) :
    ({ s with queue := rest, worker := .taken e turn } : StepStore Bundle Message).Sound := by
  refine h.reframe ?_ ?_ ?_ (by rintro ⟨⟩) (by rintro ⟨⟩)
  · intro σ
    show _ = ofSession σ (s.saved ++ e :: turn.first ++ rest ++ saves (turn.over.toList ++ s.failed))
    rw [hfirst, hturn, hover, hqueue, ahead]
    simp
  · intro f hf
    rw [ahead, ← hover]
    exact hf
  · intro f turns hturns
    exact hdrained f turns (Option.some.inj hturns)

/-- One action of the writer thread, unless it ends with the queue not empty. -/
theorem Sound.work (h : s.Sound)
    (hlook : s.worker = .lookFailed → s.failed = [] → s.queue = [])
    {s' : StepStore Bundle Message} (hwork : s.work = some s') : s'.Sound := by
  -- the steps that leave the saves where they are
  have still {worker : Worker Bundle Message} (hfirst : worker.first = s.worker.first)
      (hover : worker.over = s.worker.over)
      (hdrained : ∀ f turns, worker.turn = some (.drain f turns) →
        ∀ e ∈ s.queue.drop turns, e.session ≠ f.session)
      (hlooking : worker = .lookFailed → s.closing = true)
      (hended : worker = .ended → s.closing = true ∧ s.queue = [] ∧ s.failed = []) :
      ({ s with worker } : StepStore Bundle Message).Sound := by
    refine h.reframe (fun σ => ?_) (fun f hf => ?_) hdrained hlooking hended
    · rw [hfirst, hover, ahead]
    · rw [ahead, ← hover]
      exact hf
  have hkept : ¬ s.abandon = true := by
    rw [h.kept]
    exact Bool.false_ne_true
  cases hw : s.worker with
  | unstarted => simp [StepStore.work, hw] at hwork
  | ended => simp [StepStore.work, hw] at hwork
  | getFailed =>
    cases hfailed : s.failed with
    | nil =>
      obtain rfl : _ = s' := by simpa [StepStore.work, hw, hfailed] using hwork
      rw [hfailed.symm]
      exact still (by rw [hw]; rfl) (by rw [hw]; rfl) (by rintro _ _ ⟨⟩) (by rintro ⟨⟩)
        (by rintro ⟨⟩)
    | cons f rest =>
      obtain rfl : _ = s' := by simpa [StepStore.work, hw, hfailed] using hwork
      have hahead : s.ahead = f :: rest := by rw [ahead, hw, hfailed]; rfl
      refine h.reframe (fun σ => ?_) (fun e he => hahead ▸ he) (by rintro _ _ ⟨⟩) (by rintro ⟨⟩)
        (by rintro ⟨⟩)
      rw [hahead, hw]
      rfl
  | sizing f =>
    obtain rfl : _ = s' := by simpa [StepStore.work, hw] using hwork
    refine still (by rw [hw]; rfl) (by rw [hw]; rfl) ?_ (by rintro ⟨⟩) (by rintro ⟨⟩)
    rintro _ _ ⟨⟩ e he
    rw [List.drop_length] at he
    exact absurd he List.not_mem_nil
  | waiting =>
    cases hqueue : s.queue with
    | nil =>
      obtain rfl : _ = s' := by simpa [StepStore.work, hw, hqueue] using hwork
      rw [hqueue.symm]
      exact still (by rw [hw]; rfl) (by rw [hw]; rfl) (by rintro _ _ ⟨⟩) (by rintro ⟨⟩)
        (by rintro ⟨⟩)
    | cons e rest =>
      obtain rfl : _ = s' := by simpa [StepStore.work, hw, hqueue] using hwork
      exact h.take hqueue (by rw [hw]; rfl) rfl (by rw [hw]; rfl) (by rintro _ _ ⟨⟩)
  | lookClosing =>
    obtain rfl : _ = s' := by simpa [StepStore.work, hw] using hwork
    split_ifs with hclosing
    · exact still (by rw [hw]; rfl) (by rw [hw]; rfl) (by rintro _ _ ⟨⟩) (fun _ => hclosing)
        (by rintro ⟨⟩)
    · exact still (by rw [hw]; rfl) (by rw [hw]; rfl) (by rintro _ _ ⟨⟩) (by rintro ⟨⟩)
        (by rintro ⟨⟩)
  | lookFailed =>
    obtain rfl : _ = s' := by simpa [StepStore.work, hw] using hwork
    split_ifs with hfailed
    · exact still (by rw [hw]; rfl) (by rw [hw]; rfl) (by rintro _ _ ⟨⟩) (by rintro ⟨⟩)
        (fun _ => ⟨h.looking hw, hlook hw hfailed, hfailed⟩)
    · exact still (by rw [hw]; rfl) (by rw [hw]; rfl) (by rintro _ _ ⟨⟩) (by rintro ⟨⟩)
        (by rintro ⟨⟩)
  | taken e turn =>
    obtain rfl : _ = s' := by simpa [StepStore.work, hw] using hwork
    rw [if_neg hkept]
    exact still (by rw [hw]; rfl) (by rw [hw]; rfl)
      (fun f turns hturn => h.drained f turns (by rw [hw]; exact hturn)) (by rintro ⟨⟩)
      (by rintro ⟨⟩)
  | saving e turn =>
    obtain rfl : _ = s' := by simpa [StepStore.work, hw] using hwork
    refine h.reframe (fun σ => ?_) (fun f hf => ?_)
      (fun f turns hturn => h.drained f turns (by rw [hw]; exact hturn)) (by rintro ⟨⟩)
      (by rintro ⟨⟩)
    · rw [ahead, hw]
      show ofSession σ (s.saved ++ (e :: turn.first) ++ s.queue ++ _) =
        ofSession σ (s.saved ++ [e] ++ turn.first ++ s.queue ++ _)
      rw [List.append_assoc s.saved [e], List.singleton_append]
      rfl
    · rw [ahead, hw]
      exact hf
  | next turn =>
    cases turn with
    | loop =>
      obtain rfl : _ = s' := by simpa [StepStore.work, hw] using hwork
      rw [if_neg hkept]
      exact still (by rw [hw]; rfl) (by rw [hw]; rfl) (by rintro _ _ ⟨⟩) (by rintro ⟨⟩)
        (by rintro ⟨⟩)
    | drain f turns =>
      cases turns with
      | zero =>
        obtain rfl : _ = s' := by simpa [StepStore.work, hw] using hwork
        exact h.beginRange hw rfl
      | succ turns =>
        cases hqueue : s.queue with
        | nil =>
          obtain rfl : _ = s' := by simpa [StepStore.work, hw, hqueue] using hwork
          rw [hqueue.symm]
          exact h.beginRange hw (by rw [hqueue]; rfl)
        | cons e rest =>
          obtain rfl : _ = s' := by simpa [StepStore.work, hw, hqueue] using hwork
          refine h.take hqueue (by rw [hw]; rfl) rfl (by rw [hw]; rfl) ?_
          rintro _ _ ⟨⟩ p hp
          refine h.drained f (turns + 1) (by rw [hw]; rfl) p ?_
          rw [hqueue]
          exact hp
    | range rest =>
      cases rest with
      | nil =>
        obtain rfl : _ = s' := by simpa [StepStore.work, hw] using hwork
        exact still (by rw [hw]; rfl) (by rw [hw]; rfl) (by rintro _ _ ⟨⟩) (by rintro ⟨⟩)
          (by rintro ⟨⟩)
      | cons e rest =>
        obtain rfl : _ = s' := by simpa [StepStore.work, hw] using hwork
        exact still (by rw [hw]; rfl) (by rw [hw]; rfl) (by rintro _ _ ⟨⟩) (by rintro ⟨⟩)
          (by rintro ⟨⟩)

end StepStore

/-! ### Runs -/

def Undisturbed : Label Bundle Message → Prop
  | .drainExceeded | .saveRaises => False
  | _ => True

/-- When the writer thread ends, having found the failed ranges gone, the queue is empty too. -/
def LastLook (s : StepStore Bundle Message) : Label Bundle Message → Prop
  | .work => s.worker = .lookFailed → s.failed = [] → s.queue = []
  | _ => True

instance : DecidablePred (Undisturbed : Label Bundle Message → Prop)
  | .drainExceeded | .saveRaises => .isFalse id
  | .startSession _ | .admitStep .. | .admitFailed .. | .put | .close | .work => .isTrue trivial

instance [DecidableEq Bundle] [DecidableEq Message] (s : StepStore Bundle Message) :
    DecidablePred (LastLook s)
  | .work => inferInstanceAs (Decidable (s.worker = .lookFailed → s.failed = [] → s.queue = []))
  | .startSession _ | .admitStep .. | .admitFailed .. | .put | .close | .drainExceeded
  | .saveRaises => .isTrue trivial

theorem sound_next {maxsize : ℕ} {s s' : StepStore Bundle Message} {label : Label Bundle Message}
    (h : s.Sound) (hregular : Undisturbed label ∧ LastLook s label)
    (hnext : next maxsize s label = some s') : s'.Sound := by
  cases label with
  | startSession recordingId =>
    simp only [next] at hnext
    split_ifs at hnext with hidle
    cases hnext
    exact h.startSession (Option.not_isSome_iff_eq_none.mp hidle) recordingId
  | admitStep step completed messages =>
    simp only [next] at hnext
    split_ifs at hnext with hidle
    cases hnext
    push Not at hidle
    exact h.admitStep (Nat.zero_le _) (Bool.eq_false_iff.mpr hidle.2)
  | admitFailed first last error messages =>
    simp only [next] at hnext
    split_ifs at hnext with hidle
    cases hnext
    push Not at hidle
    exact (h.failSteps (Option.not_isSome_iff_eq_none.mp hidle.1)).admitFailed rfl _ _ _ _ _
  | put =>
    obtain ⟨o, ho, rfl⟩ := Option.map_eq_some_iff.mp hnext
    exact h.put ho maxsize
  | close =>
    simp only [next] at hnext
    split_ifs at hnext with hidle
    cases hnext
    push Not at hidle
    exact h.close (Option.not_isSome_iff_eq_none.mp hidle.1)
  | drainExceeded => exact hregular.1.elim
  | work => exact h.work hregular.2 hnext
  | saveRaises => exact hregular.1.elim

/-- What was saved of a session is a first part of what was admitted for it; once the writer thread
has ended it is all of it, each save made once. -/
theorem saves_in_order [DecidableEq Bundle] [DecidableEq Message] {maxsize : ℕ}
    {labels : List (Label Bundle Message)} {s : StepStore Bundle Message}
    (hall : (store Bundle Message maxsize).AllSteps
      (fun s label => Undisturbed label ∧ LastLook s label) labels)
    (hrun : (store Bundle Message maxsize).run labels = some s) :
    (∀ σ, ofSession σ s.saved <+: ofSession σ (saves s.admitted)) ∧
      (s.worker = .ended →
        (∀ σ, ofSession σ s.saved = ofSession σ (saves s.admitted)) ∧
        ∀ e ∈ s.admitted, ∀ p ∈ e.steps, s.saved.count p = 1) := by
  have h : s.Sound := hall.invariant (I := StepStore.Sound) StepStore.sound_init
    (fun _ _ _ hs hregular hnext => sound_next hs hregular hnext) hrun
  refine ⟨fun σ => ?_, fun hended => ?_⟩
  · rw [h.accounted σ, List.append_assoc, List.append_assoc, ofSession_append]
    exact List.prefix_append _ _
  · obtain ⟨-, hqueue, hfailed⟩ := h.ended hended
    have heq (σ : ℕ) : ofSession σ s.saved = ofSession σ (saves s.admitted) := by
      rw [h.accounted σ, StepStore.ahead, hended, hqueue, hfailed]
      simp [Worker.first, Worker.over]
    refine ⟨heq, fun e he p hp => ?_⟩
    have hnodup : (saves s.admitted).Nodup :=
      nodup_saves (h.numbered ▸ List.nodup_range)
    have hcount (l : List (Entry Bundle Message)) :
        l.count p = (ofSession p.session l).count p :=
      (List.count_filter (by simp)).symm
    rw [hcount, heq, ← hcount]
    exact List.count_eq_one_of_mem hnodup (List.mem_flatMap.mpr ⟨e, he, hp⟩)

def firstStep : List (Label Unit Unit) :=
  [.startSession "01234567-89ab-cdef-0123-456789abcdef", .admitStep 1 ⟨some (), none⟩ [()], .put]

def drainedRun : List (Label Unit Unit) :=
  firstStep ++ [.admitFailed 2 3 "refused" [()], .put, .close] ++ List.replicate 19 .work

theorem isSome_drainedRun : ((store Unit Unit 1).run drainedRun).isSome := rfl

theorem saves_in_order_drained :
    let s := ((store Unit Unit 1).run drainedRun).get isSome_drainedRun
    s.saved.map (·.pending.step) = [1, 2, 3] ∧
      ofSession 1 s.saved = ofSession 1 (saves s.admitted) :=
  ⟨by decide +kernel,
    ((saves_in_order (by decide +kernel) (Option.some_get _).symm).2 (by decide +kernel)).1 1⟩

/-- Step 2 is admitted after the wait of the writer thread came back empty, and the store is closed
before the thread looks whether it is. -/
def droppedRun : List (Label Unit Unit) :=
  firstStep ++ List.replicate 8 .work ++
    [.admitStep 2 ⟨some (), none⟩ [()], .put, .close, .work, .work]

/-- The writer thread can end with an admitted step not saved. -/
theorem admitted_not_saved : ¬ ∀ labels s,
    (store Unit Unit 1).AllSteps (fun _ label => Undisturbed label) labels →
      (store Unit Unit 1).run labels = some s → s.worker = .ended →
        ∀ e ∈ s.admitted, ∀ p ∈ e.steps, s.saved.count p = 1 := by
  have hrun : ((store Unit Unit 1).run droppedRun).any fun s =>
      s.worker = .ended ∧ ∃ e ∈ s.admitted, ∃ p ∈ e.steps, s.saved.count p ≠ 1 := by
    decide +kernel
  obtain ⟨s, hs, hdropped⟩ := (Option.any_eq_true ..).mp hrun
  obtain ⟨hended, e, he, p, hp, hcount⟩ := of_decide_eq_true hdropped
  intro hall
  exact hcount (hall droppedRun s (by decide +kernel) hs hended e he p hp)

end ReactorRuntime.StepResults
