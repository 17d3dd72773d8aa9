import ReactorRuntime.Interface.ModelLoop

/-!
# The end of the model loop is reported

In every run the failure sink is called with the first crash that came before the final read, or
with what `run()` raised, unless what it raised is no `Exception` and no `CancelledError`: that
leaves `_lifecycle` at once, and nothing is reported, a recorded crash included (`reported_iff`).
-/

namespace ReactorRuntime.Interface.ModelLoop

variable {ε : Type} {kind : ε → Kind} {s s' : State ε} {act : Act ε} {acts : List (Act ε)}

/-! ### What there is to report -/

def failure (kind : ε → Kind) : Ending ε → Option ε
  | .raised error => if kind error = .cancelled then none else some error
  | _ => none

/-- What the failure sink is to be called with: the first crash, or what `run()` raised. -/
def reported (kind : ε → Kind) (crashes : List ε) (ending : Ending ε) : Option ε :=
  crashes.head?.or (failure kind ending)

/-- The end of the loop is reported just if it is a failure, once, and a late crash is nothing. -/
structure Reports (kind : ε → Kind) (s : State ε) : Prop where
  once : s.sunk.length ≤ 1
  sunk : s.loopClosed = true →
    ∃ ending, s.ending = some ending ∧ s.sunk = (reported kind s.crashes ending).toList
  not_sunk : s.loopClosed = false → s.sunk = []
  late : s.crashClosed = true → ∀ error, s.step kind (.crash error) = some s

/-! ### The steps -/

/-- What a step does. -/
inductive Move (kind : ε → Kind) (s : State ε) : Act ε → State ε → Prop where
  | crash (error : ε) : Move kind s (.crash error) (s.crashWith error)
  /-- A cancellation is asked for, or made. -/
  | asks (act : Act ε) (asking cancels told : ℕ) (hact : ∀ error, act ≠ .ends error) :
    Move kind s act { s with asking, cancels, told }
  | start (hphase : s.phase = .idle) : Move kind s .start s.start
  | ends (error : Option ε) (hphase : s.phase = .running) :
    Move kind s (.ends error) (s.ends kind error)
  | read (ending : Ending ε) (hphase : s.phase = .ended ending) :
    Move kind s .read (s.finalRead kind ending)
  | report (crash : Option ε) (hphase : s.phase = .read crash) :
    Move kind s .report { s with phase := .done, sunk := s.sunk ++ crash.toList }

theorem callSoon_eq (s : State ε) : ∃ cancels, s.callSoon = { s with cancels } := by
  unfold State.callSoon
  split_ifs
  · exact ⟨_, rfl⟩
  · exact ⟨_, rfl⟩

theorem Move.of_step (h : s.step kind act = some s') : Move kind s act s' := by
  cases act with
  | crash error =>
    cases h
    exact .crash error
  | ask =>
    simp only [State.step] at h
    split_ifs at h
    cases h
    obtain ⟨cancels, heq⟩ := callSoon_eq s
    rw [heq]
    exact .asks _ _ _ _ fun error heq => by cases heq
  | stop =>
    cases h
    obtain ⟨cancels, heq⟩ := callSoon_eq s
    rw [heq]
    split_ifs <;> exact .asks _ _ _ _ fun error heq => by cases heq
  | cancel =>
    simp only [State.step] at h
    split_ifs at h
    cases h
    exact .asks _ _ _ _ fun error heq => by cases heq
  | start =>
    cases hphase : s.phase <;> simp only [State.step, hphase, reduceCtorEq] at h
    cases h
    exact .start hphase
  | ends error =>
    cases hphase : s.phase <;> simp only [State.step, hphase, reduceCtorEq] at h
    cases h
    exact .ends error hphase
  | read =>
    cases hphase : s.phase <;> simp only [State.step, hphase, reduceCtorEq] at h
    cases h
    exact .read _ hphase
  | report =>
    cases hphase : s.phase <;> simp only [State.step, hphase, reduceCtorEq] at h
    cases h
    exact .report _ hphase

/-! ### What every step keeps -/

/-- There is an `except` clause for what `run()` raised, if it raised. -/
def Caught (kind : ε → Kind) (ending : Ending ε) : Prop :=
  ∀ error, ending = .raised error → kind error ≠ .other

def Fits (kind : ε → Kind) (s : State ε) : Phase ε → Prop
  | .idle | .running => s.crashClosed = false ∧ s.sunk = [] ∧ s.ending = none
  | .ended ending => s.crashClosed = false ∧ s.sunk = [] ∧ s.ending = some ending ∧
    Caught kind ending
  | .read crash => s.crashClosed = true ∧ s.sunk = [] ∧
    ∃ ending, s.ending = some ending ∧ Caught kind ending ∧
      crash = reported kind s.crashes ending
  | .done => s.crashClosed = true ∧
    ∃ ending, s.ending = some ending ∧ Caught kind ending ∧
      s.sunk = (reported kind s.crashes ending).toList
  | .escaped error => s.crashClosed = false ∧ s.sunk = [] ∧ s.ending = some (.raised error) ∧
    kind error = .other

structure Recorded (kind : ε → Kind) (s : State ε) : Prop where
  crash : s.crash = s.crashes.head?
  fits : Fits kind s s.phase

theorem Recorded.of_eq (h : Recorded kind s) (hphase : s'.phase = s.phase)
    (hcrash : s'.crash = s.crash) (hcrashes : s'.crashes = s.crashes)
    (hending : s'.ending = s.ending) (hsunk : s'.sunk = s.sunk)
    (hclosed : s'.crashClosed = s.crashClosed) : Recorded kind s' where
  crash := by rw [hcrash, hcrashes, h.crash]
  fits := by
    have hsame : ∀ phase, Fits kind s' phase ↔ Fits kind s phase := by
      intro phase
      cases phase <;> simp only [Fits, hcrashes, hending, hsunk, hclosed]
    rw [hphase, hsame]
    exact h.fits

theorem Recorded.of_open (h : Recorded kind s) (hopen : s.crashClosed = false)
    (hphase : s'.phase = s.phase) (hending : s'.ending = s.ending) (hsunk : s'.sunk = s.sunk)
    (hclosed : s'.crashClosed = s.crashClosed) (hcrash : s'.crash = s'.crashes.head?) :
    Recorded kind s' where
  crash := hcrash
  fits := by
    have hfits := h.fits
    rw [hphase]
    cases hwhere : s.phase with
    | read crash =>
      rw [hwhere] at hfits
      exact absurd (hopen.symm.trans hfits.1) Bool.false_ne_true
    | done =>
      rw [hwhere] at hfits
      exact absurd (hopen.symm.trans hfits.1) Bool.false_ne_true
    | _ =>
      rw [hwhere] at hfits
      simpa only [Fits, hending, hsunk, hclosed] using hfits

/-- A crash is the first one, or it comes after another. -/
theorem Recorded.crashWith (h : Recorded kind s) (error : ε) :
    Recorded kind (s.crashWith error) := by
  have hcrash := h.crash
  unfold State.crashWith
  cases hclosed : s.crashClosed with
  | true =>
    rw [if_pos rfl]
    exact h
  | false =>
    rw [if_neg Bool.false_ne_true]
    cases hcrashes : s.crashes with
    | nil =>
      rw [hcrashes] at hcrash
      rw [hcrash, List.head?_nil, Option.isSome_none, if_neg Bool.false_ne_true]
      exact h.of_open hclosed rfl rfl rfl hclosed.symm rfl
    | cons first rest =>
      rw [hcrashes] at hcrash
      have hsome : s.crash.isSome = true := hcrash ▸ rfl
      rw [if_pos hsome]
      exact h.of_open hclosed rfl rfl rfl hclosed.symm hcrash

theorem kept_eq_failure {ending : Ending ε} (h : Caught kind ending) :
    State.kept kind ending = failure kind ending := by
  cases ending with
  | raised error =>
    have hother := h error rfl
    simp only [State.kept, failure]
    cases hkind : kind error with
    | other => exact absurd hkind hother
    | exception => rfl
    | cancelled => rfl
  | _ => rfl

theorem Recorded.start (h : Recorded kind s) (hidle : s.phase = .idle) :
    Recorded kind s.start := by
  obtain ⟨hopen, hsunk, hending⟩ : Fits kind s .idle := hidle ▸ h.fits
  unfold State.start
  split_ifs
  · refine ⟨h.crash, hopen, hsunk, rfl, fun error heq => ?_⟩
    cases heq
  · exact ⟨h.crash, hopen, hsunk, hending⟩

theorem Recorded.ends (h : Recorded kind s) (hrunning : s.phase = .running) (error : Option ε) :
    Recorded kind (s.ends kind error) := by
  obtain ⟨hopen, hsunk, -⟩ : Fits kind s .running := hrunning ▸ h.fits
  cases error with
  | none =>
    refine ⟨h.crash, hopen, hsunk, rfl, fun error heq => ?_⟩
    cases heq
  | some error =>
    refine ⟨h.crash, ?_⟩
    unfold State.ends
    simp only
    by_cases hkind : kind error = .other
    · rw [if_pos hkind]
      exact ⟨hopen, hsunk, rfl, hkind⟩
    · rw [if_neg hkind]
      refine ⟨hopen, hsunk, rfl, fun error' heq => ?_⟩
      obtain rfl := Ending.raised.inj heq
      exact hkind

theorem Recorded.finalRead (h : Recorded kind s) {ending : Ending ε}
    (hended : s.phase = .ended ending) : Recorded kind (s.finalRead kind ending) := by
  obtain ⟨-, hsunk, hending, hcaught⟩ : Fits kind s (.ended ending) := hended ▸ h.fits
  refine ⟨h.crash, rfl, hsunk, ending, hending, hcaught, ?_⟩
  show _ = s.crashes.head?.or (failure kind ending)
  rw [← h.crash, kept_eq_failure hcaught]
  cases s.crash <;> rfl

theorem Recorded.report (h : Recorded kind s) {crash : Option ε} (hread : s.phase = .read crash) :
    Recorded kind { s with phase := .done, sunk := s.sunk ++ crash.toList } := by
  obtain ⟨hclosed, hsunk, ending, hending, hcaught, hcrash⟩ : Fits kind s (.read crash) :=
    hread ▸ h.fits
  refine ⟨h.crash, hclosed, ending, hending, hcaught, ?_⟩
  show s.sunk ++ crash.toList = _
  rw [hsunk, hcrash]
  rfl

theorem recorded_isInvariant (kind : ε → Kind) : (modelLoop kind).IsInvariant (Recorded kind) where
  init := ⟨rfl, rfl, rfl, rfl⟩
  step s act s' h hstep := by
    cases Move.of_step hstep with
    | crash error => exact h.crashWith error
    | asks => exact h.of_eq rfl rfl rfl rfl rfl rfl
    | start hphase => exact h.start hphase
    | ends error hphase => exact h.ends hphase error
    | read ending hphase => exact h.finalRead hphase
    | report crash hphase => exact h.report hphase

/-! ### What `run()` raised -/

theorem ending_crashWith (s : State ε) (error : ε) : (s.crashWith error).ending = s.ending := by
  unfold State.crashWith
  split_ifs <;> rfl

theorem ends_mem_iff : ∀ (acts : List (Act ε)) (s : State ε), (modelLoop kind).run acts = some s →
    ∀ error, .ends (some error) ∈ acts ↔ s.ending = some (.raised error) := by
  refine TransitionSystem.run_induction ?_ fun acts s act s' hrun ih hstep error => ?_
  · intro error
    exact ⟨fun hin => (List.not_mem_nil hin).elim, fun heq => by cases heq⟩
  · have hfits := ((recorded_isInvariant kind).of_run hrun).fits
    -- `run()` ends once, and it has not ended while it was skipped or had not begun
    have hnew : s.ending = none → .ends (some error) ∉ acts := by
      intro hnone
      rw [ih error, hnone]
      exact fun heq => by cases heq
    rw [List.mem_append, List.mem_singleton]
    cases Move.of_step hstep with
    | crash raised => simp [ih error, ending_crashWith]
    | asks act _ _ _ hact => simp [ih error, (hact (some error)).symm]
    | start hphase =>
      rw [hphase] at hfits
      unfold State.start
      split_ifs <;> simp [hnew hfits.2.2, hfits.2.2]
    | ends raised hphase =>
      rw [hphase] at hfits
      cases raised <;> simp [State.ends, hnew hfits.2.2, eq_comm]
    | read ending hphase => simp [ih error, State.finalRead]
    | report crash hphase => simp [ih error]

/-! ### The end is reported -/

theorem reported_ne_none (crashes : List ε) {error : ε} (h : kind error = .other) :
    reported kind crashes (.raised error) ≠ none := by
  cases crashes with
  | nil => simp [reported, failure, h]
  | cons first rest => simp [reported]

/-- Only what no clause is there for leaves the loop unreported. -/
theorem Recorded.reports (h : Recorded kind s)
    (hcaught : ∀ error, s.ending = some (.raised error) → kind error ≠ .other) :
    Reports kind s := by
  have hlate : s.crashClosed = true → ∀ error, s.step kind (.crash error) = some s :=
    fun hclosed error => congrArg some (if_pos hclosed)
  have hopen : s.sunk = [] → s.loopClosed = false → Reports kind s := by
    intro hsunk hloop
    refine ⟨?_, fun hclosed => ?_, fun _ => hsunk, hlate⟩
    · rw [hsunk]
      exact Nat.zero_le 1
    · exact absurd (hloop.symm.trans hclosed) Bool.false_ne_true
  have hfits := h.fits
  cases hphase : s.phase with
  | done =>
    rw [hphase] at hfits
    obtain ⟨-, ending, hending, -, hsunk⟩ := hfits
    have hloop : s.loopClosed = true := by
      unfold State.loopClosed
      rw [hphase]
    refine ⟨?_, fun _ => ⟨ending, hending, hsunk⟩, fun hclosed => ?_, hlate⟩
    · rw [hsunk]
      cases reported kind s.crashes ending <;> simp
    · exact absurd (hclosed.symm.trans hloop) Bool.false_ne_true
  | escaped error =>
    rw [hphase] at hfits
    exact absurd hfits.2.2.2 (hcaught error hfits.2.2.1)
  | _ =>
    rw [hphase] at hfits
    refine hopen hfits.2.1 ?_
    unfold State.loopClosed
    rw [hphase]

/-- The end of the loop is reported just if what `run()` raised, if it raised, is an `Exception` or
a `CancelledError`. -/
theorem reported_iff (hrun : (modelLoop kind).run acts = some s) :
    Reports kind s ↔ ∀ error, .ends (some error) ∈ acts → kind error ≠ .other := by
  have h := (recorded_isInvariant kind).of_run hrun
  constructor
  · intro hreports error hin hkind
    have hending := (ends_mem_iff acts s hrun error).mp hin
    have hfits := h.fits
    cases hphase : s.phase with
    | escaped error' =>
      rw [hphase] at hfits
      have hloop : s.loopClosed = true := by
        unfold State.loopClosed
        rw [hphase]
      obtain ⟨ending, hending', hsunk⟩ := hreports.sunk hloop
      obtain rfl := Option.some.inj (hending.symm.trans hending')
      rw [hfits.2.1] at hsunk
      exact reported_ne_none s.crashes hkind (Option.toList_eq_nil_iff.mp hsunk.symm)
    | idle | running =>
      rw [hphase] at hfits
      have hnone := hfits.2.2.symm.trans hending
      cases hnone
    | ended ending =>
      rw [hphase] at hfits
      exact hfits.2.2.2 error (Option.some.inj (hfits.2.2.1.symm.trans hending)) hkind
    | read crash =>
      rw [hphase] at hfits
      obtain ⟨-, -, ending, hending', hcaught, -⟩ := hfits
      exact hcaught error (Option.some.inj (hending'.symm.trans hending)) hkind
    | done =>
      rw [hphase] at hfits
      obtain ⟨-, ending, hending', hcaught, -⟩ := hfits
      exact hcaught error (Option.some.inj (hending'.symm.trans hending)) hkind
  · intro hcaught
    exact h.reports fun error hending =>
      hcaught error ((ends_mem_iff acts s hrun error).mpr hending)

/-! ### Runs -/

/-- Errors that stand for a `ValueError`, a `CancelledError` and a `SystemExit`. -/
def kindOf : Fin 3 → Kind
  | 0 => .exception
  | 1 => .cancelled
  | 2 => .other

/-- A crash comes while the loop runs; `run()` swallows the cancellation and raises, and a crash
that comes after the final read is nothing. -/
def crashedRun : List (Act (Fin 3)) :=
  [.start, .crash 1, .ask, .cancel, .crash 0, .stop, .ends (some 0), .read, .crash 2, .report]

theorem isSome_crashedRun : ((modelLoop kindOf).run crashedRun).isSome := rfl

theorem reported_iff_crashedRun :
    ∃ s, (modelLoop kindOf).run crashedRun = some s ∧ s.sunk = [1] ∧ Reports kindOf s := by
  refine ⟨_, (Option.some_get isSome_crashedRun).symm, by decide +kernel, ?_⟩
  exact (reported_iff (Option.some_get isSome_crashedRun).symm).mpr (by decide +kernel)

/-- A crash is recorded, and `run()` raises a `SystemExit` before its cancellation. -/
def exitRun : List (Act (Fin 3)) := [.start, .crash 0, .ask, .ends (some 2)]

theorem isSome_exitRun : ((modelLoop kindOf).run exitRun).isSome := rfl

theorem not_reports : ¬∀ (acts : List (Act (Fin 3))) (s : State (Fin 3)),
    (modelLoop kindOf).run acts = some s → Reports kindOf s := by
  intro hall
  have hreports := hall _ _ (Option.some_get isSome_exitRun).symm
  obtain ⟨hloop, hsunk, hending⟩ :
      (((modelLoop kindOf).run exitRun).get isSome_exitRun).loopClosed = true ∧
      (((modelLoop kindOf).run exitRun).get isSome_exitRun).sunk = [] ∧
      (((modelLoop kindOf).run exitRun).get isSome_exitRun).crashes = [0] := by decide +kernel
  obtain ⟨ending, -, heq⟩ := hreports.sunk hloop
  rw [hsunk, hending] at heq
  cases heq

end ReactorRuntime.Interface.ModelLoop
