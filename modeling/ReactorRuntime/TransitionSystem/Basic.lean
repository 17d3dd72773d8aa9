import Mathlib.Data.List.Induction

/-!
# Labelled transition systems with partial steps

A `TransitionSystem` has one initial state and a step function that is partial: `step s l = none`
says that `l` cannot happen in `s`.  Everything that is left open in the modelled program (which
thread goes next, what a call returns, when a clock moves) is in the label, so a run is a list of
labels and can be evaluated.

* `IsInvariant` packages the induction over runs (`IsInvariant.of_reachable`).
* `AllSteps G` says that every step of a run meets the condition `G`; what those steps preserve
  holds at the end of such a run (`AllSteps.invariant`).
-/

namespace ReactorRuntime

structure TransitionSystem (State Label : Type*) where
  /-- The state every run starts in. -/
  init : State
  /-- The state after the label, or `none` where the label cannot happen. -/
  step : State → Label → Option State

namespace TransitionSystem

variable {State Label : Type*} (T : TransitionSystem State Label)

/-! ### Runs -/

/-- The state after the labels, taken in order from `s`. -/
def runFrom (T : TransitionSystem State Label) (s : State) : List Label → Option State
  | [] => some s
  | l :: ls => (T.step s l).bind fun s' => runFrom T s' ls

def run (ls : List Label) : Option State := T.runFrom T.init ls

def Reachable (s : State) : Prop := ∃ ls, T.run ls = some s

variable {T}

@[simp] theorem runFrom_nil (s : State) : T.runFrom s [] = some s := rfl

theorem runFrom_cons (s : State) (l : Label) (ls : List Label) :
    T.runFrom s (l :: ls) = (T.step s l).bind fun s' => T.runFrom s' ls := rfl

theorem runFrom_append (s : State) (ls ls' : List Label) :
    T.runFrom s (ls ++ ls') = (T.runFrom s ls).bind fun s' => T.runFrom s' ls' := by
  induction ls generalizing s with
  | nil => rfl
  | cons l ls ih =>
    rw [List.cons_append, runFrom_cons, runFrom_cons, Option.bind_assoc]
    exact congrArg _ (funext fun s' => ih s')

theorem runFrom_concat (s : State) (ls : List Label) (l : Label) :
    T.runFrom s (ls ++ [l]) = (T.runFrom s ls).bind fun s' => T.step s' l := by
  rw [runFrom_append]
  exact congrArg _ (funext fun s' => by simp [runFrom_cons])

/-- A run that ends in `s'` by one more label passes through a state the label leads on from. -/
theorem run_concat_eq_some {ls : List Label} {l : Label} {s' : State} :
    T.run (ls ++ [l]) = some s' ↔ ∃ s, T.run ls = some s ∧ T.step s l = some s' := by
  rw [run, runFrom_concat, Option.bind_eq_some_iff]
  rfl

theorem run_induction {motive : List Label → State → Prop} (nil : motive [] T.init)
    (concat : ∀ ls s l s', T.run ls = some s → motive ls s → T.step s l = some s' →
      motive (ls ++ [l]) s') :
    ∀ ls s, T.run ls = some s → motive ls s := by
  intro ls
  induction ls using List.reverseRecOn with
  | nil =>
    intro s h
    cases h
    exact nil
  | append_singleton ls l ih =>
    intro s' h
    obtain ⟨s, hs, hstep⟩ := run_concat_eq_some.mp h
    exact concat ls s l s' hs (ih s hs) hstep

theorem reachable_init : T.Reachable T.init := ⟨[], rfl⟩

theorem reachable_get (ls : List Label) (h : (T.run ls).isSome) :
    T.Reachable ((T.run ls).get h) :=
  ⟨ls, (Option.some_get h).symm⟩

theorem Reachable.step {s s' : State} {l : Label} (h : T.Reachable s)
    (hstep : T.step s l = some s') : T.Reachable s' := by
  obtain ⟨ls, hls⟩ := h
  exact ⟨ls ++ [l], run_concat_eq_some.mpr ⟨s, hls, hstep⟩⟩

/-! ### Invariants -/

structure IsInvariant (T : TransitionSystem State Label) (I : State → Prop) : Prop where
  init : I T.init
  step : ∀ s l s', I s → T.step s l = some s' → I s'

theorem IsInvariant.of_run {I : State → Prop} (hI : T.IsInvariant I) {ls : List Label} {s : State}
    (h : T.run ls = some s) : I s :=
  run_induction (motive := fun _ s => I s) hI.init
    (fun _ s l s' _ hs hstep => hI.step s l s' hs hstep) ls s h

theorem IsInvariant.of_reachable {I : State → Prop} (hI : T.IsInvariant I) {s : State}
    (h : T.Reachable s) : I s := by
  obtain ⟨ls, hls⟩ := h
  exact hI.of_run hls

/-- What every step preserves holds at the end of a run from any state where it holds. -/
theorem of_runFrom {I : State → Prop} (hstep : ∀ s l s', I s → T.step s l = some s' → I s')
    {s s' : State} {ls : List Label} (hs : I s) (hrun : T.runFrom s ls = some s') : I s' := by
  induction ls generalizing s with
  | nil => exact Option.some.inj hrun ▸ hs
  | cons l ls ih =>
    obtain ⟨t, ht, hrest⟩ := Option.bind_eq_some_iff.mp hrun
    exact ih (hstep s l t hs ht) hrest

/-- A property every step preserves from a state that has an invariant is an invariant with it. -/
theorem IsInvariant.and {I J : State → Prop} (hI : T.IsInvariant I) (hinit : J T.init)
    (hstep : ∀ s l s', I s → J s → T.step s l = some s' → J s') :
    T.IsInvariant fun s => I s ∧ J s where
  init := ⟨hI.init, hinit⟩
  step s l s' h hs := ⟨hI.step s l s' h.1 hs, hstep s l s' h.1 h.2 hs⟩

/-! ### Runs whose steps all meet a condition -/

/-- Every step of the run that takes `ls` from `s` meets `G`. -/
def AllStepsFrom (T : TransitionSystem State Label) (G : State → Label → Prop) :
    State → List Label → Prop
  | _, [] => True
  | s, l :: ls => G s l ∧ ∀ s', T.step s l = some s' → AllStepsFrom T G s' ls

/-- Every step of the run that takes `ls` from the initial state meets `G`. -/
def AllSteps (T : TransitionSystem State Label) (G : State → Label → Prop)
    (ls : List Label) : Prop :=
  T.AllStepsFrom G T.init ls

instance decidableAllStepsFrom {G : State → Label → Prop} [∀ s l, Decidable (G s l)] :
    (s : State) → (ls : List Label) → Decidable (T.AllStepsFrom G s ls)
  | _, [] => .isTrue trivial
  | s, l :: ls =>
    match h : T.step s l with
    | none => decidable_of_iff (G s l) (by simp [AllStepsFrom, h])
    | some s' =>
      have : Decidable (T.AllStepsFrom G s' ls) := decidableAllStepsFrom s' ls
      decidable_of_iff (G s l ∧ T.AllStepsFrom G s' ls) (by simp [AllStepsFrom, h])

instance {G : State → Label → Prop} [∀ s l, Decidable (G s l)] (ls : List Label) :
    Decidable (T.AllSteps G ls) :=
  inferInstanceAs (Decidable (T.AllStepsFrom G T.init ls))

theorem allStepsFrom_concat {G : State → Label → Prop} {s : State} {ls : List Label} {l : Label} :
    T.AllStepsFrom G s (ls ++ [l]) ↔
      T.AllStepsFrom G s ls ∧ ∀ s', T.runFrom s ls = some s' → G s' l := by
  induction ls generalizing s with
  | nil => simp [AllStepsFrom]
  | cons k ls ih =>
    rw [List.cons_append, AllStepsFrom, AllStepsFrom, runFrom_cons]
    simp only [ih, Option.bind_eq_some_iff, forall_exists_index, and_imp]
    constructor
    · rintro ⟨hk, h⟩
      exact ⟨⟨hk, fun s' hs' => (h s' hs').1⟩, fun s'' s' hs' hrun => (h s' hs').2 s'' hrun⟩
    · rintro ⟨⟨hk, h⟩, hl⟩
      exact ⟨hk, fun s' hs' => ⟨h s' hs', fun s'' hrun => hl s'' s' hs' hrun⟩⟩

/-- The steps of a run with one more label are those of the run, and the last one. -/
theorem allSteps_concat {G : State → Label → Prop} {s : State} {ls : List Label} {l : Label}
    (hrun : T.run ls = some s) : T.AllSteps G (ls ++ [l]) ↔ T.AllSteps G ls ∧ G s l := by
  refine allStepsFrom_concat.trans (and_congr_right fun _ => ⟨fun h => h s hrun, fun h s' hs' => ?_⟩)
  obtain rfl := Option.some.inj (hrun.symm.trans hs')
  exact h

/-- Every step meets a condition that an invariant implies. -/
theorem IsInvariant.allSteps {I : State → Prop} {G : State → Label → Prop} (hI : T.IsInvariant I)
    (hG : ∀ s l, I s → G s l) (ls : List Label) : T.AllSteps G ls := by
  have hfrom (ls : List Label) : ∀ s, I s → T.AllStepsFrom G s ls := by
    induction ls with
    | nil => exact fun _ _ => trivial
    | cons l ls ih => exact fun s hs => ⟨hG s l hs, fun s' hstep => ih s' (hI.step s l s' hs hstep)⟩
  exact hfrom ls T.init hI.init

/-- An invariant of the steps that meet `G` holds at the end of every run whose steps all do. -/
theorem AllSteps.invariant {G : State → Label → Prop} {I : State → Prop} (hinit : I T.init)
    (hstep : ∀ s l s', I s → G s l → T.step s l = some s' → I s') {ls : List Label} {s : State}
    (hall : T.AllSteps G ls) (hrun : T.run ls = some s) : I s := by
  revert hall
  refine run_induction (motive := fun ls s => T.AllSteps G ls → I s) (fun _ => hinit) ?_ ls s hrun
  intro ls s l s' hs ih h hall
  obtain ⟨hls, hl⟩ := allStepsFrom_concat.mp hall
  exact hstep s l s' (ih hls) (hl s hs) h

end TransitionSystem

end ReactorRuntime
