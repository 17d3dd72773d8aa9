import ReactorRuntime.Lists.Segment
import Mathlib.Data.List.Nodup
import Mathlib.Data.List.Perm.Subperm

/-!
# Ordering a graph by a depth-first traversal

A traversal of `a` visits what it depends on and then puts it at the end of what is done; `visiting`
is the path from the root of the traversal to `a`.  The depth of the calls is bounded by a fuel.

* `outcome_visit`: a traversal ends with each name after what it depends on, or on a name that
  depends on itself, or on one that is depended on and unknown; it never runs out of fuel that is
  longer than the names.
* `order_eq_ok_iff`: there is an order just if no name depends on itself or on an unknown one.
-/

namespace ReactorRuntime.Graphs

variable {α β : Type*}

/-- Why a traversal ends early. -/
inductive Refusal (α : Type*) where
  | cycle (name : α)
  | unknown (name : α)
  /-- The calls are nested deeper than the fuel. -/
  | depth
  deriving DecidableEq

/-- What a traversal has marked, and the values of what is done, in order. -/
structure Marks (α β : Type*) where
  visiting : List α := []
  done : List α := []
  ordered : List β := []

variable [DecidableEq α] (lookup : α → Option β) (dependsOn : β → List α)

def visit : ℕ → Marks α β → α → Except (Refusal α) (Marks α β)
  | 0, _, _ => .error .depth
  | fuel + 1, m, name =>
    if name ∈ m.done then .ok m
    else if name ∈ m.visiting then .error (.cycle name)
    else
      match lookup name with
      | none => .error (.unknown name)
      | some value =>
        ((dependsOn value).foldlM (visit fuel) { m with visiting := name :: m.visiting }).map
          fun m' =>
            { visiting := m'.visiting.erase name
              done := m'.done ++ [name]
              ordered := m'.ordered ++ [value] }

def order (names : List α) : Except (Refusal α) (Marks α β) :=
  names.foldlM (visit lookup dependsOn (names.length + 1)) {}

def DependsOn (a b : α) : Prop := ∃ value, lookup a = some value ∧ b ∈ dependsOn value

/-- A name depends on one that is unknown, or on itself. -/
def Faulty : Prop :=
  (∃ a b, DependsOn lookup dependsOn a b ∧ lookup b = none) ∨
    ∃ a, Relation.TransGen (DependsOn lookup dependsOn) a a

/-- Everything that is done comes after what it depends on. -/
structure Sorted (m : Marks α β) : Prop where
  found : m.done.map lookup = m.ordered.map some
  nodup : m.done.Nodup
  before : ∀ l₁ a l₂, m.done = l₁ ++ a :: l₂ → ∀ b, DependsOn lookup dependsOn a b → b ∈ l₁

variable {lookup dependsOn} {m : Marks α β} {names : List α}

/-! ### What the order says -/

omit [DecidableEq α] in
theorem Sorted.isSome_lookup (h : Sorted lookup dependsOn m) {a : α} (ha : a ∈ m.done) :
    (lookup a).isSome := by
  have hin : lookup a ∈ m.ordered.map some := h.found ▸ List.mem_map_of_mem ha
  obtain ⟨value, -, heq⟩ := List.mem_map.mp hin
  rw [← heq]
  rfl

omit [DecidableEq α] in
theorem Sorted.mem_after (h : Sorted lookup dependsOn m) {l₁ l₂ : List α} {a b : α}
    (hdone : m.done = l₁ ++ a :: l₂) (hb : b ∈ m.done) (hba : DependsOn lookup dependsOn b a) :
    b ∈ l₂ := by
  have hnodup := h.nodup
  rw [hdone, List.nodup_append] at hnodup
  have ha : a ∉ l₁ := fun hin => hnodup.2.2 a hin a List.mem_cons_self rfl
  rw [hdone, List.mem_append, List.mem_cons] at hb
  obtain hb | rfl | hb := hb
  · -- it would come before the name, and the name before it
    obtain ⟨p, q, rfl⟩ := List.append_of_mem hb
    have hap := h.before p b (q ++ a :: l₂) (by rw [hdone]; simp) a hba
    exact absurd (List.mem_append_left _ hap) ha
  · exact absurd (h.before l₁ b l₂ hdone b hba) ha
  · exact hb

theorem Sorted.idxOf_lt (h : Sorted lookup dependsOn m) {a b : α} (ha : a ∈ m.done)
    (hab : DependsOn lookup dependsOn a b) : b ∈ m.done ∧ m.done.idxOf b < m.done.idxOf a := by
  obtain ⟨l₁, l₂, hdone⟩ := List.append_of_mem ha
  have hb := h.before l₁ a l₂ hdone b hab
  have hnodup := h.nodup
  rw [hdone, List.nodup_append] at hnodup
  have ha₁ : a ∉ l₁ := fun hin => hnodup.2.2 a hin a List.mem_cons_self rfl
  rw [hdone, List.idxOf_append_of_mem hb, List.idxOf_append_of_notMem ha₁, List.idxOf_cons_self]
  exact ⟨List.mem_append_left _ hb, Nat.lt_of_lt_of_le (List.idxOf_lt_length_of_mem hb)
    (Nat.le_add_right _ _)⟩

theorem Sorted.idxOf_lt_of_transGen (h : Sorted lookup dependsOn m) {a b : α} (ha : a ∈ m.done)
    (hab : Relation.TransGen (DependsOn lookup dependsOn) a b) :
    b ∈ m.done ∧ m.done.idxOf b < m.done.idxOf a := by
  induction hab with
  | single hab => exact h.idxOf_lt ha hab
  | tail _ hbc ih =>
    obtain ⟨hc, hlt⟩ := h.idxOf_lt ih.1 hbc
    exact ⟨hc, Nat.lt_trans hlt ih.2⟩

/-- Where everything that is known is done, nothing is wrong. -/
theorem Sorted.not_faulty (h : Sorted lookup dependsOn m)
    (hall : ∀ a, (lookup a).isSome → a ∈ m.done) : ¬Faulty lookup dependsOn := by
  rintro (⟨a, b, hab, hb⟩ | ⟨a, haa⟩)
  · obtain ⟨value, ha, -⟩ := id hab
    have hdone := (h.idxOf_lt (hall a (ha ▸ rfl)) hab).1
    have hsome := h.isSome_lookup hdone
    rw [hb] at hsome
    cases hsome
  · obtain ⟨value, ha⟩ : ∃ value, lookup a = some value := by
      obtain ⟨b, ⟨value, ha, -⟩, -⟩ := Relation.TransGen.head'_iff.mp haa
      exact ⟨value, ha⟩
    exact Nat.lt_irrefl _ (h.idxOf_lt_of_transGen (hall a (ha ▸ rfl)) haa).2

/-! ### The traversal -/

variable (lookup dependsOn) (names)

/-- The marks while the traversal goes on: what is done is sorted, and the path is of known names
that are not done. -/
structure Fit (m : Marks α β) : Prop extends Sorted lookup dependsOn m where
  path : m.visiting.Nodup
  known : m.visiting ⊆ names
  not_done : ∀ a ∈ m.visiting, a ∉ m.done

/-- What a traversal of `targets` comes to. -/
def Outcome (targets : List α) (m : Marks α β) : Except (Refusal α) (Marks α β) → Prop
  | .ok m' => Fit lookup dependsOn names m' ∧ m'.visiting = m.visiting ∧ m.done <+: m'.done ∧
    ∀ a ∈ targets, a ∈ m'.done
  | .error (.cycle a) => Relation.TransGen (DependsOn lookup dependsOn) a a
  | .error (.unknown a) => lookup a = none ∧ ∃ b, DependsOn lookup dependsOn b a
  | .error .depth => False

/-- A name may be traversed: the path leads to it, it is known or depended on, and the fuel lasts
for what is not on the path. -/
structure Visitable (fuel : ℕ) (visiting : List α) (name : α) : Prop where
  path : ∀ a ∈ visiting, Relation.TransGen (DependsOn lookup dependsOn) a name
  named : lookup name = none → ∃ a, DependsOn lookup dependsOn a name
  fuel : names.length < fuel + visiting.length

variable {lookup dependsOn names}

/-- Traversals one after another. -/
theorem outcome_foldlM {fuel : ℕ}
    (hvisit : ∀ m name, Fit lookup dependsOn names m →
      Visitable lookup dependsOn names fuel m.visiting name →
      Outcome lookup dependsOn names [name] m (visit lookup dependsOn fuel m name)) :
    ∀ (targets : List α) (m : Marks α β), Fit lookup dependsOn names m →
      (∀ name ∈ targets, Visitable lookup dependsOn names fuel m.visiting name) →
      Outcome lookup dependsOn names targets m
        (targets.foldlM (visit lookup dependsOn fuel) m) := by
  intro targets
  induction targets with
  | nil =>
    intro m hm _
    exact ⟨hm, rfl, List.prefix_rfl, fun a ha => (List.not_mem_nil ha).elim⟩
  | cons name targets ih =>
    intro m hm hall
    have hfirst := hvisit m name hm (hall name List.mem_cons_self)
    rw [List.foldlM_cons]
    cases hresult : visit lookup dependsOn fuel m name with
    | error refusal =>
      rw [hresult] at hfirst
      cases refusal with
      | cycle a => exact hfirst
      | unknown a => exact hfirst
      | depth => exact hfirst
    | ok m' =>
      rw [hresult] at hfirst
      obtain ⟨hm', hvisiting, hdone, hname⟩ := hfirst
      have hrest := ih m' hm' fun a ha => hvisiting ▸ hall a (List.mem_cons_of_mem _ ha)
      show Outcome lookup dependsOn names _ m (targets.foldlM (visit lookup dependsOn fuel) m')
      cases hresult' : targets.foldlM (visit lookup dependsOn fuel) m' with
      | error refusal =>
        rw [hresult'] at hrest
        cases refusal with
        | cycle a => exact hrest
        | unknown a => exact hrest
        | depth => exact hrest
      | ok m'' =>
        rw [hresult'] at hrest
        obtain ⟨hm'', hvisiting', hdone', htargets⟩ := hrest
        refine ⟨hm'', hvisiting'.trans hvisiting, hdone.trans hdone', fun a ha => ?_⟩
        obtain rfl | ha := List.mem_cons.mp ha
        · exact hdone'.subset (hname a List.mem_cons_self)
        · exact htargets a ha

omit [DecidableEq α] in
theorem Visitable.step {fuel : ℕ} {visiting : List α} {name : α} {value : β}
    (h : Visitable lookup dependsOn names (fuel + 1) visiting name)
    (hvalue : lookup name = some value) {target : α} (htarget : target ∈ dependsOn value) :
    Visitable lookup dependsOn names fuel (name :: visiting) target where
  path := by
    intro a ha
    have hlast : DependsOn lookup dependsOn name target := ⟨value, hvalue, htarget⟩
    obtain rfl | ha := List.mem_cons.mp ha
    · exact .single hlast
    · exact .tail (h.path a ha) hlast
  named := fun _ => ⟨name, value, hvalue, htarget⟩
  fuel := by
    have hfuel := h.fuel
    rw [List.length_cons]
    omega

theorem Fit.close {m m' : Marks α β} {name : α} {value : β} (hm : Fit lookup dependsOn names m)
    (hvalue : lookup name = some value) (hm' : Fit lookup dependsOn names m')
    (hvisiting : m'.visiting = name :: m.visiting)
    (htargets : ∀ a ∈ dependsOn value, a ∈ m'.done) :
    Fit lookup dependsOn names
      { visiting := m'.visiting.erase name
        done := m'.done ++ [name]
        ordered := m'.ordered ++ [value] } := by
  have hname : name ∈ m'.visiting := hvisiting ▸ List.mem_cons_self
  have hback : m'.visiting.erase name = m.visiting := by
    rw [hvisiting, List.erase_cons_head]
  have hnot : name ∉ m.visiting := by
    have hpath := hm'.path
    rw [hvisiting] at hpath
    exact (List.nodup_cons.mp hpath).1
  exact
    { found := by
        rw [List.map_append, List.map_append, hm'.found, List.map_singleton, List.map_singleton,
          hvalue]
      nodup := by
        rw [List.nodup_append]
        refine ⟨hm'.nodup, List.nodup_singleton _, fun a ha b hb heq => ?_⟩
        rw [List.mem_singleton.mp hb] at heq
        exact hm'.not_done name hname (heq ▸ ha)
      before := by
        intro l₁ a l₂ heq b hab
        obtain ⟨rfl, rfl, -⟩ | ⟨l, -, hdone⟩ := Lists.concat_eq_append_cons_iff.mp heq
        · -- the name itself comes last
          obtain ⟨value', hvalue', hb⟩ := hab
          obtain rfl := Option.some.inj (hvalue.symm.trans hvalue')
          exact htargets b hb
        · exact hm'.before l₁ a l hdone b hab
      path := by
        rw [hback]
        exact hm.path
      known := by
        rw [hback]
        exact hm.known
      not_done := by
        intro a ha hdone
        rw [hback] at ha
        obtain hdone | hdone := List.mem_append.mp hdone
        · exact hm'.not_done a (hvisiting ▸ List.mem_cons_of_mem _ ha) hdone
        · exact hnot (List.mem_singleton.mp hdone ▸ ha) }

/-- A traversal ends with the name after what it depends on, or on what is wrong; the fuel is left
only if there are more names on the path than there are. -/
theorem outcome_visit (hnames : ∀ a, (lookup a).isSome → a ∈ names) :
    ∀ (fuel : ℕ) (m : Marks α β) (name : α), Fit lookup dependsOn names m →
      Visitable lookup dependsOn names fuel m.visiting name →
      Outcome lookup dependsOn names [name] m (visit lookup dependsOn fuel m name) := by
  intro fuel
  induction fuel with
  | zero =>
    intro m name hm hname
    have hle := (hm.path.subperm hm.known).length_le
    have hlt := hname.fuel
    omega
  | succ fuel ih =>
    intro m name hm hname
    unfold visit
    split_ifs with hdone hvisiting
    · refine ⟨hm, rfl, List.prefix_rfl, fun a ha => ?_⟩
      rwa [List.mem_singleton.mp ha]
    · exact hname.path name hvisiting
    · cases hvalue : lookup name with
      | none => exact ⟨hvalue, hname.named hvalue⟩
      | some value =>
        have hopen : Fit lookup dependsOn names { m with visiting := name :: m.visiting } :=
          { hm with
            path := List.nodup_cons.mpr ⟨hvisiting, hm.path⟩
            known := List.cons_subset.mpr ⟨hnames name (hvalue ▸ rfl), hm.known⟩
            not_done := by
              intro a ha
              obtain rfl | ha := List.mem_cons.mp ha
              · exact hdone
              · exact hm.not_done a ha }
        have hall := outcome_foldlM ih (dependsOn value) _ hopen
          fun target htarget => hname.step hvalue htarget
        simp only
        cases hresult : (dependsOn value).foldlM (visit lookup dependsOn fuel)
            { m with visiting := name :: m.visiting } with
        | error refusal =>
          rw [hresult] at hall
          cases refusal with
          | cycle a => exact hall
          | unknown a => exact hall
          | depth => exact hall
        | ok m' =>
          rw [hresult] at hall
          obtain ⟨hm', hback, hprefix, htargets⟩ := hall
          refine ⟨hm.close hvalue hm' hback htargets, ?_,
            hprefix.trans (List.prefix_append _ _), fun a ha => List.mem_append_right _ ha⟩
          show m'.visiting.erase name = m.visiting
          rw [hback, List.erase_cons_head]

theorem outcome_order (hnames : ∀ a, a ∈ names ↔ (lookup a).isSome) :
    Outcome lookup dependsOn names names {} (order lookup dependsOn names) := by
  refine outcome_foldlM (outcome_visit (fun a => (hnames a).mpr) (names.length + 1)) names {} ?_ ?_
  · exact
      { found := rfl
        nodup := List.nodup_nil
        before := fun l₁ a l₂ heq => by simp at heq
        path := List.nodup_nil
        known := List.nil_subset _
        not_done := fun a ha => (List.not_mem_nil ha).elim }
  · intro name hname
    refine ⟨fun a ha => (List.not_mem_nil ha).elim, fun hnone => ?_, Nat.lt_succ_self _⟩
    have hsome := (hnames name).mp hname
    rw [hnone] at hsome
    cases hsome

theorem sorted_of_order (hnames : ∀ a, a ∈ names ↔ (lookup a).isSome)
    (h : order lookup dependsOn names = .ok m) :
    Sorted lookup dependsOn m ∧ ∀ a, a ∈ m.done ↔ a ∈ names := by
  have houtcome : Outcome lookup dependsOn names names {} _ := outcome_order hnames
  rw [h] at houtcome
  obtain ⟨hfit, -, -, hall⟩ := houtcome
  exact ⟨hfit.toSorted, fun a => ⟨fun ha => (hnames a).mpr (hfit.isSome_lookup ha), hall a⟩⟩

/-- There is an order just if nothing is wrong with the graph. -/
theorem order_eq_ok_iff (hnames : ∀ a, a ∈ names ↔ (lookup a).isSome) :
    (∃ m, order lookup dependsOn names = .ok m) ↔ ¬Faulty lookup dependsOn := by
  constructor
  · rintro ⟨m, hm⟩
    obtain ⟨hsorted, hall⟩ := sorted_of_order hnames hm
    exact hsorted.not_faulty fun a ha => (hall a).mpr ((hnames a).mpr ha)
  · intro hfaultless
    have houtcome : Outcome lookup dependsOn names names {} _ := outcome_order hnames
    cases hresult : order lookup dependsOn names with
    | ok m => exact ⟨m, rfl⟩
    | error refusal =>
      rw [hresult] at houtcome
      cases refusal with
      | cycle a => exact absurd (.inr ⟨a, houtcome⟩) hfaultless
      | unknown b =>
        obtain ⟨hb, a, hab⟩ := houtcome
        exact absurd (.inl ⟨a, b, hab, hb⟩) hfaultless
      | depth => exact houtcome.elim

end ReactorRuntime.Graphs
