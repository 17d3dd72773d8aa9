import Mathlib.Data.List.Basic

/-!
# Lists in sections

A list comes apart into the entries before the first one that starts a section, and the sections,
each of which goes on to the next such entry.

* `append_flatten_sectionsBy`: the parts make up the list.
* `sectionsBy_append_flatten`: a list that is put together from sections comes apart into them.
-/

namespace ReactorRuntime.Lists

variable {α : Type*} {starts : α → Bool}

/-- The entries before the first that starts a section, and the sections. -/
def sectionsBy (starts : α → Bool) : List α → List α × List (List α)
  | [] => ([], [])
  | a :: l =>
    if starts a then ([], (a :: (sectionsBy starts l).1) :: (sectionsBy starts l).2)
    else (a :: (sectionsBy starts l).1, (sectionsBy starts l).2)

-- The equations of the recursive function, for the proofs about it.
attribute [local simp] sectionsBy

/-- The first entry of a section starts it, and no other entry does. -/
def StartsOnce (starts : α → Bool) (l : List α) : Prop :=
  ∃ first rest, l = first :: rest ∧ starts first = true ∧ ∀ a ∈ rest, starts a = false

theorem append_flatten_sectionsBy (l : List α) :
    (sectionsBy starts l).1 ++ (sectionsBy starts l).2.flatten = l := by
  induction l with
  | nil => rfl
  | cons a l ih =>
    rw [sectionsBy]
    split_ifs
    · rw [List.nil_append, List.flatten_cons, List.cons_append, ih]
    · rw [List.cons_append, ih]

theorem starts_of_mem_sectionsBy_fst (l : List α) :
    ∀ a ∈ (sectionsBy starts l).1, starts a = false := by
  induction l with
  | nil => exact fun a ha => (List.not_mem_nil ha).elim
  | cons b l ih =>
    intro a ha
    rw [sectionsBy] at ha
    split_ifs at ha with hb
    · cases ha
    · rcases List.mem_cons.mp ha with rfl | ha
      · exact Bool.not_eq_true _ ▸ hb
      · exact ih a ha

theorem startsOnce_of_mem_sectionsBy_snd (l : List α) :
    ∀ s ∈ (sectionsBy starts l).2, StartsOnce starts s := by
  induction l with
  | nil => exact fun s hs => (List.not_mem_nil hs).elim
  | cons b l ih =>
    intro s hs
    rw [sectionsBy] at hs
    split_ifs at hs with hb
    · rcases List.mem_cons.mp hs with rfl | hs
      · exact ⟨b, _, rfl, hb, starts_of_mem_sectionsBy_fst l⟩
      · exact ih s hs
    · exact ih s hs

theorem sectionsBy_append {head : List α} (h : ∀ a ∈ head, starts a = false) (l : List α) :
    sectionsBy starts (head ++ l) = (head ++ (sectionsBy starts l).1, (sectionsBy starts l).2) := by
  induction head with
  | nil => rfl
  | cons a head ih =>
    rw [List.cons_append, sectionsBy, if_neg (by rw [h a List.mem_cons_self]; decide),
      ih fun b hb => h b (List.mem_cons_of_mem _ hb)]
    rfl

theorem sectionsBy_flatten {sections : List (List α)} (h : ∀ s ∈ sections, StartsOnce starts s) :
    sectionsBy starts sections.flatten = ([], sections) := by
  induction sections with
  | nil => rfl
  | cons s sections ih =>
    obtain ⟨first, rest, rfl, hfirst, hrest⟩ := h s List.mem_cons_self
    rw [List.flatten_cons, List.cons_append, sectionsBy, if_pos hfirst, sectionsBy_append hrest,
      ih fun t ht => h t (List.mem_cons_of_mem _ ht), List.append_nil]

theorem sectionsBy_append_flatten {head : List α} {sections : List (List α)}
    (hhead : ∀ a ∈ head, starts a = false) (h : ∀ s ∈ sections, StartsOnce starts s) :
    sectionsBy starts (head ++ sections.flatten) = (head, sections) := by
  rw [sectionsBy_append hhead, sectionsBy_flatten h, List.append_nil]

end ReactorRuntime.Lists
