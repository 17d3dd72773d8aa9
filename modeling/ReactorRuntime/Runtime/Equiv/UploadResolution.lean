import Mathlib.Data.List.Nodup
import ReactorRuntime.Interface.Equiv.Contract
import ReactorRuntime.Runtime.UploadResolution

/-!
# Resolving uploads changes only what is declared

A value is resolved to itself with its references replaced (`resolved_resolveUploads`): a file
stands at each position where the type declares an upload and the value holds a reference, and
nothing else is changed.  Both forms fit the type, or neither (`check_resolveUploads`).
-/

namespace ReactorRuntime.Runtime

open ReactorRuntime.Python
open ReactorRuntime.Python.Value (entryAt)
open ReactorRuntime.Interface

variable {fetch : Fetch}

/-! ### Without the shortcuts -/

theorem mapM_some_iff {β γ : Type} (f : β → Option γ) (l : List β) (l' : List γ) :
    l.mapM f = some l' ↔ List.Forall₂ (fun b c => f b = some c) l l' := by
  induction l generalizing l' with
  | nil => cases l' <;> simp
  | cons b l ih =>
    rw [List.mapM_cons]
    cases hb : f b with
    | none => cases l' <;> simp [hb]
    | some c =>
      cases l' with
      | nil => cases l.mapM f <;> simp
      | cons c' l' =>
        rw [List.forall₂_cons, ← ih l', hb]
        cases hl : l.mapM f with
        | none => simp
        | some m => simp

theorem declaresUploadAt_cons (name : String) (spec : TypeSpec) (fields : List (String × TypeSpec))
    (key : PyStr) : declaresUploadAt ((name, spec) :: fields) key =
      if key = .text name then declaresUpload spec else declaresUploadAt fields key := by
  unfold declaresUploadAt
  rw [List.find?_cons]
  by_cases hkey : key = .text name
  · simp [hkey]
  · simp [hkey]

theorem declaresUploadAt_of_not_declares {fields : List (String × TypeSpec)}
    (h : declaresUploads fields = false) (key : PyStr) : declaresUploadAt fields key = false := by
  induction fields with
  | nil => rfl
  | cons field fields ih =>
    obtain ⟨name, spec⟩ := field
    rw [declaresUploads, Bool.or_eq_false_iff] at h
    rw [declaresUploadAt_cons]
    split_ifs
    · exact h.1
    · exact ih h.2

mutual

theorem resolveUploads_of_not_declares : ∀ (spec : TypeSpec) (v : Argument),
    declaresUpload spec = false → resolveUploads fetch spec v = some v
  | .any, _, _ | .primitive _, _, _ | .literal _, _, _ | .enum _ _, _, _ => by
    rw [resolveUploads]
  | .optional inner, v, h => by
    rw [declaresUpload] at h
    cases v with
    | none => rw [resolveUploads]
    | _ => exact resolveUploads_of_not_declares inner _ h
  | .list item, v, h => by
    rw [declaresUpload] at h
    cases v with
    | list items => simp only [resolveUploads, h, Bool.false_eq_true, if_false]
    | _ => rw [resolveUploads]; simp
  | .dict spec, v, h => by
    rw [declaresUpload] at h
    cases v with
    | dict entries => simp only [resolveUploads, h, Bool.false_eq_true, if_false]
    | _ => rw [resolveUploads]; simp
  | .dataclass fields required, v, h => by
    rw [declaresUpload] at h
    cases v with
    | dict entries =>
      have hany : (entries.any fun e => declaresUploadAt fields e.1) = false := by
        simp [declaresUploadAt_of_not_declares h]
      simp only [resolveUploads, hany, Bool.false_eq_true, if_false]
    | _ => rw [resolveUploads]; simp
  | .upload, v, h => by simp [declaresUpload] at h

end

theorem resolveEntry_of_not_declares : ∀ {fields : List (String × TypeSpec)} {key : PyStr}
    (v : Argument), declaresUploadAt fields key = false → resolveEntry fetch fields key v = some v
  | [], _, _, _ => by rw [resolveEntry]
  | (name, spec) :: fields, key, v, h => by
    rw [declaresUploadAt_cons] at h
    rw [resolveEntry]
    split_ifs at h ⊢
    · exact resolveUploads_of_not_declares spec v h
    · exact resolveEntry_of_not_declares v h

theorem resolveUploads_list (item : TypeSpec) (items : List Argument) :
    resolveUploads fetch (.list item) (.list items) =
      (items.mapM (resolveUploads fetch item)).map .list := by
  rw [resolveUploads]
  split_ifs with h
  · rfl
  · have hsame : items.mapM (resolveUploads fetch item) = some items := by
      rw [mapM_some_iff, List.forall₂_same]
      exact fun v _ => resolveUploads_of_not_declares item v (Bool.eq_false_of_not_eq_true h)
    rw [hsame]
    rfl

theorem mapM_entries_iff (resolve : PyStr → Argument → Option Argument)
    (entries entries' : List (PyStr × Argument)) :
    (entries.mapM fun e => (resolve e.1 e.2).map fun v => (e.1, v)) = some entries' ↔
      List.Forall₂ (fun e e' => e'.1 = e.1 ∧ resolve e.1 e.2 = some e'.2) entries entries' := by
  rw [mapM_some_iff]
  have hentry : ∀ e e' : PyStr × Argument,
      (resolve e.1 e.2).map (fun v => (e.1, v)) = some e' ↔
        e'.1 = e.1 ∧ resolve e.1 e.2 = some e'.2 := by
    rintro e ⟨key, v⟩
    cases resolve e.1 e.2 with
    | none => simp
    | some w => simp [Prod.ext_iff, eq_comm]
  simp only [hentry]

theorem resolveUploads_dict (spec : TypeSpec) (entries : List (PyStr × Argument)) :
    resolveUploads fetch (.dict spec) (.dict entries) =
      (entries.mapM fun e => (resolveUploads fetch spec e.2).map fun v => (e.1, v)).map .dict := by
  rw [resolveUploads]
  split_ifs with h
  · rfl
  · have hsame : (entries.mapM fun e => (resolveUploads fetch spec e.2).map fun v => (e.1, v)) =
        some entries := by
      rw [mapM_some_iff, List.forall₂_same]
      intro e _
      rw [resolveUploads_of_not_declares spec e.2 (Bool.eq_false_of_not_eq_true h)]
      rfl
    rw [hsame]
    rfl

theorem resolveUploads_dataclass (fields : List (String × TypeSpec)) (required : List String)
    (entries : List (PyStr × Argument)) :
    resolveUploads fetch (.dataclass fields required) (.dict entries) =
      (entries.mapM fun e => (resolveEntry fetch fields e.1 e.2).map fun v => (e.1, v)).map
        .dict := by
  rw [resolveUploads]
  split_ifs with h
  · rfl
  · have hsame : (entries.mapM fun e =>
        (resolveEntry fetch fields e.1 e.2).map fun v => (e.1, v)) = some entries := by
      rw [mapM_some_iff, List.forall₂_same]
      intro e he
      have hfalse : declaresUploadAt fields e.1 = false := by
        simp only [List.any_eq_true, not_exists, not_and, Bool.not_eq_true] at h
        exact h e he
      rw [resolveEntry_of_not_declares e.2 hfalse]
      rfl
    rw [hsame]
    rfl

/-! ### Positions -/

/-- A step into a container. -/
inductive Place where
  | item (index : ℕ)
  | entry (key : PyStr)

abbrev Position := List Place

/-- What a container holds at a place. -/
def childAt : Argument → Place → Option Argument
  | .list items, .item index => items[index]?
  | .dict entries, .entry key => entryAt entries key
  | _, _ => none

def valueAt : Argument → Position → Option Argument
  | v, [] => some v
  | v, place :: p => (childAt v place).bind fun child => valueAt child p

def shape : Argument → Argument
  | .list items => .list (items.map fun _ => .none)
  | .dict entries => .dict (entries.map fun e => (e.1, .none))
  | v => v

mutual

def referenceAt : TypeSpec → Argument → Position → Option PyStr
  | .upload, v, [] => uploadId? v
  | .optional inner, v, p => referenceAt inner v p
  | .list item, .list items, .item index :: p => items[index]?.bind fun v => referenceAt item v p
  | .dict spec, .dict entries, .entry key :: p =>
    (entryAt entries key).bind fun v => referenceAt spec v p
  | .dataclass fields _, .dict entries, .entry key :: p =>
    (entryAt entries key).bind fun v => referenceIn fields key v p
  | _, _, _ => none

/-- The id of the reference at a position of an entry of a dataclass. -/
def referenceIn : List (String × TypeSpec) → PyStr → Argument → Position → Option PyStr
  | [], _, _, _ => none
  | (name, spec) :: fields, key, v, p =>
    if key = .text name then referenceAt spec v p else referenceIn fields key v p

end

/-- Whether a value is another one with its references resolved: a file stands where a reference
stood, and everything else is as it was. -/
structure Resolved (fetch : Fetch) (reference : Position → Option PyStr) (v r : Argument) :
    Prop where
  replaced : ∀ p id, reference p = some id →
    ∃ file, fetch id = some file ∧ valueAt r p = some (.object file)
  kept : ∀ p, (∀ q, q <+: p → reference q = none) →
    (valueAt r p).map shape = (valueAt v p).map shape

namespace Resolved

theorem refl {reference : Position → Option PyStr} (h : ∀ p, reference p = none) (v : Argument) :
    Resolved fetch reference v v where
  replaced p id hid := by simp [h p] at hid
  kept _ _ := rfl

theorem of_children {reference : Position → Option PyStr} {v r : Argument}
    (hshape : shape r = shape v) (hnil : reference [] = none)
    (hchild : ∀ place,
      (childAt v place = none ∧ childAt r place = none ∧ ∀ p, reference (place :: p) = none) ∨
        ∃ a b, childAt v place = some a ∧ childAt r place = some b ∧
          Resolved fetch (fun p => reference (place :: p)) a b) :
    Resolved fetch reference v r := by
  constructor
  · intro p id hid
    rcases p with _ | ⟨place, p⟩
    · simp [hnil] at hid
    · rcases hchild place with ⟨-, -, hnone⟩ | ⟨a, b, -, hb, hab⟩
      · simp [hnone p] at hid
      · obtain ⟨file, hfile, hat⟩ := hab.replaced p id hid
        exact ⟨file, hfile, by rw [valueAt, hb]; exact hat⟩
  · intro p hp
    rcases p with _ | ⟨place, p⟩
    · simp [valueAt, hshape]
    · rw [valueAt, valueAt]
      rcases hchild place with ⟨hv, hr, -⟩ | ⟨a, b, hv, hr, hab⟩
      · rw [hv, hr]
      · rw [hv, hr]
        exact hab.kept p fun q hq => hp (place :: q) (List.prefix_cons_inj place |>.mpr hq)

theorem list (item : Argument → Position → Option PyStr) {reference : Position → Option PyStr}
    {items items' : List Argument}
    (hall : List.Forall₂ (fun v r => Resolved fetch (item v) v r) items items')
    (hnil : reference [] = none) (hentry : ∀ key p, reference (.entry key :: p) = none)
    (hitem : ∀ index p, reference (.item index :: p) = items[index]?.bind fun v => item v p) :
    Resolved fetch reference (.list items) (.list items') := by
  have hlength := hall.length_eq
  refine of_children ?_ hnil fun place => ?_
  · simp [shape, hlength]
  · rcases place with ⟨index⟩ | ⟨key⟩
    · by_cases hindex : index < items.length
      · have hindex' : index < items'.length := hlength ▸ hindex
        refine .inr ⟨items[index], items'[index], List.getElem?_eq_getElem hindex,
          List.getElem?_eq_getElem hindex', ?_⟩
        have hfun : (fun p => reference (.item index :: p)) = item items[index] := by
          funext p
          rw [hitem, List.getElem?_eq_getElem hindex]
          rfl
        rw [hfun]
        exact hall.get hindex hindex'
      · have hnone : items[index]? = none := List.getElem?_eq_none (by omega)
        refine .inl ⟨hnone, List.getElem?_eq_none (by omega), fun p => ?_⟩
        rw [hitem, hnone]
        rfl
    · exact .inl ⟨rfl, rfl, hentry key⟩

/-- Where the entries of two mappings have the same keys, so have those that a key finds. -/
theorem entryAt_forall₂ {R : PyStr → Argument → Argument → Prop}
    {entries entries' : List (PyStr × Argument)}
    (hall : List.Forall₂ (fun e e' => e'.1 = e.1 ∧ R e.1 e.2 e'.2) entries entries') (key : PyStr) :
    entryAt entries key = none ∧ entryAt entries' key = none ∨
      ∃ v r, entryAt entries key = some v ∧ entryAt entries' key = some r ∧ R key v r := by
  induction hall with
  | nil => exact .inl ⟨rfl, rfl⟩
  | @cons e e' entries entries' h _ ih =>
    obtain ⟨k, v⟩ := e
    obtain ⟨k', r⟩ := e'
    obtain ⟨rfl, hR⟩ := h
    rw [Value.entryAt_cons, Value.entryAt_cons]
    by_cases hkey : k' = key
    · subst hkey
      right
      simpa using hR
    · simpa [hkey] using ih

theorem keys_forall₂ {R : PyStr × Argument → PyStr × Argument → Prop}
    {entries entries' : List (PyStr × Argument)}
    (hall : List.Forall₂ (fun e e' => e'.1 = e.1 ∧ R e e') entries entries') :
    entries'.map Prod.fst = entries.map Prod.fst := by
  induction hall with
  | nil => rfl
  | cons h _ ih => rw [List.map_cons, List.map_cons, h.1, ih]

theorem dict (entry : PyStr → Argument → Position → Option PyStr)
    {reference : Position → Option PyStr} {entries entries' : List (PyStr × Argument)}
    (hall : List.Forall₂ (fun e e' => e'.1 = e.1 ∧ Resolved fetch (entry e.1 e.2) e.2 e'.2)
      entries entries')
    (hnil : reference [] = none) (hitem : ∀ index p, reference (.item index :: p) = none)
    (hentry : ∀ key p, reference (.entry key :: p) =
      (entryAt entries key).bind fun v => entry key v p) :
    Resolved fetch reference (.dict entries) (.dict entries') := by
  refine of_children ?_ hnil fun place => ?_
  · have hkeys := congrArg (List.map fun key => (key, (Value.none : Argument))) (keys_forall₂ hall)
    rw [List.map_map, List.map_map] at hkeys
    exact congrArg Value.dict hkeys
  · rcases place with ⟨index⟩ | ⟨key⟩
    · exact .inl ⟨rfl, rfl, hitem index⟩
    · rcases entryAt_forall₂ (R := fun key v r => Resolved fetch (entry key v) v r) hall key with
        ⟨hv, hr⟩ | ⟨v, r, hv, hr, hvr⟩
      · refine .inl ⟨hv, hr, fun p => ?_⟩
        rw [hentry, hv]
        rfl
      · refine .inr ⟨v, r, hv, hr, ?_⟩
        have hfun : (fun p => reference (.entry key :: p)) = entry key v := by
          funext p
          rw [hentry, hv]
          rfl
        rw [hfun]
        exact hvr

end Resolved

theorem referenceAt_none : ∀ (spec : TypeSpec) (p : Position), referenceAt spec .none p = none
  | .optional inner, p => by
    rw [referenceAt]
    exact referenceAt_none inner p
  | .upload, [] => rfl
  | .upload, _ :: _ | .any, _ | .primitive _, _ | .literal _, _ | .enum _ _, _ | .list _, _
  | .dict _, _ | .dataclass _ _, _ => by simp [referenceAt]

mutual

/-- **What is resolved**: a value is resolved to itself with its references replaced. -/
theorem resolved_resolveUploads : ∀ (spec : TypeSpec) {v r : Argument},
    resolveUploads fetch spec v = some r → Resolved fetch (referenceAt spec v) v r
  | .any, v, _, h | .primitive _, v, _, h | .literal _, v, _, h | .enum _ _, v, _, h => by
    rw [resolveUploads] at h
    cases h
    exact .refl (fun p => by simp [referenceAt]) v
  | .optional inner, v, r, h => by
    have href : referenceAt (.optional inner) v = referenceAt inner v := by
      funext p
      rw [referenceAt]
    rw [href]
    cases v with
    | none =>
      rw [resolveUploads] at h
      cases h
      exact .refl (referenceAt_none inner) _
    | _ => exact resolved_resolveUploads inner h
  | .list item, v, r, h => by
    cases v with
    | list items =>
      rw [resolveUploads_list] at h
      obtain ⟨items', hitems, rfl⟩ := Option.map_eq_some_iff.mp h
      rw [mapM_some_iff] at hitems
      refine .list (referenceAt item)
        (hitems.imp fun v r hvr => resolved_resolveUploads item hvr) ?_ ?_ ?_
      · simp [referenceAt]
      · simp [referenceAt]
      · simp [referenceAt]
    | _ =>
      simp only [resolveUploads] at h
      cases h
      exact .refl (fun p => by simp [referenceAt]) _
  | .dict spec, v, r, h => by
    cases v with
    | dict entries =>
      rw [resolveUploads_dict] at h
      obtain ⟨entries', hentries, rfl⟩ := Option.map_eq_some_iff.mp h
      rw [mapM_entries_iff fun _ v => resolveUploads fetch spec v] at hentries
      refine .dict (fun _ => referenceAt spec)
        (hentries.imp fun e e' he => ⟨he.1, resolved_resolveUploads spec he.2⟩) ?_ ?_ ?_
      · simp [referenceAt]
      · simp [referenceAt]
      · simp [referenceAt]
    | _ =>
      simp only [resolveUploads] at h
      cases h
      exact .refl (fun p => by simp [referenceAt]) _
  | .dataclass fields required, v, r, h => by
    cases v with
    | dict entries =>
      rw [resolveUploads_dataclass] at h
      obtain ⟨entries', hentries, rfl⟩ := Option.map_eq_some_iff.mp h
      rw [mapM_entries_iff (resolveEntry fetch fields)] at hentries
      refine .dict (referenceIn fields)
        (hentries.imp fun e e' he => ⟨he.1, resolved_resolveEntry fields he.2⟩) ?_ ?_ ?_
      · simp [referenceAt]
      · simp [referenceAt]
      · simp [referenceAt]
    | _ =>
      simp only [resolveUploads] at h
      cases h
      exact .refl (fun p => by simp [referenceAt]) _
  | .upload, v, r, h => by
    rw [resolveUploads] at h
    cases hid : uploadId? v with
    | none =>
      rw [hid] at h
      cases h
      refine .refl (fun p => ?_) v
      cases p with
      | nil => rw [referenceAt, hid]
      | cons place p => simp [referenceAt]
    | some id =>
      rw [hid] at h
      obtain ⟨file, hfile, rfl⟩ := Option.map_eq_some_iff.mp h
      have hnil : referenceAt .upload v [] = some id := by rw [referenceAt, hid]
      constructor
      · intro p id' hid'
        cases p with
        | nil =>
          rw [hnil] at hid'
          cases hid'
          exact ⟨file, hfile, rfl⟩
        | cons place p => simp [referenceAt] at hid'
      · intro p hp
        rw [hp [] p.nil_prefix] at hnil
        cases hnil

theorem resolved_resolveEntry : ∀ (fields : List (String × TypeSpec)) {key : PyStr}
    {v r : Argument}, resolveEntry fetch fields key v = some r →
      Resolved fetch (referenceIn fields key v) v r
  | [], _, v, _, h => by
    rw [resolveEntry] at h
    cases h
    exact .refl (fun p => by rw [referenceIn]) v
  | (name, spec) :: fields, key, v, r, h => by
    rw [resolveEntry] at h
    by_cases hkey : key = .text name
    · rw [if_pos hkey] at h
      have href : referenceIn ((name, spec) :: fields) key v = referenceAt spec v := by
        funext p
        rw [referenceIn, if_pos hkey]
      rw [href]
      exact resolved_resolveUploads spec h
    · rw [if_neg hkey] at h
      have href : referenceIn ((name, spec) :: fields) key v = referenceIn fields key v := by
        funext p
        rw [referenceIn, if_neg hkey]
      rw [href]
      exact resolved_resolveEntry fields h

end

/-! ### Types -/

namespace Resolved

variable {reference : Position → Option PyStr} {v r : Argument}

theorem shape_eq (h : Resolved fetch reference v r) (hnil : reference [] = none) :
    shape r = shape v := by
  have hkept := h.kept [] fun q hq => by rw [List.prefix_nil.mp hq, hnil]
  simpa [valueAt] using hkept

theorem eq_object (h : Resolved fetch reference v r) {id : PyStr} (hnil : reference [] = some id) :
    ∃ file, fetch id = some file ∧ r = .object file := by
  obtain ⟨file, hfile, hat⟩ := h.replaced [] id hnil
  exact ⟨file, hfile, by simpa [valueAt] using hat⟩

theorem ne_none (h : Resolved fetch reference v r) (hv : v ≠ .none) : r ≠ .none := by
  rintro rfl
  cases hnil : reference [] with
  | none =>
    have hshape := h.shape_eq hnil
    cases v <;> simp [shape] at hshape
    exact hv rfl
  | some id =>
    obtain ⟨file, -, hobject⟩ := h.eq_object hnil
    cases hobject

end Resolved

theorem forall_mem_forall₂ {β γ : Type} {R : β → γ → Prop} {P : β → Prop} {Q : γ → Prop}
    {l : List β} {l' : List γ} (hall : List.Forall₂ R l l') (h : ∀ b c, R b c → (Q c ↔ P b)) :
    (∀ c ∈ l', Q c) ↔ ∀ b ∈ l, P b := by
  induction hall with
  | nil => simp
  | cons hbc _ ih => rw [List.forall_mem_cons, List.forall_mem_cons, h _ _ hbc, ih]

mutual

/-- A value fits its type in both forms, or in neither. -/
theorem check_resolveUploads : ∀ (spec : TypeSpec) {v r : Argument},
    resolveUploads fetch spec v = some r → (spec.check r = none ↔ spec.check v = none)
  | .any, v, _, h | .primitive _, v, _, h | .literal _, v, _, h | .enum _ _, v, _, h => by
    rw [resolveUploads] at h
    cases h
    rfl
  | .optional inner, v, r, h => by
    have hr := (resolved_resolveUploads (.optional inner) h).ne_none
    cases v with
    | none =>
      rw [resolveUploads] at h
      cases h
      rfl
    | _ =>
      have hne := hr (by simp)
      rw [check_optional inner hne, check_optional inner (by simp)]
      exact check_resolveUploads inner h
  | .list item, v, r, h => by
    cases v with
    | list items =>
      rw [resolveUploads_list] at h
      obtain ⟨items', hitems, rfl⟩ := Option.map_eq_some_iff.mp h
      rw [mapM_some_iff] at hitems
      rw [check_list_eq_none, check_list_eq_none]
      exact forall_mem_forall₂ hitems fun v r hvr => check_resolveUploads item hvr
    | _ =>
      simp only [resolveUploads] at h
      cases h
      rfl
  | .dict spec, v, r, h => by
    cases v with
    | dict entries =>
      rw [resolveUploads_dict] at h
      obtain ⟨entries', hentries, rfl⟩ := Option.map_eq_some_iff.mp h
      rw [mapM_entries_iff fun _ v => resolveUploads fetch spec v] at hentries
      rw [check_dict_eq_none, check_dict_eq_none]
      exact forall_mem_forall₂ hentries fun e e' he => check_resolveUploads spec he.2
    | _ =>
      simp only [resolveUploads] at h
      cases h
      rfl
  | .dataclass fields required, v, r, h => by
    cases v with
    | dict entries =>
      rw [resolveUploads_dataclass] at h
      obtain ⟨entries', hentries, rfl⟩ := Option.map_eq_some_iff.mp h
      rw [mapM_entries_iff (resolveEntry fetch fields)] at hentries
      rw [check_dataclass_eq_none, check_dataclass_eq_none]
      refine and_congr (forall₂_congr fun name _ => ?_)
        (forall_mem_forall₂ hentries fun e e' he => ?_)
      · rcases Resolved.entryAt_forall₂
          (R := fun key v r => resolveEntry fetch fields key v = some r) hentries (.text name) with
          ⟨hv, hr⟩ | ⟨v, r, hv, hr, -⟩
        · have hlookup : Value.lookup entries name = none := hv
          have hlookup' : Value.lookup entries' name = none := hr
          rw [hlookup, hlookup']
        · have hlookup : Value.lookup entries name = some v := hv
          have hlookup' : Value.lookup entries' name = some r := hr
          rw [hlookup, hlookup']
          rfl
      · rw [he.1]
        exact checkField_resolveEntry fields he.2
    | _ =>
      simp only [resolveUploads] at h
      cases h
      rfl
  | .upload, v, r, h => by
    rw [resolveUploads] at h
    cases hid : uploadId? v with
    | none =>
      rw [hid] at h
      cases h
      rfl
    | some id =>
      rw [hid] at h
      obtain ⟨file, hfile, rfl⟩ := Option.map_eq_some_iff.mp h
      cases v with
      | dict entries => simp [TypeSpec.check, hid]
      | _ => cases hid

theorem checkField_resolveEntry : ∀ (fields : List (String × TypeSpec)) {key : PyStr}
    {v r : Argument}, resolveEntry fetch fields key v = some r →
      (TypeSpec.checkField fields key r = none ↔ TypeSpec.checkField fields key v = none)
  | [], _, v, _, h => by
    rw [resolveEntry] at h
    cases h
    rfl
  | (name, spec) :: fields, key, v, r, h => by
    rw [resolveEntry] at h
    rw [TypeSpec.checkField, TypeSpec.checkField]
    split_ifs at h ⊢
    · exact check_resolveUploads spec h
    · exact checkField_resolveEntry fields h

end

end ReactorRuntime.Runtime
