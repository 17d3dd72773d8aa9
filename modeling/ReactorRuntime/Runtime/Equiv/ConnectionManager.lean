import ReactorRuntime.Runtime.ConnectionManager

/-!
# What the registry counts

How `replace`, `add`, `remove` and `clear` change the number of registered connections and of those
that occupy the session, and that they keep the tables consistent (`ConnectionManager.Consistent`).
-/

namespace ReactorRuntime.Runtime

namespace ConnectionManager

/-- The three tables are about the same connections. -/
structure Consistent (m : ConnectionManager) : Prop where
  details : ∀ cid, cid ∈ m.details ↔ cid ∈ m.byId
  unoccupying : ∀ cid ∈ m.unoccupying, cid ∈ m.byId

variable {m : ConnectionManager} {conn : Connection} {cid : ConnId}

theorem consistent_clear : m.clear.Consistent where
  details _ := Iff.rfl
  unoccupying cid h := absurd h (Finset.notMem_empty cid)

theorem count_eq_zero_of_empty (h : m.byId = ∅) : m.count = 0 := by
  rw [count, h]
  rfl

theorem occupants_eq_zero_of_empty (h : m.byId = ∅) : m.occupants = 0 := by
  rw [occupants, h]
  rfl

/-! ### `replace` -/

theorem perm_keys_replace (h : conn.id ∈ m.byId) :
    (m.replace conn).byId.keys.Perm m.byId.keys := by
  rw [replace, AList.keys_insert]
  exact (List.perm_cons_erase h).symm

theorem mem_replace (h : conn.id ∈ m.byId) (cid : ConnId) :
    cid ∈ (m.replace conn).byId ↔ cid ∈ m.byId :=
  (perm_keys_replace h).mem_iff

theorem count_replace (h : conn.id ∈ m.byId) : (m.replace conn).count = m.count :=
  (perm_keys_replace h).length_eq

theorem occupants_replace (h : conn.id ∈ m.byId) : (m.replace conn).occupants = m.occupants :=
  (perm_keys_replace h).countP_eq _

theorem Consistent.replace (hm : m.Consistent) (h : conn.id ∈ m.byId) :
    (m.replace conn).Consistent where
  details cid := (hm.details cid).trans (mem_replace h cid).symm
  unoccupying cid hcid := (mem_replace h cid).mpr (hm.unoccupying cid hcid)

/-! ### `add` -/

variable {detail : ConnectionDetail} {occupies : Bool}

theorem keys_add (h : conn.id ∉ m.byId) :
    (m.add conn detail occupies).byId.keys = conn.id :: m.byId.keys := by
  rw [add, AList.keys_insert, List.erase_of_not_mem h]

theorem count_add (h : conn.id ∉ m.byId) :
    (m.add conn detail occupies).count = m.count + 1 := by
  rw [count, keys_add h, List.length_cons, count]

theorem occupants_add (hm : m.Consistent) (h : conn.id ∉ m.byId) :
    (m.add conn detail occupies).occupants = m.occupants + if occupies then 1 else 0 := by
  rw [occupants, keys_add h, List.countP_cons, occupants]
  cases occupies with
  | true =>
    have hfresh : conn.id ∉ m.unoccupying := fun hmem => h (hm.unoccupying _ hmem)
    simp only [add, if_true, hfresh, not_false_eq_true, decide_true]
  | false =>
    -- the keys that were there are not the new one, so they count as they did
    have hkeys : m.byId.keys.countP (· ∉ insert conn.id m.unoccupying) =
        m.byId.keys.countP (· ∉ m.unoccupying) := by
      apply List.countP_congr
      intro cid hcid
      have hne : cid ≠ conn.id := by
        rintro rfl
        exact h hcid
      simp only [Finset.mem_insert, hne, false_or]
    simp only [add, Bool.false_eq_true, if_false, hkeys, Finset.mem_insert_self, not_true_eq_false,
      decide_false]

theorem Consistent.add (hm : m.Consistent) : (m.add conn detail occupies).Consistent where
  details cid := by
    show cid ∈ m.details.insert conn.id detail ↔ cid ∈ m.byId.insert conn.id conn
    rw [AList.mem_insert, AList.mem_insert, hm.details]
  unoccupying cid hcid := by
    show cid ∈ m.byId.insert conn.id conn
    rw [AList.mem_insert]
    cases occupies with
    | true => exact .inr (hm.unoccupying cid hcid)
    | false =>
      rcases Finset.mem_insert.mp hcid with rfl | hcid
      · exact .inl rfl
      · exact .inr (hm.unoccupying cid hcid)

/-! ### `remove` -/

theorem keys_remove : (m.remove cid).byId.keys = m.byId.keys.erase cid := AList.keys_erase cid m.byId

theorem count_remove (h : cid ∈ m.byId) : (m.remove cid).count + 1 = m.count := by
  rw [count, keys_remove, List.length_erase_of_mem h, count]
  have : 0 < m.byId.keys.length := List.length_pos_of_mem h
  omega

/-- The connections that remain count as they did. -/
theorem occupants_remove (h : cid ∈ m.byId) :
    (m.remove cid).occupants + (if cid ∉ m.unoccupying then 1 else 0) = m.occupants := by
  have hkeys : (m.byId.keys.erase cid).countP (· ∉ m.unoccupying.erase cid) =
      (m.byId.keys.erase cid).countP (· ∉ m.unoccupying) := by
    apply List.countP_congr
    intro other hother
    have hne : other ≠ cid := by
      rintro rfl
      exact m.byId.keys_nodup.not_mem_erase hother
    simp only [Finset.mem_erase, hne, ne_eq, not_false_eq_true, true_and]
  have hperm : (m.byId.keys).countP (· ∉ m.unoccupying) =
      (cid :: m.byId.keys.erase cid).countP (· ∉ m.unoccupying) :=
    (List.perm_cons_erase h).countP_eq _
  rw [occupants, keys_remove, occupants, hperm, List.countP_cons, remove, hkeys]
  simp only [decide_eq_true_eq]

theorem Consistent.remove (hm : m.Consistent) : (m.remove cid).Consistent where
  details other := by
    show other ∈ m.details.erase cid ↔ other ∈ m.byId.erase cid
    rw [AList.mem_erase, AList.mem_erase, hm.details]
  unoccupying other hother := by
    obtain ⟨hne, hother⟩ := Finset.mem_erase.mp hother
    show other ∈ m.byId.erase cid
    rw [AList.mem_erase]
    exact ⟨hne, hm.unoccupying other hother⟩

end ConnectionManager

/-! ### The closes of a teardown -/

section Closes

variable {raises : Connection → Bool} {conns : List Connection}

theorem closeEach_eq_self_iff :
    (closeEach raises conns).1 = conns ↔ ∀ conn ∈ conns.dropLast, raises conn = false := by
  induction conns with
  | nil => simp [closeEach]
  | cons conn conns ih =>
    rw [closeEach]
    by_cases hraises : raises conn = true
    · rw [if_pos hraises]
      cases conns with
      | nil => simp
      | cons next conns =>
        constructor
        · intro h
          cases h
        · intro h
          have hfalse : raises conn = false := h conn List.mem_cons_self
          rw [hraises] at hfalse
          cases hfalse
    · rw [if_neg hraises]
      dsimp only
      rw [List.cons_inj_right, ih]
      cases conns with
      | nil => simp
      | cons next conns => simp [hraises]

theorem closeEach_prefix : (closeEach raises conns).1 <+: conns := by
  induction conns with
  | nil => exact List.prefix_refl []
  | cons conn conns ih =>
    rw [closeEach]
    split_ifs
    · exact ⟨conns, rfl⟩
    · exact (List.prefix_cons_inj conn).mpr ih

/-- A teardown closes every connection that was registered, each once, if none but the last raises;
whatever raises, the session leaves `CLOSING`. -/
theorem closes_every_wire_iff (raises : Connection → Bool) (conns : List Connection) (live : ℕ) :
    ((closeSession raises conns { state := .closing, live }).1.Perm conns ∧
      (closeSession raises conns { state := .closing, live }).2.state = .ready) ↔
      ∀ conn ∈ conns.dropLast, raises conn = false := by
  have hready : (closeSession raises conns { state := .closing, live }).2.state = .ready := rfl
  rw [← closeEach_eq_self_iff]
  constructor
  · intro h
    exact closeEach_prefix.eq_of_length h.1.length_eq
  · intro h
    exact ⟨List.Perm.of_eq h, hready⟩

/-- The second of two connections is not closed when the close of the first raises. -/
theorem not_closes_every_wire :
    ¬∀ (raises : Connection → Bool) (conns : List Connection), conns.Nodup →
      (closeSession raises conns { state := .closing }).1.Perm conns := by
  intro h
  have hperm := h (fun conn => conn.id = 1) [{ id := 1 }, { id := 2 }] (by decide)
  exact absurd hperm.length_eq (by decide)

end Closes

end ReactorRuntime.Runtime
