import ReactorRuntime.Runtime.UploadStore

/-!
# Uploads resolve within their session

`Store.Sound` is kept by every step: the slots that are reserved are of the present session, the
event of an id is set once its slot is complete, and a fetch that waits has the event of its id, or
is of an earlier session and has been woken.  So a fetch that returns gives a slot of its id that
was written in the session in which the fetch *resumed* (`Fetch.Sound.returned`).

That is the session in which it began, unless its id was reserved and written again before it
resumed: then it returns the bytes of the later session, where `clear` says that it finds the slot
gone (`not_uploads_resolve`).  Where that does not happen, uploads resolve within their session
(`uploads_resolve`).
-/

namespace ReactorRuntime.Runtime.UploadStore

open Interface Lists

variable {s s' : Store} {uploadId id' : UploadId} {slot : Slot} {f : Fetch} {i event : ℕ}

/-! ### What is looked up -/

theorem Store.slot?_eq_some :
    s.slot? uploadId = some (i, slot) ↔
      s.reserved.lookup uploadId = some i ∧ s.slots[i]? = some slot := by
  unfold Store.slot?
  simp only [Option.bind_eq_bind, Option.bind_eq_some_iff, Option.some.injEq, Prod.mk.injEq]
  constructor
  · rintro ⟨j, hj, slot', hslot, rfl, rfl⟩
    exact ⟨hj, hslot⟩
  · rintro ⟨hi, hslot⟩
    exact ⟨i, hi, slot, hslot, rfl, rfl⟩

theorem Store.file?_eq_some {file : UploadedFile} :
    s.file? uploadId = some file ↔
      ∃ i slot, s.slot? uploadId = some (i, slot) ∧ slot.file? = some file := by
  unfold Store.file?
  rw [Option.bind_eq_some_iff]
  constructor
  · rintro ⟨⟨i, slot⟩, hslot, hfile⟩
    exact ⟨i, slot, hslot, hfile⟩
  · rintro ⟨i, slot, hslot, hfile⟩
    exact ⟨(i, slot), hslot, hfile⟩

theorem Slot.isSome_file? : slot.file?.isSome = slot.data.isSome := Option.isSome_map

theorem Store.isSome_file? :
    (s.file? uploadId).isSome = true ↔
      ∃ i slot, s.slot? uploadId = some (i, slot) ∧ slot.data.isSome = true := by
  rw [Option.isSome_iff_exists]
  constructor
  · rintro ⟨file, hfile⟩
    obtain ⟨i, slot, hslot, hfile⟩ := Store.file?_eq_some.mp hfile
    refine ⟨i, slot, hslot, ?_⟩
    rw [← Slot.isSome_file?, hfile, Option.isSome_some]
  · rintro ⟨i, slot, hslot, hdata⟩
    rw [← Slot.isSome_file?] at hdata
    obtain ⟨file, hfile⟩ := Option.isSome_iff_exists.mp hdata
    exact ⟨file, Store.file?_eq_some.mpr ⟨i, slot, hslot, hfile⟩⟩

theorem Store.found_cases (s : Store) (uploadId : UploadId) :
    (∃ file, s.file? uploadId = some file ∧ s.found uploadId = .ok file) ∨
      s.file? uploadId = none ∧ s.found uploadId = .error (.unknownUpload uploadId) := by
  unfold Store.found
  cases s.file? uploadId with
  | none => exact .inr ⟨rfl, rfl⟩
  | some file => exact .inl ⟨file, rfl, rfl⟩

/-! ### Events -/

/-- Each id has an event of its own, which is set where `complete` holds of the id. -/
structure Store.Waiters (s : Store) (complete : UploadId → Prop) : Prop where
  filled_lt : ∀ entry ∈ s.filled, entry.2 < s.events
  filled_injective : ∀ id id' e,
    s.filled.lookup id = some e → s.filled.lookup id' = some e → id = id'
  signalled_lt : ∀ e ∈ s.signalled, e < s.events
  signalled_iff : ∀ id e, s.filled.lookup id = some e → (e ∈ s.signalled ↔ complete id)

theorem Store.waiter_cases (s : Store) (uploadId : UploadId) :
    (∃ e, s.filled.lookup uploadId = some e ∧ s.waiter uploadId = (e, s)) ∨
      s.filled.lookup uploadId = none ∧
        s.waiter uploadId =
          (s.events,
            { s with filled := Dict.set s.filled uploadId s.events, events := s.events + 1 }) := by
  unfold Store.waiter
  cases s.filled.lookup uploadId with
  | none => exact .inr ⟨rfl, rfl⟩
  | some e => exact .inl ⟨e, rfl, rfl⟩

theorem Store.lookup_waiter (s : Store) (uploadId : UploadId) :
    (s.waiter uploadId).2.filled.lookup uploadId = some (s.waiter uploadId).1 := by
  obtain ⟨e, he, heq⟩ | ⟨-, heq⟩ := s.waiter_cases uploadId
  · rw [heq]
    exact he
  · rw [heq]
    show (Dict.set s.filled uploadId s.events).lookup uploadId = some s.events
    rw [Dict.lookup_set, if_pos rfl]

theorem Store.Waiters.waiter {complete : UploadId → Prop} (h : s.Waiters complete)
    (hnot : ¬ complete uploadId) : (s.waiter uploadId).2.Waiters complete := by
  obtain ⟨e, -, heq⟩ | ⟨-, heq⟩ := s.waiter_cases uploadId
  · rw [heq]
    exact h
  rw [heq]
  have hlookup (id : UploadId) (e : ℕ)
      (he : (Dict.set s.filled uploadId s.events).lookup id = some e) :
      id = uploadId ∧ e = s.events ∨ e < s.events ∧ s.filled.lookup id = some e := by
    rw [Dict.lookup_set] at he
    split_ifs at he with hid
    · exact .inl ⟨hid, (Option.some.inj he).symm⟩
    · exact .inr ⟨h.filled_lt _ (Dict.mem_of_lookup he), he⟩
  constructor
  · intro entry hentry
    show entry.2 < s.events + 1
    rcases Dict.mem_of_mem_set hentry with hold | rfl
    · exact Nat.lt_succ_of_lt (h.filled_lt entry hold)
    · exact Nat.lt_succ_self s.events
  · intro id id' e he he'
    rcases hlookup id e he with ⟨rfl, hnew⟩ | ⟨hlt, hold⟩
    · rcases hlookup id' e he' with ⟨rfl, -⟩ | ⟨hlt, -⟩
      · rfl
      · omega
    · rcases hlookup id' e he' with ⟨rfl, hnew⟩ | ⟨-, hold'⟩
      · omega
      · exact h.filled_injective id id' e hold hold'
  · intro e he
    exact Nat.lt_succ_of_lt (h.signalled_lt e he)
  · intro id e he
    rcases hlookup id e he with ⟨rfl, rfl⟩ | ⟨-, hold⟩
    · -- The new event is not set.
      refine iff_of_false (fun hmem => ?_) hnot
      exact absurd (h.signalled_lt _ hmem) (lt_irrefl _)
    · exact h.signalled_iff id e hold

theorem Store.Waiters.signal {complete : UploadId → Prop} (h : s.Waiters complete)
    (hevent : s.filled.lookup uploadId = some event) :
    (s.signal event).Waiters fun id => complete id ∨ id = uploadId where
  filled_lt := h.filled_lt
  filled_injective := h.filled_injective
  signalled_lt e he := by
    rcases List.mem_append.mp he with he | he
    · exact h.signalled_lt e he
    · rw [List.mem_singleton.mp he]
      exact h.filled_lt _ (Dict.mem_of_lookup hevent)
  signalled_iff id e he := by
    show e ∈ s.signalled ++ [event] ↔ complete id ∨ id = uploadId
    rw [List.mem_append, List.mem_singleton, h.signalled_iff id e he]
    refine or_congr_right ⟨?_, ?_⟩
    · rintro rfl
      exact h.filled_injective id uploadId e he hevent
    · rintro rfl
      exact Option.some.inj (he.symm.trans hevent)

/-! ### Slots and writes -/

/-- Reserved slots are of the present session, and the slots that are complete are those that were
written, each once and with as many bytes as it was declared with. -/
structure Store.Slots (s : Store) : Prop where
  reserved : ∀ id i, s.reserved.lookup id = some i →
    ∃ slot, s.slots[i]? = some slot ∧ slot.uploadId = id ∧ slot.session = s.session
  nodup_writes : (s.writes.map Write.slot).Nodup
  written : ∀ w ∈ s.writes, ∃ slot, s.slots[w.slot]? = some slot ∧ slot.data = some w.data ∧
    w.data.length = slot.size ∧ slot.session = w.session
  complete : ∀ i slot, s.slots[i]? = some slot → slot.data.isSome = true →
    ∃ w ∈ s.writes, w.slot = i

theorem Store.Slots.slot? (h : s.Slots) (hslot : s.slot? uploadId = some (i, slot)) :
    slot.uploadId = uploadId ∧ slot.session = s.session := by
  obtain ⟨hlookup, hget⟩ := Store.slot?_eq_some.mp hslot
  obtain ⟨slot', hget', hid, hsession⟩ := h.reserved uploadId i hlookup
  obtain rfl := Option.some.inj (hget'.symm.trans hget)
  exact ⟨hid, hsession⟩

def Store.reserve (s : Store) (slot : Slot) : Store :=
  { s with
    reserved := Dict.set s.reserved slot.uploadId s.slots.length, slots := s.slots ++ [slot] }

theorem Store.createSlot_eq_ok {minted name mimeType : String} {size : ℤ}
    {chosen : Option UploadId} {created : UploadId × Store}
    (h : s.createSlot minted name mimeType size chosen = .ok created)
    (hminted : ¬ (chosen = none ∧ (s.reserved.lookup minted).isSome = true)) :
    s.reserved.lookup created.1 = none ∧
      created.2 = s.reserve
        { uploadId := created.1, name, mimeType, size, session := s.session } := by
  unfold Store.createSlot at h
  cases chosen with
  | none =>
    obtain rfl := Except.ok.inj h
    refine ⟨?_, rfl⟩
    rw [← Option.not_isSome_iff_eq_none]
    exact fun hsome => hminted ⟨rfl, hsome⟩
  | some id =>
    dsimp only at h
    split_ifs at h with htaken
    obtain rfl := Except.ok.inj h
    exact ⟨Option.not_isSome_iff_eq_none.mp htaken, rfl⟩

theorem Store.put_eq_ok {data : List UInt8} (h : s.put uploadId data = .ok s') :
    ∃ i slot, s.slot? uploadId = some (i, slot) ∧ slot.data = none ∧
      (data.length : ℤ) = slot.size ∧ s' = (s.fill i slot data).wake uploadId := by
  unfold Store.put Store.writable at h
  cases hslot : s.slot? uploadId with
  | none =>
    rw [hslot] at h
    cases h
  | some found =>
    obtain ⟨i, slot⟩ := found
    rw [hslot] at h
    dsimp only at h
    split_ifs at h with hdata
    · cases h
    · simp only [Except.bind] at h
      split_ifs at h with hsize
      obtain rfl := Except.ok.inj h
      exact ⟨i, slot, rfl, Option.not_isSome_iff_eq_none.mp hdata, hsize, rfl⟩

theorem Store.Slots.congr (h : s.Slots) (hreserved : s'.reserved = s.reserved)
    (hslots : s'.slots = s.slots) (hwrites : s'.writes = s.writes)
    (hsession : s'.session = s.session) : s'.Slots where
  reserved := by
    rw [hreserved, hslots, hsession]
    exact h.reserved
  nodup_writes := by
    rw [hwrites]
    exact h.nodup_writes
  written := by
    rw [hwrites, hslots]
    exact h.written
  complete := by
    rw [hwrites, hslots]
    exact h.complete

theorem Store.Slots.clear (h : s.Slots) : s.clear.Slots where
  reserved _ _ hi := by cases hi
  nodup_writes := h.nodup_writes
  written := h.written
  complete := h.complete

theorem Store.Slots.reserve (h : s.Slots) (hsession : slot.session = s.session)
    (hdata : slot.data = none) : (s.reserve slot).Slots where
  reserved id i hi := by
    change (Dict.set s.reserved slot.uploadId s.slots.length).lookup id = some i at hi
    rw [Dict.lookup_set] at hi
    split_ifs at hi with hid
    · cases hi
      exact ⟨slot, List.getElem?_concat_length, hid.symm, hsession⟩
    · obtain ⟨old, hget, hold⟩ := h.reserved id i hi
      refine ⟨old, ?_, hold⟩
      exact List.getElem?_append_left (List.getElem?_eq_some_iff.mp hget).1 ▸ hget
  nodup_writes := h.nodup_writes
  written w hw := by
    obtain ⟨old, hget, hold⟩ := h.written w hw
    refine ⟨old, ?_, hold⟩
    exact List.getElem?_append_left (List.getElem?_eq_some_iff.mp hget).1 ▸ hget
  complete i old hget hsome := by
    change (s.slots ++ [slot])[i]? = some old at hget
    rw [List.getElem?_append] at hget
    split_ifs at hget with hlt
    · exact h.complete i old hget hsome
    · -- The new slot holds nothing yet.
      obtain rfl := List.mem_singleton.mp (List.mem_of_getElem? hget)
      rw [hdata] at hsome
      cases hsome

theorem Store.Slots.fill (h : s.Slots) {data : List UInt8}
    (hslot : s.slot? uploadId = some (i, slot)) (hdata : slot.data = none)
    (hsize : (data.length : ℤ) = slot.size) : (s.fill i slot data).Slots := by
  obtain ⟨hlookup, hget⟩ := Store.slot?_eq_some.mp hslot
  obtain ⟨hid, hsession⟩ := h.slot? hslot
  have hlt : i < s.slots.length := (List.getElem?_eq_some_iff.mp hget).1
  have hself : (s.fill i slot data).slots[i]? = some { slot with data := some data } :=
    List.getElem?_set_self hlt
  have hother (j : ℕ) (hj : j ≠ i) : (s.fill i slot data).slots[j]? = s.slots[j]? :=
    List.getElem?_set_ne hj.symm
  -- The slot was not complete, so it was not written before.
  have hfresh (w : Write) (hw : w ∈ s.writes) : w.slot ≠ i := by
    intro heq
    obtain ⟨old, hold, hsome, -⟩ := h.written w hw
    rw [heq, hget] at hold
    cases hold
    rw [hdata] at hsome
    cases hsome
  constructor
  · intro id j hj
    obtain ⟨old, hold, hid', hsession'⟩ := h.reserved id j hj
    by_cases heq : j = i
    · subst heq
      obtain rfl := Option.some.inj (hget.symm.trans hold)
      exact ⟨_, hself, hid', hsession'⟩
    · exact ⟨old, (hother j heq).trans hold, hid', hsession'⟩
  · show ((s.writes ++ [_]).map Write.slot).Nodup
    rw [List.map_append, List.nodup_append]
    refine ⟨h.nodup_writes, List.nodup_singleton _, fun a ha b hb => ?_⟩
    obtain ⟨w, hw, rfl⟩ := List.mem_map.mp ha
    rw [List.mem_singleton.mp hb]
    exact hfresh w hw
  · intro w hw
    rcases List.mem_append.mp hw with hw | hw
    · obtain ⟨old, hold, hwritten⟩ := h.written w hw
      exact ⟨old, (hother w.slot (hfresh w hw)).trans hold, hwritten⟩
    · obtain rfl := List.mem_singleton.mp hw
      exact ⟨_, hself, rfl, hsize, hsession⟩
  · intro j old hold hsome
    by_cases heq : j = i
    · exact ⟨_, List.mem_append_right _ (List.mem_singleton_self _), heq.symm⟩
    · rw [hother j heq] at hold
      obtain ⟨w, hw, hwj⟩ := h.complete j old hold hsome
      exact ⟨w, List.mem_append_left _ hw, hwj⟩

/-! ### Fetches -/

/-- A store that has gone on within a session: what is complete stays as it is. -/
structure Store.Extends (s s' : Store) : Prop where
  session : s'.session = s.session
  events : s.events ≤ s'.events
  signalled : ∀ e ∈ s.signalled, e ∈ s'.signalled
  filled : ∀ id e, s.filled.lookup id = some e → s'.filled.lookup id = some e
  reserved : ∀ id i, s.reserved.lookup id = some i → s'.reserved.lookup id = some i
  slots : ∀ (i : ℕ) (slot : Slot),
    s.slots[i]? = some slot → slot.data.isSome = true → s'.slots[i]? = some slot

theorem Store.Extends.trans {s'' : Store} (h : s.Extends s') (h' : s'.Extends s'') :
    s.Extends s'' where
  session := h'.session.trans h.session
  events := Nat.le_trans h.events h'.events
  signalled e he := h'.signalled e (h.signalled e he)
  filled id e he := h'.filled id e (h.filled id e he)
  reserved id i hi := h'.reserved id i (h.reserved id i hi)
  slots i slot hslot hsome := h'.slots i slot (h.slots i slot hslot hsome) hsome

def Store.Complete (s : Store) (uploadId : UploadId) (i : ℕ) (slot : Slot) : Prop :=
  s.slots[i]? = some slot ∧ slot.uploadId = uploadId ∧ slot.data.isSome = true

structure Fetch.Sound (s : Store) (f : Fetch) : Prop where
  /-- A fetch that waits has the event of its id, or was woken at the end of its session. -/
  waits : ∀ e, f.progress = .waits e → e < s.events ∧
    (f.began = s.session ∧ s.filled.lookup f.uploadId = some e ∨
      f.began < s.session ∧ e ∈ s.signalled)
  cancelled : f.cancelled = true → f.due = true
  written : ∀ i, f.written = some i → ∃ slot, s.Complete f.uploadId i slot
  /-- A fetch that waits, and whose bytes were written in time, has been woken; if its session has
  not ended, it finds them. -/
  timely : ∀ i e, f.written = some i → f.progress = .waits e → e ∈ s.signalled ∧ f.due = false ∧
    (f.began = s.session → s.reserved.lookup f.uploadId = some i)
  returned : ∀ file n, f.progress = .ended (.ok file) n →
    ∃ i slot, s.Complete f.uploadId i slot ∧ slot.session = n ∧ slot.file? = some file
  raised : ∀ error n, f.progress = .ended (.error error) n → error = .unknownUpload f.uploadId
  kept : ∀ i result n, f.written = some i → f.progress = .ended result n → n = f.began →
    ∃ slot file, s.slots[i]? = some slot ∧ slot.file? = some file ∧ result = .ok file
  began_le : ∀ result n, f.progress = .ended result n → f.began ≤ n ∧ n ≤ s.session

theorem Store.Extends.complete (h : s.Extends s') (hslot : s.Complete uploadId i slot) :
    s'.Complete uploadId i slot :=
  ⟨h.slots i slot hslot.1 hslot.2.2, hslot.2⟩

theorem isSome_data_of_file? {file : UploadedFile} (h : slot.file? = some file) :
    slot.data.isSome = true := by
  rw [← Slot.isSome_file?, h, Option.isSome_some]

/-- A fetch that does nothing is not harmed by what the others do within the session. -/
theorem Fetch.Sound.extends (h : f.Sound s) (hext : s.Extends s') : f.Sound s' where
  waits e he := by
    obtain ⟨hlt, hwaits⟩ := h.waits e he
    refine ⟨Nat.lt_of_lt_of_le hlt hext.events, ?_⟩
    rw [hext.session]
    exact hwaits.imp (And.imp_right (hext.filled f.uploadId e))
      (And.imp_right (hext.signalled e))
  cancelled := h.cancelled
  written i hi := by
    obtain ⟨slot, hslot⟩ := h.written i hi
    exact ⟨slot, hext.complete hslot⟩
  timely i e hi he := by
    obtain ⟨hset, hdue, hfinds⟩ := h.timely i e hi he
    refine ⟨hext.signalled e hset, hdue, fun hbegan => ?_⟩
    exact hext.reserved f.uploadId i (hfinds (hbegan.trans hext.session))
  returned file n hn := by
    obtain ⟨i, slot, hslot, hrest⟩ := h.returned file n hn
    exact ⟨i, slot, hext.complete hslot, hrest⟩
  raised := h.raised
  kept i result n hi hresult hn := by
    obtain ⟨slot, file, hget, hfile, heq⟩ := h.kept i result n hi hresult hn
    exact ⟨slot, file, hext.slots i slot hget (isSome_data_of_file? hfile), hfile, heq⟩
  began_le result n hn := by
    rw [hext.session]
    exact h.began_le result n hn

theorem Fetch.Sound.clear (h : f.Sound s) : f.Sound s.clear where
  waits e he := by
    obtain ⟨hlt, ⟨hbegan, hlookup⟩ | ⟨hbegan, hset⟩⟩ := h.waits e he
    · refine ⟨hlt, .inr ⟨Nat.lt_succ_of_le (Nat.le_of_eq hbegan), List.mem_append_right _ ?_⟩⟩
      exact List.mem_map_of_mem (Dict.mem_of_lookup hlookup)
    · exact ⟨hlt, .inr ⟨Nat.lt_succ_of_lt hbegan, List.mem_append_left _ hset⟩⟩
  cancelled := h.cancelled
  written := h.written
  timely i e hi he := by
    obtain ⟨hset, hdue, -⟩ := h.timely i e hi he
    refine ⟨List.mem_append_left _ hset, hdue, fun hbegan => ?_⟩
    -- A fetch began before the session that begins here.
    change f.began = s.session + 1 at hbegan
    obtain ⟨-, ⟨h', -⟩ | ⟨h', -⟩⟩ := h.waits e he
    · omega
    · omega
  returned := h.returned
  raised := h.raised
  kept := h.kept
  began_le result n hn := by
    obtain ⟨hle, hle'⟩ := h.began_le result n hn
    exact ⟨hle, Nat.le_succ_of_le hle'⟩

theorem Store.Slots.complete_of_file? (h : s.Slots) {file : UploadedFile}
    (hfile : s.file? uploadId = some file) :
    ∃ i slot, s.reserved.lookup uploadId = some i ∧ s.Complete uploadId i slot ∧
      slot.session = s.session ∧ slot.file? = some file := by
  obtain ⟨i, slot, hslot, hfile⟩ := Store.file?_eq_some.mp hfile
  obtain ⟨hlookup, hget⟩ := Store.slot?_eq_some.mp hslot
  obtain ⟨hid, hsession⟩ := h.slot? hslot
  exact ⟨i, slot, hlookup, ⟨hget, hid, isSome_data_of_file? hfile⟩, hsession, hfile⟩

theorem Fetch.Sound.ended_found (hslots : s.Slots)
    (hcancelled : f.cancelled = true → f.due = true) (hbegan : f.began ≤ s.session)
    (hwritten : ∀ i, f.written = some i → (∃ slot, s.Complete f.uploadId i slot) ∧
      (f.began = s.session → s.reserved.lookup f.uploadId = some i)) :
    Fetch.Sound s { f with progress := .ended (s.found f.uploadId) s.session } where
  waits e he := by cases he
  cancelled := hcancelled
  written i hi := (hwritten i hi).1
  timely i e hi he := by cases he
  returned file n hn := by
    injection hn with hresult hn
    obtain ⟨file', hfile, hfound⟩ | ⟨-, hfound⟩ := s.found_cases f.uploadId
    · obtain rfl := Except.ok.inj (hfound.symm.trans hresult)
      obtain ⟨i, slot, -, hcomplete, hsession, hfile⟩ := hslots.complete_of_file? hfile
      exact ⟨i, slot, hcomplete, hsession.trans hn, hfile⟩
    · rw [hfound] at hresult
      cases hresult
  raised error n hn := by
    injection hn with hresult
    obtain ⟨file', -, hfound⟩ | ⟨-, hfound⟩ := s.found_cases f.uploadId
    · rw [hfound] at hresult
      cases hresult
    · exact Except.error.inj (hresult.symm.trans hfound)
  kept i result n hi hn hsession := by
    injection hn with hresult hn
    obtain ⟨⟨slot, hget, hid, hdata⟩, hlookup⟩ := hwritten i hi
    have hslot : s.slot? f.uploadId = some (i, slot) :=
      Store.slot?_eq_some.mpr ⟨hlookup (hn.trans hsession).symm, hget⟩
    rw [← Slot.isSome_file?] at hdata
    obtain ⟨file, hfile⟩ := Option.isSome_iff_exists.mp hdata
    refine ⟨slot, file, hget, hfile, hresult.symm.trans ?_⟩
    unfold Store.found
    rw [Store.file?_eq_some.mpr ⟨i, slot, hslot, hfile⟩]
  began_le result n hn := by
    injection hn with hresult hn
    subst hn
    exact ⟨hbegan, le_rfl⟩

/-- A write of the bytes is noted by the fetches that wait for them. -/
theorem Fetch.Sound.note (h : f.Sound s)
    (hset : ∀ e, s.filled.lookup uploadId = some e → e ∈ s.signalled)
    (hlookup : s.reserved.lookup uploadId = some i) (hslot : s.Complete uploadId i slot) :
    (f.note uploadId i).Sound s := by
  obtain ⟨id, progress, due, cancelled, began, written⟩ := f
  cases progress with
  | ended result n => exact h
  | waits event =>
    unfold Fetch.note
    dsimp only
    split_ifs with hf
    · obtain ⟨rfl, hdue⟩ := hf
      constructor
      · exact h.waits
      · exact h.cancelled
      · intro j hj
        cases hj
        exact ⟨slot, hslot⟩
      · intro j e hj he
        cases hj
        refine ⟨?_, hdue, fun _ => hlookup⟩
        obtain ⟨-, ⟨-, hfilled⟩ | ⟨-, hmem⟩⟩ := h.waits e he
        · exact hset e hfilled
        · exact hmem
      · exact h.returned
      · exact h.raised
      · intro j result n _ hn
        cases hn
      · exact h.began_le
    · exact h

/-! ### Stores -/

/-- What every step keeps. -/
structure Store.Sound (s : Store) : Prop where
  slots : s.Slots
  waiters : s.Waiters fun id => (s.file? id).isSome = true
  fetches : ∀ f ∈ s.fetches, f.Sound s

theorem Store.Waiters.congr {complete complete' : UploadId → Prop} (h : s.Waiters complete)
    (hfilled : s'.filled = s.filled) (hevents : s'.events = s.events)
    (hsignalled : s'.signalled = s.signalled) (hcomplete : ∀ id, complete' id ↔ complete id) :
    s'.Waiters complete' where
  filled_lt := by
    rw [hfilled, hevents]
    exact h.filled_lt
  filled_injective := by
    rw [hfilled]
    exact h.filled_injective
  signalled_lt := by
    rw [hsignalled, hevents]
    exact h.signalled_lt
  signalled_iff id e he := by
    rw [hfilled] at he
    rw [hsignalled, hcomplete]
    exact h.signalled_iff id e he

/-- A fetch is added, or moves, and all else stays. -/
theorem Store.Sound.fetches_set (h : s.Sound) {fetches : List Fetch}
    (hfetches : ∀ f ∈ fetches, f ∈ s.fetches ∨ f.Sound s) :
    Store.Sound { s with fetches } := by
  refine ⟨h.slots.congr rfl rfl rfl rfl, h.waiters.congr rfl rfl rfl fun _ => Iff.rfl, ?_⟩
  intro f hf
  have hext : s.Extends { s with fetches } :=
    ⟨rfl, le_rfl, fun _ he => he, fun _ _ he => he, fun _ _ hi => hi, fun _ _ hslot _ => hslot⟩
  rcases hfetches f hf with hold | hnew
  · exact (h.fetches f hold).extends hext
  · exact hnew.extends hext

theorem Store.Sound.begin (h : s.Sound) {progress : Progress}
    (hnew : Fetch.Sound s { uploadId, progress, began := s.session }) :
    (s.begin uploadId progress).Sound := by
  refine h.fetches_set fun f hf => ?_
  rcases List.mem_append.mp hf with hold | hlast
  · exact .inl hold
  · rw [List.mem_singleton.mp hlast]
    exact .inr hnew

theorem Store.Sound.move (h : s.Sound) {go : Fetch → Option Fetch} (hmove : s.move i go = some s')
    (hgo : ∀ f f', f.Sound s → go f = some f' → f'.Sound s) : s'.Sound := by
  unfold Store.move at hmove
  simp only [Option.bind_eq_bind, Option.bind_eq_some_iff, Option.some.injEq] at hmove
  obtain ⟨f, hf, f', hf', rfl⟩ := hmove
  refine h.fetches_set fun g hg => ?_
  rcases List.mem_or_eq_of_mem_set hg with hold | rfl
  · exact .inl hold
  · exact .inr (hgo f g (h.fetches f (List.mem_of_getElem? hf)) hf')

/-! #### The calls -/

theorem Store.isSome_file?_reserve (hslots : s.Slots)
    (hfree : s.reserved.lookup slot.uploadId = none) (hdata : slot.data = none) :
    ((s.reserve slot).file? uploadId).isSome = true ↔ (s.file? uploadId).isSome = true := by
  rw [Store.isSome_file?, Store.isSome_file?]
  simp only [Store.slot?_eq_some]
  have hlookup : (s.reserve slot).reserved.lookup uploadId =
      if uploadId = slot.uploadId then some s.slots.length else s.reserved.lookup uploadId :=
    Dict.lookup_set
  rw [hlookup]
  by_cases hid : uploadId = slot.uploadId
  · -- The new slot holds nothing, and there was none before.
    rw [if_pos hid, hid, hfree]
    constructor
    · rintro ⟨i, slot', ⟨hi, hget⟩, hsome⟩
      cases hi
      obtain rfl := Option.some.inj (List.getElem?_concat_length.symm.trans hget)
      rw [hdata] at hsome
      cases hsome
    · rintro ⟨i, slot', ⟨hi, -⟩, -⟩
      cases hi
  · rw [if_neg hid]
    refine exists_congr fun i => exists_congr fun slot' => and_congr_left fun _ => ?_
    refine and_congr_right fun hi => ?_
    obtain ⟨old, hold, -⟩ := hslots.reserved uploadId i hi
    have hlt : i < s.slots.length := (List.getElem?_eq_some_iff.mp hold).1
    show (s.slots ++ [slot])[i]? = some slot' ↔ s.slots[i]? = some slot'
    rw [List.getElem?_append_left hlt]

theorem Store.Sound.reserve (h : s.Sound) (hfree : s.reserved.lookup slot.uploadId = none)
    (hsession : slot.session = s.session) (hdata : slot.data = none) :
    (s.reserve slot).Sound where
  slots := h.slots.reserve hsession hdata
  waiters := h.waiters.congr rfl rfl rfl fun _ => Store.isSome_file?_reserve h.slots hfree hdata
  fetches f hf := by
    refine (h.fetches f hf).extends ⟨rfl, le_rfl, fun _ he => he, fun _ _ he => he, ?_, ?_⟩
    · intro id i hi
      show (Dict.set s.reserved slot.uploadId s.slots.length).lookup id = some i
      rw [Dict.lookup_set, if_neg, hi]
      rintro rfl
      cases hfree.symm.trans hi
    · intro i old hold _
      exact List.getElem?_append_left (List.getElem?_eq_some_iff.mp hold).1 ▸ hold

theorem Store.waiter_eq (s : Store) (uploadId : UploadId) :
    ∃ filled events, (s.waiter uploadId).2 = { s with filled, events } ∧ s.events ≤ events ∧
      ∀ id e, s.filled.lookup id = some e → filled.lookup id = some e := by
  obtain ⟨e, -, heq⟩ | ⟨hnone, heq⟩ := s.waiter_cases uploadId
  · exact ⟨s.filled, s.events, congrArg Prod.snd heq, le_rfl, fun _ _ he => he⟩
  · refine ⟨_, _, congrArg Prod.snd heq, Nat.le_succ s.events, fun id e he => ?_⟩
    rw [Dict.lookup_set, if_neg, he]
    rintro rfl
    cases hnone.symm.trans he

theorem Store.extends_waiter (s : Store) (uploadId : UploadId) :
    s.Extends (s.waiter uploadId).2 := by
  obtain ⟨filled, events, heq, hevents, hfilled⟩ := s.waiter_eq uploadId
  rw [heq]
  exact ⟨rfl, hevents, fun _ he => he, hfilled, fun _ _ hi => hi, fun _ _ hslot _ => hslot⟩

theorem Store.Sound.waiter (h : s.Sound) (hnot : ¬ (s.file? uploadId).isSome = true) :
    (s.waiter uploadId).2.Sound := by
  have hwaiters : (s.waiter uploadId).2.Waiters fun id => (s.file? id).isSome = true :=
    h.waiters.waiter hnot
  have hext := s.extends_waiter uploadId
  obtain ⟨filled, events, heq, -, -⟩ := s.waiter_eq uploadId
  rw [heq] at hwaiters hext ⊢
  exact ⟨h.slots.congr rfl rfl rfl rfl, hwaiters.congr rfl rfl rfl fun _ => Iff.rfl,
    fun f hf => (h.fetches f hf).extends hext⟩

theorem Store.isSome_file?_fill (hslots : s.Slots) {data : List UInt8}
    (hslot : s.slot? uploadId = some (i, slot)) :
    ((s.fill i slot data).file? id').isSome = true ↔
      (s.file? id').isSome = true ∨ id' = uploadId := by
  obtain ⟨hlookup, hget⟩ := Store.slot?_eq_some.mp hslot
  have hlt : i < s.slots.length := (List.getElem?_eq_some_iff.mp hget).1
  rw [Store.isSome_file?, Store.isSome_file?]
  simp only [Store.slot?_eq_some]
  constructor
  · rintro ⟨j, found, ⟨hj, hfound⟩, hsome⟩
    change (s.slots.set i { slot with data := some data })[j]? = some found at hfound
    rw [List.getElem?_set] at hfound
    split_ifs at hfound with hij
    · -- Only the id itself has the slot.
      subst hij
      obtain ⟨old, hold, hid, -⟩ := hslots.reserved id' i hj
      obtain rfl := Option.some.inj (hget.symm.trans hold)
      exact .inr (hid.symm.trans (hslots.slot? hslot).1)
    · exact .inl ⟨j, found, ⟨hj, hfound⟩, hsome⟩
  · rintro (⟨j, found, ⟨hj, hfound⟩, hsome⟩ | rfl)
    · by_cases hij : i = j
      · subst hij
        exact ⟨i, _, ⟨hj, List.getElem?_set_self hlt⟩, rfl⟩
      · exact ⟨j, found, ⟨hj, (List.getElem?_set_ne hij).trans hfound⟩, hsome⟩
    · exact ⟨i, _, ⟨hlookup, List.getElem?_set_self hlt⟩, rfl⟩

theorem Store.Sound.put (h : s.Sound) {data : List UInt8} (hput : s.put uploadId data = .ok s') :
    s'.Sound := by
  obtain ⟨i, slot, hslot, hdata, hsize, rfl⟩ := Store.put_eq_ok hput
  obtain ⟨hlookup, hget⟩ := Store.slot?_eq_some.mp hslot
  obtain ⟨hid, -⟩ := h.slots.slot? hslot
  have hlt : i < s.slots.length := (List.getElem?_eq_some_iff.mp hget).1
  have hnot : ¬ (s.file? uploadId).isSome = true := by
    rw [Store.isSome_file?]
    rintro ⟨j, found, hfound, hsome⟩
    obtain ⟨rfl, rfl⟩ := Prod.mk.inj (Option.some.inj (hslot.symm.trans hfound))
    rw [hdata] at hsome
    cases hsome
  have hslots := h.slots.fill hslot hdata hsize
  have hfill : s.Extends (s.fill i slot data) := by
    refine ⟨rfl, le_rfl, fun _ he => he, fun _ _ he => he, fun _ _ hi => hi, ?_⟩
    intro j old hold hsome
    refine (List.getElem?_set_ne ?_).trans hold
    rintro rfl
    obtain rfl := Option.some.inj (hget.symm.trans hold)
    rw [hdata] at hsome
    cases hsome
  have hwaiters : (s.fill i slot data).Waiters fun id => (s.file? id).isSome = true :=
    h.waiters.congr rfl rfl rfl fun _ => Iff.rfl
  have hevent := (s.fill i slot data).lookup_waiter uploadId
  have hset := (hwaiters.waiter hnot).signal hevent
  have hext := hfill.trans ((s.fill i slot data).extends_waiter uploadId)
  unfold Store.wake
  obtain ⟨filled, events, heq, -, -⟩ := (s.fill i slot data).waiter_eq uploadId
  rw [heq] at hset hext hevent ⊢
  refine ⟨hslots.congr rfl rfl rfl rfl, hset.congr rfl rfl rfl fun id => ?_, ?_⟩
  · exact Store.isSome_file?_fill h.slots hslot
  · intro f hf
    obtain ⟨g, hg, rfl⟩ := List.mem_map.mp hf
    rw [hid]
    refine Fetch.Sound.note ((h.fetches g hg).extends (hext.trans ?_)) ?_ hlookup
      ⟨List.getElem?_set_self hlt, hid, rfl⟩
    · exact ⟨rfl, le_rfl, fun _ he => List.mem_append_left _ he, fun _ _ he => he,
        fun _ _ hi => hi, fun _ _ hslot _ => hslot⟩
    · intro e he
      rw [Option.some.inj (he.symm.trans hevent)]
      exact List.mem_append_right _ (List.mem_singleton_self _)

theorem Store.Sound.fetch (h : s.Sound) (uploadId : UploadId) (waitSeconds : ℚ) :
    (s.fetch uploadId waitSeconds).Sound := by
  have hended {s : Store} (h : s.Sound) :
      (s.begin uploadId (.ended (s.found uploadId) s.session)).Sound := by
    refine h.begin ?_
    refine Fetch.Sound.ended_found (f := { uploadId, progress := .waits 0, began := s.session })
      h.slots ?_ le_rfl ?_
    · intro hcancelled
      cases hcancelled
    · intro i hi
      cases hi
  unfold Store.fetch
  split_ifs with hnow
  · exact hended h
  · rw [not_or] at hnow
    have hwaiter := h.waiter hnow.1
    have hevent := s.lookup_waiter uploadId
    dsimp only
    split_ifs with hset
    · exact hended hwaiter
    · refine hwaiter.begin ⟨?_, ?_, ?_, ?_, ?_, ?_, ?_, ?_⟩
      · intro e he
        injection he with he
        subst he
        exact ⟨hwaiter.waiters.filled_lt _ (Dict.mem_of_lookup hevent), .inl ⟨rfl, hevent⟩⟩
      · intro hcancelled
        cases hcancelled
      · intro i hi
        cases hi
      · intro i e hi
        cases hi
      · intro file n hn
        cases hn
      · intro error n hn
        cases hn
      · intro i result n hi
        cases hi
      · intro result n hn
        cases hn

theorem Store.fallDue_eq_some {f' : Fetch} (h : s.fallDue f = some f') :
    ∃ e, f.progress = .waits e ∧ e ∉ s.signalled ∧ f' = { f with due := true } := by
  unfold Store.fallDue at h
  cases hprogress : f.progress with
  | ended result n =>
    rw [hprogress] at h
    cases h
  | waits e =>
    rw [hprogress] at h
    dsimp only at h
    split_ifs at h with hset
    exact ⟨e, rfl, hset, (Option.some.inj h).symm⟩

theorem Store.cancel_eq_some {f' : Fetch} (h : Store.cancel f = some f') :
    f.due = true ∧ f' = { f with cancelled := true } := by
  unfold Store.cancel at h
  cases hprogress : f.progress with
  | ended result n =>
    rw [hprogress] at h
    cases h
  | waits e =>
    rw [hprogress] at h
    dsimp only at h
    split_ifs at h with hdue
    exact ⟨hdue, (Option.some.inj h).symm⟩

theorem Store.resume_eq_some {f' : Fetch} (h : s.resume f = some f') :
    ∃ e, f.progress = .waits e ∧
      (f.cancelled = true ∧
          f' = { f with progress := .ended (.error (.unknownUpload f.uploadId)) s.session } ∨
        f.cancelled = false ∧ e ∈ s.signalled ∧
          f' = { f with progress := .ended (s.found f.uploadId) s.session }) := by
  unfold Store.resume at h
  cases hprogress : f.progress with
  | ended result n =>
    rw [hprogress] at h
    cases h
  | waits e =>
    rw [hprogress] at h
    dsimp only at h
    refine ⟨e, rfl, ?_⟩
    split_ifs at h with hcancelled hset
    · exact .inl ⟨hcancelled, (Option.some.inj h).symm⟩
    · exact .inr ⟨Bool.eq_false_iff.mpr hcancelled, hset, (Option.some.inj h).symm⟩

theorem Store.isSome_resume (he : f.progress = .waits event) (hset : event ∈ s.signalled) :
    (s.resume f).isSome = true := by
  unfold Store.resume
  rw [he]
  dsimp only
  split_ifs
  · rfl
  · rfl

theorem Store.isSome_move {go : Fetch → Option Fetch} (hget : s.fetches[i]? = some f)
    (hgo : (go f).isSome = true) : (s.move i go).isSome = true := by
  obtain ⟨f', hf'⟩ := Option.isSome_iff_exists.mp hgo
  unfold Store.move
  simp only [Option.bind_eq_bind, hget, hf', Option.bind_some, Option.isSome_some]

theorem Fetch.Sound.fallDue {f' : Fetch} (h : f.Sound s) (hf : s.fallDue f = some f') :
    f'.Sound s := by
  obtain ⟨e, hprogress, hset, rfl⟩ := Store.fallDue_eq_some hf
  refine ⟨h.waits, fun _ => rfl, h.written, ?_, h.returned, h.raised, h.kept, h.began_le⟩
  intro i e' hi he'
  -- A fetch whose bytes were written in time has been woken.
  exact absurd (h.timely i e hi hprogress).1 hset

theorem Fetch.Sound.cancel {f' : Fetch} (h : f.Sound s) (hf : Store.cancel f = some f') :
    f'.Sound s := by
  obtain ⟨hdue, rfl⟩ := Store.cancel_eq_some hf
  exact ⟨h.waits, fun _ => hdue, h.written, h.timely, h.returned, h.raised, h.kept, h.began_le⟩

theorem Fetch.Sound.began_le_session {e : ℕ} (h : f.Sound s) (he : f.progress = .waits e) :
    f.began ≤ s.session := by
  obtain ⟨-, ⟨hbegan, -⟩ | ⟨hbegan, -⟩⟩ := h.waits e he
  · omega
  · omega

theorem Fetch.Sound.resume {f' : Fetch} (hslots : s.Slots) (h : f.Sound s)
    (hf : s.resume f = some f') : f'.Sound s := by
  obtain ⟨e, hprogress, ⟨hcancelled, rfl⟩ | ⟨-, -, rfl⟩⟩ := Store.resume_eq_some hf
  · -- A fetch that is cancelled was not written in time.
    have hnot (i : ℕ) (hi : f.written = some i) : False := by
      have hdue := (h.timely i e hi hprogress).2.1
      exact Bool.false_ne_true (hdue.symm.trans (h.cancelled hcancelled))
    constructor
    · intro e he
      cases he
    · exact h.cancelled
    · exact h.written
    · intro i e hi
      exact (hnot i hi).elim
    · intro file n hn
      cases hn
    · intro error n hn
      injection hn with hresult
      exact (Except.error.inj hresult).symm
    · intro i result n hi
      exact (hnot i hi).elim
    · intro result n hn
      injection hn with hresult hn
      subst hn
      exact ⟨h.began_le_session hprogress, le_rfl⟩
  · refine Fetch.Sound.ended_found hslots h.cancelled (h.began_le_session hprogress) ?_
    intro i hi
    exact ⟨h.written i hi, (h.timely i e hi hprogress).2.2⟩

theorem Store.Sound.clear (h : s.Sound) : s.clear.Sound where
  slots := h.slots.clear
  waiters := by
    refine ⟨?_, ?_, ?_, ?_⟩
    · intro entry hentry
      cases hentry
    · intro id id' e he
      cases he
    · intro e he
      rcases List.mem_append.mp he with he | he
      · exact h.waiters.signalled_lt e he
      · obtain ⟨entry, hentry, rfl⟩ := List.mem_map.mp he
        exact h.waiters.filled_lt entry hentry
    · intro id e he
      cases he
  fetches f hf := (h.fetches f hf).clear

/-! ### Runs -/

theorem sound_isInvariant : uploadStore.IsInvariant Store.Sound where
  init := by
    refine ⟨⟨?_, List.nodup_nil, ?_, ?_⟩, ⟨?_, ?_, ?_, ?_⟩, ?_⟩
    · intro id i hi
      cases hi
    · intro w hw
      cases hw
    · intro i slot hslot
      cases hslot
    · intro entry hentry
      cases hentry
    · intro id id' e he
      cases he
    · intro e he
      cases he
    · intro id e he
      cases he
    · intro f hf
      cases hf
  step s act s' h hstep := by
    cases act with
    | createSlot minted name mimeType size chosen =>
      change (if _ then _ else _) = _ at hstep
      split_ifs at hstep with hminted
      cases hcreate : s.createSlot minted name mimeType size chosen with
      | error e =>
        rw [hcreate] at hstep
        exact Option.some.inj hstep ▸ h
      | ok created =>
        rw [hcreate] at hstep
        obtain ⟨hfree, heq⟩ := Store.createSlot_eq_ok hcreate hminted
        cases hstep
        rw [heq]
        exact h.reserve hfree rfl rfl
    | put uploadId data =>
      cases hstep
      cases hput : s.put uploadId data with
      | error e => exact h
      | ok s' => exact h.put hput
    | fetch uploadId waitSeconds =>
      cases hstep
      exact h.fetch uploadId waitSeconds
    | due i => exact h.move hstep fun f f' hf => hf.fallDue
    | cancel i => exact h.move hstep fun f f' hf => hf.cancel
    | resume i => exact h.move hstep fun f f' hf => hf.resume h.slots
    | clear =>
      cases hstep
      exact h.clear

/-- A fetch of an earlier session resumes before its id is complete again. -/
def Store.BeforeReuse (s : Store) : Act → Prop
  | .resume i => ∀ f ∈ s.fetches[i]?, f.began < s.session → f.cancelled = false →
      s.file? f.uploadId = none
  | _ => True

instance (s : Store) : (act : Act) → Decidable (s.BeforeReuse act)
  | .resume i => inferInstanceAs (Decidable (∀ f ∈ s.fetches[i]?, f.began < s.session →
      f.cancelled = false → s.file? f.uploadId = none))
  | .createSlot _ _ _ _ _ | .put _ _ | .fetch _ _ | .due _ | .cancel _ | .clear => .isTrue trivial

def Store.OwnSession (s : Store) : Prop :=
  ∀ f ∈ s.fetches, ∀ file n, f.progress = .ended (.ok file) n → n = f.began

theorem Store.OwnSession.begin (h : s.OwnSession) {progress : Progress}
    (hnew : ∀ file n, progress = .ended (.ok file) n → n = s.session) :
    (s.begin uploadId progress).OwnSession := by
  intro f hf
  rcases List.mem_append.mp hf with hold | hlast
  · exact h f hold
  · rw [List.mem_singleton.mp hlast]
    exact hnew

theorem Store.OwnSession.move (h : s.OwnSession) {go : Fetch → Option Fetch}
    (hmove : s.move i go = some s')
    (hgo : ∀ f ∈ s.fetches[i]?, ∀ f', go f = some f' →
      ∀ file n, f'.progress = .ended (.ok file) n → n = f'.began) : s'.OwnSession := by
  unfold Store.move at hmove
  simp only [Option.bind_eq_bind, Option.bind_eq_some_iff, Option.some.injEq] at hmove
  obtain ⟨f, hf, f', hf', rfl⟩ := hmove
  intro g hg
  rcases List.mem_or_eq_of_mem_set hg with hold | rfl
  · exact h g hold
  · exact hgo f hf g hf'

theorem Fetch.note_progress_began (f : Fetch) (uploadId : UploadId) (i : ℕ) :
    (f.note uploadId i).progress = f.progress ∧ (f.note uploadId i).began = f.began := by
  obtain ⟨id, progress, due, cancelled, began, written⟩ := f
  cases progress with
  | ended result n => exact ⟨rfl, rfl⟩
  | waits event =>
    unfold Fetch.note
    dsimp only
    split_ifs
    · exact ⟨rfl, rfl⟩
    · exact ⟨rfl, rfl⟩

theorem Store.OwnSession.step {act : Act} (h : s.OwnSession) (hreuse : s.BeforeReuse act)
    (hsound : s.Sound) (hstep : s.step act = some s') : s'.OwnSession := by
  cases act with
  | createSlot minted name mimeType size chosen =>
    change (if _ then _ else _) = _ at hstep
    split_ifs at hstep with hminted
    cases hcreate : s.createSlot minted name mimeType size chosen with
    | error e =>
      rw [hcreate] at hstep
      exact Option.some.inj hstep ▸ h
    | ok created =>
      rw [hcreate] at hstep
      obtain ⟨-, heq⟩ := Store.createSlot_eq_ok hcreate hminted
      cases hstep
      rw [heq]
      exact h
  | put uploadId data =>
    cases hstep
    cases hput : s.put uploadId data with
    | error e => exact h
    | ok s' =>
      obtain ⟨i, slot, -, -, -, rfl⟩ := Store.put_eq_ok hput
      obtain ⟨filled, events, heq, -, -⟩ := (s.fill i slot data).waiter_eq uploadId
      intro f hf
      change f ∈ ((s.fill i slot data).waiter uploadId).2.fetches at hf
      rw [heq] at hf
      obtain ⟨g, hg, rfl⟩ := List.mem_map.mp hf
      rw [(g.note_progress_began slot.uploadId i).1, (g.note_progress_began slot.uploadId i).2]
      exact h g hg
  | fetch uploadId waitSeconds =>
    cases hstep
    unfold Store.fetch
    split_ifs with hnow
    · exact h.begin fun file n hn => (Progress.ended.inj hn).2.symm
    · obtain ⟨filled, events, heq, -, -⟩ := s.waiter_eq uploadId
      have hwaiter : (s.waiter uploadId).2.OwnSession := by
        rw [heq]
        exact h
      dsimp only
      split_ifs
      · exact hwaiter.begin fun file n hn => (Progress.ended.inj hn).2.symm
      · refine hwaiter.begin fun file n hn => ?_
        cases hn
  | due i =>
    refine h.move hstep fun f hf f' hf' file n hn => ?_
    obtain ⟨e, -, -, rfl⟩ := Store.fallDue_eq_some hf'
    exact h f (List.mem_of_getElem? hf) file n hn
  | cancel i =>
    refine h.move hstep fun f hf f' hf' file n hn => ?_
    obtain ⟨-, rfl⟩ := Store.cancel_eq_some hf'
    exact h f (List.mem_of_getElem? hf) file n hn
  | resume i =>
    refine h.move hstep fun f hf f' hf' file n hn => ?_
    obtain ⟨e, hwaits, ⟨-, rfl⟩ | ⟨hcancelled, -, rfl⟩⟩ := Store.resume_eq_some hf'
    · cases hn
    · obtain ⟨hresult, hn⟩ := Progress.ended.inj hn
      have hbegan : f.began ≤ s.session :=
        (hsound.fetches f (List.mem_of_getElem? hf)).began_le_session hwaits
      rcases Nat.lt_or_ge f.began s.session with hearlier | hown
      · -- A fetch of an earlier session finds nothing.
        have hnone : s.file? f.uploadId = none := hreuse f hf hearlier hcancelled
        obtain ⟨file', hfile, -⟩ | ⟨-, hfound⟩ := s.found_cases f.uploadId
        · cases hnone.symm.trans hfile
        · rw [hfound] at hresult
          cases hresult
      · show n = f.began
        omega
  | clear =>
    cases hstep
    exact h

/-! ### Uploads resolve within their session -/

/-- What is said of a store: of its writes, of the fetches that have ended, and of those that have
to be able to. -/
structure Store.Resolves (s : Store) : Prop where
  /-- A slot is written once at most. -/
  once : (s.writes.map Write.slot).Nodup
  /-- A slot is written with the number of bytes it was declared with. -/
  exactly : ∀ w ∈ s.writes, ∃ slot, s.slots[w.slot]? = some slot ∧ slot.data = some w.data ∧
    w.data.length = slot.size
  /-- A fetch that returns gives a slot of its id, reserved and written in its own session. -/
  returned : ∀ f ∈ s.fetches, ∀ file n, f.progress = .ended (.ok file) n →
    ∃ w ∈ s.writes, ∃ slot, s.slots[w.slot]? = some slot ∧ slot.uploadId = f.uploadId ∧
      slot.session = f.began ∧ w.session = f.began ∧ slot.data = some w.data ∧
      file = { name := slot.name, mimeType := slot.mimeType, data := w.data }
  /-- A fetch whose bytes were written within its wait returns them, unless its session ended. -/
  written : ∀ f ∈ s.fetches, ∀ i result, f.written = some i →
    f.progress = .ended result f.began →
    ∃ slot file, s.slots[i]? = some slot ∧ slot.uploadId = f.uploadId ∧
      slot.file? = some file ∧ result = .ok file
  /-- A fetch that still waited at the end of its session raises. -/
  cleared : ∀ f ∈ s.fetches, ∀ result n, f.progress = .ended result n → f.began < n →
    result = .error (.unknownUpload f.uploadId)
  raised : ∀ f ∈ s.fetches, ∀ error n, f.progress = .ended (.error error) n →
    error = .unknownUpload f.uploadId
  /-- A fetch that was written to, or whose session has ended, can resume. -/
  woken : ∀ i f e, s.fetches[i]? = some f → f.progress = .waits e →
    f.written.isSome = true ∨ f.began < s.session → (s.step (.resume i)).isSome = true

theorem Store.Sound.resolves (h : s.Sound) (hown : s.OwnSession) : s.Resolves where
  once := h.slots.nodup_writes
  exactly w hw := by
    obtain ⟨slot, hget, hdata, hsize, -⟩ := h.slots.written w hw
    exact ⟨slot, hget, hdata, hsize⟩
  returned f hf file n hn := by
    obtain ⟨i, slot, ⟨hget, hid, hsome⟩, hsession, hfile⟩ := (h.fetches f hf).returned file n hn
    obtain ⟨w, hw, rfl⟩ := h.slots.complete i slot hget hsome
    obtain ⟨slot', hget', hdata, -, hwritten⟩ := h.slots.written w hw
    obtain rfl := Option.some.inj (hget.symm.trans hget')
    have hbegan : slot.session = f.began := hsession.trans (hown f hf file n hn)
    refine ⟨w, hw, slot, hget, hid, hbegan, hwritten.symm.trans hbegan, hdata, ?_⟩
    unfold Slot.file? at hfile
    rw [hdata] at hfile
    exact (Option.some.inj hfile).symm
  written f hf i result hi hn := by
    obtain ⟨slot, file, hget, hfile, hresult⟩ := (h.fetches f hf).kept i result _ hi hn rfl
    obtain ⟨slot', hget', hid, -⟩ := (h.fetches f hf).written i hi
    obtain rfl := Option.some.inj (hget.symm.trans hget')
    exact ⟨slot, file, hget, hid, hfile, hresult⟩
  cleared f hf result n hn hlt := by
    cases result with
    | ok file =>
      have heq := hown f hf file n hn
      omega
    | error error => rw [(h.fetches f hf).raised error n hn]
  raised f hf := (h.fetches f hf).raised
  woken i f e hget he hwoken := by
    have hf := h.fetches f (List.mem_of_getElem? hget)
    have hset : e ∈ s.signalled := by
      rcases hwoken with hwritten | hearlier
      · obtain ⟨j, hj⟩ := Option.isSome_iff_exists.mp hwritten
        exact (hf.timely j e hj he).1
      · obtain ⟨-, ⟨hbegan, -⟩ | ⟨-, hset⟩⟩ := hf.waits e he
        · omega
        · exact hset
    exact Store.isSome_move hget (Store.isSome_resume he hset)

/-- **Uploads resolve within their session** in every run in which no fetch of an earlier session
resumes once its id is complete again. -/
theorem uploads_resolve {acts : List Act} (hrun : uploadStore.run acts = some s)
    (hreuse : uploadStore.AllSteps Store.BeforeReuse acts) : s.Resolves := by
  have h : s.Sound ∧ s.OwnSession :=
    hreuse.invariant
      (I := fun s => s.Sound ∧ s.OwnSession) ⟨sound_isInvariant.init, fun f hf => by cases hf⟩
      (fun s act s' h hact hstep =>
        ⟨sound_isInvariant.step s act s' h.1 hstep, h.2.step hact h.1 hstep⟩) hrun
  exact h.1.resolves h.2

/-- A fetch that begins before its slot is reserved, and one that is still waiting at the end of the
session. -/
def quietRun : List Act :=
  [.fetch "a" 30, .createSlot "" "cat.png" "image/png" 2 (some "a"), .fetch "b" 30,
    .put "a" [1, 2], .resume 0, .clear, .resume 1, .createSlot "" "b.txt" "text/plain" 0 (some "b"),
    .put "b" []]

theorem isSome_quietRun : (uploadStore.run quietRun).isSome := rfl

theorem uploads_resolve_quietRun : ((uploadStore.run quietRun).get isSome_quietRun).Resolves :=
  uploads_resolve (Option.some_get isSome_quietRun).symm (by decide +kernel)

/-- The id is reserved and written in the next session before the fetch resumes. -/
def reuseRun : List Act :=
  [.fetch "a" 30, .clear, .createSlot "" "later.txt" "text/plain" 1 (some "a"), .put "a" [7],
    .resume 0]

theorem isSome_reuseRun : (uploadStore.run reuseRun).isSome := rfl

def crossed : Fetch where
  uploadId := "a"
  progress := .ended (.ok { name := "later.txt", mimeType := "text/plain", data := [7] }) 1
  began := 0
  written := some 0

/-- A fetch of one session returns the file of the next one. -/
theorem not_uploads_resolve :
    ¬ ∀ acts s, uploadStore.run acts = some s → s.Resolves := by
  intro h
  have hresolves := h reuseRun _ (Option.some_get isSome_reuseRun).symm
  have hmem : crossed ∈ ((uploadStore.run reuseRun).get isSome_reuseRun).fetches := by
    decide +kernel
  cases hresolves.cleared crossed hmem _ 1 rfl Nat.one_pos

end ReactorRuntime.Runtime.UploadStore
