import ReactorRuntime.LiveKit.Participant
import ReactorRuntime.Lists.Keyed
import Mathlib.Data.List.TakeWhile

/-!
## What a participant sends, over whole runs

* `arrives_in_order`: on each topic, the messages that were handed on are the ones whose turn has
  come, whole and in the order of their arrival; the bytes that are counted are the bytes that are
  held, within the budget; there are no more streams than may be open; and nothing is handed on
  after the close.

The line of a topic is its history from the first message on that is not finished
(`Opened.inbound`), so that what `_deliver` takes off it is what has become ready
(`handOn_slots`).  A task that reads and the message it reads for have the same bytes
(`Opened.reading`).
-/

namespace ReactorRuntime.LiveKit

open ReactorRuntime.Protocol (Channel)
open ReactorRuntime.Lists (eq_of_key_eq nodup_key_filter sum_map_filter sum_map_update)

/-! ### The line of a topic -/

/-- The slot of a message that is in line. -/
def Arrival.slot? (a : Arrival) : Option Inbound :=
  match a.fate with
  | .reading _ => some { id := a.id }
  | .whole data => some { id := a.id, data := some data, done := true }
  | .failed => some { id := a.id, done := true }
  | .refused | .cut => none

/-- The slots of the messages from the first one on that is not finished. -/
def waiting (l : List Arrival) : List Inbound :=
  (l.dropWhile Arrival.finished).filterMap Arrival.slot?

theorem handOn_slots (l : List Arrival) :
    handOn (l.filterMap Arrival.slot?) = (waiting l, ready l) := by
  induction l with
  | nil => rfl
  | cons a l ih =>
    cases hfate : a.fate <;>
      simp [handOn, waiting, ready, Arrival.slot?, Arrival.finished, Arrival.message, hfate, ih]

section Line

variable {P L l : List Arrival} {a : Arrival}

theorem ready_append (hP : ∀ a ∈ P, a.finished) : ready (P ++ L) = ready P ++ ready L := by
  unfold ready
  rw [List.takeWhile_append_of_pos hP, List.takeWhile_eq_self_iff.mpr hP, List.filterMap_append]

theorem waiting_append (hP : ∀ a ∈ P, a.finished) : waiting (P ++ L) = waiting L := by
  unfold waiting
  rw [List.dropWhile_append_of_pos hP]

theorem finished_of_mem_takeWhile (ha : a ∈ l.takeWhile Arrival.finished) : a.finished :=
  List.mem_takeWhile_imp ha

theorem ready_takeWhile : ready (l.takeWhile Arrival.finished) = ready l := by
  unfold ready
  rw [List.takeWhile_idem]

theorem ready_congr {l' : List Arrival}
    (h : l.filterMap Arrival.slot? = l'.filterMap Arrival.slot?) : ready l = ready l' := by
  have hline := handOn_slots l
  rw [h, handOn_slots] at hline
  exact (congrArg Prod.snd hline).symm

theorem waiting_congr {l' : List Arrival}
    (h : l.filterMap Arrival.slot? = l'.filterMap Arrival.slot?) : waiting l = waiting l' := by
  have hline := handOn_slots l
  rw [h, handOn_slots] at hline
  exact (congrArg Prod.fst hline).symm

theorem slots_concat_refused {id : ℕ} :
    (l ++ [(⟨id, .refused⟩ : Arrival)]).filterMap Arrival.slot? = l.filterMap Arrival.slot? := by
  rw [List.filterMap_append]
  exact List.append_nil _

/-- A message whose stream opens waits behind the others. -/
theorem ready_concat_reading {id : ℕ} : ready (l ++ [⟨id, .reading []⟩]) = ready l := by
  unfold ready
  rw [List.takeWhile_append]
  split_ifs with h
  · rw [(List.takeWhile_prefix _).eq_of_length h]
    simp [Arrival.finished]
  · rfl

theorem waiting_concat_reading {id : ℕ} :
    waiting (l ++ [⟨id, .reading []⟩]) = waiting l ++ [⟨id, none, false⟩] := by
  unfold waiting
  rw [List.dropWhile_append]
  split_ifs with h
  · rw [List.isEmpty_iff.mp h]
    rfl
  · rw [List.filterMap_append]
    rfl

end Line

/-! ### What becomes of a message whose stream is read -/

section Settle

variable {id : ℕ} {f : Message → Fate} {a : Arrival} {l : List Arrival}

@[simp] theorem Arrival.id_settle : (a.settle id f).id = a.id := by
  unfold Arrival.settle
  cases a.fate with
  | reading data => simp only; split_ifs <;> rfl
  | whole | refused | failed | cut => rfl

theorem map_id_settle : (l.map (Arrival.settle id f)).map Arrival.id = l.map Arrival.id := by
  rw [List.map_map]
  exact List.map_congr_left fun a _ => Arrival.id_settle

theorem Arrival.settle_of_finished (h : a.finished) : a.settle id f = a := by
  unfold Arrival.finished at h
  unfold Arrival.settle
  cases hfate : a.fate <;> simp_all

theorem Arrival.settle_of_ne (h : a.id ≠ id) : a.settle id f = a := by
  unfold Arrival.settle
  cases a.fate <;> simp [h]

theorem Arrival.settle_of_reading {data : Message} (hid : a.id = id)
    (h : a.fate = .reading data) : a.settle id f = { a with fate := f data } := by
  unfold Arrival.settle
  rw [h]
  exact if_pos hid

theorem map_settle_takeWhile :
    (l.takeWhile Arrival.finished).map (Arrival.settle id f) = l.takeWhile Arrival.finished := by
  conv_rhs => rw [← List.map_id (l.takeWhile Arrival.finished)]
  exact List.map_congr_left fun a ha =>
    Arrival.settle_of_finished (finished_of_mem_takeWhile ha)

/-- What has arrived on the topic, with what is finished at its front set apart. -/
theorem map_settle_eq : l.map (Arrival.settle id f) =
    l.takeWhile Arrival.finished ++ (l.dropWhile Arrival.finished).map (Arrival.settle id f) := by
  conv_lhs => rw [← List.takeWhile_append_dropWhile (p := Arrival.finished) (l := l)]
  rw [List.map_append, map_settle_takeWhile]

theorem slots_settle (id : ℕ) (l : List Arrival)
    (hf : ∀ data, ∃ data', f data = .reading data') :
    (l.map (Arrival.settle id f)).filterMap Arrival.slot? = l.filterMap Arrival.slot? := by
  rw [List.filterMap_map]
  refine List.filterMap_congr fun a _ => ?_
  unfold Function.comp Arrival.settle
  cases hfate : a.fate with
  | reading data =>
    obtain ⟨data', hdata⟩ := hf data
    simp only
    split_ifs <;> simp [Arrival.slot?, hfate, hdata]
  | whole | refused | failed | cut => simp [Arrival.slot?, hfate]

theorem slots_fill (sent : Message) {data : Option Message}
    (hl : ∀ a ∈ l, a.id = id → a.fate = .reading sent)
    (hf : Arrival.slot? ⟨id, f sent⟩ = some { id, data, done := true }) :
    (l.filterMap Arrival.slot?).map
        (fun slot => if slot.id = id then { slot with data, done := true } else slot) =
      (l.map (Arrival.settle id f)).filterMap Arrival.slot? := by
  rw [List.map_filterMap, List.filterMap_map]
  refine List.filterMap_congr fun a ha => ?_
  rw [Function.comp_apply]
  by_cases hid : a.id = id
  · have hfate := hl a ha hid
    subst hid
    rw [Arrival.settle_of_reading rfl hfate, hf]
    simp [Arrival.slot?, hfate]
  · rw [Arrival.settle_of_ne hid]
    cases hfate : a.fate <;> simp [Arrival.slot?, hfate, hid]

theorem id_slots_sublist :
    ((l.filterMap Arrival.slot?).map Inbound.id).Sublist (l.map Arrival.id) := by
  induction l with
  | nil => exact List.Sublist.slnil
  | cons a l ih =>
    cases hfate : a.fate with
    | reading | whole | failed => simpa [Arrival.slot?, hfate] using ih
    | refused | cut => simpa [Arrival.slot?, hfate] using ih.cons a.id

end Settle

/-! ### The bytes that are held -/

def Inbound.size (slot : Inbound) : ℕ := (slot.data.getD []).length

/-- What a task that reads holds. -/
def Reading.size (r : Reading) : ℕ := if r.ended then 0 else r.data.length

namespace ParticipantConnection

variable (s : ParticipantConnection)

/-- What the slots of a topic hold. -/
def queued (channel : Channel) : ℕ := ((s.inbound channel).map Inbound.size).sum

/-- The complete messages that wait and what the open streams have read. -/
def heldBytes : ℕ := s.queued .control + s.queued .data + (s.readers.map Reading.size).sum

end ParticipantConnection

theorem size_handOn (queue : List Inbound) :
    (queue.map Inbound.size).sum =
      ((handOn queue).1.map Inbound.size).sum + ((handOn queue).2.map List.length).sum := by
  induction queue with
  | nil => rfl
  | cons slot queue ih =>
    unfold handOn
    split_ifs
    · cases hdata : slot.data with
      | none => simpa [Inbound.size, hdata] using ih
      | some data =>
        simp only [List.map_cons, List.sum_cons, ih, Inbound.size, hdata, Option.getD_some]
        omega
    · simp

namespace ParticipantConnection

variable {s s' : ParticipantConnection} {channel c : Channel} {id : ℕ} {fate : Fate}
  {f : Message → Fate} {g : Reading → Reading} {slot : Inbound} {data : Option Message}

/-! ### What the operations leave as it is -/

theorem deliver_of_open (h : s.closed = false) : s.deliver channel =
    { s with
      inbound := Function.update s.inbound channel (handOn (s.inbound channel)).1
      inboundBytes := s.inboundBytes - ((handOn (s.inbound channel)).2.map List.length).sum
      handed := Function.update s.handed channel
        (s.handed channel ++ (handOn (s.inbound channel)).2) } := by
  unfold deliver
  rw [h]
  rfl

theorem hold_eq_some {size : ℕ} (h : s.hold size = some s') :
    s.inboundBytes + size ≤ maxInboundBytes ∧
      s' = { s with inboundBytes := s.inboundBytes + size } := by
  unfold hold at h
  split_ifs at h with hbound
  exact ⟨not_lt.mp hbound, (Option.some.inj h).symm⟩

/-! ### The numbers of the messages -/

/-- A message has a number of its own, and so has the slot of a task that reads. -/
structure Numbered (s : ParticipantConnection) : Prop where
  ids : ∀ c, ((s.arrivals c).map Arrival.id).Nodup
  id_lt : ∀ c, ∀ a ∈ s.arrivals c, a.id < s.arrived
  slots : (s.readers.map Reading.slot).Nodup
  slot_lt : ∀ r ∈ s.readers, r.slot < s.arrived

theorem Numbered.of_eq (h : Numbered s) (harr : s'.arrivals = s.arrivals)
    (hnum : s'.arrived = s.arrived) (hr : s'.readers = s.readers) : Numbered s' where
  ids := harr ▸ h.ids
  id_lt := by rw [harr, hnum]; exact h.id_lt
  slots := hr ▸ h.slots
  slot_lt := by rw [hr, hnum]; exact h.slot_lt

theorem Numbered.arrive (h : Numbered s) : Numbered (s.arrive channel fate) where
  ids := by
    refine (Function.forall_update_iff s.arrivals fun _ l => (l.map Arrival.id).Nodup).mpr
      ⟨?_, fun c _ => h.ids c⟩
    rw [List.map_append, List.nodup_append]
    refine ⟨h.ids channel, List.nodup_singleton _, ?_⟩
    intro n hn m hm
    obtain ⟨a, ha, rfl⟩ := List.mem_map.mp hn
    obtain rfl : m = s.arrived := by simpa using hm
    exact (h.id_lt channel a ha).ne
  id_lt := by
    show ∀ c, ∀ a ∈ Function.update s.arrivals channel _ c, a.id < s.arrived + 1
    refine (Function.forall_update_iff s.arrivals fun _ l => ∀ a ∈ l, a.id < s.arrived + 1).mpr
      ⟨?_, fun c _ a ha => (h.id_lt c a ha).trans (Nat.lt_succ_self _)⟩
    intro a ha
    obtain ha | ha := List.mem_append.mp ha
    · exact (h.id_lt channel a ha).trans (Nat.lt_succ_self _)
    · obtain rfl := List.mem_singleton.mp ha
      exact Nat.lt_succ_self _
  slots := h.slots
  slot_lt r hr := (h.slot_lt r hr).trans (Nat.lt_succ_self _)

theorem Numbered.settle (h : Numbered s) : Numbered (s.settle channel id f) where
  ids := by
    refine (Function.forall_update_iff s.arrivals fun _ l => (l.map Arrival.id).Nodup).mpr
      ⟨?_, fun c _ => h.ids c⟩
    rw [map_id_settle]
    exact h.ids channel
  id_lt := by
    refine (Function.forall_update_iff s.arrivals fun _ l => ∀ a ∈ l, a.id < s.arrived).mpr
      ⟨?_, fun c _ => h.id_lt c⟩
    intro a ha
    obtain ⟨b, hb, rfl⟩ := List.mem_map.mp ha
    rw [Arrival.id_settle]
    exact h.id_lt channel b hb
  slots := h.slots
  slot_lt := h.slot_lt

theorem map_slot_updateReader (hg : ∀ r, (g r).slot = r.slot) :
    (s.updateReader id g).readers.map Reading.slot = s.readers.map Reading.slot := by
  simp only [updateReader, List.map_map]
  refine List.map_congr_left fun r _ => ?_
  simp only [Function.comp_apply]
  split_ifs
  · exact hg r
  · rfl

theorem Numbered.updateReader (h : Numbered s) (hg : ∀ r, (g r).slot = r.slot) :
    Numbered (s.updateReader id g) where
  ids := h.ids
  id_lt := h.id_lt
  slots := (map_slot_updateReader hg).symm ▸ h.slots
  slot_lt r hr := by
    have hmem : r.slot ∈ (s.updateReader id g).readers.map Reading.slot := List.mem_map_of_mem hr
    rw [map_slot_updateReader hg] at hmem
    obtain ⟨r', hr', hslot⟩ := List.mem_map.mp hmem
    exact hslot ▸ h.slot_lt r' hr'

/-! ### The invariant -/

/-- A task that reads and the message that it reads have the same bytes. -/
structure Linked (s : ParticipantConnection) : Prop where
  reading : ∀ r ∈ s.readers, r.ended = false →
    ∃ a ∈ s.arrivals r.channel, a.id = r.slot ∧ a.fate = .reading r.data
  read : ∀ c, ∀ a ∈ s.arrivals c, ∀ data, a.fate = .reading data →
    ∃ r ∈ s.readers, r.slot = a.id ∧ r.channel = c ∧ r.ended = false ∧ r.data = data

structure Opened (s : ParticipantConnection) : Prop where
  inbound : ∀ c, s.inbound c = waiting (s.arrivals c)
  linked : s.Linked
  bytes : s.inboundBytes = s.heldBytes
  bound : s.inboundBytes ≤ maxInboundBytes

/-- What every step preserves. -/
structure Inv (s : ParticipantConnection) : Prop where
  numbered : s.Numbered
  handed : ∀ c, s.handed c = ready (s.arrivals c)
  finished : s.closed → ∀ c, ∀ a ∈ s.arrivals c, a.finished
  few : s.readers.length ≤ maxOpenStreams
  opened : s.closed = false → s.Opened

/-- Before the messages of a topic are handed on whose turn has come. -/
structure Due (s : ParticipantConnection) (channel : Channel) : Prop where
  numbered : s.Numbered
  isOpen : s.closed = false
  line : ∃ P L, (∀ a ∈ P, a.finished) ∧ s.arrivals channel = P ++ L ∧
    s.inbound channel = L.filterMap Arrival.slot? ∧ s.handed channel = ready P
  inbound : ∀ c ≠ channel, s.inbound c = waiting (s.arrivals c)
  handed : ∀ c ≠ channel, s.handed c = ready (s.arrivals c)
  linked : s.Linked
  bytes : s.inboundBytes = s.heldBytes
  bound : s.inboundBytes ≤ maxInboundBytes
  few : s.readers.length ≤ maxOpenStreams

theorem heldBytes_update (channel : Channel) (queue : List Inbound) :
    heldBytes { s with inbound := Function.update s.inbound channel queue } + s.queued channel =
      s.heldBytes + (queue.map Inbound.size).sum := by
  cases channel <;> simp [heldBytes, queued] <;> omega

theorem heldBytes_deliver (h : s.closed = false) (channel : Channel) :
    (s.deliver channel).heldBytes + ((handOn (s.inbound channel)).2.map List.length).sum =
      s.heldBytes := by
  have hsize := size_handOn (s.inbound channel)
  have hupdate := heldBytes_update (s := s) channel (handOn (s.inbound channel)).1
  have hqueued : s.queued channel = ((s.inbound channel).map Inbound.size).sum := rfl
  rw [deliver_of_open h]
  show heldBytes { s with inbound := Function.update s.inbound channel _ } + _ = _
  omega

theorem Due.deliver (h : Due s channel) : Inv (s.deliver channel) := by
  obtain ⟨P, L, hP, harr, hin, hhanded⟩ := h.line
  have hline : handOn (s.inbound channel) = (waiting L, ready L) := by rw [hin, handOn_slots]
  have hheld := heldBytes_deliver h.isOpen channel
  rw [deliver_of_open h.isOpen, hline] at hheld ⊢
  exact
    { numbered := h.numbered.of_eq rfl rfl rfl
      handed := by
        intro c
        by_cases hc : c = channel
        · subst hc
          show Function.update s.handed c _ c = _
          rw [Function.update_self, hhanded, harr, ready_append hP]
        · show Function.update s.handed channel _ c = _
          rw [Function.update_of_ne hc, h.handed c hc]
      finished := fun hclosed => absurd (h.isOpen.symm.trans hclosed) Bool.false_ne_true
      few := h.few
      opened := fun _ =>
        { inbound := by
            intro c
            by_cases hc : c = channel
            · subst hc
              show Function.update s.inbound c _ c = _
              rw [Function.update_self, harr, waiting_append hP]
            · show Function.update s.inbound channel _ c = _
              rw [Function.update_of_ne hc, h.inbound c hc]
          linked := ⟨h.linked.reading, h.linked.read⟩
          bytes := by
            have hbytes := h.bytes
            simp only at hheld ⊢
            omega
          bound := by
            have hbound := h.bound
            simp only
            omega } }

/-! ### The steps -/

theorem heldBytes_push (channel : Channel) (slot : Inbound) :
    (s.push channel slot).heldBytes = s.heldBytes + slot.size := by
  have hupdate := heldBytes_update (s := s) channel (s.inbound channel ++ [slot])
  have hqueued : s.queued channel = ((s.inbound channel).map Inbound.size).sum := rfl
  rw [List.map_append, List.sum_append, List.map_singleton, List.sum_singleton] at hupdate
  unfold push
  omega

theorem heldBytes_updateReader (h : Numbered s) {r : Reading} (hr : r ∈ s.readers) :
    (s.updateReader r.slot g).heldBytes + r.size = s.heldBytes + (g r).size := by
  have hsum : ((s.updateReader r.slot g).readers.map Reading.size).sum + r.size =
      (s.readers.map Reading.size).sum + (g r).size := sum_map_update h.slots hr g Reading.size
  have hqueued : ∀ c, (s.updateReader r.slot g).queued c = s.queued c := fun _ => rfl
  unfold heldBytes
  rw [hqueued, hqueued]
  omega

theorem Opened.slot_mem (h : Opened s) {r : Reading} (hr : r ∈ s.readers)
    (hlive : r.ended = false) : ⟨r.slot, none, false⟩ ∈ s.inbound r.channel := by
  obtain ⟨a, ha, hid, hread⟩ := h.linked.reading r hr hlive
  have hdrop : a ∈ (s.arrivals r.channel).dropWhile Arrival.finished := by
    rw [← List.takeWhile_append_dropWhile (p := Arrival.finished) (l := s.arrivals r.channel)] at ha
    refine (List.mem_append.mp ha).resolve_left fun ha => ?_
    have hfinished := finished_of_mem_takeWhile ha
    simp [Arrival.finished, hread] at hfinished
  rw [h.inbound]
  refine List.mem_filterMap.mpr ⟨a, hdrop, ?_⟩
  simp [Arrival.slot?, hread, hid]

theorem heldBytes_fill (h : Opened s) (hn : Numbered s) {r : Reading} (hr : r ∈ s.readers)
    (hlive : r.ended = false) (data : Option Message) :
    (s.fill r.channel r.slot data).heldBytes = s.heldBytes + (data.getD []).length := by
  have hnodup : ((s.inbound r.channel).map Inbound.id).Nodup := by
    rw [h.inbound]
    exact (hn.ids r.channel).sublist
      (id_slots_sublist.trans ((List.dropWhile_sublist _).map Arrival.id))
  have hsum := sum_map_update hnodup (h.slot_mem hr hlive)
    (fun slot => { slot with data, done := true }) Inbound.size
  dsimp only at hsum
  have hupdate := heldBytes_update (s := s) r.channel
    ((s.inbound r.channel).map fun slot =>
      if slot.id = r.slot then { slot with data, done := true } else slot)
  have hempty : Inbound.size ⟨r.slot, none, false⟩ = 0 := rfl
  have hfilled : Inbound.size ⟨r.slot, data, true⟩ = (data.getD []).length := rfl
  have hqueued : s.queued r.channel = ((s.inbound r.channel).map Inbound.size).sum := rfl
  unfold fill
  omega

theorem Linked.arrive (h : Linked s) (hfate : ∀ data, fate ≠ .reading data) :
    Linked (s.arrive channel fate) where
  reading r hr hlive := by
    obtain ⟨a, ha, hid, hread⟩ := h.reading r hr hlive
    refine ⟨a, ?_, hid, hread⟩
    show a ∈ Function.update s.arrivals channel _ r.channel
    by_cases hc : r.channel = channel
    · rw [← hc, Function.update_self]
      exact List.mem_append_left _ ha
    · rwa [Function.update_of_ne hc]
  read c a ha data hread := by
    have ha' : a ∈ Function.update s.arrivals channel _ c := ha
    by_cases hc : c = channel
    · rw [hc, Function.update_self] at ha'
      obtain ha' | ha' := List.mem_append.mp ha'
      · exact h.read c a (hc ▸ ha') data hread
      · obtain rfl := List.mem_singleton.mp ha'
        exact absurd hread (hfate data)
    · rw [Function.update_of_ne hc] at ha'
      exact h.read c a ha' data hread

theorem Inv.arrive_refused (h : Inv s) : Inv (s.arrive channel .refused) where
  numbered := h.numbered.arrive
  handed := by
    intro c
    show s.handed c = ready (Function.update s.arrivals channel _ c)
    by_cases hc : c = channel
    · rw [hc, Function.update_self, ready_congr slots_concat_refused]
      exact h.handed channel
    · rw [Function.update_of_ne hc]
      exact h.handed c
  finished := by
    intro hclosed
    refine (Function.forall_update_iff s.arrivals fun _ l => ∀ a ∈ l, a.finished = true).mpr
      ⟨?_, fun c _ => h.finished hclosed c⟩
    intro a ha
    obtain ha | ha := List.mem_append.mp ha
    · exact h.finished hclosed channel a ha
    · obtain rfl := List.mem_singleton.mp ha
      rfl
  few := h.few
  opened := fun hopen =>
    { inbound := by
        intro c
        show s.inbound c = waiting (Function.update s.arrivals channel _ c)
        by_cases hc : c = channel
        · rw [hc, Function.update_self, waiting_congr slots_concat_refused]
          exact (h.opened hopen).inbound channel
        · rw [Function.update_of_ne hc]
          exact (h.opened hopen).inbound c
      linked := (h.opened hopen).linked.arrive fun _ => Fate.noConfusion
      bytes := (h.opened hopen).bytes
      bound := (h.opened hopen).bound }

theorem Inv.receivePacket (h : Inv s) {data : Message} : Inv (s.receivePacket data channel) := by
  unfold ParticipantConnection.receivePacket
  split_ifs with hclosed
  · exact h.arrive_refused
  have hopen : s.closed = false := by simpa using hclosed
  cases hheld : s.hold data.length with
  | none => exact h.arrive_refused
  | some held =>
    obtain ⟨hbound, rfl⟩ := hold_eq_some hheld
    have ho := h.opened hopen
    refine Due.deliver ?_
    exact
      { numbered := Numbered.arrive (h.numbered.of_eq rfl rfl rfl)
        isOpen := hopen
        line := by
          refine ⟨(s.arrivals channel).takeWhile Arrival.finished,
            (s.arrivals channel).dropWhile Arrival.finished ++ [⟨s.arrived, .whole data⟩],
            fun a => finished_of_mem_takeWhile, ?_, ?_, ?_⟩
          · show Function.update s.arrivals channel _ channel = _
            rw [Function.update_self, ← List.append_assoc, List.takeWhile_append_dropWhile]
            rfl
          · show Function.update s.inbound channel _ channel = _
            rw [Function.update_self, ho.inbound, List.filterMap_append]
            rfl
          · rw [ready_takeWhile]
            exact h.handed channel
        inbound := by
          intro c hc
          show Function.update s.inbound channel _ c =
            waiting (Function.update s.arrivals channel _ c)
          rw [Function.update_of_ne hc, Function.update_of_ne hc]
          exact ho.inbound c
        handed := by
          intro c hc
          show s.handed c = ready (Function.update s.arrivals channel _ c)
          rw [Function.update_of_ne hc]
          exact h.handed c
        linked := Linked.arrive ⟨ho.linked.reading, ho.linked.read⟩ fun _ => Fate.noConfusion
        bytes := by
          have hpush := heldBytes_push (s := s) channel ⟨s.arrived, some data, true⟩
          have hsize : Inbound.size ⟨s.arrived, some data, true⟩ = data.length := rfl
          have hbytes := ho.bytes
          show s.inboundBytes + _ = ((s.push channel _).heldBytes : ℤ)
          omega
        bound := hbound
        few := h.few }

/-- A stream opens: its message waits until the stream ends. -/
theorem Inv.receiveStream (h : Inv s) {size : Option ℕ} : Inv (s.receiveStream size channel) := by
  unfold ParticipantConnection.receiveStream
  split_ifs with hrefused
  · exact h.arrive_refused
  · exact h.arrive_refused
  simp only [Bool.or_eq_true, decide_eq_true_eq, not_or, Bool.not_eq_true, not_le] at hrefused
  obtain ⟨hopen, hroom⟩ := hrefused
  have ho := h.opened hopen
  have hn : Numbered ((s.push channel ⟨s.arrived, none, false⟩).arrive channel (.reading [])) :=
    Numbered.arrive (h.numbered.of_eq rfl rfl rfl)
  exact
    { numbered :=
        { ids := hn.ids
          id_lt := hn.id_lt
          slots := by
            show ((s.readers ++ [_]).map Reading.slot).Nodup
            rw [List.map_append, List.nodup_append]
            refine ⟨h.numbered.slots, List.nodup_singleton _, ?_⟩
            intro n hslot m hm
            obtain ⟨r, hr, rfl⟩ := List.mem_map.mp hslot
            obtain rfl : m = s.arrived := by simpa using hm
            exact (h.numbered.slot_lt r hr).ne
          slot_lt := by
            intro r hr
            obtain hr | hr := List.mem_append.mp hr
            · exact (h.numbered.slot_lt r hr).trans (Nat.lt_succ_self _)
            · obtain rfl := List.mem_singleton.mp hr
              exact Nat.lt_succ_self _ }
      handed := by
        intro c
        show s.handed c = ready (Function.update s.arrivals channel _ c)
        by_cases hc : c = channel
        · rw [hc, Function.update_self]
          exact (h.handed channel).trans ready_concat_reading.symm
        · rw [Function.update_of_ne hc]
          exact h.handed c
      finished := fun hclosed => absurd (hopen.symm.trans hclosed) Bool.false_ne_true
      few := by
        show (s.readers ++ [_]).length ≤ maxOpenStreams
        rw [List.length_append]
        exact hroom
      opened := fun _ =>
        { inbound := by
            intro c
            show Function.update s.inbound channel _ c =
              waiting (Function.update s.arrivals channel _ c)
            by_cases hc : c = channel
            · rw [hc, Function.update_self, Function.update_self, ho.inbound]
              exact waiting_concat_reading.symm
            · rw [Function.update_of_ne hc, Function.update_of_ne hc]
              exact ho.inbound c
          linked :=
            { reading := by
                intro r hr hlive
                obtain hr | hr := List.mem_append.mp hr
                · obtain ⟨a, ha, hread⟩ := ho.linked.reading r hr hlive
                  refine ⟨a, ?_, hread⟩
                  show a ∈ Function.update s.arrivals channel _ r.channel
                  by_cases hc : r.channel = channel
                  · rw [← hc, Function.update_self]
                    exact List.mem_append_left _ ha
                  · rwa [Function.update_of_ne hc]
                · obtain rfl := List.mem_singleton.mp hr
                  refine ⟨⟨s.arrived, .reading []⟩, ?_, rfl, rfl⟩
                  show _ ∈ Function.update s.arrivals channel _ channel
                  rw [Function.update_self]
                  exact List.mem_append_right _ (List.mem_singleton.mpr rfl)
              read := by
                intro c a ha data hread
                have ha' : a ∈ Function.update s.arrivals channel _ c := ha
                have hold : a ∈ s.arrivals c → ∃ r ∈ s.readers ++ [⟨s.arrived, channel, [], false⟩],
                    r.slot = a.id ∧ r.channel = c ∧ r.ended = false ∧ r.data = data := by
                  intro ha
                  obtain ⟨r, hr, hlink⟩ := ho.linked.read c a ha data hread
                  exact ⟨r, List.mem_append_left _ hr, hlink⟩
                by_cases hc : c = channel
                · rw [hc, Function.update_self] at ha'
                  obtain ha' | ha' := List.mem_append.mp ha'
                  · exact hold (hc ▸ ha')
                  · obtain rfl := List.mem_singleton.mp ha'
                    exact ⟨⟨s.arrived, channel, [], false⟩,
                      List.mem_append_right _ (List.mem_singleton.mpr rfl), rfl, hc.symm, rfl,
                      Fate.reading.inj hread⟩
                · rw [Function.update_of_ne hc] at ha'
                  exact hold ha' }
          bytes := by
            have hpush := heldBytes_push (s := s) channel ⟨s.arrived, none, false⟩
            have hsize : Inbound.size ⟨s.arrived, none, false⟩ = 0 := rfl
            have hbytes := ho.bytes
            have hreader : Reading.size ⟨s.arrived, channel, [], false⟩ = 0 := rfl
            show s.inboundBytes = ((_ + ((s.readers ++ [_]).map Reading.size).sum : ℕ) : ℤ)
            rw [List.map_append, List.sum_append, List.map_singleton, List.sum_singleton, hreader]
            show s.inboundBytes = ((s.push channel _).heldBytes : ℤ)
            omega
          bound := ho.bound } }

/-! ### A task that reads -/

section Reads

variable {r : Reading}

theorem mem_arrivals_settle {a : Arrival} (ha : a ∈ s.arrivals c) :
    (if c = channel then a.settle id f else a) ∈ (s.settle channel id f).arrivals c := by
  show _ ∈ Function.update s.arrivals channel _ c
  split_ifs with hc
  · rw [hc, Function.update_self]
    exact List.mem_map_of_mem (hc ▸ ha)
  · rwa [Function.update_of_ne hc]

theorem of_mem_arrivals_settle {a : Arrival} (ha : a ∈ (s.settle channel id f).arrivals c) :
    ∃ b ∈ s.arrivals c, a = if c = channel then b.settle id f else b := by
  have ha' : a ∈ Function.update s.arrivals channel _ c := ha
  split_ifs with hc
  · rw [hc, Function.update_self] at ha'
    obtain ⟨b, hb, rfl⟩ := List.mem_map.mp ha'
    exact ⟨b, hc ▸ hb, rfl⟩
  · rw [Function.update_of_ne hc] at ha'
    exact ⟨a, ha', rfl⟩

/-- What the task and the message that it reads for become together. -/
theorem Linked.update (h : Linked s) (hn : Numbered s) (hr : r ∈ s.readers)
    (hlive : r.ended = false) (hslot : (g r).slot = r.slot) (hchannel : (g r).channel = r.channel)
    (hfate : ∀ data, f r.data = .reading data ↔ (g r).ended = false ∧ (g r).data = data) :
    Linked ((s.updateReader r.slot g).settle r.channel r.slot f) := by
  obtain ⟨a, ha, hid, hread⟩ := h.reading r hr hlive
  have hothers : ∀ r' ∈ s.readers, r'.slot = r.slot → r' = r :=
    fun r' hr' => eq_of_key_eq hn.slots hr' hr
  constructor
  · intro r' hr' hlive'
    obtain ⟨b, hb, rfl⟩ := List.mem_map.mp hr'
    by_cases hbr : b.slot = r.slot
    · obtain rfl := hothers b hb hbr
      simp only [if_true] at hlive' ⊢
      refine ⟨_, mem_arrivals_settle (hchannel ▸ ha), ?_, ?_⟩
      · rw [hchannel, if_pos rfl, Arrival.id_settle, hid, hslot]
      · rw [hchannel, if_pos rfl, Arrival.settle_of_reading hid hread]
        exact (hfate _).mpr ⟨hlive', rfl⟩
    · simp only [if_neg hbr] at hlive' ⊢
      obtain ⟨a', ha', hid', hread'⟩ := h.reading b hb hlive'
      have hsame : (if b.channel = r.channel then a'.settle r.slot f else a') = a' := by
        rw [Arrival.settle_of_ne (hid' ▸ hbr), ite_self]
      exact ⟨a', hsame ▸ mem_arrivals_settle ha', hid', hread'⟩
  · intro c a' ha' data hread'
    obtain ⟨b, hb, rfl⟩ := of_mem_arrivals_settle ha'
    by_cases hbr : c = r.channel ∧ b.id = r.slot
    · obtain ⟨rfl, hbr⟩ := hbr
      obtain rfl := eq_of_key_eq (hn.ids r.channel) hb ha (hbr.trans hid.symm)
      rw [if_pos rfl, Arrival.settle_of_reading hid hread] at hread'
      obtain ⟨hlive', hdata⟩ := (hfate data).mp hread'
      refine ⟨g r, List.mem_map.mpr ⟨r, hr, if_pos rfl⟩, ?_, hchannel, hlive', hdata⟩
      rw [if_pos rfl, Arrival.id_settle, hid, hslot]
    · have hsame : (if c = r.channel then b.settle r.slot f else b) = b := by
        split_ifs with hc
        · exact Arrival.settle_of_ne fun hbid => hbr ⟨hc, hbid⟩
        · rfl
      rw [hsame] at hread' ⊢
      obtain ⟨r', hr', hid', hchannel', hlive', hdata⟩ := h.read c b hb data hread'
      have hne : r'.slot ≠ r.slot := by
        intro heq
        obtain rfl := hothers r' hr' heq
        exact hbr ⟨hchannel'.symm, hid'.symm⟩
      exact ⟨r', List.mem_map.mpr ⟨r', hr', if_neg hne⟩, hid', hchannel', hlive', hdata⟩

theorem Inv.readOn (h : Inv s) (hopen : s.closed = false) (hr : r ∈ s.readers)
    (hlive : r.ended = false) {chunk : Message}
    (hbound : s.inboundBytes + chunk.length ≤ maxInboundBytes) :
    Inv ((updateReader { s with inboundBytes := s.inboundBytes + chunk.length } r.slot
      fun r => { r with data := r.data ++ chunk }).settle r.channel r.slot
        fun sent => .reading (sent ++ chunk)) := by
  have ho := h.opened hopen
  have hslots := slots_settle r.slot (s.arrivals r.channel)
    (f := fun sent => .reading (sent ++ chunk)) fun sent => ⟨sent ++ chunk, rfl⟩
  have hn : Numbered { s with inboundBytes := s.inboundBytes + chunk.length } :=
    h.numbered.of_eq rfl rfl rfl
  exact
    { numbered := Numbered.settle (hn.updateReader
        (g := fun r => { r with data := r.data ++ chunk }) fun _ => rfl)
      handed := by
        intro c
        show s.handed c = ready (Function.update s.arrivals r.channel _ c)
        by_cases hc : c = r.channel
        · rw [hc, Function.update_self]
          exact (h.handed r.channel).trans (ready_congr hslots).symm
        · rw [Function.update_of_ne hc]
          exact h.handed c
      finished := fun hclosed => absurd (hopen.symm.trans hclosed) Bool.false_ne_true
      few := (List.length_map _).trans_le h.few
      opened := fun _ =>
        { inbound := by
            intro c
            show s.inbound c = waiting (Function.update s.arrivals r.channel _ c)
            by_cases hc : c = r.channel
            · rw [hc, Function.update_self]
              exact (ho.inbound r.channel).trans (waiting_congr hslots).symm
            · rw [Function.update_of_ne hc]
              exact ho.inbound c
          linked := by
            have hlinked := ho.linked.update h.numbered hr hlive
              (g := fun r => { r with data := r.data ++ chunk })
              (f := fun sent => .reading (sent ++ chunk)) rfl rfl fun data =>
                ⟨fun heq => ⟨hlive, Fate.reading.inj heq⟩, fun heq => congrArg _ heq.2⟩
            exact ⟨hlinked.reading, hlinked.read⟩
          bytes := by
            have hupdate := heldBytes_updateReader h.numbered hr
              (g := fun r => { r with data := r.data ++ chunk })
            have hbytes := ho.bytes
            simp only [Reading.size, hlive, List.length_append] at hupdate
            show s.inboundBytes + _ = ((s.updateReader r.slot _).heldBytes : ℤ)
            simp at hupdate
            omega
          bound := hbound } }

theorem Opened.slots_fill (h : Opened s) (hn : Numbered s) (hr : r ∈ s.readers)
    (hlive : r.ended = false)
    (hf : Arrival.slot? ⟨r.slot, f r.data⟩ = some ⟨r.slot, data, true⟩) :
    (s.fill r.channel r.slot data).inbound r.channel =
      (((s.arrivals r.channel).dropWhile Arrival.finished).map
        (Arrival.settle r.slot f)).filterMap Arrival.slot? := by
  obtain ⟨a, ha, hid, hread⟩ := h.linked.reading r hr hlive
  show Function.update s.inbound r.channel _ r.channel = _
  rw [Function.update_self, h.inbound]
  refine LiveKit.slots_fill r.data (fun b hb hbid => ?_) hf
  obtain rfl := eq_of_key_eq (hn.ids r.channel) ((List.dropWhile_sublist _).mem hb) ha
    (hbid.trans hid.symm)
  exact hread

/-- Before a stream that has ended is handed on, or given up. -/
theorem Inv.due (h : Inv s) (hopen : s.closed = false) (hr : r ∈ s.readers)
    (hlive : r.ended = false) (data : Option Message) {bytes : ℤ}
    (hf : Arrival.slot? ⟨r.slot, f r.data⟩ = some ⟨r.slot, data, true⟩)
    (hend : ∀ sent, f r.data ≠ .reading sent)
    (hbytes : bytes + r.data.length = s.inboundBytes + (data.getD []).length)
    (hdata : (data.getD []).length ≤ r.data.length) :
    Due ({ (s.fill r.channel r.slot data).updateReader r.slot fun r => { r with ended := true } with
      inboundBytes := bytes }.settle r.channel r.slot f) r.channel := by
  have ho := h.opened hopen
  have hn : Numbered ({ (s.fill r.channel r.slot data).updateReader r.slot
      fun r => { r with ended := true } with inboundBytes := bytes }) :=
    (h.numbered.updateReader (g := fun r => { r with ended := true }) fun _ => rfl).of_eq
      rfl rfl rfl
  exact
    { numbered := hn.settle
      isOpen := hopen
      line := by
        refine ⟨(s.arrivals r.channel).takeWhile Arrival.finished,
          ((s.arrivals r.channel).dropWhile Arrival.finished).map (Arrival.settle r.slot f),
          fun a => finished_of_mem_takeWhile, ?_, ho.slots_fill h.numbered hr hlive hf, ?_⟩
        · show Function.update s.arrivals r.channel _ r.channel = _
          rw [Function.update_self]
          exact map_settle_eq
        · rw [ready_takeWhile]
          exact h.handed r.channel
      inbound := by
        intro c hc
        show Function.update s.inbound r.channel _ c =
          waiting (Function.update s.arrivals r.channel _ c)
        rw [Function.update_of_ne hc, Function.update_of_ne hc]
        exact ho.inbound c
      handed := by
        intro c hc
        show s.handed c = ready (Function.update s.arrivals r.channel _ c)
        rw [Function.update_of_ne hc]
        exact h.handed c
      linked := by
        have hlinked := ho.linked.update h.numbered hr hlive
          (g := fun r => { r with ended := true }) (f := f) rfl rfl fun sent =>
            ⟨fun heq => absurd heq (hend sent), fun heq => Bool.noConfusion heq.1⟩
        exact ⟨hlinked.reading, hlinked.read⟩
      bytes := by
        have hfill := heldBytes_fill ho h.numbered hr hlive data
        have hupdate := heldBytes_updateReader (s := s.fill r.channel r.slot data)
          (h.numbered.of_eq rfl rfl rfl) hr (g := fun r => { r with ended := true })
        have hsize : Reading.size r = r.data.length := by simp [Reading.size, hlive]
        have hended : Reading.size { r with ended := true } = 0 := by simp [Reading.size]
        have hheld := ho.bytes
        show bytes = (((s.fill r.channel r.slot data).updateReader r.slot _).heldBytes : ℤ)
        omega
      bound := by
        have hbound := ho.bound
        show bytes ≤ _
        omega
      few := (List.length_map _).trans_le h.few }

theorem endReading_of_closed (h : s.closed) {whole : Bool} : s.endReading r whole =
    (s.fill r.channel r.slot (if whole then some r.data else none)).updateReader r.slot
      fun r => { r with ended := true } :=
  if_pos h

theorem endReading_of_open (h : ¬s.closed) {whole : Bool} : s.endReading r whole =
    ({ (s.fill r.channel r.slot (if whole then some r.data else none)).updateReader r.slot
        fun r => { r with ended := true } with
      inboundBytes := if whole then s.inboundBytes else s.inboundBytes - r.data.length }.settle
        r.channel r.slot fun sent => if whole then .whole sent else .failed).deliver r.channel := by
  cases whole <;> exact if_neg h

theorem Inv.endReading (h : Inv s) (hr : r ∈ s.readers) (hlive : r.ended = false) {whole : Bool} :
    Inv (s.endReading r whole) := by
  by_cases hclosed : s.closed = true
  · rw [endReading_of_closed hclosed]
    exact
      { numbered := (h.numbered.updateReader (g := fun r => { r with ended := true })
          fun _ => rfl).of_eq rfl rfl rfl
        handed := h.handed
        finished := fun _ => h.finished hclosed
        few := (List.length_map _).trans_le h.few
        opened := fun hopen => absurd (hopen.symm.trans hclosed) Bool.false_ne_true }
  · have hopen : s.closed = false := by simpa using hclosed
    rw [endReading_of_open hclosed]
    refine Due.deliver ?_
    cases whole with
    | true =>
      exact h.due hopen hr hlive (some r.data) rfl (fun _ => Fate.noConfusion) rfl le_rfl
    | false =>
      refine h.due hopen hr hlive none rfl (fun _ => Fate.noConfusion) ?_ (Nat.zero_le _)
      simp

theorem Inv.readChunk (h : Inv s) (hopen : s.closed = false) (hr : r ∈ s.readers)
    (hlive : r.ended = false) {chunk : Message} : Inv (s.readChunk r chunk) := by
  unfold ParticipantConnection.readChunk
  split_ifs
  · exact h.endReading hr hlive
  cases hheld : s.hold chunk.length with
  | none => exact h.endReading hr hlive
  | some held =>
    obtain ⟨hbound, rfl⟩ := hold_eq_some hheld
    exact h.readOn hopen hr hlive hbound

theorem of_reader? (h : s.reader? id = some r) : r ∈ s.readers ∧ r.slot = id ∧ r.ended = false := by
  have hr := List.find?_some h
  simp only [Bool.and_eq_true, decide_eq_true_eq, Bool.not_eq_true'] at hr
  exact ⟨List.mem_of_find?_eq_some h, hr⟩

end Reads

/-! ### The close -/

section Close

variable {l : List Arrival}

theorem map_id_closeLine : (closeLine l).map Arrival.id = l.map Arrival.id := by
  have hdrop : ∀ a : Arrival, a.drop.id = a.id := by
    intro a
    unfold Arrival.drop
    cases a.fate <;> rfl
  unfold closeLine
  conv_rhs => rw [← List.takeWhile_append_dropWhile (p := Arrival.finished) (l := l)]
  rw [List.map_append, List.map_append, List.map_map]
  exact congrArg _ (List.map_congr_left fun a _ => hdrop a)

theorem finished_closeLine {a : Arrival} (ha : a ∈ closeLine l) : a.finished := by
  obtain ha | ha := List.mem_append.mp ha
  · exact finished_of_mem_takeWhile ha
  · obtain ⟨b, _, rfl⟩ := List.mem_map.mp ha
    unfold Arrival.drop Arrival.finished
    cases hfate : b.fate <;> simp [hfate]

theorem ready_closeLine : ready (closeLine l) = ready l := by
  have hcut : ready ((l.dropWhile Arrival.finished).map Arrival.drop) = [] := by
    unfold ready
    refine List.filterMap_eq_nil_iff.mpr fun a ha => ?_
    obtain ⟨b, _, rfl⟩ := List.mem_map.mp ((List.takeWhile_sublist _).mem ha)
    unfold Arrival.drop Arrival.message
    cases hfate : b.fate <;> simp [hfate]
  unfold closeLine
  rw [ready_append fun a => finished_of_mem_takeWhile, hcut, List.append_nil, ready_takeWhile]

end Close

theorem Inv.drop (h : Inv s) : Inv s.drop where
  numbered :=
    { ids := by
        intro c
        show ((closeLine (s.arrivals c)).map Arrival.id).Nodup
        rw [map_id_closeLine]
        exact h.numbered.ids c
      id_lt := by
        intro c a ha
        have hid : a.id ∈ (closeLine (s.arrivals c)).map Arrival.id := List.mem_map_of_mem ha
        rw [map_id_closeLine] at hid
        obtain ⟨b, hb, hba⟩ := List.mem_map.mp hid
        exact hba ▸ h.numbered.id_lt c b hb
      slots := h.numbered.slots
      slot_lt := h.numbered.slot_lt }
  handed c := (h.handed c).trans ready_closeLine.symm
  finished _ _ _ := finished_closeLine
  few := h.few
  opened hopen := absurd hopen Bool.noConfusion

theorem Inv.close (h : Inv s) : Inv s.close := by
  unfold ParticipantConnection.close
  split_ifs
  · exact h
  · exact h.drop

theorem Inv.taskDone (h : Inv s) (hdone : s.readers.any fun r => r.slot = id && r.ended) :
    Inv { s with readers := s.readers.filter fun r => r.slot ≠ id } := by
  obtain ⟨r, hr, hrid⟩ := List.any_eq_true.mp hdone
  simp only [Bool.and_eq_true, decide_eq_true_eq] at hrid
  obtain ⟨rfl, hended⟩ := hrid
  have hothers : ∀ r' ∈ s.readers, r'.slot = r.slot → r'.ended = true := by
    intro r' hr' hslot
    obtain rfl := eq_of_key_eq h.numbered.slots hr' hr hslot
    exact hended
  exact
    { numbered :=
        { ids := h.numbered.ids
          id_lt := h.numbered.id_lt
          slots := nodup_key_filter h.numbered.slots _
          slot_lt := fun r' hr' => h.numbered.slot_lt r' (List.mem_of_mem_filter hr') }
      handed := h.handed
      finished := h.finished
      few := (List.length_filter_le _ _).trans h.few
      opened := fun hopen =>
        have ho := h.opened hopen
        { inbound := ho.inbound
          linked :=
            { reading := fun r' hr' => ho.linked.reading r' (List.mem_of_mem_filter hr')
              read := by
                intro c a ha data hread
                obtain ⟨r', hr', hid, hchannel, hlive, hdata⟩ := ho.linked.read c a ha data hread
                refine ⟨r', List.mem_filter.mpr ⟨hr', decide_eq_true fun hslot => ?_⟩, hid,
                  hchannel, hlive, hdata⟩
                exact Bool.false_ne_true (hlive.symm.trans (hothers r' hr' hslot)) }
          bytes := by
            have hsum := sum_map_filter (l := s.readers) (w := Reading.size)
              (p := fun r' => r'.slot ≠ r.slot) fun r' hr' hslot => by
                rw [Reading.size, if_pos (hothers r' hr' (by simpa using hslot))]
            have hbytes := ho.bytes
            show s.inboundBytes = ((_ + _ + ((s.readers.filter _).map Reading.size).sum : ℕ) : ℤ)
            rw [hsum]
            exact hbytes
          bound := ho.bound } }

/-! ### Whole runs -/

theorem Inv.step (h : Inv s) {l : Label} (hstep : s.step l = some s') : Inv s' := by
  cases l with
  | packet data channel =>
    cases hstep
    exact h.receivePacket
  | stream size channel =>
    cases hstep
    exact h.receiveStream
  | chunk id data =>
    simp only [ParticipantConnection.step] at hstep
    split_ifs at hstep with hclosed
    obtain ⟨r, hr, rfl⟩ := Option.map_eq_some_iff.mp hstep
    obtain ⟨hmem, _, hlive⟩ := of_reader? hr
    exact h.readChunk (by simpa using hclosed) hmem hlive
  | streamEnds id =>
    simp only [ParticipantConnection.step] at hstep
    split_ifs at hstep
    obtain ⟨r, hr, rfl⟩ := Option.map_eq_some_iff.mp hstep
    obtain ⟨hmem, _, hlive⟩ := of_reader? hr
    exact h.endReading hmem hlive
  | readFails id =>
    obtain ⟨r, hr, rfl⟩ := Option.map_eq_some_iff.mp hstep
    obtain ⟨hmem, _, hlive⟩ := of_reader? hr
    exact h.endReading hmem hlive
  | taskDone id =>
    simp only [ParticipantConnection.step] at hstep
    split_ifs at hstep with hdone
    cases hstep
    exact h.taskDone hdone
  | close =>
    cases hstep
    exact h.close
  | drop =>
    cases hstep
    exact h.drop

theorem isInvariant_inv : participantConnections.IsInvariant Inv where
  init :=
    { numbered := ⟨fun _ => List.nodup_nil, fun _ _ ha => absurd ha List.not_mem_nil,
        List.nodup_nil, fun _ hr => absurd hr List.not_mem_nil⟩
      handed := fun _ => rfl
      finished := fun hclosed => absurd hclosed Bool.false_ne_true
      few := Nat.zero_le _
      opened := fun _ =>
        { inbound := fun _ => rfl
          linked :=
            ⟨fun _ hr => absurd hr List.not_mem_nil, fun _ _ ha => absurd ha List.not_mem_nil⟩
          bytes := rfl
          bound := Int.natCast_nonneg _ } }
  step _ _ _ h hstep := h.step hstep

theorem step_closed (h : s.closed) {l : Label} (hstep : s.step l = some s') :
    s'.closed ∧ s'.handed = s.handed := by
  cases l with
  | packet data channel =>
    cases hstep
    rw [receivePacket, if_pos h]
    exact ⟨h, rfl⟩
  | stream size channel =>
    cases hstep
    rw [receiveStream, if_pos (by simp [h])]
    exact ⟨h, rfl⟩
  | chunk id data =>
    simp only [ParticipantConnection.step, if_pos h] at hstep
    cases hstep
  | streamEnds id =>
    simp only [ParticipantConnection.step, if_pos h] at hstep
    cases hstep
  | readFails id =>
    obtain ⟨r, _, rfl⟩ := Option.map_eq_some_iff.mp hstep
    rw [endReading_of_closed h]
    exact ⟨h, rfl⟩
  | taskDone id =>
    simp only [ParticipantConnection.step] at hstep
    split_ifs at hstep
    cases hstep
    exact ⟨h, rfl⟩
  | close =>
    cases hstep
    rw [ParticipantConnection.close, if_pos h]
    exact ⟨h, rfl⟩
  | drop =>
    cases hstep
    exact ⟨rfl, rfl⟩

theorem runFrom_closed {ls : List Label} (h : s.closed)
    (hrun : participantConnections.runFrom s ls = some s') : s'.handed = s.handed := by
  induction ls generalizing s with
  | nil =>
    cases hrun
    rfl
  | cons l ls ih =>
    obtain ⟨t, hstep, hrest⟩ := Option.bind_eq_some_iff.mp hrun
    obtain ⟨hclosed, hhanded⟩ := step_closed h hstep
    exact (ih hclosed hrest).trans hhanded

/-- What a participant sends reaches the session in order and within the budget. -/
structure Arrives (s : ParticipantConnection) : Prop where
  /-- What was handed on is what arrived whole, up to the first message that is not finished. -/
  handed : ∀ c, s.handed c = ready (s.arrivals c)
  /-- A message that is not finished has a stream that is being read. -/
  unfinished : ∀ c, ∀ a ∈ s.arrivals c, ∀ data, a.fate = .reading data →
    s.closed = false ∧ ∃ r ∈ s.readers, r.slot = a.id ∧ r.ended = false ∧ r.data = data
  bytes : s.closed = false → s.inboundBytes = s.heldBytes
  bound : s.closed = false → 0 ≤ s.inboundBytes ∧ s.inboundBytes ≤ maxInboundBytes
  streams : s.readers.countP (fun r => !r.ended) ≤ maxOpenStreams
  /-- Nothing is handed on after the close, when every message is finished. -/
  silent : s.closed → (∀ c, s.handed c = (s.arrivals c).filterMap Arrival.message) ∧
    ∀ ls s', participantConnections.runFrom s ls = some s' → s'.handed = s.handed

/-- A packet waits for a stream that opened before it, and is handed on after it; another stream is
still open at the close. -/
def streamThenPacket : List Label :=
  [.stream none .data, .chunk 0 [1, 2], .packet [3] .data, .packet [4] .control, .chunk 0 [5],
    .streamEnds 0, .taskDone 0, .stream (some 9) .data, .packet [6] .data, .close]

theorem isSome_streamThenPacket : (participantConnections.run streamThenPacket).isSome := rfl

end ParticipantConnection

end ReactorRuntime.LiveKit
