import Mathlib.Data.List.Nodup
import Std.Data.String.ToNat
import ReactorRuntime.SharedMemory.Link

/-!
# What the model server reads is what was packed

A header that was not read to its end names a block, and nothing but the packing of a step writes
into one.  So the arrays of a step arrive as they were packed as long as no step is packed into a
block that such a header names.  `ModelClient.step` sees to that by moving to a fresh block with
each cancel, except where the replacement cannot be allocated: then it goes on in the same block.

* `steps_delivered_as_packed`: if the model server has read the header of each step whose cancel
  could not be sent before the next step is packed, every step it delivers has the arrays that were
  packed for it, and every step it skips was cancelled.
* `step_delivered_torn`: otherwise it may deliver a step with the arrays of the next one.
-/

namespace ReactorRuntime.SharedMemory

open ReactorRuntime.Lists

/-! ### Names of blocks -/

def rotatedName (basePrefix : String) (rotations : ℕ) : String :=
  basePrefix ++ "r" ++ toString rotations ++ "_" ++ "0"

theorem rotatedName_injective (basePrefix : String) :
    Function.Injective (rotatedName basePrefix) := by
  intro m n h
  simpa [rotatedName, String.append_assoc] using h

theorem rotatedName_ne (basePrefix : String) (rotations : ℕ) :
    rotatedName basePrefix rotations ≠ basePrefix ++ "0" := by
  intro h
  have hlength := congrArg String.length h
  simp only [rotatedName, String.length_append] at hlength
  have : "r".length = 1 ∧ "_".length = 1 := ⟨rfl, rfl⟩
  omega

/-! ### The invariant -/

def Frame.step? : Frame → Option (ℕ × Header)
  | .step requestId header => some (requestId, header)
  | _ => none

def Reader.step? : Reader → Option (ℕ × Header)
  | .attaching requestId header => some (requestId, header)
  | .copying requestId header _ _ => some (requestId, header)
  | _ => none

def Link.unread (s : Link) : List (ℕ × Header) :=
  s.reader.step?.toList ++ s.stream.filterMap Frame.step?

/-- The step whose header may name the block that is written next. -/
def Caller.Current : Caller → ℕ → Prop
  | .gaveUp, _ => True
  | .waiting current, requestId => requestId = current
  | .timedOut current, requestId => requestId = current
  | .allocating current, requestId => requestId = current
  | .replacing current _, requestId => requestId = current
  | .idle, _ => False
  | .packing _ _ _ _, _ => False

/-- The slot's block is there, and never grows. -/
structure SharedSlot.Ready (slot : SharedSlot) (blocks : Blocks) : Prop where
  fixed : slot.maxBytes = some slot.capacity
  block : ∃ block, blocks slot.name = some block ∧ block.linked ∧
    block.bytes.length = slot.capacity

/-- The buffers handed out so far are in the block, before the cursor. -/
structure Packing.Holds (packing : Packing) (slot : SharedSlot) (blocks : Blocks)
    (buffers : List Bytes) : Prop where
  read : packing.spans.map (blocks.copy slot.name) = buffers
  before : ∀ span ∈ packing.spans, span.offset + span.length ≤ slot.cursor
  cursor : slot.cursor ≤ slot.capacity

/-- Every header that was not read to its end still describes the arrays that were packed, and only
the step of the current call may be in the block that is written next. -/
structure Link.Intact (s : Link) : Prop where
  fresh : ∀ n, s.rotations < n → s.blocks (rotatedName s.basePrefix n) = none
  writer : s.writer.Ready s.blocks
  retired : ∀ slot ∈ s.retired, slot.name ≠ s.writer.name
  replacement : ∀ requestId slot, s.caller = .replacing requestId slot → slot.Ready s.blocks ∧
    slot.name ≠ s.writer.name ∧ ∀ p ∈ s.unread, p.2.name ≠ slot.name
  created : ∀ p ∈ s.unread, s.blocks p.2.name ≠ none
  contents : ∀ p ∈ s.unread, s.packed p.1 = some (p.2.buffers s.blocks)
  tracked : ∀ p ∈ s.unread, p.2.name = s.writer.name ∨ p.1 ∈ s.cancelled
  current : ∀ p ∈ s.unread, p.2.name = s.writer.name → s.caller.Current p.1
  packing : ∀ requestId buffers rest packing, s.caller = .packing requestId buffers rest packing →
    requestId < s.ids ∧ s.packed requestId = none ∧ (packing.refused = none →
      ∃ done, buffers = done ++ rest ∧ packing.Holds s.writer s.blocks done)
  copying : ∀ requestId header copied rest, s.reader = .copying requestId header copied rest →
    copied ++ rest.map (s.blocks.copy header.name) = header.buffers s.blocks
  once : (s.delivered.map Prod.fst ++ s.unread.map Prod.fst).Nodup
  delivered : ∀ d ∈ s.delivered, s.packed d.1 = some d.2
  skipped : ∀ requestId ∈ s.skipped, requestId ∈ s.cancelled
  ids : ∀ requestId, s.ids ≤ requestId → s.packed requestId = none

/-- A step of the link after which no header names a block that is written: a step is packed after
one that was given up without a cancel only once the model server has read the header of that one
to its end. -/
def Link.Careful (s : Link) : Label → Prop
  | .step _ => s.caller = .gaveUp → ∀ p ∈ s.unread, p.2.name ≠ s.writer.name
  | _ => True

instance (s : Link) : (label : Label) → Decidable (s.Careful label)
  | .step _ => inferInstanceAs (Decidable (_ → _))
  | .write | .send _ | .answer | .timeout | .release | .allocate _ | .cancel | .other | .receive =>
    .isTrue trivial

theorem intact_init (basePrefix : String) (inputBytes : ℕ) :
    (link basePrefix inputBytes).init.Intact where
  fresh n _ := Blocks.create_of_ne (fun _ => none) _ inputBytes (rotatedName_ne basePrefix n)
  writer := ⟨rfl, ⟨List.replicate inputBytes 0, true⟩,
    Blocks.create_self (fun _ => none) _ inputBytes, rfl, List.length_replicate⟩
  retired := nofun
  replacement := nofun
  created := nofun
  contents := nofun
  tracked := nofun
  current := nofun
  packing := nofun
  copying := nofun
  once := .nil
  delivered := nofun
  skipped := nofun
  ids _ _ := rfl

namespace Link.Intact

variable {s : Link} {requestId : ℕ}

/-! ### The client's end -/

theorem beginStep (h : s.Intact) (buffers : List Bytes)
    (hfree : ∀ p ∈ s.unread, p.2.name ≠ s.writer.name) : (s.beginStep buffers).Intact :=
  { h with
    writer := ⟨h.writer.fixed, h.writer.block⟩
    replacement := nofun
    current := fun p hp hname => absurd hname (hfree p hp)
    packing := by
      rintro _ _ _ _ ⟨⟩
      exact ⟨Nat.lt_succ_self _, h.ids _ le_rfl, fun _ => ⟨[], rfl, rfl, nofun, Nat.zero_le _⟩⟩
    ids := fun requestId hle => h.ids requestId (Nat.le_of_succ_le hle) }

theorem buffers_eq {blocks blocks' : Blocks} {header : Header}
    (h : ∀ span, blocks'.copy header.name span = blocks.copy header.name span) :
    header.buffers blocks' = header.buffers blocks :=
  List.map_congr_left fun span _ => h span

theorem of_blocks (h : s.Intact) (blocks : Blocks)
    (hcopy : ∀ p ∈ s.unread, ∀ span, blocks.copy p.2.name span = s.blocks.copy p.2.name span) :
    (∀ p ∈ s.unread, s.packed p.1 = some (p.2.buffers blocks)) ∧
      ∀ requestId header copied rest, s.reader = .copying requestId header copied rest →
        copied ++ rest.map (blocks.copy header.name) = header.buffers blocks := by
  refine ⟨fun p hp => ?_, fun requestId header copied rest hcopying => ?_⟩
  · rw [buffers_eq (hcopy p hp)]
    exact h.contents p hp
  · have hp : (requestId, header) ∈ s.unread := by
      simp [unread, hcopying, Reader.step?]
    rw [buffers_eq (hcopy _ hp), List.map_congr_left fun span _ => hcopy _ hp span]
    exact h.copying requestId header copied rest hcopying

/-- A buffer is handed out, and not written: it did not fit, or one before it did not. -/
theorem refuseBuffer (h : s.Intact) {buffers rest : List Bytes} {buffer : Bytes}
    {packing packing' : Packing}
    (hcaller : s.caller = .packing requestId buffers (buffer :: rest) packing)
    (hrefused : packing'.refused ≠ none) :
    ({ s with caller := .packing requestId buffers rest packing' } : Link).Intact :=
  { h with
    replacement := nofun
    current := fun p hp hname => by
      have := h.current p hp hname
      rwa [hcaller] at this
    packing := by
      rintro _ _ _ _ ⟨⟩
      obtain ⟨hids, hnew, -⟩ := h.packing _ _ _ _ hcaller
      exact ⟨hids, hnew, fun hnone => absurd hnone hrefused⟩ }

theorem storeBuffer (h : s.Intact) {buffers rest : List Bytes} {buffer : Bytes} {packing : Packing}
    (hcaller : s.caller = .packing requestId buffers (buffer :: rest) packing)
    (hrefused : packing.refused = none)
    (hfits : s.writer.cursor + buffer.length ≤ s.writer.capacity) :
    ({ s with
      writer := { s.writer with cursor := s.writer.cursor + buffer.length }
      blocks := s.blocks.write s.writer.name s.writer.cursor buffer
      caller := .packing requestId buffers rest { packing with
        spans := packing.spans ++ [⟨s.writer.cursor, buffer.length⟩]
        needed := packing.needed + buffer.length } } : Link).Intact := by
  obtain ⟨hids, hnew, hholds⟩ := h.packing _ _ _ _ hcaller
  obtain ⟨done, hbuffers, hread, hbefore, hcursor⟩ := hholds hrefused
  obtain ⟨block, hblock, hlinked, hlength⟩ := h.writer.block
  have hfree : ∀ p ∈ s.unread, p.2.name ≠ s.writer.name := fun p hp hname => by
    have := h.current p hp hname
    rwa [hcaller] at this
  obtain ⟨hcontents, hcopying⟩ := h.of_blocks
    (s.blocks.write s.writer.name s.writer.cursor buffer)
    fun p hp span => Blocks.copy_write_of_ne _ _ _ _ (hfree p hp) span
  have hwritten : s.blocks.write s.writer.name s.writer.cursor buffer s.writer.name =
      some { block with bytes := overwrite block.bytes s.writer.cursor buffer } := by
    rw [Blocks.write_self, hblock]
    rfl
  refine ⟨fun n hn => ?_, ⟨h.writer.fixed, _, hwritten, hlinked, ?_⟩, h.retired, nofun,
    fun p hp => ?_, hcontents, h.tracked, fun p hp hname => absurd hname (hfree p hp), ?_, hcopying,
    h.once, h.delivered, h.skipped, h.ids⟩
  · exact (Blocks.write_eq_none _ _ _ _ _).mpr (h.fresh n hn)
  · exact (length_overwrite (by omega)).trans hlength
  · exact (Blocks.write_eq_none _ _ _ _ _).not.mpr (h.created p hp)
  · rintro _ _ _ _ ⟨⟩
    refine ⟨hids, hnew, fun _ => ⟨done ++ [buffer], by simp [hbuffers], ?_, ?_, hfits⟩⟩
    · -- the spans before are read as they were, and the new one is read as it was written
      have hspans : packing.spans.map ((s.blocks.write s.writer.name s.writer.cursor buffer).copy
          s.writer.name) = done := by
        rw [← hread]
        exact List.map_congr_left fun span hspan =>
          Blocks.copy_write_of_le _ _ hblock (by omega) (hbefore span hspan)
      rw [List.map_append, List.map_singleton, hspans,
        Blocks.copy_write_self _ _ hblock (by omega)]
    · intro span hspan
      obtain hspan | hspan := List.mem_append.mp hspan
      · exact (hbefore span hspan).trans (Nat.le_add_right _ _)
      · rw [List.mem_singleton.mp hspan]

theorem writeBuffer (h : s.Intact) {buffers rest : List Bytes} {buffer : Bytes} {packing : Packing}
    (hcaller : s.caller = .packing requestId buffers (buffer :: rest) packing) :
    (s.writeBuffer requestId buffers buffer rest packing).Intact := by
  unfold Link.writeBuffer Packing.outOfBand
  cases hrefused : packing.refused with
  | some limit => exact h.refuseBuffer hcaller nofun
  | none =>
    rw [SharedSlot.write_fixed _ _ h.writer.fixed]
    dsimp only
    split_ifs with hfits
    · exact h.refuseBuffer hcaller nofun
    · have hstored := h.storeBuffer hcaller hrefused (Nat.le_of_not_lt hfits)
      rw [hrefused] at hstored
      exact hstored

/-- The client goes on, with no header in the block that is written next. -/
theorem idle (h : s.Intact) (hfree : ∀ p ∈ s.unread, p.2.name ≠ s.writer.name) :
    ({ s with caller := .idle } : Link).Intact :=
  { h with
    replacement := nofun
    current := fun p hp hname => absurd hname (hfree p hp)
    packing := nofun }

/-- The client goes on with the same step. -/
theorem remember (h : s.Intact) {caller : Caller} (hcurrent : ∀ id, s.caller.Current id →
    caller.Current id) (hpacking : ∀ id buffers rest packing,
      caller ≠ .packing id buffers rest packing)
    (hreplacing : ∀ id slot, caller ≠ .replacing id slot) :
    ({ s with caller } : Link).Intact :=
  { h with
    replacement := fun id slot hcaller => absurd hcaller (hreplacing id slot)
    current := fun p hp hname => hcurrent p.1 (h.current p hp hname)
    packing := fun id buffers rest packing hcaller => absurd hcaller (hpacking id buffers rest packing) }

theorem unread_enqueueStep (s : Link) (buffers : List Bytes) (header : Header) :
    (s.enqueueStep requestId buffers header).unread = s.unread ++ [(requestId, header)] := by
  simp [unread, enqueueStep, Frame.step?]

theorem packed_enqueueStep_of_ne (s : Link) (buffers : List Bytes) (header : Header) {id : ℕ}
    (hid : id ≠ requestId) :
    (s.enqueueStep requestId buffers header).packed id = s.packed id :=
  Function.update_of_ne hid ..

theorem enqueueStep (h : s.Intact) {buffers : List Bytes} {header : Header}
    (hids : requestId < s.ids) (hnew : s.packed requestId = none)
    (hfree : ∀ p ∈ s.unread, p.2.name ≠ s.writer.name)
    (hname : header.name = s.writer.name) (hbuffers : header.buffers s.blocks = buffers) :
    (s.enqueueStep requestId buffers header).Intact := by
  have packed {id : ℕ} {arrays : List Bytes} (hid : s.packed id = some arrays) :
      (s.enqueueStep requestId buffers header).packed id = some arrays := by
    rw [packed_enqueueStep_of_ne, hid]
    rintro rfl
    simp [hnew] at hid
  have unread {p} (hp : p ∈ (s.enqueueStep requestId buffers header).unread) :
      p ∈ s.unread ∨ p = (requestId, header) := by
    simpa [unread_enqueueStep] using hp
  refine ⟨h.fresh, h.writer, h.retired, nofun, fun p hp => ?_, fun p hp => ?_, fun p hp => ?_,
    fun p hp hw => ?_, nofun, h.copying, ?_, fun d hd => packed (h.delivered d hd), h.skipped,
    fun id hid => ?_⟩
  · obtain hp | rfl := unread hp
    · exact h.created p hp
    · obtain ⟨block, hblock, -⟩ := h.writer.block
      simp [hname, Link.enqueueStep, hblock]
  · obtain hp | rfl := unread hp
    · exact packed (h.contents p hp)
    · exact (Function.update_self ..).trans (congrArg some hbuffers.symm)
  · obtain hp | rfl := unread hp
    · exact h.tracked p hp
    · exact .inl hname
  · obtain hp | rfl := unread hp
    · exact absurd hw (hfree p hp)
    · rfl
  · have hdelivered : requestId ∉ s.delivered.map Prod.fst := fun hmem => by
      obtain ⟨d, hd, rfl⟩ := List.mem_map.mp hmem
      simp [h.delivered d hd] at hnew
    have hunread : requestId ∉ s.unread.map Prod.fst := fun hmem => by
      obtain ⟨p, hp, rfl⟩ := List.mem_map.mp hmem
      simp [h.contents p hp] at hnew
    rw [unread_enqueueStep, List.map_append, ← List.append_assoc, List.nodup_append]
    refine ⟨h.once, List.nodup_singleton _, fun a ha b hb => ?_⟩
    obtain rfl := List.mem_singleton.mp hb
    rintro rfl
    exact (List.mem_append.mp ha).elim hdelivered hunread
  · rw [packed_enqueueStep_of_ne, h.ids id hid]
    rintro rfl
    exact absurd hid (Nat.not_le.mpr hids)

theorem sendStep (h : s.Intact) {buffers : List Bytes} {packing : Packing} (fits : Bool)
    (hcaller : s.caller = .packing requestId buffers [] packing) :
    (s.sendStep requestId buffers packing fits).Intact := by
  obtain ⟨hids, hnew, hholds⟩ := h.packing _ _ _ _ hcaller
  have hfree : ∀ p ∈ s.unread, p.2.name ≠ s.writer.name := fun p hp hname => by
    have := h.current p hp hname
    rwa [hcaller] at this
  unfold Link.sendStep Packing.header
  cases hrefused : packing.refused with
  | some limit => exact h.idle hfree
  | none =>
    obtain ⟨done, hbuffers, hread, -, -⟩ := hholds hrefused
    rw [List.append_nil] at hbuffers
    dsimp only
    split_ifs
    · exact h.enqueueStep hids hnew hfree rfl (hread.trans hbuffers.symm)
    · exact h.idle hfree

theorem releaseRetired (h : s.Intact) (hcaller : s.caller = .timedOut requestId) :
    (s.releaseRetired requestId).Intact := by
  have hcurrent : ∀ p ∈ s.unread, p.2.name = s.writer.name → p.1 = requestId := fun p hp hname => by
    have := h.current p hp hname
    rwa [hcaller] at this
  unfold Link.releaseRetired
  cases hretired : s.retired with
  | none => exact { h with retired := nofun, replacement := nofun, current := hcurrent, packing := nofun }
  | some retired =>
    obtain ⟨hcontents, hcopying⟩ := h.of_blocks (retired.close s.blocks)
      fun p hp span => Blocks.copy_unlink _ _ _ _
    obtain ⟨block, hblock, hlinked, hlength⟩ := h.writer.block
    have hne : s.writer.name ≠ retired.name := (h.retired retired (by rw [hretired]; rfl)).symm
    exact { h with
      fresh := fun n hn => (Blocks.unlink_eq_none _ _ _).mpr (h.fresh n hn)
      writer := ⟨h.writer.fixed, block, (Blocks.unlink_of_ne _ _ hne).trans hblock, hlinked, hlength⟩
      retired := nofun
      replacement := nofun
      created := fun p hp => (Blocks.unlink_eq_none _ _ _).not.mpr (h.created p hp)
      contents := hcontents
      current := hcurrent
      packing := nofun
      copying := hcopying }

theorem allocateReplacement (h : s.Intact) (room : Bool)
    (hcaller : s.caller = .allocating requestId) :
    (s.allocateReplacement requestId room).Intact := by
  have hfresh : ∀ n, s.rotations + 1 < n → s.blocks (rotatedName s.basePrefix n) = none :=
    fun n hn => h.fresh n (Nat.lt_of_succ_lt hn)
  have hnone := h.fresh _ (Nat.lt_succ_self _)
  unfold Link.allocateReplacement
  dsimp only
  split_ifs
  · set name := rotatedName s.basePrefix (s.rotations + 1) with hname
    obtain ⟨block, hblock, hlinked, hlength⟩ := h.writer.block
    have hwriter : s.writer.name ≠ name := fun heq => by simp [← heq, hblock] at hnone
    have hunread : ∀ p ∈ s.unread, p.2.name ≠ name := fun p hp heq =>
      h.created p hp (heq ▸ hnone)
    obtain ⟨hcontents, hcopying⟩ := h.of_blocks (s.blocks.create name s.writer.capacity)
      fun p hp span => Blocks.copy_create_of_ne _ _ _ (hunread p hp) span
    refine { h with
      fresh := fun n hn => ?_
      writer := ⟨h.writer.fixed, block, (Blocks.create_of_ne _ _ _ hwriter).trans hblock, hlinked,
        hlength⟩
      replacement := ?_
      created := fun p hp => ?_
      contents := hcontents
      current := fun p hp hw => ?_
      packing := nofun
      copying := hcopying }
    · refine (Blocks.create_of_ne _ _ _ fun heq => ?_).trans (hfresh n hn)
      exact Nat.ne_of_gt hn (rotatedName_injective _ heq)
    · rintro _ _ ⟨⟩
      exact ⟨⟨rfl, _, Blocks.create_self _ _ _, rfl, List.length_replicate⟩, hwriter.symm, hunread⟩
    · exact fun hgone => h.created p hp
        ((Blocks.create_of_ne _ _ _ (hunread p hp)).symm.trans hgone)
    · have := h.current p hp hw
      rwa [hcaller] at this
  · exact { h with
      fresh := hfresh
      replacement := nofun
      current := fun _ _ _ => trivial
      packing := nofun }

/-- The cancel is sent: the block that was written becomes the retired one. -/
theorem sendCancel (h : s.Intact) {replacement : SharedSlot}
    (hcaller : s.caller = .replacing requestId replacement) :
    (s.sendCancel requestId replacement).Intact := by
  obtain ⟨hready, hne, hfree⟩ := h.replacement _ _ hcaller
  have hunread : (s.sendCancel requestId replacement).unread = s.unread := by
    simp [unread, Link.sendCancel, Frame.step?]
  have hcancelled (p) (hp : p ∈ s.unread) : p.1 ∈ s.cancelled ++ [requestId] := by
    obtain hname | hcancelled := h.tracked p hp
    · have := h.current p hp hname
      rw [hcaller] at this
      exact List.mem_append_right _ (List.mem_singleton.mpr this)
    · exact List.mem_append_left _ hcancelled
  refine ⟨h.fresh, hready, ?_, nofun, ?_, ?_, ?_, ?_, nofun, h.copying, ?_, h.delivered, ?_, h.ids⟩
  · rintro slot hslot
    cases hslot
    exact hne.symm
  · rw [hunread]
    exact h.created
  · rw [hunread]
    exact h.contents
  · rw [hunread]
    exact fun p hp => .inr (hcancelled p hp)
  · rw [hunread]
    exact fun p hp hname => absurd hname (hfree p hp)
  · rw [hunread]
    exact h.once
  · exact fun id hid => List.mem_append_left _ (h.skipped id hid)

theorem of_unread (h : s.Intact) {reader : Reader} {stream : List Frame} {mapped : Option String}
    {delivered : List (ℕ × List Bytes)} {skipped : List ℕ}
    (hunread : (reader.step?.toList ++ stream.filterMap Frame.step?).Sublist s.unread)
    (hcopying : ∀ requestId header copied rest, reader = .copying requestId header copied rest →
      copied ++ rest.map (s.blocks.copy header.name) = header.buffers s.blocks)
    (honce : (delivered.map Prod.fst ++
      (reader.step?.toList ++ stream.filterMap Frame.step?).map Prod.fst).Nodup)
    (hdelivered : ∀ d ∈ delivered, s.packed d.1 = some d.2)
    (hskipped : ∀ requestId ∈ skipped, requestId ∈ s.cancelled) :
    ({ s with reader, stream, mapped, delivered, skipped } : Link).Intact :=
  { h with
    replacement := fun requestId slot hcaller =>
      have ⟨hready, hne, hfree⟩ := h.replacement requestId slot hcaller
      ⟨hready, hne, fun p hp => hfree p (hunread.subset hp)⟩
    created := fun p hp => h.created p (hunread.subset hp)
    contents := fun p hp => h.contents p (hunread.subset hp)
    tracked := fun p hp => h.tracked p (hunread.subset hp)
    current := fun p hp => h.current p (hunread.subset hp)
    copying := hcopying
    once := honce
    delivered := hdelivered
    skipped := hskipped }

theorem read (h : s.Intact) {reader : Reader} {stream : List Frame} {mapped : Option String}
    (hunread : (reader.step?.toList ++ stream.filterMap Frame.step?).Sublist s.unread)
    (hcopying : ∀ requestId header copied rest, reader = .copying requestId header copied rest →
      copied ++ rest.map (s.blocks.copy header.name) = header.buffers s.blocks) :
    ({ s with reader, stream, mapped } : Link).Intact :=
  h.of_unread hunread hcopying (h.once.sublist ((List.Sublist.refl _).append (hunread.map _)))
    h.delivered h.skipped

theorem call (h : s.Intact) {s' : Link} {label : Label} (hcareful : s.Careful label)
    (hcall : s.call label = some s') : s'.Intact := by
  have current {caller : Caller} (hcaller : s.caller = caller) (p) (hp : p ∈ s.unread)
      (hname : p.2.name = s.writer.name) : caller.Current p.1 :=
    hcaller ▸ h.current p hp hname
  unfold Link.call at hcall
  cases label with
  | step buffers =>
    dsimp only at hcall
    split at hcall
    · next hcaller =>
      cases hcall
      exact h.beginStep buffers fun p hp hname => current hcaller p hp hname
    · next hcaller =>
      cases hcall
      exact h.beginStep buffers (hcareful hcaller)
    · cases hcall
  | write =>
    dsimp only at hcall
    split at hcall
    · next hcaller =>
      cases hcall
      exact h.writeBuffer hcaller
    · cases hcall
  | send fits =>
    dsimp only at hcall
    split at hcall
    · next hcaller =>
      cases hcall
      exact h.sendStep fits hcaller
    · cases hcall
  | answer =>
    dsimp only at hcall
    split at hcall
    · next requestId hcaller =>
      split_ifs at hcall with hanswered
      cases hcall
      -- the step was read, so its header is not unread any more
      refine h.idle fun p hp hname => ?_
      obtain ⟨d, hd, hdid⟩ := hanswered
      have hpid : p.1 = requestId := current hcaller p hp hname
      have hdisjoint := (List.nodup_append.mp h.once).2.2
      exact hdisjoint d.1 (List.mem_map_of_mem hd) p.1 (List.mem_map_of_mem hp) (hdid.trans hpid.symm)
    · cases hcall
  | timeout =>
    dsimp only at hcall
    split at hcall
    · next requestId hcaller =>
      cases hcall
      exact h.remember (hcaller ▸ fun _ => id) nofun nofun
    · cases hcall
  | release =>
    dsimp only at hcall
    split at hcall
    · next hcaller =>
      cases hcall
      exact h.releaseRetired hcaller
    · cases hcall
  | allocate room =>
    dsimp only at hcall
    split at hcall
    · next hcaller =>
      cases hcall
      exact h.allocateReplacement room hcaller
    · cases hcall
  | cancel =>
    dsimp only at hcall
    split at hcall
    · next hcaller =>
      cases hcall
      exact h.sendCancel hcaller
    · cases hcall
  | other =>
    dsimp only at hcall
    split at hcall
    · cases hcall
    · cases hcall
    · cases hcall
    · cases hcall
      have hstream : (s.stream ++ [Frame.other]).filterMap Frame.step? =
          s.stream.filterMap Frame.step? := by
        simp [Frame.step?]
      exact h.read (by rw [hstream]; rfl) h.copying
  | receive => cases hcall

/-! ### The model server's end -/

theorem deliver (h : s.Intact) {header : Header} {arrays : List Bytes} {stream : List Frame}
    (hunread : s.unread = (requestId, header) :: stream.filterMap Frame.step?)
    (harrays : arrays = header.buffers s.blocks) :
    (({ s with stream } : Link).deliver requestId arrays).Intact := by
  have hread : (requestId, header) ∈ s.unread := by simp [hunread]
  refine h.of_unread (hunread ▸ List.sublist_cons_self _ _) nofun ?_ (fun d hd => ?_) h.skipped
  · have honce := h.once
    rw [hunread] at honce
    simpa [Reader.step?] using honce
  · obtain hd | hd := List.mem_append.mp hd
    · exact h.delivered d hd
    · rw [List.mem_singleton.mp hd, harrays]
      exact h.contents _ hread

/-- The model server's end attaches to the block of a header, or finds it gone. -/
theorem attach (h : s.Intact) {header : Header} (hreader : s.reader = .attaching requestId header) :
    (s.attach requestId header).Intact := by
  have hunread : s.unread = (requestId, header) :: s.stream.filterMap Frame.step? := by
    simp [unread, hreader, Reader.step?]
  have hcopying : ∀ id header' copied rest,
      Reader.copying requestId header [] header.spans = .copying id header' copied rest →
        copied ++ rest.map (s.blocks.copy header'.name) = header'.buffers s.blocks := by
    rintro _ _ _ _ ⟨⟩
    rfl
  unfold Link.attach
  split_ifs with hmapped hlinked
  · exact h.read (by rw [hunread]; rfl) hcopying
  · exact h.read (by rw [hunread]; rfl) hcopying
  · refine h.of_unread (hunread ▸ List.sublist_cons_self _ _) nofun ?_ h.delivered fun id hid => ?_
    · have honce := h.once
      rw [hunread] at honce
      exact honce.sublist ((List.Sublist.refl _).append (List.sublist_cons_self _ _))
    · obtain hid | hid := List.mem_append.mp hid
      · exact h.skipped id hid
      · -- the block that is written is there, so this one was retired by a cancel
        obtain rfl := List.mem_singleton.mp hid
        obtain hname | hcancelled := h.tracked (id, header) (by simp [hunread])
        · obtain ⟨block, hblock, hblockLinked, -⟩ := h.writer.block
          exact absurd ((Blocks.linked_iff _ _).mpr ⟨block, hname ▸ hblock, hblockLinked⟩) hlinked
        · exact hcancelled

/-- The model server's end goes on. -/
theorem receive (h : s.Intact) {s' : Link} (hreceive : s.receive = some s') : s'.Intact := by
  unfold Link.receive at hreceive
  split at hreceive
  · next hreader =>
    split at hreceive
    · cases hreceive
    · next requestId header stream hstream =>
      have hunread : s.unread = (requestId, header) :: stream.filterMap Frame.step? := by
        simp [unread, hreader, hstream, Reader.step?, Frame.step?]
      split_ifs at hreceive with hspans
      · cases hreceive
        exact h.deliver hunread (by simp [Header.buffers, hspans])
      · cases hreceive
        exact h.read (by rw [hunread]; rfl) nofun
    · next frame stream hne hstream =>
      cases hreceive
      have hframe : frame.step? = none := by
        cases frame with
        | step requestId header => exact absurd rfl (hne requestId header)
        | _ => rfl
      have hunread : s.unread = stream.filterMap Frame.step? := by
        simp [unread, hreader, hstream, Reader.step?, hframe]
      refine h.read ?_ h.copying
      rw [hunread, hreader]
      rfl
  · next requestId header hreader =>
    cases hreceive
    exact h.attach hreader
  · next requestId header copied hreader =>
    cases hreceive
    have hunread : s.unread = (requestId, header) :: s.stream.filterMap Frame.step? := by
      simp [unread, hreader, Reader.step?]
    exact h.deliver hunread (by simpa using h.copying _ _ _ _ hreader)
  · next requestId header copied span rest hreader =>
    have hunread : s.unread = (requestId, header) :: s.stream.filterMap Frame.step? := by
      simp [unread, hreader, Reader.step?]
    split_ifs at hreceive
    · cases hreceive
      exact h.read (hunread ▸ List.sublist_cons_self _ _) nofun
    · cases hreceive
      refine h.read (by rw [hunread]; rfl) ?_
      rintro _ _ _ _ ⟨⟩
      simpa using h.copying _ _ _ _ hreader
  · cases hreceive

end Link.Intact

/-! ### Every run -/

/-- In a run whose steps are all careful, each step the model server delivers has the arrays that were
packed for it, and each step it skips was cancelled. -/
theorem steps_delivered_as_packed {basePrefix : String} {inputBytes : ℕ} {ls : List Label}
    {s : Link} (hcareful : (link basePrefix inputBytes).AllSteps Link.Careful ls)
    (hrun : (link basePrefix inputBytes).run ls = some s) :
    (∀ requestId arrays, (requestId, arrays) ∈ s.delivered → s.packed requestId = some arrays) ∧
      ∀ requestId ∈ s.skipped, requestId ∈ s.cancelled := by
  have hintact : s.Intact := by
    refine TransitionSystem.AllSteps.invariant (intact_init basePrefix inputBytes) ?_ hcareful hrun
    intro s label s' h hlabel hnext
    cases label with
    | receive => exact h.receive hnext
    | _ => exact h.call hlabel hnext
  exact ⟨fun requestId arrays hd => hintact.delivered (requestId, arrays) hd, hintact.skipped⟩

def sendRun (byte : UInt8) : List Label := [.step [[byte]], .write, .send true]

/-- The model server reads a step of one array. -/
def receiveRun : List Label := List.replicate 4 .receive

theorem steps_delivered_as_packed_run :
    (((link "rrms_s0_" 1).run (sendRun 7 ++ receiveRun)).get (by decide +kernel)).packed 0 =
      some [[7]] :=
  (steps_delivered_as_packed (by decide +kernel) (Option.some_get _).symm).1 0 [[7]]
    (by decide +kernel)

/-- A step times out, its cancel finds no room for the replacement, and the next step is packed
before the model server reads the header of the first. -/
def tornRun : List Label :=
  sendRun 1 ++ [.timeout, .release, .allocate false] ++ sendRun 2 ++ receiveRun

/-- The model server delivers the first step with the array of the second. -/
theorem step_delivered_torn : ¬ ∀ s, (link "rrms_s0_" 1).Reachable s →
    (∀ requestId arrays, (requestId, arrays) ∈ s.delivered → s.packed requestId = some arrays) ∧
      ∀ requestId ∈ s.skipped, requestId ∈ s.cancelled := by
  have hrun : ((link "rrms_s0_" 1).run tornRun).any fun s =>
      (0, [[2]]) ∈ s.delivered ∧ s.packed 0 = some [[1]] := by
    decide +kernel
  obtain ⟨s, hs, htorn⟩ := (Option.any_eq_true ..).mp hrun
  obtain ⟨hdelivered, hpacked⟩ := of_decide_eq_true htorn
  intro hall
  have := (hall s ⟨tornRun, hs⟩).1 0 [[2]] hdelivered
  rw [hpacked] at this
  simp at this

end ReactorRuntime.SharedMemory
