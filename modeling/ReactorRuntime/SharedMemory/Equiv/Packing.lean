import Std.Data.String.ToNat
import Mathlib.Data.List.Induction
import ReactorRuntime.Lists.Pointwise
import ReactorRuntime.SharedMemory.Packing

/-!
# What is packed is unpacked

The slot owns one block (`Owned`), and the buffers of a call lie in it one after the other, also
across a growth (`Packing.Laid`).  So a call comes to one of three ends, by whether it passes the
limit and whether the block can grow (`feed_spec`), and what it returns is read back (`packs`).
-/

namespace ReactorRuntime.SharedMemory

open ReactorRuntime.Lists

variable {Obj R : Type} {room : ℕ → ℕ → Bool} {slot : SharedSlot} {blocks : Blocks}
  {namePrefix : String} {maxBytes : Option ℕ}

/-! ### The block of a slot -/

def generationName (namePrefix : String) (generation : ℕ) : String :=
  namePrefix ++ toString generation

theorem generationName_injective (namePrefix : String) :
    Function.Injective (generationName namePrefix) := by
  intro m n h
  simpa [generationName] using h

/-- A slot owns one block, whose size is its capacity, and no later one was created. -/
structure Owned (namePrefix : String) (maxBytes : Option ℕ) (slot : SharedSlot) (blocks : Blocks) :
    Prop where
  named : slot.namePrefix = namePrefix
  bounded : slot.maxBytes = maxBytes
  name : ∃ generation ≤ slot.generation, slot.name = generationName namePrefix generation
  fresh : ∀ generation, slot.generation < generation →
    blocks (generationName namePrefix generation) = none
  block : ∃ block, blocks slot.name = some block ∧ block.linked = true ∧
    block.bytes.length = slot.capacity
  one : ∀ generation, blocks.linked (generationName namePrefix generation) = true →
    generationName namePrefix generation = slot.name
  pos : 0 < slot.capacity
  limit : ∀ limit ∈ maxBytes, slot.capacity ≤ limit

namespace Owned

variable (howned : Owned namePrefix maxBytes slot blocks)
include howned

theorem skip : Owned namePrefix maxBytes { slot with generation := slot.generation + 1 } blocks :=
  { howned with
    name := by
      obtain ⟨generation, hle, hname⟩ := howned.name
      exact ⟨generation, Nat.le_succ_of_le hle, hname⟩
    fresh := fun generation hlt => howned.fresh generation (Nat.lt_of_succ_lt hlt) }

theorem length_bytes : (blocks.bytes slot.name).length = slot.capacity := by
  obtain ⟨block, hblock, -, hlength⟩ := howned.block
  rw [Blocks.bytes, hblock]
  exact hlength

theorem replace {size : ℕ} (hcursor : slot.cursor ≤ slot.capacity) (hsize : slot.capacity ≤ size)
    (hlimit : ∀ limit ∈ maxBytes, size ≤ limit) :
    Owned namePrefix maxBytes
      ({ slot with generation := slot.generation + 1 }.replace size blocks).1
      ({ slot with generation := slot.generation + 1 }.replace size blocks).2 ∧
    ∀ span : Span, span.offset + span.length ≤ slot.cursor →
      ({ slot with generation := slot.generation + 1 }.replace size blocks).2.copy
        ({ slot with generation := slot.generation + 1 }.replace size blocks).1.name span =
        blocks.copy slot.name span := by
  set name := generationName namePrefix (slot.generation + 1) with hname
  set data := (blocks.bytes slot.name).take slot.cursor with hdata
  have hlength : data.length = slot.cursor := by
    rw [hdata, List.length_take, howned.length_bytes]
    exact Nat.min_eq_left hcursor
  have hnew : slot.name ≠ name := by
    obtain ⟨generation, hle, hold⟩ := howned.name
    rw [hold, hname]
    intro h
    have := generationName_injective namePrefix h
    omega
  have hshow : { slot with generation := slot.generation + 1 }.replace size blocks =
      ({ slot with generation := slot.generation + 1, name := name, capacity := size },
        ((blocks.create name size).write name 0 data).unlink slot.name) := by
    rw [hname, generationName, ← howned.named]
    rfl
  have hmoved : ((blocks.create name size).write name 0 data).unlink slot.name name =
      some ⟨overwrite (List.replicate size 0) 0 data, true⟩ := by
    rw [Blocks.unlink_of_ne _ _ (Ne.symm hnew), Blocks.write_self, Blocks.create_self]
    rfl
  have hother (other : String) (hne : other ≠ name) (hold : other ≠ slot.name) :
      ((blocks.create name size).write name 0 data).unlink slot.name other = blocks other := by
    rw [Blocks.unlink_of_ne _ _ hold, Blocks.write_of_ne _ _ _ _ hne, Blocks.create_of_ne _ _ _ hne]
  rw [hshow]
  refine ⟨⟨howned.named, howned.bounded, ⟨_, Nat.le_refl _, rfl⟩, ?_, ?_, ?_,
    Nat.lt_of_lt_of_le howned.pos hsize, hlimit⟩, ?_⟩
  · intro generation hlt
    have hne : generationName namePrefix generation ≠ name := by
      intro h
      have := generationName_injective namePrefix h
      exact absurd hlt (by rw [this]; exact Nat.lt_irrefl _)
    have hold : generationName namePrefix generation ≠ slot.name := by
      obtain ⟨old, hle, holdname⟩ := howned.name
      rw [holdname]
      intro h
      have := generationName_injective namePrefix h
      have hlt' : slot.generation + 1 < generation := hlt
      omega
    show ((blocks.create name size).write name 0 data).unlink slot.name _ = none
    rw [hother _ hne hold]
    exact howned.fresh generation (Nat.lt_of_succ_lt hlt)
  · refine ⟨_, hmoved, rfl, ?_⟩
    show (overwrite (List.replicate size 0) 0 data).length = size
    rw [length_overwrite]
    · exact List.length_replicate
    · rw [hlength, List.length_replicate]
      omega
  · intro generation hlinked
    change (((blocks.create name size).write name 0 data).unlink slot.name).linked
      (generationName namePrefix generation) = true at hlinked
    by_cases hne : generationName namePrefix generation = name
    · exact hne
    · -- An old block that is linked would be the one that was unlinked.
      by_cases hold : generationName namePrefix generation = slot.name
      · obtain ⟨block, hblock, hfile⟩ := (Blocks.linked_iff _ _).mp hlinked
        rw [hold, Blocks.unlink_self] at hblock
        obtain ⟨before, -, rfl⟩ := Option.map_eq_some_iff.mp hblock
        cases hfile
      · have hsame : blocks.linked (generationName namePrefix generation) = true := by
          obtain ⟨block, hblock, hfile⟩ := (Blocks.linked_iff _ _).mp hlinked
          rw [hother _ hne hold] at hblock
          exact (Blocks.linked_iff _ _).mpr ⟨block, hblock, hfile⟩
        exact absurd (howned.one generation hsame) hold
  · intro span hspan
    have hsource : (blocks.create name size) name = some ⟨List.replicate size 0, true⟩ :=
      Blocks.create_self _ _ _
    show (((blocks.create name size).write name 0 data).unlink slot.name).copy name span = _
    rw [Blocks.copy, Blocks.copy, Blocks.bytes_unlink, Blocks.bytes, Blocks.write_self, hsource]
    show Lists.segment (overwrite (List.replicate size 0) 0 data) span.offset span.length = _
    rw [overwrite, List.take_zero, List.nil_append, Lists.segment,
      List.drop_append_of_le_length (by omega),
      List.take_append_of_le_length (by rw [List.length_drop]; omega), hdata, Lists.segment,
      List.drop_take, List.take_take]
    congr 1
    omega

end Owned

/-! ### Growth -/

def SharedSlot.grownSize (slot : SharedSlot) (needed : ℕ) : ℕ :=
  match slot.maxBytes with
  | none => max needed (2 * slot.capacity)
  | some limit => min (max needed (2 * slot.capacity)) limit

/-- A call needs more than the block holds, though not more than the limit, and there is no room for
a block of that, nor for one of twice the size. -/
structure SharedSlot.CannotGrow (room : ℕ → ℕ → Bool) (needed : ℕ) (slot : SharedSlot) : Prop where
  past : slot.capacity < needed
  limit : ∀ limit ∈ slot.maxBytes, needed ≤ limit
  doubled : room (slot.generation + 1) (slot.grownSize needed) = false
  exact : room (slot.generation + 1) needed = false

theorem SharedSlot.le_grownSize {needed : ℕ} (hlimit : ∀ limit ∈ slot.maxBytes, needed ≤ limit) :
    needed ≤ slot.grownSize needed ∧ ∀ limit ∈ slot.maxBytes, slot.grownSize needed ≤ limit := by
  rw [grownSize]
  cases hmax : slot.maxBytes with
  | none => exact ⟨Nat.le_max_left _ _, fun limit hlimit => by cases hlimit⟩
  | some limit =>
    refine ⟨Nat.le_min.mpr ⟨Nat.le_max_left _ _, hlimit limit hmax⟩, ?_⟩
    intro other hother
    cases hother
    exact Nat.min_le_right _ _

theorem SharedSlot.grow_eq {needed : ℕ} (hlimit : ∀ limit ∈ slot.maxBytes, needed ≤ limit) :
    slot.grow room needed blocks =
      if room (slot.generation + 1) (slot.grownSize needed) = true then
        (.ok (), { slot with generation := slot.generation + 1 }.replace (slot.grownSize needed)
          blocks)
      else if slot.grownSize needed ≠ needed ∧ room (slot.generation + 1) needed = true then
        (.ok (), { slot with generation := slot.generation + 1 }.replace needed blocks)
      else (.error .sharedSlotAllocationFailed, { slot with generation := slot.generation + 1 },
        blocks) := by
  rw [grow, grownSize]
  cases hmax : slot.maxBytes with
  | none => rfl
  | some limit =>
    simp only []
    rw [if_neg (Nat.not_lt.mpr (hlimit limit hmax))]

theorem SharedSlot.CannotGrow.grow_eq {needed : ℕ} (hstuck : slot.CannotGrow room needed) :
    slot.grow room needed blocks =
      (.error .sharedSlotAllocationFailed, { slot with generation := slot.generation + 1 },
        blocks) := by
  rw [SharedSlot.grow_eq hstuck.limit, if_neg, if_neg]
  · rintro ⟨-, hroom⟩
    rw [hstuck.exact] at hroom
    cases hroom
  · rw [hstuck.doubled]
    exact Bool.false_ne_true

/-- One that can is replaced by a larger one. -/
theorem SharedSlot.exists_grow {needed : ℕ} (blocks : Blocks) (hpast : slot.capacity < needed)
    (hlimit : ∀ limit ∈ slot.maxBytes, needed ≤ limit)
    (hgrows : ¬ slot.CannotGrow room needed) :
    ∃ size, needed ≤ size ∧ (∀ limit ∈ slot.maxBytes, size ≤ limit) ∧
      slot.grow room needed blocks =
        (.ok (), { slot with generation := slot.generation + 1 }.replace size blocks) := by
  rw [SharedSlot.grow_eq hlimit]
  obtain ⟨hneeded, hbounded⟩ := SharedSlot.le_grownSize hlimit
  split_ifs with hdoubled hexact
  · exact ⟨_, hneeded, hbounded, rfl⟩
  · exact ⟨needed, Nat.le_refl _, hlimit, rfl⟩
  · refine absurd ⟨hpast, hlimit, Bool.eq_false_iff.mpr hdoubled, Bool.eq_false_iff.mpr ?_⟩ hgrows
    intro hroom
    -- If the two sizes are the same, there was no room for it at first.
    by_cases hsame : slot.grownSize needed = needed
    · rw [hsame] at hdoubled
      exact hdoubled hroom
    · exact hexact ⟨hsame, hroom⟩

/-! ### The buffers of a call -/

/-- The spans of buffers that lie one after the other, from an offset on. -/
def spansFrom (offset : ℕ) : List Bytes → List Span
  | [] => []
  | buffer :: buffers => ⟨offset, buffer.length⟩ :: spansFrom (offset + buffer.length) buffers

theorem spansFrom_concat (offset : ℕ) (buffers : List Bytes) (buffer : Bytes) :
    spansFrom offset (buffers ++ [buffer]) =
      spansFrom offset buffers ++ [⟨offset + buffers.flatten.length, buffer.length⟩] := by
  induction buffers generalizing offset with
  | nil => rfl
  | cons first buffers ih =>
    rw [List.cons_append, spansFrom, ih, spansFrom, List.cons_append, List.flatten_cons,
      List.length_append, Nat.add_assoc]

/-- Each lies within what they are long. -/
theorem le_of_mem_spansFrom {offset : ℕ} {buffers : List Bytes} {span : Span}
    (hspan : span ∈ spansFrom offset buffers) :
    offset ≤ span.offset ∧ span.offset + span.length ≤ offset + buffers.flatten.length := by
  induction buffers generalizing offset with
  | nil => cases hspan
  | cons first buffers ih =>
    rw [List.flatten_cons, List.length_append]
    rcases List.mem_cons.mp hspan with rfl | hspan
    · exact ⟨Nat.le_refl _, by show offset + first.length ≤ _; omega⟩
    · have := ih hspan
      omega

/-- They are disjoint, in order. -/
theorem pairwise_spansFrom (offset : ℕ) (buffers : List Bytes) :
    (spansFrom offset buffers).Pairwise fun a b => a.offset + a.length ≤ b.offset := by
  induction buffers generalizing offset with
  | nil => exact .nil
  | cons first buffers ih =>
    exact .cons (fun span hspan => (le_of_mem_spansFrom hspan).1) (ih _)

/-- The buffers handed out so far lie in the block, one after the other, up to the cursor; and the
block is not smaller than at first. -/
structure Packing.Laid (first : ℕ) (packing : Packing) (slot : SharedSlot) (blocks : Blocks)
    (done : List Bytes) : Prop where
  spans : packing.spans = spansFrom 0 done
  read : packing.spans.map (blocks.copy slot.name) = done
  cursor : slot.cursor = done.flatten.length
  fits : slot.cursor ≤ slot.capacity
  needed : packing.needed = done.flatten.length
  accepted : packing.refused = none
  grown : first ≤ slot.capacity

namespace Packing

variable {first : ℕ} {packing : Packing} {done : List Bytes}

theorem laid_begin (slot : SharedSlot) (blocks : Blocks) :
    Laid slot.capacity {} slot.begin blocks [] where
  spans := rfl
  read := rfl
  cursor := rfl
  fits := Nat.zero_le _
  needed := rfl
  accepted := rfl
  grown := Nat.le_refl _

theorem Laid.move {slot' : SharedSlot} {blocks' : Blocks}
    (hlaid : packing.Laid first slot blocks done) (hcursor : slot'.cursor = slot.cursor)
    (hsize : slot.capacity ≤ slot'.capacity)
    (hcopy : ∀ span : Span, span.offset + span.length ≤ slot.cursor →
      blocks'.copy slot'.name span = blocks.copy slot.name span) :
    packing.Laid first slot' blocks' done :=
  { hlaid with
    read := by
      have hspans := hlaid.read
      rw [hlaid.spans] at hspans ⊢
      refine (List.map_congr_left fun span hspan => hcopy span ?_).trans hspans
      have := (le_of_mem_spansFrom hspan).2
      rw [Nat.zero_add, ← hlaid.cursor] at this
      exact this
    cursor := hcursor.trans hlaid.cursor
    fits := by rw [hcursor]; exact Nat.le_trans hlaid.fits hsize
    grown := Nat.le_trans hlaid.grown hsize }

theorem Laid.append (howned : Owned namePrefix maxBytes slot blocks)
    (hlaid : packing.Laid first slot blocks done) (buffer : Bytes)
    (hfits : slot.cursor + buffer.length ≤ slot.capacity) :
    Owned namePrefix maxBytes { slot with cursor := slot.cursor + buffer.length }
      (blocks.write slot.name slot.cursor buffer) ∧
    Laid first
      { packing with
        spans := packing.spans ++ [⟨slot.cursor, buffer.length⟩]
        needed := packing.needed + buffer.length }
      { slot with cursor := slot.cursor + buffer.length }
      (blocks.write slot.name slot.cursor buffer) (done ++ [buffer]) := by
  obtain ⟨block, hblock, hlinked, hlength⟩ := howned.block
  have hwritten : blocks.write slot.name slot.cursor buffer slot.name =
      some { block with bytes := overwrite block.bytes slot.cursor buffer } := by
    rw [Blocks.write_self, hblock]
    rfl
  have htotal : (done ++ [buffer]).flatten.length = done.flatten.length + buffer.length := by
    rw [List.flatten_append, List.flatten_singleton, List.length_append]
  constructor
  · exact
      { howned with
        fresh := fun generation hlt =>
          (Blocks.write_eq_none _ _ _ _ _).mpr (howned.fresh generation hlt)
        block := ⟨_, hwritten, hlinked, (length_overwrite (by omega)).trans hlength⟩
        one := by
          intro generation hfile
          by_cases hname : generationName namePrefix generation = slot.name
          · exact hname
          · obtain ⟨other, hother, hopen⟩ := (Blocks.linked_iff _ _).mp hfile
            rw [Blocks.write_of_ne _ _ _ _ hname] at hother
            exact howned.one generation ((Blocks.linked_iff _ _).mpr ⟨other, hother, hopen⟩) }
  · refine ⟨?_, ?_, ?_, hfits, ?_, hlaid.accepted, hlaid.grown⟩
    · rw [spansFrom_concat, hlaid.spans, hlaid.cursor, Nat.zero_add]
    · -- The spans before are read as they were, and the new one as it was written.
      have hspans : packing.spans.map ((blocks.write slot.name slot.cursor buffer).copy
          slot.name) = done := by
        have hbefore := hlaid.read
        rw [hlaid.spans] at hbefore ⊢
        refine (List.map_congr_left fun span hspan => ?_).trans hbefore
        refine Blocks.copy_write_of_le _ _ hblock (by have := hlaid.fits; omega) ?_
        have := (le_of_mem_spansFrom hspan).2
        rw [Nat.zero_add, ← hlaid.cursor] at this
        exact this
      rw [List.map_append, List.map_singleton, hspans,
        Blocks.copy_write_self _ _ hblock (by have := hlaid.fits; omega)]
    · rw [htotal, ← hlaid.cursor]
    · rw [htotal, ← hlaid.needed]

theorem Laid.outOfBand (howned : Owned namePrefix maxBytes slot blocks)
    (hlaid : packing.Laid first slot blocks done) (room : ℕ → ℕ → Bool) (buffer : Bytes) :
    (∃ packing' slot' blocks',
      packing.outOfBand room buffer slot blocks = (.ok packing', slot', blocks') ∧
      Owned namePrefix maxBytes slot' blocks' ∧ packing'.Laid first slot' blocks'
        (done ++ [buffer])) ∨
    (∃ limit, maxBytes = some limit ∧ limit < slot.cursor + buffer.length ∧
      packing.outOfBand room buffer slot blocks = (.ok { packing with
        needed := packing.needed + buffer.length, refused := some limit }, slot, blocks)) ∨
    slot.CannotGrow room (slot.cursor + buffer.length) ∧
      ∃ slot', packing.outOfBand room buffer slot blocks =
        (.error .sharedSlotAllocationFailed, slot', blocks) ∧
        Owned namePrefix maxBytes slot' blocks := by
  rw [Packing.outOfBand]
  simp only [hlaid.accepted]
  rw [SharedSlot.write]
  by_cases hpast : slot.capacity < slot.cursor + buffer.length
  · simp only [if_pos hpast]
    by_cases hlimit : ∀ limit ∈ slot.maxBytes, slot.cursor + buffer.length ≤ limit
    · by_cases hstuck : slot.CannotGrow room (slot.cursor + buffer.length)
      · refine .inr (.inr ⟨hstuck, _, ?_, howned.skip⟩)
        rw [hstuck.grow_eq]
      · obtain ⟨size, hneeded, hbounded, hgrow⟩ :=
          SharedSlot.exists_grow blocks hpast hlimit hstuck
        rw [howned.bounded] at hbounded
        obtain ⟨hreplaced, hcopy⟩ :=
          howned.replace hlaid.fits (Nat.le_of_lt (Nat.lt_of_lt_of_le hpast hneeded)) hbounded
        rw [hgrow]
        have hmoved : packing.Laid first
            ({ slot with generation := slot.generation + 1 }.replace size blocks).1
            ({ slot with generation := slot.generation + 1 }.replace size blocks).2 done :=
          hlaid.move rfl (Nat.le_of_lt (Nat.lt_of_lt_of_le hpast hneeded)) hcopy
        obtain ⟨hkept, hlast⟩ := hmoved.append hreplaced buffer hneeded
        refine .inl ⟨_, _, _, rfl, hkept, ?_⟩
        rw [hlaid.accepted] at hlast
        exact hlast
    · obtain ⟨limit, hmax, hover⟩ : ∃ limit, slot.maxBytes = some limit ∧
          limit < slot.cursor + buffer.length := by
        cases hmax : slot.maxBytes with
        | none => exact absurd (fun limit hlimit => by rw [hmax] at hlimit; cases hlimit) hlimit
        | some limit =>
          refine ⟨limit, rfl, Nat.lt_of_not_le fun hle => hlimit ?_⟩
          intro other hother
          rw [hmax] at hother
          cases hother
          exact hle
      refine .inr (.inl ⟨limit, howned.bounded.symm.trans hmax, hover, ?_⟩)
      rw [SharedSlot.grow]
      simp only [hmax, if_pos hover]
  · simp only [if_neg hpast]
    obtain ⟨hkept, hlast⟩ := hlaid.append howned buffer (Nat.le_of_not_lt hpast)
    refine .inl ⟨_, _, _, rfl, hkept, ?_⟩
    rw [hlaid.accepted] at hlast
    exact hlast

theorem feed_of_refused (room : ℕ → ℕ → Bool) (buffers : List Bytes) {limit : ℕ}
    (hrefused : packing.refused = some limit) :
    feed room buffers packing slot blocks =
      (.ok { packing with needed := packing.needed + buffers.flatten.length }, slot, blocks) := by
  induction buffers generalizing packing with
  | nil => rfl
  | cons buffer buffers ih =>
    rw [feed, Packing.outOfBand]
    simp only [hrefused]
    refine (ih rfl).trans ?_
    rw [List.flatten_cons, List.length_append, Nat.add_assoc]

theorem feed_append {room : ℕ → ℕ → Bool} {before : List Bytes} {packing' : Packing}
    {slot' : SharedSlot} {blocks' : Blocks}
    (hbefore : feed room before packing slot blocks = (.ok packing', slot', blocks'))
    (after : List Bytes) :
    feed room (before ++ after) packing slot blocks = feed room after packing' slot' blocks' := by
  induction before generalizing packing slot blocks with
  | nil =>
    cases hbefore
    rfl
  | cons buffer before ih =>
    rw [List.cons_append, feed]
    rw [feed] at hbefore
    generalize packing.outOfBand room buffer slot blocks = next at hbefore ⊢
    obtain ⟨exc | packing, slot, blocks⟩ := next
    · cases hbefore
    · exact ih hbefore

/-- Some buffer is reached, with none refused before, for which the block cannot grow. -/
def Stuck (room : ℕ → ℕ → Bool) (buffers : List Bytes) (packing : Packing) (slot : SharedSlot)
    (blocks : Blocks) : Prop :=
  ∃ before buffer after packing' slot' blocks', buffers = before ++ buffer :: after ∧
    feed room before packing slot blocks = (.ok packing', slot', blocks') ∧
    packing'.refused = none ∧
    SharedSlot.CannotGrow room (slot'.cursor + buffer.length) slot'

theorem Stuck.feed_eq {buffers : List Bytes} (hstuck : Stuck room buffers packing slot blocks) :
    (feed room buffers packing slot blocks).1 = .error .sharedSlotAllocationFailed := by
  obtain ⟨before, buffer, after, packing', slot', blocks', rfl, hbefore, haccepted, hcannot⟩ :=
    hstuck
  rw [feed_append hbefore, feed, Packing.outOfBand]
  simp only [haccepted]
  rw [SharedSlot.write]
  simp only [if_pos hcannot.past]
  rw [hcannot.grow_eq]

/-- The three ends of a call. -/
theorem Laid.feed (howned : Owned namePrefix maxBytes slot blocks)
    (hlaid : packing.Laid first slot blocks done) (room : ℕ → ℕ → Bool) (buffers : List Bytes) :
    (∃ packing' slot' blocks',
      Packing.feed room buffers packing slot blocks = (.ok packing', slot', blocks') ∧
      Owned namePrefix maxBytes slot' blocks' ∧
      packing'.Laid first slot' blocks' (done ++ buffers)) ∨
    (∃ limit packing' slot' blocks', maxBytes = some limit ∧
      limit < (done ++ buffers).flatten.length ∧
      Packing.feed room buffers packing slot blocks = (.ok packing', slot', blocks') ∧
      packing'.refused = some limit ∧ packing'.needed = (done ++ buffers).flatten.length ∧
      Owned namePrefix maxBytes slot' blocks') ∨
    Stuck room buffers packing slot blocks ∧ ∃ slot' blocks',
      Packing.feed room buffers packing slot blocks =
        (.error .sharedSlotAllocationFailed, slot', blocks') ∧
      Owned namePrefix maxBytes slot' blocks' := by
  induction buffers generalizing packing slot blocks done with
  | nil =>
    rw [List.append_nil]
    exact .inl ⟨packing, slot, blocks, rfl, howned, hlaid⟩
  | cons buffer buffers ih =>
    rw [Packing.feed]
    rcases hlaid.outOfBand howned room buffer with
      ⟨packing', slot', blocks', hstep, hkept, hlast⟩ | ⟨limit, hmax, hover, hstep⟩ |
      ⟨hcannot, slot', hstep, hkept⟩
    · rw [hstep]
      have hdone : done ++ buffer :: buffers = (done ++ [buffer]) ++ buffers := by
        rw [List.append_assoc, List.singleton_append]
      rw [hdone]
      rcases ih hkept hlast with hend | hend | ⟨hstuck, hend⟩
      · exact .inl hend
      · exact .inr (.inl hend)
      · refine .inr (.inr ⟨?_, hend⟩)
        obtain ⟨before, other, after, packing'', slot'', blocks'', rfl, hbefore, hrest⟩ := hstuck
        refine ⟨buffer :: before, other, after, packing'', slot'', blocks'', rfl, ?_, hrest⟩
        rw [Packing.feed, hstep]
        exact hbefore
    · rw [hstep]
      have htotal : (done ++ buffer :: buffers).flatten.length =
          slot.cursor + buffer.length + buffers.flatten.length := by
        rw [List.flatten_append, List.length_append, List.flatten_cons, List.length_append,
          hlaid.cursor, Nat.add_assoc]
      simp only []
      refine .inr (.inl ⟨limit, _, _, _, hmax, ?_, feed_of_refused room buffers rfl, rfl, ?_,
        howned⟩)
      · omega
      · show packing.needed + buffer.length + buffers.flatten.length = _
        rw [htotal, hlaid.needed, hlaid.cursor]
    · rw [hstep]
      refine .inr (.inr ⟨?_, slot', blocks, rfl, hkept⟩)
      exact ⟨[], buffer, buffers, packing, slot, blocks, rfl, rfl, hlaid.accepted, hcannot⟩

theorem Stuck.exists_cannotGrow (howned : Owned namePrefix maxBytes slot blocks)
    (hlaid : packing.Laid first slot blocks done) {buffers : List Bytes}
    (hstuck : Stuck room buffers packing slot blocks) :
    ∃ needed ≤ (done ++ buffers).flatten.length, first < needed ∧
      ∃ generation, room generation needed = false := by
  obtain ⟨before, buffer, after, packing', slot', blocks', rfl, hbefore, haccepted, hcannot⟩ :=
    hstuck
  rcases hlaid.feed howned room before with
    ⟨packing'', slot'', blocks'', hfeed, -, hlast⟩ |
    ⟨limit, packing'', slot'', blocks'', -, -, hfeed, hrefused, -⟩ |
    ⟨-, slot'', blocks'', hfeed, -⟩
  · rw [hbefore] at hfeed
    cases hfeed
    have htotal : (done ++ (before ++ buffer :: after)).flatten.length =
        (done ++ before).flatten.length + (buffer.length + after.flatten.length) := by
      rw [← List.append_assoc, List.flatten_append, List.length_append, List.flatten_cons,
        List.length_append]
    refine ⟨_, ?_, Nat.lt_of_le_of_lt hlast.grown hcannot.past, _, hcannot.exact⟩
    rw [hlast.cursor, htotal]
    omega
  · rw [hbefore] at hfeed
    cases hfeed
    rw [haccepted] at hrefused
    cases hrefused
  · rw [hbefore] at hfeed
    cases hfeed

end Packing

/-! ### A call -/

/-- A call comes to a buffer for which the block cannot grow. -/
def SharedSlot.Stuck (room : ℕ → ℕ → Bool) (buffers : List Bytes) (slot : SharedSlot)
    (blocks : Blocks) : Prop :=
  Packing.Stuck room buffers {} slot.begin blocks

theorem Owned.begin (howned : Owned namePrefix maxBytes slot blocks) :
    Owned namePrefix maxBytes slot.begin blocks :=
  { howned with }

theorem Owned.not_stuck (howned : Owned namePrefix maxBytes slot blocks) {buffers : List Bytes}
    (hroom : buffers.flatten.length ≤ slot.capacity ∨
      ∀ generation, ∀ size ≤ buffers.flatten.length, room generation size = true) :
    ¬ slot.Stuck room buffers blocks := by
  intro hstuck
  obtain ⟨needed, hle, hpast, generation, hnone⟩ :=
    Packing.Stuck.exists_cannotGrow howned.begin (Packing.laid_begin slot blocks) hstuck
  rw [List.nil_append] at hle
  rcases hroom with hfits | hroom
  · omega
  · rw [hroom generation needed hle] at hnone
    cases hnone

theorem SlotReader.mapM_copy {reader : SlotReader} {name : String}
    (hmapped : reader.mapped = some name) (spans : List Span)
    (hinside : ∀ span ∈ spans, span.offset + span.length ≤ (blocks.bytes name).length) :
    spans.mapM (reader.copy blocks) = some (spans.map (blocks.copy name)) := by
  refine mapM_eq_some_map fun span hspan => ?_
  rw [SlotReader.copy, hmapped]
  exact if_neg (Nat.not_lt.mpr (hinside span hspan))

theorem Owned.attach (howned : Owned namePrefix maxBytes slot blocks) (reader : SlotReader) :
    reader.attach blocks slot.name = (true, ⟨some slot.name⟩) := by
  obtain ⟨mapped⟩ := reader
  rw [SlotReader.attach]
  by_cases hmapped : mapped = some slot.name
  · rw [hmapped, if_pos rfl]
  · rw [if_neg hmapped, if_pos]
    obtain ⟨block, hblock, hlinked, -⟩ := howned.block
    refine ⟨(Blocks.linked_iff _ _).mpr ⟨block, hblock, hlinked⟩, ?_⟩
    intro hempty
    have hlength := howned.length_bytes
    rw [hempty, List.length_nil] at hlength
    exact absurd howned.pos (by omega)

theorem Packing.Laid.unpack {pickle : Pickle Obj R} {first : ℕ} {packing : Packing} {obj : Obj}
    (howned : Owned namePrefix maxBytes slot blocks)
    (hlaid : packing.Laid first slot blocks (pickle.dumps obj).2)
    (hpickle : pickle.loads (pickle.dumps obj).1 (pickle.dumps obj).2 = some obj)
    (reader : SlotReader) :
    (reader.unpack blocks pickle ⟨(pickle.dumps obj).1, ⟨slot.name, packing.spans⟩⟩).1 =
      some obj := by
  have hread := hlaid.read
  rw [SlotReader.unpack]
  simp only []
  by_cases hnone : packing.spans = []
  · rw [if_pos hnone]
    rw [hnone, List.map_nil] at hread
    show pickle.loads _ [] = _
    rw [hread]
    exact hpickle
  · rw [if_neg hnone, howned.attach, if_pos rfl]
    show Option.bind (packing.spans.mapM _) _ = _
    rw [SlotReader.mapM_copy rfl, hread]
    · exact hpickle
    · intro span hspan
      rw [hlaid.spans] at hspan
      have hinside := (le_of_mem_spansFrom hspan).2
      rw [Nat.zero_add, ← hlaid.cursor] at hinside
      rw [howned.length_bytes]
      exact Nat.le_trans hinside hlaid.fits

/-- The spans of a packet lie one after the other from the start of the block that it names, and
inside of it. -/
structure Packet.Contiguous (packet : Packet R) (blocks : Blocks) (buffers : List Bytes) :
    Prop where
  spans : packet.header.spans = spansFrom 0 buffers
  disjoint : packet.header.spans.Pairwise fun a b => a.offset + a.length ≤ b.offset
  inside : ∀ span ∈ packet.header.spans,
    span.offset + span.length ≤ (blocks.bytes packet.header.name).length

namespace Exchange

variable {pickle : Pickle Obj R} {s : Exchange}

/-- What a call that packs an object is to come to, by whether the block can grow and whether the
object is within the limit: it raises the one error or the other, or what it returns is unpacked,
whatever the reader has mapped by then. -/
structure Packs (pickle : Pickle Obj R) (namePrefix : String) (maxBytes : Option ℕ) (s : Exchange)
    (room : ℕ → ℕ → Bool) (obj : Obj) : Prop where
  one : ∃ generation, s.slot.name = generationName namePrefix generation ∧
    ∀ other, s.blocks.linked (generationName namePrefix other) = true ↔ other = generation
  stuck : s.slot.Stuck room (pickle.dumps obj).2 s.blocks →
    (s.slot.pack pickle room obj s.blocks).1 = .error .sharedSlotAllocationFailed
  limit : ¬ s.slot.Stuck room (pickle.dumps obj).2 s.blocks → ∀ limit, maxBytes = some limit →
    limit < (pickle.dumps obj).2.flatten.length →
    (s.slot.pack pickle room obj s.blocks).1 =
      .error (.sharedSlotLimitExceeded (pickle.dumps obj).2.flatten.length limit)
  packed : ¬ s.slot.Stuck room (pickle.dumps obj).2 s.blocks →
    (∀ limit, maxBytes = some limit → (pickle.dumps obj).2.flatten.length ≤ limit) →
    ∃ packet, (s.slot.pack pickle room obj s.blocks).1 = .ok packet ∧
      packet.Contiguous (s.call pickle (.pack room obj)).blocks (pickle.dumps obj).2 ∧
      ∀ reader : SlotReader,
        (reader.unpack (s.call pickle (.pack room obj)).blocks pickle packet).1 = some obj
  fits : (pickle.dumps obj).2.flatten.length ≤ s.slot.capacity →
    ¬ s.slot.Stuck room (pickle.dumps obj).2 s.blocks
  roomy : (∀ generation, ∀ size ≤ (pickle.dumps obj).2.flatten.length,
    room generation size = true) → ¬ s.slot.Stuck room (pickle.dumps obj).2 s.blocks

theorem owned_start {initialBytes : ℕ} (hpos : 0 < initialBytes)
    (hlimit : ∀ limit ∈ maxBytes, initialBytes ≤ limit)
    (hfresh : ∀ generation, blocks (generationName namePrefix generation) = none) :
    Owned namePrefix maxBytes (start namePrefix maxBytes initialBytes blocks).slot
      (start namePrefix maxBytes initialBytes blocks).blocks where
  named := rfl
  bounded := rfl
  name := ⟨0, Nat.le_refl _, rfl⟩
  fresh := by
    intro generation hlt
    have hne : generationName namePrefix generation ≠ generationName namePrefix 0 := by
      intro h
      rw [generationName_injective namePrefix h] at hlt
      exact absurd hlt (Nat.lt_irrefl _)
    exact (Blocks.create_of_ne _ _ _ hne).trans (hfresh generation)
  block := ⟨_, Blocks.create_self _ _ _, rfl, List.length_replicate⟩
  one := by
    intro generation hlinked
    by_cases hname : generationName namePrefix generation = generationName namePrefix 0
    · exact hname
    · obtain ⟨block, hblock, -⟩ := (Blocks.linked_iff _ _).mp hlinked
      have hnone : blocks.create (generationName namePrefix 0) initialBytes
          (generationName namePrefix generation) = none :=
        (Blocks.create_of_ne _ _ _ hname).trans (hfresh generation)
      have hsome := hnone.symm.trans hblock
      cases hsome
  pos := hpos
  limit := hlimit

theorem owned_call (howned : Owned namePrefix maxBytes s.slot s.blocks) (pickle : Pickle Obj R)
    (call : Call Obj R) :
    Owned namePrefix maxBytes (s.call pickle call).slot (s.call pickle call).blocks := by
  cases call with
  | unpack packet => exact howned
  | pack room obj =>
    show Owned namePrefix maxBytes (s.slot.pack pickle room obj s.blocks).2.1
      (s.slot.pack pickle room obj s.blocks).2.2
    rw [SharedSlot.pack]
    rcases (Packing.laid_begin s.slot s.blocks).feed howned.begin room (pickle.dumps obj).2 with
      ⟨packing, slot, blocks, hfeed, hkept, hlaid⟩ |
      ⟨limit, packing, slot, blocks, -, -, hfeed, hrefused, -, hkept⟩ |
      ⟨-, slot, blocks, hfeed, hkept⟩
    · rw [hfeed]
      simp only [Packing.header, hlaid.accepted]
      exact hkept
    · rw [hfeed]
      simp only [Packing.header, hrefused]
      exact hkept
    · rw [hfeed]
      exact hkept

theorem owned_run (howned : Owned namePrefix maxBytes s.slot s.blocks) (pickle : Pickle Obj R)
    (calls : List (Call Obj R)) :
    Owned namePrefix maxBytes (s.run pickle calls).slot (s.run pickle calls).blocks := by
  induction calls generalizing s with
  | nil => exact howned
  | cons call calls ih => exact ih (owned_call howned pickle call)

theorem packs_of_owned (howned : Owned namePrefix maxBytes s.slot s.blocks)
    (hpickle : ∀ obj, pickle.loads (pickle.dumps obj).1 (pickle.dumps obj).2 = some obj)
    (room : ℕ → ℕ → Bool) (obj : Obj) : Packs pickle namePrefix maxBytes s room obj := by
  have hend := (Packing.laid_begin s.slot s.blocks).feed howned.begin room (pickle.dumps obj).2
  rw [List.nil_append] at hend
  refine ⟨?_, ?_, ?_, ?_, fun hfits => howned.not_stuck (.inl hfits),
    fun hroom => howned.not_stuck (.inr hroom)⟩
  · obtain ⟨generation, -, hname⟩ := howned.name
    refine ⟨generation, hname, fun other => ⟨?_, ?_⟩⟩
    · intro hlinked
      exact generationName_injective namePrefix ((howned.one other hlinked).trans hname)
    · rintro rfl
      obtain ⟨block, hblock, hlinked, -⟩ := howned.block
      rw [hname] at hblock
      exact (Blocks.linked_iff _ _).mpr ⟨block, hblock, hlinked⟩
  · intro hstuck
    have herror := Packing.Stuck.feed_eq hstuck
    rw [SharedSlot.pack]
    generalize Packing.feed room (pickle.dumps obj).2 {} s.slot.begin s.blocks = fed at herror ⊢
    obtain ⟨result, slot, blocks⟩ := fed
    cases herror
    rfl
  · intro hgrows limit hmax hover
    rw [SharedSlot.pack]
    rcases hend with ⟨packing, slot, blocks, hfeed, hkept, hlaid⟩ |
      ⟨bound, packing, slot, blocks, hbound, -, hfeed, hrefused, hneeded, -⟩ | ⟨hstuck, -⟩
    · -- What is in the block is within the limit.
      have hle := Nat.le_trans hlaid.fits (hkept.limit limit hmax)
      rw [hlaid.cursor] at hle
      omega
    · rw [hmax] at hbound
      cases hbound
      rw [hfeed]
      simp only [Packing.header, hrefused, hneeded]
    · exact absurd hstuck hgrows
  · intro hgrows hwithin
    rcases hend with ⟨packing, slot, blocks, hfeed, hkept, hlaid⟩ |
      ⟨limit, packing, slot, blocks, hmax, hover, -⟩ | ⟨hstuck, -⟩
    · have hpack : s.slot.pack pickle room obj s.blocks =
          (.ok ⟨(pickle.dumps obj).1, ⟨slot.name, packing.spans⟩⟩, slot, blocks) := by
        rw [SharedSlot.pack, hfeed]
        simp only [Packing.header, hlaid.accepted]
      have hblocks : (s.call pickle (.pack room obj)).blocks = blocks := by
        show (s.slot.pack pickle room obj s.blocks).2.2 = blocks
        rw [hpack]
      rw [hpack, hblocks]
      refine ⟨_, rfl, ⟨hlaid.spans, ?_, ?_⟩, hlaid.unpack hkept (hpickle obj)⟩
      · show packing.spans.Pairwise _
        rw [hlaid.spans]
        exact pairwise_spansFrom _ _
      · intro span hspan
        change span ∈ packing.spans at hspan
        rw [hlaid.spans] at hspan
        have hinside := (le_of_mem_spansFrom hspan).2
        rw [Nat.zero_add, ← hlaid.cursor] at hinside
        show _ ≤ (blocks.bytes slot.name).length
        rw [hkept.length_bytes]
        exact Nat.le_trans hinside hlaid.fits
    · exact absurd (hwithin limit hmax) (by omega)
    · exact absurd hstuck hgrows

/-- After any calls on a new slot and a reader, an object that is packed comes to one of the three
ends, and is unpacked as it was if it was packed. -/
theorem packs (pickle : Pickle Obj R)
    (hpickle : ∀ obj, pickle.loads (pickle.dumps obj).1 (pickle.dumps obj).2 = some obj)
    {initialBytes : ℕ} (hpos : 0 < initialBytes)
    (hlimit : ∀ limit ∈ maxBytes, initialBytes ≤ limit)
    (hfresh : ∀ generation, blocks (generationName namePrefix generation) = none)
    (calls : List (Call Obj R)) (room : ℕ → ℕ → Bool) (obj : Obj) :
    Packs pickle namePrefix maxBytes
      ((start namePrefix maxBytes initialBytes blocks).run pickle calls) room obj :=
  packs_of_owned (owned_run (owned_start hpos hlimit hfresh) pickle calls) hpickle room obj

/-- An object that is nothing but its flat buffers. -/
def buffersOnly : Pickle (List Bytes) Unit where
  dumps buffers := ((), buffers)
  loads _ buffers := some buffers

/-- After an object for which the block cannot grow, and one that passes the limit. -/
theorem packs_buffersOnly :
    Packs buffersOnly "rr_" (some 4)
      ((start "rr_" (some 4) 1 fun _ => none).run buffersOnly
        [.pack (fun _ _ => false) [[0, 0]], .pack (fun _ _ => true) [[0, 0, 0], [0, 0]]])
      (fun _ _ => true) [[1, 2], [], [3]] :=
  packs buffersOnly (fun _ => rfl) (by decide) (by intro limit h; cases h; decide) (fun _ => rfl) _
    _ _

/-- An object that passes the limit, in a block that cannot grow even for the first of its buffers,
fails for want of room. -/
theorem not_limitExceeded : ¬ ∀ (room : ℕ → ℕ → Bool) (buffers : List Bytes),
    4 < buffers.flatten.length →
    ((start "rr_" (some 4) 1 fun _ => none).slot.pack buffersOnly room buffers
      (start "rr_" (some 4) 1 fun _ => none).blocks).1 =
        .error (.sharedSlotLimitExceeded buffers.flatten.length 4) := by
  intro h
  have hraised := h (fun _ _ => false) [[0, 0], [0, 0, 0]] (by decide)
  have hstuck : ((start "rr_" (some 4) 1 fun _ => none).slot.pack buffersOnly (fun _ _ => false)
      [[0, 0], [0, 0, 0]] (start "rr_" (some 4) 1 fun _ => none).blocks).1 =
        .error .sharedSlotAllocationFailed := rfl
  rw [hstuck] at hraised
  cases hraised

end Exchange

end ReactorRuntime.SharedMemory
