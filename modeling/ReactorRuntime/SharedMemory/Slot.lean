import Mathlib.Data.List.Basic
import Mathlib.Order.Lattice
import ReactorRuntime.Lists.Segment

/-!
# A writer's shared block, and the reader that copies out of it

`create_block` and `unlink` of `ipc/blocks.py`, `SharedSlot` and `SlotReader` of `ipc/slot.py`, and
`pack` and `unpack` of `ipc/payload.py`.

A block is known by its name, which no two blocks share, so `Blocks` holds the pages of every block
that was created, also of one whose file is gone: a mapping keeps them.  An object is what pickle
makes of it: the flat buffers it hands out, in order, and a rest that travels in the header and is
left out here, since it is read from the header alone.

Whether a directory has room for a block is an argument `room`, by the generation of the slot and
the size, so that every allocation may succeed or fail.
-/

namespace ReactorRuntime.SharedMemory

open ReactorRuntime.Lists

/-- The contents of a flat buffer. -/
abbrev Bytes := List UInt8

/-! ### Blocks -/

/-- A shared block: its bytes, and whether its file is still in the directory. -/
structure Block where
  bytes : Bytes
  linked : Bool
  deriving DecidableEq, Repr

abbrev Blocks := String → Option Block

def Blocks.create (blocks : Blocks) (name : String) (size : ℕ) : Blocks :=
  Function.update blocks name (some ⟨List.replicate size 0, true⟩)

/-- The blocks with the file of one removed (`Block.unlink`). -/
def Blocks.unlink (blocks : Blocks) (name : String) : Blocks :=
  Function.update blocks name ((blocks name).map fun block => { block with linked := false })

def Blocks.write (blocks : Blocks) (name : String) (offset : ℕ) (data : Bytes) : Blocks :=
  Function.update blocks name
    ((blocks name).map fun block => { block with bytes := overwrite block.bytes offset data })

/-- The bytes of a block, none for one that was never created. -/
def Blocks.bytes (blocks : Blocks) (name : String) : Bytes :=
  ((blocks name).map Block.bytes).getD []

def Blocks.linked (blocks : Blocks) (name : String) : Bool := (blocks name).any Block.linked

/-! ### The writer's slot -/

/-- A call holds more bytes than its slot may, or a block could not be created. -/
inductive SlotError where
  | sharedSlotLimitExceeded (needed limit : ℕ)
  | sharedSlotAllocationFailed
  deriving DecidableEq, Repr

/-- Where a buffer lies in a block. -/
structure Span where
  offset : ℕ
  length : ℕ
  deriving DecidableEq, Repr

/-- One shared block a writer fills, one call at a time. -/
structure SharedSlot where
  namePrefix : String
  maxBytes : Option ℕ
  generation : ℕ
  /-- The name of the block a reader attaches to. -/
  name : String
  /-- The size of the block. -/
  capacity : ℕ
  cursor : ℕ
  deriving DecidableEq, Repr

namespace SharedSlot

/-- A slot whose one block is `size` bytes and never grows (`_fixed_slot`), before the block is
created. -/
def fixed (namePrefix : String) (size : ℕ) : SharedSlot where
  namePrefix
  maxBytes := some size
  generation := 0
  name := namePrefix ++ "0"
  capacity := size
  cursor := 0

/-- Start a new call; the next write lands at offset zero. -/
def begin (slot : SharedSlot) : SharedSlot := { slot with cursor := 0 }

def close (slot : SharedSlot) (blocks : Blocks) : Blocks := blocks.unlink slot.name

/-- Move the bytes already written to a new block of `size` bytes, and close the old one. -/
def replace (slot : SharedSlot) (size : ℕ) (blocks : Blocks) : SharedSlot × Blocks :=
  let name := slot.namePrefix ++ toString slot.generation
  let moved := (blocks.create name size).write name 0 ((blocks.bytes slot.name).take slot.cursor)
  ({ slot with name, capacity := size }, slot.close moved)

/-- Replace the block by a larger one that holds `needed` bytes (`_grow`): one twice its size, up to
`max_bytes`, or one of exactly the size the call needs. -/
def grow (room : ℕ → ℕ → Bool) (needed : ℕ) (slot : SharedSlot) (blocks : Blocks) :
    Except SlotError Unit × SharedSlot × Blocks :=
  let doubled := max needed (2 * slot.capacity)
  let allocate (size : ℕ) : Except SlotError Unit × SharedSlot × Blocks :=
    let slot := { slot with generation := slot.generation + 1 }
    if room slot.generation size then (.ok (), slot.replace size blocks)
    else if size ≠ needed ∧ room slot.generation needed then (.ok (), slot.replace needed blocks)
    else (.error .sharedSlotAllocationFailed, slot, blocks)
  match slot.maxBytes with
  | none => allocate doubled
  | some limit =>
    if limit < needed then (.error (.sharedSlotLimitExceeded needed limit), slot, blocks)
    else allocate (min doubled limit)

/-- Append one flat buffer and return its span. -/
def write (room : ℕ → ℕ → Bool) (buffer : Bytes) (slot : SharedSlot) (blocks : Blocks) :
    Except SlotError Span × SharedSlot × Blocks :=
  let stop := slot.cursor + buffer.length
  let append (slot : SharedSlot) (blocks : Blocks) : Except SlotError Span × SharedSlot × Blocks :=
    (.ok ⟨slot.cursor, buffer.length⟩, { slot with cursor := stop },
      blocks.write slot.name slot.cursor buffer)
  if slot.capacity < stop then
    match slot.grow room stop blocks with
    | (.ok (), slot, blocks) => append slot blocks
    | (.error exc, slot, blocks) => (.error exc, slot, blocks)
  else append slot blocks

end SharedSlot

/-! ### Packing and unpacking -/

/-- What `pack` has done so far: the spans of the buffers written, the bytes the call needs, and the
limit of the slot once a buffer was refused. -/
structure Packing where
  spans : List Span := []
  needed : ℕ := 0
  refused : Option ℕ := none
  deriving DecidableEq, Repr

/-- One buffer that pickle hands out (`out_of_band`).  A slot that could not grow ends the call. -/
def Packing.outOfBand (room : ℕ → ℕ → Bool) (buffer : Bytes) (packing : Packing)
    (slot : SharedSlot) (blocks : Blocks) : Except SlotError Packing × SharedSlot × Blocks :=
  let packing := { packing with needed := packing.needed + buffer.length }
  match packing.refused with
  | some _ => (.ok packing, slot, blocks)
  | none =>
    match slot.write room buffer blocks with
    | (.ok span, slot, blocks) => (.ok { packing with spans := packing.spans ++ [span] }, slot, blocks)
    | (.error (.sharedSlotLimitExceeded _ limit), slot, blocks) =>
      (.ok { packing with refused := some limit }, slot, blocks)
    | (.error .sharedSlotAllocationFailed, slot, blocks) =>
      (.error .sharedSlotAllocationFailed, slot, blocks)

/-- What a header says about the buffers of its object: the block they are in, and the span of each. -/
structure Header where
  name : String
  spans : List Span
  deriving DecidableEq, Repr

/-- The header of a call whose buffers were all handed out, or the error that says how much it
needs (the end of `pack`). -/
def Packing.header (packing : Packing) (slot : SharedSlot) : Except SlotError Header :=
  match packing.refused with
  | some limit => .error (.sharedSlotLimitExceeded packing.needed limit)
  | none => .ok ⟨slot.name, packing.spans⟩

def Blocks.copy (blocks : Blocks) (name : String) (span : Span) : Bytes :=
  segment (blocks.bytes name) span.offset span.length

def Header.buffers (header : Header) (blocks : Blocks) : List Bytes :=
  header.spans.map (blocks.copy header.name)

/-! ### What an operation leaves as it is -/

namespace Blocks

variable (blocks : Blocks) (name : String)

@[simp] theorem create_self (size : ℕ) :
    blocks.create name size name = some ⟨List.replicate size 0, true⟩ :=
  Function.update_self ..

theorem create_of_ne (size : ℕ) {other : String} (h : other ≠ name) :
    blocks.create name size other = blocks other :=
  Function.update_of_ne h ..

@[simp] theorem unlink_self :
    blocks.unlink name name = (blocks name).map fun block => { block with linked := false } :=
  Function.update_self ..

theorem unlink_of_ne {other : String} (h : other ≠ name) :
    blocks.unlink name other = blocks other :=
  Function.update_of_ne h ..

@[simp] theorem write_self (offset : ℕ) (data : Bytes) : blocks.write name offset data name =
    (blocks name).map fun block => { block with bytes := overwrite block.bytes offset data } :=
  Function.update_self ..

theorem write_of_ne (offset : ℕ) (data : Bytes) {other : String} (h : other ≠ name) :
    blocks.write name offset data other = blocks other :=
  Function.update_of_ne h ..

theorem linked_iff : blocks.linked name ↔ ∃ block, blocks name = some block ∧ block.linked := by
  simp [linked, Option.any_eq_true]

@[simp] theorem bytes_unlink (other : String) : (blocks.unlink name).bytes other = blocks.bytes other := by
  by_cases h : other = name
  · subst h
    cases hb : blocks other <;> simp [bytes, hb]
  · rw [bytes, unlink_of_ne _ _ h, bytes]

theorem copy_unlink (other : String) (span : Span) :
    (blocks.unlink name).copy other span = blocks.copy other span := by
  rw [copy, bytes_unlink, copy]

theorem unlink_eq_none (other : String) : blocks.unlink name other = none ↔ blocks other = none := by
  by_cases h : other = name
  · subst h
    simp
  · rw [unlink_of_ne _ _ h]

theorem copy_create_of_ne (size : ℕ) {other : String} (h : other ≠ name) (span : Span) :
    (blocks.create name size).copy other span = blocks.copy other span := by
  rw [copy, bytes, create_of_ne _ _ _ h, copy, bytes]

theorem copy_write_of_ne (offset : ℕ) (data : Bytes) {other : String} (h : other ≠ name)
    (span : Span) : (blocks.write name offset data).copy other span = blocks.copy other span := by
  rw [copy, bytes, write_of_ne _ _ _ _ h, copy, bytes]

theorem write_eq_none (offset : ℕ) (data : Bytes) (other : String) :
    blocks.write name offset data other = none ↔ blocks other = none := by
  by_cases h : other = name
  · subst h
    simp
  · rw [write_of_ne _ _ _ _ h]

/-- What was written is read back. -/
theorem copy_write_self {offset : ℕ} {data : Bytes} {block : Block} (hblock : blocks name = some block)
    (h : offset ≤ block.bytes.length) :
    (blocks.write name offset data).copy name ⟨offset, data.length⟩ = data := by
  simp [copy, bytes, hblock, segment_overwrite_self h]

theorem copy_write_of_le {offset : ℕ} {data : Bytes} {block : Block} {span : Span}
    (hblock : blocks name = some block) (h : offset ≤ block.bytes.length)
    (hspan : span.offset + span.length ≤ offset) :
    (blocks.write name offset data).copy name span = blocks.copy name span := by
  simp [copy, bytes, hblock, segment_overwrite_of_le hspan h]

end Blocks

theorem SharedSlot.write_fixed (room : ℕ → ℕ → Bool) (buffer : Bytes) {slot : SharedSlot}
    (hfixed : slot.maxBytes = some slot.capacity) (blocks : Blocks) :
    slot.write room buffer blocks =
      if slot.capacity < slot.cursor + buffer.length then
        (.error (.sharedSlotLimitExceeded (slot.cursor + buffer.length) slot.capacity), slot, blocks)
      else (.ok ⟨slot.cursor, buffer.length⟩, { slot with cursor := slot.cursor + buffer.length },
        blocks.write slot.name slot.cursor buffer) := by
  unfold write
  dsimp only
  split_ifs with hstop
  · rw [grow, hfixed]
    dsimp only
    rw [if_pos hstop]
  · rfl

end ReactorRuntime.SharedMemory
