import ReactorRuntime.SharedMemory.Slot

/-!
# Packing objects into a block that grows

`pack` and `unpack` of `ipc/payload.py` whole, with `SlotReader` of `ipc/slot.py`, on a slot whose
block may grow.  `Obj` is the type of an object, and `R` that of a pickle without its flat buffers;
what pickle makes of an object is a parameter.

A reader that maps a block sees its bytes also once its file is gone.  An operation of a reader is
`none` where it raises.
-/

namespace ReactorRuntime.SharedMemory

variable {Obj R : Type}

/-- `pickle`, in protocol 5: `dumps` hands out the flat buffers of an object, and `loads` takes them
back. -/
structure Pickle (Obj R : Type) where
  dumps : Obj → R × List Bytes
  loads : R → List Bytes → Option Obj

structure Packet (R : Type) where
  blob : R
  header : Header

/-! ### The writer -/

/-- A new slot, whose first block is `initialBytes`, before the block is created. -/
def SharedSlot.growing (namePrefix : String) (maxBytes : Option ℕ) (initialBytes : ℕ) :
    SharedSlot where
  namePrefix
  maxBytes
  generation := 0
  name := namePrefix ++ toString 0
  capacity := initialBytes
  cursor := 0

/-- Buffers that pickle hands out one after the other. -/
def Packing.feed (room : ℕ → ℕ → Bool) :
    List Bytes → Packing → SharedSlot → Blocks → Except SlotError Packing × SharedSlot × Blocks
  | [], packing, slot, blocks => (.ok packing, slot, blocks)
  | buffer :: buffers, packing, slot, blocks =>
    match packing.outOfBand room buffer slot blocks with
    | (.ok packing, slot, blocks) => feed room buffers packing slot blocks
    | (.error exc, slot, blocks) => (.error exc, slot, blocks)

def SharedSlot.pack (pickle : Pickle Obj R) (room : ℕ → ℕ → Bool) (obj : Obj) (slot : SharedSlot)
    (blocks : Blocks) : Except SlotError (Packet R) × SharedSlot × Blocks :=
  match Packing.feed room (pickle.dumps obj).2 {} slot.begin blocks with
  | (.ok packing, slot, blocks) =>
    match packing.header slot with
    | .ok header => (.ok ⟨(pickle.dumps obj).1, header⟩, slot, blocks)
    | .error exc => (.error exc, slot, blocks)
  | (.error exc, slot, blocks) => (.error exc, slot, blocks)

/-! ### The reader -/

/-- `SlotReader`: the block it maps. -/
structure SlotReader where
  mapped : Option String := none
  deriving DecidableEq, Repr

namespace SlotReader

variable (reader : SlotReader) (blocks : Blocks)

/-- `attach`, and whether it raises nothing: a block whose file is gone, or is empty, is not
mapped. -/
def attach (name : String) : Bool × SlotReader :=
  if reader.mapped = some name then (true, reader)
  else if blocks.linked name = true ∧ blocks.bytes name ≠ [] then (true, ⟨some name⟩)
  else (false, ⟨none⟩)

def copy (span : Span) : Option Bytes :=
  match reader.mapped with
  | none => none
  | some name =>
    if (blocks.bytes name).length < span.offset + span.length then none
    else some (blocks.copy name span)

def unpack (pickle : Pickle Obj R) (packet : Packet R) : Option Obj × SlotReader :=
  if packet.header.spans = [] then (pickle.loads packet.blob [], reader)
  else if (reader.attach blocks packet.header.name).1 then
    ((packet.header.spans.mapM ((reader.attach blocks packet.header.name).2.copy blocks)).bind
      (pickle.loads packet.blob), (reader.attach blocks packet.header.name).2)
  else (none, (reader.attach blocks packet.header.name).2)

end SlotReader

/-! ### Calls -/

structure Exchange where
  slot : SharedSlot
  blocks : Blocks
  reader : SlotReader := {}

/-- A call: an object is packed, with room for the blocks it needs or without; or what was packed is
unpacked. -/
inductive Call (Obj R : Type) where
  | pack (room : ℕ → ℕ → Bool) (obj : Obj)
  | unpack (packet : Packet R)

namespace Exchange

/-- A slot whose first block was created, and a reader that has read nothing. -/
def start (namePrefix : String) (maxBytes : Option ℕ) (initialBytes : ℕ) (blocks : Blocks) :
    Exchange where
  slot := .growing namePrefix maxBytes initialBytes
  blocks := blocks.create (namePrefix ++ toString 0) initialBytes

/-- A call, whatever it returns or raises. -/
def call (pickle : Pickle Obj R) (s : Exchange) : Call Obj R → Exchange
  | .pack room obj =>
    { s with
      slot := (s.slot.pack pickle room obj s.blocks).2.1
      blocks := (s.slot.pack pickle room obj s.blocks).2.2 }
  | .unpack packet => { s with reader := (s.reader.unpack s.blocks pickle packet).2 }

def run (pickle : Pickle Obj R) (s : Exchange) (calls : List (Call Obj R)) : Exchange :=
  calls.foldl (call pickle) s

end Exchange

end ReactorRuntime.SharedMemory
