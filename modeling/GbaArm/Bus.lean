import GbaArm.Event

/-!
What the processor asks of the world. Nothing is assumed of a bus: it may answer two equal reads
differently. Every operation takes the state of the bus last.
-/
namespace GbaArm

class Bus (β : Type) where
  read32 (address : UInt32) : β → UInt32 × β
  read16 (address : UInt32) : β → UInt16 × β
  read8 (address : UInt32) : β → UInt8 × β
  write32 (address value : UInt32) : β → β
  write16 (address : UInt32) (value : UInt16) : β → β
  write8 (address : UInt32) (value : UInt8) : β → β
  /-- An instruction fetch. -/
  fetch32 (address : UInt32) : β → UInt32 × β := read32 address
  /-- One cycle inside the processor, executing at `pc`. -/
  internalCycle (pc : UInt32) : β → β
  internalCycles (pc : UInt32) (count : Nat) : β → β := Nat.repeat (internalCycle pc) count
  /-- The next access does not follow the last one. -/
  nonSequential : β → β
  /-- The program counter during the data accesses that follow. -/
  executingAt (pc : UInt32) : β → β
  /-- The program counter was written. -/
  branched (target : UInt32) : β → β
  /-- Something worth a line in the log. -/
  note (event : Event) : β → β := id

end GbaArm
