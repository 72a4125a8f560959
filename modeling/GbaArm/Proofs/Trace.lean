import GbaArm.Proofs.BusHom
import GbaArm.Proofs.Moves

/-! A bus that keeps a record of every call, and what forgetting the record leaves. -/
namespace GbaArm

/-- A call on a bus with its answer. Notes for the log are not calls. -/
inductive BusCall
  | read32 (address value : UInt32)
  | read16 (address : UInt32) (value : UInt16)
  | read8 (address : UInt32) (value : UInt8)
  | write32 (address value : UInt32)
  | write16 (address : UInt32) (value : UInt16)
  | write8 (address : UInt32) (value : UInt8)
  | fetch32 (address value : UInt32)
  | internalCycle (pc : UInt32)
  | internalCycles (pc : UInt32) (count : Nat)
  | nonSequential
  | executingAt (pc : UInt32)
  | branched (target : UInt32)
  deriving DecidableEq, Repr

/-- The address and the answer of a fetch. -/
def BusCall.fetched : BusCall → Option (UInt32 × UInt32)
  | fetch32 address value => some (address, value)
  | _ => none

/-- A bus with the calls made so far, the latest first. -/
structure Traced (β : Type) where
  bus : β
  calls : List BusCall

namespace Traced

variable {β : Type} [Bus β]

def start (bus : β) : Traced β := ⟨bus, []⟩

def fetches (t : Traced β) : List (UInt32 × UInt32) := t.calls.filterMap BusCall.fetched

def ask {α : Type} (t : Traced β) (answer : α × β) (call : α → BusCall) : α × Traced β :=
  (answer.1, ⟨answer.2, call answer.1 :: t.calls⟩)

def tell (t : Traced β) (bus : β) (call : BusCall) : Traced β := ⟨bus, call :: t.calls⟩

instance : Bus (Traced β) where
  read32 address t := t.ask (Bus.read32 address t.bus) (.read32 address)
  read16 address t := t.ask (Bus.read16 address t.bus) (.read16 address)
  read8 address t := t.ask (Bus.read8 address t.bus) (.read8 address)
  write32 address value t := t.tell (Bus.write32 address value t.bus) (.write32 address value)
  write16 address value t := t.tell (Bus.write16 address value t.bus) (.write16 address value)
  write8 address value t := t.tell (Bus.write8 address value t.bus) (.write8 address value)
  fetch32 address t := t.ask (Bus.fetch32 address t.bus) (.fetch32 address)
  internalCycle pc t := t.tell (Bus.internalCycle pc t.bus) (.internalCycle pc)
  internalCycles pc count t := t.tell (Bus.internalCycles pc count t.bus) (.internalCycles pc count)
  nonSequential t := t.tell (Bus.nonSequential t.bus) .nonSequential
  executingAt pc t := t.tell (Bus.executingAt pc t.bus) (.executingAt pc)
  branched target t := t.tell (Bus.branched target t.bus) (.branched target)
  note event t := { t with bus := Bus.note event t.bus }

/-- The bus itself, without its record. -/
def forget : BusHom (Traced β) β where
  toFun := bus
  read32 _ _ := rfl
  read16 _ _ := rfl
  read8 _ _ := rfl
  fetch32 _ _ := rfl
  write32 _ _ _ := rfl
  write16 _ _ _ := rfl
  write8 _ _ _ := rfl
  internalCycle _ _ := rfl
  internalCycles _ _ _ := rfl
  nonSequential _ := rfl
  executingAt _ _ := rfl
  branched _ _ := rfl
  note _ _ := rfl

theorem fetches_of_touches {pc : UInt32} {t t' : Traced β}
    (h : Bus.Touches pc t t') : t'.fetches = t.fetches := by
  cases h <;> rfl

end Traced

/-- A memory that nothing writes. -/
structure Rom where
  word : UInt32 → UInt32

instance : Bus Rom where
  read32 address rom := (rom.word address, rom)
  read16 address rom := ((rom.word address).toUInt16, rom)
  read8 address rom := ((rom.word address).toUInt8, rom)
  write32 _ _ rom := rom
  write16 _ _ rom := rom
  write8 _ _ rom := rom
  internalCycle _ rom := rom
  nonSequential rom := rom
  executingAt _ rom := rom
  branched _ rom := rom

end GbaArm
