import GbaArm.Proofs.BusHom
import GbaArm.Proofs.WaitSettings

/-!
The board without its clock: what it holds for a program to find. It is a bus of its own, on which every
access is free, and forgetting the clock respects every operation.
-/
namespace GbaArm

/-- The registers of the wait states as they were last written. -/
structure WaitRegisters where
  waitLow : UInt8
  waitHigh : UInt8
  memoryControl : UInt32

/-- What the board holds for a program to find: no clock, no cost, no mark, no buffer, no program
counter and no log. -/
structure BoardView where
  memory : Memory
  io : IoPage
  power : PowerState
  registers : WaitRegisters

namespace WaitStates

def registers (w : WaitStates) : WaitRegisters := ⟨w.waitLow, w.waitHigh, w.memoryControl⟩

/-- Fresh wait states under the registers given. -/
def ofRegisters (r : WaitRegisters) : WaitStates :=
  { initial with waitLow := r.waitLow, waitHigh := r.waitHigh, memoryControl := r.memoryControl }

end WaitStates

namespace BoardView

/-- A board that shows the view, its clock at zero. -/
def board (v : BoardView) : Board :=
  { Board.initial .silent with
    memory := v.memory
    io := v.io
    wait := .ofRegisters v.registers
    timing := { power := v.power } }

end BoardView

namespace Board

def view (b : Board) : BoardView := ⟨b.memory, b.io, b.timing.power, b.wait.registers⟩

end Board

/-- Reads and writes take effect at once, and nothing else does anything. -/
instance : Bus BoardView where
  read32 address v := (v.board.valueAt .word address, v)
  read16 address v := ((v.board.valueAt .half address).toUInt16, v)
  read8 address v := ((v.board.valueAt .byte address).toUInt8, v)
  write32 address value v := (v.board.updateAt .word address value).view
  write16 address value v := (v.board.updateAt .half address value.toUInt32).view
  write8 address value v := (v.board.updateAt .byte address value.toUInt32).view
  fetch32 address v := (v.memory.value .word (alignWord address), v)
  internalCycle _ v := v
  internalCycles _ _ v := v
  nonSequential v := v
  executingAt _ v := v
  branched _ v := v

namespace WaitStates

variable (w : WaitStates)

/-- The registers are settings. -/
theorem registers_congr {w k : WaitStates} (same : w.settings = k.settings) :
    w.registers = k.registers := by
  have kept : w.settings.registers = k.settings.registers := congrArg registers same
  exact kept

theorem registers_setWindow (window : Nat) (control : UInt8) :
    (w.setWindow window control).registers = w.registers := by
  simp only [registers, setWindow]

theorem registers_writeWaitLow (data : UInt8) :
    (w.writeWaitLow data).registers = { w.registers with waitLow := data } := by
  simp only [registers, writeWaitLow, setWindow]

theorem registers_writeWaitHigh (data : UInt8) :
    (w.writeWaitHigh data).registers = { w.registers with waitHigh := data &&& 0x5F } := by
  have windowed := registers_setWindow w 2 data
  rw [← windowed]
  unfold writeWaitHigh
  generalize w.setWindow 2 data = k
  simp only
  split <;> rfl

/-- What a configuration write leaves in the registers depends on what was there. -/
theorem registers_configure {w k : WaitStates} (same : w.registers = k.registers)
    (write : ConfigWrite) : (w.configure write).registers = (k.configure write).registers := by
  obtain ⟨low, high, control⟩ := WaitRegisters.mk.inj same
  cases write with
  | waitLow data => simp only [configure, registers_writeWaitLow, same]
  | waitHigh data => simp only [configure, registers_writeWaitHigh, same]
  | waitBoth data =>
    simp only [configure, registers_writeWaitHigh, registers_writeWaitLow, same]
  | controlByte address data =>
    unfold configure writeControlByte
    simp only [control]
    split <;> simp [registers, low, high]
  | controlHalf address data =>
    unfold configure writeControlHalf
    simp only [control]
    split <;> simp [registers, low, high]
  | controlWord data => simp [configure, writeControlWord, registers, low, high]

end WaitStates

namespace Board

variable {b b' : Board}

theorem view_charge {cost : WaitStates → Nat × WaitStates}
    (kept : (cost b.wait).2.settings = b.wait.settings) : (b.charge cost).view = b.view :=
  congrArg (BoardView.mk b.memory b.io b.timing.power) (WaitStates.registers_congr kept)

theorem view_idle : b.idle.view = b.view := view_charge (WaitStates.settings_multiClock _ _ _)

theorem view_chargeAccess (width : Width) (address : UInt32) :
    (b.chargeAccess width address).view = b.view := view_charge (WaitStates.settings_access _ _ _ _)

theorem view_fetch (address : UInt32) : (b.fetch address).2.view = b.view :=
  view_charge (b := { b with pc := alignWord address }) (WaitStates.settings_fetch _ _)

theorem view_internalCycles (pc : UInt32) (count : Nat) : (b.internalCycles pc count).view = b.view :=
  view_charge (b := { b with pc }) (WaitStates.settings_internalCycles _ _ _)

theorem view_board (v : BoardView) : v.board.view = v := rfl

/-- What is read depends on what is in view. -/
theorem valueAt_view (b : Board) (width : Width) (address : UInt32) :
    b.view.board.valueAt width address = b.valueAt width address := rfl

theorem readIoByte_view (b : Board) (address : UInt32) :
    b.view.board.readIoByte address = b.readIoByte address := rfl

theorem view_configure (same : b.view = b'.view) (write : ConfigWrite) :
    (b.configure write).view = (b'.configure write).view := by
  obtain ⟨memory, io, power, registers⟩ := BoardView.mk.inj same
  have configured := WaitStates.registers_configure registers write
  show BoardView.mk b.memory b.io b.timing.power (b.wait.configure write).registers = _
  rw [memory, io, power, configured]
  rfl

theorem view_changePower (same : b.view = b'.view) (change : PowerChange) :
    (b.changePower change).view = (b'.changePower change).view := by
  obtain ⟨memory, io, power, registers⟩ := BoardView.mk.inj same
  cases change <;> simp [view, changePower, noteAll, Timing.change, memory, io, registers]

theorem view_writeIoByte (same : b.view = b'.view) (address : UInt32) (value : UInt8) :
    (b.writeIoByte address value).view = (b'.writeIoByte address value).view := by
  obtain ⟨memory, io, power, registers⟩ := BoardView.mk.inj same
  unfold writeIoByte
  simp only
  split
  · exact view_configure same _
  · split
    · exact view_configure same _
    · split
      · exact view_changePower same _
      · split
        · exact view_configure same _
        · simp [view, memory, io, power, registers]

theorem view_writeIo (same : b.view = b'.view) (width : Width) (address value : UInt32) :
    (b.writeIo width address value).view = (b'.writeIo width address value).view := by
  cases width with
  | byte => exact view_writeIoByte same _ _
  | half => exact view_writeIoByte (view_writeIoByte same _ _) _ _
  | word =>
    exact view_writeIoByte (view_writeIoByte (view_writeIoByte (view_writeIoByte same _ _) _ _) _ _) _ _

theorem view_updateAt (same : b.view = b'.view) (width : Width) (address value : UInt32) :
    (b.updateAt width address value).view = (b'.updateAt width address value).view := by
  obtain ⟨memory, io, power, registers⟩ := BoardView.mk.inj same
  unfold updateAt
  split
  · exact view_writeIo same width _ value
  · simp [view, memory, io, power, registers]

/-- What a board reads is what its view does. -/
theorem value_read (b : Board) (width : Width) (address : UInt32) :
    (b.read width address).1 = b.view.board.valueAt width address := by
  have charged : (b.chargeAccess width address).view = b.view := view_chargeAccess width address
  show (b.chargeAccess width address).valueAt width address = _
  rw [← valueAt_view, charged]

/-- A write does to the view what it does to a board that shows it. -/
theorem view_write (b : Board) (width : Width) (address value : UInt32) :
    (b.view.board.updateAt width address value).view = (b.write width address value).view :=
  view_updateAt ((view_board b.view).trans (view_chargeAccess width address).symm) width address value

/-- Forgetting the clock respects every operation of the bus. -/
def viewHom : BusHom Board BoardView where
  toFun := view
  read32 address b := Prod.ext (value_read b .word address).symm (view_chargeAccess .word address).symm
  read16 address b :=
    Prod.ext (congrArg UInt32.toUInt16 (value_read b .half address).symm)
      (view_chargeAccess .half address).symm
  read8 address b :=
    Prod.ext (congrArg UInt32.toUInt8 (value_read b .byte address).symm)
      (view_chargeAccess .byte address).symm
  fetch32 address _ := Prod.ext rfl (view_fetch address).symm
  write32 address value b := view_write b .word address value
  write16 address value b := view_write b .half address value.toUInt32
  write8 address value b := view_write b .byte address value.toUInt32
  internalCycle pc _ := (view_internalCycles pc 1).symm
  internalCycles pc count _ := (view_internalCycles pc count).symm
  nonSequential _ := rfl
  executingAt _ _ := rfl
  branched _ _ := rfl
  note _ _ := rfl

end Board

end GbaArm
