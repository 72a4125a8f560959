import GbaArm.Core.Basic

/-! Exceptions: save the status word, enter a mode, continue at a fixed vector. -/
namespace GbaArm.Core

variable {β : Type} [Bus β] (m : Core β)

def enterException (mode : Mode) (vector : UInt32) : Core β :=
  let m := (m.noteMode mode).onCpu fun c => c.enterException mode
  let m := m.branch vector
  m.note (.exceptionEntered mode vector (m.cpu.regs.read 14))

def irq : Core β := m.enterException .irq 0x18

def softwareInterrupt : Core β := m.enterException .supervisor 0x08

def undefinedInstruction : Core β :=
  (m.note (.undefinedInstruction m.cpu.pipe.execute (m.cpu.pc - 8))).enterException .undefined 0x04

end GbaArm.Core
