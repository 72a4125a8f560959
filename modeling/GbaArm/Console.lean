import GbaArm.Board
import GbaArm.Core.Step

/-! The whole machine: a processor on the real bus, and which images have been loaded. -/
namespace GbaArm

structure Console where
  core : Core Board
  biosLoaded : Bool
  romLoaded : Bool

namespace Console

/-- First address of the cartridge. -/
def romStart : UInt32 := 0x08000000

def initial (log : Log) : Console := ⟨⟨Cpu.initial, Board.initial log⟩, false, false⟩

variable (s : Console)

def cpu : Cpu := s.core.cpu

def board : Board := s.core.bus

def onBoard (f : Board → Board) : Console := { s with core := s.core.onBus f }

def cycles : Nat := s.board.timing.cycles

/-- Starts the BIOS if there is one, else the cartridge as a BIOS would have left it. -/
def reset : Console :=
  let core : Core Board := ⟨Cpu.initial, s.core.bus.reset⟩
  { s with
    core :=
      if s.biosLoaded then core.branch 0
      else if s.romLoaded then core.skipBoot romStart
      else core }

/-- Puts an image in place and resets. A refused image changes nothing. -/
def load (kind : ImageKind) (image : ByteArray) : Except Fault Console := do
  let board ← s.board.load kind image
  let core := { s.core with bus := board }
  let s : Console :=
    match kind with
    | .bios => { s with core, biosLoaded := true }
    | .rom => { s with core, romLoaded := true }
  return s.reset

/-- As `load`, given what reading the file gave. -/
def loadFile (kind : ImageKind) (file : Except FileError ByteArray) : Except Fault Console :=
  match file with
  | .ok image => s.load kind image
  | .error e => .error (.file e)

/-- The processor hears of the requests that the controller lets through. -/
def refreshIrq : Console :=
  { s with core := s.core.onCpu fun c => c.setIrqLine s.core.bus.io.irq.line }

def request (line : IrqLine) : Console := (s.onBoard fun b => b.request line).refreshIrq

/-- One step of the processor, in ARM state only. -/
def stepCore : Except Fault Nat × Console :=
  if s.core.cpu.isThumb then (.error (.thumbUnsupported s.core.cpu.pc), s)
  else
    let start := s.cycles
    let s := { s with core := s.core.step }.refreshIrq
    (.ok (s.cycles - start), s)

/-- One step, or one idle cycle while halted with no request that matches. Gives the cycles spent. -/
def step : Except Fault Nat × Console :=
  if s.board.timing.isIdle then
    if s.board.io.irq.matching = 0 then
      let start := s.cycles
      let s := s.onBoard Board.idle
      (.ok (s.cycles - start), s)
    else (s.onBoard fun b => b.changePower .wake).stepCore
  else s.stepCore

/-- Steps until `budget` cycles have been spent on top of `spent`, for at most `fuel` steps. -/
def runLoop (budget : Nat) : (fuel : Nat) → (spent : Nat) → Console → Except Fault Nat × Console
  | 0, spent, s => (.ok spent, s)
  | fuel + 1, spent, s =>
    if spent < budget then
      match s.step with
      | (.ok clocks, s) => runLoop budget fuel (spent + clocks) s
      | (.error fault, s) => (.error fault, s)
    else (.ok spent, s)

/-- Steps granted to each cycle of a budget. Only steps that cost nothing use more than one. -/
def stepsPerCycle : Nat := 1048576

/-- Steps until at least `budget` cycles have passed. Gives the cycles spent. -/
def run (budget : Nat) : Except Fault Nat × Console := runLoop budget (stepsPerCycle * budget) 0 s

end Console

end GbaArm
