import GbaArm.Proofs.ConsoleRuns
import GbaArm.Proofs.MemoryMap

/-!
Images in place, or nothing at all. A load works on the memories, the flag and the reset one after the
other; if it fails none of them has been touched, and if it succeeds only the images say what becomes of
the rest of the console.
-/
namespace GbaArm

namespace ImageKind

/-- A BIOS may be short, a cartridge may not be empty. -/
def admits : ImageKind → Nat → Bool
  | bios, size => size ≤ 0x4000
  | rom, size => 0 < size && size ≤ 0x2000000

def refusal : ImageKind → Nat → Fault
  | bios, size => .biosSize size
  | rom, size => .romSize size

end ImageKind

/-- The image put over the memory of a BIOS once that is cleared, or in the place of the cartridge. What has
been changed before a failure stays changed. -/
def Memory.loadInPlace (m : Memory) (kind : ImageKind) (image : ByteArray) : Except Fault Unit × Memory :=
  match kind with
  | .bios =>
    if biosSize < image.size then (.error (.biosSize image.size), m)
    else
      let m := { m with bios := ⟨Array.replicate m.bios.size 0⟩ }
      (.ok (), { m with bios := image.copySlice 0 m.bios 0 image.size })
  | .rom =>
    if image.size = 0 ∨ romLimit < image.size then (.error (.romSize image.size), m)
    else (.ok (), { m with rom := image })

def Board.loadInPlace (b : Board) (kind : ImageKind) (image : ByteArray) : Except Fault Unit × Board :=
  let (result, memory) := b.memory.loadInPlace kind image
  let b := { b with memory }
  match result with
  | .ok () => (.ok (), b.note (.imageLoaded kind image.size))
  | .error fault => (.error fault, b)

/-- The memories with an image in the place of the one before it. After a BIOS there are zeros. -/
def Memory.holding (m : Memory) (image : ByteArray) : ImageKind → Memory
  | .bios => { m with bios := ⟨image.data ++ Array.replicate (0x4000 - image.size) 0⟩ }
  | .rom => { m with rom := image }

/-- The processor as a boot program hands it over to the cartridge: in System mode at the first word,
with a stack for each of three modes and the pipeline to refill. -/
def Cpu.handedOver : Cpu :=
  { Cpu.initial with
    regs := { (RegisterFile.zeroed.write 13 0x03007F00).setPc Console.romStart with
      irqCopy := ⟨0x03007FA0, 0⟩
      supervisorCopy := ⟨0x03007FE0, 0⟩ }
    flags := Flags.ofNzcv 0x1F
    control := 0x1F }

namespace Console

def loadInPlace (s : Console) (kind : ImageKind) (image : ByteArray) : Except Fault Unit × Console :=
  let (result, board) := s.board.loadInPlace kind image
  let s := s.onBoard fun _ => board
  match result, kind with
  | .ok (), .bios => (.ok (), { s with biosLoaded := true }.reset)
  | .ok (), .rom => (.ok (), { s with romLoaded := true }.reset)
  | .error fault, _ => (.error fault, s)

def loadFileInPlace (s : Console) (kind : ImageKind) (file : Except FileError ByteArray) :
    Except Fault Unit × Console :=
  match file with
  | .ok image => s.loadInPlace kind image
  | .error e => (.error (.file e), s)

/-- The console as a reset leaves it with the images that have been loaded, starting the BIOS if there
is one and the cartridge if there is no other. -/
def rebooted (memory : Memory) (log : Log) (biosLoaded romLoaded : Bool) : Console where
  core :=
    { cpu := if biosLoaded then Cpu.initial else if romLoaded then Cpu.handedOver else Cpu.initial
      bus :=
        { Board.initial log with
          memory
          pc := if biosLoaded then 0 else if romLoaded then romStart else 0 } }
  biosLoaded := biosLoaded
  romLoaded := romLoaded

def hasLoaded (s : Console) : ImageKind → Bool
  | .bios => s.biosLoaded
  | .rom => s.romLoaded

/-- With the image in place and its flag set, but not yet reset. -/
def supplied (s : Console) (kind : ImageKind) (image : ByteArray) : Console where
  core :=
    { s.core with
      bus := { s.board with memory := s.board.memory.holding image kind }.note
        (.imageLoaded kind image.size) }
  biosLoaded := kind == .bios || s.biosLoaded
  romLoaded := kind == .rom || s.romLoaded

/-- What may be done to a console: a command is obeyed, or something is asked of its bus directly. -/
inductive Deed
  | command (command : Command)
  | direct (request : BoardRequest)

def undergo (s : Console) : Deed → Console
  | .command command => s.obey command
  | .direct request => s.onBoard fun b => b.serve request

def undergoAll (s : Console) (past : List Deed) : Console := past.foldl undergo s

/-- Puts an image of the kind in place. An image put on the bus directly does not count. -/
def Deed.loads (kind : ImageKind) : Deed → Bool
  | .command (.load other image) | .command (.loadFile other (.ok image)) =>
    other == kind && other.admits image.size
  | _ => false

end Console

theorem Board.furnished_kept : Bus.Keeps Board.Furnished where
  touch touched h := by
    cases touched with
    | read32 address => exact h.serve (.read .word address)
    | read16 address => exact h.serve (.read .half address)
    | read8 address => exact h.serve (.read .byte address)
    | write32 address value => exact h.write .word address value
    | write16 address value => exact h.write .half address value.toUInt32
    | write8 address value => exact h.write .byte address value.toUInt32
    | internalCycle => exact h.serve (.internalCycle _)
    | internalCycles count => exact h.serve (.internalCycles _ count)
    | nonSequential => exact h.serve .nonSequential
    | executingAt => exact h.serve (.executingAt _)
    | note => exact { h with }
  fetch address _ h := h.serve (.fetch address)
  branched target _ h := h.serve (.branched target)

theorem Board.Furnished.sized_bios {b : Board} (h : b.Furnished) :
    b.memory.bios.size = Memory.biosSize := h.sized .bios (by decide)

namespace Bytes

theorem data_extend (byte : UInt8) (n : Nat) (start : ByteArray) :
    (extend byte n start).data = start.data ++ Array.replicate n byte := by
  induction n generalizing start with
  | zero => simp [extend]
  | succ n ih =>
    rw [extend, ih, ByteArray.data_push, ← Array.append_singleton, Array.append_assoc]
    rw [Array.replicate_succ']

end Bytes

namespace Memory

variable {m : Memory}

theorem load_eq (m : Memory) (kind : ImageKind) (image : ByteArray) :
    m.load kind image =
      if kind.admits image.size then .ok (m.holding image kind)
      else .error (kind.refusal image.size) := by
  cases kind with
  | bios =>
    have padded : padBios image = ⟨image.data ++ Array.replicate (0x4000 - image.size) 0⟩ :=
      ByteArray.ext (Bytes.data_extend ..)
    simp only [load, padded, holding, ImageKind.admits, ImageKind.refusal, decide_eq_true_eq]
    rfl
  | rom =>
    simp only [load, holding, ImageKind.admits, ImageKind.refusal, Bool.and_eq_true, decide_eq_true_eq]
    rfl

/-- A shorter image leaves nothing of a longer one before it. -/
theorem copySlice_cleared (size : Nat) (image : ByteArray) :
    image.copySlice 0 ⟨Array.replicate size 0⟩ 0 image.size =
      ⟨image.data ++ Array.replicate (size - image.size) 0⟩ := by
  have whole : image.data.extract 0 image.size = image.data := Array.extract_size
  simp [ByteArray.copySlice, whole]

theorem loadInPlace_eq (sized : m.bios.size = biosSize) (kind : ImageKind) (image : ByteArray) :
    m.loadInPlace kind image =
      if kind.admits image.size then (.ok (), m.holding image kind)
      else (.error (kind.refusal image.size), m) := by
  cases kind with
  | bios =>
    simp only [ImageKind.admits, decide_eq_true_eq]
    rw [loadInPlace]
    by_cases fits : image.size ≤ 0x4000
    · have short : ¬ biosSize < image.size := Nat.not_lt.mpr fits
      rw [if_neg short, if_pos fits]
      simp only [sized, copySlice_cleared, biosSize]
      rfl
    · have long : biosSize < image.size := Nat.lt_of_not_le fits
      rw [if_pos long, if_neg fits]
      rfl
  | rom =>
    have admitted : (image.size = 0 ∨ romLimit < image.size) ↔ ¬ ImageKind.rom.admits image.size := by
      simp only [ImageKind.admits, romLimit, Bool.and_eq_true, decide_eq_true_eq]
      omega
    simp only [loadInPlace, admitted, ite_not]
    rfl

end Memory

/-- The wait states of a reset are those after a jump. -/
theorem WaitStates.breakStream_initial : WaitStates.initial.breakStream = WaitStates.initial := rfl

namespace Core

theorem setStatus_eq (m : Core Board) (value : UInt32) :
    ∃ log, m.setStatus value = ⟨m.cpu.setStatus value, { m.bus with log }⟩ := by
  obtain ⟨log, bus⟩ := noteMode_bus m (Mode.ofBits value)
  have noted : m.noteMode (Mode.ofBits value) = ⟨m.cpu, { m.bus with log }⟩ := by
    rw [← bus, ← noteMode_cpu m (Mode.ofBits value)]
  exact ⟨log, by rw [setStatus, noted]; rfl⟩

/-- Three stack pointers are set on the way, each in its own mode. -/
theorem skipBoot_eq (b : Board) : ∃ log, (⟨Cpu.initial, b⟩ : Core Board).skipBoot Console.romStart =
    ⟨Cpu.handedOver, Bus.branched Console.romStart { b with log }⟩ := by
  let supervisor := (Cpu.initial.setStatus 0x13).writeReg 13 0x03007FE0
  let irq := (supervisor.setStatus 0x12).writeReg 13 0x03007FA0
  let system := (irq.setStatus 0x1F).writeReg 13 0x03007F00
  have cpu : ({ system with regs := system.regs.setPc Console.romStart, pipe.bubbles := 2 } : Cpu) =
      Cpu.handedOver := by decide +kernel
  obtain ⟨log, first⟩ := setStatus_eq ⟨Cpu.initial, b⟩ 0x13
  obtain ⟨log', second⟩ := setStatus_eq ⟨supervisor, { b with log }⟩ 0x12
  obtain ⟨log'', third⟩ := setStatus_eq ⟨irq, { b with log := log' }⟩ 0x1F
  refine ⟨log'', ?_⟩
  rw [skipBoot, ← cpu, first]
  simp only [onCpu]
  rw [second]
  simp only
  rw [third]
  rfl

end Core

namespace Console

variable {s t : Console}

theorem reset_eq (s : Console) :
    ∃ log, s.reset = rebooted s.board.memory log s.biosLoaded s.romLoaded := by
  have fresh : ∀ log, { s.core.bus.reset with log } =
      { Board.initial log with memory := s.core.bus.memory } := fun log => rfl
  have jumped : ∀ entry log, Bus.branched entry { s.core.bus.reset with log } =
      { Board.initial log with memory := s.core.bus.memory, pc := entry } := fun entry log =>
    congrArg (fun wait => { Board.initial log with memory := s.core.bus.memory, pc := entry, wait })
      WaitStates.breakStream_initial
  have started : (⟨Cpu.initial, s.core.bus.reset⟩ : Core Board).branch 0 =
      ⟨Cpu.initial, Bus.branched 0 s.core.bus.reset⟩ :=
    congrArg (Core.mk · _) (by decide +kernel : ({ Cpu.initial with
      regs := Cpu.initial.regs.setPc 0, pipe.bubbles := 2 } : Cpu) = Cpu.initial)
  unfold reset rebooted
  simp only
  cases s.biosLoaded with
  | true =>
    rw [if_pos rfl, started]
    have core := congrArg (Core.mk Cpu.initial) (jumped 0 s.core.bus.log)
    exact ⟨s.core.bus.log, congrArg (Console.mk · true s.romLoaded) core⟩
  | false =>
    cases s.romLoaded with
    | true =>
      obtain ⟨log, booted⟩ := Core.skipBoot_eq s.core.bus.reset
      rw [jumped] at booted
      exact ⟨log, congrArg (Console.mk · false true) booted⟩
    | false =>
      have core := congrArg (Core.mk Cpu.initial) (fresh s.core.bus.log)
      exact ⟨s.core.bus.log, congrArg (Console.mk · false false) core⟩

theorem load_eq (s : Console) (kind : ImageKind) (image : ByteArray) :
    s.load kind image =
      if kind.admits image.size then .ok (s.supplied kind image).reset
      else .error (kind.refusal image.size) := by
  rw [load, Board.load, Memory.load_eq]
  split
  · cases kind <;> rfl
  · rfl

theorem loadInPlace_eq (sized : s.board.memory.bios.size = Memory.biosSize) (kind : ImageKind)
    (image : ByteArray) :
    s.loadInPlace kind image =
      if kind.admits image.size then (.ok (), (s.supplied kind image).reset)
      else (.error (kind.refusal image.size), s) := by
  rw [loadInPlace, Board.loadInPlace, Memory.loadInPlace_eq sized]
  cases kind.admits image.size with
  | true => cases kind <;> rfl
  | false => rfl

theorem furnished_rebooted {memory : Memory} (sized : memory.Sized) (log : Log)
    (biosLoaded romLoaded : Bool) : (rebooted memory log biosLoaded romLoaded).board.Furnished :=
  have fresh := Board.furnished_initial log
  ⟨sized, fresh.page, fresh.masked⟩

theorem furnished_reset (sized : s.board.memory.Sized) : s.reset.board.Furnished := by
  obtain ⟨log, rebooted⟩ := reset_eq s
  exact rebooted ▸ furnished_rebooted sized log s.biosLoaded s.romLoaded

theorem furnished_obey_load (h : s.board.Furnished) (kind : ImageKind) (image : ByteArray) :
    (s.obey (.load kind image)).board.Furnished := by
  have loaded := Memory.load_eq s.board.memory kind image
  rw [obey, load_eq]
  split at loaded
  · next admitted =>
    rw [if_pos admitted]
    exact furnished_reset (s := s.supplied kind image) (h.sized.load loaded)
  · next refused =>
    rw [if_neg refused]
    exact h

theorem furnished_step (h : s.board.Furnished) : s.step.2.board.Furnished := by
  cases dozes : s.dozes with
  | true =>
    rw [step_of_dozes dozes]
    exact h.serve .idle
  | false =>
    obtain ⟨log, board⟩ := woken_board s
    have awake : s.woken.board.Furnished := board ▸ { h with }
    rw [step_of_awake dozes]
    cases thumb : s.woken.cpu.isThumb with
    | true => exact stepCore_thumb thumb ▸ awake
    | false => exact stepCore_arm thumb ▸ Core.step_keeps (m := s.woken.core) Board.furnished_kept awake

theorem furnished_undergo (h : s.board.Furnished) (deed : Deed) : (s.undergo deed).board.Furnished := by
  cases deed with
  | direct request => exact h.serve request
  | command command =>
    cases command with
    | load kind image => exact furnished_obey_load h kind image
    | loadFile kind file =>
      cases file with
      | ok image => exact furnished_obey_load h kind image
      | error e => exact h
    | reset => exact furnished_reset h.sized
    | request line => exact h.serve (.request line)
    | step => exact furnished_step h
    | run budget =>
      exact runLoop_keeps (P := fun s => s.board.Furnished) (fun _ h => furnished_step h) budget _ 0 h

theorem furnished_undergoAll (h : s.board.Furnished) (past : List Deed) :
    (s.undergoAll past).board.Furnished := by
  induction past generalizing s with
  | nil => exact h
  | cons deed rest ih => exact ih (furnished_undergo h deed)

theorem hasLoaded_reset (s : Console) (kind : ImageKind) : s.reset.hasLoaded kind = s.hasLoaded kind := by
  cases kind <;> rfl

theorem hasLoaded_step (s : Console) (kind : ImageKind) : s.step.2.hasLoaded kind = s.hasLoaded kind := by
  cases dozes : s.dozes with
  | true =>
    rw [step_of_dozes dozes]
    cases kind <;> rfl
  | false =>
    rw [step_of_awake dozes]
    cases thumb : s.woken.cpu.isThumb with
    | true =>
      rw [stepCore_thumb thumb]
      cases kind <;> rfl
    | false =>
      rw [stepCore_arm thumb]
      cases kind <;> rfl

theorem hasLoaded_supplied (s : Console) (kind other : ImageKind) (image : ByteArray) :
    (s.supplied kind image).hasLoaded other = (kind == other || s.hasLoaded other) := by
  cases other <;> rfl

theorem hasLoaded_undergo (s : Console) (deed : Deed) (kind : ImageKind) :
    (s.undergo deed).hasLoaded kind = (deed.loads kind || s.hasLoaded kind) := by
  have loaded : ∀ other image, (s.obey (.load other image)).hasLoaded kind =
      ((Deed.command (.load other image)).loads kind || s.hasLoaded kind) := by
    intro other image
    rw [obey, load_eq, Deed.loads]
    split
    · next admitted =>
      rw [admitted, Bool.and_true, ← hasLoaded_supplied s other kind image]
      exact hasLoaded_reset _ kind
    · next refused =>
      rw [Bool.eq_false_iff.mpr refused, Bool.and_false, Bool.false_or]
      rfl
  cases deed with
  | direct request => cases kind <;> rfl
  | command command =>
    cases command with
    | load other image => exact loaded other image
    | loadFile other file =>
      cases file with
      | ok image => exact loaded other image
      | error e => rfl
    | reset => exact hasLoaded_reset s kind
    | request line => cases kind <;> rfl
    | step => exact hasLoaded_step s kind
    | run budget =>
      exact runLoop_keeps (P := fun t => t.hasLoaded kind = s.hasLoaded kind)
        (fun t same => (hasLoaded_step t kind).trans same) budget _ 0 rfl

/-- An image counts as loaded exactly if it has been at some time. -/
theorem hasLoaded_undergoAll (s : Console) (past : List Deed) (kind : ImageKind) :
    (s.undergoAll past).hasLoaded kind = (s.hasLoaded kind || past.any (·.loads kind)) := by
  induction past generalizing s with
  | nil => exact (Bool.or_false _).symm
  | cons deed rest ih =>
    rw [undergoAll, List.foldl_cons, List.any_cons, ← Bool.or_assoc, Bool.or_comm (s.hasLoaded kind),
      ← hasLoaded_undergo]
    exact ih (s.undergo deed)

/-- Whatever has been done since power-on, a BIOS is refused exactly if it is longer than 16 KiB, a
cartridge exactly if it is empty or longer than 32 MiB, and a file exactly if it cannot be read or its
bytes are refused. A load that fails has changed nothing, although it works in place. One that succeeds
leaves the image, followed by zeros if it is a BIOS, all other memories as they were, and the rest as
a reset leaves it: which images were ever loaded says the whole of it, but for the log. -/
theorem load_atomic (log : Log) (past : List Deed) (kind : ImageKind) :
    let s := (initial log).undergoAll past
    (∀ image,
      if kind.admits image.size then
        ∃ log',
          let biosLoaded := kind == .bios || past.any (·.loads .bios)
          let romLoaded := kind == .rom || past.any (·.loads .rom)
          let t := rebooted (s.board.memory.holding image kind) log' biosLoaded romLoaded
          s.load kind image = .ok t ∧ s.loadInPlace kind image = (.ok (), t)
      else
        s.load kind image = .error (kind.refusal image.size) ∧
        s.loadInPlace kind image = (.error (kind.refusal image.size), s)) ∧
    (∀ image, s.loadFile kind (.ok image) = s.load kind image ∧
      s.loadFileInPlace kind (.ok image) = s.loadInPlace kind image) ∧
    (∀ e, s.loadFile kind (.error e) = .error (.file e) ∧
      s.loadFileInPlace kind (.error e) = (.error (.file e), s)) ∧
    ∀ file, s.obey (.loadFile kind file) = (s.loadFileInPlace kind file).2 := by
  intro s
  have held : s.board.Furnished :=
    furnished_undergoAll (s := initial log) (Board.furnished_initial log) past
  have sized := held.sized_bios
  have flags : ∀ kind, s.hasLoaded kind = past.any (·.loads kind) := fun kind => by
    rw [hasLoaded_undergoAll]
    cases kind <;> rfl
  refine ⟨fun image => ?_, fun image => ⟨rfl, rfl⟩, fun e => ⟨rfl, rfl⟩, fun file => ?_⟩
  · rw [load_eq, loadInPlace_eq sized]
    split
    · obtain ⟨log', rebooted⟩ := reset_eq (s.supplied kind image)
      refine ⟨log', ?_⟩
      rw [← flags .bios, ← flags .rom]
      exact ⟨congrArg Except.ok rebooted, congrArg (Prod.mk _) rebooted⟩
    · exact ⟨rfl, rfl⟩
  · cases file with
    | error e => rfl
    | ok image =>
      show ((s.load kind image).toOption.getD s) = (s.loadInPlace kind image).2
      rw [load_eq, loadInPlace_eq sized]
      split <;> rfl

end Console

end GbaArm
