import GbaArm.Proofs.Charges

/-! Runs of the real bus, and what a data access to the cartridge is charged in them. -/
namespace GbaArm

/-- What may be asked of the real bus. -/
inductive BoardRequest
  | read (width : Width) (address : UInt32)
  | write (width : Width) (address value : UInt32)
  | fetch (address : UInt32)
  | internalCycle (pc : UInt32)
  | internalCycles (pc : UInt32) (count : Nat)
  | nonSequential
  | executingAt (pc : UInt32)
  | branched (target : UInt32)
  | idle
  | setRendering (video oam : Bool)
  | changePower (change : PowerChange)
  | request (line : IrqLine)
  | load (kind : ImageKind) (image : ByteArray)
  | reset

namespace WaitStates

/-- The entry of a cost table that stands for accesses of a width. The cartridge moves halfwords. -/
def costOf (w : WaitStates) (width : Width) (index : Nat) : Nat :=
  match width with
  | .word => w.wordCost index
  | .half | .byte => w.halfCost index

theorem access_rom (w : WaitStates) (width : Width) (pc : UInt32) {address : UInt32}
    (hr : Region.ofAddress address = .rom) :
    (w.access width pc address).1 = w.costOf width (w.romIndex address) + w.debt pc := by
  unfold access
  rw [hr]
  cases width with
  | word => exact romWord_charge w pc address
  | half | byte => exact romHalf_charge w pc address

end WaitStates

/-- Aligning an address keeps its top byte. -/
theorem align_shiftRight (width : Width) (address : UInt32) :
    width.align address >>> 24 = address >>> 24 := by
  have top : address >>> 24 &&& (0xFF : UInt32) = address >>> 24 := by
    apply UInt32.toNat_inj.mp
    have := address.toNat_lt
    rw [UInt32.toNat_and, UInt32.toNat_shiftRight, Nat.shiftRight_eq_div_pow,
      show (0xFF : UInt32).toNat = 2 ^ 8 - 1 from rfl, Nat.and_two_pow_sub_one_eq_mod,
      show (24 : UInt32).toNat % 32 = 24 from rfl]
    omega
  cases width with
  | byte => rfl
  | half | word => exact UInt32.shiftRight_and.trans top

theorem ofAddress_align (width : Width) (address : UInt32) :
    Region.ofAddress (width.align address) = Region.ofAddress address := by
  rw [Region.ofAddress, align_shiftRight, Region.ofAddress]

namespace Board

def serve (b : Board) : BoardRequest → Board
  | .read width address => (b.read width address).2
  | .write width address value => b.write width address value
  | .fetch address => (b.fetch address).2
  | .internalCycle pc => b.internalCycle pc
  | .internalCycles pc count => b.internalCycles pc count
  | .nonSequential => Bus.nonSequential b
  | .executingAt pc => Bus.executingAt pc b
  | .branched target => Bus.branched target b
  | .idle => b.idle
  | .setRendering video oam => b.setRendering video oam
  | .changePower change => b.changePower change
  | .request line => b.request line
  | .load kind image => (b.load kind image).toOption.getD b
  | .reset => b.reset

def run (b : Board) (requests : List BoardRequest) : Board := requests.foldl serve b

variable {b : Board} {width : Width} {address : UInt32}

theorem cycles_read (b : Board) (width : Width) (address : UInt32) :
    (b.read width address).2.timing.cycles =
      b.timing.cycles + (b.wait.access width b.pc (width.align address)).1 := rfl

theorem cycles_write_rom (hr : Region.ofAddress address = .rom) (value : UInt32) :
    (b.write width address value).timing.cycles =
      b.timing.cycles + (b.wait.access width b.pc (width.align address)).1 := by
  rw [write, updateAt, if_neg (by rw [hr]; decide)]
  rfl

/-- A data access to the cartridge is charged the entry of its table, the non-sequential one after a
break or at a multiple of 128 KiB, and a debt: what the halfwords that the drain buys cost more than
there are clocks in the bank. So it is charged its own clocks alone exactly if the bank can pay for
all of them. Whether the prefetcher is on makes no difference. -/
theorem rom_charge (log : Log) (requests : List BoardRequest) (width : Width)
    (address value : UInt32) (rom : Region.ofAddress address = .rom) :
    let b := (initial log).run requests
    let index := (address >>> 24).toNat |||
      (if b.wait.nonSequential ∨ width.align address &&& 0x1FFFF = 0 then 0x10 else 0)
    let own := b.wait.costOf width index
    let half := b.wait.halfCost (b.pc >>> 24).toNat
    let bank := b.wait.pending.toNat
    let bought := min (8 - b.wait.buffered) ((bank + half - 1) / half)
    let charged := (b.read width address).2.timing.cycles - b.timing.cycles
    charged = own + (half * bought - bank) ∧
    (b.write width address value).timing.cycles = b.timing.cycles + charged ∧
    (charged = own ↔ half * bought ≤ bank) := by
  intro b index own half bank bought charged
  have aligned : Region.ofAddress (width.align address) = .rom := (ofAddress_align _ _).trans rom
  have accessed := b.wait.access_rom width b.pc aligned
  rw [WaitStates.romIndex, align_shiftRight] at accessed
  have read : charged = own + (half * bought - bank) := by
    have h : charged = (b.wait.access width b.pc (width.align address)).1 := by
      show (b.read width address).2.timing.cycles - b.timing.cycles = _
      rw [cycles_read, Nat.add_sub_cancel_left]
    exact h.trans accessed
  refine ⟨read, ?_, ?_⟩
  · rw [cycles_write_rom rom, read]
    exact congrArg _ accessed
  · omega

/-- After a halfword read from external work RAM the bank holds the three clocks of one halfword. -/
theorem rom_charge_ewram :
    let b := (initial Log.silent).run
      [.executingAt 0x08000000, .read .half 0x08000002, .read .half 0x02000000]
    Region.ofAddress 0x08000004 = .rom ∧ b.wait.prefetch = false ∧ b.wait.pending = 3 ∧
    (b.read .half 0x08000004).2.timing.cycles - b.timing.cycles = b.wait.costOf .half 0x08 := by
  have rom : Region.ofAddress 0x08000004 = .rom := by decide
  have charge := rom_charge Log.silent
    [.executingAt 0x08000000, .read .half 0x08000002, .read .half 0x02000000] .half 0x08000004 0 rom
  exact ⟨rom, by decide +kernel, by decide +kernel,
    (charge.2.2.mpr (by decide +kernel)).trans (by decide +kernel)⟩

/-- After a byte read from internal work RAM the bank holds one clock, and the next halfword of the
cartridge is charged five clocks in the place of three, with the prefetcher off throughout. -/
theorem rom_charge_iwram :
    let b := (initial Log.silent).run
      [.executingAt 0x08000000, .read .half 0x08000002, .read .byte 0x03000000]
    b.wait.prefetch = false ∧ b.wait.nonSequential = false ∧ b.wait.costOf .half 0x08 = 3 ∧
    (b.read .half 0x08000004).2.timing.cycles - b.timing.cycles = 5 := by
  decide +kernel

end Board

end GbaArm
