import GbaArm.Proofs.WaitControl

/-!
Runs of the wait states by themselves, and internal cycles in them. Cycles charged at once leave the clocks
in the bank that the same cycles leave one by one, as long as the bank stays within its limit.
-/
namespace GbaArm

/-- What may be asked of the wait states. -/
inductive WaitRequest
  | configure (write : ConfigWrite)
  | setWindow (window : Nat) (control : UInt8)
  | setRendering (video oam : Bool)
  | breakSequence
  | breakStream
  | resetPrefetch
  | internalCycle (pc : UInt32)
  | internalCycles (pc : UInt32) (clocks : Nat)
  | singleClock (pc : UInt32)
  | multiClock (pc : UInt32) (clocks : Nat)
  /-- A data access by its region. -/
  | access (width : Width) (pc address : UInt32)
  /-- An instruction fetch by its region. -/
  | fetch (address : UInt32)
  /-- Accesses on the cartridge bus, whatever the region of the address. -/
  | romHalf (pc address : UInt32)
  | romWord (pc address : UInt32)
  | romFetch (address : UInt32)

/-- Whether a request sets what accesses cost. The others only charge. -/
def WaitRequest.configures : WaitRequest → Bool
  | configure _ | setWindow .. | setRendering .. => true
  | _ => false

namespace WaitStates

/-- The clocks that a request charges and the state it leaves. -/
def serve (w : WaitStates) : WaitRequest → Nat × WaitStates
  | .configure write => (0, w.configure write)
  | .setWindow window control => (0, w.setWindow window control)
  | .setRendering video oam => (0, w.setRendering video oam)
  | .breakSequence => (0, w.breakSequence)
  | .breakStream => (0, w.breakStream)
  | .resetPrefetch => (0, w.resetPrefetch)
  | .internalCycle pc => w.internalCycle pc
  | .internalCycles pc clocks => w.internalCycles pc clocks
  | .singleClock pc => w.singleClock pc
  | .multiClock pc clocks => w.multiClock pc clocks
  | .access width pc address => w.access width pc address
  | .fetch address => w.fetch address
  | .romHalf pc address => w.romHalf pc address
  | .romWord pc address => w.romWord pc address
  | .romFetch address => w.romFetch address

def run (w : WaitStates) (requests : List WaitRequest) : WaitStates :=
  requests.foldl (fun w request => (w.serve request).2) w

variable {w k : WaitStates} {pc address : UInt32}

theorem settings_serve (w : WaitStates) {request : WaitRequest} (charges : request.configures = false) :
    (w.serve request).2.settings = w.settings := by
  cases request with
  | configure | setWindow | setRendering => cases charges
  | breakSequence | breakStream | resetPrefetch => rfl
  | internalCycle pc => exact settings_internalCycles w pc 1
  | internalCycles pc clocks => exact settings_internalCycles w pc clocks
  | singleClock pc => exact settings_multiClock w pc 1
  | multiClock pc clocks => exact settings_multiClock w pc clocks
  | access width pc address => exact settings_access w pc address width
  | fetch address => exact settings_fetch w address
  | romHalf pc address => exact settings_romHalf w pc address
  | romWord pc address => exact settings_romWord w pc address
  | romFetch address => exact settings_romFetch w address

/-- The least value of a signed word. -/
def bankFloor : Int := -2147483648

theorem floor_bmod (clocks : Int) : bankFloor ≤ Int.bmod clocks UInt32.size :=
  Int.le_bmod (by decide)

theorem floor_multiClock (h : bankFloor ≤ w.pending) (pc : UInt32) (clocks : Nat) :
    bankFloor ≤ (w.multiClock pc clocks).2.pending := by
  unfold multiClock
  simp only
  split
  · split
    · exact floor_bmod _
    · exact h
  · exact (by decide : bankFloor ≤ 0)

theorem floor_internalCycles (h : bankFloor ≤ w.pending) (pc : UInt32) (clocks : Nat) :
    bankFloor ≤ (w.internalCycles pc clocks).2.pending := by
  unfold internalCycles
  split
  · exact floor_multiClock h pc clocks
  · simp only
    split <;> exact h

theorem pending_checkBoundary (w : WaitStates) (address : UInt32) :
    (w.checkBoundary address).pending = w.pending := by
  unfold checkBoundary
  split <;> rfl

theorem floor_drainOverdue (h : bankFloor ≤ w.pending) (pc : UInt32) :
    bankFloor ≤ (w.drainOverdue pc).2.pending := by
  by_cases owed : 0 ≤ w.pending
  · exact Int.le_trans (by decide) (pending_drainOverdue owed pc)
  · unfold drainOverdue
    rw [if_neg (by omega)]
    exact h

theorem pending_settle (w : WaitStates) : 0 ≤ w.settle.2.pending := by
  unfold settle
  split
  · exact Int.le_refl 0
  · next paid => exact Int.not_lt.mp paid

theorem floor_romFetch (h : bankFloor ≤ w.pending) (address : UInt32) :
    bankFloor ≤ (w.romFetch address).2.pending := by
  have checked := pending_checkBoundary w address
  unfold romFetch
  simp only
  generalize w.checkBoundary address = k at checked ⊢
  split
  · unfold romFetchBuffered
    simp only
    split <;> exact Int.le_trans (by decide) (pending_settle _)
  · exact checked.symm ▸ h

theorem floor_romHalf (h : bankFloor ≤ w.pending) (pc address : UInt32) :
    bankFloor ≤ (w.romHalf pc address).2.pending :=
  (pending_checkBoundary _ address).symm ▸ floor_drainOverdue h pc

theorem floor_romWord (h : bankFloor ≤ w.pending) (pc address : UInt32) :
    bankFloor ≤ (w.romWord pc address).2.pending :=
  (pending_checkBoundary _ address).symm ▸ floor_drainOverdue h pc

theorem floor_access (h : bankFloor ≤ w.pending) (width : Width) (pc address : UInt32) :
    bankFloor ≤ (w.access width pc address).2.pending := by
  obtain ⟨clocks, banked⟩ | half | word := w.access_cases pc address width
  · exact banked ▸ floor_multiClock h pc clocks
  · exact half ▸ floor_romHalf h pc address
  · exact word ▸ floor_romWord h pc address

theorem floor_fetch (h : bankFloor ≤ w.pending) (address : UInt32) :
    bankFloor ≤ (w.fetch address).2.pending := by
  obtain ⟨clocks, idle⟩ | clocked | rom | sram := w.fetch_cases address
  · exact idle ▸ h
  · exact clocked ▸ floor_multiClock h address 1
  · exact rom ▸ floor_romFetch h address
  · exact sram ▸ (by decide : bankFloor ≤ 0)

theorem floor_reconfigured (h : bankFloor ≤ w.pending) (written : w.Reconfigured k) :
    bankFloor ≤ k.pending := by
  obtain ⟨-, kept⟩ | ⟨-, emptied⟩ := written.buffer
  · exact kept.symm ▸ h
  · exact emptied.symm ▸ (by decide : bankFloor ≤ 0)

theorem floor_serve (h : bankFloor ≤ w.pending) (request : WaitRequest) :
    bankFloor ≤ (w.serve request).2.pending := by
  cases request with
  | configure write => exact floor_reconfigured h (reconfigured_configure w write)
  | setWindow window control => exact floor_reconfigured h (reconfigured_setWindow w window control)
  | setRendering video oam => exact h
  | breakSequence => exact h
  | breakStream | resetPrefetch => exact (by decide : bankFloor ≤ 0)
  | internalCycle pc => exact floor_internalCycles h pc 1
  | internalCycles pc clocks => exact floor_internalCycles h pc clocks
  | singleClock pc => exact floor_multiClock h pc 1
  | multiClock pc clocks => exact floor_multiClock h pc clocks
  | access width pc address => exact floor_access h width pc address
  | fetch address => exact floor_fetch h address
  | romHalf pc address => exact floor_romHalf h pc address
  | romWord pc address => exact floor_romWord h pc address
  | romFetch address => exact floor_romFetch h address

theorem floor_run (h : bankFloor ≤ w.pending) (requests : List WaitRequest) :
    bankFloor ≤ (w.run requests).pending := by
  induction requests generalizing w with
  | nil => exact h
  | cons request requests ih => exact ih (floor_serve h request)

/-- Internal cycles one at a time: the clocks they charge together and the state they leave. -/
def internalCycleTimes (w : WaitStates) (pc : UInt32) : (count : Nat) → Nat × WaitStates
  | 0 => (0, w)
  | count + 1 =>
    let (clocks, w) := w.internalCycleTimes pc count
    let (one, w) := w.internalCycle pc
    (clocks + one, w)

/-- The bank once `count` clocks were banked at once. -/
def atOnce (pending : Int) (count : Nat) : Int :=
  if pending < pendingLimit then Int.bmod (pending + count) UInt32.size else pending

/-- The bank once `count` clocks were banked one by one. It stops at the limit, and above it stays. -/
def oneByOne (pending : Int) (count : Nat) : Int := max pending (min pendingLimit (pending + count))

/-- Banked at once, clocks that pass the limit are kept all the same. -/
theorem atOnce_eq_oneByOne_iff {pending : Int} (h : bankFloor ≤ pending) {count : Nat}
    (few : count < UInt32.size) :
    atOnce pending count = oneByOne pending count ↔
      ¬ (pending < pendingLimit ∧ pendingLimit < pending + count) := by
  unfold atOnce oneByOne
  unfold bankFloor at h
  unfold pendingLimit
  unfold UInt32.size at few
  split
  · by_cases beyond : 255 < pending + count
    · have wrapped : Int.bmod (pending + count) UInt32.size % UInt32.size = (pending + count) % UInt32.size :=
        Int.bmod_emod
      simp only [UInt32.size] at wrapped ⊢
      omega
    · have small : Int.bmod (pending + count) UInt32.size = pending + count := by
        apply Int.bmod_eq_of_le <;> simp only [UInt32.size] <;> omega
      rw [small]
      omega
  · omega

theorem internalCycles_banks (on : w.prefetch = true) (inside : inCartridge pc = true) (count : Nat) :
    w.internalCycles pc count = (count, { w with pending := atOnce w.pending count }) := by
  unfold internalCycles multiClock atOnce
  rw [if_pos on, if_pos inside]
  split <;> rfl

/-- Where nothing is banked, it makes no difference how many cycles there are. -/
theorem internalCycles_unbanked (unbanked : (w.prefetch && inCartridge pc) = false) (count : Nat) :
    w.internalCycles pc count = (count, (w.internalCycle pc).2) := by
  unfold internalCycle internalCycles multiClock
  cases on : w.prefetch with
  | true =>
    have outside : inCartridge pc = false := by simpa [on] using unbanked
    simp [outside]
  | false => simp

theorem internalCycleTimes_banks (on : w.prefetch = true) (inside : inCartridge pc = true)
    (h : bankFloor ≤ w.pending) (count : Nat) :
    w.internalCycleTimes pc count = (count, { w with pending := oneByOne w.pending count }) := by
  induction count with
  | zero =>
    have same : oneByOne w.pending 0 = w.pending := by
      unfold oneByOne
      omega
    rw [same]
    rfl
  | succ count ih =>
    have above : bankFloor ≤ oneByOne w.pending count := Int.le_trans h (Int.le_max_left _ _)
    have one : atOnce (oneByOne w.pending count) 1 = oneByOne (oneByOne w.pending count) 1 :=
      (atOnce_eq_oneByOne_iff above (by decide)).mpr (by omega)
    have next : oneByOne (oneByOne w.pending count) 1 = oneByOne w.pending (count + 1) := by
      unfold oneByOne
      omega
    rw [internalCycleTimes, ih]
    simp only [internalCycle]
    rw [internalCycles_banks (w := { w with pending := oneByOne w.pending count }) on inside]
    simp only [one, next]

theorem internalCycleTimes_unbanked (unbanked : (w.prefetch && inCartridge pc) = false) (count : Nat) :
    w.internalCycleTimes pc (count + 1) = (count + 1, (w.internalCycle pc).2) := by
  have first : w.internalCycle pc = (1, (w.internalCycle pc).2) := internalCycles_unbanked unbanked 1
  -- The second cycle breaks a sequence already broken, or empties a buffer already empty.
  have again : (w.internalCycle pc).2.internalCycle pc = (1, (w.internalCycle pc).2) := by
    unfold internalCycle internalCycles multiClock
    cases on : w.prefetch with
    | true =>
      have outside : inCartridge pc = false := by simpa [on] using unbanked
      simp [outside, resetPrefetch, on]
    | false => cases inCartridge pc <;> simp [breakSequence, on]
  induction count with
  | zero =>
    rw [internalCycleTimes, internalCycleTimes]
    simp only
    rw [first]
  | succ count ih =>
    rw [internalCycleTimes, ih]
    simp only
    rw [again]

theorem internalCycles_clocks (w : WaitStates) (pc : UInt32) (count : Nat) :
    (w.internalCycles pc count).1 = count := by
  unfold internalCycles
  split <;> rfl

theorem internalCycleTimes_clocks (w : WaitStates) (pc : UInt32) (count : Nat) :
    (w.internalCycleTimes pc count).1 = count := by
  induction count with
  | zero => rfl
  | succ count ih =>
    show (w.internalCycleTimes pc count).1 + ((w.internalCycleTimes pc count).2.internalCycle pc).1 = _
    rw [ih, internalCycle, internalCycles_clocks]

/-- Whether `count` clocks are banked and carry the bank past its limit. -/
def Overshoots (w : WaitStates) (pc : UInt32) (count : Nat) : Prop :=
  w.prefetch = true ∧ inCartridge pc = true ∧ w.pending < pendingLimit ∧ pendingLimit < w.pending + count

theorem internalCycles_state_iff (least : bankFloor ≤ w.pending) {count : Nat} (positive : 0 < count)
    (few : count < UInt32.size) :
    (w.internalCycles pc count).2 = (w.internalCycleTimes pc count).2 ↔ ¬ w.Overshoots pc count := by
  cases banks : w.prefetch && inCartridge pc with
  | true =>
    obtain ⟨on, inside⟩ := (Bool.and_eq_true _ _).mp banks
    have passes : w.Overshoots pc count ↔ w.pending < pendingLimit ∧ pendingLimit < w.pending + count :=
      ⟨fun beyond => beyond.2.2, fun beyond => ⟨on, inside, beyond⟩⟩
    rw [internalCycles_banks on inside, internalCycleTimes_banks on inside least, passes,
      ← atOnce_eq_oneByOne_iff least few]
    exact ⟨congrArg WaitStates.pending, fun same => by rw [same]⟩
  | false =>
    obtain ⟨more, rfl⟩ : ∃ more, count = more + 1 := Nat.exists_eq_add_one.mpr positive
    have never : ¬ w.Overshoots pc (more + 1) := by
      rintro ⟨on, inside, -⟩
      simp [on, inside] at banks
    rw [internalCycles_unbanked banks, internalCycleTimes_unbanked banks]
    exact iff_of_true rfl never

theorem Overshoots.states {count : Nat} (beyond : w.Overshoots pc count) (least : bankFloor ≤ w.pending) :
    (w.internalCycles pc count).2 =
        { w with pending := Int.bmod (w.pending + count) UInt32.size } ∧
      (w.internalCycleTimes pc count).2 = { w with pending := pendingLimit } := by
  obtain ⟨on, inside, room, passed⟩ := beyond
  have stopped : oneByOne w.pending count = pendingLimit := by
    unfold oneByOne
    omega
  rw [internalCycles_banks on inside, internalCycleTimes_banks on inside least, atOnce, if_pos room, stopped]
  exact ⟨rfl, rfl⟩

end WaitStates

namespace Board

/-- Internal cycles of the bus one at a time are those of its wait states, their clocks added up. -/
theorem repeat_internalCycle (b : Board) (pc : UInt32) (count : Nat) :
    Nat.repeat (Bus.internalCycle pc) (count + 1) b =
      { b with
        pc
        wait := (b.wait.internalCycleTimes pc (count + 1)).2
        timing := b.timing.advance (b.wait.internalCycleTimes pc (count + 1)).1 } := by
  induction count with
  | zero =>
    show b.internalCycle pc = _
    simp only [WaitStates.internalCycleTimes, Nat.zero_add]
    rfl
  | succ count ih =>
    show (Nat.repeat (Bus.internalCycle pc) (count + 1) b).internalCycle pc = _
    rw [ih]
    simp only [WaitStates.internalCycleTimes, internalCycle, charge, Timing.advance, Nat.add_assoc]

theorem internalCycles_eq_repeat_iff (b : Board) (pc : UInt32) {count : Nat} (positive : 0 < count) :
    b.internalCycles pc count = Nat.repeat (Bus.internalCycle pc) count b ↔
      (b.wait.internalCycles pc count).2 = (b.wait.internalCycleTimes pc count).2 := by
  obtain ⟨more, rfl⟩ : ∃ more, count = more + 1 := Nat.exists_eq_add_one.mpr positive
  have bulk : b.internalCycles pc (more + 1) =
      { b with
        pc
        wait := (b.wait.internalCycles pc (more + 1)).2
        timing := b.timing.advance (b.wait.internalCycles pc (more + 1)).1 } := rfl
  rw [bulk, repeat_internalCycle, WaitStates.internalCycles_clocks, WaitStates.internalCycleTimes_clocks]
  exact ⟨congrArg Board.wait, fun same => by rw [same]⟩

end Board

namespace WaitStates

/-- Internal cycles charged at once charge what the same cycles charge one by one, and leave the same state
unless they carry the bank past its limit: the limit is looked at before the clocks are banked, so at once
the bank overshoots, and one by one it stops. So the real bus, which charges them at once, does what a bus
does by default in the same cases. -/
theorem internalCycles_eq_times (requests : List WaitRequest) (pc count : UInt32) (some : 0 < count) :
    let w := initial.run requests
    let bulk := w.internalCycles pc count.toNat
    let single := w.internalCycleTimes pc count.toNat
    let overshoots := w.prefetch = true ∧ inCartridge pc = true ∧
      w.pending < pendingLimit ∧ pendingLimit < w.pending + count.toNat
    bulk.1 = count.toNat ∧ single.1 = count.toNat ∧ (bulk.2 = single.2 ↔ ¬ overshoots) ∧
    (overshoots →
      bulk.2 = { w with pending := Int.bmod (w.pending + count.toNat) UInt32.size } ∧
      single.2 = { w with pending := pendingLimit }) ∧
    ∀ b : Board, b.wait = w →
      (b.internalCycles pc count.toNat = Nat.repeat (Bus.internalCycle pc) count.toNat b ↔ ¬ overshoots) := by
  intro w bulk single overshoots
  have least : bankFloor ≤ w.pending := floor_run (by decide : bankFloor ≤ 0) requests
  have positive : 0 < count.toNat := UInt32.lt_iff_toNat_lt.mp some
  have agree : bulk.2 = single.2 ↔ ¬ overshoots := internalCycles_state_iff least positive count.toNat_lt
  refine ⟨internalCycles_clocks w pc _, internalCycleTimes_clocks w pc _, agree, ?_, ?_⟩
  · exact fun beyond => Overshoots.states beyond least
  · intro b hb
    have bus := b.internalCycles_eq_repeat_iff pc positive
    rw [hb] at bus
    exact bus.trans agree

/-- Two cycles bring a bank of 253 clocks to its limit both at once and one by one. -/
theorem internalCycles_eq_times_limit :
    let w := initial.run [.configure (.waitHigh 0x40), .internalCycles 0x08000000 253]
    (0 : UInt32) < 2 ∧ w.prefetch = true ∧ w.pending = 253 ∧
    (w.internalCycles 0x08000000 2).2 = (w.internalCycleTimes 0x08000000 2).2 := by
  have equal := internalCycles_eq_times
    [.configure (.waitHigh 0x40), .internalCycles 0x08000000 253] 0x08000000 2 (by decide)
  exact ⟨by decide, by decide +kernel, by decide +kernel, equal.2.2.1.mpr (by decide +kernel)⟩

/-- From a bank of 254 clocks they leave 256 at once and 255 one by one. -/
theorem internalCycles_overshoot :
    let w := initial.run [.configure (.waitHigh 0x40), .internalCycles 0x08000000 254]
    (w.internalCycles 0x08000000 2).2.pending = 256 ∧
    (w.internalCycleTimes 0x08000000 2).2.pending = 255 := by
  decide +kernel

end WaitStates

end GbaArm
