import GbaArm.Proofs.MemoryMap
import GbaArm.Proofs.WaitControl

/-!
What accesses cost under the render status. Video and object memory are charged only while the video unit
owns them, so with the status off an access there takes no time at all. Every other access takes some.
-/
namespace GbaArm

/-- Which memories the video unit is said to own. -/
structure RenderStatus where
  video : Bool
  oam : Bool
  deriving DecidableEq, Repr

namespace RenderStatus

/-- Out of reset the video unit owns both. -/
def powerOn : RenderStatus := ⟨true, true⟩

/-- The status after a request. Only what is said of it and a reset change it. -/
def after (status : RenderStatus) : BoardRequest → RenderStatus
  | .setRendering video oam => ⟨video, oam⟩
  | .reset => powerOn
  | _ => status

/-- Whether an access to the address is charged anything. -/
def charges (status : RenderStatus) (address : UInt32) : Bool :=
  match Region.ofAddress address with
  | .palette | .vram => status.video
  | .oam => status.oam
  | _ => true

theorem charges_align (status : RenderStatus) (width : Width) (address : UInt32) :
    status.charges (width.align address) = status.charges address := by
  rw [charges, ofAddress_align, charges]

end RenderStatus

namespace WaitStates

/-- The settings that the registers and the render status call for. -/
structure Follows (w : WaitStates) (status : RenderStatus) : Prop where
  configured : w.Configured
  video : w.videoWait = status.video.toNat
  oam : w.oamWait = status.oam.toNat

variable {w k : WaitStates} {status : RenderStatus}

theorem follows_initial : initial.Follows .powerOn := ⟨configured_initial, rfl, rfl⟩

theorem Follows.congr (h : w.Follows status) (same : k.settings = w.settings) : k.Follows status where
  configured := h.configured.congr same
  video := (congrArg videoWait same).trans h.video
  oam := (congrArg oamWait same).trans h.oam

theorem Follows.configure (h : w.Follows status) (write : ConfigWrite) :
    (w.configure write).Follows status where
  configured := h.configured.configure write
  video := (reconfigured_configure w write).video.trans h.video
  oam := (reconfigured_configure w write).oam.trans h.oam

theorem Configured.ewram_pos (h : w.Configured) : 0 < w.ewramWait :=
  h.ewram ▸ (ewramClocks_bounds _).1

theorem Configured.sram_pos (h : w.Configured) : 0 < w.sramWait :=
  h.sram ▸ Nat.lt_of_lt_of_le (by decide) (firstAccess_bounds _).1

/-- Both columns of both tables charge the cartridge something. -/
theorem Configured.costOf_pos (h : w.Configured) {address : UInt32}
    (rom : Region.ofAddress address = .rom) (width : Width) (marked : Prop) [Decidable marked] :
    0 < w.costOf width ((address >>> 24).toNat ||| (if marked then 0x10 else 0)) := by
  obtain ⟨low, high⟩ := region_eq_rom rom
  obtain ⟨first, second, window⟩ := h.window low high
  have firstLeast := window.first_bounds.1
  have secondLeast := window.second_bounds.1
  by_cases hm : marked
  · rw [if_pos hm]
    have half := window.firstHalf
    have word := window.firstWord
    cases width <;> simp only [costOf] <;> omega
  · rw [if_neg hm, Nat.or_zero]
    have half := window.half
    have word := window.word
    cases width <;> simp only [costOf] <;> omega

theorem Configured.romFetch_pos (h : w.Configured) {address : UInt32}
    (rom : Region.ofAddress address = .rom) : 0 < (w.romFetch address).1 := by
  have checked := h.congr (settings_checkBoundary w address)
  unfold romFetch
  simp only
  generalize w.checkBoundary address = k at checked ⊢
  split
  · exact k.romFetchBuffered_pos address
  · exact checked.costOf_pos rom .word _

theorem Follows.video_pos_iff (h : w.Follows status) : 0 < w.videoWait ↔ status.video = true := by
  rw [h.video]
  cases status.video <;> decide

theorem Follows.oam_pos_iff (h : w.Follows status) : 0 < w.oamWait ↔ status.oam = true := by
  rw [h.oam]
  cases status.oam <;> decide

theorem Follows.access_pos_iff (h : w.Follows status) (width : Width) (pc address : UInt32) :
    0 < (w.access width pc address).1 ↔ status.charges address = true := by
  have ewram := h.configured.ewram_pos
  have sram := h.configured.sram_pos
  have video := h.video_pos_iff
  have oam := h.oam_pos_iff
  unfold access RenderStatus.charges
  cases hr : Region.ofAddress address with
  | rom =>
    have cost : ∀ width, 0 < w.costOf width (w.romIndex address) + w.debt pc := fun width =>
      Nat.add_pos_left (h.configured.costOf_pos hr width _) _
    cases width with
    | word => exact iff_of_true (w.romWord_charge pc address ▸ cost .word) rfl
    | half | byte => exact iff_of_true (w.romHalf_charge pc address ▸ cost .half) rfl
  | _ => cases width <;> simp [multiClock, singleClock] <;> omega

theorem Follows.fetch_pos_iff (h : w.Follows status) (address : UInt32) :
    0 < (w.fetch address).1 ↔ status.charges address = true := by
  have ewram := h.configured.ewram_pos
  have sram := h.configured.sram_pos
  have video := h.video_pos_iff
  have oam := h.oam_pos_iff
  unfold fetch RenderStatus.charges
  cases hr : Region.ofAddress address with
  | rom => exact iff_of_true (h.configured.romFetch_pos hr) rfl
  | _ => simp [multiClock, singleClock, sramFetch] <;> omega

end WaitStates

namespace Board

variable {b : Board} {status : RenderStatus}

theorem follows_serve (h : b.wait.Follows status) (request : BoardRequest) :
    (b.serve request).wait.Follows (status.after request) := by
  cases request with
  | read width address => exact h.congr (WaitStates.settings_access ..)
  | write width address value =>
    have charged : (b.chargeAccess width address).wait.Follows status :=
      h.congr (WaitStates.settings_access ..)
    exact updateAt_keeps (P := (WaitStates.Follows · status)) (fun _ write kept => kept.configure write)
      charged width address value
  | fetch address => exact h.congr (WaitStates.settings_fetch ..)
  | internalCycle pc => exact h.congr (WaitStates.settings_internalCycles ..)
  | internalCycles pc count => exact h.congr (WaitStates.settings_internalCycles ..)
  | idle => exact h.congr (WaitStates.settings_multiClock ..)
  | setRendering video oam => exact ⟨{ h.configured with }, rfl, rfl⟩
  | nonSequential | executingAt pc | branched target => exact h.congr rfl
  | changePower change => exact h
  | request line => exact h
  | load kind image =>
    obtain same | ⟨memory, -, placed⟩ := serve_load b kind image
    · exact same.symm ▸ h
    · exact placed.symm ▸ h
  | reset => exact WaitStates.follows_initial

theorem follows_run (requests : List BoardRequest) (h : b.wait.Follows status) :
    (b.run requests).wait.Follows (requests.foldl RenderStatus.after status) := by
  induction requests generalizing b status with
  | nil => exact h
  | cons request requests ih => exact ih (follows_serve h request)

/-- Whatever was asked of the bus before, a read, a write and a fetch of any width at any address move the
clock unless they go to a memory that the video unit does not own. -/
theorem access_advances_iff (log : Log) (requests : List BoardRequest) (width : Width)
    (address value : UInt32) :
    let b := (initial log).run requests
    let status := requests.foldl RenderStatus.after .powerOn
    (b.timing.cycles < (b.read width address).2.timing.cycles ↔ status.charges address = true) ∧
    (b.timing.cycles < (b.write width address value).timing.cycles ↔ status.charges address = true) ∧
    (b.timing.cycles < (b.fetch address).2.timing.cycles ↔ status.charges address = true) := by
  intro b status
  have follows : b.wait.Follows status := follows_run requests WaitStates.follows_initial
  have accessed := follows.access_pos_iff width b.pc (width.align address)
  have fetched := follows.fetch_pos_iff (alignWord address)
  rw [RenderStatus.charges_align] at accessed
  have word : alignWord address = Width.word.align address := rfl
  rw [word, RenderStatus.charges_align] at fetched
  refine ⟨?_, ?_, ?_⟩
  · rw [cycles_read, ← accessed]
    omega
  · rw [cycles_write, ← accessed]
    omega
  · have fetch : (b.fetch address).2.timing.cycles = b.timing.cycles + (b.wait.fetch (alignWord address)).1 :=
      rfl
    rw [fetch, word, ← fetched]
    omega

/-- With the status off, neither a word read from video memory nor a fetch there moves the clock. -/
theorem access_advances_off :
    let b := (initial .silent).run [.setRendering false false]
    (b.read .word 0x06000000).2.timing.cycles = b.timing.cycles ∧
    (b.fetch 0x06000000).2.timing.cycles = b.timing.cycles :=
  ⟨rfl, rfl⟩

end Board

end GbaArm
