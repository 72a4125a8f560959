import GbaArm.Proofs.Exceptions

/-! User code reaches no control byte, no saved status word and no register of another mode. -/
namespace GbaArm

/-- Nothing that User mode must not reach has changed. The Thumb bit is left out. -/
structure Cpu.Confined (c c' : Cpu) : Prop where
  control : c'.control &&& 0xDF = c.control &&& 0xDF
  saved : c'.regs.saved = c.regs.saved
  cell : ∀ b ≠ .user, ∀ n, c'.cell b n = c.cell b n

/-- The mode field reads User. -/
def Cpu.InUser (c : Cpu) : Prop := c.control &&& 0x1F = 0x10

instance (c : Cpu) : Decidable c.InUser := inferInstanceAs (Decidable (_ = _))

namespace Cpu

variable {c c' c'' : Cpu}

theorem InUser.mode (user : c.InUser) : c.mode = .user := by
  have field : c.control.toUInt32 &&& 0x1F = 0x10 := by
    have widened := congrArg UInt8.toUInt32 user
    simpa using widened
  simp [Cpu.mode, Mode.ofBits, field]

theorem InUser.savedStatus (user : c.InUser) : c.savedStatus = none := by
  rw [Cpu.savedStatus, user.mode]
  rfl

theorem InUser.cell (user : c.InUser) {b : Bank} (hb : b ≠ .user) (n : Nat) :
    c.cell b n = c.regs.hidden b n := by
  rw [Cpu.cell, user.mode]
  exact if_neg (Ne.symm hb)

/-- The Thumb bit is no part of the mode field. -/
theorem InUser.of_control (user : c.InUser) (h : c'.control &&& 0xDF = c.control &&& 0xDF) :
    c'.InUser := by
  have field : ∀ x : UInt8, x &&& 0xDF &&& 0x1F = x &&& 0x1F := fun x => by
    rw [UInt8.and_assoc]
    rfl
  rw [InUser, ← field, h, field]
  exact user

namespace Confined

theorem refl (c : Cpu) : c.Confined c := ⟨rfl, rfl, fun _ _ _ => rfl⟩

theorem trans (h : c.Confined c') (h' : c'.Confined c'') : c.Confined c'' where
  control := h'.control.trans h.control
  saved := h'.saved.trans h.saved
  cell b hb n := (h'.cell b hb n).trans (h.cell b hb n)

/-- In User mode every other bank is out of view. -/
theorem of_hidden (user : c.InUser) (hc : c'.control &&& 0xDF = c.control &&& 0xDF)
    (hs : c'.regs.saved = c.regs.saved)
    (hh : ∀ b n, c'.regs.hidden b n = c.regs.hidden b n) : c.Confined c' where
  control := hc
  saved := hs
  cell b hb n := by rw [user.cell hb, (user.of_control hc).cell hb, hh]

end Confined

end Cpu

namespace Core

variable {β : Type} [Bus β] {m k : Core β} {n : Nat}

/-- The primitive changes do not reach the Thumb bit either. -/
theorem Moves.confined (h : Moves n m k) (user : m.cpu.InUser) :
    k.cpu.control = m.cpu.control ∧ m.cpu.Confined k.cpu := by
  induction h with
  | refl => exact ⟨rfl, .refl _⟩
  | trans _ _ ih ih' =>
    obtain ⟨hc, confined⟩ := ih user
    obtain ⟨hc', confined'⟩ := ih' (user.of_control confined.control)
    exact ⟨hc'.trans hc, confined.trans confined'⟩
  | write => exact ⟨rfl, .of_hidden user rfl rfl fun _ _ => RegisterFile.hidden_write⟩
  | writeUser m hn value =>
    refine ⟨rfl, .of_hidden user rfl RegisterFile.saved_writeUser fun b n => ?_⟩
    show (m.cpu.regs.writeUser _ value m.cpu.mode).hidden b n = _
    rw [user.mode]
    exact RegisterFile.hidden_write
  | save h => exact absurd user.savedStatus h
  | restore h => simp [user.savedStatus] at h
  | control h => exact absurd user h
  | jump | advance => exact ⟨rfl, .of_hidden user rfl rfl fun _ _ => RegisterFile.hidden_setPc⟩
  | _ => exact ⟨rfl, .of_hidden user rfl rfl fun _ _ => rfl⟩

theorem branchExchange_confined (m : Core β) (word : UInt32) (user : m.cpu.InUser) :
    m.cpu.Confined (m.branchExchange word).cpu := by
  have thumb : (m.cpu.control ||| 0x20) &&& 0xDF = m.cpu.control &&& 0xDF := by
    apply UInt8.toBitVec_inj.mp
    simp [BitVec.and_or_distrib_right]
  unfold branchExchange
  extract_lets target noted marked
  split
  · exact .of_hidden user thumb rfl fun _ _ => RegisterFile.hidden_setPc
  · exact .of_hidden user rfl rfl fun _ _ => RegisterFile.hidden_setPc

/-- Serving the request takes no exception, and is not the host writing the status word. -/
def Quiet (m : Core β) : Request → Prop
  | .step => ∀ e : Exception, ¬ e.Due m.cpu
  | .interruptLine _ | .branch _ => True
  | .setStatus _ => False

/-- Every request is quiet when its turn comes. -/
def QuietRun (m : Core β) : List Request → Prop
  | [] => True
  | r :: rest => m.Quiet r ∧ (m.serve r).QuietRun rest

instance (m : Core β) : (r : Request) → Decidable (m.Quiet r)
  | .step => decidable_of_iff
      (¬ Exception.irq.Due m.cpu ∧ ¬ Exception.softwareInterrupt.Due m.cpu ∧
        ¬ Exception.undefined.Due m.cpu)
      ⟨fun ⟨hi, hs, hu⟩ e => match e with
        | .irq => hi
        | .softwareInterrupt => hs
        | .undefined => hu, fun h => ⟨h _, h _, h _⟩⟩
  | .interruptLine _ | .branch _ => isTrue trivial
  | .setStatus _ => isFalse id

instance decidableQuietRun (m : Core β) :
    (requests : List Request) → Decidable (m.QuietRun requests)
  | [] => isTrue trivial
  | r :: rest =>
    have := decidableQuietRun (m.serve r) rest
    inferInstanceAs (Decidable (_ ∧ _))

theorem step_confined (user : m.cpu.InUser) (quiet : m.Quiet .step) :
    m.cpu.Confined m.step.cpu ∧
    (m.step.cpu.isThumb = m.cpu.isThumb ∨ m.cpu.due = some .branchExchange) := by
  have fetched : m.fetch.cpu.InUser := user
  have advanced : m.cpu.Confined m.cpu.advancePc :=
    .of_hidden user rfl rfl fun _ _ => RegisterFile.hidden_setPc
  -- The latches are no concern of `Confined`.
  have latched : ∀ {k : Core β}, m.fetch.cpu.Confined k.cpu → m.cpu.Confined k.advancePipe.cpu :=
    fun h => ⟨h.control, h.saved, h.cell⟩
  obtain ⟨_, hs⟩ | ⟨hr, hp, _⟩ | ⟨_, op, hd, hs⟩ | ⟨_, hs⟩ := step_cases m
  · rw [hs]
    exact ⟨⟨rfl, rfl, advanced.cell⟩, Or.inl rfl⟩
  · exact absurd ⟨hr, hp⟩ (quiet .irq)
  · rw [hs]
    by_cases hx : op = .branchExchange
    · subst hx
      exact ⟨latched (branchExchange_confined _ _ fetched), Or.inr hd⟩
    · have moves : Moves 1 m.fetch (m.fetch.execute m.cpu.pipe.execute op) := by
        refine execute_moves _ _ hx ?_ ?_
        · rintro rfl
          exact quiet .softwareInterrupt hd
        · rintro rfl
          exact quiet .undefined hd
      obtain ⟨control, confined⟩ := moves.confined fetched
      exact ⟨latched confined, Or.inl (congrArg (· &&& 0x20 != 0) control)⟩
  · rw [hs]
    exact ⟨⟨rfl, rfl, advanced.cell⟩, Or.inl rfl⟩

theorem serve_confined {r : Request} (user : m.cpu.InUser) (quiet : m.Quiet r) :
    m.cpu.Confined (m.serve r).cpu ∧ ((m.serve r).cpu.isThumb = m.cpu.isThumb ∨
      r = .step ∧ m.cpu.due = some .branchExchange) := by
  cases r with
  | step =>
    obtain ⟨confined, thumb⟩ := step_confined user quiet
    exact ⟨confined, thumb.imp_right fun h => ⟨rfl, h⟩⟩
  | interruptLine => exact ⟨.of_hidden user rfl rfl fun _ _ => rfl, Or.inl rfl⟩
  | setStatus => exact quiet.elim
  | branch => exact ⟨.of_hidden user rfl rfl fun _ _ => RegisterFile.hidden_setPc, Or.inl rfl⟩

/-- User mode is confined. As long as no exception is taken, whatever it executes, the interrupt
masks, the mode, the saved status words and the registers private to other modes stay as they were,
and only an exchanging branch changes the instruction set. -/
theorem user_confined (requests : List Request) (user : m.cpu.InUser)
    (quiet : m.QuietRun requests) :
    m.cpu.Confined (m.run requests).cpu ∧ ((m.run requests).cpu.isThumb = m.cpu.isThumb ∨
      ∃ before after, requests = before ++ .step :: after ∧
        (m.run before).cpu.due = some .branchExchange) := by
  induction requests generalizing m with
  | nil => exact ⟨.refl _, Or.inl rfl⟩
  | cons r rest ih =>
    obtain ⟨served, thumb⟩ := serve_confined user quiet.1
    obtain ⟨confined, thumb'⟩ := ih (user.of_control served.control) quiet.2
    refine ⟨served.trans confined, ?_⟩
    rcases thumb' with hk | ⟨before, after, rfl, hd⟩
    · rcases thumb with ht | ⟨rfl, hd⟩
      · exact Or.inl (hk.trans ht)
      · exact Or.inr ⟨[], rest, rfl, hd⟩
    · exact Or.inr ⟨r :: before, after, rfl, hd⟩

/-- User code that writes Supervisor into both status words and then branches to an odd address. -/
theorem user_confined_escape :
    let rom : Rom := ⟨fun address => if address = 0x08000000 then 0xE3A00013 else
      if address = 0x08000004 then 0xE129F000 else
      if address = 0x08000008 then 0xE169F000 else 0xE12FFF10⟩
    let m := (start rom).run [.setStatus 0x10, .branch 0x08000000, .step, .step]
    let requests : List Request := [.step, .step, .step, .step]
    m.cpu.InUser ∧ m.QuietRun requests ∧ m.cpu.Confined (m.run requests).cpu ∧
    m.cpu.isThumb = false ∧ (m.run requests).cpu.isThumb = true := by
  intro rom m requests
  have user : m.cpu.InUser := by decide +kernel
  have quiet : m.QuietRun requests := by decide +kernel
  exact ⟨user, quiet, (user_confined requests user quiet).1, by decide +kernel, by decide +kernel⟩

end Core

end GbaArm
