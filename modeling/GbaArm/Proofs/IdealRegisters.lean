import GbaArm.Proofs.Banks

/-!
The register file against an ideal machine that has one cell for every physical register and moves
nothing on a change of mode. Both answer every sequence of accesses alike.
-/
namespace GbaArm

/-- A physical register: a bank and a number for which the bank has a register of its own. -/
structure Cell where
  bank : Bank
  number : Fin 16
  own : bank.owner number = bank
  deriving DecidableEq

/-- The cell under register `n` while `live` is in view. -/
def Cell.shown (live : Bank) (n : Fin 16) : Cell := ⟨live.owner n, n, live.owner_owner n⟩

theorem Cell.eq_shown_iff {c : Cell} {live : Bank} {n : Fin 16} :
    c = .shown live n ↔ live.owner c.number = c.bank ∧ c.number = n := by
  obtain ⟨b, k, hk⟩ := c
  simp only [shown, Cell.mk.injEq]
  grind

theorem Cell.shown_of_owner {live : Bank} {n : Fin 16} (h : live.owner n = .user) :
    Cell.shown live n = .shown .user n :=
  eq_shown_iff.mpr ⟨h.symm, rfl⟩

/-- What a processor may ask of its registers, in the mode that is current. -/
inductive RegisterAccess
  | read (n : Nat)
  | write (n : Nat) (value : UInt32)
  /-- Register `n` as User mode sees it. -/
  | readUser (n : Nat)
  /-- R15 is never written through the User view. -/
  | writeUser (n : Fin 15) (value : UInt32)
  | readSaved (mode : Mode)
  | writeSaved (mode : Mode) (value : UInt32)
  | switchTo (mode : Mode)

/-- The answers to a sequence of accesses, each made in the state that the last one left. -/
def RegisterAccess.answers {σ : Type} (access : σ → RegisterAccess → Option UInt32 × σ) :
    List RegisterAccess → σ → List (Option UInt32)
  | [], _ => []
  | a :: rest, s => (access s a).1 :: answers access rest (access s a).2

/-- The register file with the mode whose registers are in view. -/
structure BankedRegisters where
  file : RegisterFile
  mode : Mode

namespace BankedRegisters

def access (s : BankedRegisters) (a : RegisterAccess) : Option UInt32 × BankedRegisters :=
  match a with
  | .read n => (some (s.file.read n), s)
  | .write n value => (none, { s with file := s.file.write n value })
  | .readUser n => (some (s.file.readUser n s.mode), s)
  | .writeUser n value => (none, { s with file := s.file.writeUser n value s.mode })
  | .readSaved mode => (s.file.savedStatus mode, s)
  | .writeSaved mode value => (none, { s with file := s.file.setSavedStatus value mode })
  | .switchTo mode => (none, ⟨s.file.switchBank s.mode mode, mode⟩)

end BankedRegisters

/-- One cell a register, and one saved status word for every bank but that of User and System. -/
structure IdealRegisters where
  cells : Cell → UInt32
  saved : Bank → UInt32
  mode : Mode

namespace IdealRegisters

def zeroed (mode : Mode) : IdealRegisters := ⟨fun _ => 0, fun _ => 0, mode⟩

variable (s : IdealRegisters)

def bank : Bank := Bank.ofMode s.mode

def set (c : Cell) (value : UInt32) : IdealRegisters :=
  { s with cells := fun d => if d = c then value else s.cells d }

/-- The number of a User register. Past 15 there is none: User and System count modulo 16, every
other mode stops at R15. -/
def userNumber (live : Bank) (n : Nat) : Fin 16 :=
  if n < 16 ∨ live = .user then Fin.ofNat 16 n else 15

def savedStatus (mode : Mode) : Option UInt32 :=
  if Bank.ofMode mode = .user then none else some (s.saved (Bank.ofMode mode))

def setSaved (mode : Mode) (value : UInt32) : IdealRegisters :=
  { s with saved := fun b => if b = Bank.ofMode mode then value else s.saved b }

/-- A change of mode changes which cells are shown and nothing else. -/
def access (s : IdealRegisters) (a : RegisterAccess) : Option UInt32 × IdealRegisters :=
  match a with
  | .read n => (some (s.cells (.shown s.bank (Fin.ofNat 16 n))), s)
  | .write n value => (none, s.set (.shown s.bank (Fin.ofNat 16 n)) value)
  | .readUser n => (some (s.cells (.shown .user (userNumber s.bank n))), s)
  | .writeUser n value => (none, s.set (.shown .user (Fin.ofNat 16 n)) value)
  | .readSaved mode => (s.savedStatus mode, s)
  | .writeSaved mode value => (none, s.setSaved mode value)
  | .switchTo mode => (none, { s with mode })

end IdealRegisters

/-- The file holds in every cell what the ideal machine holds there, the saved words included. -/
structure BankedRegisters.Refines (s : BankedRegisters) (t : IdealRegisters) : Prop where
  mode : s.mode = t.mode
  cells : ∀ c : Cell, s.file.cell (Bank.ofMode s.mode) c.bank c.number = t.cells c
  saved : ∀ mode, s.file.savedStatus mode = t.savedStatus mode

namespace BankedRegisters

variable {s : BankedRegisters} {t : IdealRegisters}

theorem refines_zeroed (mode : Mode) : Refines ⟨.zeroed, mode⟩ (.zeroed mode) where
  mode := rfl
  cells c := RegisterFile.cell_zeroed c.number.isLt
  saved m := by cases m <;> rfl

theorem Refines.read (h : Refines s t) (n : Nat) :
    s.file.read n = t.cells (.shown t.bank (Fin.ofNat 16 n)) := by
  have hn : s.file.read n = s.file.read (n % 16) := by simp [RegisterFile.read]
  have shown : s.file.cell (Bank.ofMode s.mode) _ (n % 16) = s.file.read (n % 16) :=
    RegisterFile.cell_owner
  rw [hn, ← shown, ← h.cells, h.mode]
  rfl

theorem Refines.write (h : Refines s t) (n : Nat) (value : UInt32) :
    Refines { s with file := s.file.write n value }
      (t.set (.shown t.bank (Fin.ofNat 16 n)) value) where
  mode := h.mode
  cells c := by
    have hc := h.cells c
    have hb : Bank.ofMode s.mode = t.bank := congrArg Bank.ofMode h.mode
    rw [RegisterFile.cell_write c.number.isLt, hc, hb]
    simp only [IdealRegisters.set, Cell.eq_shown_iff, Fin.ext_iff]
    rfl
  saved := h.saved

theorem Refines.readUser (h : Refines s t) (n : Nat) :
    s.file.readUser n s.mode = t.cells (.shown .user (IdealRegisters.userNumber t.bank n)) := by
  have hb : Bank.ofMode s.mode = t.bank := congrArg Bank.ofMode h.mode
  by_cases hn : n < 15
  · have hu : (IdealRegisters.userNumber t.bank n).val = n := by
      grind [IdealRegisters.userNumber, Fin.ofNat]
    rw [← h.cells, RegisterFile.readUser_eq_cell hn]
    simp only [Cell.shown, hu, Bank.owner]
  · rw [RegisterFile.readUser_of_ge (by omega), h.read]
    congr 1
    by_cases hu : t.bank = .user
    · simp [IdealRegisters.userNumber, hb, hu]
    · have hl : IdealRegisters.userNumber t.bank n = Fin.ofNat 16 15 := by
        grind [IdealRegisters.userNumber, Fin.ofNat]
      rw [hb, if_neg hu, hl]
      exact Cell.shown_of_owner (RegisterFile.owner_outer (Or.inr Nat.le.refl))

theorem Refines.writeUser (h : Refines s t) (n : Fin 15) (value : UInt32) :
    Refines { s with file := s.file.writeUser n value s.mode }
      (t.set (.shown .user (Fin.ofNat 16 n)) value) where
  mode := h.mode
  cells c := by
    have hn : n.val % 16 = n := Nat.mod_eq_of_lt (by omega)
    rw [RegisterFile.cell_writeUser n.isLt c.number.isLt, h.cells c]
    simp only [IdealRegisters.set, Cell.eq_shown_iff, Fin.ext_iff, Fin.ofNat, hn, Bank.owner,
      eq_comm]
  saved other := by
    rw [RegisterFile.savedStatus, RegisterFile.saved_writeUser]
    exact h.saved other

theorem Refines.writeSaved (h : Refines s t) (mode : Mode) (value : UInt32) :
    Refines { s with file := s.file.setSavedStatus value mode } (t.setSaved mode value) where
  mode := h.mode
  cells c := RegisterFile.cell_setSavedStatus.trans (h.cells c)
  saved other := by
    rw [RegisterFile.savedStatus_setSavedStatus, h.saved]
    simp only [IdealRegisters.savedStatus, IdealRegisters.setSaved]
    cases mode <;> cases other <;> rfl

theorem Refines.switchTo (h : Refines s t) (mode : Mode) :
    Refines ⟨s.file.switchBank s.mode mode, mode⟩ { t with mode } where
  mode := rfl
  cells c := (RegisterFile.cell_switchBank c.number.isLt).trans (h.cells c)
  saved other := by
    rw [RegisterFile.savedStatus, RegisterFile.saved_switchBank]
    exact h.saved other

/-- Each access is answered alike and keeps the refinement. -/
theorem refines_access (h : Refines s t) (a : RegisterAccess) :
    (s.access a).1 = (t.access a).1 ∧ Refines (s.access a).2 (t.access a).2 := by
  cases a with
  | read n => exact ⟨congrArg some (h.read n), h⟩
  | write n value => exact ⟨rfl, h.write n value⟩
  | readUser n => exact ⟨congrArg some (h.readUser n), h⟩
  | writeUser n value => exact ⟨rfl, h.writeUser n value⟩
  | readSaved mode => exact ⟨h.saved mode, h⟩
  | writeSaved mode value => exact ⟨rfl, h.writeSaved mode value⟩
  | switchTo mode => exact ⟨rfl, h.switchTo mode⟩

theorem answers_eq_of_refines (accesses : List RegisterAccess) (h : Refines s t) :
    RegisterAccess.answers access accesses s =
      RegisterAccess.answers IdealRegisters.access accesses t := by
  induction accesses generalizing s t with
  | nil => rfl
  | cons a rest ih =>
    obtain ⟨ha, hr⟩ := refines_access h a
    rw [RegisterAccess.answers, RegisterAccess.answers, ha, ih hr]

/-- From reset on, no order of accesses and changes of mode tells the register file from the ideal
machine: no value is lost, doubled or seen from another bank. -/
theorem answers_eq_ideal (mode : Mode) (accesses : List RegisterAccess) :
    RegisterAccess.answers access accesses ⟨.zeroed, mode⟩ =
      RegisterAccess.answers IdealRegisters.access accesses (.zeroed mode) :=
  answers_eq_of_refines accesses (refines_zeroed mode)

end BankedRegisters

end GbaArm
