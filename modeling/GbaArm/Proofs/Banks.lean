import GbaArm.Cpu

/-! Where each register lives: a cell for every bank and number, whichever bank is in view. -/
namespace GbaArm

/-- The bank whose copy of register `n` is in view while `live` is. -/
def Bank.owner (live : Bank) (n : Nat) : Bank :=
  match live with
  | .user => .user
  | .fiq => if 8 ≤ n ∧ n < 15 then .fiq else .user
  | other => if 13 ≤ n ∧ n < 15 then other else .user

/-- R13 or R14 of a pair. -/
def StackPair.get (p : StackPair) (n : Nat) : UInt32 :=
  if n = 13 then p.sp else if n = 14 then p.lr else 0

theorem Bank.owner_owner (live : Bank) (n : Nat) : (live.owner n).owner n = live.owner n := by
  cases live <;> grind [Bank.owner]

/-- R13 and R14 are private to every bank. -/
theorem Bank.owner_stack (live : Bank) {n : Nat} (hn : n = 13 ∨ n = 14) : live.owner n = live := by
  obtain rfl | rfl := hn <;> cases live <;> rfl

namespace RegisterFile

variable {r : RegisterFile} {b live : Bank} {n k : Nat} {v : UInt32} {mode : Mode}

/-- The copy of register `n` that is kept for bank `b`, stale while that bank is in view. -/
def hidden (r : RegisterFile) (b : Bank) (n : Nat) : UInt32 :=
  match b with
  | .user => if 8 ≤ n then r.userCopy[n - 8]?.getD 0 else 0
  | .fiq => if 8 ≤ n then r.fiqCopy[n - 8]?.getD 0 else 0
  | .irq => r.irqCopy.get n
  | .supervisor => r.supervisorCopy.get n
  | .abort => r.abortCopy.get n
  | .undefined => r.undefinedCopy.get n

/-- Register `n` of bank `b`, found in view or among the copies. A bank that has no such register
reads zero. -/
def cell (r : RegisterFile) (live b : Bank) (n : Nat) : UInt32 :=
  if live.owner n = b then r.read n else r.hidden b n

theorem read_eq (hn : n < 16) : r.read n = r.live[n] := by
  simp only [read, Nat.mod_eq_of_lt hn]
  rfl

theorem cell_zeroed (hn : n < 16) : zeroed.cell live b n = 0 := by
  rw [cell, read_eq hn]
  cases b <;> simp [hidden, zeroed, StackPair.get]
  all_goals grind

theorem read_write (hk : k < 16) :
    (r.write n v).read k = if k = n % 16 then v else r.read k := by
  rw [read_eq hk, read_eq hk]
  simp [write, Vector.getElem_set, eq_comm]

theorem hidden_write : (r.write n v).hidden b k = r.hidden b k := by cases b <;> rfl

theorem owner_outer (hn : n < 8 ∨ 15 ≤ n) : live.owner n = .user := by
  cases live <;> simp [Bank.owner] <;> omega

theorem hidden_outer (hb : b ≠ .user) (hn : n < 8 ∨ 15 ≤ n) : r.hidden b n = 0 := by
  cases b with
  | user => exact absurd rfl hb
  | fiq => grind [hidden]
  | _ => grind [hidden, StackPair.get]

theorem window_cases (hl : 8 ≤ n) (hu : n < 15) :
    n = 8 ∨ n = 9 ∨ n = 10 ∨ n = 11 ∨ n = 12 ∨ n = 13 ∨ n = 14 := by omega

theorem hidden_stash_owner (hl : 8 ≤ n) (hu : n < 15) :
    (r.stash live).hidden (live.owner n) n = r.read n := by
  obtain rfl | rfl | rfl | rfl | rfl | rfl | rfl := window_cases hl hu <;> cases live <;>
    simp [stash, hidden, Bank.owner, keepShared, window, StackPair.get, livePair, read_eq]

theorem hidden_stash_other (hl : 8 ≤ n) (hu : n < 15) (hb : live.owner n ≠ b) :
    (r.stash live).hidden b n = r.hidden b n := by
  cases live <;> cases b <;> try rfl
  all_goals
    obtain rfl | rfl | rfl | rfl | rfl | rfl | rfl := window_cases hl hu <;>
      first | exact absurd rfl hb | simp [stash, hidden, keepShared, StackPair.get]

/-- Putting the bank in view away brings every copy up to date. -/
theorem hidden_stash (hl : 8 ≤ n) (hu : n < 15) : (r.stash live).hidden b n = r.cell live b n := by
  rw [cell]
  split
  · next hb => rw [← hb, hidden_stash_owner hl hu]
  · next hb => exact hidden_stash_other hl hu hb

theorem read_stash : (r.stash live).read n = r.read n := by cases live <;> rfl

theorem hidden_expose : (r.expose live).hidden b n = r.hidden b n := by
  cases live <;> simp only [hidden, expose, showPair, setWindow]

theorem read_setWindow {values : Vector UInt32 7} (hn : n < 16) :
    (r.setWindow values).read n =
      if h : 8 ≤ n ∧ n < 15 then values[n - 8] else r.read n := by
  rw [read_eq hn, read_eq hn]
  simp [setWindow]

/-- Bringing a bank into view shows its own copies and, where it has none, those of User. -/
theorem read_expose (hn : n < 16) :
    (r.expose live).read n =
      if 8 ≤ n ∧ n < 15 then r.hidden (live.owner n) n else r.read n := by
  cases live <;> simp only [expose, showPair, read_setWindow hn] <;>
    grind [hidden, Bank.owner, StackPair.get]

/-- A change of bank leaves every cell as it is. -/
theorem cell_switchBank {old new : Mode} (hn : n < 16) :
    (r.switchBank old new).cell (Bank.ofMode new) b n = r.cell (Bank.ofMode old) b n := by
  rw [switchBank]
  split
  · next h => rw [h]
  · by_cases hi : 8 ≤ n ∧ n < 15
    · have hs : ∀ c, (r.stash (Bank.ofMode old)).hidden c n = r.cell (Bank.ofMode old) c n :=
        fun c => hidden_stash hi.1 hi.2
      rw [cell, read_expose hn, hidden_expose, if_pos hi, hs]
      split
      · next h => rw [h]
      · exact hs b
    · have ho : n < 8 ∨ 15 ≤ n := by omega
      simp only [cell, owner_outer ho, read_expose hn, hidden_expose, if_neg hi, read_stash]
      split
      · rfl
      · next h => rw [hidden_outer (Ne.symm h) ho, hidden_outer (Ne.symm h) ho]

/-- Writing a register reaches the one cell in view under its number. -/
theorem cell_write (hk : k < 16) :
    (r.write n v).cell live b k =
      if live.owner k = b ∧ k = n % 16 then v else r.cell live b k := by
  simp only [cell, read_write hk, hidden_write]
  grind

theorem cell_owner : r.cell live (live.owner n) n = r.read n := if_pos rfl

theorem inner_of_owner (ho : live.owner n ≠ .user) : 8 ≤ n ∧ n < 15 := by
  cases live <;> simp_all [Bank.owner] <;> omega

theorem hidesUser_iff (hn : n < 15) :
    hidesUser mode n = true ↔ (Bank.ofMode mode).owner n ≠ .user := by
  cases mode <;> simp [hidesUser, Bank.ofMode, Bank.owner] <;> omega

theorem readCopy_eq_hidden (hn : 8 ≤ n ∧ n < 15) : r.readCopy n = r.hidden .user n := by
  rw [readCopy, if_pos hn.2, hidden, if_pos hn.1, show n % 8 = n - 8 by omega]

/-- The User view of a register is its User cell, in view or not. -/
theorem readUser_eq_cell (hn : n < 15) :
    r.readUser n mode = r.cell (Bank.ofMode mode) .user n := by
  rw [readUser, cell]
  by_cases ho : (Bank.ofMode mode).owner n = .user
  · rw [if_pos ho, if_neg ((not_congr (hidesUser_iff hn)).mpr (not_not_intro ho))]
  · rw [if_neg ho, if_pos ((hidesUser_iff hn).mpr ho), readCopy_eq_hidden (inner_of_owner ho)]

/-- Past R14 nothing is kept for User: User and System read on, the other modes read R15. -/
theorem readUser_of_ge (hn : 15 ≤ n) :
    r.readUser n mode = r.read (if Bank.ofMode mode = .user then n else 15) := by
  have h13 : 13 ≤ n := by omega
  have h8 : 8 ≤ n := by omega
  cases mode <;> simp [readUser, hidesUser, Bank.ofMode, readCopy, h8, h13, Nat.not_lt.mpr hn]
  all_goals rfl

theorem hidden_writeCopy (hn : 8 ≤ n ∧ n < 15) :
    (r.writeCopy n v).hidden b k = if b = .user ∧ k = n then v else r.hidden b k := by
  cases b <;> grind [hidden, writeCopy]

theorem cell_writeUser (hn : n < 15) (hk : k < 16) :
    (r.writeUser n v mode).cell (Bank.ofMode mode) b k =
      if b = .user ∧ k = n then v else r.cell (Bank.ofMode mode) b k := by
  rw [writeUser]
  by_cases ho : (Bank.ofMode mode).owner n = .user
  · rw [if_neg ((not_congr (hidesUser_iff hn)).mpr (not_not_intro ho)), cell_write hk]
    grind
  · rw [if_pos ((hidesUser_iff hn).mpr ho)]
    have hr : (r.writeCopy n v).read k = r.read k := rfl
    rw [cell, cell, hr, hidden_writeCopy (inner_of_owner ho)]
    grind

theorem saved_writeUser : (r.writeUser n v mode).saved = r.saved := by
  rw [writeUser]
  split <;> rfl

theorem savedStatus_setSavedStatus {other : Mode} :
    (r.setSavedStatus v mode).savedStatus other =
      if other.savedIndex = mode.savedIndex ∧ mode.savedIndex ≠ none then some v
      else r.savedStatus other := by
  unfold setSavedStatus savedStatus
  cases hm : mode.savedIndex <;> cases ho : other.savedIndex <;>
    simp [Vector.getElem_set, Fin.ext_iff, eq_comm]
  split <;> rfl

theorem saved_switchBank {old new : Mode} : (r.switchBank old new).saved = r.saved := by
  have hs : ∀ c, (r.stash c).saved = r.saved := fun c => by cases c <;> rfl
  have he : ∀ (q : RegisterFile) c, (q.expose c).saved = q.saved := fun q c => by
    cases c <;> simp only [expose, showPair, setWindow]
  rw [switchBank]
  split
  · rfl
  · rw [he, hs]

theorem cell_setSavedStatus :
    (r.setSavedStatus v mode).cell live b n = r.cell live b n := by
  rw [setSavedStatus]
  split <;> cases b <;> rfl

theorem pc_eq_cell : r.pc = r.cell live .user 15 := by
  rw [cell, if_pos (owner_outer (by decide))]
  rfl

theorem pc_setPc : (r.setPc v).pc = v := by simp [setPc, pc]

theorem hidden_setPc : (r.setPc v).hidden b n = r.hidden b n := by cases b <;> rfl

theorem cell_setPc (hn : n < 15) : (r.setPc v).cell live b n = r.cell live b n := by
  have written : (r.write 15 v).cell live b n = _ := cell_write (by omega)
  rwa [if_neg (by omega)] at written

theorem read_setPc (hn : n < 15) : (r.setPc v).read n = r.read n := by
  have written : (r.write 15 v).read n = _ := read_write (by omega)
  rwa [if_neg (by omega)] at written

theorem pc_write (hn : n < 15) : (r.write n v).pc = r.pc := by
  have h := read_write (r := r) (n := n) (v := v) (show 15 < 16 by decide)
  rwa [if_neg (by omega)] at h

theorem pc_writeUser (hn : n < 15) : (r.writeUser n v mode).pc = r.pc := by
  rw [writeUser]
  split
  · rfl
  · exact pc_write hn

theorem pc_switchBank {old new : Mode} : (r.switchBank old new).pc = r.pc := by
  have shown : (r.switchBank old new).pc = (r.switchBank old new).cell (Bank.ofMode new) .user 15 :=
    pc_eq_cell
  rw [shown, cell_switchBank (by decide), ← pc_eq_cell]

theorem pc_setSavedStatus : (r.setSavedStatus v mode).pc = r.pc := by
  rw [setSavedStatus]
  split <;> rfl

end RegisterFile

end GbaArm
