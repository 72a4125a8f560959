import GbaArm.Cli.Config
import Mathlib.Data.List.Induction

/-!
The list of recent cartridges: the distinct ones among all that were ever added, the latest first, as far
as there is room. It may be cut at every addition, for what was cut off comes back only when it is added
again.
-/
namespace GbaArm.Cli

section Lists

variable {α : Type} [BEq α]

/-- No two items of a list are equal. -/
def Distinct (items : List α) : Prop := items.Pairwise fun a b => (a == b) = false

instance (items : List α) : Decidable (Distinct items) := inferInstanceAs (Decidable (List.Pairwise _ _))

/-- All items but those that are equal to one. -/
def without (items : List α) (item : α) : List α := items.filter fun other => other != item

/-- The item in front and no equal one behind it, with room for any number. -/
def toFront (items : List α) (item : α) : List α := item :: without items item

variable {limit : Nat} {first item : α} {items rest : List α}

theorem mostRecent_eq_take : mostRecent limit item items = (toFront items item).take limit := rfl

theorem eraseDups_cons : (first :: rest).eraseDups = first :: (without rest first).eraseDups :=
  List.eraseDups_cons

theorem without_cons_of_beq (same : (first == item) = true) :
    without (first :: rest) item = without rest item :=
  List.filter_cons_of_neg (by rw [bne, same]; decide)

theorem without_cons_of_not_beq (differs : (first == item) = false) :
    without (first :: rest) item = first :: without rest item :=
  List.filter_cons_of_pos (by rw [bne, differs]; decide)

theorem without_comm (items : List α) (a b : α) :
    without (without items a) b = without (without items b) a := by
  rw [without, without, List.filter_filter, without, without, List.filter_filter]
  exact congrArg (items.filter ·) (funext fun other => Bool.and_comm _ _)

theorem length_without_lt : (without rest item).length < (first :: rest).length :=
  Nat.lt_succ_of_le (List.length_filter_le _ rest)

variable [EquivBEq α]

theorem without_of_differ (differ : ∀ other ∈ items, (item == other) = false) :
    without items item = items := by
  refine List.filter_eq_self.mpr fun other mem => ?_
  rw [bne, BEq.comm, differ other mem]
  rfl

theorem without_without (same : (first == item) = true) :
    without (without items first) item = without items item := by
  rw [without, without, List.filter_filter]
  refine List.filter_congr fun other _ => ?_
  rw [bne, bne, BEq.congr_right same, Bool.and_self]

theorem Distinct.toFront (distinct : Distinct items) (item : α) : Distinct (toFront items item) := by
  refine List.pairwise_cons.mpr ⟨fun other kept => ?_, List.Pairwise.filter _ distinct⟩
  have differs : (!(other == item)) = true := (List.mem_filter.mp kept).2
  rw [BEq.comm]
  rwa [Bool.not_eq_true'] at differs

theorem eraseDups_of_distinct (distinct : Distinct items) : items.eraseDups = items := by
  induction items with
  | nil => rfl
  | cons first rest ih =>
    obtain ⟨differ, distinct⟩ := List.pairwise_cons.mp distinct
    rw [eraseDups_cons, without_of_differ differ, ih distinct]

/-- An item may be taken out before the repetitions are dropped, or after. -/
theorem eraseDups_without (items : List α) (item : α) :
    (without items item).eraseDups = without items.eraseDups item := by
  match items with
  | [] => rfl
  | first :: rest =>
    have ih := eraseDups_without (without rest first) item
    rw [eraseDups_cons]
    cases same : first == item with
    | true => rw [without_cons_of_beq same, without_cons_of_beq same, ← ih, without_without same]
    | false =>
      rw [without_cons_of_not_beq same, without_cons_of_not_beq same, eraseDups_cons, without_comm, ih]
termination_by items.length
decreasing_by exact length_without_lt

theorem distinct_foldl_toFront (distinct : Distinct items) (added : List α) :
    Distinct (added.foldl toFront items) := by
  induction added generalizing items with
  | nil => exact distinct
  | cons first rest ih => exact ih (distinct.toFront first)

/-- Without a limit the list holds the distinct items of the history, the latest first. -/
theorem foldl_toFront (distinct : Distinct items) (added : List α) :
    added.foldl toFront items = (added.reverse ++ items).eraseDups := by
  induction added using List.reverseRecOn with
  | nil => exact (eraseDups_of_distinct distinct).symm
  | append_singleton added latest ih =>
    rw [List.foldl_append, ih, List.reverse_concat, List.cons_append, eraseDups_cons,
      eraseDups_without]
    rfl

/-- Among distinct items at most one is taken out, so one more than are asked for is enough to take it
out of. -/
theorem take_without_take (distinct : Distinct items) (count : Nat) :
    (without (items.take (count + 1)) item).take count = (without items item).take count := by
  induction items generalizing count with
  | nil => rfl
  | cons first rest ih =>
    obtain ⟨differ, distinct⟩ := List.pairwise_cons.mp distinct
    rw [List.take_succ_cons]
    cases same : first == item with
    | true =>
      -- Nothing behind this one is equal to it, so the rest stays whole.
      have others : ∀ other ∈ rest, (item == other) = false := fun other mem =>
        (BEq.congr_left same).symm.trans (differ other mem)
      have fewer : without (rest.take count) item = rest.take count :=
        without_of_differ fun other mem => others other (List.mem_of_mem_take mem)
      rw [without_cons_of_beq same, without_cons_of_beq same, without_of_differ others, fewer,
        List.take_take, Nat.min_self]
    | false =>
      rw [without_cons_of_not_beq same, without_cons_of_not_beq same]
      cases count with
      | zero => rfl
      | succ count => rw [List.take_succ_cons, List.take_succ_cons, ih distinct]

/-- What the limit has cut off makes no difference to the next addition. -/
theorem mostRecent_take (distinct : Distinct items) (item : α) :
    mostRecent limit item (items.take limit) = mostRecent limit item items := by
  rw [mostRecent_eq_take, mostRecent_eq_take, toFront, toFront]
  cases limit with
  | zero => rfl
  | succ count => rw [List.take_succ_cons, List.take_succ_cons, take_without_take distinct]

/-- To cut the list at every addition is to cut it once at the end. -/
theorem foldl_mostRecent (distinct : Distinct items) {added : List α} (nonempty : added ≠ []) :
    added.foldl (fun recent item => mostRecent limit item recent) items =
      (added.foldl toFront items).take limit := by
  induction added using List.reverseRecOn with
  | nil => exact absurd rfl nonempty
  | append_singleton added latest ih =>
    rw [List.foldl_append, List.foldl_append]
    by_cases first : added = []
    · rw [first]
      rfl
    · rw [ih first]
      exact mostRecent_take (distinct_foldl_toFront distinct added) latest

end Lists

namespace Config

theorem foldl_addRecent (c : Config) (roms : List Path) : roms.foldl addRecent c = { c with
    recentRoms := roms.foldl (fun recent rom => mostRecent recentLimit rom recent) c.recentRoms } := by
  induction roms generalizing c with
  | nil => rfl
  | cons rom rest ih => exact ih (c.addRecent rom)

/-- After cartridges were added, the recent ones are the first ten distinct ones among those added, the
latest first, and then those there were before. No other setting changes, and it is the list without a limit
cut once at the end. -/
theorem recent_are_latest (c : Config) (roms : List Path) (nonempty : roms ≠ [])
    (distinct : Distinct c.recentRoms) :
    roms.foldl addRecent c =
      { c with recentRoms := (roms.reverse ++ c.recentRoms).eraseDups.take 10 } ∧
    (roms.foldl addRecent c).recentRoms = (roms.foldl toFront c.recentRoms).take 10 := by
  have cut : roms.foldl (fun recent rom => mostRecent recentLimit rom recent) c.recentRoms =
      (roms.foldl toFront c.recentRoms).take 10 := foldl_mostRecent distinct nonempty
  rw [foldl_addRecent, cut]
  exact ⟨by rw [foldl_toFront distinct], rfl⟩

/-- The ninth of ten cartridges is added again under another name for it, behind a new one: it comes to the
front, and the last one goes. -/
theorem recent_are_latest_renamed :
    let names := ["0", "1", "2", "3", "4", "5", "6", "7", "roms/8", "9"]
    let c : Config := { recentRoms := names.map Path.mk }
    let roms := ["new", "roms/./8"].map Path.mk
    roms ≠ [] ∧ Distinct c.recentRoms ∧ (roms.foldl addRecent c).recentRoms.map Path.text =
      ["roms/./8", "new", "0", "1", "2", "3", "4", "5", "6", "7"] := by
  intro names c roms
  have nonempty : roms ≠ [] := List.cons_ne_nil _ _
  have distinct : Distinct c.recentRoms := by decide +kernel
  refine ⟨nonempty, distinct, ?_⟩
  rw [(recent_are_latest c roms nonempty distinct).1]
  decide +kernel

end Config

end GbaArm.Cli
