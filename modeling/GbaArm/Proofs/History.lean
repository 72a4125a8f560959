import Mathlib.Data.List.Basic
import Mathlib.Data.List.DropRight

/-! Histories, the latest event last: what an event brought about that none has undone since, the last value
that an event supplied, and all that came in since the last event of a kind. -/
namespace GbaArm

variable {α β : Type} {starts ends : α → Prop} {supplies : α → Option β} {past : List α} {now : α}

/-- Some event started it, and no event since has ended it. -/
def Since (starts ends : α → Prop) (past : List α) : Prop :=
  ∃ older start newer, past = older ++ start :: newer ∧ starts start ∧ ∀ event ∈ newer, ¬ ends event

theorem not_since_nil : ¬ Since starts ends [] := by
  rintro ⟨older, start, newer, split, -⟩
  exact List.append_ne_nil_of_right_ne_nil older (List.cons_ne_nil start newer) split.symm

theorem since_concat :
    Since starts ends (past ++ [now]) ↔ starts now ∨ Since starts ends past ∧ ¬ ends now := by
  constructor
  · rintro ⟨older, start, newer, split, started, quiet⟩
    obtain rfl | ⟨front, last, rfl⟩ := List.eq_nil_or_concat' newer
    · obtain ⟨-, same⟩ := List.append_inj' split rfl
      rw [List.cons.inj same |>.1]
      exact .inl started
    · have regrouped : past ++ [now] = (older ++ start :: front) ++ [last] := by simp [split]
      obtain ⟨rfl, same⟩ := List.append_inj' regrouped rfl
      obtain ⟨rfl, -⟩ := List.cons.inj same
      refine .inr ⟨⟨older, start, front, rfl, started, fun event he => quiet event ?_⟩, quiet now ?_⟩
      · exact List.mem_append_left _ he
      · exact List.mem_append_right _ (List.mem_singleton.mpr rfl)
  · rintro (started | ⟨⟨older, start, newer, rfl, started, quiet⟩, kept⟩)
    · exact ⟨past, now, [], rfl, started, fun event he => absurd he List.not_mem_nil⟩
    · refine ⟨older, start, newer ++ [now], by simp, started, fun event he => ?_⟩
      obtain earlier | last := List.mem_append.mp he
      · exact quiet event earlier
      · exact List.mem_singleton.mp last ▸ kept

/-- The value that the last event with one supplied. -/
def lastSupplied (supplies : α → Option β) (past : List α) : Option β := past.reverse.findSome? supplies

theorem lastSupplied_concat :
    lastSupplied supplies (past ++ [now]) = (supplies now).or (lastSupplied supplies past) := by
  rw [lastSupplied, List.reverse_concat, List.findSome?_cons]
  cases supplies now <;> rfl

/-- What the events since the last one that stops brought in, in order. -/
def broughtSince (stops : α → Bool) (brings : α → List β) (past : List α) : List β :=
  (past.rtakeWhile fun event => !stops event).flatMap brings

variable {stops : α → Bool} {brings : α → List β}

theorem broughtSince_concat_of_stops (stopped : stops now = true) :
    broughtSince stops brings (past ++ [now]) = [] := by
  rw [broughtSince, List.rtakeWhile_concat_neg _ _ _ (by rw [stopped]; decide), List.flatMap_nil]

theorem broughtSince_concat (goesOn : stops now = false) :
    broughtSince stops brings (past ++ [now]) = broughtSince stops brings past ++ brings now := by
  rw [broughtSince, List.rtakeWhile_concat_pos _ _ _ (by rw [goesOn]; decide), List.flatMap_append,
    List.flatMap_singleton, broughtSince]

end GbaArm
