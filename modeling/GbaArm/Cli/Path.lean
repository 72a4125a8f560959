/-! Names of files. Two names with the same components are the same name. -/
namespace GbaArm.Cli

structure Path where
  text : String
  deriving Repr

namespace Path

/-- The pieces of a text between slashes, empty ones too. -/
def pieces : List Char → List String
  | [] => [""]
  | c :: rest =>
    if c = '/' then "" :: pieces rest
    else
      match pieces rest with
      | piece :: more => (c.toString ++ piece) :: more
      | [] => [c.toString]

/-- Whether a path starts at the root, and its pieces without empty ones and dots, which lead nowhere.
A dot in front of a relative path counts. -/
def components (p : Path) : Bool × List String :=
  match pieces p.text.toList with
  | "." :: more => (false, "." :: more.filter isNamed)
  | "" :: next :: more => (true, (next :: more).filter isNamed)
  | all => (false, all.filter isNamed)
where
  isNamed (piece : String) : Bool := piece != "" && piece != "."

instance : BEq Path := ⟨fun p q => p.components == q.components⟩

theorem beq_iff (p q : Path) : (p == q) = true ↔ p.components = q.components := by
  change (p.components == q.components) = true ↔ _
  exact beq_iff_eq

instance : EquivBEq Path where
  rfl := (beq_iff _ _).2 rfl
  symm h := (beq_iff _ _).2 ((beq_iff _ _).1 h).symm
  trans h h' := (beq_iff _ _).2 (((beq_iff _ _).1 h).trans ((beq_iff _ _).1 h'))

end Path

end GbaArm.Cli
