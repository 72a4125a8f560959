/-! Hexadecimal text of natural numbers, padded with zeros on the left. -/
namespace GbaArm.Text

/-- At least `width` lower-case digits. -/
def hexLower (width n : Nat) : String :=
  let digits := Nat.toDigits 16 n
  String.ofList (List.replicate (width - digits.length) '0' ++ digits)

/-- At least `width` upper-case digits. -/
def hexUpper (width n : Nat) : String := (hexLower width n).toUpper

/-- A word as eight upper-case digits after `0x`. -/
def wordText (w : UInt32) : String := "0x" ++ hexUpper 8 w.toNat

/-- A byte as two upper-case digits after `0x`. -/
def byteText (b : UInt8) : String := "0x" ++ hexUpper 2 b.toNat

end GbaArm.Text
