import GbaArm.Toml.Basic

/-! Numbers and times of a TOML document, each read from its whole text. -/
namespace GbaArm.Toml

/-- Drops the underscores of a run of digits; each must stand between two digits. -/
def plainDigits? (isDigit : Char → Bool) : List Char → Option (List Char)
  | [] => none
  | [c] => if isDigit c then some [c] else none
  | c :: '_' :: rest => if isDigit c then (plainDigits? isDigit rest).map (c :: ·) else none
  | c :: rest => if isDigit c then (plainDigits? isDigit rest).map (c :: ·) else none

/-- The value of a hexadecimal digit. -/
def digitValue (c : Char) : Nat :=
  if c.isDigit then c.toNat - '0'.toNat
  else if 'a' ≤ c ∧ c ≤ 'f' then c.toNat - 'a'.toNat + 10
  else if 'A' ≤ c ∧ c ≤ 'F' then c.toNat - 'A'.toNat + 10
  else 16

def ofDigits (base : Nat) (digits : List Char) : Nat :=
  digits.foldl (fun n c => base * n + digitValue c) 0

/-- A number in one of the bases that have a mark of their own. -/
def basedNumber? (base : Nat) (text : List Char) : Option Nat :=
  (plainDigits? (fun c => digitValue c < base) text).map (ofDigits base)

/-- Decimal digits without a needless leading zero. -/
def decimalDigits? (text : List Char) : Option (List Char) :=
  match plainDigits? Char.isDigit text with
  | some ('0' :: _ :: _) => none
  | digits => digits

/-- Splits a sign off. -/
def splitSign : List Char → Bool × List Char
  | '+' :: rest => (false, rest)
  | '-' :: rest => (true, rest)
  | text => (false, text)

def integer? (text : List Char) : Option Int :=
  match text with
  | '0' :: 'x' :: rest => (basedNumber? 16 rest).map Int.ofNat
  | '0' :: 'o' :: rest => (basedNumber? 8 rest).map Int.ofNat
  | '0' :: 'b' :: rest => (basedNumber? 2 rest).map Int.ofNat
  | _ =>
    let (negative, digits) := splitSign text
    (decimalDigits? digits).map fun ds =>
      let n : Int := ofDigits 10 ds
      if negative then -n else n

/-- Splits at the first character that satisfies `p`, which is dropped. -/
def splitAtFirst (p : Char → Bool) (text : List Char) : List Char × Option (List Char) :=
  match text.dropWhile fun c => !p c with
  | [] => (text, none)
  | _ :: rest => (text.takeWhile fun c => !p c, some rest)

/-- An integer part with a fraction, an exponent or both. -/
def isFloat (text : List Char) : Bool :=
  let body := (splitSign text).2
  if body == "inf".toList || body == "nan".toList then true
  else
    let (mantissa, exponent) := splitAtFirst (fun c => c == 'e' || c == 'E') body
    let (whole, fraction) := splitAtFirst (· == '.') mantissa
    let fractionOk := match fraction with
      | some digits => (plainDigits? Char.isDigit digits).isSome
      | none => true
    let exponentOk := match exponent with
      | some digits => (plainDigits? Char.isDigit (splitSign digits).2).isSome
      | none => true
    (decimalDigits? whole).isSome && fractionOk && exponentOk && (fraction.isSome || exponent.isSome)

/-- A decimal field of exactly `width` digits within bounds. -/
def field? (width low high : Nat) (text : List Char) : Option Nat :=
  if text.length = width ∧ text.all Char.isDigit then
    let n := ofDigits 10 text
    if low ≤ n ∧ n ≤ high then some n else none
  else none

def isLeapYear (year : Nat) : Bool := year % 4 = 0 ∧ (year % 100 ≠ 0 ∨ year % 400 = 0)

def daysOfMonth (year month : Nat) : Nat :=
  if month = 2 then if isLeapYear year then 29 else 28
  else if month = 4 ∨ month = 6 ∨ month = 9 ∨ month = 11 then 30
  else 31

/-- Year, month and day with dashes between. -/
def isDate (text : List Char) : Bool :=
  match text with
  | [y0, y1, y2, y3, '-', m0, m1, '-', d0, d1] =>
    match field? 4 0 9999 [y0, y1, y2, y3], field? 2 1 12 [m0, m1] with
    | some year, some month => (field? 2 1 (daysOfMonth year month) [d0, d1]).isSome
    | _, _ => false
  | _ => false

/-- Hour, minute and second with colons between, and maybe a fraction. -/
def isTime (text : List Char) : Bool :=
  match text with
  | h0 :: h1 :: ':' :: m0 :: m1 :: ':' :: s0 :: s1 :: rest =>
    (field? 2 0 23 [h0, h1]).isSome && (field? 2 0 59 [m0, m1]).isSome &&
      (field? 2 0 60 [s0, s1]).isSome &&
      match rest with
      | [] => true
      | '.' :: digits => !digits.isEmpty && digits.all Char.isDigit
      | _ => false
  | _ => false

/-- A time with the offset of its zone. -/
def isZonedTime (text : List Char) : Bool :=
  match text.reverse with
  | 'Z' :: rest | 'z' :: rest => isTime rest.reverse
  | m1 :: m0 :: ':' :: h1 :: h0 :: sign :: rest =>
    (sign == '+' || sign == '-') && (field? 2 0 23 [h0, h1]).isSome &&
      (field? 2 0 59 [m0, m1]).isSome && isTime rest.reverse
  | _ => false

/-- A date, a time, or both with or without a zone. -/
def isDateTime (text : List Char) : Bool :=
  isDate text || isTime text ||
    (isDate (text.take 10) &&
      match text.drop 10 with
      | c :: rest => (c == 'T' || c == 't' || c == ' ') && (isTime rest || isZonedTime rest)
      | [] => false)

/-- Whether a text begins like a date or a time. -/
def looksLikeTime (text : List Char) : Bool :=
  match text with
  | a :: b :: ':' :: _ => a.isDigit && b.isDigit
  | a :: b :: c :: d :: '-' :: _ => [a, b, c, d].all Char.isDigit
  | _ => false

/-- Integers of 128 bits, signed or not. Larger ones are refused. -/
def fitsInteger (n : Int) : Bool :=
  -0x80000000000000000000000000000000 ≤ n && n ≤ 0xFFFFFFFFFFFFFFFFFFFFFFFFFFFFFFFF

/-- A value that is written without quotes or brackets. -/
def scalar (text : List Char) : Except Problem Value :=
  let whole := String.ofList text
  if whole == "true" then .ok (.boolean true)
  else if whole == "false" then .ok (.boolean false)
  else if looksLikeTime text then
    if isDateTime text then .ok (.dateTime whole) else .error (.badTime whole)
  else
    match integer? text with
    | some n => if fitsInteger n then .ok (.integer n) else .error (.badNumber whole)
    | none => if isFloat text then .ok (.float whole) else .error (.badNumber whole)

end GbaArm.Toml
