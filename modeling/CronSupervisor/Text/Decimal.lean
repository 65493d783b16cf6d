/-
  CronSupervisor.Text.Decimal — decimal numerals as lists of characters.

  Numbers are written without leading zeros unless a width asks for them, and a fraction without
  trailing zeros.  Reading accepts leading zeros and nothing but ASCII digits.
-/
namespace CronSupervisor.Text

/-- An ASCII digit. -/
def isDigit (c : Char) : Bool := '0' ≤ c && c ≤ '9'

/-- The value of an ASCII digit. -/
def digitValue (c : Char) : Nat := c.toNat - 48

/-- The digit of a value below ten. -/
def digitChar (n : Nat) : Char := Char.ofNat (48 + n % 10)

/-- The last `width` decimal digits, with leading zeros. -/
def paddedDigits : Nat → Nat → List Char
  | 0, _ => []
  | width + 1, n => paddedDigits width (n / 10) ++ [digitChar n]

/-- The numeral with at least `width` digits. -/
def padded (width n : Nat) : String :=
  if n < Nat.pow 10 width then String.ofList (paddedDigits width n) else toString n

/-- The value of a list of digits, the first the most significant. -/
def digitsValue (cs : List Char) : Nat := cs.foldl (fun n c => 10 * n + digitValue c) 0

/-- A numeral of at least one digit and of nothing else. -/
def numeral? (cs : List Char) : Option Nat :=
  if cs ≠ [] ∧ cs.all isDigit then some (digitsValue cs) else none

/-- `whole` with the fraction `part / 10 ^ width`, without its trailing zeros. -/
def decimal (whole part width : Nat) : String :=
  let digits := ((paddedDigits width part).reverse.dropWhile (· == '0')).reverse
  if digits.isEmpty then toString whole else toString whole ++ "." ++ String.ofList digits

end CronSupervisor.Text
