/-
  CronSupervisor.Shell.Arithmetic — integer expressions of the shell.

  Numbers are words of 64 bits with a sign and wrap around.  Operators have levels, a higher one
  binding more strongly, and those of one level are taken from left to right.  Both sides of an
  operator are always evaluated.
-/
import CronSupervisor.Text.Decimal

namespace CronSupervisor.Shell.Arithmetic

open Text

/-- The number that a word of 64 bits with a sign holds. -/
def wrap (n : Int) : Int := n.bmod (Nat.pow 2 64)

/-- The number of a truth value. -/
def truth (b : Bool) : Int := if b then 1 else 0

/-- An operator: how strongly it binds and what it yields. -/
structure Operator where
  sign : String
  level : Nat
  apply : Int → Int → Option Int

/-- A quotient or remainder, which does not exist for zero. -/
def nonzero (f : Int → Int → Int) (a b : Int) : Option Int := if b = 0 then none else some (f a b)

/-- The operators, those that begin with another one before it. -/
def operators : List Operator :=
  [⟨"||", 1, fun a b => some (truth (a != 0 || b != 0))⟩,
   ⟨"&&", 2, fun a b => some (truth (a != 0 && b != 0))⟩,
   ⟨"==", 3, fun a b => some (truth (a == b))⟩,
   ⟨"!=", 3, fun a b => some (truth (a != b))⟩,
   ⟨"<=", 4, fun a b => some (truth (decide (a ≤ b)))⟩,
   ⟨">=", 4, fun a b => some (truth (decide (b ≤ a)))⟩,
   ⟨"<", 4, fun a b => some (truth (decide (a < b)))⟩,
   ⟨">", 4, fun a b => some (truth (decide (b < a)))⟩,
   ⟨"+", 5, fun a b => some (wrap (a + b))⟩,
   ⟨"-", 5, fun a b => some (wrap (a - b))⟩,
   ⟨"*", 6, fun a b => some (wrap (a * b))⟩,
   ⟨"/", 6, nonzero fun a b => wrap (a.tdiv b)⟩,
   ⟨"%", 6, nonzero Int.tmod⟩]

/-- Drop the blanks. -/
def skip (cs : List Char) : List Char := cs.dropWhile fun c => c == ' ' || c == '\t' || c == '\n'

/-- The operator at the start, if it binds strongly enough. -/
def operator? (level : Nat) (cs : List Char) : Option (Operator × List Char) :=
  match operators.find? (·.sign.toList.isPrefixOf cs) with
  | some o => if level ≤ o.level then some (o, skip (cs.drop o.sign.length)) else none
  | none => none

/-- A decimal number, or the value of a name. -/
def leaf? (valueOf : String → Int) (cs : List Char) : Option (Int × List Char) :=
  let isNameChar := fun (c : Char) => c.isAlphanum || c == '_'
  let token := cs.takeWhile isNameChar
  let rest := skip (cs.drop token.length)
  match token with
  | [] => none
  | c :: _ =>
    if isDigit c then (numeral? token).map fun n => (wrap n, rest)
    else some (valueOf (String.ofList token), rest)

mutual

/-- An operand: a leaf, a negation, or an expression in parentheses. -/
def operand? (valueOf : String → Int) : Nat → List Char → Option (Int × List Char)
  | 0, _ => none
  | fuel + 1, cs =>
    match cs with
    | '-' :: cs => (operand? valueOf fuel (skip cs)).map fun (n, cs) => (wrap (-n), cs)
    | '+' :: cs => operand? valueOf fuel (skip cs)
    | '!' :: cs => (operand? valueOf fuel (skip cs)).map fun (n, cs) => (truth (n == 0), cs)
    | '(' :: cs =>
      match expression? valueOf fuel 1 (skip cs) with
      | some (n, ')' :: cs) => some (n, skip cs)
      | _ => none
    | cs => leaf? valueOf cs

/-- An expression of operators of at least some level. -/
def expression? (valueOf : String → Int) : Nat → Nat → List Char → Option (Int × List Char)
  | 0, _, _ => none
  | fuel + 1, level, cs =>
    match operand? valueOf fuel cs with
    | some (a, cs) => expressionRest? valueOf fuel level a cs
    | none => none

/-- An expression of which the first operand was read. -/
def expressionRest? (valueOf : String → Int) :
    Nat → Nat → Int → List Char → Option (Int × List Char)
  | 0, _, _, _ => none
  | fuel + 1, level, a, cs =>
    match operator? level cs with
    | some (o, cs) =>
      match expression? valueOf fuel (o.level + 1) cs with
      | some (b, cs) =>
        match o.apply a b with
        | some n => expressionRest? valueOf fuel level n cs
        | none => none
      | none => none
    | none => some (a, cs)

end

/-- The value of a whole expression. -/
def value? (valueOf : String → Int) (cs : List Char) : Option Int :=
  match expression? valueOf (2 * cs.length + 4) 1 (skip cs) with
  | some (n, []) => some n
  | _ => none

end CronSupervisor.Shell.Arithmetic
