/-
  CronSupervisor.Text.Ranges — sets of characters given by ascending ranges of their numbers.
-/
namespace CronSupervisor.Text

/-- Whether a number lies in one of the ranges; they are ascending, so the search may stop early. -/
def covers : List (Nat × Nat) → Nat → Bool
  | [], _ => false
  | (first, last) :: rs, n => if n < first then false else if n ≤ last then true else covers rs n

/-- What one row of a table of shifts makes of a number, if the row applies to it. -/
def shiftBy? (row : Nat × Nat × Nat × Int) (n : Nat) : Option Nat :=
  let (first, last, step, shift) := row
  if first ≤ n ∧ n ≤ last ∧ (n - first) % step = 0 then some (n + shift).toNat else none

/-- What a table of shifts makes of a character; one that no row applies to stays. -/
def shiftChar (rows : List (Nat × Nat × Nat × Int)) (c : Char) : Char :=
  match rows.findSome? (shiftBy? · c.toNat) with
  | some n => Char.ofNat n
  | none => c

end CronSupervisor.Text
