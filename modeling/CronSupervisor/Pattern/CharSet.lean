/-
  CronSupervisor.Pattern.CharSet — sets of characters as patterns write them.

  A set is kept as the expression that denotes it, and `mem` decides membership.  The main
  statement says what ignoring case means: a folded set holds a character exactly if it holds one
  of its case variants.
-/
import CronSupervisor.Text.Blank
import CronSupervisor.Text.Table.Fold
import CronSupervisor.Text.Table.Word

namespace CronSupervisor.Pattern

open Text

/-! ## §1. Case variants -/

/-- The character that a row of shifts takes to `n`, if there is one. -/
def unshiftBy? (row : Nat × Nat × Nat × Int) (n : Nat) : Option Char :=
  let (_, _, _, shift) := row
  let source := (n - shift).toNat
  if shiftBy? row source = some n then some (Char.ofNat source) else none

/-- All characters with the same case folding as `c`. -/
def caseVariants (c : Char) : List Char :=
  let fold := shiftChar foldRows c
  fold :: foldRows.filterMap (unshiftBy? · fold.toNat)

/-! ## §2. Sets -/

/-- A set of characters. -/
inductive CharSet where
  | nothing
  | range (first last : Char)
  /-- The decimal digits of all scripts. -/
  | digit
  | space
  /-- Letters, marks, digits and connecting punctuation. -/
  | word
  | union (a b : CharSet)
  | inter (a b : CharSet)
  | difference (a b : CharSet)
  | complement (a : CharSet)
  /-- The characters that differ from a member in nothing but case. -/
  | folded (a : CharSet)
  deriving DecidableEq

namespace CharSet

/-- A single character. -/
def single (c : Char) : CharSet := range c c

/-- Membership. -/
def mem : CharSet → Char → Bool
  | nothing, _ => false
  | range first last, c => first ≤ c && c ≤ last
  | digit, c => covers digitRanges c.toNat
  | space, c => isBlank c
  | word, c => covers wordRanges c.toNat
  | union a b, c => a.mem c || b.mem c
  | inter a b, c => a.mem c && b.mem c
  | difference a b, c => a.mem c && !b.mem c
  | complement a, c => !a.mem c
  | folded a, c => (caseVariants c).any a.mem

/-- The union of a list of ranges. -/
def ofRanges (rs : List (Char × Char)) : CharSet :=
  rs.foldr (fun (first, last) s => union (range first last) s) nothing

/-- Every character but the line feed. -/
def notNewline : CharSet := complement (single '\n')

/-- Every character. -/
def anything : CharSet := complement nothing

@[simp] theorem mem_single (c d : Char) : (single c).mem d = decide (d = c) := by
  simp only [single, mem]
  by_cases h : d = c
  · simp [h]
  · simp only [h, decide_false, Bool.and_eq_false_iff, decide_eq_false_iff_not]
    by_cases hc : c ≤ d
    · exact .inr fun hd => h (Char.le_antisymm hd hc)
    · exact .inl hc

theorem mem_folded (a : CharSet) (c : Char) :
    (folded a).mem c = true ↔ ∃ d ∈ caseVariants c, a.mem d = true := by
  simp [mem, List.any_eq_true]

end CharSet

/-- A letter, mark, digit or connecting punctuation. -/
def isWordChar (c : Char) : Bool := CharSet.word.mem c

end CronSupervisor.Pattern
