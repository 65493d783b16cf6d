/-
  CronSupervisor.Text.Lower — words in lower case.

  Nearly every character has a lower case of its own, whatever stands around it.  Two have not: the
  capital I with a dot becomes two characters, and the Greek capital sigma becomes its final form
  where a word ends.
-/
import CronSupervisor.Text.Ranges
import CronSupervisor.Text.Table.Lower

namespace CronSupervisor.Text

/-- Whether the next character that matters for case is a letter with case. -/
def meetsCased (cs : List Char) : Bool :=
  match cs.dropWhile fun c => covers caseIgnorableRanges c.toNat with
  | c :: _ => covers casedRanges c.toNat
  | [] => false

/-- The lower case of the characters `after`, which follow those of `before`, last one first. -/
def lowerAfter (before : List Char) : List Char → List Char
  | [] => []
  | c :: after =>
    let here :=
      if c = '\u03a3' then if meetsCased before && !meetsCased after then ['\u03c2'] else ['\u03c3']
      else if c = '\u0130' then ['i', '\u0307']
      else [shiftChar lowerRows c]
    here ++ lowerAfter (c :: before) after

/-- The characters in lower case. -/
def lowerChars (cs : List Char) : List Char := lowerAfter [] cs

end CronSupervisor.Text
