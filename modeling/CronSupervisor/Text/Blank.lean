/-
  CronSupervisor.Text.Blank — white space in names, cron expressions and zone names.

  A blank is a character with the Unicode property White_Space.  Texts are handled as lists of
  characters; `trim` and `words` are the two uses: a name counts as empty when nothing is left of
  it after trimming, and a cron expression is read as its words.
-/
import CronSupervisor.Text.Ranges

namespace CronSupervisor.Text

/-! ## §1. The property -/

/-- The ranges of code points that have the property White_Space. -/
def blankRanges : List (Nat × Nat) :=
  [(0x9, 0xD), (0x20, 0x20), (0x85, 0x85), (0xA0, 0xA0), (0x1680, 0x1680), (0x2000, 0x200A),
   (0x2028, 0x2029), (0x202F, 0x202F), (0x205F, 0x205F), (0x3000, 0x3000)]

/-- A blank: zero width space and the byte order mark are none. -/
def isBlank (c : Char) : Bool := covers blankRanges c.toNat

/-! ## §2. Trimming -/

/-- The characters without the blanks on either end. -/
def trimChars (cs : List Char) : List Char :=
  ((cs.dropWhile isBlank).reverse.dropWhile isBlank).reverse

/-- The text without the blanks on either end. -/
def trim (s : String) : String := String.ofList (trimChars s.toList)

/-- Nothing but blanks. -/
def isBlankText (s : String) : Bool := s.toList.all isBlank

/-! ## §3. Words -/

/-- The maximal blank-free pieces, in order; none of them is empty. -/
def words (cs : List Char) : List (List Char) :=
  close (go cs)
where
  /-- A word in the making and the finished words after it. -/
  go : List Char → List Char × List (List Char)
    | [] => ([], [])
    | c :: cs => if isBlank c then ([], close (go cs)) else (c :: (go cs).1, (go cs).2)
  /-- Finish the word in the making, if it has a character. -/
  close : List Char × List (List Char) → List (List Char)
    | ([], ws) => ws
    | (w, ws) => w :: ws

end CronSupervisor.Text
