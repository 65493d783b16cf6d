/-
  CronSupervisor.Pattern.Basic — patterns for what is to be masked.

  A pattern is what a text may look like at some place.  Alternatives are ordered, and repetitions
  prefer more or fewer rounds, so that of all the matches at a place one is the first choice.
-/
import CronSupervisor.Pattern.CharSet

namespace CronSupervisor

namespace Pattern

/-- A condition on the characters on both sides of a place. -/
inductive Anchor where
  | textStart
  | textEnd
  | lineStart
  | lineEnd
  /-- A word character on exactly one side. -/
  | boundary
  | noBoundary
  /-- A word character after the place and none before it. -/
  | wordStart
  | wordEnd
  /-- No word character before the place. -/
  | halfStart
  | halfEnd
  deriving DecidableEq

/-- Whether a place has word characters around it, before and after. -/
def wordSides (before after : Option Char) : Bool × Bool :=
  (before.any isWordChar, after.any isWordChar)

/-- Whether the condition holds between two characters, absent at the ends of the text. -/
def Anchor.holds (before after : Option Char) : Anchor → Bool
  | textStart => before.isNone
  | textEnd => after.isNone
  | lineStart => before.all (· == '\n')
  | lineEnd => after.all (· == '\n')
  | boundary => let (b, a) := wordSides before after; b != a
  | noBoundary => let (b, a) := wordSides before after; b == a
  | wordStart => let (b, a) := wordSides before after; !b && a
  | wordEnd => let (b, a) := wordSides before after; b && !a
  | halfStart => !before.any isWordChar
  | halfEnd => !after.any isWordChar

end Pattern

/-- A pattern. -/
inductive Pattern where
  | empty
  | chars (s : Pattern.CharSet)
  | anchor (a : Pattern.Anchor)
  | seq (p q : Pattern)
  /-- The first alternative is preferred. -/
  | alt (p q : Pattern)
  /-- From `least` up to `most` rounds, or without limit; greedy if more rounds are preferred. -/
  | rounds (least : Nat) (most : Option Nat) (greedy : Bool) (p : Pattern)
  deriving DecidableEq

namespace Pattern

/-- One pattern after another, in order. -/
def seqAll : List Pattern → Pattern
  | [] => empty
  | [p] => p
  | p :: ps => seq p (seqAll ps)

/-- Any one of a list of patterns, the first preferred; none stands for the empty pattern. -/
def altAll : List Pattern → Pattern
  | [] => empty
  | [p] => p
  | p :: ps => alt p (altAll ps)

end Pattern

/-- A way of writing patterns. -/
class PatternSyntax where
  /-- The pattern that a text writes, if it writes one. -/
  read? : String → Option Pattern

end CronSupervisor
