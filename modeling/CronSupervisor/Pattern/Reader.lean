/-
  CronSupervisor.Pattern.Reader — patterns as text.

  Reading goes from left to right with the groups that are open on a stack.  A text without a
  meaning is refused as a whole: an unbalanced bracket, a repetition of nothing, a range out of
  order, a look at what is around, a reference to an earlier group.  Flags that are set inside of
  a group hold to its end, also across the bars of its alternatives.

  This syntax has no classes by Unicode property (`\p`), no flags for comments, for carriage returns
  as line ends or for bytes (`x`, `R`, `-u`), and a limit of its own on the size of a pattern.  What
  is stated of patterns in general does not depend on it: it is one `PatternSyntax`.
-/
import CronSupervisor.Pattern.Bracket

namespace CronSupervisor.Pattern

open Text

/-! ## §1. Groups under construction -/

/-- The content of a group as far as it was read. -/
structure OpenGroup where
  /-- The flags that hold again after the group. -/
  outerFlags : Flags
  /-- The finished alternatives, last first. -/
  alternatives : List Pattern := []
  /-- The items of the alternative in the making, last first. -/
  items : List Pattern := []
  /-- Whether the last item may be repeated: there is one, and no flags were set after it. -/
  repeatable : Bool := false

namespace OpenGroup

/-- Add an item. -/
def add (g : OpenGroup) (p : Pattern) : OpenGroup :=
  { g with items := p :: g.items, repeatable := true }

/-- Finish the alternative in the making. -/
def bar (g : OpenGroup) : OpenGroup :=
  { g with alternatives := seqAll g.items.reverse :: g.alternatives, items := [],
           repeatable := false }

/-- The pattern of all alternatives. -/
def close (g : OpenGroup) : Pattern := altAll g.bar.alternatives.reverse

/-- Put the last item under a repetition. -/
def rounds? (g : OpenGroup) (least : Nat) (most : Option Nat) (greedy : Bool) :
    Option OpenGroup :=
  match g.repeatable, g.items with
  | true, p :: ps => some { g with items := rounds least most greedy p :: ps }
  | _, _ => none

end OpenGroup

/-- What was read of a pattern. -/
structure Reading where
  flags : Flags := {}
  group : OpenGroup := { outerFlags := {} }
  /-- The groups around it, innermost first. -/
  outer : List OpenGroup := []
  /-- The names of groups. -/
  names : List (List Char) := []

namespace Reading

/-- Add an item to the innermost group. -/
def add (r : Reading) (p : Pattern) : Reading := { r with group := r.group.add p }

/-- Open a group in which some flags hold. -/
def openGroup (r : Reading) (flags : Flags) : Reading :=
  { r with flags, group := { outerFlags := r.flags }, outer := r.group :: r.outer }

/-- Close the innermost group. -/
def closeGroup? (r : Reading) : Option Reading :=
  match r.outer with
  | [] => none
  | g :: gs =>
    some { r with flags := r.group.outerFlags, group := g.add r.group.close, outer := gs }

/-- Add an atom. -/
def addAtom (r : Reading) : Atom → Reading
  | .literal c => r.add (.chars (r.flags.fold (.single c)))
  | .set s => r.add (.chars s)
  | .anchor a => r.add (.anchor a)

/-! ## §2. Repetitions -/

/-- The sign after a repetition that turns its preference around. -/
def lazySign : List Char → Bool × List Char
  | '?' :: rest => (true, rest)
  | cs => (false, cs)

/-- Repeat the last item, greedily unless a sign or a flag says otherwise. -/
def repeat? (r : Reading) (least : Nat) (most : Option Nat) (cs : List Char) :
    Option (Reading × List Char) :=
  let (isLazy, rest) := lazySign cs
  (r.group.rounds? least most (isLazy == r.flags.swapGreed)).map
    fun g => ({ r with group := g }, rest)

/-- The greatest number of rounds that can be written. -/
def maxRounds : Nat := 4294967295

/-- A numeral with blanks around it, or nothing but blanks. -/
def roundCount? (cs : List Char) : Option (Option Nat × List Char) :=
  let cs := cs.dropWhile isBlank
  let digits := cs.takeWhile isDigit
  let rest := (cs.drop digits.length).dropWhile isBlank
  if digits.isEmpty then some (none, rest)
  else if digitsValue digits ≤ maxRounds then some (some (digitsValue digits), rest)
  else none

/-- The bounds of a repetition, read after the opening brace: exact, at least, or from and to. -/
def bounds? (cs : List Char) : Option ((Nat × Option Nat) × List Char) :=
  match roundCount? cs with
  | some (some least, '\x7d' :: rest) => some ((least, some least), rest)
  | some (some least, ',' :: '\x7d' :: rest) => some ((least, none), rest)
  | some (some least, ',' :: rest) =>
    match roundCount? rest with
    | some (some most, '\x7d' :: rest) =>
      if least ≤ most then some ((least, some most), rest) else none
    | _ => none
  | _ => none

/-! ## §3. Groups and flags -/

/-- A name of a group up to the closing angle bracket. -/
def groupName? (cs : List Char) : Option (List Char × List Char) :=
  let name := cs.takeWhile (· != '>')
  match name, cs.drop name.length with
  | c :: more, '>' :: rest =>
    let isNameChar := fun c => isWordChar c || c == '.' || c == '[' || c == ']'
    if isWordChar c && !CharSet.digit.mem c && more.all isNameChar then some (name, rest) else none
  | _, _ => none

/-- Flags up to a colon or a closing parenthesis, each once; after a hyphen they are cleared.  At
least one flag was read, or none. -/
def flagList? (flags : Flags) (on : Bool) (seen : List Char) :
    List Char → Option (Flags × Bool × List Char)
  | [] => none
  | c :: rest =>
    if c == ':' || c == ')' then
      if seen.head? == some '-' then none else some (flags, !seen.isEmpty, c :: rest)
    else if seen.contains c then none
    else if c == '-' then flagList? flags false (c :: seen) rest
    else match flags.switch? on c with
      | some flags => flagList? flags on (c :: seen) rest
      | none => none

/-- Open a group under a name that no other group has. -/
def openNamed? (r : Reading) (cs : List Char) : Option (Reading × List Char) :=
  match groupName? cs with
  | some (name, rest) =>
    if r.names.contains name then none
    else some ({ r with names := name :: r.names }.openGroup r.flags, rest)
  | none => none

/-- What follows an opening parenthesis: a group with or without a name or flags of its own, or
flags for the rest of the group around it. -/
def parenthesis? (r : Reading) (cs : List Char) : Option (Reading × List Char) :=
  match cs with
  | '?' :: '=' :: _ => none
  | '?' :: '!' :: _ => none
  | '?' :: '<' :: '=' :: _ => none
  | '?' :: '<' :: '!' :: _ => none
  | '?' :: 'P' :: '<' :: cs => r.openNamed? cs
  | '?' :: '<' :: cs => r.openNamed? cs
  | '?' :: cs =>
    match flagList? r.flags true [] cs with
    | some (flags, _, ':' :: rest) => some (r.openGroup flags, rest)
    | some (flags, true, ')' :: rest) =>
      some ({ r with flags, group := { r.group with repeatable := false } }, rest)
    | _ => none
  | cs => some (r.openGroup r.flags, cs)

/-! ## §4. Patterns -/

/-- Read the next item, of which `c` is the first character. -/
def item? (r : Reading) (c : Char) (cs : List Char) : Option (Reading × List Char) :=
  match c with
  | '(' => r.parenthesis? cs
  | ')' => r.closeGroup?.map fun r => (r, cs)
  | '|' => some ({ r with group := r.group.bar }, cs)
  | '[' => (bracketed? r.flags cs).map fun (s, rest) => (r.add (.chars s), rest)
  | '?' => r.repeat? 0 (some 1) cs
  | '*' => r.repeat? 0 none cs
  | '+' => r.repeat? 1 none cs
  | '\x7b' => (bounds? cs).bind fun ((least, most), rest) => r.repeat? least most rest
  | '\\' => (escape? cs).map fun (a, rest) => (r.addAtom a, rest)
  | '.' => some (r.add (.chars (if r.flags.dotAll then .anything else .notNewline)), cs)
  | '^' => some (r.add (.anchor (if r.flags.multiLine then .lineStart else .textStart)), cs)
  | '$' => some (r.add (.anchor (if r.flags.multiLine then .lineEnd else .textEnd)), cs)
  | c => some (r.addAtom (.literal c), cs)

/-- Read all items.  Every one takes a character, so the length bounds their number. -/
def items? : Nat → Reading → List Char → Option Reading
  | _, r, [] => some r
  | 0, _, _ => none
  | fuel + 1, r, c :: cs =>
    match r.item? c cs with
    | some (r, rest) => items? fuel r rest
    | none => none

/-- The pattern, if all groups are closed. -/
def pattern? (r : Reading) : Option Pattern := if r.outer.isEmpty then some r.group.close else none

end Reading

/-- The instructions that the pattern takes, which repetitions multiply. -/
def weight : Pattern → Nat
  | empty => 0
  | chars _ => 1
  | anchor _ => 1
  | seq p q => p.weight + q.weight
  | alt p q => p.weight + q.weight + 2
  | rounds least most _ p => (p.weight + 1) * max least ((most.getD least) + 1)

/-- The weight above which a pattern is refused. -/
def maxWeight : Nat := 200000

/-- The pattern that a text writes. -/
def ofText? (s : String) : Option Pattern := do
  let cs := s.toList
  let p ← (← Reading.items? cs.length {} cs).pattern?
  if p.weight ≤ maxWeight then some p else none

end CronSupervisor.Pattern
