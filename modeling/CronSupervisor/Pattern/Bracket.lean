/-
  CronSupervisor.Pattern.Bracket — bracketed classes of characters.

  A class lists characters, ranges, escapes and further classes, and `&&`, `--` and `~~` combine
  what stands on both sides of them, from left to right.  A closing bracket that comes first and a
  hyphen on either end stand for themselves.  Case is ignored before a class is complemented.
-/
import CronSupervisor.Pattern.Escape

namespace CronSupervisor.Pattern

/-! ## §1. Classes under construction -/

/-- How two sides of a class are combined. -/
inductive ClassOperator where
  | inter
  | difference
  | symmetricDifference

/-- The combined set. -/
def ClassOperator.apply (op : ClassOperator) (a b : CharSet) : CharSet :=
  match op with
  | inter => .inter a b
  | difference => .difference a b
  | symmetricDifference => .union (.difference a b) (.difference b a)

/-- A class that has been opened. -/
structure OpenClass where
  negated : Bool
  /-- The items since the opening or the last operator. -/
  items : CharSet := .nothing
  /-- The operator and what stands on its left. -/
  pending : Option (ClassOperator × CharSet) := none

namespace OpenClass

/-- Add an item. -/
def add (c : OpenClass) (s : CharSet) : OpenClass :=
  { c with items := match c.items with
      | .nothing => s
      | items => .union items s }

/-- All that was read, with the pending operator applied. -/
def content (c : OpenClass) (flags : Flags) : CharSet :=
  match c.pending with
  | none => c.items
  | some (op, lhs) => op.apply (flags.fold lhs) (flags.fold c.items)

/-- Let an operator take what was read as its left side. -/
def operate (c : OpenClass) (flags : Flags) (op : ClassOperator) : OpenClass :=
  { c with items := .nothing, pending := some (op, c.content flags) }

/-- The set of a class that is closed. -/
def close (c : OpenClass) (flags : Flags) : CharSet :=
  let s := flags.fold (c.content flags)
  if c.negated then .complement s else s

end OpenClass

/-! ## §2. Items -/

/-- The named classes of ASCII characters. -/
def asciiClasses : List (String × CharSet) :=
  [("alnum", .ofRanges [('0', '9'), ('A', 'Z'), ('a', 'z')]),
   ("alpha", .ofRanges [('A', 'Z'), ('a', 'z')]),
   ("ascii", .range '\x00' '\x7f'),
   ("blank", .ofRanges [('\t', '\t'), (' ', ' ')]),
   ("cntrl", .ofRanges [('\x00', '\x1f'), ('\x7f', '\x7f')]),
   ("digit", .range '0' '9'),
   ("graph", .range '!' '~'),
   ("lower", .range 'a' 'z'),
   ("print", .range ' ' '~'),
   ("punct", .ofRanges [('!', '/'), (':', '@'), ('[', '\x60'), ('\x7b', '~')]),
   ("space", .ofRanges [('\t', '\r'), (' ', ' ')]),
   ("upper", .range 'A' 'Z'),
   ("word", .ofRanges [('0', '9'), ('A', 'Z'), ('_', '_'), ('a', 'z')]),
   ("xdigit", .ofRanges [('0', '9'), ('A', 'F'), ('a', 'f')])]

/-- A named class between `[:` and `:]`, read after its first bracket. -/
def namedClass? (flags : Flags) : List Char → Option (CharSet × List Char)
  | ':' :: cs =>
    let (negated, cs) := match cs with
      | '^' :: cs => (true, cs)
      | cs => (false, cs)
    let name := cs.takeWhile (· != ':')
    match cs.drop name.length, asciiClasses.lookup (String.ofList name) with
    | ':' :: ']' :: rest, some s =>
      let s := flags.fold s
      some (if negated then .complement s else s, rest)
    | _, _ => none
  | _ => none

/-- A character, or an escape. -/
def classAtom? : List Char → Option (Atom × List Char)
  | '\\' :: rest => escape? rest
  | c :: rest => some (.literal c, rest)
  | [] => none

/-- The set of a character or an escape; anchors have none. -/
def Atom.classSet? : Atom → Option CharSet
  | literal c => some (.single c)
  | set s => some s
  | anchor _ => none

/-- A hyphen that makes a range of the characters around it, and what follows it. -/
def rangeEnd? : List Char → Option (List Char)
  | '-' :: ']' :: _ => none
  | '-' :: '-' :: _ => none
  | '-' :: rest => some rest
  | _ => none

/-- An item of a class: a character, an escape, or a range of two characters in order. -/
def classItem? (cs : List Char) : Option (CharSet × List Char) := do
  let (first, rest) ← classAtom? cs
  match rangeEnd? rest with
  | none => return (← first.classSet?, rest)
  | some rest =>
    let (last, rest) ← classAtom? rest
    match first, last with
    | .literal a, .literal b => if a ≤ b then some (.range a b, rest) else none
    | _, _ => none

/-! ## §3. Classes -/

/-- The hyphens at the start of a class, which stand for themselves. -/
def leadingHyphens (c : OpenClass) : List Char → OpenClass × List Char
  | '-' :: cs => leadingHyphens (c.add (.single '-')) cs
  | cs => (c, cs)

/-- The start of a class, read after its bracket. -/
def openClass (cs : List Char) : OpenClass × List Char :=
  let (negated, cs) := match cs with
    | '^' :: cs => (true, cs)
    | cs => (false, cs)
  match leadingHyphens { negated } cs, cs with
  | (c, ']' :: rest), ']' :: _ => (c.add (.single ']'), rest)
  | read, _ => read

/-- The rest of a class and of the classes around it.  Every step takes a character. -/
def classRest? (flags : Flags) :
    Nat → OpenClass → List OpenClass → List Char → Option (CharSet × List Char)
  | 0, _, _, _ => none
  | fuel + 1, c, outer, cs =>
    match cs with
    | ']' :: rest =>
      match outer with
      | [] => some (c.close flags, rest)
      | o :: os => classRest? flags fuel (o.add (c.close flags)) os rest
    | '[' :: rest =>
      match namedClass? flags rest with
      | some (s, rest) => classRest? flags fuel (c.add s) outer rest
      | none =>
        let (inner, rest) := openClass rest
        classRest? flags fuel inner (c :: outer) rest
    | '&' :: '&' :: rest => classRest? flags fuel (c.operate flags .inter) outer rest
    | '-' :: '-' :: rest => classRest? flags fuel (c.operate flags .difference) outer rest
    | '~' :: '~' :: rest => classRest? flags fuel (c.operate flags .symmetricDifference) outer rest
    | cs =>
      match classItem? cs with
      | some (s, rest) => classRest? flags fuel (c.add s) outer rest
      | none => none

/-- A class, read after its opening bracket. -/
def bracketed? (flags : Flags) (cs : List Char) : Option (CharSet × List Char) :=
  let (c, rest) := openClass cs
  classRest? flags (rest.length + 1) c [] rest

end CronSupervisor.Pattern
