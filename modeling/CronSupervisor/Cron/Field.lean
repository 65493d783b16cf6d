/-
  CronSupervisor.Cron.Field — the grammar of cron fields and the values that they denote.

  A field is a comma-separated list of roots: `*`, a number, a range, a name, any of these but a
  single name with a step.  Reading goes character by character and knows no words, so blanks may
  stand inside a field, and a field ends where no root follows.  Choices are ordered: the first
  alternative that matches is taken.  Reading yields the roots; `values?` then gives the numbers
  that they denote, or nothing if one of them leaves the bounds of the field.
-/
import CronSupervisor.Text.Decimal

namespace CronSupervisor.Cron

open Text

/-! ## §1. What a field may hold -/

/-- The bounds of a field, its names, and whether `?` may stand for `*`. -/
structure FieldKind where
  low : Nat
  high : Nat
  names : List (String × Nat) := []
  allowsQuestionMark : Bool := false

namespace FieldKind

def second : FieldKind := { low := 0, high := 59 }

def minute : FieldKind := { low := 0, high := 59 }

def hour : FieldKind := { low := 0, high := 23 }

def dayOfMonth : FieldKind := { low := 1, high := 31, allowsQuestionMark := true }

def month : FieldKind where
  low := 1
  high := 12
  names :=
    [("jan", 1), ("january", 1), ("feb", 2), ("february", 2), ("mar", 3), ("march", 3),
     ("apr", 4), ("april", 4), ("may", 5), ("jun", 6), ("june", 6), ("jul", 7), ("july", 7),
     ("aug", 8), ("august", 8), ("sep", 9), ("september", 9), ("oct", 10), ("october", 10),
     ("nov", 11), ("november", 11), ("dec", 12), ("december", 12)]

/-- Weekdays from 1 for Sunday. -/
def dayOfWeek : FieldKind where
  low := 1
  high := 7
  names :=
    [("sun", 1), ("sunday", 1), ("mon", 2), ("monday", 2), ("tue", 3), ("tues", 3),
     ("tuesday", 3), ("wed", 4), ("wednesday", 4), ("thu", 5), ("thurs", 5), ("thursday", 5),
     ("fri", 6), ("friday", 6), ("sat", 7), ("saturday", 7)]
  allowsQuestionMark := true

def year : FieldKind := { low := 1970, high := 2100 }

/-- The numbers from the lower to the upper bound. -/
def all (k : FieldKind) : List Nat := List.range' k.low (k.high + 1 - k.low)

/-- The number that a name stands for, in any letter case. -/
def named? (k : FieldKind) (name : List Char) : Option Nat :=
  k.names.lookup (String.ofList (name.map Char.toLower))

end FieldKind

/-! ## §2. Roots -/

/-- What is repeated in a field, without a step. -/
inductive Specifier where
  | all
  | point (n : Nat)
  | range (first last : Nat)
  | namedRange (first last : List Char)
  deriving DecidableEq

/-- An item of a field. -/
inductive Root where
  | plain (s : Specifier)
  /-- Every `step`-th value of the specifier. -/
  | stepped (s : Specifier) (step : Nat)
  | name (n : List Char)
  deriving DecidableEq

/-! ## §3. Reading -/

/-- A blank inside a field: space, tab, carriage return or line feed. -/
def isFieldBlank (c : Char) : Bool := c == ' ' || c == '\t' || c == '\r' || c == '\n'

/-- An ASCII letter. -/
def isLetter (c : Char) : Bool := ('a' ≤ c && c ≤ 'z') || ('A' ≤ c && c ≤ 'Z')

/-- Skip blanks. -/
def skipBlanks (cs : List Char) : List Char := cs.dropWhile isFieldBlank

/-- The greatest number that can be written. -/
def maxOrdinal : Nat := 4294967295

/-- One or more characters of a class, with blanks around them. -/
def spaced? (p : Char → Bool) (cs : List Char) : Option (List Char × List Char) :=
  let cs := skipBlanks cs
  let token := cs.takeWhile p
  if token.isEmpty then none else some (token, skipBlanks (cs.dropWhile p))

/-- A number, with blanks around it. -/
def ordinal? (cs : List Char) : Option (Nat × List Char) :=
  match spaced? isDigit cs with
  | some (digits, rest) =>
    if digitsValue digits ≤ maxOrdinal then some (digitsValue digits, rest) else none
  | none => none

/-- A name, with blanks around it. -/
def name? (cs : List Char) : Option (List Char × List Char) := spaced? isLetter cs

/-- A number, or a range of two. -/
def pointOrRange? (cs : List Char) : Option (Specifier × List Char) :=
  match ordinal? cs with
  | some (a, '-' :: rest) =>
    match ordinal? rest with
    | some (b, rest) => some (.range a b, rest)
    | none => some (.point a, '-' :: rest)
  | some (a, rest) => some (.point a, rest)
  | none => none

/-- A range of two names. -/
def namedRange? (cs : List Char) : Option (Specifier × List Char) :=
  match name? cs with
  | some (a, '-' :: rest) => (name? rest).map fun (b, rest) => (.namedRange a b, rest)
  | _ => none

/-- A specifier; `*` and `?` have no blanks of their own. -/
def specifier? (k : FieldKind) (cs : List Char) : Option (Specifier × List Char) :=
  match cs with
  | '*' :: rest => some (.all, rest)
  | '?' :: rest => if k.allowsQuestionMark then some (.all, rest) else none
  | _ => (pointOrRange? cs).or (namedRange? cs)

/-- A root: a specifier with a step, a specifier, or a name. -/
def root? (k : FieldKind) (cs : List Char) : Option (Root × List Char) :=
  match specifier? k cs with
  | some (s, '/' :: rest) =>
    match ordinal? rest with
    | some (n, rest) => some (.stepped s n, rest)
    | none => some (.plain s, '/' :: rest)
  | some (s, rest) => some (.plain s, rest)
  | none => (name? cs).map fun (n, rest) => (.name n, rest)

/-- Further roots, each after a comma; stops before a comma that no root follows. -/
def moreRoots (k : FieldKind) : Nat → List Char → List Root × List Char
  | fuel + 1, ',' :: rest =>
    match root? k rest with
    | some (r, rest) =>
      let (rs, rest) := moreRoots k fuel rest
      (r :: rs, rest)
    | none => ([], ',' :: rest)
  | _, cs => ([], cs)

/-- The roots of a field.  Every root takes a character, so the length bounds their number. -/
def roots? (k : FieldKind) (cs : List Char) : Option (List Root × List Char) :=
  match root? k (skipBlanks cs) with
  | some (r, rest) =>
    let (rs, rest) := moreRoots k rest.length rest
    some (r :: rs, skipBlanks rest)
  | none => none

/-! ## §4. Values -/

/-- The first of the list and every `n`-th after it. -/
def everyNth (n : Nat) (xs : List Nat) : List Nat :=
  go 0 xs
where
  /-- Skip as many elements as the counter says, then keep one. -/
  go : Nat → List Nat → List Nat
    | _, [] => []
    | 0, x :: xs => x :: go (n - 1) xs
    | skip + 1, _ :: xs => go skip xs

/-- The numbers from `a` to `b`, within the bounds. -/
def rangeValues? (k : FieldKind) (a b : Nat) : Option (List Nat) :=
  if k.low ≤ a ∧ a ≤ b ∧ b ≤ k.high then some (List.range' a (b + 1 - a)) else none

/-- The numbers of a specifier. -/
def Specifier.values? (k : FieldKind) : Specifier → Option (List Nat)
  | all => some k.all
  | point n => rangeValues? k n n
  | range a b => rangeValues? k a b
  | namedRange a b =>
    match k.named? a, k.named? b with
    | some a, some b => rangeValues? k a b
    | _, _ => none

/-- The numbers of a root.  Under a step a single number stands for all from it on. -/
def Root.values? (k : FieldKind) : Root → Option (List Nat)
  | plain s => s.values? k
  | name n => (k.named? n).bind fun n => rangeValues? k n n
  | stepped s step =>
    if 1 ≤ step ∧ step ≤ k.high then
      let base := match s with
        | .point n => rangeValues? k n k.high
        | s => s.values? k
      base.map (everyNth step)
    else none

/-- The numbers of a list of roots, ascending and without repetition. -/
def rootsValues? (k : FieldKind) (rs : List Root) : Option (List Nat) :=
  (rs.mapM (Root.values? k)).map fun sets => k.all.filter fun v => sets.any (·.contains v)

/-- Read a field and find its numbers. -/
def field? (k : FieldKind) (cs : List Char) : Option (List Nat × List Char) :=
  match roots? k cs with
  | some (rs, rest) => (rootsValues? k rs).map fun vs => (vs, rest)
  | none => none

end CronSupervisor.Cron
