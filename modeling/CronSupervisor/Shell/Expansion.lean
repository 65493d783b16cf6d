/-
  CronSupervisor.Shell.Expansion — the words that a word stands for.

  Parameters, expressions and the output of scripts are put in their places; what comes out of an
  unquoted one is split at blanks, and a word of which nothing is left disappears unless a part of
  it was quoted.
-/
import CronSupervisor.Shell.Arithmetic
import CronSupervisor.Shell.Reader
import CronSupervisor.Shell.State

namespace CronSupervisor.Shell

open Text

/-! ## §1. Items -/

/-- A piece of an expanded word. -/
inductive Item where
  /-- A character, at which the word may be split if it is a blank. -/
  | char (c : Char) (splits : Bool)
  /-- A quotation, which makes a word even if it is empty. -/
  | quotation
  /-- The end of a word. -/
  | cut

/-- A blank at which words are split. -/
def isSplitting (c : Char) : Bool := c == ' ' || c == '\t' || c == '\n'

/-- The characters of a text as items. -/
def itemsOf (s : String) (splits : Bool) : List Item := s.toList.map (.char · splits)

/-- The words of a list of items, after some characters of which a word is known to be there. -/
def fieldsFrom (here : List Char) (isThere : Bool) : List Item → List String
  | [] => if isThere then [String.ofList here.reverse] else []
  | .quotation :: items => fieldsFrom here true items
  | .cut :: items =>
    if isThere then String.ofList here.reverse :: fieldsFrom [] false items
    else fieldsFrom [] false items
  | .char c splits :: items =>
    if splits && isSplitting c then
      if isThere then String.ofList here.reverse :: fieldsFrom [] false items
      else fieldsFrom [] false items
    else fieldsFrom (c :: here) true items

/-- The text of items that is not split. -/
def joined (items : List Item) : String :=
  String.ofList (items.filterMap fun
    | .char c _ => some c
    | .quotation => none
    | .cut => some ' ')

/-! ## §2. Expansion -/

/-- Runs a script and yields what it printed. -/
abbrev Substitution := List Char → State → List UInt8 × State

/-- The text of some output: without line feeds at its end and without zeros. -/
def outputText (bytes : List UInt8) : String :=
  String.ofList (utf8Lossy ((bytes.filter (· != 0)).reverse.dropWhile (· == 10)).reverse)

/-- The value of a variable as a number. -/
def numberOf (s : State) (name : String) : Int :=
  match ((s.parameter? name).getD "").toList with
  | '-' :: cs => -((numeral? cs).getD 0 : Nat)
  | cs => ((numeral? cs).getD 0 : Nat)

/-- The items of the parts of a word, and the state afterwards.  The first number bounds how deeply
words are nested in each other. -/
def expandParts (run : Substitution) : Nat → List Part → State → List Item × State
  | 0, _, s => ([], s)
  | depth + 1, parts, s =>
    parts.foldl (fun (items, s) part =>
      let nested := fun (quoted : Bool) (word : List Char) (s : State) =>
        match looseWord? quoted word with
        | some parts => expandParts run depth parts s
        | none => ([], s)
      let value := fun (name : String) (emptyToo : Bool) =>
        (s.parameter? name).filter fun v => !(emptyToo && v.isEmpty)
      let (more, s) := match part with
        | .text cs quoted =>
          let chars := cs.map (Item.char · false)
          (if quoted then .quotation :: chars else chars, s)
        | .parameter "@" .plain true =>
          ((s.arguments.map (.quotation :: itemsOf · false)).intersperse [.cut] |>.flatten, s)
        | .parameter name .plain quoted => (itemsOf ((s.parameter? name).getD "") (!quoted), s)
        | .parameter name .length quoted =>
          (itemsOf (toString ((s.parameter? name).getD "").length) (!quoted), s)
        | .parameter name (.orWord emptyToo word) quoted =>
          match value name emptyToo with
          | some v => (itemsOf v (!quoted), s)
          | none => nested quoted word s
        | .parameter name (.orAssign emptyToo word) quoted =>
          match value name emptyToo with
          | some v => (itemsOf v (!quoted), s)
          | none =>
            let (items, s) := nested quoted word s
            (items, s.assign name (joined items) false)
        | .parameter name (.orFail emptyToo word) quoted =>
          match value name emptyToo with
          | some v => (itemsOf v (!quoted), s)
          | none =>
            let (items, s) := nested true word s
            let unset := if emptyToo then "parameter not set or null" else "parameter not set"
            ([], (s.fail 2 s!"{name}: {if word.isEmpty then unset else joined items}").exit 2)
        | .parameter name (.insteadWord emptyToo word) quoted =>
          match value name emptyToo with
          | some _ => nested quoted word s
          | none => ([], s)
        | .arithmetic expression quoted =>
          let (items, s) := nested true expression s
          match Arithmetic.value? (numberOf s) (joined items).toList with
          | some n => (itemsOf (toString n) (!quoted), s)
          | none => ([], (s.fail 2 "arithmetic expression: expecting primary").exit 2)
        | .output script quoted =>
          let (bytes, s) := run script s
          (itemsOf (outputText bytes) (!quoted), s)
      (items ++ more, s)) ([], s)

/-- How deeply words may be nested in each other. -/
def nestingLimit : Nat := 20

/-- The text that a word stands for where it is not split. -/
def expandText (run : Substitution) (w : Word) (s : State) : String × State :=
  let (items, s) := expandParts run nestingLimit w s
  (joined items, s)

/-- The words that a list of words stands for. -/
def expandWords (run : Substitution) (ws : List Word) (s : State) : List String × State :=
  ws.foldl (fun (fields, s) w =>
    let (items, s) := expandParts run nestingLimit w s
    (fields ++ fieldsFrom [] false items, s)) ([], s)

end CronSupervisor.Shell
