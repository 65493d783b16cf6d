/-
  CronSupervisor.Toml.Document — reading a TOML document.

  A document is a sequence of lines: blank ones, headers that say in which table the next keys go,
  and keys with their values.  Values may go over several lines where they are in brackets.
-/
import CronSupervisor.Toml.Number
import CronSupervisor.Toml.Tree

namespace CronSupervisor.Toml

open Text

/-! ## §1. Values -/

/-- Reads something from the front of a text. -/
abbrev Reader (α : Type) := List Char → Option (α × List Char)

/-- The values up to a closing bracket.  There may be a comma after the last of them. -/
def elements? (item : Reader Value) : Nat → List Char → Option (List Value × List Char)
  | 0, _ => none
  | fuel + 1, cs =>
    match skipLines false cs with
    | ']' :: rest => some ([], rest)
    | cs =>
      match item cs with
      | some (v, cs) =>
        match skipLines false cs with
        | ',' :: rest => (elements? item fuel rest).map fun (vs, rest) => (v :: vs, rest)
        | ']' :: rest => some ([v], rest)
        | _ => none
      | none => none

/-- A key, an equals sign and a value. -/
def assignment? (item : Reader Value) (cs : List Char) :
    Option ((List String × Value) × List Char) :=
  match key? cs with
  | some (key, '=' :: rest) =>
    (item (skipLineBlanks rest)).map fun (v, rest) => ((key, v), rest)
  | _ => none

/-- The assignments up to a closing brace, with one comma between each two. -/
def fields? (item : Reader Value) : Nat → Entries → List Char → Option (Entries × List Char)
  | 0, _, _ => none
  | fuel + 1, es, cs =>
    match assignment? item cs with
    | some ((key, v), cs) =>
      match es.assignKey key v, skipLineBlanks cs with
      | some es, ',' :: rest => fields? item fuel es rest
      | some es, '\x7d' :: rest => some (es, rest)
      | _, _ => none
    | none => none

/-- A table in braces, read after the opening one. -/
def inlineTable? (item : Reader Value) (cs : List Char) : Option (Value × List Char) :=
  match skipLineBlanks cs with
  | '\x7d' :: rest => some (.table [], rest)
  | cs => (fields? item cs.length [] cs).map fun (es, rest) => (.table (entriesValue es), rest)

/-- A value that needs no closing bracket. -/
def scalar? (cs : List Char) : Option (Value × List Char) :=
  match cs with
  | 't' :: 'r' :: 'u' :: 'e' :: rest => some (.bool true, rest)
  | 'f' :: 'a' :: 'l' :: 's' :: 'e' :: rest => some (.bool false, rest)
  | _ => ((string? cs).map fun (s, rest) => (Value.text s, rest)).or (number? cs)

/-- A value with brackets nested up to a depth. -/
def value? : Nat → List Char → Option (Value × List Char)
  | depth, cs =>
    match depth, cs with
    | depth + 1, '[' :: rest =>
      (elements? (value? depth) (rest.length + 1) rest).map fun (vs, rest) => (.list vs, rest)
    | depth + 1, '\x7b' :: rest => inlineTable? (value? depth) rest
    | _, cs => scalar? cs

/-! ## §2. Lines -/

/-- A line that says something. -/
inductive Statement where
  | tableHeader (key : List String)
  | elementHeader (key : List String)
  | assignment (key : List String) (v : Value)

/-- A statement up to the end of its line. -/
def statement? (cs : List Char) : Option (Statement × List Char) :=
  match cs with
  | '[' :: '[' :: rest =>
    match key? rest with
    | some (key, ']' :: ']' :: rest) => (endOfLine? rest).map (.elementHeader key, ·)
    | _ => none
  | '[' :: rest =>
    match key? rest with
    | some (key, ']' :: rest) => (endOfLine? rest).map (.tableHeader key, ·)
    | _ => none
  | cs =>
    match assignment? (value? depthLimit) cs with
    | some ((key, v), rest) => (endOfLine? rest).map (.assignment key v, ·)
    | none => none

/-- All statements.  Every one takes a character, so the length bounds their number. -/
def statements? : Nat → List Char → Option (List Statement)
  | fuel, cs =>
    match fuel, skipLines false cs with
    | _, [] => some []
    | fuel + 1, cs =>
      match statement? cs with
      | some (s, rest) => (statements? fuel rest).map (s :: ·)
      | none => none
    | 0, _ => none

/-! ## §3. Documents -/

/-- What was read, and the path of the table that the next keys belong to. -/
structure Draft where
  root : Entries := []
  path : List String := []

/-- Let a statement take effect. -/
def Draft.apply (d : Draft) : Statement → Option Draft
  | .assignment key v => (d.root.within (·.assignKey key v) d.path).map fun root => { d with root }
  | .tableHeader key =>
    match key.getLast? with
    | some last =>
      (d.root.within (·.openTable last) key.dropLast).map fun root => { root, path := key }
    | none => none
  | .elementHeader key =>
    match key.getLast? with
    | some last =>
      (d.root.within (·.openElement last) key.dropLast).map fun root => { root, path := key }
    | none => none

/-- The text without a byte order mark. -/
def dropByteOrderMark : List Char → List Char
  | '\ufeff' :: cs => cs
  | cs => cs

/-- The table that a document writes. -/
def document? (text : List Char) : Option Value := do
  let cs ← unixLines? (dropByteOrderMark text)
  let draft ← (← statements? cs.length cs).foldlM Draft.apply {}
  return .table (entriesValue draft.root)

end CronSupervisor.Toml
