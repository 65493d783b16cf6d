/-
  CronSupervisor.Toml.Tree — tables while they are written.

  A table comes to be by a header of its own, on the way to a table further down, or by a key with
  points in it.  How it came to be decides how it may be extended: by header only once, by a key
  with points only if such a key made it.  A key is given a value only once.
-/
import CronSupervisor.Value

namespace CronSupervisor.Toml

/-! ## §1. Trees -/

/-- How a table came to be. -/
inductive TableOrigin where
  /-- By a header of its own. -/
  | header
  /-- On the way to a table further down. -/
  | passage
  /-- By a key with points. -/
  | dotted
  deriving DecidableEq

/-- What a key stands for while the text is read. -/
inductive Node where
  | value (v : Value)
  | table (origin : TableOrigin) (entries : List (String × Node))
  /-- A list of tables, each by a header of its own, the last one first. -/
  | tables (elements : List (List (String × Node)))

/-- The keys of a table and what they stand for. -/
abbrev Entries := List (String × Node)

/-- Change what a key stands for, or give it a meaning. -/
def Entries.alter (key : String) (f : Option Node → Option Node) : Entries → Option Entries
  | [] => (f none).map fun n => [(key, n)]
  | (k, n) :: rest =>
    if k = key then (f (some n)).map fun n => (k, n) :: rest
    else (Entries.alter key f rest).map ((k, n) :: ·)

/-! ## §2. Extending a table -/

/-- Give a value to a key with points.  The last table on its way has to be made by such a key. -/
def Entries.assign (last : String) (v : Value) : List String → Entries → Option Entries
  | [], es =>
    Entries.alter last (fun
      | none => some (.value v)
      | some _ => none) es
  | k :: ks, es =>
    Entries.alter k (fun
      | none => (Entries.assign last v ks []).map (.table .dotted)
      | some (.table .dotted inner) => (Entries.assign last v ks inner).map (.table .dotted)
      | some (.table .passage inner) =>
        if ks.isEmpty then none else (Entries.assign last v ks inner).map (.table .passage)
      | some (.tables (inner :: others)) =>
        if ks.isEmpty then none
        else (Entries.assign last v ks inner).map fun inner => .tables (inner :: others)
      | some _ => none) es

/-- Give a value to a key of parts. -/
def Entries.assignKey (key : List String) (v : Value) (es : Entries) : Option Entries :=
  match key.getLast? with
  | some last => Entries.assign last v key.dropLast es
  | none => none

/-- Change the table at the end of a path, which is made if it is not there.  Of a list of tables
the last one is meant. -/
def Entries.within (f : Entries → Option Entries) : List String → Entries → Option Entries
  | [], es => f es
  | k :: ks, es =>
    Entries.alter k (fun
      | none => (Entries.within f ks []).map (.table .passage)
      | some (.table origin inner) => (Entries.within f ks inner).map (.table origin)
      | some (.tables (inner :: others)) =>
        (Entries.within f ks inner).map fun inner => .tables (inner :: others)
      | some _ => none) es

/-- Let a header open the table of a key. -/
def Entries.openTable (key : String) : Entries → Option Entries :=
  Entries.alter key fun
    | none => some (.table .header [])
    | some (.table .passage inner) => some (.table .header inner)
    | some _ => none

/-- Let a header open another table in the list of a key. -/
def Entries.openElement (key : String) : Entries → Option Entries :=
  Entries.alter key fun
    | none => some (.tables [[]])
    | some (.tables elements) => some (.tables ([] :: elements))
    | some _ => none

/-! ## §3. The finished value -/

mutual

/-- The value of a node. -/
def Node.toValue : Node → Value
  | .value v => v
  | .table _ es => .table (entriesValue es)
  | .tables ts => .list (elementsValue ts).reverse

/-- The fields of a table. -/
def entriesValue : List (String × Node) → List (String × Value)
  | [] => []
  | (k, n) :: es => (k, n.toValue) :: entriesValue es

/-- The tables of a list. -/
def elementsValue : List (List (String × Node)) → List Value
  | [] => []
  | t :: ts => .table (entriesValue t) :: elementsValue ts

end

end CronSupervisor.Toml
