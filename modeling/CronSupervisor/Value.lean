/-
  CronSupervisor.Value — structured values, as configuration files write them.

  What a file holds is a tree of tables and lists with scalars at its ends.  Fractions and dates
  have no use in a configuration, so of them only the kind is kept.
-/
namespace CronSupervisor

/-- A structured value. -/
inductive Value where
  /-- The explicit absence of a value. -/
  | null
  | bool (b : Bool)
  | integer (n : Int)
  /-- A number with a fraction or an exponent. -/
  | fraction
  | date
  | text (s : String)
  | list (vs : List Value)
  | table (fields : List (String × Value))
  deriving Inhabited

end CronSupervisor
