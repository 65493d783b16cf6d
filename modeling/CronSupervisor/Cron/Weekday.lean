/-
  CronSupervisor.Cron.Weekday — from weekdays 0 to 7 to weekdays 1 to 7.

  In an expression a weekday is a number from 0 to 7, where 0 and 7 are both Sunday; the field
  grammar numbers them from 1 for Sunday to 7 for Saturday.  `renumberWeekdays` renumbers the text
  of the weekday word, item by item.  Items without a numeral in front (names, `*`) pass through.
-/
import CronSupervisor.Cron.Error
import CronSupervisor.Text.Decimal
import CronSupervisor.Text.Split

namespace CronSupervisor.Cron

open Text

/-- The weekday that a token of digits stands for; other tokens stand for none. -/
def weekdayNumber (token : List Char) : Except Reason (Option Nat) :=
  match numeral? token with
  | none => .ok none
  | some n => if n ≤ 7 then .ok (some n) else .error (.weekdayOutOfRange (String.ofList token))

/-- The range from `lo` to `hi`, where 7 is the Sunday at the end of the week.  `step` is the text
of a step with its slash, or empty. -/
def renumberRange (item step : List Char) (lo hi : Nat) : Except Reason (List Char) :=
  if hi = 7 then
    if lo = 0 then .ok ('*' :: step)
    else if lo = 7 then .ok ('1' :: step)
    else if step ≠ [] then .error (.unsupportedWeekdayRange (String.ofList item))
    else if lo = 6 then .ok ['7', ',', '1']
    else .ok [digitChar (lo + 1), '-', '7', ',', '1']
  else .ok ([digitChar (lo + 1), '-', digitChar (hi + 1)] ++ step)

/-- One item of the weekday word. -/
def renumberItem (item : List Char) : Except Reason (List Char) :=
  let (base, step) := match splitOnce '/' item with
    | some (base, step) => (base, '/' :: step)
    | none => (item, [])
  match splitOnce '-' base with
  | some (lo, hi) =>
    match weekdayNumber lo with
    | .error e => .error e
    | .ok lo =>
      match lo, weekdayNumber hi with
      | _, .error e => .error e
      | some lo, .ok (some hi) => renumberRange item step lo hi
      | _, .ok _ => .ok item
  | none =>
    match weekdayNumber base with
    | .error e => .error e
    | .ok (some n) => .ok (digitChar (n % 7 + 1) :: step)
    | .ok none => .ok item

/-- The weekday word in the numbering of the field grammar. -/
def renumberWeekdays (word : List Char) : Except Reason (List Char) :=
  ((splitOn ',' word).mapM renumberItem).map (joinWith ',')

end CronSupervisor.Cron
