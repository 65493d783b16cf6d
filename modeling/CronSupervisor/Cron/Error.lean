/-
  CronSupervisor.Cron.Error — why a cron expression or its zone is refused.

  A refusal names its cause; `message?` words it.  What a field's grammar finds wrong with a text
  has no wording of its own, so such a refusal carries no message.
-/
import CronSupervisor.Text.Quoted

namespace CronSupervisor.Cron

open Text

/-- Why an expression of five words is refused. -/
inductive Reason where
  /-- A weekday numeral above seven. -/
  | weekdayOutOfRange (token : String)
  /-- A stepped range of weekdays that ends in the second Sunday. -/
  | unsupportedWeekdayRange (item : String)
  /-- Some field does not follow the grammar or leaves its bounds. -/
  | malformedField
  deriving DecidableEq

/-- Why a schedule is refused. -/
inductive CronError where
  /-- The expression, as given, does not have five words. -/
  | fieldCount (expr : String) (found : Nat)
  | invalidExpression (expr : String) (reason : Reason)
  /-- No zone has this name. -/
  | invalidTimezone (name : String)
  deriving DecidableEq

/-- The wording of a reason, where it has one. -/
def Reason.message? : Reason → Option String
  | weekdayOutOfRange token => some s!"weekday {quote token} out of range 0-7"
  | unsupportedWeekdayRange item => some s!"unsupported weekday range {quote item}"
  | malformedField => none

/-- The wording of a refusal, where it has one. -/
def CronError.message? : CronError → Option String
  | fieldCount expr found =>
    some s!"cron expression {quote expr} has {found} fields, expected 5"
  | invalidExpression expr reason =>
    reason.message?.map fun why => s!"invalid cron expression {quote expr}: {why}"
  | invalidTimezone name => some s!"invalid timezone {quote name}"

end CronSupervisor.Cron
