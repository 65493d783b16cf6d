/-
  CronSupervisor.Text.Quoted — names inside of messages.

  A quoted text stands between quotation marks.  The quotation mark, the backslash and four control
  characters are written with a backslash and a letter; a character that would not show (control,
  format, separator other than the space, private use, unassigned) or that would attach itself to
  the one before it is written by its number in lower-case hexadecimal.  All else stands as it is.
-/
import CronSupervisor.Text.Ranges
import CronSupervisor.Text.Table.Escaped

namespace CronSupervisor.Text

/-- The lower-case hexadecimal digits of a number. -/
def hexDigits (n : Nat) : List Char := Nat.toDigits 16 n

/-- A character by its number, as a backslash, the letter u and the number in braces. -/
def numbered (c : Char) : List Char := ['\\', 'u', '\x7b'] ++ hexDigits c.toNat ++ ['\x7d']

/-- How a character is written inside of the quotation marks. -/
def quoteChar (c : Char) : List Char :=
  if c = '\x22' then ['\\', '\x22']
  else if c = '\\' then ['\\', '\\']
  else if c = '\n' then ['\\', 'n']
  else if c = '\r' then ['\\', 'r']
  else if c = '\t' then ['\\', 't']
  else if c = '\x00' then ['\\', '0']
  else if covers escapedRanges c.toNat then numbered c
  else [c]

/-- The text between quotation marks. -/
def quote (s : String) : String :=
  String.ofList ('\x22' :: s.toList.flatMap quoteChar ++ ['\x22'])

end CronSupervisor.Text
