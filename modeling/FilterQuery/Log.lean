import FilterQuery.Text.Decimal
import FilterQuery.Text.Escape

/-!
# The log

While a program runs it writes records to a log. A record has a level, a message and some fields.
Who reads the log says how much of it is to be shown: the records up to a level of detail, and no
others. A record that is shown takes one line.
-/

namespace FilterQuery

/-- How much in detail a record goes. -/
inductive Level where
  /-- What a user should know. -/
  | info
  /-- What was done, on the whole. -/
  | debug
  /-- What was done, step by step. -/
  | trace
  deriving DecidableEq

namespace Level

/-- The name of a level in the log. -/
def name : Level → Text
  | info => "INFO".toList
  | debug => "DEBUG".toList
  | trace => "TRACE".toList

/-- The place of a level among all levels, from the coarsest to the finest. -/
def rank : Level → Nat
  | info => 0
  | debug => 1
  | trace => 2

/-- Whether records of a level are shown where a limit is set: finer ones than it are left out. -/
def shows (limit level : Level) : Bool := level.rank ≤ limit.rank

end Level

/-- What is in a field of a record. -/
inductive FieldValue where
  /-- A text that is shown in quotes. -/
  | quoted (t : Text)
  /-- A text that is shown as it is. -/
  | plain (t : Text)
  | number (n : Nat)
  deriving DecidableEq

/-- The value of a field as it is shown. -/
def FieldValue.shown : FieldValue → Text
  | quoted t => Text.quoted t
  | plain t => t
  | number n => Text.decimal n

/-- What is written to a log at once. -/
structure Record where
  level : Level
  message : Text
  /-- Named values that go with the message. -/
  fields : List (Text × FieldValue) := []
  deriving DecidableEq

namespace Record

/-- The line that shows a record, without its end. The names of the levels are set flush right. -/
def line (r : Record) : Text :=
  r.level.name.leftpad 5 ' ' ++ [' '] ++ r.message
    ++ r.fields.flatMap fun (name, value) => [' '] ++ name ++ ['='] ++ value.shown

end Record

end FilterQuery
