import FilterQuery.Text.Basic

/-!
# Configuration

The one choice that a query leaves open is which numbers it may hold. Under the strict grammar a
number has at most one group of digits after a point. The compatible grammar takes any number of
such groups into one lexeme, as in `1.2.3`, so that older queries keep their division into tokens.
-/

namespace FilterQuery

/-- Which lexemes begin like a number. -/
inductive NumberGrammar where
  /-- At most one group of digits after a point. -/
  | strict
  /-- Any number of groups of digits after points. -/
  | compat
  deriving DecidableEq

namespace NumberGrammar

/-- The name of a grammar in data and in settings. -/
def name : NumberGrammar → Text
  | strict => "strict".toList
  | compat => "compat".toList

/-- The grammar of a given name. -/
def ofName? (t : Text) : Option NumberGrammar := [strict, compat].find? fun g => g.name = t

theorem ofName?_name (g : NumberGrammar) : ofName? g.name = some g := by cases g <;> decide

end NumberGrammar

/-- How a query is to be read. -/
structure Config where
  numeric : NumberGrammar := .strict
  deriving DecidableEq

end FilterQuery
