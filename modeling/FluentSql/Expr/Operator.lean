/-!
# Operators

The operators, sort directions and aggregate functions of expressions, each with its SQL spelling
and with the method or function that stands for it in a builder script.
-/

namespace FluentSql

/-- An operator between two operands. -/
inductive BinaryOp
  | eq | neq | gt | lt | gte | lte | and | or | plus | isDistinctFrom | isNotDistinctFrom
deriving DecidableEq

namespace BinaryOp

/-- All operators. -/
def all : List BinaryOp :=
  [eq, neq, gt, lt, gte, lte, and, or, plus, isDistinctFrom, isNotDistinctFrom]

/-- The operator in SQL. -/
def sql : BinaryOp → String
  | eq => "="
  | neq => "<>"
  | gt => ">"
  | lt => "<"
  | gte => ">="
  | lte => "<="
  | and => "AND"
  | or => "OR"
  | plus => "+"
  | isDistinctFrom => "IS DISTINCT FROM"
  | isNotDistinctFrom => "IS NOT DISTINCT FROM"

/-- The method that applies the operator. -/
def method : BinaryOp → String
  | eq => "eq"
  | neq => "neq"
  | gt => "gt"
  | lt => "lt"
  | gte => "gte"
  | lte => "lte"
  | and => "and"
  | or => "or"
  | plus => "plus"
  | isDistinctFrom => "is_distinct_from"
  | isNotDistinctFrom => "is_not_distinct_from"

/-- The operator that a method applies. -/
def ofMethod? (name : String) : Option BinaryOp :=
  all.find? (·.method == name)

/-- The operator is found by its method. -/
theorem ofMethod?_method (op : BinaryOp) : ofMethod? op.method = some op := by
  cases op <;> rfl

end BinaryOp

/-- A test of one operand, written after it. -/
inductive NullTest
  | isNull | isNotNull
deriving DecidableEq

namespace NullTest

/-- All tests. -/
def all : List NullTest :=
  [isNull, isNotNull]

/-- The test in SQL. -/
def sql : NullTest → String
  | isNull => "IS NULL"
  | isNotNull => "IS NOT NULL"

/-- The method that applies the test. -/
def method : NullTest → String
  | isNull => "is_null"
  | isNotNull => "is_not_null"

/-- The test that a method applies. -/
def ofMethod? (name : String) : Option NullTest :=
  all.find? (·.method == name)

/-- The test is found by its method. -/
theorem ofMethod?_method (test : NullTest) : ofMethod? test.method = some test := by
  cases test <;> rfl

end NullTest

/-- A test of an operand against a lower and an upper bound. -/
inductive RangeTest
  | between | notBetween
deriving DecidableEq

namespace RangeTest

/-- All tests. -/
def all : List RangeTest :=
  [between, notBetween]

/-- The test in SQL. -/
def sql : RangeTest → String
  | between => "BETWEEN"
  | notBetween => "NOT BETWEEN"

/-- The method that applies the test. -/
def method : RangeTest → String
  | between => "between"
  | notBetween => "not_between"

/-- The test that a method applies. -/
def ofMethod? (name : String) : Option RangeTest :=
  all.find? (·.method == name)

/-- The test is found by its method. -/
theorem ofMethod?_method (test : RangeTest) : ofMethod? test.method = some test := by
  cases test <;> rfl

end RangeTest

/-- The direction of a sort key. -/
inductive SortDirection
  | asc | desc
deriving DecidableEq

namespace SortDirection

/-- The direction in SQL. -/
def sql : SortDirection → String
  | asc => "ASC"
  | desc => "DESC"

/-- The method that gives a key the direction. -/
def method : SortDirection → String
  | asc => "asc"
  | desc => "desc"

end SortDirection

/-- A function of all values of a column. -/
inductive Aggregate
  | sum | avg | min | max | count
deriving DecidableEq

namespace Aggregate

/-- All aggregate functions. -/
def all : List Aggregate :=
  [sum, avg, min, max, count]

/-- The function in SQL. -/
def sql : Aggregate → String
  | sum => "SUM"
  | avg => "AVG"
  | min => "MIN"
  | max => "MAX"
  | count => "COUNT"

/-- The name of the function in a script. -/
def function : Aggregate → String
  | sum => "sum"
  | avg => "avg"
  | min => "min"
  | max => "max"
  | count => "count"

/-- The aggregate function of a name. -/
def ofFunction? (name : String) : Option Aggregate :=
  all.find? (·.function == name)

/-- The function is found by its name. -/
theorem ofFunction?_function (function : Aggregate) :
    ofFunction? function.function = some function := by
  cases function <;> rfl

end Aggregate

end FluentSql
