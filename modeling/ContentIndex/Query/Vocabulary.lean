import ContentIndex.Number.Integer
import ContentIndex.Query.Clause
import ContentIndex.Text.Ascii
import ContentIndex.Text.Blank

/-
  The words of a request: relations, directions, comparators, types of custom fields, fields and
  operators of taxonomies, and calendar units. Case does not matter and blanks around a word
  neither, except for calendar units, which are names of members. A word that is not known has
  the meaning of the most common one, where there is such a meaning.
-/

namespace ContentIndex

open Text (lower upper trim sameWord)

namespace Query

/-- Any word but "or" means that all parts must hold. -/
def Relation.named (s : String) : Relation :=
  if sameWord (trim s) "or" then .or else .and

inductive SortOrder where
  | ascending
  | descending
deriving DecidableEq, Repr

namespace SortOrder

/-- Any word but "asc" means descending. -/
def named (s : String) : SortOrder :=
  if sameWord (trim s) "asc" then .ascending else .descending

def text : SortOrder → String
  | .ascending => "asc"
  | .descending => "desc"

end SortOrder

/-- How a field is compared with a value. -/
inductive Comparator where
  | equals
  | notEquals
  | greater
  | greaterEq
  | less
  | lessEq
  | like
  | notLike
  | oneOf
  | noneOf
  | between
  | notBetween
  | present
  | absent
deriving DecidableEq, Repr

namespace Comparator

/-- An unknown comparator means equality. -/
def named (s : String) : Comparator :=
  match upper (trim s) with
  | "!=" | "<>" => .notEquals
  | ">" => .greater
  | ">=" => .greaterEq
  | "<" => .less
  | "<=" => .lessEq
  | "LIKE" => .like
  | "NOT LIKE" => .notLike
  | "IN" => .oneOf
  | "NOT IN" => .noneOf
  | "BETWEEN" => .between
  | "NOT BETWEEN" => .notBetween
  | "EXISTS" => .present
  | "NOT EXISTS" => .absent
  | _ => .equals

/-- Whether the order of values matters to the comparator. -/
def isRange : Comparator → Bool
  | .greater | .greaterEq | .less | .lessEq | .between | .notBetween => true
  | .equals | .notEquals | .like | .notLike | .oneOf | .noneOf | .present | .absent => false

end Comparator

/-- What the value of a custom field is compared as. -/
inductive ValueType where
  | numeric
  | decimal
  | date
  | dateTime
  | time
  | char
  | binary
deriving DecidableEq, Repr

/-- What stands in brackets after the name of a type does not matter. -/
def ValueType.named? (s : String) : Option ValueType :=
  match String.ofList ((upper (trim s)).toList.takeWhile (· ≠ '(')) with
  | "NUMERIC" | "SIGNED" | "UNSIGNED" => some .numeric
  | "DECIMAL" => some .decimal
  | "DATE" => some .date
  | "DATETIME" => some .dateTime
  | "TIME" => some .time
  | "CHAR" => some .char
  | "BINARY" => some .binary
  | _ => none

/-- By what the terms of a taxonomy are given. -/
inductive TaxField where
  | termId
  | name
  | slug
deriving DecidableEq, Repr

namespace TaxField

def named (s : String) : TaxField :=
  match lower (trim s) with
  | "name" => .name
  | "slug" => .slug
  | _ => .termId

/-- The field of a stored term. -/
def path : TaxField → String
  | .termId => "term_id"
  | .name => "name.raw"
  | .slug => "slug"

end TaxField

inductive TaxOperator where
  | oneOf
  | noneOf
  | allOf
  | present
  | absent
deriving DecidableEq, Repr

def TaxOperator.named (s : String) : TaxOperator :=
  match upper (trim s) with
  | "NOT IN" => .noneOf
  | "AND" => .allOf
  | "EXISTS" => .present
  | "NOT EXISTS" => .absent
  | _ => .oneOf

/-- A calendar unit that documents store. -/
inductive DateUnit where
  | year
  | month
  | week
  | dayOfYear
  | day
  | dayOfWeek
  | isoDayOfWeek
  | hour
  | minute
  | second
  | yearMonth
deriving DecidableEq, Repr

namespace DateUnit

/-- The unit of a member's name; some units have a second name. -/
def named? : String → Option DateUnit
  | "year" => some .year
  | "month" | "monthnum" => some .month
  | "week" | "w" => some .week
  | "dayofyear" => some .dayOfYear
  | "day" => some .day
  | "dayofweek" => some .dayOfWeek
  | "dayofweek_iso" => some .isoDayOfWeek
  | "hour" => some .hour
  | "minute" => some .minute
  | "second" => some .second
  | "yearmonth" | "m" => some .yearMonth
  | _ => none

/-- The name under which documents store the unit. -/
def field : DateUnit → String
  | .year => "year"
  | .month => "month"
  | .week => "week"
  | .dayOfYear => "dayofyear"
  | .day => "day"
  | .dayOfWeek => "dayofweek"
  | .isoDayOfWeek => "dayofweek_iso"
  | .hour => "hour"
  | .minute => "minute"
  | .second => "second"
  | .yearMonth => "yearmonth"

theorem named?_field (u : DateUnit) : named? u.field = some u := by
  cases u <;> rfl

end DateUnit

/-- Groups of clauses are nested beyond the limit. -/
structure TooDeep where
  depth : Nat
deriving DecidableEq, Repr

def TooDeep.message (e : TooDeep) : String :=
  "query nesting too deep (depth " ++ Number.natText e.depth ++ ")"

end Query
end ContentIndex
