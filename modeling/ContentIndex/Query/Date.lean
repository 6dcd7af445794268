import ContentIndex.Calendar.Relative
import ContentIndex.Query.Meta

/-
  Predicates on dates: calendar units that are compared with numbers, and ranges between bounds on
  one of four columns. A bound that gives only a year or a month stands for the first or the last
  second of that period, whichever the range needs. The column of a range is the nearest one that
  is named correctly, from its entry up to the whole query. Groups inside a query are always
  joined so that all of their parts hold.
-/

namespace ContentIndex.Query

open Json (Value Members)
open Calendar (Date Moment)

/-- A bound of a range: a text, or a period given by its parts. -/
inductive DateBound where
  | text (s : String)
  | parts (year : Int32) (month day : Option UInt32)
deriving DecidableEq, Repr

/-- An entry with bounds or a comparator. -/
structure DatePredicate where
  column : Option String := none
  after : Option DateBound := none
  before : Option DateBound := none
  inclusive : Bool := false
  compare : Option Comparator := none
  units : List (DateUnit × Value) := []
deriving DecidableEq

/-- An entry, or a group with units of its own. -/
inductive DateItem where
  | predicate (p : DatePredicate)
  | group (relation : Relation) (column : Option String) (units : List (DateUnit × Int64))
    (items : List DateItem)

instance : Inhabited DateItem := ⟨.group .and none [] []⟩

structure DateQuery where
  relation : Relation := .and
  column : Option String := none
  units : List (DateUnit × Int64) := []
  items : List DateItem := []

/-! ## Reading -/

/-- An integer as a word of 32 bits, if it is in range. -/
def uint32? (n : Int64) : Option UInt32 :=
  if 0 ≤ n.toInt ∧ n.toInt < 2 ^ 32 then some (UInt32.ofNat n.toInt.toNat) else none

/-- A text that is not blank, or an object with a year. -/
def DateBound.read? : Value → Option DateBound
  | .string s => if Text.trim s = "" then none else some (.text s)
  | .object ms => do
    let part (name : String) := (Entries.find? name ms).bind Value.asInt64?
    let year ← part "year"
    if -2 ^ 31 ≤ year.toInt ∧ year.toInt < 2 ^ 31 then
      some (.parts year.toInt32 ((part "month").bind uint32?) ((part "day").bind uint32?))
    else none
  | _ => none

/-- Whether an object is an entry with bounds or a comparator. -/
def isDatePredicate (ms : Members) : Bool :=
  ["after", "before", "compare"].any fun name => (Entries.find? name ms).isSome

def DatePredicate.read (ms : Members) : DatePredicate where
  column := (Entries.find? "column" ms).bind Value.string?
  after := (Entries.find? "after" ms).bind DateBound.read?
  before := (Entries.find? "before" ms).bind DateBound.read?
  inclusive := ((Entries.find? "inclusive" ms).map Value.isOn).getD false
  compare := ((Entries.find? "compare" ms).bind Value.string?).map Comparator.named
  units := ms.filterMap fun (k, v) => (DateUnit.named? k).map (·, v)

/-- The members that name a unit and write a number. -/
def readUnits (ms : Members) : List (DateUnit × Int64) :=
  ms.filterMap fun (k, v) => do
    let unit ← DateUnit.named? k
    let n ← v.asInt64?
    some (unit, n)

/-- A group, if it is not empty. -/
def DateItem.group? (relation : Relation) (column : Option String)
    (units : List (DateUnit × Int64)) (items : List DateItem) : Option DateItem :=
  if units.isEmpty && items.isEmpty then none else some (.group relation column units items)

namespace DateItem

mutual
/-- An entry is a list of entries, an object with bounds, or a group with units and entries. -/
def read? : Value → Option DateItem
  | .array vs => group? .and none [] (readList vs)
  | .object ms =>
    if isDatePredicate ms then some (.predicate (.read ms))
    else
      group? (readRelation ms) ((Entries.find? "column" ms).bind Value.string?) (readUnits ms)
        (readMembers ms)
  | _ => none
termination_by structural v => v

def readList : List Value → List DateItem
  | [] => []
  | v :: vs => (read? v).toList ++ readList vs
termination_by structural vs => vs

/-- The entries among the members of an object; units are none. -/
def readMembers : List (String × Value) → List DateItem
  | [] => []
  | (k, v) :: ms =>
    if (DateUnit.named? k).isSome then readMembers ms else (read? v).toList ++ readMembers ms
termination_by structural ms => ms
end

end DateItem

namespace DateQuery

def read : Value → DateQuery
  | .array vs => { items := DateItem.readList vs }
  | .object ms =>
    if isDatePredicate ms then { items := [.predicate (.read ms)] }
    else {
      relation := readRelation ms
      column := (Entries.find? "column" ms).bind Value.string?
      units := readUnits ms
      items := DateItem.readMembers ms }
  | _ => {}

def isEmpty (q : DateQuery) : Bool := q.units.isEmpty && q.items.isEmpty

end DateQuery

/-! ## Clauses -/

/-- The columns that a range may be about. -/
def dateColumns : List String :=
  ["post_date", "post_date_gmt", "post_modified", "post_modified_gmt"]

/-- The column that is named, if it is one, and else the one further up. -/
def resolveColumn (column : Option String) (outer : String) : String :=
  match column with
  | some c => if dateColumns.contains c then c else outer
  | none => outer

def unitPath (u : DateUnit) : String := "date_terms." ++ u.field

/-- The first or the last second of the period that the parts give. -/
def periodBound? (year : Int) (month day : Option Nat) (last : Bool) : Option Moment := do
  let month := month.getD (if last then 12 else 1)
  let first ← Date.ofParts? year month 1
  let endOfMonth := (first.addMonths? 1).map fun _ => Calendar.daysInMonth year month
  let day ← match day with
    | some d => some d
    | none => if last then endOfMonth else some 1
  let date ← Date.ofParts? year month day
  some (if last then Moment.lastSecondOfDay date else Moment.startOfDay date)

/-- The moment of a bound: a date, or an expression relative to `now`. -/
def DateBound.moment? (now : Moment) (last : Bool) : DateBound → Option Moment
  | .text s => (Moment.read? s).or (Moment.relative? s now)
  | .parts y m d => periodBound? y.toInt (m.map (·.toNat)) (d.map (·.toNat)) last

def DateBound.value? (now : Moment) (last : Bool) (b : DateBound) : Option Value :=
  (b.moment? now last).map fun t => .string t.text

/-- The units that are compared for equality. -/
def unitTerms (units : List (DateUnit × Int64)) : List Clause :=
  units.map fun (u, n) => .term (unitPath u) (.ofInt64 n)

/-- The clause that compares a unit with a value. Without a comparator, a list means one of its
items. -/
def unitClause? (u : DateUnit) (compare : Option Comparator) (v : Value) : Option Clause :=
  let path := unitPath u
  match compare.getD (if v.isArray then .oneOf else .equals) with
  | .greater => (firstScalar? v).map fun w => .range path { above := some w }
  | .greaterEq => (firstScalar? v).map fun w => .range path { atLeast := some w }
  | .less => (firstScalar? v).map fun w => .range path { below := some w }
  | .lessEq => (firstScalar? v).map fun w => .range path { atMost := some w }
  | .between => between? path v
  | .notBetween => (between? path v).map Clause.negate
  | .notEquals | .noneOf => some (Clause.terms path v.asItems).negate
  | .oneOf => some (.terms path v.asItems)
  | .equals =>
    match v with
    | .array vs => some (.terms path vs)
    | .null => none
    | w => some (.term path w)
  | .like | .notLike | .present | .absent => none

/-- The range of a predicate on a column; none if no bound gives a moment. Inclusive ranges reach
from the first second of the one period to the last second of the other. -/
def DatePredicate.range? (p : DatePredicate) (now : Moment) (column : String) : Option Clause :=
  let after := p.after.bind (DateBound.value? now (!p.inclusive))
  let before := p.before.bind (DateBound.value? now p.inclusive)
  if after.isNone && before.isNone then none
  else if p.inclusive then some (.range column { atLeast := after, atMost := before })
  else some (.range column { above := after, below := before })

def DatePredicate.clauses (p : DatePredicate) (now : Moment) (outer : String) : List Clause :=
  (p.range? now (resolveColumn p.column outer)).toList
    ++ p.units.filterMap fun (u, v) => unitClause? u p.compare v

namespace DateItem

mutual
/-- The clauses of an item inside a query or group at some depth. -/
def clauses (now : Moment) (limit : Nat) (outer : String) (depth : Nat) :
    DateItem → Except TooDeep (List Clause)
  | .predicate p => .ok (p.clauses now outer)
  | .group _ column units items =>
    if limit < depth + 1 then .error ⟨depth + 1⟩
    else
      (clauseLists now limit (resolveColumn column outer) (depth + 1) items).map fun parts =>
        (Clause.combine .and (unitTerms units ++ parts.flatten)).toList
termination_by structural i => i

/-- The clauses of each item that has some. -/
def clauseLists (now : Moment) (limit : Nat) (outer : String) (depth : Nat) :
    List DateItem → Except TooDeep (List (List Clause))
  | [] => .ok []
  | i :: is => do
    let c ← clauses now limit outer depth i
    let cs ← clauseLists now limit outer depth is
    .ok (if c.isEmpty then cs else c :: cs)
termination_by structural is => is
end

end DateItem

/-- The clauses of a query, all of which must hold. -/
def DateQuery.clauses (q : DateQuery) (now : Moment) (limit : Nat) :
    Except TooDeep (List Clause) :=
  let column := resolveColumn q.column "post_date"
  (DateItem.clauseLists now limit column 0 q.items).map fun parts =>
    unitTerms q.units ++ match q.relation with
      | .and => parts.flatten
      | .or => (Clause.combine .or (parts.filterMap (Clause.combine .and))).toList

end ContentIndex.Query
