import ContentIndex.Query.Vocabulary
import ContentIndex.Query.Wire

/-
  Search bodies for the engine: a page, an order, a query for relevance, a filter on the results and
  aggregations. The JSON form leaves out what is absent, and is read back with the page that the
  engine would assume.
-/

namespace ContentIndex.Query

open Json (Value Members)

structure SortField where
  field : String
  order : SortOrder
deriving DecidableEq, Repr

structure CompiledQuery where
  start : UInt64 := 0
  size : UInt64 := 10
  sort : List SortField := []
  query : Option Clause := none
  postFilter : Option Clause := none
  aggregations : Option Value := none
deriving DecidableEq

def SortField.toJson (s : SortField) : Value :=
  single s.field (single "order" (.string s.order.text))

/-- A field alone is sorted downward; an object names one field with its order. -/
def SortField.read? : Value → Except WireError SortField
  | .string f => .ok ⟨f, .descending⟩
  | .object [(f, direction)] =>
    let named := ((direction.get? "order").bind Value.string?).or direction.string?
    .ok ⟨f, (named.map SortOrder.named).getD .descending⟩
  | _ => .error (.malformed "sort" .sortEntry)

namespace CompiledQuery

def toJson (q : CompiledQuery) : Value :=
  .object (member? "aggs" id q.aggregations
    ++ [("from", .ofUInt64 q.start)]
    ++ member? "post_filter" Clause.toJson q.postFilter
    ++ member? "query" Clause.toJson q.query
    ++ [("size", .ofUInt64 q.size)]
    ++ listMember "sort" (q.sort.map SortField.toJson))

/-- A member that is a clause. -/
def clauseMember? (name : String) (ms : Members) : Except WireError (Option Clause) :=
  match Entries.find? name ms with
  | none => .ok none
  | some v => (Clause.ofJson? v).map some

/-- The search body that a value writes. -/
def ofJson? : Value → Except WireError CompiledQuery
  | .object ms => do
    let number (name : String) (blank : UInt64) :=
      ((Entries.find? name ms).bind Value.uint64?).getD blank
    let sort ← (((Entries.find? "sort" ms).bind Value.items?).getD []).mapM SortField.read?
    let query ← clauseMember? "query" ms
    let postFilter ← clauseMember? "post_filter" ms
    .ok {
      start := number "from" 0
      size := number "size" 10
      sort
      query
      postFilter
      aggregations := Entries.find? "aggs" ms }
  | _ => .error (.malformed "body" .notObject)

end CompiledQuery
end ContentIndex.Query
