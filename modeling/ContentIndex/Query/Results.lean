import ContentIndex.Document.Basic
import ContentIndex.Query.Scalar

/-
  Search results, read from the engine's answer. A hit is identified by its own id or else by the
  one in its document, and is passed over if it has neither; its document is absent if it does
  not read as one.
-/

namespace ContentIndex.Query

open Json (Value Tree)
open Number (Double uint64?)

structure SearchHit where
  id : UInt64
  score : Option Double
  document : Option Document
deriving DecidableEq

structure SearchResults where
  total : UInt64 := 0
  hits : List SearchHit := []
  aggregations : Option Value := none
deriving DecidableEq

/-- An id is a number, or a text that writes one. -/
def readId? : Value → Option UInt64
  | .string s => uint64? s
  | v => v.uint64?

def SearchHit.read? (hit : Value) : Option SearchHit :=
  let source := hit.get? "_source"
  let named := ((source.bind (·.get? "post_id")).bind Value.uint64?)
  (((hit.get? "_id").bind readId?).or named).map fun id => {
    id
    score := (hit.get? "_score").bind Value.double?
    document := source.bind fun s => (Document.read (Tree.ofValue s)).toOption }

/-- The total is a number, or an object with a number; it is zero if there is none. -/
def readTotal : Value → UInt64
  | .number n => n.uint64?.getD 0
  | .object ms => ((Entries.find? "value" ms).bind Value.uint64?).getD 0
  | _ => 0

namespace SearchResults

def read (body : Value) : SearchResults :=
  let inHits (name : String) := (body.get? "hits").bind (·.get? name)
  { total := ((inHits "total").map readTotal).getD 0
    hits := (((inHits "hits").bind Value.items?).getD []).filterMap SearchHit.read?
    aggregations := body.get? "aggregations" }

def ids (r : SearchResults) : List UInt64 := r.hits.map (·.id)

end SearchResults
end ContentIndex.Query
