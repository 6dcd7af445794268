import ContentIndex.Query.Clause

/-
  The JSON form of clauses, as the engine takes it, and reading it back. Absent parts and empty
  lists are not written. Reading takes a lone clause where a list of clauses may stand, and
  passes over members that a clause does not have; of several faults the first in reading
  order is reported.
-/

namespace ContentIndex.Query

open Json (Value Members)

/-- What is wrong with the inside of a clause. -/
inductive Fault where
  | notObject
  | notOneMember
  | valuesNotList
  | boundsNotObject
  | noField
  | noQuery
  | patternNotText
  | bodyNotObject
  | partNotList (part : String)
  | sortEntry
deriving DecidableEq, Repr

def Fault.message : Fault → String
  | .notObject => "expected an object"
  | .notOneMember => "expected exactly one key"
  | .valuesNotList => "values must be an array"
  | .boundsNotObject => "bounds must be an object"
  | .noField => "missing field"
  | .noQuery => "missing query"
  | .patternNotText => "pattern must be a string"
  | .bodyNotObject => "body must be an object"
  | .partNotList p => "'" ++ p ++ "' must be an array"
  | .sortEntry => "expected a field name or single-key object"

/-- Why a JSON value is no clause. -/
inductive WireError where
  | unknownClause (kind : String)
  | malformed (kind : String) (fault : Fault)
deriving DecidableEq, Repr

def WireError.message : WireError → String
  | .unknownClause k => "unknown clause type '" ++ k ++ "'"
  | .malformed k f => "malformed '" ++ k ++ "' clause: " ++ f.message

/-- An object with one member. -/
def single (name : String) (v : Value) : Value :=
  .object [(name, v)]

/-- A member that is left out if there is no value. -/
def member? {α : Type} (name : String) (f : α → Value) (o : Option α) : Members :=
  o.toList.map fun a => (name, f a)

def Bounds.toJson (b : Bounds) : Value :=
  .object (member? "gt" id b.above ++ member? "gte" id b.atLeast
    ++ member? "lt" id b.below ++ member? "lte" id b.atMost)

def MultiMatch.toJson (m : MultiMatch) : Value :=
  .object (member? "boost" .ofDouble m.boost
    ++ [("fields", .strings m.fields)]
    ++ member? "fuzziness" (fun n => .ofNat n.toNat) m.fuzziness
    ++ member? "operator" .string m.operator
    ++ [("query", .string m.query)]
    ++ member? "type" .string m.kind)

/-- A member that is left out if the list is empty. -/
def listMember (name : String) (l : List Value) : Members :=
  if l.isEmpty then [] else [(name, .array l)]

namespace Clause

mutual
def toJson : Clause → Value
  | .term f v => single "term" (single f v)
  | .terms f vs => single "terms" (single f (.array vs))
  | .range f b => single "range" (single f b.toJson)
  | .present f => single "exists" (single "field" f)
  | .matching f q none => single "match" (single f q)
  | .matching f q (some op) =>
    single "match" (single f (.object [("operator", .string op), ("query", q)]))
  | .multiMatch m => single "multi_match" m.toJson
  | .regexp f p => single "regexp" (single f p)
  | .all b => single "match_all" (.object (member? "boost" .ofDouble b))
  | .bool parts => single "bool" (compoundToJson parts)
  | .functionScore q random mode =>
    single "function_score" (.object (member? "boost_mode" .string mode
      ++ ("query", toJson q) :: if random then [("random_score", .object [])] else []))
termination_by structural c => c

/-- The inside of a compound clause. -/
def compoundToJson : Compound Clause → Value
  | ⟨must, should, mustNot, filter⟩ =>
    .object (listMember "filter" (listToJson filter) ++ listMember "must" (listToJson must)
      ++ listMember "must_not" (listToJson mustNot) ++ listMember "should" (listToJson should))
termination_by structural c => c

def listToJson : List Clause → List Value
  | [] => []
  | c :: cs => toJson c :: listToJson cs
termination_by structural l => l
end

/-- The only member of an object. -/
def onlyMember (kind : String) : Value → Except WireError (String × Value)
  | .object [m] => .ok m
  | .object _ => .error (.malformed kind .notOneMember)
  | _ => .error (.malformed kind .notObject)

/-- A string member of an object. -/
def text? (v : Value) (name : String) : Option String :=
  (v.get? name).bind Value.string?

/-- A bound may be any value. -/
def readBounds : Value → Except WireError Bounds
  | .object ms => .ok {
      above := Entries.find? "gt" ms
      atLeast := Entries.find? "gte" ms
      below := Entries.find? "lt" ms
      atMost := Entries.find? "lte" ms }
  | _ => .error (.malformed "range" .boundsNotObject)

/-- A match is given by its text, or by an object with the text under a name of its own. -/
def readMatch (field : String) (v : Value) : Clause :=
  match v.get? "query" with
  | some q => .matching field q (text? v "operator")
  | none => .matching field v none

def readMultiMatch (body : Value) : Except WireError Clause :=
  match text? body "query" with
  | none => .error (.malformed "multi_match" .noQuery)
  | some query => .ok (.multiMatch {
      query
      fields := (((body.get? "fields").bind Value.items?).getD []).filterMap Value.string?
      kind := text? body "type"
      operator := text? body "operator"
      boost := (body.get? "boost").bind Value.double?
      fuzziness := ((body.get? "fuzziness").bind Value.uint64?).bind fun n =>
        if n.toNat < 2 ^ 32 then some n.toUInt32 else none })

/-- Clauses that are not made of other clauses. -/
def readLeaf (kind : String) (body : Value) : Except WireError Clause :=
  match kind with
  | "term" => (onlyMember kind body).map fun (f, v) => .term f v
  | "terms" => do
    match ← onlyMember kind body with
    | (f, .array vs) => .ok (.terms f vs)
    | _ => .error (.malformed kind .valuesNotList)
  | "range" => do
    let (f, v) ← onlyMember kind body
    .ok (.range f (← readBounds v))
  | "exists" =>
    match text? body "field" with
    | some f => .ok (.present f)
    | none => .error (.malformed kind .noField)
  | "match" => (onlyMember kind body).map fun (f, v) => readMatch f v
  | "multi_match" => readMultiMatch body
  | "regexp" => do
    match ← onlyMember kind body with
    | (f, .string p) => .ok (.regexp f p)
    | _ => .error (.malformed kind .patternNotText)
  | "match_all" => .ok (.all ((body.get? "boost").bind Value.double?))
  | _ => .error (.unknownClause kind)

mutual
/-- The clause that a value writes. -/
def ofJson? : Value → Except WireError Clause
  | .object [(kind, body)] => ofBody? kind body
  | .object _ => .error (.malformed "clause" .notOneMember)
  | _ => .error (.malformed "clause" .notObject)
termination_by structural v => v

/-- The clause of a kind with what stands under it. -/
def ofBody? (kind : String) : Value → Except WireError Clause
  | .object ms =>
    if kind = "bool" then do
      let must ← part? "must" ms
      let should ← part? "should" ms
      let mustNot ← part? "must_not" ms
      let filter ← part? "filter" ms
      .ok (.bool { must, should, mustNot, filter })
    else if kind = "function_score" then do
      let query ← scored? ms
      .ok (.functionScore query (Entries.find? "random_score" ms).isSome
        ((Entries.find? "boost_mode" ms).bind Value.string?))
    else readLeaf kind (.object ms)
  | body =>
    if kind = "bool" then .error (.malformed "bool" .bodyNotObject)
    else if kind = "function_score" then .ok (.functionScore (.all none) false none)
    else readLeaf kind body
termination_by structural v => v

/-- The clauses of one part of a compound. -/
def part? (name : String) : List (String × Value) → Except WireError (List Clause)
  | [] => .ok []
  | (k, v) :: ms => if k = name then clauses? name v else part? name ms
termination_by structural ms => ms

/-- A list of clauses, or a lone one. -/
def clauses? (name : String) : Value → Except WireError (List Clause)
  | .array vs => list? vs
  | .object [(kind, body)] => (ofBody? kind body).map ([·])
  | .object _ => .error (.malformed "clause" .notOneMember)
  | _ => .error (.malformed "bool" (.partNotList name))
termination_by structural v => v

def list? : List Value → Except WireError (List Clause)
  | [] => .ok []
  | v :: vs => do
    let c ← ofJson? v
    let cs ← list? vs
    .ok (c :: cs)
termination_by structural vs => vs

/-- The clause that is given a score; every document if there is none. -/
def scored? : List (String × Value) → Except WireError Clause
  | [] => .ok (.all none)
  | (k, v) :: ms => if k = "query" then ofJson? v else scored? ms
termination_by structural ms => ms
end

end Clause
end ContentIndex.Query
