import ContentIndex.Query.Meta

/-
  Predicates on the terms of taxonomies. Exclusions stand in the compound's list of clauses that
  must not hold; where one of several predicates is enough, they are negated in place.
-/

namespace ContentIndex.Query

open Json (Value)

/-- A predicate on the terms of one taxonomy. -/
structure TaxPredicate where
  taxonomy : String
  terms : List Value := []
  field : TaxField := .termId
  operator : TaxOperator := .oneOf
deriving DecidableEq

structure TaxQuery where
  relation : Relation := .and
  predicates : List TaxPredicate := []
deriving DecidableEq

/-- The predicate of an object that names a taxonomy. -/
def TaxPredicate.read? (v : Value) : Option TaxPredicate :=
  let text (name : String) := (v.get? name).bind Value.string?
  (text "taxonomy").map fun taxonomy => {
    taxonomy
    terms := match v.get? "terms" with
      | none | some .null => []
      | some v => v.asItems
    field := ((text "field").map TaxField.named).getD .termId
    operator := ((text "operator").map TaxOperator.named).getD .oneOf }

/-- The query that a value writes: a list of predicates, one predicate, or an object of them. -/
def TaxQuery.read : Value → TaxQuery
  | .array vs => ⟨.and, vs.filterMap TaxPredicate.read?⟩
  | .object ms =>
    if (Entries.find? "taxonomy" ms).isSome then ⟨.and, (TaxPredicate.read? (.object ms)).toList⟩
    else
      let entries := (ms.filter (·.1 != "relation")).map (·.2)
      ⟨readRelation ms, entries.filterMap TaxPredicate.read?⟩
  | _ => {}

/-- What a predicate asks for: a clause that must hold, or one that must not. -/
inductive Demand where
  | holds (c : Clause)
  | fails (c : Clause)

/-- The demand of a predicate; none without a taxonomy, or without terms where they are
needed. -/
def TaxPredicate.demand? (p : TaxPredicate) : Option Demand :=
  let field := "terms." ++ p.taxonomy
  let path := field ++ "." ++ p.field.path
  if p.taxonomy = "" then none
  else
    match p.operator with
    | .present => some (.holds (.present field))
    | .absent => some (.fails (.present field))
    | .oneOf => if p.terms.isEmpty then none else some (.holds (.terms path p.terms))
    | .noneOf => if p.terms.isEmpty then none else some (.fails (.terms path p.terms))
    | .allOf =>
      if p.terms.isEmpty then none
      else some (.holds (.bool { must := p.terms.map (.term path) }))

def Demand.positive? : Demand → Option Clause
  | .holds c => some c
  | .fails _ => none

def Demand.negative? : Demand → Option Clause
  | .holds _ => none
  | .fails c => some c

/-- The compound of a query, which may be empty. -/
def TaxQuery.compound (q : TaxQuery) : Compound Clause :=
  let demands := q.predicates.filterMap TaxPredicate.demand?
  let positive := demands.filterMap Demand.positive?
  let negative := demands.filterMap Demand.negative?
  match q.relation with
  | .and => { must := positive, mustNot := negative }
  | .or =>
    if demands.isEmpty then {}
    else { must := [.bool { should := positive ++ negative.map Clause.negate }] }

/-- The clause that a document has one of the terms given by slug. -/
def slugClause? (taxonomy : String) (slugs : List String) : Option Clause :=
  if slugs.isEmpty then none
  else some (.terms ("terms." ++ taxonomy ++ ".slug") (slugs.map .string))

end ContentIndex.Query
