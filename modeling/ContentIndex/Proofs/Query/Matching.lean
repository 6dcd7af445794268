import ContentIndex.Query.Clause

/-
  What clauses mean. Once it is known which clauses on fields match a document, it is known of every
  clause that is built from them. A compound matches if all parts match that must or that stand in
  its filter, and none that must not. Of the parts that should, one has to match only if no part
  must and none stands in the filter. So a clause is a `Condition` on the clauses on fields.
  Negating a clause negates its condition (`condition_negate`), and joining clauses joins their
  conditions (`map_condition_combine`).
-/

namespace ContentIndex.Query

/-- What is asked of a document, given which clauses on fields match it. -/
abbrev Condition := (Clause → Bool) → Bool

/-- All of some conditions, or one of them; nothing if there are none. -/
def Relation.join : Relation → List Condition → Option Condition
  | _, [] => none
  | .and, l => some fun leaf => l.all (· leaf)
  | .or, l => some fun leaf => l.any (· leaf)

theorem Relation.join_eq_none_iff (r : Relation) (l : List Condition) :
    r.join l = none ↔ l = [] := by
  cases l with
  | nil => simp [join]
  | cons f l => cases r <;> simp [join]

/-- Conditions joined by "and" hold where each of them does. -/
theorem Relation.forall_mem_join_and (l : List Condition) (leaf : Clause → Bool) :
    (∀ f ∈ (Relation.and.join l).toList, f leaf = true) ↔ ∀ f ∈ l, f leaf = true := by
  cases l with
  | nil => rfl
  | cons f l => simp [join]

theorem Relation.exists_join_and_iff (l : List Condition) (leaf : Clause → Bool) :
    (∃ f, Relation.and.join l = some f ∧ f leaf = true) ↔ l ≠ [] ∧ ∀ f ∈ l, f leaf = true := by
  cases l with
  | nil => simp [join]
  | cons f l => simp [join]

/-- Conditions joined by "or" hold where one of them does; where there are none, nothing is
asked. -/
theorem Relation.forall_mem_join_or (l : List Condition) (leaf : Clause → Bool) :
    (∀ f ∈ (Relation.or.join l).toList, f leaf = true) ↔ l = [] ∨ ∃ f ∈ l, f leaf = true := by
  cases l with
  | nil => simp [join]
  | cons f l => simp [join]

/-- Lists without conditions are left out when lists are joined one by one. -/
theorem Relation.filterMap_join_filter (r : Relation) (ls : List (List Condition)) :
    (ls.filter (!·.isEmpty)).filterMap r.join = ls.filterMap r.join := by
  rw [List.filterMap_filter]
  refine congrArg (List.filterMap · ls) (funext fun l => ?_)
  cases l <;> rfl

namespace Clause

mutual
/-- The condition that a clause is. -/
def condition : Clause → Condition
  | .bool parts => conditionOf parts
  | .functionScore query _ _ => condition query
  | c => fun leaf => leaf c
termination_by structural c => c

def conditionOf : Compound Clause → Condition
  | ⟨must, should, mustNot, filter⟩ => fun leaf =>
    (conditions must).all (· leaf) && (conditions filter).all (· leaf)
      && !(conditions mustNot).any (· leaf)
      && (!(must.isEmpty && filter.isEmpty) || should.isEmpty
        || (conditions should).any (· leaf))
termination_by structural c => c

def conditions : List Clause → List Condition
  | [] => []
  | c :: cs => condition c :: conditions cs
termination_by structural cs => cs
end

theorem conditions_eq_map (cs : List Clause) : conditions cs = cs.map condition := by
  induction cs with
  | nil => rfl
  | cons c cs ih => rw [conditions, ih, List.map_cons]

/-- What each list of a compound asks for. -/
theorem condition_bool (p : Compound Clause) (leaf : Clause → Bool) :
    (Clause.bool p).condition leaf =
      (p.must.all (·.condition leaf) && p.filter.all (·.condition leaf)
        && !p.mustNot.any (·.condition leaf)
        && (!(p.must.isEmpty && p.filter.isEmpty) || p.should.isEmpty
          || p.should.any (·.condition leaf))) := by
  obtain ⟨must, should, mustNot, filter⟩ := p
  rw [condition, conditionOf]
  simp only [conditions_eq_map, List.all_map, List.any_map]
  rfl

/-- A clause that is negated matches where the clause does not. -/
theorem condition_negate (c : Clause) (leaf : Clause → Bool) :
    c.negate.condition leaf = !c.condition leaf := by
  unfold negate
  simp [condition_bool]

/-- Clauses that are joined are their conditions joined. -/
theorem map_condition_combine (r : Relation) (cs : List Clause) :
    (combine r cs).map condition = r.join (cs.map condition) := by
  cases cs with
  | nil => rfl
  | cons c cs =>
    cases r <;>
    · refine congrArg some (funext fun leaf => ?_)
      simp [condition_bool, Compound.withAll, List.all_map, List.any_map, Function.comp_def]

theorem map_condition_toList_combine (r : Relation) (cs : List Clause) :
    (combine r cs).toList.map condition = (r.join (cs.map condition)).toList := by
  rw [← map_condition_combine, Option.toList_map]

theorem map_condition_filterMap_combine (r : Relation) (ls : List (List Clause)) :
    (ls.filterMap (combine r)).map condition = (ls.map (List.map condition)).filterMap r.join := by
  rw [List.map_filterMap, List.filterMap_map]
  exact congrArg (List.filterMap · ls) (funext (map_condition_combine r))

end Clause
end ContentIndex.Query
