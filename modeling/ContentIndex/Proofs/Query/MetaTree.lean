import ContentIndex.Proofs.Query.Matching
import ContentIndex.Query.Meta

/-
  What a query on custom fields asks for, read off its tree. A predicate asks that one clause on a
  field matches, or that it does not; one that lacks what it compares with asks for nothing. A
  group asks for all or for one of the things that its items ask for, and for nothing if there are
  none. The clause of the query is that condition, as long as its groups are not nested beyond the
  limit (`filter_condition`): neither a negation nor a group that became empty changes what the
  tree says.
-/

namespace ContentIndex.Query

open Json (Value)

/-! ## Predicates -/

/-- Whether a comparator asks that something is not the case. -/
def Comparator.isNegative : Comparator → Bool
  | .notEquals | .notLike | .noneOf | .notBetween | .absent => true
  | .equals | .like | .oneOf | .between | .present
  | .greater | .greaterEq | .less | .lessEq => false

/-- What a value is compared with where only one value can be: the first of a list. There is none
in an empty list, and null is none. -/
def comparand? : Value → Option Value
  | .null | .array [] => none
  | .array (v :: _) => some v
  | v => some v

namespace MetaPredicate

/-- The clause on a field that a predicate is about, be it that it should not match. Without a value
there is none, except for the presence of the field; a range takes exactly two values. -/
def test? (p : MetaPredicate) : Option Clause :=
  let field := metaPath p.key p.compare p.type
  match p.compare, p.value with
  | .present, _ | .absent, _ => some (.present field)
  | _, none => none
  | .equals, some v | .notEquals, some v | .oneOf, some v | .noneOf, some v =>
    some (.terms field v.asItems)
  | .between, some (.array [low, high]) | .notBetween, some (.array [low, high]) =>
    some (.range field { atLeast := some low, atMost := some high })
  | .between, some _ | .notBetween, some _ => none
  | .like, some v | .notLike, some v => (comparand? v).map (.matching field · none)
  | .greater, some v => (comparand? v).map fun w => .range field { above := some w }
  | .greaterEq, some v => (comparand? v).map fun w => .range field { atLeast := some w }
  | .less, some v => (comparand? v).map fun w => .range field { below := some w }
  | .lessEq, some v => (comparand? v).map fun w => .range field { atMost := some w }

/-- What a predicate asks for; nothing if it is malformed. -/
def condition? (p : MetaPredicate) : Option Condition :=
  p.test?.map fun test leaf => leaf test != p.compare.isNegative

end MetaPredicate

/-! ## Trees -/

namespace MetaItem

mutual
/-- What an item asks for, if anything. -/
def condition? : MetaItem → Option Condition
  | .predicate p => p.condition?
  | .group relation items => relation.join (conditions items)
termination_by structural i => i

def conditions : List MetaItem → List Condition
  | [] => []
  | i :: is => (condition? i).toList ++ conditions is
termination_by structural is => is
end

mutual
/-- The predicates in an item, at any depth, from left to right. -/
def predicates : MetaItem → List MetaPredicate
  | .predicate p => [p]
  | .group _ items => predicatesOf items
termination_by structural i => i

def predicatesOf : List MetaItem → List MetaPredicate
  | [] => []
  | i :: is => predicates i ++ predicatesOf is
termination_by structural is => is
end

mutual
/-- How many groups stand inside each other, this one included. -/
def depth : MetaItem → Nat
  | .predicate _ => 0
  | .group _ items => depthOf items + 1
termination_by structural i => i

def depthOf : List MetaItem → Nat
  | [] => 0
  | i :: is => max (depth i) (depthOf is)
termination_by structural is => is
end

end MetaItem

namespace MetaQuery

/-- What a query asks for, if anything. -/
def condition? (q : MetaQuery) : Option Condition :=
  q.relation.join (MetaItem.conditions q.items)

/-- How many groups stand inside each other in a query. -/
def depth (q : MetaQuery) : Nat :=
  MetaItem.depthOf q.items

end MetaQuery

/-! ## Predicates as clauses -/

theorem firstScalar?_eq (v : Value) : firstScalar? v = comparand? v := by
  cases v with
  | array vs => cases vs <;> rfl
  | _ => rfl

namespace MetaPredicate

/-- What a predicate tests is one clause on a field. -/
theorem condition_of_test? {p : MetaPredicate} {test : Clause} (h : p.test? = some test) :
    test.condition = fun leaf => leaf test := by
  simp only [test?] at h
  split at h <;> simp only [Option.some.injEq, Option.map_eq_some_iff, reduceCtorEq] at h
  -- what is left is a clause that is given, or one that is made of a value
  all_goals first
    | (subst h; rfl)
    | (obtain ⟨_, _, rfl⟩ := h; rfl)

/-- A predicate is its test, negated if the comparator is. -/
theorem clause?_eq_test? (p : MetaPredicate) :
    p.clause? = p.test?.map fun test => if p.compare.isNegative then test.negate else test := by
  obtain ⟨key, value, compare, type⟩ := p
  cases value with
  | none => cases compare <;> rfl
  | some v =>
    cases compare
    case between | notBetween =>
      unfold clause? test?
      rcases v with _ | _ | _ | _ | (_ | ⟨low, _ | ⟨high, _ | _⟩⟩) | _ <;> rfl
    all_goals
      simp [clause?, test?, Comparator.isNegative, firstScalar?_eq, Option.map_map,
        Function.comp_def]

theorem map_condition_clause? (p : MetaPredicate) :
    p.clause?.map Clause.condition = p.condition? := by
  rw [clause?_eq_test?, condition?, Option.map_map]
  refine Option.map_congr fun test h => funext fun leaf => ?_
  cases p.compare.isNegative <;>
    simp [Clause.condition_negate, condition_of_test? h]

end MetaPredicate

/-! ## Trees as clauses -/

namespace MetaItem

mutual
/-- The clause of an item is what it asks for. -/
theorem clause?_condition (limit : Nat) : (depth : Nat) → (i : MetaItem) →
    depth + i.depth ≤ limit →
    ∃ c, i.clause? limit depth = .ok c ∧ c.map Clause.condition = i.condition?
  | _, .predicate p, _ => ⟨p.clause?, by rw [clause?], by
      rw [condition?, p.map_condition_clause?]⟩
  | d, .group relation items, h => by
    rw [depth] at h
    obtain ⟨cs, hcs, hmap⟩ := clauses_conditions limit (d + 1) items (by omega)
    refine ⟨Clause.combine relation cs, ?_, ?_⟩
    · rw [clause?, if_neg (by omega), hcs]
      rfl
    · rw [Clause.map_condition_combine, hmap, condition?]

theorem clauses_conditions (limit : Nat) : (depth : Nat) → (is : List MetaItem) →
    depth + depthOf is ≤ limit →
    ∃ cs, clauses limit depth is = .ok cs ∧ cs.map Clause.condition = conditions is
  | _, [], _ => ⟨[], by rw [clauses], by rw [conditions, List.map_nil]⟩
  | d, i :: is, h => by
    rw [depthOf] at h
    obtain ⟨c, hc, hcmap⟩ := clause?_condition limit d i (by omega)
    obtain ⟨cs, hcs, hmap⟩ := clauses_conditions limit d is (by omega)
    refine ⟨c.toList ++ cs, ?_, ?_⟩
    · rw [clauses, hc, hcs]
      rfl
    · rw [List.map_append, hmap, conditions, ← hcmap]
      cases c <;> rfl
end

mutual
/-- An item is refused if one group too many stands inside each other. -/
theorem clause?_too_deep (limit : Nat) : (depth : Nat) → (i : MetaItem) → depth ≤ limit →
    limit < depth + i.depth → i.clause? limit depth = .error ⟨limit + 1⟩
  | _, .predicate _, h, hlt => by
    rw [depth] at hlt
    omega
  | d, .group relation items, h, hlt => by
    rw [depth] at hlt
    rw [clause?]
    split
    · rw [show d = limit by omega]
    · rw [clauses_too_deep limit (d + 1) items (by omega) (by omega)]
      rfl

theorem clauses_too_deep (limit : Nat) : (depth : Nat) → (is : List MetaItem) → depth ≤ limit →
    limit < depth + depthOf is → clauses limit depth is = .error ⟨limit + 1⟩
  | _, [], h, hlt => by
    rw [depthOf] at hlt
    omega
  | d, i :: is, h, hlt => by
    rw [depthOf] at hlt
    rw [clauses]
    by_cases hi : limit < d + i.depth
    · rw [clause?_too_deep limit d i h hi]
      rfl
    · obtain ⟨c, hc, -⟩ := clause?_condition limit d i (by omega)
      rw [hc, clauses_too_deep limit d is h (by omega)]
      rfl
end

end MetaItem

namespace MetaQuery

/-- The clauses of a query are what its items ask for. -/
theorem clauses_conditions {q : MetaQuery} {limit : Nat} (h : q.depth ≤ limit) :
    ∃ cs, q.clauses 0 limit = .ok cs ∧ cs.map Clause.condition = MetaItem.conditions q.items := by
  obtain ⟨cs, hcs, hmap⟩ := MetaItem.clauses_conditions limit 0 q.items (by rwa [Nat.zero_add])
  exact ⟨cs, by rw [clauses, if_neg (Nat.not_lt_zero _), hcs], hmap⟩

/-- A query with groups too deep is refused. -/
theorem filter?_too_deep {q : MetaQuery} {limit : Nat} (h : limit < q.depth) :
    q.filter? limit = .error ⟨limit + 1⟩ := by
  rw [filter?, clauses, if_neg (Nat.not_lt_zero _),
    MetaItem.clauses_too_deep limit 0 q.items (Nat.zero_le _) (by rwa [Nat.zero_add])]
  rfl

/-- The clause of a query whose groups are not too deep is what its tree asks for: it is there if
the tree asks for anything, and whichever clauses on fields match, it matches where the tree
says. -/
theorem filter_condition (q : MetaQuery) (limit : Nat) (h : q.depth ≤ limit) :
    ∃ c, q.filter? limit = .ok c ∧ c.map Clause.condition = q.condition? := by
  obtain ⟨cs, hcs, hmap⟩ := clauses_conditions h
  refine ⟨Clause.combine q.relation cs, ?_, ?_⟩
  · rw [filter?, hcs]
    rfl
  · rw [Clause.map_condition_combine, hmap, condition?]

/-- Of a group in which one predicate is negated and another group has nothing left, the negated
predicate is what remains. -/
theorem filter_condition_negated_part :
    let plain : MetaItem := .predicate ⟨"colour", some (.string "red"), .notLike, none⟩
    let blank : MetaItem := .group .and [.predicate ⟨"size", some .null, .greater, none⟩]
    let q : MetaQuery := ⟨.and, [.group .or [plain, blank]]⟩
    q.depth ≤ 2 ∧
      ∃ c, q.filter? 2 = .ok c ∧
        c.map (·.condition fun _ => true) = some false ∧
        c.map (·.condition fun _ => false) = some true := by
  intro plain blank q
  have h : q.depth ≤ 2 := by decide
  obtain ⟨c, hc, hcond⟩ := filter_condition q 2 h
  have at_leaf (leaf : Clause → Bool) :
      c.map (·.condition leaf) = q.condition?.map (· leaf) := by
    rw [← hcond, Option.map_map]
    rfl
  exact ⟨h, c, hc, (at_leaf _).trans rfl, (at_leaf _).trans rfl⟩

end MetaQuery
end ContentIndex.Query
