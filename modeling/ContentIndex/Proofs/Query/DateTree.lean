import ContentIndex.Proofs.Query.Matching
import ContentIndex.Query.Date

/-
  What a query on dates asks for, read off its tree. An entry asks for all of its clauses, and a
  nested group for its units and all that its items ask for, whatever its relation says: the
  relation counts only at the top. As long as the groups are not nested beyond the limit, the
  clauses of the query are these conditions (`DateQuery.clauses_conditions`). Beyond it the query
  is refused (`DateQuery.clauses_too_deep`).

  So groups below the top can be opened up: an item holds where all of its `DateItem.parts` do,
  whatever depth they stand at. `clauses_match_iff` says of a whole query when its clauses match,
  without a word on clauses that are joined: its units and its items decide.
-/

namespace ContentIndex.Query

open Calendar (Moment)

namespace DateItem

mutual
/-- What an item asks for, with the column that its surroundings name. -/
def conditions (now : Moment) (outer : String) : DateItem → List Condition
  | .predicate p => (p.clauses now outer).map Clause.condition
  | .group _ column units items =>
    (Relation.and.join ((unitTerms units).map Clause.condition
      ++ (conditionLists now (resolveColumn column outer) items).flatten)).toList
termination_by structural i => i

def conditionLists (now : Moment) (outer : String) : List DateItem → List (List Condition)
  | [] => []
  | i :: is => conditions now outer i :: conditionLists now outer is
termination_by structural is => is
end

mutual
/-- How many groups stand inside each other, this one included. -/
def depth : DateItem → Nat
  | .predicate _ => 0
  | .group _ _ _ items => depthOf items + 1
termination_by structural i => i

def depthOf : List DateItem → Nat
  | [] => 0
  | i :: is => max (depth i) (depthOf is)
termination_by structural is => is
end

end DateItem

namespace DateQuery

/-- What a query asks for. -/
def conditions (q : DateQuery) (now : Moment) : List Condition :=
  let items := DateItem.conditionLists now (resolveColumn q.column "post_date") q.items
  (unitTerms q.units).map Clause.condition ++
    match q.relation with
    | .and => items.flatten
    | .or => (Relation.or.join (items.filterMap Relation.and.join)).toList

/-- How many groups stand inside each other in a query. -/
def depth (q : DateQuery) : Nat :=
  DateItem.depthOf q.items

end DateQuery

/-! ## Trees as clauses -/

namespace DateItem

variable {now : Moment} {limit : Nat}

mutual
/-- The clauses of an item are what it asks for. -/
theorem clauses_conditions : (outer : String) → (depth : Nat) → (i : DateItem) →
    depth + i.depth ≤ limit →
    ∃ cs, i.clauses now limit outer depth = .ok cs ∧
      cs.map Clause.condition = i.conditions now outer
  | outer, _, .predicate p, _ => ⟨p.clauses now outer, by rw [clauses], by rw [conditions]⟩
  | outer, d, .group relation column units items, h => by
    rw [depth] at h
    obtain ⟨l, hl, hmap⟩ :=
      clauseLists_conditions (resolveColumn column outer) (d + 1) items (by omega)
    refine ⟨(Clause.combine .and (unitTerms units ++ l.flatten)).toList, ?_, ?_⟩
    · rw [clauses, if_neg (by omega), hl]
      rfl
    · rw [conditions, Clause.map_condition_toList_combine, List.map_append, List.map_flatten, hmap,
        List.flatten_filter_not_isEmpty]

/-- The clauses of items are what they ask for, less the items that ask for nothing. -/
theorem clauseLists_conditions : (outer : String) → (depth : Nat) → (is : List DateItem) →
    depth + depthOf is ≤ limit →
    ∃ l, clauseLists now limit outer depth is = .ok l ∧
      l.map (List.map Clause.condition) = (conditionLists now outer is).filter (!·.isEmpty)
  | _, _, [], _ => ⟨[], by rw [clauseLists], by rw [conditionLists, List.map_nil, List.filter_nil]⟩
  | outer, d, i :: is, h => by
    rw [depthOf] at h
    obtain ⟨cs, hcs, hcond⟩ := clauses_conditions outer d i (by omega)
    obtain ⟨l, hl, hmap⟩ := clauseLists_conditions outer d is (by omega)
    refine ⟨if cs.isEmpty then l else cs :: l, ?_, ?_⟩
    · rw [clauseLists, hcs, hl]
      rfl
    · rw [conditionLists, ← hcond, List.filter_cons, List.isEmpty_map, ← hmap]
      cases cs <;> rfl
end

mutual
/-- An item is refused if one group too many stands inside each other. -/
theorem clauses_too_deep : (outer : String) → (depth : Nat) → (i : DateItem) → depth ≤ limit →
    limit < depth + i.depth → i.clauses now limit outer depth = .error ⟨limit + 1⟩
  | _, _, .predicate _, h, hlt => by
    rw [depth] at hlt
    omega
  | outer, d, .group _ column _ items, h, hlt => by
    rw [depth] at hlt
    rw [clauses]
    split
    · rw [show d = limit by omega]
    · rw [clauseLists_too_deep (resolveColumn column outer) (d + 1) items (by omega) (by omega)]
      rfl

theorem clauseLists_too_deep : (outer : String) → (depth : Nat) → (is : List DateItem) →
    depth ≤ limit → limit < depth + depthOf is →
    clauseLists now limit outer depth is = .error ⟨limit + 1⟩
  | _, _, [], h, hlt => by
    rw [depthOf] at hlt
    omega
  | outer, d, i :: is, h, hlt => by
    rw [depthOf] at hlt
    rw [clauseLists]
    by_cases hi : limit < d + i.depth
    · rw [clauses_too_deep outer d i h hi]
      rfl
    · obtain ⟨cs, hcs, -⟩ := clauses_conditions outer d i (by omega : d + i.depth ≤ limit)
      rw [hcs, clauseLists_too_deep outer d is h (by omega)]
      rfl
end

end DateItem

namespace DateQuery

variable {q : DateQuery} {limit : Nat}

/-- The clauses of a query whose groups are not too deep are what it asks for. -/
theorem clauses_conditions (now : Moment) (h : q.depth ≤ limit) :
    ∃ cs, q.clauses now limit = .ok cs ∧ cs.map Clause.condition = q.conditions now := by
  let column := resolveColumn q.column "post_date"
  obtain ⟨l, hl, hmap⟩ :=
    @DateItem.clauseLists_conditions now limit column 0 q.items (by rwa [Nat.zero_add])
  refine ⟨_, by rw [clauses, hl]; rfl, ?_⟩
  rw [conditions, List.map_append]
  congr 1
  cases q.relation with
  | and =>
    rw [List.map_flatten, hmap, List.flatten_filter_not_isEmpty]
  | or =>
    rw [Clause.map_condition_toList_combine, Clause.map_condition_filterMap_combine, hmap,
      Relation.filterMap_join_filter]

/-- A query with groups too deep is refused. -/
theorem clauses_too_deep (now : Moment) (h : limit < q.depth) :
    q.clauses now limit = .error ⟨limit + 1⟩ := by
  rw [clauses, DateItem.clauseLists_too_deep _ 0 q.items (Nat.zero_le _) (by rwa [Nat.zero_add])]
  rfl

end DateQuery

/-! ## Groups opened up -/

/-- Each unit is the given number. -/
def unitConditions (units : List (DateUnit × Int64)) : List Condition :=
  units.map fun (u, n) leaf => leaf (.term (unitPath u) (.ofInt64 n))

theorem map_condition_unitTerms (units : List (DateUnit × Int64)) :
    (unitTerms units).map Clause.condition = unitConditions units := by
  rw [unitTerms, unitConditions, List.map_map]
  rfl

/-- The range of an entry, if it has one, and its comparisons. -/
def DatePredicate.parts (p : DatePredicate) (now : Moment) (outer : String) : List Condition :=
  ((p.range? now (resolveColumn p.column outer)).toList.map fun range leaf => leaf range)
    ++ p.units.filterMap fun (u, v) => (unitClause? u p.compare v).map Clause.condition

theorem DatePredicate.condition_of_range? {p : DatePredicate} {now : Moment} {column : String}
    {c : Clause} (h : p.range? now column = some c) : c.condition = fun leaf => leaf c := by
  unfold range? at h
  dsimp only at h
  split at h
  · cases h
  · split at h <;> (cases h; rfl)

theorem DatePredicate.map_condition_clauses (p : DatePredicate) (now : Moment) (outer : String) :
    (p.clauses now outer).map Clause.condition = p.parts now outer := by
  rw [clauses, parts, List.map_append, List.map_filterMap]
  congr 1
  refine List.map_congr_left fun c hc => ?_
  exact condition_of_range? (Option.mem_toList.mp hc)

namespace DateItem

mutual
/-- What stands in an item at any depth: the parts of its entries and the units of its groups. The
relations of the groups do not count. -/
def parts (now : Moment) (outer : String) : DateItem → List Condition
  | .predicate p => p.parts now outer
  | .group _ column units items =>
    unitConditions units ++ partsOf now (resolveColumn column outer) items
termination_by structural i => i

def partsOf (now : Moment) (outer : String) : List DateItem → List Condition
  | [] => []
  | i :: is => parts now outer i ++ partsOf now outer is
termination_by structural is => is
end

/-- All that stands in an item holds. -/
def Holds (now : Moment) (outer : String) (leaf : Clause → Bool) (i : DateItem) : Prop :=
  ∀ f ∈ i.parts now outer, f leaf = true

variable {now : Moment}

theorem conditionLists_eq_map (outer : String) (is : List DateItem) :
    conditionLists now outer is = is.map (conditions now outer) := by
  induction is with
  | nil => rfl
  | cons i is ih => rw [conditionLists, ih, List.map_cons]

mutual
/-- What an item asks for holds where all that stands in it does. -/
theorem conditions_hold_iff (leaf : Clause → Bool) : (outer : String) → (i : DateItem) →
    ((∀ f ∈ i.conditions now outer, f leaf = true) ↔ i.Holds now outer leaf)
  | outer, .predicate p => by rw [conditions, Holds, parts, p.map_condition_clauses]
  | outer, .group _ column units items => by
    rw [conditions, Holds, parts, Relation.forall_mem_join_and, map_condition_unitTerms,
      List.forall_mem_append, List.forall_mem_append,
      conditionLists_hold_iff leaf (resolveColumn column outer) items]

theorem conditionLists_hold_iff (leaf : Clause → Bool) : (outer : String) →
    (is : List DateItem) →
    ((∀ f ∈ (conditionLists now outer is).flatten, f leaf = true) ↔
      ∀ f ∈ partsOf now outer is, f leaf = true)
  | _, [] => by rw [conditionLists, partsOf, List.flatten_nil]
  | outer, i :: is => by
    rw [conditionLists, partsOf, List.flatten_cons, List.forall_mem_append,
      List.forall_mem_append, conditions_hold_iff leaf outer i,
      conditionLists_hold_iff leaf outer is]
    rfl
end

mutual
/-- An item asks for nothing exactly if nothing stands in it. -/
theorem conditions_eq_nil_iff : (outer : String) → (i : DateItem) →
    (i.conditions now outer = [] ↔ i.parts now outer = [])
  | outer, .predicate p => by rw [conditions, parts, p.map_condition_clauses]
  | outer, .group _ column units items => by
    rw [conditions, parts, Option.toList_eq_nil_iff, Relation.join_eq_none_iff,
      map_condition_unitTerms, List.append_eq_nil_iff, List.append_eq_nil_iff,
      conditionLists_eq_nil_iff (resolveColumn column outer) items]

theorem conditionLists_eq_nil_iff : (outer : String) → (is : List DateItem) →
    ((conditionLists now outer is).flatten = [] ↔ partsOf now outer is = [])
  | _, [] => by rw [conditionLists, partsOf, List.flatten_nil]
  | outer, i :: is => by
    rw [conditionLists, partsOf, List.flatten_cons, List.append_eq_nil_iff,
      List.append_eq_nil_iff, conditions_eq_nil_iff outer i,
      conditionLists_eq_nil_iff outer is]
end

end DateItem

namespace DateQuery

/-- The column of the ranges for which none is named. -/
def defaultColumn (q : DateQuery) : String :=
  resolveColumn q.column "post_date"

/-- The items in which something stands. -/
def remaining (q : DateQuery) (now : Moment) : List DateItem :=
  q.items.filter fun i => !(i.parts now q.defaultColumn).isEmpty

variable {q : DateQuery} {now : Moment}

theorem mem_remaining {i : DateItem} :
    i ∈ q.remaining now ↔ i ∈ q.items ∧ i.parts now q.defaultColumn ≠ [] := by
  simp [remaining]

/-- Items joined by "and": those that are dropped would hold anyway. -/
theorem items_all_hold_iff (leaf : Clause → Bool) :
    (∀ f ∈ (DateItem.conditionLists now q.defaultColumn q.items).flatten, f leaf = true) ↔
      ∀ i ∈ q.remaining now, i.Holds now q.defaultColumn leaf := by
  have hall : (∀ f ∈ (DateItem.conditionLists now q.defaultColumn q.items).flatten,
      f leaf = true) ↔ ∀ i ∈ q.items, i.Holds now q.defaultColumn leaf := by
    rw [DateItem.conditionLists_eq_map, List.forall_mem_flatten, List.forall_mem_map]
    exact forall₂_congr fun i _ => DateItem.conditions_hold_iff leaf q.defaultColumn i
  rw [hall]
  constructor
  · intro h i hi
    exact h i (mem_remaining.mp hi).1
  · intro h i hi f hf
    have hne : i.parts now q.defaultColumn ≠ [] := List.ne_nil_of_mem hf
    exact h i (mem_remaining.mpr ⟨hi, hne⟩) f hf

/-- Items joined by "or": one that is dropped does not count as one that holds. -/
theorem items_one_holds_iff (leaf : Clause → Bool) :
    (∀ f ∈ (Relation.or.join ((DateItem.conditionLists now q.defaultColumn q.items).filterMap
        Relation.and.join)).toList, f leaf = true) ↔
      (∃ i ∈ q.remaining now, i.Holds now q.defaultColumn leaf) ∨ q.remaining now = [] := by
  rw [Relation.forall_mem_join_or, DateItem.conditionLists_eq_map, or_comm]
  refine or_congr ?_ ?_
  · have hitem (i : DateItem) :
        (∃ f, Relation.and.join (i.conditions now q.defaultColumn) = some f ∧ f leaf = true) ↔
          i.parts now q.defaultColumn ≠ [] ∧ i.Holds now q.defaultColumn leaf := by
      rw [Relation.exists_join_and_iff, ne_eq, DateItem.conditions_eq_nil_iff,
        DateItem.conditions_hold_iff]
    simp only [List.filterMap_map, List.mem_filterMap, Function.comp_apply, mem_remaining,
      and_assoc, ← hitem]
    grind
  · simp [remaining, List.filter_eq_nil_iff, Relation.join_eq_none_iff,
      DateItem.conditions_eq_nil_iff]

theorem conditions_hold_iff (leaf : Clause → Bool) :
    (∀ f ∈ q.conditions now, f leaf = true) ↔
      (∀ f ∈ unitConditions q.units, f leaf = true) ∧
        match q.relation with
        | .and => ∀ i ∈ q.remaining now, i.Holds now q.defaultColumn leaf
        | .or => (∃ i ∈ q.remaining now, i.Holds now q.defaultColumn leaf) ∨
            q.remaining now = [] := by
  rw [conditions, List.forall_mem_append, map_condition_unitTerms]
  refine and_congr_right fun _ => ?_
  cases q.relation with
  | and => exact items_all_hold_iff leaf
  | or => exact items_one_holds_iff leaf

/-- The clauses of a query whose groups are not too deep all match exactly if each of its units
does and, as its relation says, all items in which something stands hold or one of them does. -/
theorem clauses_match_iff (q : DateQuery) (now : Moment) (limit : Nat) (h : q.depth ≤ limit) :
    ∃ cs, q.clauses now limit = .ok cs ∧ ∀ leaf : Clause → Bool,
      (∀ c ∈ cs, c.condition leaf = true) ↔
        (∀ u ∈ q.units, leaf (.term (unitPath u.1) (.ofInt64 u.2)) = true) ∧
          match q.relation with
          | .and => ∀ i ∈ q.remaining now, i.Holds now q.defaultColumn leaf
          | .or => (∃ i ∈ q.remaining now, i.Holds now q.defaultColumn leaf) ∨
              q.remaining now = [] := by
  obtain ⟨cs, hcs, hmap⟩ := clauses_conditions now h
  refine ⟨cs, hcs, fun leaf => ?_⟩
  have hcond := @conditions_hold_iff q now leaf
  rw [← hmap, unitConditions, List.forall_mem_map, List.forall_mem_map] at hcond
  exact hcond

/-- A group that says "or" still asks for all that stands in it, also inside a query that says
"or"; an entry without bounds and comparisons is no alternative. -/
theorem clauses_match_nested_or :
    let march : DateItem := .predicate { units := [(.month, .ofInt64 3)] }
    let blank : DateItem := .predicate { column := some "post_modified" }
    let q : DateQuery :=
      { relation := .or, items := [.group .or none [(.year, 2024)] [march], blank] }
    q.depth ≤ 1 ∧
      ∃ cs, q.clauses .epoch 1 = .ok cs ∧ ∀ leaf : Clause → Bool,
        (∀ c ∈ cs, c.condition leaf = true) ↔
          leaf (.term "date_terms.year" (.ofInt64 2024)) = true ∧
            leaf (.term "date_terms.month" (.ofInt64 3)) = true := by
  intro march blank q
  have h : q.depth ≤ 1 := by decide
  obtain ⟨cs, hcs, hmatch⟩ := clauses_match_iff q .epoch 1 h
  refine ⟨h, cs, hcs, fun leaf => ?_⟩
  have hremaining : q.remaining .epoch = [.group .or none [(.year, 2024)] [march]] := rfl
  have hparts :
      (DateItem.group .or none [(.year, 2024)] [march]).Holds .epoch q.defaultColumn leaf ↔
        leaf (.term "date_terms.year" (.ofInt64 2024)) = true ∧
          leaf (.term "date_terms.month" (.ofInt64 3)) = true := by
    change (∀ f ∈ [fun leaf => leaf (Clause.term "date_terms.year" (.ofInt64 2024)),
      fun leaf => leaf (Clause.term "date_terms.month" (.ofInt64 3))], f leaf = true) ↔ _
    simp
  rw [hmatch, ← hparts]
  simp [q, hremaining]

end DateQuery
end ContentIndex.Query
