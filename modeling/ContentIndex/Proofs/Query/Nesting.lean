import ContentIndex.Proofs.Query.DateTree
import ContentIndex.Proofs.Query.MetaTree
import Mathlib.Order.MinMax

/-
  How deep a query may be nested. Groups are nested inside one another if each of them stands among
  the items of the one before (`Nested`), whatever else stands there and whether or not the last
  one is empty. The depth of a query is the greatest number of groups that are nested in this way.
  A query is refused exactly if that number is beyond the limit (`refused_iff_too_deep`), and the
  depth that is reported is the first one beyond it. So neither the predicates nor the relations of
  a query decide whether it is refused, nor does the place of the groups that are nested too deep.
-/

namespace ContentIndex.Query

open Calendar (Moment)

/-! ## Groups inside groups -/

/-- Among the items there is a group, in that group another one, and so on for a number of groups.
`groups` gives the items of each group that stands in a list of items. -/
inductive Nested {α : Type} (groups : List α → List (List α)) : Nat → List α → Prop
  | none (is : List α) : Nested groups 0 is
  | inside {n : Nat} {is js : List α} (hjs : js ∈ groups is) :
      Nested groups n js → Nested groups (n + 1) is

/-- A measure of items counts nested groups if it exceeds a number exactly where some group
reaches that number. -/
theorem nested_iff_le {α : Type} {groups : List α → List (List α)} {depth : List α → Nat}
    (step : ∀ n is, n < depth is ↔ ∃ js ∈ groups is, n ≤ depth js) (n : Nat) (is : List α) :
    Nested groups n is ↔ n ≤ depth is := by
  constructor
  · intro h
    induction h with
    | none is => exact Nat.zero_le _
    | inside hjs _ ih => exact (step _ _).mpr ⟨_, hjs, ih⟩
  · induction n generalizing is with
    | zero => exact fun _ => .none is
    | succ n ih =>
      intro h
      obtain ⟨js, hjs, hle⟩ := (step n is).mp h
      exact .inside hjs (ih js hle)

/-- The items of each group. -/
def MetaItem.groupsAmong (is : List MetaItem) : List (List MetaItem) :=
  is.filterMap fun
    | .predicate _ => none
    | .group _ items => some items

theorem MetaItem.lt_depthOf_iff (n : Nat) (is : List MetaItem) :
    n < depthOf is ↔ ∃ js ∈ groupsAmong is, n ≤ depthOf js := by
  induction is with
  | nil => simp [depthOf, groupsAmong]
  | cons i is ih =>
    rw [depthOf, lt_max_iff, ih]
    cases i with
    | predicate p => simp [depth, groupsAmong]
    | group relation items =>
      rw [depth, Nat.lt_succ_iff]
      simp [groupsAmong]

/-- The items of each group. -/
def DateItem.groupsAmong (is : List DateItem) : List (List DateItem) :=
  is.filterMap fun
    | .predicate _ => none
    | .group _ _ _ items => some items

theorem DateItem.lt_depthOf_iff (n : Nat) (is : List DateItem) :
    n < depthOf is ↔ ∃ js ∈ groupsAmong is, n ≤ depthOf js := by
  induction is with
  | nil => simp [depthOf, groupsAmong]
  | cons i is ih =>
    rw [depthOf, lt_max_iff, ih]
    cases i with
    | predicate p => simp [depth, groupsAmong]
    | group relation column units items =>
      rw [depth, Nat.lt_succ_iff]
      simp [groupsAmong]

/-! ## Refusals -/

/-- The depth at which a query is refused. -/
def refusal? {α : Type} : Except TooDeep α → Option Nat
  | .ok _ => none
  | .error e => some e.depth

@[simp] theorem refusal?_map {α β : Type} (f : α → β) (r : Except TooDeep α) :
    refusal? (r.map f) = refusal? r := by
  cases r <;> rfl

namespace MetaQuery

/-- A query that stands too deep itself is refused before its items are looked at. -/
theorem refusal?_clauses (q : MetaQuery) (depth limit : Nat) :
    refusal? (q.clauses depth limit) =
      if limit < depth + q.depth then some (if limit < depth then depth else limit + 1)
      else none := by
  rw [clauses]
  by_cases hdepth : limit < depth
  · rw [if_pos hdepth, if_pos (by omega), if_pos hdepth]
    rfl
  · rw [if_neg hdepth, if_neg hdepth]
    split
    next h =>
      rw [MetaItem.clauses_too_deep limit depth q.items (by omega) h]
      rfl
    next h =>
      obtain ⟨cs, hcs, -⟩ := MetaItem.clauses_conditions limit depth q.items (Nat.not_lt.mp h)
      rw [hcs]
      rfl

end MetaQuery

theorem DateQuery.refusal?_clauses (q : DateQuery) (now : Moment) (limit : Nat) :
    refusal? (q.clauses now limit) = if limit < q.depth then some (limit + 1) else none := by
  split
  next h =>
    rw [q.clauses_too_deep now h]
    rfl
  next h =>
    obtain ⟨cs, hcs, -⟩ := q.clauses_conditions now (Nat.not_lt.mp h)
    rw [hcs]
    rfl

/-- With the greatest number of groups that are nested inside one another as its depth, a query
that stands at some depth is refused exactly if both together are beyond the limit, and then at the
first depth beyond it. A whole query stands at depth zero. -/
theorem refused_iff_too_deep (q : MetaQuery) (q' : DateQuery) (now : Moment) (depth limit : Nat) :
    (∀ n, Nested MetaItem.groupsAmong n q.items ↔ n ≤ q.depth) ∧
      refusal? (q.clauses depth limit) =
        (if limit < depth + q.depth then some (if limit < depth then depth else limit + 1)
        else none) ∧
      refusal? (q.filter? limit) = (if limit < q.depth then some (limit + 1) else none) ∧
      (∀ n, Nested DateItem.groupsAmong n q'.items ↔ n ≤ q'.depth) ∧
      refusal? (q'.clauses now limit) =
        (if limit < q'.depth then some (limit + 1) else none) := by
  refine ⟨fun n => nested_iff_le MetaItem.lt_depthOf_iff n q.items, q.refusal?_clauses depth limit,
    ?_, fun n => nested_iff_le DateItem.lt_depthOf_iff n q'.items, q'.refusal?_clauses now limit⟩
  rw [MetaQuery.filter?, refusal?_map, q.refusal?_clauses, Nat.zero_add, if_neg (Nat.not_lt_zero _)]

/-- A group counts though it is empty and stands last. -/
example (p : MetaPredicate) :
    refusal? (MetaQuery.filter? ⟨.or, [.predicate p, .group .and [.group .and []]]⟩ 1) =
      some 2 :=
  rfl

end ContentIndex.Query
