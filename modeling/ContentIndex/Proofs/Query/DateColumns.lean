import ContentIndex.Proofs.Query.DateTree

/-
  The fields that a query on dates is about. Each part of the query that can become a clause is an
  `Origin`, found in the tree without a look at its clauses: the bounds of an entry, with the
  columns that are named from the entry up to the whole query, or a unit with what it is compared
  with. The clauses of a query are joined and negated out of the `leaves` of its origins and of
  nothing else (`DateQuery.leavesOf_clauses`).

  So a range between bounds is on the nearest of the named columns that is one of the four, and on
  the date of the post if none is. All other leaves are on units that the query names
  (`DateQuery.clauses_columns`). No other name in a query becomes the name of a field.
-/

namespace ContentIndex.Query

open Calendar (Moment)
open Json (Value)

/-! ## The leaves of clauses -/

namespace Clause

mutual
/-- The clauses that a clause is joined and negated of. -/
def leaves : Clause → List Clause
  | .bool parts => leavesOfCompound parts
  | .functionScore query _ _ => leaves query
  | c => [c]
termination_by structural c => c

def leavesOfCompound : Compound Clause → List Clause
  | ⟨must, should, mustNot, filter⟩ =>
    leavesOf must ++ leavesOf should ++ leavesOf mustNot ++ leavesOf filter
termination_by structural c => c

def leavesOf : List Clause → List Clause
  | [] => []
  | c :: cs => leaves c ++ leavesOf cs
termination_by structural cs => cs
end

theorem leavesOf_eq_flatMap (cs : List Clause) : leavesOf cs = cs.flatMap leaves := by
  induction cs with
  | nil => rfl
  | cons c cs ih => rw [leavesOf, ih, List.flatMap_cons]

theorem leavesOf_append (cs ds : List Clause) :
    leavesOf (cs ++ ds) = leavesOf cs ++ leavesOf ds := by
  simp only [leavesOf_eq_flatMap, List.flatMap_append]

theorem leavesOf_singleton (c : Clause) : leavesOf [c] = c.leaves := by
  rw [leavesOf_eq_flatMap, List.flatMap_singleton]

theorem leaves_negate (c : Clause) : c.negate.leaves = c.leaves := by
  rw [negate, leaves, leavesOfCompound, leavesOf_singleton]
  exact List.append_nil _

/-- Joining clauses keeps their leaves. -/
theorem leavesOf_combine (r : Relation) (cs : List Clause) :
    leavesOf (combine r cs).toList = leavesOf cs := by
  cases cs with
  | nil => rfl
  | cons c cs =>
    cases r <;> simp [combine, Compound.withAll, leavesOf, leaves, leavesOfCompound]

theorem leavesOf_filterMap {α : Type} (f : α → Option Clause) (l : List α) :
    leavesOf (l.filterMap f) = l.flatMap fun a => leavesOf (f a).toList := by
  induction l with
  | nil => rfl
  | cons a l ih =>
    rw [List.filterMap_cons, List.flatMap_cons, ← ih]
    cases f a <;> simp [leavesOf]

theorem leavesOf_filterMap_combine (r : Relation) (ls : List (List Clause)) :
    leavesOf (ls.filterMap (combine r)) = leavesOf ls.flatten := by
  have hflatten : leavesOf ls.flatten = ls.flatMap leavesOf := by
    induction ls with
    | nil => rfl
    | cons l ls ih => rw [List.flatten_cons, leavesOf_append, ih, List.flatMap_cons]
  rw [leavesOf_filterMap, hflatten]
  exact congrArg (ls.flatMap ·) (funext (leavesOf_combine r))

end Clause

/-! ## The leaves of entries -/

theorem range_of_between? {path : String} {v : Value} {c : Clause} (h : between? path v = some c) :
    ∃ b, c = .range path b := by
  unfold between? at h
  split at h <;> cases h
  exact ⟨_, rfl⟩

/-- A comparison is one leaf on the unit, negated or not. -/
theorem leaves_of_unitClause? {u : DateUnit} {compare : Option Comparator} {v : Value} {c : Clause}
    (h : unitClause? u compare v = some c) :
    ∃ leaf, c.leaves = [leaf] ∧ leaf.field? = some (unitPath u) := by
  unfold unitClause? at h
  generalize compare.getD (if v.isArray then .oneOf else .equals) = k at h
  cases k with
  | greater | greaterEq | less | lessEq =>
    obtain ⟨w, -, rfl⟩ := Option.map_eq_some_iff.mp h
    exact ⟨_, rfl, rfl⟩
  | between =>
    obtain ⟨b, rfl⟩ := range_of_between? h
    exact ⟨_, rfl, rfl⟩
  | notBetween =>
    obtain ⟨d, hd, rfl⟩ := Option.map_eq_some_iff.mp h
    obtain ⟨b, rfl⟩ := range_of_between? hd
    exact ⟨_, Clause.leaves_negate _, rfl⟩
  | notEquals | noneOf =>
    cases h
    exact ⟨_, Clause.leaves_negate _, rfl⟩
  | oneOf =>
    cases h
    exact ⟨_, rfl, rfl⟩
  | equals =>
    cases v <;> cases h <;> exact ⟨_, rfl, rfl⟩
  | like | notLike | present | absent => cases h

theorem DatePredicate.range_of_range? {p : DatePredicate} {now : Moment} {column : String}
    {c : Clause} (h : p.range? now column = some c) : ∃ b, c = .range column b := by
  unfold range? at h
  dsimp only at h
  split at h
  · cases h
  · split at h <;> exact ⟨_, (Option.some.inj h).symm⟩

/-- The first of some names that is one of the four columns, and else the date of the post. -/
def nearestColumn (names : List String) : String :=
  (names.find? dateColumns.contains).getD "post_date"

theorem nearestColumn_mem (names : List String) : nearestColumn names ∈ dateColumns := by
  rw [nearestColumn]
  cases h : names.find? dateColumns.contains with
  | none => decide
  | some name => simpa using List.find?_some h

/-- A column that is named takes effect before those further up. -/
theorem nearestColumn_append (column : Option String) (outer : List String) :
    nearestColumn (column.toList ++ outer) = resolveColumn column (nearestColumn outer) := by
  cases column with
  | none => rfl
  | some name =>
    rw [Option.toList_some, List.singleton_append, nearestColumn, List.find?_cons, resolveColumn]
    cases dateColumns.contains name <;> rfl

/-! ## Origins -/

/-- A part of a query that can become a leaf of its clauses. -/
inductive Origin where
  /-- The bounds of an entry. The columns are those that are named, from the entry up. -/
  | bounds (p : DatePredicate) (columns : List String)
  /-- A unit of an entry. -/
  | comparison (u : DateUnit) (compare : Option Comparator) (v : Value)
  /-- A unit of a group or of the whole query. -/
  | equality (u : DateUnit) (n : Int64)

namespace Origin

/-- The leaves that an origin becomes. -/
def leaves (now : Moment) : Origin → List Clause
  | .bounds p columns => (p.range? now (nearestColumn columns)).toList
  | .comparison u compare v => Clause.leavesOf (unitClause? u compare v).toList
  | .equality u n => [.term (unitPath u) (.ofInt64 n)]

theorem field?_of_mem_comparison {now : Moment} {u : DateUnit} {compare : Option Comparator}
    {v : Value} {c : Clause} (h : c ∈ (Origin.comparison u compare v).leaves now) :
    c.field? = some (unitPath u) := by
  rw [leaves] at h
  cases hunit : unitClause? u compare v with
  | none =>
    rw [hunit] at h
    cases h
  | some d =>
    obtain ⟨leaf, hleaf, hfield⟩ := leaves_of_unitClause? hunit
    rw [hunit, Option.toList_some, Clause.leavesOf_singleton, hleaf] at h
    rw [List.mem_singleton.mp h, hfield]

end Origin

mutual
/-- The origins in an item; the columns are those that are named around it, from there up. -/
def DateItem.origins (columns : List String) : DateItem → List Origin
  | .predicate p =>
    .bounds p (p.column.toList ++ columns) :: p.units.map fun (u, v) => .comparison u p.compare v
  | .group _ column units items =>
    units.map (fun (u, n) => .equality u n) ++ DateItem.originsOf (column.toList ++ columns) items
termination_by structural i => i

def DateItem.originsOf (columns : List String) : List DateItem → List Origin
  | [] => []
  | i :: is => DateItem.origins columns i ++ DateItem.originsOf columns is
termination_by structural is => is
end

/-- The origins in a query. -/
def DateQuery.origins (q : DateQuery) : List Origin :=
  q.units.map (fun (u, n) => .equality u n) ++ DateItem.originsOf q.column.toList q.items

theorem leavesOf_unitTerms (units : List (DateUnit × Int64)) (now : Moment) :
    Clause.leavesOf (unitTerms units) =
      (units.map fun (u, n) => Origin.equality u n).flatMap (·.leaves now) := by
  rw [Clause.leavesOf_eq_flatMap, unitTerms, List.flatMap_map, List.flatMap_map]
  rfl

theorem DatePredicate.leavesOf_clauses (p : DatePredicate) (now : Moment) (columns : List String) :
    Clause.leavesOf (p.clauses now (nearestColumn columns)) =
      ((DateItem.predicate p).origins columns).flatMap (·.leaves now) := by
  have hrange :
      Clause.leavesOf (p.range? now (resolveColumn p.column (nearestColumn columns))).toList =
        (Origin.bounds p (p.column.toList ++ columns)).leaves now := by
    rw [Origin.leaves, nearestColumn_append]
    cases h : p.range? now (resolveColumn p.column (nearestColumn columns)) with
    | none => rfl
    | some c =>
      obtain ⟨b, rfl⟩ := range_of_range? h
      rfl
  rw [clauses, Clause.leavesOf_append, DateItem.origins, List.flatMap_cons, hrange]
  congr 1
  rw [Clause.leavesOf_filterMap, List.flatMap_map]
  rfl

namespace DateItem

variable {now : Moment} {limit : Nat}

mutual
/-- The clauses of an item have the leaves of its origins. -/
theorem leavesOf_clauses : (columns : List String) → (depth : Nat) → (i : DateItem) →
    depth + i.depth ≤ limit →
    ∃ cs, i.clauses now limit (nearestColumn columns) depth = .ok cs ∧
      Clause.leavesOf cs = (i.origins columns).flatMap (·.leaves now)
  | columns, _, .predicate p, _ => ⟨_, by rw [clauses], p.leavesOf_clauses now columns⟩
  | columns, d, .group relation column units items, h => by
    rw [depth] at h
    obtain ⟨l, hl, hleaves⟩ :=
      leavesOf_clauseLists (column.toList ++ columns) (d + 1) items (by omega)
    rw [nearestColumn_append] at hl
    refine ⟨(Clause.combine .and (unitTerms units ++ l.flatten)).toList, ?_, ?_⟩
    · rw [clauses, if_neg (by omega), hl]
      rfl
    · rw [Clause.leavesOf_combine, Clause.leavesOf_append, leavesOf_unitTerms units now, hleaves,
        origins, List.flatMap_append]

theorem leavesOf_clauseLists : (columns : List String) → (depth : Nat) → (is : List DateItem) →
    depth + depthOf is ≤ limit →
    ∃ l, clauseLists now limit (nearestColumn columns) depth is = .ok l ∧
      Clause.leavesOf l.flatten = (originsOf columns is).flatMap (·.leaves now)
  | _, _, [], _ => ⟨[], by rw [clauseLists], rfl⟩
  | columns, d, i :: is, h => by
    rw [depthOf] at h
    obtain ⟨cs, hcs, hleaves⟩ := leavesOf_clauses columns d i (by omega)
    obtain ⟨l, hl, hleavesOf⟩ := leavesOf_clauseLists columns d is (by omega)
    refine ⟨if cs.isEmpty then l else cs :: l, ?_, ?_⟩
    · rw [clauseLists, hcs, hl]
      rfl
    · rw [originsOf, List.flatMap_append, ← hleaves, ← hleavesOf, ← Clause.leavesOf_append]
      cases cs <;> rfl
end

end DateItem

namespace DateQuery

variable {limit : Nat}

/-- The clauses of a query whose groups are not too deep have the leaves of its origins. -/
theorem leavesOf_clauses (q : DateQuery) (now : Moment) (h : q.depth ≤ limit) :
    ∃ cs, q.clauses now limit = .ok cs ∧
      Clause.leavesOf cs = q.origins.flatMap (·.leaves now) := by
  obtain ⟨l, hl, hleaves⟩ :=
    @DateItem.leavesOf_clauseLists now limit q.column.toList 0 q.items (by rwa [Nat.zero_add])
  rw [← List.append_nil q.column.toList, nearestColumn_append] at hl
  refine ⟨_, by rw [clauses, show "post_date" = nearestColumn [] from rfl, hl]; rfl, ?_⟩
  rw [Clause.leavesOf_append, leavesOf_unitTerms q.units now, origins, List.flatMap_append,
    ← hleaves]
  congr 1
  cases q.relation with
  | and => rfl
  | or => rw [Clause.leavesOf_combine, Clause.leavesOf_filterMap_combine]

/-- Each leaf of the clauses of a query, in their order, comes from one of its origins. One that
comes from bounds is a range on the nearest column that is named correctly, which is one of the
four; all others are on a unit of the query. -/
theorem clauses_columns (q : DateQuery) (now : Moment) (h : q.depth ≤ limit) :
    ∃ cs, q.clauses now limit = .ok cs ∧
      Clause.leavesOf cs = q.origins.flatMap (·.leaves now) ∧
      ∀ o ∈ q.origins, ∀ c ∈ o.leaves now,
        match o with
        | .bounds _ columns => nearestColumn columns ∈ dateColumns ∧
            ∃ b, c = .range (nearestColumn columns) b
        | .comparison u _ _ | .equality u _ => c.field? = some (unitPath u) := by
  obtain ⟨cs, hcs, hleaves⟩ := q.leavesOf_clauses now h
  refine ⟨cs, hcs, hleaves, fun o _ c hc => ?_⟩
  cases o with
  | bounds p columns =>
    exact ⟨nearestColumn_mem columns, p.range_of_range? (Option.mem_toList.mp hc)⟩
  | comparison u compare v => exact Origin.field?_of_mem_comparison hc
  | equality u n =>
    cases List.mem_singleton.mp hc
    rfl

/-- An entry with a column that there is not, in a group with another such one, and an entry with a
column of its own. -/
theorem clauses_columns_unknown :
    let nested : DatePredicate :=
      { column := some "post_status", after := some (.parts 2024 none none) }
    let named : DatePredicate :=
      { column := some "post_date_gmt", before := some (.parts 2025 (some 6) none) }
    let q : DateQuery :=
      { relation := .or
        column := some "post_modified"
        items := [.group .or (some "meta.price") [(.month, 3)] [.predicate nested],
          .predicate named] }
    q.depth ≤ 1 ∧ ∃ cs, q.clauses .epoch 1 = .ok cs ∧
      (Clause.leavesOf cs).map Clause.field? =
        [some "date_terms.month", some "post_modified", some "post_date_gmt"] := by
  intro nested named q
  have h : q.depth ≤ 1 := by decide
  obtain ⟨cs, hcs, hleaves, -⟩ := clauses_columns q .epoch h
  refine ⟨h, cs, hcs, ?_⟩
  rw [hleaves]
  decide +kernel

end DateQuery
end ContentIndex.Query
