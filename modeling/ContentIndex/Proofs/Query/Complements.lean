import ContentIndex.Proofs.Query.DateColumns
import ContentIndex.Proofs.Query.MetaTree
import ContentIndex.Query.Wire

/-
  Comparators in pairs. Five comparators have a negated form (`Negatable`). On custom fields a
  negated predicate is its plain one in a single list of clauses that must not match, on the same
  reading of the field, and one of the two is dropped exactly if the other is
  (`MetaPredicate.clause?_negated`). So the two never look at different readings, and no value
  makes only one of them disappear.

  On calendar units the same holds as long as one value is read as a list of one
  (`Clause.listed`), with one exception (`unitClause?_complement_iff`): null is no value for
  equality, and there is no clause, but "not equal" to null is compiled.
-/

namespace ContentIndex.Query

open Json (Value)
open Calendar (Moment)

/-- A comparison that has a negated form. -/
inductive Negatable where
  | equals
  | like
  | oneOf
  | between
  | present
deriving DecidableEq, Repr

namespace Negatable

def plain : Negatable → Comparator
  | .equals => .equals
  | .like => .like
  | .oneOf => .oneOf
  | .between => .between
  | .present => .present

def negated : Negatable → Comparator
  | .equals => .notEquals
  | .like => .notLike
  | .oneOf => .noneOf
  | .between => .notBetween
  | .present => .absent

@[simp] theorem isNegative_plain (t : Negatable) : t.plain.isNegative = false := by
  cases t <;> rfl

@[simp] theorem isNegative_negated (t : Negatable) : t.negated.isNegative = true := by
  cases t <;> rfl

end Negatable

/-! ## Custom fields -/

/-- Negation does not change the reading of the field. -/
theorem metaPath_negated (t : Negatable) (key : String) (type : Option ValueType) :
    metaPath key t.negated type = metaPath key t.plain type := by
  cases t <;> rcases type with _ | _ | _ | _ | _ | _ | _ | _ <;> rfl

namespace MetaPredicate

/-- A predicate tests one field. -/
theorem field?_of_test? {p : MetaPredicate} {test : Clause} (h : p.test? = some test) :
    test.field? = some (metaPath p.key p.compare p.type) := by
  simp only [test?] at h
  split at h <;> simp only [Option.some.injEq, Option.map_eq_some_iff, reduceCtorEq] at h
  all_goals first
    | (subst h; rfl)
    | (obtain ⟨_, _, rfl⟩ := h; rfl)

/-- What a negated predicate tests is what the plain one does. -/
theorem test?_negated (t : Negatable) (key : String) (value : Option Value)
    (type : Option ValueType) :
    (⟨key, value, t.negated, type⟩ : MetaPredicate).test? =
      (⟨key, value, t.plain, type⟩ : MetaPredicate).test? := by
  simp only [test?, metaPath_negated]
  cases value with
  | none => cases t <;> rfl
  | some v =>
    cases t with
    | between => rcases v with _ | _ | _ | _ | (_ | ⟨low, _ | ⟨high, _ | _⟩⟩) | _ <;> rfl
    | equals | like | oneOf | present => rfl

/-- A plain predicate is its test. -/
theorem clause?_plain (t : Negatable) (key : String) (value : Option Value)
    (type : Option ValueType) :
    (⟨key, value, t.plain, type⟩ : MetaPredicate).clause? =
      (⟨key, value, t.plain, type⟩ : MetaPredicate).test? := by
  rw [clause?_eq_test?]
  simp

/-- A negated predicate, whatever its key, value and type, is the plain one in a list of its own of
clauses that must not match. It is dropped exactly if the plain one is, both are on the same field,
and it matches exactly where the plain one does not. -/
theorem clause?_negated (t : Negatable) (key : String) (value : Option Value)
    (type : Option ValueType) :
    let plain : MetaPredicate := ⟨key, value, t.plain, type⟩
    let negated : MetaPredicate := ⟨key, value, t.negated, type⟩
    let path := metaPath key t.plain type
    metaPath key t.negated type = path ∧
      negated.clause? = plain.clause?.map Clause.negate ∧
      (negated.clause? = none ↔ plain.clause? = none) ∧
      ∀ c, plain.clause? = some c →
        c.field? = some path ∧
        c.negate.toJson = single "bool" (single "must_not" (.array [c.toJson])) ∧
        ∀ leaf, c.negate.condition leaf = !c.condition leaf := by
  intro plain negated path
  have hclause : negated.clause? = plain.clause?.map Clause.negate := by
    rw [clause?_plain, ← test?_negated, clause?_eq_test?]
    simp only [negated, t.isNegative_negated, if_true]
  refine ⟨metaPath_negated t key type, hclause, ?_, fun c hc => ⟨?_, ?_, ?_⟩⟩
  · rw [hclause, Option.map_eq_none_iff]
  · rw [clause?_plain] at hc
    exact field?_of_test? hc
  · rfl
  · exact c.condition_negate

/-- A period that a date must not fall into. -/
theorem clause?_negated_period :
    let low : Value := .string "2024-01-01"
    let high : Value := .string "2024-02-01"
    let range : Clause := .range "meta.start.date" { atLeast := some low, atMost := some high }
    let plain : MetaPredicate := ⟨"start", some (.array [low, high]), .between, some .date⟩
    let negated : MetaPredicate := { plain with compare := .notBetween }
    plain.clause? = some range ∧ negated.clause? = some range.negate ∧
      range.field? = some "meta.start.date" ∧
      range.negate.toJson = single "bool" (single "must_not" (.array [range.toJson])) := by
  intro low high range plain negated
  have hplain : plain.clause? = some range := rfl
  obtain ⟨-, hnegated, -, hparts⟩ :=
    clause?_negated .between "start" (some (.array [low, high])) (some .date)
  obtain ⟨hfield, hjson, -⟩ := hparts range hplain
  exact ⟨hplain, hnegated, hfield, hjson⟩

end MetaPredicate

/-! ## Calendar units -/

/-- A clause on one value as the one on the list of that value. -/
def Clause.listed : Clause → Clause
  | .term field value => .terms field [value]
  | c => c

theorem Clause.listed_listed (c : Clause) : c.listed.listed = c.listed := by
  cases c <;> rfl

/-- A comparison that is not negated is one clause on a field. -/
theorem condition_of_plain_unitClause? {t : Negatable} {u : DateUnit} {v : Value} {c : Clause}
    (h : unitClause? u (some t.plain) v = some c) : c.condition = fun leaf => leaf c := by
  cases t with
  | equals => cases v <;> cases h <;> rfl
  | oneOf =>
    cases h
    rfl
  | between =>
    obtain ⟨b, rfl⟩ := range_of_between? h
    rfl
  | like | present => cases h

/-- Apart from equality with null, a negated comparison is the plain one on a list of values, in a
list of its own of clauses that must not match. -/
theorem unitClause?_negated {t : Negatable} {v : Value} (h : ¬(t = .equals ∧ v = .null))
    (u : DateUnit) :
    unitClause? u (some t.negated) v =
      (unitClause? u (some t.plain) v).map fun c => c.listed.negate := by
  cases t with
  | equals =>
    cases v with
    | null => exact absurd ⟨rfl, rfl⟩ h
    | _ => rfl
  | between =>
    refine Option.map_congr fun c hc => ?_
    obtain ⟨b, rfl⟩ := range_of_between? hc
    rfl
  | oneOf | like | present => rfl

/-- Of a comparison and its negation, for each unit and value, one is compiled exactly if the other
is, unless null is compared for equality: then only the negation is. Where both are, one value
stands for the list of it, and the one clause matches exactly where the other does not. -/
theorem unitClause?_complement_iff (t : Negatable) (u : DateUnit) (v : Value) :
    let plain := unitClause? u (some t.plain) v
    let negated := unitClause? u (some t.negated) v
    ((negated.isSome = true ↔ plain.isSome = true) ↔ ¬(t = .equals ∧ v = .null)) ∧
      ∀ c d, plain = some c → negated = some d →
        ∀ leaf : Clause → Bool,
          d.condition (leaf ∘ Clause.listed) = !c.condition (leaf ∘ Clause.listed) := by
  intro plain negated
  by_cases h : t = .equals ∧ v = .null
  · obtain ⟨rfl, rfl⟩ := h
    refine ⟨by simp [plain, negated, unitClause?, Negatable.plain, Negatable.negated], ?_⟩
    intro c d hc
    have hnone : plain = none := rfl
    rw [hnone] at hc
    cases hc
  · have hnegated : negated = plain.map fun c => c.listed.negate := unitClause?_negated h u
    refine ⟨?_, fun c d hc hd leaf => ?_⟩
    · rw [hnegated, Option.isSome_map]
      exact iff_of_true Iff.rfl h
    · have hlisted : c.listed.condition = fun leaf => leaf c.listed := by
        have hleaf := condition_of_plain_unitClause? hc
        cases c <;> first | rfl | exact hleaf
      rw [hnegated, hc, Option.map_some, Option.some.injEq] at hd
      rw [← hd, Clause.condition_negate, hlisted, condition_of_plain_unitClause? hc]
      exact congrArg (!leaf ·) c.listed_listed

/-- An entry that compares one unit, with the comparator as a host writes it. -/
def comparisonEntry (word : String) (u : DateUnit) (v : Value) : Value :=
  .array [.object [("compare", .string word), (u.field, v)]]

theorem clauses_comparisonEntry (word : String) (u : DateUnit) (v : Value) (now : Moment)
    (limit : Nat) :
    (DateQuery.read (comparisonEntry word u v)).clauses now limit =
      .ok (unitClause? u (some (.named word)) v).toList := by
  have hread : DateQuery.read (comparisonEntry word u v) =
      { items := [.predicate { compare := some (.named word), units := [(u, v)] }] } := by
    cases u <;> rfl
  rw [hread]
  cases h : unitClause? u (some (.named word)) v <;>
    simp [DateQuery.clauses, DateItem.clauseLists, DateItem.clauses, DatePredicate.clauses,
      DatePredicate.range?, unitTerms, h, bind, Except.bind, Except.map]

/-- Working days are those that are not at the weekend. -/
theorem unitClause?_complement_weekend :
    let days : Value := .array [.ofNat 0, .ofNat 6]
    ∃ weekend working,
      (DateQuery.read (comparisonEntry "IN" .dayOfWeek days)).clauses .epoch 16 = .ok [weekend] ∧
      (DateQuery.read (comparisonEntry "NOT IN" .dayOfWeek days)).clauses .epoch 16 =
        .ok [working] ∧
      ∀ leaf : Clause → Bool,
        working.condition (leaf ∘ Clause.listed) = !weekend.condition (leaf ∘ Clause.listed) := by
  intro days
  have hin : Comparator.named "IN" = .oneOf := by decide +kernel
  have hnotIn : Comparator.named "NOT IN" = .noneOf := by decide +kernel
  let weekend : Clause := .terms "date_terms.dayofweek" [.ofNat 0, .ofNat 6]
  obtain ⟨-, hcomplement⟩ := unitClause?_complement_iff .oneOf .dayOfWeek days
  refine ⟨weekend, weekend.negate, ?_, ?_, hcomplement weekend weekend.negate rfl rfl⟩
  · rw [clauses_comparisonEntry, hin]
    rfl
  · rw [clauses_comparisonEntry, hnotIn]
    rfl

/-- Equality with null restricts nothing, and yet its negation is compiled. -/
theorem null_not_complemented :
    (DateQuery.read (comparisonEntry "=" .year .null)).clauses .epoch 16 = .ok [] ∧
      (DateQuery.read (comparisonEntry "!=" .year .null)).clauses .epoch 16 =
        .ok [(Clause.terms "date_terms.year" [.null]).negate] := by
  have hequals : Comparator.named "=" = .equals := by decide +kernel
  have hdiffers : Comparator.named "!=" = .notEquals := by decide +kernel
  constructor
  · rw [clauses_comparisonEntry, hequals]
    rfl
  · rw [clauses_comparisonEntry, hdiffers]
    rfl

end ContentIndex.Query
