import ContentIndex.Proofs.Query.Membership

/-
  What a query on taxonomies means. A predicate is usable if it names a taxonomy and, where terms
  are needed, has some; what it means is read off its operator (`TaxPredicate.holds`), one by one and
  without a word on where its clause is put. The compound of a query has parts that must and parts
  that must not match and nothing else, it is empty exactly if no predicate is usable, and it
  matches where all usable predicates hold or one of them does (`compound_matches`). An exclusion
  stands among the parts that must not match if all predicates have to hold, but is negated in
  place if one is enough: `a or not b` is not `a and not b`.

  The filter on the results takes over both lists of parts. So adding a query on taxonomies to a
  request restricts the results to what the query matches, and changes nothing else.
-/

namespace ContentIndex.Query

open Calendar (Moment)

/-! ## Predicates -/

namespace TaxPredicate

/-- Whether the operator asks for the presence of a taxonomy, not for some of its terms. -/
def needsNoTerms (p : TaxPredicate) : Bool :=
  p.operator = .present || p.operator = .absent

/-- A predicate without a taxonomy, or without the terms it needs, says nothing. -/
def isUsable (p : TaxPredicate) : Bool :=
  p.taxonomy ≠ "" && (p.needsNoTerms || !p.terms.isEmpty)

/-- Whether a predicate holds, given which clauses on fields match. -/
def holds (p : TaxPredicate) (leaf : Clause → Bool) : Bool :=
  let field := "terms." ++ p.taxonomy
  let path := field ++ "." ++ p.field.path
  match p.operator with
  | .oneOf => leaf (.terms path p.terms)
  | .noneOf => !leaf (.terms path p.terms)
  | .allOf => p.terms.all fun t => leaf (.term path t)
  | .present => leaf (.present field)
  | .absent => !leaf (.present field)

/-- What is asked for is what usable predicates mean. -/
theorem condition?_eq (p : TaxPredicate) :
    p.condition? = if p.isUsable then some p.holds else none := by
  obtain ⟨taxonomy, terms, field, operator⟩ := p
  by_cases h : taxonomy = ""
  · simp [condition?, isUsable, h]
  · cases operator with
    | present | absent =>
      rw [if_pos (by simp [isUsable, needsNoTerms, h]), condition?, if_neg h]
      rfl
    | oneOf | noneOf | allOf =>
      cases terms with
      | nil => simp [condition?, isUsable, needsNoTerms]
      | cons t ts =>
        rw [if_pos (by simp [isUsable, h]), condition?, if_neg h]
        rfl

end TaxPredicate

/-! ## Queries -/

namespace TaxQuery

/-- The predicates that say something. -/
def usable (q : TaxQuery) : List TaxPredicate :=
  q.predicates.filter TaxPredicate.isUsable

theorem filterMap_condition? (q : TaxQuery) :
    q.predicates.filterMap TaxPredicate.condition? = q.usable.map TaxPredicate.holds := by
  rw [usable]
  induction q.predicates with
  | nil => rfl
  | cons p ps ih =>
    rw [List.filterMap_cons, p.condition?_eq, List.filter_cons, ih]
    cases p.isUsable <;> rfl

/-- The conditions of a query hold where its usable predicates do, all of them or one. -/
theorem forall_conditions_iff (q : TaxQuery) (leaf : Clause → Bool) :
    (∀ f ∈ q.conditions, f leaf = true) ↔
      match q.relation with
      | .and => ∀ p ∈ q.usable, p.holds leaf = true
      | .or => q.usable = [] ∨ ∃ p ∈ q.usable, p.holds leaf = true := by
  rw [conditions, filterMap_condition?]
  cases q.relation with
  | and => exact List.forall_mem_map
  | or =>
    rw [Relation.forall_mem_join_or, List.map_eq_nil_iff]
    refine or_congr_right ⟨?_, ?_⟩
    · rintro ⟨f, hf, hleaf⟩
      obtain ⟨p, hp, rfl⟩ := List.mem_map.mp hf
      exact ⟨p, hp, hleaf⟩
    · rintro ⟨p, hp, hleaf⟩
      exact ⟨p.holds, List.mem_map_of_mem hp, hleaf⟩

theorem conditions_eq_nil_iff (q : TaxQuery) : q.conditions = [] ↔ q.usable = [] := by
  rw [conditions, filterMap_condition?]
  cases q.relation with
  | and => exact List.map_eq_nil_iff
  | or => simp [Relation.join_eq_none_iff]

/-- Nothing stands in the two other lists of the compound. -/
theorem compound_only_must (q : TaxQuery) : q.compound.should = [] ∧ q.compound.filter = [] := by
  rw [compound]
  cases q.relation with
  | and => exact ⟨rfl, rfl⟩
  | or =>
    dsimp only
    split <;> exact ⟨rfl, rfl⟩

/-- Whether a compound of this form matches is up to what it asks for. -/
theorem condition_compound_iff (q : TaxQuery) (leaf : Clause → Bool) :
    (Clause.bool q.compound).condition leaf = true ↔ ∀ f ∈ q.conditions, f leaf = true := by
  obtain ⟨hshould, hfilter⟩ := q.compound_only_must
  simp only [Compound.condition_eq_true_iff hshould hfilter, q.mem_asks_compound]

theorem isEmpty_compound_iff (q : TaxQuery) : q.compound.isEmpty = true ↔ q.usable = [] := by
  obtain ⟨hshould, hfilter⟩ := q.compound_only_must
  rw [Compound.isEmpty_iff hshould hfilter, ← q.conditions_eq_nil_iff]
  simp only [List.eq_nil_iff_forall_not_mem, q.mem_asks_compound]

end TaxQuery

/-! ## Merging -/

/-- A part of a request asks for what it asks for alone. -/
theorem Request.asks_taxonomies (r : Request) (q : TaxQuery) (c : Config) (privileged : Bool)
    (now : Moment) (d : Dimension) :
    { r with taxQuery := some q }.asks c privileged now d =
      if d = .taxonomies then q.conditions
      else { r with taxQuery := none }.asks c privileged now d := by
  cases d <;> rfl

/-- The filter of a request with a query on taxonomies asks for what the query asks for, and for
what the request asks for without it. -/
theorem Request.condition_membership_taxQuery (r : Request) (q : TaxQuery) (c : Config)
    (privileged : Bool) (now : Moment) (leaf : Clause → Bool) :
    (Clause.bool ({ r with taxQuery := some q }.membership c privileged now)).condition leaf =
      ((Clause.bool ({ r with taxQuery := none }.membership c privileged now)).condition leaf
        && (Clause.bool q.compound).condition leaf) := by
  have hnone : { r with taxQuery := none }.asks c privileged now .taxonomies = [] := rfl
  rw [Bool.eq_iff_iff, Bool.and_eq_true, Compound.condition_eq_true_iff rfl rfl,
    Compound.condition_eq_true_iff rfl rfl, q.condition_compound_iff]
  simp only [Request.mem_asks_membership, r.asks_taxonomies q]
  constructor
  · intro h
    constructor
    · rintro f ⟨d, hf⟩
      have hd : d ≠ .taxonomies := by
        rintro rfl
        rw [hnone] at hf
        exact List.not_mem_nil hf
      exact h f ⟨d, by rwa [if_neg hd]⟩
    · intro f hf
      exact h f ⟨.taxonomies, by rwa [if_pos rfl]⟩
  · rintro ⟨hrest, hquery⟩ f ⟨d, hf⟩
    split at hf
    · exact hquery f hf
    · exact hrest f ⟨d, hf⟩

/-- The compound of a query on taxonomies says what its usable predicates mean, all of them or one,
and is empty if there are none. All it says stands in the two lists that the filter on the results
takes over: that filter matches where it would without the query and the query matches. -/
theorem TaxQuery.compound_matches (q : TaxQuery) :
    q.compound.should = [] ∧ q.compound.filter = [] ∧
      (q.compound.isEmpty = true ↔ q.usable = []) ∧
      (∀ leaf, (Clause.bool q.compound).condition leaf = true ↔
        match q.relation with
        | .and => ∀ p ∈ q.usable, p.holds leaf = true
        | .or => q.usable = [] ∨ ∃ p ∈ q.usable, p.holds leaf = true) ∧
      ∀ (r : Request) (c : Config) (privileged : Bool) (now : Moment) (leaf : Clause → Bool),
        (Clause.bool ({ r with taxQuery := some q }.membership c privileged now)).condition leaf =
          ((Clause.bool ({ r with taxQuery := none }.membership c privileged now)).condition leaf
            && (Clause.bool q.compound).condition leaf) := by
  obtain ⟨hshould, hfilter⟩ := q.compound_only_must
  refine ⟨hshould, hfilter, q.isEmpty_compound_iff, fun leaf => ?_,
    fun r c privileged now leaf => r.condition_membership_taxQuery q c privileged now leaf⟩
  rw [q.condition_compound_iff, q.forall_conditions_iff]

/-- Of two predicates that are joined by "or", the exclusion is negated in place. -/
example :
    let news : TaxPredicate := { taxonomy := "category", terms := ["news"], field := .slug }
    let q : TaxQuery := ⟨.or, [news, { news with operator := .noneOf }, { taxonomy := "" }]⟩
    let clause : Clause := .terms "terms.category.slug" ["news"]
    q.compound = { must := [.bool { should := [clause, clause.negate] }] } := by
  decide

end ContentIndex.Query
