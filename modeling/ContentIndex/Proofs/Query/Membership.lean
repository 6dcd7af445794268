import ContentIndex.Proofs.Query.DateTree
import ContentIndex.Proofs.Query.MetaTree
import ContentIndex.Query.Compiler

/-
  Which items belong to the result of a request. Each part of a request asks for some conditions,
  without regard to the other parts (`Request.asks`), and the filter that is compiled is the
  conjunction of them all. It is absent if no part asks for anything; else, whichever clauses on
  fields match an item, the filter matches it exactly if the conditions of every part hold
  (`postFilter_of_asks`). A tree of groups that is nested too deep asks for nothing, and the
  request is compiled as if the tree were not there.
-/

namespace ContentIndex.Query

open Json (Value)
open Calendar (Moment)

/-! ## Conjunctions -/

/-- A condition that fails where the given one holds. -/
def Condition.negate (f : Condition) : Condition := fun leaf => !f leaf

/-- What a compound asks for whose parts must or must not match. -/
def Compound.asks (p : Compound Clause) : List Condition :=
  p.must.map Clause.condition ++ p.mustNot.map fun c => c.condition.negate

theorem Compound.condition_eq_true_iff {p : Compound Clause} (hs : p.should = [])
    (hf : p.filter = []) (leaf : Clause → Bool) :
    (Clause.bool p).condition leaf = true ↔ ∀ f ∈ p.asks, f leaf = true := by
  rw [Clause.condition_bool, hs, hf]
  simp only [asks, List.mem_append, List.mem_map, or_imp, forall_and, Condition.negate,
    forall_exists_index, and_imp, forall_apply_eq_imp_iff₂]
  simp

theorem Compound.isEmpty_iff {p : Compound Clause} (hs : p.should = []) (hf : p.filter = []) :
    p.isEmpty = true ↔ p.asks = [] := by
  simp [isEmpty, asks, hs, hf]

/-! ## Taxonomies -/

/-- What a predicate on the terms of a taxonomy asks for; nothing without a taxonomy, or without
terms where they are needed. -/
def TaxPredicate.condition? (p : TaxPredicate) : Option Condition :=
  let field := "terms." ++ p.taxonomy
  let path := field ++ "." ++ p.field.path
  if p.taxonomy = "" then none
  else
    match p.operator with
    | .present => some fun leaf => leaf (.present field)
    | .absent => some fun leaf => !leaf (.present field)
    | .oneOf => if p.terms = [] then none else some fun leaf => leaf (.terms path p.terms)
    | .noneOf => if p.terms = [] then none else some fun leaf => !leaf (.terms path p.terms)
    | .allOf => if p.terms = [] then none else some fun leaf => p.terms.all (leaf <| .term path ·)

/-- What a query on taxonomies asks for: all that its predicates do, or one of it. -/
def TaxQuery.conditions (q : TaxQuery) : List Condition :=
  let each := q.predicates.filterMap TaxPredicate.condition?
  match q.relation with
  | .and => each
  | .or => (Relation.or.join each).toList

/-- What a demand asks for. -/
def Demand.condition : Demand → Condition
  | .holds c => c.condition
  | .fails c => c.condition.negate

theorem TaxPredicate.map_condition_demand? (p : TaxPredicate) :
    p.demand?.map Demand.condition = p.condition? := by
  obtain ⟨taxonomy, terms, field, operator⟩ := p
  simp only [demand?, condition?]
  split
  · rfl
  · cases operator with
    | present | absent => rfl
    | oneOf | noneOf => cases terms <;> rfl
    | allOf =>
      cases terms with
      | nil => rfl
      | cons t ts =>
        refine congrArg some (funext fun leaf => ?_)
        rw [Demand.condition, Clause.condition_bool]
        simp [Clause.condition, Function.comp_def]

/-- Demands are kept apart only by whether they stand among the parts that must match. -/
theorem mem_map_condition_demands {demands : List Demand} {f : Condition} :
    f ∈ demands.map Demand.condition ↔
      f ∈ (demands.filterMap Demand.positive?).map Clause.condition ∨
        f ∈ (demands.filterMap Demand.negative?).map fun c => c.condition.negate := by
  induction demands with
  | nil => simp
  | cons d ds ih =>
    cases d <;>
      simp [ih, Demand.positive?, Demand.negative?, Demand.condition, or_assoc, or_left_comm]

theorem any_map_condition_demands (demands : List Demand) (leaf : Clause → Bool) :
    (demands.filterMap Demand.positive? ++
        (demands.filterMap Demand.negative?).map Clause.negate).any (·.condition leaf) =
      (demands.map Demand.condition).any (· leaf) := by
  induction demands with
  | nil => rfl
  | cons d ds ih =>
    cases d <;>
      simp [← ih, Demand.positive?, Demand.negative?, Demand.condition, Condition.negate,
        Clause.condition_negate, Bool.or_left_comm]

/-- Neither the order of the demands nor the place of a negation changes what a query on
taxonomies asks for. -/
theorem TaxQuery.mem_asks_compound (q : TaxQuery) (f : Condition) :
    f ∈ q.compound.asks ↔ f ∈ q.conditions := by
  have hdemands : q.predicates.filterMap TaxPredicate.condition? =
      (q.predicates.filterMap TaxPredicate.demand?).map Demand.condition := by
    rw [List.map_filterMap]
    exact congrArg (List.filterMap · _) (funext fun p => p.map_condition_demand?.symm)
  rw [conditions, hdemands, compound]
  cases q.relation with
  | and => rw [Compound.asks, List.mem_append, ← mem_map_condition_demands]
  | or =>
    generalize q.predicates.filterMap TaxPredicate.demand? = demands
    cases demands with
    | nil => rfl
    | cons d ds =>
      have hany : (Clause.bool { should := (d :: ds).filterMap Demand.positive? ++
          ((d :: ds).filterMap Demand.negative?).map Clause.negate }).condition =
            fun leaf => ((d :: ds).map Demand.condition).any (· leaf) := by
        funext leaf
        rw [Clause.condition_bool, ← any_map_condition_demands]
        cases d <;> simp [Demand.positive?, Demand.negative?]
      simp only [List.isEmpty_cons, Bool.false_eq_true, if_false, Compound.asks, List.map_cons,
        List.map_nil, List.append_nil, hany]
      rfl

/-! ## The parts of a request -/

/-- The parts of a request that decide which items belong to the result. -/
inductive Dimension where
  | type
  | status
  | taxonomies
  | categories
  | tags
  | ids
  | excludedIds
  | mimeType
  | fields
  | dates
  | parent
  | authors
  | excludedAuthors
  | names
deriving DecidableEq, Repr

/-- One of the values is asked for; nothing if there are none. -/
def asksOneOf (field : String) (values : List Value) : List Condition :=
  if values = [] then [] else [fun leaf => leaf (.terms field values)]

def ValueFilter.asks (field : String) : ValueFilter → List Condition
  | .any => []
  | .one v => [fun leaf => leaf (.term field (.string v))]
  | .many vs => [fun leaf => leaf (.terms field (vs.map .string))]

def MimeFilter.asks : MimeFilter → List Condition
  | .leading s => [fun leaf => leaf (.regexp "post_mime_type" (literalPattern s ++ ".*"))]
  | .oneOf ts => asksOneOf "post_mime_type" (ts.map .string)

def ParentFilter.asks : ParentFilter → List Condition
  | .any => []
  | .id p => [fun leaf => leaf (.term "post_parent" (.ofUInt64 p))]

/-- What each part of a request asks for. Trees that are nested too deep ask for nothing. -/
def Request.asks (r : Request) (c : Config) (privileged : Bool) (now : Moment) :
    Dimension → List Condition
  | .type => (r.type.map (ValueFilter.asks "post_type.raw")).getD []
  | .status => (r.status.getD (visibleStatuses c privileged)).asks "post_status"
  | .taxonomies => (r.taxQuery.map TaxQuery.conditions).getD []
  | .categories => asksOneOf "terms.category.slug" (r.categories.map .string)
  | .tags => asksOneOf "terms.post_tag.slug" (r.tags.map .string)
  | .ids => asksOneOf "post_id" (r.ids.map .ofUInt64)
  | .excludedIds => (asksOneOf "post_id" (r.excludedIds.map .ofUInt64)).map Condition.negate
  | .mimeType => (r.mimeType.map MimeFilter.asks).getD []
  | .fields =>
    match r.metaQuery with
    | some q => if q.depth ≤ c.maxQueryDepth.toNat then q.condition?.toList else []
    | none => []
  | .dates =>
    match r.dateQuery with
    | some q => if q.depth ≤ c.maxQueryDepth.toNat then q.conditions now else []
    | none => []
  | .parent => (r.parent.map ParentFilter.asks).getD []
  | .authors => asksOneOf "post_author.id" (r.authors.map .ofUInt64)
  | .excludedAuthors =>
    (asksOneOf "post_author.id" (r.excludedAuthors.map .ofUInt64)).map Condition.negate
  | .names => asksOneOf "post_name.raw" (r.names.map .string)

theorem Dimension.exists_iff {P : Dimension → Prop} :
    (∃ d, P d) ↔ P .type ∨ P .status ∨ P .taxonomies ∨ P .categories ∨ P .tags ∨ P .ids
      ∨ P .excludedIds ∨ P .mimeType ∨ P .fields ∨ P .dates ∨ P .parent ∨ P .authors
      ∨ P .excludedAuthors ∨ P .names := by
  constructor
  · rintro ⟨d, h⟩
    cases d <;> simp only [h, true_or, or_true]
  · rintro (h | h | h | h | h | h | h | h | h | h | h | h | h | h) <;> exact ⟨_, h⟩

/-! ## The filter -/

/-- The result of a query on custom fields, or nothing. -/
theorem toList_orDropped_filter? (q : MetaQuery) (limit : Nat) :
    (orDropped none (q.filter? limit)).toList.map Clause.condition =
      if q.depth ≤ limit then q.condition?.toList else [] := by
  split
  next h =>
    obtain ⟨cs, hcs, hmap⟩ := MetaQuery.clauses_conditions h
    rw [MetaQuery.filter?, hcs, MetaQuery.condition?, ← hmap,
      ← Clause.map_condition_toList_combine]
    rfl
  next h =>
    rw [MetaQuery.filter?_too_deep (by omega)]
    rfl

theorem map_condition_orDropped_clauses (q : DateQuery) (now : Moment) (limit : Nat) :
    (orDropped [] (q.clauses now limit)).map Clause.condition =
      if q.depth ≤ limit then q.conditions now else [] := by
  split
  next h =>
    obtain ⟨cs, hcs, hmap⟩ := DateQuery.clauses_conditions now h
    rw [hcs, ← hmap]
    rfl
  next h =>
    rw [DateQuery.clauses_too_deep now (by omega)]
    rfl

theorem map_condition_valueClause? (field : String) (v : ValueFilter) :
    (v.clause? field).toList.map Clause.condition = v.asks field := by
  cases v <;> rfl

theorem map_condition_mimeClause? (m : MimeFilter) :
    m.clause?.toList.map Clause.condition = m.asks := by
  rcases m with _ | (_ | _) <;> rfl

theorem map_condition_idClause? (field : String) (ids : List UInt64) :
    (idClause? field ids).toList.map Clause.condition = asksOneOf field (ids.map .ofUInt64) := by
  cases ids <;> rfl

theorem map_condition_slugClause? (taxonomy : String) (slugs : List String) :
    (slugClause? taxonomy slugs).toList.map Clause.condition =
      asksOneOf ("terms." ++ taxonomy ++ ".slug") (slugs.map .string) := by
  cases slugs <;> rfl

namespace Request

variable (r : Request) (c : Config) (privileged : Bool) (now : Moment)

theorem mem_asks_taxonomies (f : Condition) :
    f ∈ ((r.taxQuery.map TaxQuery.compound).getD {}).asks ↔
      f ∈ r.asks c privileged now .taxonomies := by
  rw [asks]
  cases r.taxQuery with
  | none => rfl
  | some q => exact q.mem_asks_compound f

theorem map_condition_metaClause :
    (r.metaQuery.bind fun q => orDropped none (q.filter? c.maxQueryDepth.toNat)).toList.map
        Clause.condition =
      r.asks c privileged now .fields := by
  rw [asks]
  cases r.metaQuery with
  | none => rfl
  | some q => exact toList_orDropped_filter? q _

theorem map_condition_dateClauses :
    ((r.dateQuery.map fun q => orDropped [] (q.clauses now c.maxQueryDepth.toNat)).getD []).map
        Clause.condition =
      r.asks c privileged now .dates := by
  rw [asks]
  cases r.dateQuery with
  | none => rfl
  | some q => exact map_condition_orDropped_clauses q now _

theorem map_condition_typeClause :
    (r.type.bind (ValueFilter.clause? "post_type.raw")).toList.map Clause.condition =
      r.asks c privileged now .type := by
  rw [asks]
  cases r.type with
  | none => rfl
  | some v => exact map_condition_valueClause? _ v

theorem map_condition_mimeTypeClause :
    (r.mimeType.bind MimeFilter.clause?).toList.map Clause.condition =
      r.asks c privileged now .mimeType := by
  rw [asks]
  cases r.mimeType with
  | none => rfl
  | some m => exact map_condition_mimeClause? m

theorem map_condition_parentClause :
    (match r.parent with
      | some (.id p) => some (Clause.term "post_parent" (.ofUInt64 p))
      | _ => none).toList.map Clause.condition = r.asks c privileged now .parent := by
  rw [asks]
  rcases r.parent with _ | _ | _ <;> rfl

theorem map_condition_namesClause :
    (if r.names.isEmpty then none
      else some (Clause.terms "post_name.raw" (r.names.map .string))).toList.map Clause.condition =
      r.asks c privileged now .names := by
  rw [asks]
  cases r.names <;> rfl

theorem map_condition_must :
    (r.membership c privileged now).must.map Clause.condition =
      r.asks c privileged now .type ++ r.asks c privileged now .status
        ++ ((r.taxQuery.map TaxQuery.compound).getD {}).must.map Clause.condition
        ++ r.asks c privileged now .categories ++ r.asks c privileged now .tags
        ++ r.asks c privileged now .ids ++ r.asks c privileged now .mimeType
        ++ r.asks c privileged now .fields ++ r.asks c privileged now .dates
        ++ r.asks c privileged now .parent ++ r.asks c privileged now .authors
        ++ r.asks c privileged now .names := by
  rw [← map_condition_typeClause, ← map_condition_mimeTypeClause, ← map_condition_metaClause,
    ← map_condition_dateClauses, ← map_condition_parentClause, ← map_condition_namesClause]
  simp only [asks, ← map_condition_valueClause?, ← map_condition_idClause?,
    ← List.map_append]
  simp only [membership, List.map_append, map_condition_slugClause?]
  rfl

theorem map_condition_mustNot :
    ((r.membership c privileged now).mustNot.map fun c => c.condition.negate) =
      (((r.taxQuery.map TaxQuery.compound).getD {}).mustNot.map fun c => c.condition.negate)
        ++ r.asks c privileged now .excludedIds ++ r.asks c privileged now .excludedAuthors := by
  simp only [membership, List.map_append, asks, ← map_condition_idClause?, List.map_map]
  rfl

/-- The compound asks for what the parts of the request ask for, and for nothing else. -/
theorem mem_asks_membership (f : Condition) :
    f ∈ (r.membership c privileged now).asks ↔ ∃ d, f ∈ r.asks c privileged now d := by
  have htax := r.mem_asks_taxonomies c privileged now f
  rw [Compound.asks, List.mem_append] at htax
  rw [Dimension.exists_iff, ← htax, Compound.asks, map_condition_must, map_condition_mustNot]
  simp only [List.mem_append, or_assoc, or_comm, or_left_comm]

/-- A query on custom fields that is nested too deep is compiled as if it were not there. -/
theorem compile_of_deep_metaQuery (hooks : Hooks) {q : MetaQuery} (hq : r.metaQuery = some q)
    (h : c.maxQueryDepth.toNat < q.depth) :
    compile c hooks r privileged now =
      compile c hooks { r with metaQuery := none } privileged now := by
  have hmembership : r.membership c privileged now =
      { r with metaQuery := none }.membership c privileged now := by
    simp only [membership, hq, Option.bind_some, Option.bind_none]
    rw [MetaQuery.filter?_too_deep h]
    rfl
  rw [compile, compile, hmembership]
  rfl

/-- A query on dates that is nested too deep is compiled as if it were not there. -/
theorem compile_of_deep_dateQuery (hooks : Hooks) {q : DateQuery} (hq : r.dateQuery = some q)
    (h : c.maxQueryDepth.toNat < q.depth) :
    compile c hooks r privileged now =
      compile c hooks { r with dateQuery := none } privileged now := by
  have hmembership : r.membership c privileged now =
      { r with dateQuery := none }.membership c privileged now := by
    simp only [membership, hq, Option.map_some, Option.map_none, Option.getD_some, Option.getD_none]
    rw [DateQuery.clauses_too_deep now h]
    rfl
  rw [compile, compile, hmembership]
  rfl

end Request

/-- The filter on the results is the conjunction of what the parts of the request ask for. A tree
that is nested too deep takes nothing away but itself. -/
theorem postFilter_of_asks (r : Request) (c : Config) (privileged : Bool) (now : Moment) :
    let post := (compile c [] r privileged now).postFilter
    (post = none ↔ ∀ d, r.asks c privileged now d = []) ∧
      (∀ filter, post = some filter → ∃ parts, filter = .bool parts ∧
        parts.should = [] ∧ parts.filter = [] ∧
        ∀ leaf, filter.condition leaf = true ↔
          ∀ d, ∀ f ∈ r.asks c privileged now d, f leaf = true) ∧
      (∀ q, r.metaQuery = some q → c.maxQueryDepth.toNat < q.depth →
        compile c [] r privileged now =
          compile c [] { r with metaQuery := none } privileged now) ∧
      (∀ q, r.dateQuery = some q → c.maxQueryDepth.toNat < q.depth →
        compile c [] r privileged now =
          compile c [] { r with dateQuery := none } privileged now) := by
  intro post
  let membership := r.membership c privileged now
  have hpost : post = if membership.isEmpty then none else some (.bool membership) := rfl
  have hasks := r.mem_asks_membership c privileged now
  refine ⟨?_, fun filter hfilter => ?_,
    fun q hq h => r.compile_of_deep_metaQuery c privileged now [] hq h,
    fun q hq h => r.compile_of_deep_dateQuery c privileged now [] hq h⟩
  · have hnil : membership.isEmpty = true ↔ ∀ d, r.asks c privileged now d = [] := by
      rw [Compound.isEmpty_iff rfl rfl]
      simp only [List.eq_nil_iff_forall_not_mem, membership, hasks, not_exists]
      exact forall_comm
    rw [← hnil, hpost]
    split <;> simp_all
  · rw [hpost] at hfilter
    split at hfilter
    · cases hfilter
    · cases hfilter
      refine ⟨membership, rfl, rfl, rfl, fun leaf => ?_⟩
      rw [Compound.condition_eq_true_iff rfl rfl]
      simp only [membership, hasks, forall_exists_index]
      exact forall_comm

/-- Where one group is too deep, the filter still asks for a status and against an item. -/
theorem postFilter_of_asks_deep_group :
    let c : Config := { maxQueryDepth := 0 }
    let q : MetaQuery := ⟨.and, [.group .or [.predicate (.present "colour")]]⟩
    let r : Request := { metaQuery := some q, excludedIds := [7] }
    let now : Moment := .epoch
    c.maxQueryDepth.toNat < q.depth ∧
      compile c [] r false now = compile c [] { r with metaQuery := none } false now ∧
      ∃ filter, (compile c [] r false now).postFilter = some filter ∧
        ∀ leaf, filter.condition leaf = true ↔
          leaf (.term "post_status" (.string "publish")) = true ∧
            leaf (.terms "post_id" [.ofUInt64 7]) = false := by
  intro c q r now
  have hdeep : c.maxQueryDepth.toNat < q.depth := by decide
  obtain ⟨-, hsome, hmeta, -⟩ := postFilter_of_asks r c false now
  obtain ⟨_, -, -, -, hcond⟩ := hsome _ rfl
  have hasks (leaf : Clause → Bool) : (∀ d, ∀ f ∈ r.asks c false now d, f leaf = true) ↔
      leaf (.term "post_status" (.string "publish")) = true ∧
        leaf (.terms "post_id" [.ofUInt64 7]) = false := by
    constructor
    · intro h
      have hexcluded : (!leaf (.terms "post_id" [.ofUInt64 7])) = true :=
        h .excludedIds _ (List.mem_singleton.mpr rfl)
      exact ⟨h .status _ (List.mem_singleton.mpr rfl), by simpa using hexcluded⟩
    · rintro ⟨hstatus, hexcluded⟩ d f hf
      cases d with
      | status =>
        obtain rfl := List.mem_singleton.mp hf
        exact hstatus
      | excludedIds =>
        obtain rfl := List.mem_singleton.mp hf
        exact congrArg (!·) hexcluded
      | _ => exact absurd hf List.not_mem_nil
  exact ⟨hdeep, hmeta q rfl hdeep, _, rfl, fun leaf => (hcond leaf).trans (hasks leaf)⟩

end ContentIndex.Query
