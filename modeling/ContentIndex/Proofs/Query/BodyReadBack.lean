import ContentIndex.Proofs.Query.MetaTree
import ContentIndex.Proofs.Query.ReadBack
import ContentIndex.Query.Compiler

/-
  Which compiled requests are read back as they were written. A search body is, exactly if its two
  clauses are (`CompiledQuery.readsBack_iff_clauses`): page, order and aggregations always come
  back. Of the clauses that a request is compiled into, only those for texts in custom fields can
  fail to: a predicate LIKE or NOT LIKE takes its text from the request as it is, and an object
  with a member "query" is then taken for a match with options. `compile_read_back_iff` says that
  there is no other way for a request to be lost, if the boosts of the settings are finite numbers.
-/

namespace ContentIndex.Query

open Json (Value Members)
open Calendar (Moment)

/-! ## Bodies -/

theorem SortOrder.named_text (o : SortOrder) : SortOrder.named o.text = o := by
  cases o <;> decide +kernel

theorem SortField.read?_toJson (s : SortField) : SortField.read? s.toJson = .ok s := by
  obtain ⟨field, order⟩ := s
  simp [SortField.toJson, single, SortField.read?, Value.get?, Value.string?,
    SortOrder.named_text]

theorem SortField.mapM_read?_toJson (l : List SortField) :
    (l.map SortField.toJson).mapM SortField.read? = .ok l := by
  induction l with
  | nil => rfl
  | cons s l ih =>
    rw [List.map_cons, List.mapM_cons, SortField.read?_toJson, ih]
    rfl

namespace CompiledQuery

theorem clauseMember?_eq_ok_iff {name : String} {ms : Members} {o : Option Clause}
    (h : Entries.find? name ms = o.map Clause.toJson) :
    clauseMember? name ms = .ok o ↔ ∀ c, o = some c → c.ReadsBack := by
  rw [clauseMember?, h]
  cases o with
  | none => simp
  | some c =>
    simp only [Option.map_some, Option.some.injEq, forall_eq', Clause.ReadsBack]
    cases Clause.ofJson? c.toJson <;> simp [Except.map]

/-- A body is read back exactly if its clauses are. -/
theorem readsBack_iff_clauses (q : CompiledQuery) :
    ofJson? q.toJson = .ok q ↔
      (∀ c, q.query = some c → c.ReadsBack) ∧ ∀ c, q.postFilter = some c → c.ReadsBack := by
  obtain ⟨start, size, sort, query, postFilter, aggregations⟩ := q
  rw [toJson]
  dsimp only
  generalize hms : member? "aggs" id aggregations ++ [("from", Value.ofUInt64 start)]
    ++ member? "post_filter" Clause.toJson postFilter ++ member? "query" Clause.toJson query
    ++ [("size", Value.ofUInt64 size)] ++ listMember "sort" (sort.map SortField.toJson) = ms
  have hstart : (Entries.find? "from" ms).bind Value.uint64? = some start := by
    simp [← hms, Entries.find?_append, Entries.find?, Value.ofUInt64, Value.uint64?]
  have hsize : (Entries.find? "size" ms).bind Value.uint64? = some size := by
    simp [← hms, Entries.find?_append, Entries.find?, Value.ofUInt64, Value.uint64?]
  have hsort : (((Entries.find? "sort" ms).bind Value.items?).getD []) =
      sort.map SortField.toJson := by
    cases sort <;> simp [← hms, Entries.find?_append, Entries.find?, Value.items?]
  have hquery : Entries.find? "query" ms = query.map Clause.toJson := by
    simp [← hms, Entries.find?_append, Entries.find?]
  have hfilter : Entries.find? "post_filter" ms = postFilter.map Clause.toJson := by
    simp [← hms, Entries.find?_append, Entries.find?]
  have haggs : Entries.find? "aggs" ms = aggregations := by
    simp [← hms, Entries.find?_append, Entries.find?]
  rw [← clauseMember?_eq_ok_iff hquery, ← clauseMember?_eq_ok_iff hfilter, ofJson?]
  simp only [hstart, hsize, hsort, haggs, SortField.mapM_read?_toJson, Option.getD_some]
  cases clauseMember? "query" ms <;> cases clauseMember? "post_filter" ms <;>
    simp [bind, Except.bind]

end CompiledQuery

/-! ## Predicates on custom fields -/

namespace MetaPredicate

/-- The predicate is about a text in a field. -/
def IsLike (p : MetaPredicate) : Prop :=
  p.compare = .like ∨ p.compare = .notLike

/-- The predicate is about a text, and an object with a member "query" stands for that text. -/
def Ambiguous (p : MetaPredicate) : Prop :=
  p.IsLike ∧ ∃ v text, p.value = some v ∧ comparand? v = some text ∧ text.get? "query" ≠ none

theorem test?_of_isLike {p : MetaPredicate} (hp : p.IsLike) {test : Clause}
    (h : p.test? = some test) :
    ∃ v text, p.value = some v ∧ comparand? v = some text ∧
      test = .matching (metaPath p.key p.compare p.type) text none := by
  obtain ⟨key, value, compare, type⟩ := p
  cases value with
  | none => rcases hp with rfl | rfl <;> cases h
  | some v =>
    rcases hp with rfl | rfl <;>
    · obtain ⟨text, htext, rfl⟩ := Option.map_eq_some_iff.mp h
      exact ⟨v, text, rfl, htext, rfl⟩

theorem readsBack_of_not_isLike {p : MetaPredicate} (hp : ¬ p.IsLike) {test : Clause}
    (h : p.test? = some test) : test.ReadsBack := by
  obtain ⟨key, value, compare, type⟩ := p
  cases value with
  | none =>
    cases compare with
    | present | absent =>
      cases h
      exact Clause.readsBack_present _
    | _ => cases h
  | some v =>
    cases compare with
    | present | absent =>
      cases h
      exact Clause.readsBack_present _
    | equals | notEquals | oneOf | noneOf =>
      cases h
      exact Clause.readsBack_terms _ _
    | greater | greaterEq | less | lessEq =>
      obtain ⟨w, -, rfl⟩ := Option.map_eq_some_iff.mp h
      exact Clause.readsBack_range _ _
    | between | notBetween =>
      -- only a list of two items is a range
      rcases v with _ | _ | _ | _ | (_ | ⟨low, _ | ⟨high, _ | _⟩⟩) | _ <;> cases h
      exact Clause.readsBack_range _ _
    | like => exact absurd (.inl rfl) hp
    | notLike => exact absurd (.inr rfl) hp

theorem readsBack_test?_iff {p : MetaPredicate} {test : Clause} (h : p.test? = some test) :
    test.ReadsBack ↔ ¬ p.Ambiguous := by
  by_cases hp : p.IsLike
  · obtain ⟨v, text, hv, htext, rfl⟩ := test?_of_isLike hp h
    simp [Ambiguous, hp, hv, htext]
  · exact iff_of_true (readsBack_of_not_isLike hp h) fun ha => hp ha.1

theorem readsBack_clause?_iff (p : MetaPredicate) :
    Clause.AllReadBack p.clause?.toList ↔ ¬ p.Ambiguous := by
  rw [clause?_eq_test?]
  cases h : p.test? with
  | some test =>
    rw [← readsBack_test?_iff h]
    cases p.compare.isNegative <;> simp
  | none =>
    refine iff_of_true (by simp) ?_
    rintro ⟨hp, v, text, hv, htext, -⟩
    obtain ⟨key, value, compare, type⟩ := p
    cases hv
    rcases hp with rfl | rfl <;> simp [test?, htext] at h

end MetaPredicate

namespace MetaItem

variable {limit depth : Nat}

theorem clause?_group_eq_ok {relation : Relation} {items : List MetaItem} {o : Option Clause}
    (h : clause? limit depth (.group relation items) = .ok o) :
    ∃ cs, clauses limit (depth + 1) items = .ok cs ∧ o = Clause.combine relation cs := by
  rw [clause?] at h
  split at h
  · cases h
  · cases hcs : clauses limit (depth + 1) items with
    | error e => rw [hcs] at h; cases h
    | ok cs =>
      rw [hcs] at h
      exact ⟨cs, rfl, (Except.ok.inj h).symm⟩

theorem clauses_cons_eq_ok {i : MetaItem} {is : List MetaItem} {cs : List Clause}
    (h : clauses limit depth (i :: is) = .ok cs) :
    ∃ o rest, i.clause? limit depth = .ok o ∧ clauses limit depth is = .ok rest ∧
      cs = o.toList ++ rest := by
  rw [clauses] at h
  cases ho : i.clause? limit depth with
  | error e => rw [ho] at h; cases h
  | ok o =>
    cases hrest : clauses limit depth is with
    | error e => rw [ho, hrest] at h; cases h
    | ok rest =>
      rw [ho, hrest] at h
      exact ⟨o, rest, rfl, rfl, (Except.ok.inj h).symm⟩

mutual
theorem readsBack_clause?_iff : (depth : Nat) → (i : MetaItem) → {o : Option Clause} →
    i.clause? limit depth = .ok o →
    (Clause.AllReadBack o.toList ↔ ∀ p ∈ i.predicates, ¬ p.Ambiguous)
  | _, .predicate p, o, h => by
    rw [clause?] at h
    obtain rfl := Except.ok.inj h
    rw [p.readsBack_clause?_iff, predicates, List.forall_mem_singleton]
  | d, .group relation items, o, h => by
    obtain ⟨cs, hcs, rfl⟩ := clause?_group_eq_ok h
    rw [Clause.allReadBack_combine_iff, readsBack_clauses_iff (d + 1) items hcs, predicates]

theorem readsBack_clauses_iff : (depth : Nat) → (is : List MetaItem) → {cs : List Clause} →
    clauses limit depth is = .ok cs →
    (Clause.AllReadBack cs ↔ ∀ p ∈ predicatesOf is, ¬ p.Ambiguous)
  | _, [], cs, h => by
    rw [clauses] at h
    obtain rfl := Except.ok.inj h
    simp [predicatesOf]
  | d, i :: is, cs, h => by
    obtain ⟨o, rest, ho, hrest, rfl⟩ := clauses_cons_eq_ok h
    rw [Clause.allReadBack_append, readsBack_clause?_iff d i ho, readsBack_clauses_iff d is hrest,
      predicatesOf, List.forall_mem_append]
end

end MetaItem

/-- The predicates of a query, at any depth. -/
def MetaQuery.predicates (q : MetaQuery) : List MetaPredicate :=
  MetaItem.predicatesOf q.items

/-- A query that is not nested too deep is read back unless one of its predicates is ambiguous. -/
theorem MetaQuery.readsBack_filter?_iff (q : MetaQuery) (limit : Nat) :
    Clause.AllReadBack (orDropped none (q.filter? limit)).toList ↔
      (q.depth ≤ limit → ∀ p ∈ q.predicates, ¬ p.Ambiguous) := by
  by_cases h : q.depth ≤ limit
  · obtain ⟨cs, hcs, -⟩ := clauses_conditions h
    have hitems : MetaItem.clauses limit 0 q.items = .ok cs := by
      rwa [clauses, if_neg (Nat.not_lt_zero _)] at hcs
    rw [filter?, hcs]
    simp only [h, true_imp_iff]
    exact (Clause.allReadBack_combine_iff q.relation cs).trans
      (MetaItem.readsBack_clauses_iff 0 q.items hitems)
  · rw [filter?_too_deep (Nat.lt_of_not_le h)]
    simp [orDropped, h]

/-! ## Dates -/

theorem readsBack_of_between? {field : String} {v : Value} {c : Clause}
    (h : between? field v = some c) : c.ReadsBack := by
  unfold between? at h
  split at h
  · cases h
    exact Clause.readsBack_range _ _
  · cases h

theorem readsBack_of_unitClause? {u : DateUnit} {compare : Option Comparator} {v : Value}
    {c : Clause} (h : unitClause? u compare v = some c) : c.ReadsBack := by
  unfold unitClause? at h
  generalize compare.getD (if v.isArray then .oneOf else .equals) = k at h
  cases k with
  | greater | greaterEq | less | lessEq =>
    obtain ⟨w, -, rfl⟩ := Option.map_eq_some_iff.mp h
    exact Clause.readsBack_range _ _
  | between => exact readsBack_of_between? h
  | notBetween =>
    obtain ⟨range, hrange, rfl⟩ := Option.map_eq_some_iff.mp h
    exact (Clause.readsBack_negate_iff range).mpr (readsBack_of_between? hrange)
  | notEquals | noneOf =>
    cases h
    exact (Clause.readsBack_negate_iff _).mpr (Clause.readsBack_terms _ _)
  | oneOf =>
    cases h
    exact Clause.readsBack_terms _ _
  | equals =>
    cases v with
    | null => cases h
    | array vs =>
      cases h
      exact Clause.readsBack_terms _ _
    | _ =>
      cases h
      exact Clause.readsBack_term _ _
  | like | notLike | present | absent => cases h

theorem readsBack_unitTerms (units : List (DateUnit × Int64)) :
    Clause.AllReadBack (unitTerms units) := by
  rw [unitTerms, Clause.AllReadBack, List.forall_mem_map]
  exact fun _ _ => Clause.readsBack_term _ _

theorem DatePredicate.readsBack_of_range? {p : DatePredicate} {now : Moment} {column : String}
    {c : Clause} (h : p.range? now column = some c) : c.ReadsBack := by
  unfold range? at h
  dsimp only at h
  split at h
  · cases h
  · split at h <;> (cases h; exact Clause.readsBack_range _ _)

theorem DatePredicate.readsBack_clauses (p : DatePredicate) (now : Moment) (outer : String) :
    Clause.AllReadBack (p.clauses now outer) := by
  rw [clauses, Clause.allReadBack_append]
  refine ⟨fun c hc => readsBack_of_range? (Option.mem_toList.mp hc), fun c hc => ?_⟩
  obtain ⟨u, -, hu⟩ := List.mem_filterMap.mp hc
  exact readsBack_of_unitClause? hu

namespace DateItem

variable {now : Moment} {limit depth : Nat} {outer : String}

theorem clauses_group_eq_ok {relation : Relation} {column : Option String}
    {units : List (DateUnit × Int64)} {items : List DateItem} {cs : List Clause}
    (h : clauses now limit outer depth (.group relation column units items) = .ok cs) :
    ∃ l, clauseLists now limit (resolveColumn column outer) (depth + 1) items = .ok l ∧
      cs = (Clause.combine .and (unitTerms units ++ l.flatten)).toList := by
  rw [clauses] at h
  split at h
  · cases h
  · cases hl : clauseLists now limit (resolveColumn column outer) (depth + 1) items with
    | error e => rw [hl] at h; cases h
    | ok l =>
      rw [hl] at h
      exact ⟨l, rfl, (Except.ok.inj h).symm⟩

theorem clauseLists_cons_eq_ok {i : DateItem} {is : List DateItem} {l : List (List Clause)}
    (h : clauseLists now limit outer depth (i :: is) = .ok l) :
    ∃ cs rest, i.clauses now limit outer depth = .ok cs ∧
      clauseLists now limit outer depth is = .ok rest ∧
      l = if cs.isEmpty then rest else cs :: rest := by
  rw [clauseLists] at h
  cases hcs : i.clauses now limit outer depth with
  | error e => rw [hcs] at h; cases h
  | ok cs =>
    cases hrest : clauseLists now limit outer depth is with
    | error e => rw [hcs, hrest] at h; cases h
    | ok rest =>
      rw [hcs, hrest] at h
      exact ⟨cs, rest, rfl, rfl, (Except.ok.inj h).symm⟩

mutual
theorem readsBack_clauses : (outer : String) → (depth : Nat) → (i : DateItem) →
    {cs : List Clause} → i.clauses now limit outer depth = .ok cs → Clause.AllReadBack cs
  | outer, _, .predicate p, cs, h => by
    rw [clauses] at h
    obtain rfl := Except.ok.inj h
    exact p.readsBack_clauses now outer
  | outer, d, .group _ column units items, cs, h => by
    obtain ⟨l, hl, rfl⟩ := clauses_group_eq_ok h
    rw [Clause.allReadBack_combine_iff, Clause.allReadBack_append]
    exact ⟨readsBack_unitTerms units, readsBack_clauseLists _ (d + 1) items hl⟩

theorem readsBack_clauseLists : (outer : String) → (depth : Nat) → (is : List DateItem) →
    {l : List (List Clause)} → clauseLists now limit outer depth is = .ok l →
    Clause.AllReadBack l.flatten
  | _, _, [], l, h => by
    rw [clauseLists] at h
    obtain rfl := Except.ok.inj h
    exact Clause.allReadBack_nil
  | outer, d, i :: is, l, h => by
    obtain ⟨cs, rest, hcs, hrest, rfl⟩ := clauseLists_cons_eq_ok h
    have hhead := readsBack_clauses outer d i hcs
    have htail := readsBack_clauseLists outer d is hrest
    split
    · exact htail
    · rw [List.flatten_cons, Clause.allReadBack_append]
      exact ⟨hhead, htail⟩
end

end DateItem

theorem DateQuery.readsBack_clauses (q : DateQuery) (now : Moment) (limit : Nat) :
    Clause.AllReadBack (orDropped [] (q.clauses now limit)) := by
  rw [clauses]
  cases hl : DateItem.clauseLists now limit (resolveColumn q.column "post_date") 0 q.items with
  | error e => exact Clause.allReadBack_nil
  | ok l =>
    have hitems := DateItem.readsBack_clauseLists _ 0 q.items hl
    refine Clause.allReadBack_append.mpr ⟨readsBack_unitTerms q.units, ?_⟩
    cases q.relation with
    | and => exact hitems
    | or =>
      dsimp only
      rw [Clause.allReadBack_combine_iff]
      intro c hc
      obtain ⟨cs, hcs, hc⟩ := List.mem_filterMap.mp hc
      have hparts := (Clause.allReadBack_combine_iff .and cs).mpr fun x hx =>
        hitems x (List.mem_flatten.mpr ⟨cs, hcs, hx⟩)
      exact hparts c (Option.mem_toList.mpr hc)

/-! ## Taxonomies and lists of values -/

def Demand.clause : Demand → Clause
  | .holds c | .fails c => c

theorem TaxPredicate.readsBack_of_demand? {p : TaxPredicate} {d : Demand}
    (h : p.demand? = some d) : d.clause.ReadsBack := by
  obtain ⟨taxonomy, terms, field, operator⟩ := p
  simp only [demand?] at h
  split at h
  · cases h
  · cases operator with
    | present | absent =>
      cases h
      exact Clause.readsBack_present _
    | oneOf | noneOf =>
      cases terms with
      | nil => cases h
      | cons t ts =>
        cases h
        exact Clause.readsBack_terms _ _
    | allOf =>
      cases terms with
      | nil => cases h
      | cons t ts =>
        cases h
        rw [Demand.clause, Clause.readsBack_bool_iff]
        refine ⟨?_, Clause.allReadBack_nil, Clause.allReadBack_nil, Clause.allReadBack_nil⟩
        rw [Clause.AllReadBack, List.forall_mem_map]
        exact fun _ _ => Clause.readsBack_term _ _

theorem TaxQuery.readsBack_compound (q : TaxQuery) :
    Clause.AllReadBack q.compound.must ∧ Clause.AllReadBack q.compound.mustNot := by
  have hdemands : ∀ d ∈ q.predicates.filterMap TaxPredicate.demand?, d.clause.ReadsBack := by
    intro d hd
    obtain ⟨p, -, hp⟩ := List.mem_filterMap.mp hd
    exact TaxPredicate.readsBack_of_demand? hp
  unfold compound
  generalize q.predicates.filterMap TaxPredicate.demand? = demands at hdemands ⊢
  have hpositive : Clause.AllReadBack (demands.filterMap Demand.positive?) := by
    intro c hc
    obtain ⟨d, hd, h⟩ := List.mem_filterMap.mp hc
    cases d <;> cases h
    exact hdemands _ hd
  have hnegative : Clause.AllReadBack (demands.filterMap Demand.negative?) := by
    intro c hc
    obtain ⟨d, hd, h⟩ := List.mem_filterMap.mp hc
    cases d <;> cases h
    exact hdemands _ hd
  cases q.relation with
  | and => exact ⟨hpositive, hnegative⟩
  | or =>
    dsimp only
    split
    · simp
    · have hnegated :
          Clause.AllReadBack ((demands.filterMap Demand.negative?).map Clause.negate) := by
        rw [Clause.AllReadBack, List.forall_mem_map]
        exact fun c hc => (Clause.readsBack_negate_iff c).mpr (hnegative c hc)
      simp [hpositive, hnegated]

theorem readsBack_valueClause? (field : String) (v : ValueFilter) :
    Clause.AllReadBack (v.clause? field).toList := by
  cases v <;> simp [ValueFilter.clause?]

theorem readsBack_mimeClause? (m : MimeFilter) : Clause.AllReadBack m.clause?.toList := by
  rcases m with _ | (_ | _) <;> simp [MimeFilter.clause?]

theorem readsBack_idClause? (field : String) (ids : List UInt64) :
    Clause.AllReadBack (idClause? field ids).toList := by
  cases ids <;> simp [idClause?]

theorem readsBack_slugClause? (taxonomy : String) (slugs : List String) :
    Clause.AllReadBack (slugClause? taxonomy slugs).toList := by
  cases slugs <;> simp [slugClause?]

/-! ## Requests -/

namespace Request

variable (r : Request) (c : Config) (privileged : Bool) (now : Moment)

/-- No text that the request looks for in a custom field is taken for a match with options. A query
that is nested too deep is left out, and so does not count. -/
def Unambiguous (r : Request) (c : Config) : Prop :=
  ∀ q, r.metaQuery = some q → q.depth ≤ c.maxQueryDepth.toNat →
    ∀ p ∈ q.predicates, ¬ p.Ambiguous

theorem readsBack_metaClause_iff :
    Clause.AllReadBack
        (r.metaQuery.bind fun q => orDropped none (q.filter? c.maxQueryDepth.toNat)).toList ↔
      r.Unambiguous c := by
  rw [Unambiguous]
  cases r.metaQuery with
  | none => simp
  | some q => simpa using q.readsBack_filter?_iff c.maxQueryDepth.toNat

theorem readsBack_must_iff :
    Clause.AllReadBack (r.membership c privileged now).must ↔ r.Unambiguous c := by
  have htype : Clause.AllReadBack (r.type.bind (ValueFilter.clause? "post_type.raw")).toList := by
    cases r.type with
    | none => simp
    | some v => exact readsBack_valueClause? _ v
  have htax : Clause.AllReadBack ((r.taxQuery.map TaxQuery.compound).getD {}).must := by
    cases r.taxQuery with
    | none => simp
    | some q => exact q.readsBack_compound.1
  have hmime : Clause.AllReadBack (r.mimeType.bind MimeFilter.clause?).toList := by
    cases r.mimeType with
    | none => simp
    | some m => exact readsBack_mimeClause? m
  have hdates : Clause.AllReadBack ((r.dateQuery.map fun q =>
      orDropped [] (q.clauses now c.maxQueryDepth.toNat)).getD []) := by
    cases r.dateQuery with
    | none => simp
    | some q => exact q.readsBack_clauses now _
  have hnames : Clause.AllReadBack (if r.names.isEmpty then none
      else some (Clause.terms "post_name.raw" (r.names.map .string))).toList := by
    cases r.names <;> simp
  unfold membership
  simp only [Clause.allReadBack_append, htype, htax, hmime, hdates, hnames,
    readsBack_valueClause?, readsBack_slugClause?, readsBack_idClause?, true_and, and_true]
  refine (and_iff_left ?_).trans (r.readsBack_metaClause_iff c)
  rcases r.parent with _ | _ | _ <;> simp

theorem readsBack_mustNot : Clause.AllReadBack (r.membership c privileged now).mustNot := by
  have htax : Clause.AllReadBack ((r.taxQuery.map TaxQuery.compound).getD {}).mustNot := by
    cases r.taxQuery with
    | none => simp
    | some q => exact q.readsBack_compound.2
  unfold membership
  simp only [Clause.allReadBack_append]
  exact ⟨⟨htax, readsBack_idClause? _ _⟩, readsBack_idClause? _ _⟩

theorem readsBack_membership_iff :
    (Clause.bool (r.membership c privileged now)).ReadsBack ↔ r.Unambiguous c := by
  have hnot := r.readsBack_mustNot c privileged now
  have hshould : (r.membership c privileged now).should = [] := rfl
  have hfilter : (r.membership c privileged now).filter = [] := rfl
  simp [readsBack_must_iff, hshould, hfilter, hnot]

end Request

/-! ## Relevance -/

section Relevance

variable {c : Config} (hphrase : c.phraseBoost.isFinite = true) (hand : c.andBoost.isFinite = true)
  (r : Request)

include hphrase hand

theorem readsBack_of_textQuery {q : Clause} (h : textQuery c r = some q) : q.ReadsBack := by
  unfold textQuery at h
  split at h
  · split at h
    · cases h
      have hone : (Number.Double.ofNat 1).isFinite = true := by decide +kernel
      simp [hone]
    · cases h
  · cases h
    simp [hphrase, hand]

/-- If the boosts are finite, what decides relevance is read back, with and without random
scores. -/
theorem readsBack_query {privileged : Bool} {now : Moment} {q : Clause}
    (h : (compile c [] r privileged now).query = some q) : q.ReadsBack := by
  have htext : ∀ t, textQuery c r = some t → t.ReadsBack :=
    fun _ => readsBack_of_textQuery hphrase hand r
  unfold compile at h
  cases hplan : r.sortPlan with
  | fields fs =>
    rw [hplan] at h
    exact htext q h
  | random =>
    rw [hplan] at h
    obtain rfl := Option.some.inj h
    rw [Clause.randomized, Clause.readsBack_functionScore_iff]
    cases ht : textQuery c r with
    | none => simp
    | some t => exact htext t ht

end Relevance

theorem readsBack_postFilter_iff (c : Config) (r : Request) (privileged : Bool) (now : Moment) :
    (∀ x, (compile c [] r privileged now).postFilter = some x → x.ReadsBack) ↔
      r.Unambiguous c := by
  rw [← r.readsBack_membership_iff c privileged now]
  have hpost : (compile c [] r privileged now).postFilter =
      if (r.membership c privileged now).isEmpty then none
      else some (.bool (r.membership c privileged now)) := rfl
  rw [hpost]
  split
  case isTrue hempty => exact iff_of_true (by simp) (Clause.readsBack_of_isEmpty hempty)
  case isFalse => simp

/-- The arguments of a host that looks for a text in a custom field. -/
def likeArgs (text : Value) : Value :=
  .object [("meta_query", .array [
    .object [("compare", .string "LIKE"), ("key", .string "author"), ("value", text)]])]

theorem metaQuery_likeArgs (ms : Members) :
    (Request.read (likeArgs (.object ms))).metaQuery =
      some ⟨.and, [.predicate ⟨"author", some (.object ms), .like, none⟩]⟩ := by
  have hcompare : Comparator.named "LIKE" = .like := by decide +kernel
  simp [likeArgs, Request.read, Request.ofMembers, Entries.find?, MetaQuery.read, MetaItem.readList,
    MetaItem.read?, readPredicate?, Value.scalarText?, Value.string?, Value.isNull,
    MetaQuery.isEmpty, hcompare]

theorem unambiguous_likeArgs_iff (c : Config) (ms : Members) :
    (Request.read (likeArgs (.object ms))).Unambiguous c ↔ Entries.find? "query" ms = none := by
  have hdepth (p : MetaPredicate) : MetaQuery.depth ⟨.and, [.predicate p]⟩ = 0 := rfl
  have hitems (p : MetaPredicate) : MetaQuery.predicates ⟨.and, [.predicate p]⟩ = [p] := rfl
  rw [Request.Unambiguous, metaQuery_likeArgs]
  simp [hdepth, hitems, MetaPredicate.Ambiguous, MetaPredicate.IsLike, comparand?, Value.get?]

/-- What a request is compiled into is read back as it was written exactly if no text that the
request looks for in a custom field is an object with a member "query". -/
theorem compile_read_back_iff (c : Config) (hphrase : c.phraseBoost.isFinite = true)
    (hand : c.andBoost.isFinite = true) (r : Request) (privileged : Bool) (now : Moment) :
    CompiledQuery.ofJson? (compile c [] r privileged now).toJson =
        .ok (compile c [] r privileged now) ↔
      r.Unambiguous c := by
  rw [CompiledQuery.readsBack_iff_clauses, readsBack_postFilter_iff]
  exact and_iff_right fun _ => readsBack_query hphrase hand r

/-- An object without the member is read back. -/
theorem compile_read_back_object :
    ({} : Config).phraseBoost.isFinite = true ∧ ({} : Config).andBoost.isFinite = true ∧
      let r := Request.read (likeArgs (.object [("name", .string "x")]))
      let q := compile {} [] r false .epoch
      CompiledQuery.ofJson? q.toJson = .ok q := by
  have hphrase : ({} : Config).phraseBoost.isFinite = true := by decide +kernel
  have hand : ({} : Config).andBoost.isFinite = true := by decide +kernel
  have hfree := (unambiguous_likeArgs_iff {} [("name", .string "x")]).mpr rfl
  exact ⟨hphrase, hand, (compile_read_back_iff {} hphrase hand _ false .epoch).mpr hfree⟩

/-- An object with the member is not read back. -/
theorem compile_not_read_back :
    ({} : Config).phraseBoost.isFinite = true ∧ ({} : Config).andBoost.isFinite = true ∧
      let r := Request.read (likeArgs (.object [("query", .string "x")]))
      let q := compile {} [] r false .epoch
      CompiledQuery.ofJson? q.toJson ≠ .ok q := by
  refine ⟨by decide +kernel, by decide +kernel, fun h => ?_⟩
  have hfilter := ((CompiledQuery.readsBack_iff_clauses _).mp h).2
  have hfree := (unambiguous_likeArgs_iff _ _).mp ((readsBack_postFilter_iff _ _ _ _).mp hfilter)
  cases hfree

end ContentIndex.Query
