import ContentIndex.Proofs.Number.LargeIntegers
import ContentIndex.Proofs.Query.BodyReadBack
import ContentIndex.Proofs.Query.Clock

/-
  Lists of ids. Four arguments of a host list ids that the results must have, or must not have. Ids
  are words of 64 bits without a sign, but every number of an argument is read as a word with a
  sign first. So an id beyond the signed words becomes the largest of them
  (`asNatural?_ofUInt64`).

  No other part of a request asks for one of several values of the fields that have ids
  (`valuesOn_part_membership`). So what is compiled has one such clause for the argument, with the
  ids that were read in their order, and it has the ids that were given exactly if none of them
  is beyond the signed words (`compiled_ids_iff`).
-/

namespace ContentIndex.Query

open Json (Value Members)
open Calendar (Moment)
open Number (Double)

/-! ## Reading ids -/

/-- The largest id that is also a word with a sign. -/
def largestSigned : UInt64 := 0x7fffffffffffffff

theorem le_largestSigned_iff (id : UInt64) : id ≤ largestSigned ↔ id.toNat < 2 ^ 63 := by
  have hlargest : largestSigned.toNat = 2 ^ 63 - 1 := by decide +kernel
  rw [UInt64.le_iff_toNat_le, hlargest]
  omega

/-- An id beyond the signed words is read as the largest of them. -/
theorem asNatural?_ofUInt64 (id : UInt64) :
    (Value.ofUInt64 id).asNatural? = some (min id largestSigned) := by
  have hread : (Value.ofUInt64 id).asInt64? = some ((Number.int64OfInt? id.toNat).getD
      (Double.ofInt id.toNat).toInt64) := rfl
  rw [Value.asNatural?, hread, Option.bind_some, Number.int64OfInt?]
  by_cases hle : id ≤ largestSigned
  · have hlt := (le_largestSigned_iff id).mp hle
    have hsigned : -2 ^ 63 ≤ (id.toNat : Int) ∧ (id.toNat : Int) < 2 ^ 63 := by omega
    have hword : (Int64.ofInt id.toNat).toInt = id.toNat :=
      Int64.toInt_ofInt_of_le (by omega) (by omega)
    have hpos : 0 ≤ Int64.ofInt id.toNat := by
      rw [Int64.le_iff_toInt_le, hword]
      exact Int.natCast_nonneg _
    rw [Std.LawfulOrderLeftLeaningMin.min_eq_left _ _ hle, if_pos hsigned, Option.getD_some,
      if_pos hpos, hword, Int.toNat_natCast, UInt64.ofNat_toNat]
  · have hge : 2 ^ 63 ≤ id.toNat := Nat.not_lt.mp (mt (le_largestSigned_iff id).mpr hle)
    have hunsigned : ¬(-2 ^ 63 ≤ (id.toNat : Int) ∧ (id.toNat : Int) < 2 ^ 63) := by omega
    rw [Std.LawfulOrderLeftLeaningMin.min_eq_right _ _ hle, if_neg hunsigned, Option.getD_none,
      Double.toInt64_ofInt_large hge id.toNat_lt]
    rfl

theorem naturals_ofUInt64 (ids : List UInt64) :
    (Value.array (ids.map .ofUInt64)).naturals = ids.map (min · largestSigned) := by
  have hread : Value.asNatural? ∘ Value.ofUInt64 = some ∘ (min · largestSigned) := by
    funext id
    rw [Function.comp_apply, asNatural?_ofUInt64, Function.comp_apply]
  rw [Value.naturals, List.filterMap_map, hread, List.filterMap_eq_map]

theorem min_largestSigned_eq_iff (id : UInt64) :
    min id largestSigned = id ↔ id ≤ largestSigned := by
  constructor
  · intro h
    rw [← h]
    exact Std.min_le_right
  · exact Std.LawfulOrderLeftLeaningMin.min_eq_left _ _

/-- Reading a list changes none of its ids exactly if none is beyond the signed words. -/
theorem map_min_largestSigned_eq_iff (ids : List UInt64) :
    ids.map (min · largestSigned) = ids ↔ ∀ id ∈ ids, id ≤ largestSigned := by
  induction ids with
  | nil => simp
  | cons id ids ih =>
    rw [List.map_cons, List.cons_eq_cons, min_largestSigned_eq_iff, ih, List.forall_mem_cons]

/-! ## Clauses on lists of values -/

/-- The lists of values of which one is asked for on a field, clause by clause. -/
def valuesOn (field : String) (cs : List Clause) : List (List Value) :=
  cs.filterMap fun
    | .terms f vs => if f = field then some vs else none
    | _ => none

@[simp] theorem valuesOn_append (field : String) (cs ds : List Clause) :
    valuesOn field (cs ++ ds) = valuesOn field cs ++ valuesOn field ds :=
  List.filterMap_append

theorem mem_valuesOn {field : String} {cs : List Clause} {vs : List Value} :
    vs ∈ valuesOn field cs ↔ .terms field vs ∈ cs := by
  constructor
  · intro h
    obtain ⟨c, hc, h⟩ := List.mem_filterMap.mp h
    cases c <;> simp_all
  · intro h
    exact List.mem_filterMap.mpr ⟨_, h, if_pos rfl⟩

theorem valuesOn_eq_nil_iff {field : String} {cs : List Clause} :
    valuesOn field cs = [] ↔ ∀ vs, .terms field vs ∉ cs := by
  simp only [List.eq_nil_iff_forall_not_mem, mem_valuesOn]

theorem valuesOn_idClause?_ne {field other : String} (h : other ≠ field) (ids : List UInt64) :
    valuesOn field (idClause? other ids).toList = [] := by
  cases ids <;> simp [idClause?, valuesOn, h]

theorem valuesOn_idClause?_self (field : String) {ids : List UInt64} (h : ids ≠ []) :
    valuesOn field (idClause? field ids).toList = [ids.map .ofUInt64] := by
  cases ids with
  | nil => exact absurd rfl h
  | cons id ids => simp [idClause?, valuesOn]

theorem ofUInt64_inj {id other : UInt64} (h : Value.ofUInt64 id = .ofUInt64 other) :
    id = other := by
  have hread := congrArg Value.uint64? h
  simpa [Value.ofUInt64, Value.uint64?] using hread

/-- Clauses that are joined are in a compound. -/
theorem terms_not_mem_combine (r : Relation) (cs : List Clause) (field : String)
    (vs : List Value) : .terms field vs ∉ (Clause.combine r cs).toList := by
  cases cs <;> simp [Clause.combine]

/-! ## The fields of the other parts -/

theorem not_terms_of_between? {path : String} {v : Value} {field : String} {vs : List Value} :
    between? path v ≠ some (.terms field vs) := by
  unfold between?
  split <;> simp

theorem eq_unitPath_of_unitClause? {u : DateUnit} {compare : Option Comparator} {v : Value}
    {field : String} {vs : List Value} (h : unitClause? u compare v = some (.terms field vs)) :
    field = unitPath u := by
  unfold unitClause? at h
  generalize compare.getD (if v.isArray then .oneOf else .equals) = k at h
  cases k with
  | oneOf =>
    cases h
    rfl
  | equals => cases v <;> cases h; rfl
  | between => exact absurd h not_terms_of_between?
  | greater | greaterEq | less | lessEq | notBetween =>
    obtain ⟨w, -, hw⟩ := Option.map_eq_some_iff.mp h
    cases hw
  | notEquals | noneOf | like | notLike | present | absent => cases h

theorem DatePredicate.exists_unitPath {p : DatePredicate} {now : Moment} {outer field : String}
    {vs : List Value} (h : .terms field vs ∈ p.clauses now outer) :
    ∃ u, field = unitPath u := by
  rw [clauses, List.mem_append] at h
  rcases h with h | h
  · have hrange := Option.mem_toList.mp h
    unfold range? at hrange
    dsimp only at hrange
    split at hrange
    · cases hrange
    · split at hrange <;> cases hrange
  · obtain ⟨u, -, hu⟩ := List.mem_filterMap.mp h
    exact ⟨u.1, eq_unitPath_of_unitClause? hu⟩

theorem terms_not_mem_unitTerms (units : List (DateUnit × Int64)) (field : String)
    (vs : List Value) : .terms field vs ∉ unitTerms units := by
  simp [unitTerms]

namespace DateItem

variable {now : Moment} {limit : Nat} {outer : String} {depth : Nat}

/-- A group is one clause, which is a compound. So the induction is on the list alone. -/
theorem exists_unitPath {items : List DateItem} {l : List (List Clause)}
    (hl : clauseLists now limit outer depth items = .ok l) {field : String} {vs : List Value}
    (h : .terms field vs ∈ l.flatten) : ∃ u, field = unitPath u := by
  induction items generalizing l with
  | nil =>
    cases hl
    cases h
  | cons i is ih =>
    obtain ⟨cs, rest, hcs, hrest, rfl⟩ := clauseLists_cons_eq_ok hl
    have hmem : .terms field vs ∈ cs ∨ .terms field vs ∈ rest.flatten := by
      split at h
      · exact .inr h
      · rwa [List.flatten_cons, List.mem_append] at h
    rcases hmem with hhead | htail
    · cases i with
      | predicate p =>
        cases hcs
        exact p.exists_unitPath hhead
      | group relation column units items =>
        obtain ⟨l, -, rfl⟩ := clauses_group_eq_ok hcs
        exact absurd hhead (terms_not_mem_combine _ _ field vs)
    · exact ih hrest htail

end DateItem

/-- A query on dates asks for one of several values of a unit only. -/
theorem DateQuery.exists_unitPath {q : DateQuery} {now : Moment} {limit : Nat} {field : String}
    {vs : List Value} (h : .terms field vs ∈ orDropped [] (q.clauses now limit)) :
    ∃ u, field = unitPath u := by
  rw [clauses] at h
  cases hl : DateItem.clauseLists now limit (resolveColumn q.column "post_date") 0 q.items with
  | error e =>
    rw [hl] at h
    cases h
  | ok l =>
    rw [hl] at h
    rcases List.mem_append.mp h with hunits | hitems
    · exact absurd hunits (terms_not_mem_unitTerms _ field vs)
    · cases hrelation : q.relation with
      | and =>
        rw [hrelation] at hitems
        exact DateItem.exists_unitPath hl hitems
      | or =>
        rw [hrelation] at hitems
        exact absurd hitems (terms_not_mem_combine _ _ field vs)

theorem TaxPredicate.exists_eq_append {p : TaxPredicate} {d : Demand} (h : p.demand? = some d)
    {field : String} {vs : List Value} (hd : d.clause = .terms field vs) :
    ∃ s, field = "terms." ++ s := by
  obtain ⟨taxonomy, terms, taxField, operator⟩ := p
  simp only [demand?] at h
  split at h
  · cases h
  · cases operator with
    | present | absent =>
      cases h
      cases hd
    | oneOf | noneOf =>
      cases terms with
      | nil => cases h
      | cons t ts =>
        cases h
        cases hd
        exact ⟨taxonomy ++ "." ++ taxField.path, by simp only [String.append_assoc]⟩
    | allOf =>
      cases terms with
      | nil => cases h
      | cons t ts =>
        cases h
        cases hd

/-- A query on taxonomies asks for one of several values only of a field that has terms. -/
theorem TaxQuery.exists_eq_append {q : TaxQuery} {field : String} {vs : List Value}
    (h : .terms field vs ∈ q.compound.must ∨ .terms field vs ∈ q.compound.mustNot) :
    ∃ s, field = "terms." ++ s := by
  have hdemands : ∀ d ∈ q.predicates.filterMap TaxPredicate.demand?,
      d.clause = .terms field vs → ∃ s, field = "terms." ++ s := by
    intro d hd
    obtain ⟨p, -, hp⟩ := List.mem_filterMap.mp hd
    exact TaxPredicate.exists_eq_append hp
  unfold compound at h
  generalize q.predicates.filterMap TaxPredicate.demand? = demands at hdemands h
  cases hrelation : q.relation with
  | and =>
    rw [hrelation] at h
    rcases h with h | h <;> obtain ⟨d, hd, hc⟩ := List.mem_filterMap.mp h
    · cases d <;> cases hc
      exact hdemands _ hd rfl
    · cases d <;> cases hc
      exact hdemands _ hd rfl
  | or =>
    rw [hrelation] at h
    dsimp only at h
    split at h <;> simp at h

/-! ## Arguments -/

/-- The arguments that list ids. -/
inductive IdArgument where
  | ids
  | excludedIds
  | authors
  | excludedAuthors
deriving DecidableEq, Repr

namespace IdArgument

def name : IdArgument → String
  | .ids => "post__in"
  | .excludedIds => "post__not_in"
  | .authors => "author__in"
  | .excludedAuthors => "author__not_in"

/-- The field that has the ids. -/
def field : IdArgument → String
  | .ids | .excludedIds => "post_id"
  | .authors | .excludedAuthors => "post_author.id"

/-- The list of a compound where the clause on the ids stands. -/
def part : IdArgument → Compound Clause → List Clause
  | .ids, p | .authors, p => p.must
  | .excludedIds, p | .excludedAuthors, p => p.mustNot

/-- The ids that a request lists. -/
def listed : IdArgument → Request → List UInt64
  | .ids, r => r.ids
  | .excludedIds, r => r.excludedIds
  | .authors, r => r.authors
  | .excludedAuthors, r => r.excludedAuthors

theorem part_of_isEmpty (a : IdArgument) {p : Compound Clause} (h : p.isEmpty = true) :
    a.part p = [] := by
  simp only [Compound.isEmpty, Bool.and_eq_true, List.isEmpty_iff] at h
  cases a with
  | ids | authors => exact h.1.1.1
  | excludedIds | excludedAuthors => exact h.1.2

theorem field_ne_unitPath (a : IdArgument) (u : DateUnit) : a.field ≠ unitPath u := by
  cases a <;> cases u <;> decide

theorem field_ne_append (a : IdArgument) (s : String) : a.field ≠ "terms." ++ s := by
  intro h
  have hchars := congrArg String.toList h
  cases a <;> simp [field] at hchars

/-- The ids that are read are the given ones, but for those beyond the signed words. Behind the
authors stands the one of the argument for a single author, if there is one. -/
theorem listed_read (a : IdArgument) {ms : Members} {ids : List UInt64}
    (given : Entries.find? a.name ms = some (.array (ids.map .ofUInt64)))
    (alone : a = .authors → Entries.find? "author" ms = none) :
    a.listed (.read (.object ms)) = ids.map (min · largestSigned) := by
  have hlist : (((Entries.find? a.name ms).map Value.naturals).getD []) =
      ids.map (min · largestSigned) := by
    rw [given, Option.map_some, Option.getD_some, naturals_ofUInt64]
  cases a with
  | ids | excludedIds | excludedAuthors => exact hlist
  | authors =>
    have hsingle : ((Entries.find? "author" ms).bind Value.asNatural?).toList = [] := by
      rw [alone rfl]
      rfl
    show _ ++ ((Entries.find? "author" ms).bind Value.asNatural?).toList = _
    rw [hsingle, List.append_nil]
    exact hlist

end IdArgument

/-! ## The filter -/

section Filter

variable (a : IdArgument) (r : Request) (c : Config) (privileged : Bool) (now : Moment)

theorem valuesOn_compound (q : Option TaxQuery) :
    valuesOn a.field ((q.map TaxQuery.compound).getD {}).must = [] ∧
      valuesOn a.field ((q.map TaxQuery.compound).getD {}).mustNot = [] := by
  cases q with
  | none => exact ⟨rfl, rfl⟩
  | some q =>
    rw [valuesOn_eq_nil_iff, valuesOn_eq_nil_iff]
    constructor
    · intro vs h
      obtain ⟨s, hs⟩ := TaxQuery.exists_eq_append (.inl h)
      exact a.field_ne_append s hs
    · intro vs h
      obtain ⟨s, hs⟩ := TaxQuery.exists_eq_append (.inr h)
      exact a.field_ne_append s hs

theorem valuesOn_dateClauses (q : Option DateQuery) (limit : Nat) :
    valuesOn a.field ((q.map fun q => orDropped [] (q.clauses now limit)).getD []) = [] := by
  cases q with
  | none => rfl
  | some q =>
    rw [valuesOn_eq_nil_iff]
    intro vs h
    obtain ⟨u, hu⟩ := DateQuery.exists_unitPath h
    exact a.field_ne_unitPath u hu

theorem valuesOn_metaClause (q : Option MetaQuery) (limit : Nat) :
    valuesOn a.field (q.bind fun q => orDropped none (q.filter? limit)).toList = [] := by
  rw [valuesOn_eq_nil_iff]
  intro vs h
  cases q with
  | none => cases h
  | some q =>
    rw [Option.bind_some, MetaQuery.filter?] at h
    cases hq : q.clauses 0 limit with
    | error e =>
      rw [hq] at h
      cases h
    | ok cs =>
      rw [hq] at h
      exact terms_not_mem_combine _ _ _ _ h

theorem valuesOn_valueClause? {field other : String} (h : other ≠ field) (v : ValueFilter) :
    valuesOn field (v.clause? other).toList = [] := by
  cases v <;> simp [ValueFilter.clause?, valuesOn, h]

theorem valuesOn_slugClause? (taxonomy : String) (slugs : List String) :
    valuesOn a.field (slugClause? taxonomy slugs).toList = [] := by
  rw [valuesOn_eq_nil_iff]
  intro vs h
  unfold slugClause? at h
  split at h
  · cases h
  · obtain ⟨hfield, -⟩ := Clause.terms.inj (List.mem_singleton.mp h)
    rw [String.append_assoc] at hfield
    exact a.field_ne_append _ hfield

theorem valuesOn_must :
    valuesOn a.field (r.membership c privileged now).must =
      valuesOn a.field (idClause? "post_id" r.ids).toList ++
        valuesOn a.field (idClause? "post_author.id" r.authors).toList := by
  have htype : valuesOn a.field (r.type.bind (ValueFilter.clause? "post_type.raw")).toList = [] := by
    cases r.type with
    | none => rfl
    | some v => exact valuesOn_valueClause? (by cases a <;> decide) v
  have hstatus (v : ValueFilter) : valuesOn a.field (v.clause? "post_status").toList = [] :=
    valuesOn_valueClause? (by cases a <;> decide) v
  have hmime : valuesOn a.field (r.mimeType.bind MimeFilter.clause?).toList = [] := by
    have hfield : "post_mime_type" ≠ a.field := by cases a <;> decide
    rcases r.mimeType with _ | _ | _ | _ <;> simp [MimeFilter.clause?, valuesOn, hfield]
  have hnames : valuesOn a.field (if r.names.isEmpty then none
      else some (Clause.terms "post_name.raw" (r.names.map .string))).toList = [] := by
    have hfield : "post_name.raw" ≠ a.field := by cases a <;> decide
    cases r.names <;> simp [valuesOn, hfield]
  unfold Request.membership
  simp only [valuesOn_append, htype, hstatus, (valuesOn_compound a r.taxQuery).1, hmime, hnames,
    valuesOn_slugClause?, valuesOn_metaClause, valuesOn_dateClauses, List.nil_append,
    List.append_nil]
  rcases r.parent with _ | _ | _ <;> simp [valuesOn]

theorem valuesOn_mustNot :
    valuesOn a.field (r.membership c privileged now).mustNot =
      valuesOn a.field (idClause? "post_id" r.excludedIds).toList ++
        valuesOn a.field (idClause? "post_author.id" r.excludedAuthors).toList := by
  unfold Request.membership
  simp only [valuesOn_append, (valuesOn_compound a r.taxQuery).2, List.nil_append]

/-- Only the clause on the ids of an argument asks for one of several values of its field. -/
theorem valuesOn_part_membership (h : a.listed r ≠ []) :
    valuesOn a.field (a.part (r.membership c privileged now)) =
      [(a.listed r).map .ofUInt64] := by
  cases a with
  | ids =>
    have hids : r.ids ≠ [] := h
    rw [IdArgument.part, valuesOn_must, IdArgument.field, valuesOn_idClause?_self _ hids,
      valuesOn_idClause?_ne (by decide), List.append_nil, IdArgument.listed]
  | authors =>
    have hids : r.authors ≠ [] := h
    rw [IdArgument.part, valuesOn_must, IdArgument.field, valuesOn_idClause?_self _ hids,
      valuesOn_idClause?_ne (by decide), List.nil_append, IdArgument.listed]
  | excludedIds =>
    have hids : r.excludedIds ≠ [] := h
    rw [IdArgument.part, valuesOn_mustNot, IdArgument.field, valuesOn_idClause?_self _ hids,
      valuesOn_idClause?_ne (by decide), List.append_nil, IdArgument.listed]
  | excludedAuthors =>
    have hids : r.excludedAuthors ≠ [] := h
    rw [IdArgument.part, valuesOn_mustNot, IdArgument.field, valuesOn_idClause?_self _ hids,
      valuesOn_idClause?_ne (by decide), List.nil_append, IdArgument.listed]

end Filter

section Given

variable (a : IdArgument) (ms : Members) (ids : List UInt64) (nonempty : ids ≠ [])
  (given : Entries.find? a.name ms = some (.array (ids.map .ofUInt64)))
  (alone : a = .authors → Entries.find? "author" ms = none) (c : Config) (privileged : Bool)
  (now : Moment)

include nonempty given alone

theorem exists_postFilter_valuesOn :
    ∃ parts, (compile c [] (.read (.object ms)) privileged now).postFilter = some (.bool parts) ∧
      valuesOn a.field (a.part parts) = [(ids.map (min · largestSigned)).map .ofUInt64] := by
  have hlisted := a.listed_read given alone
  have hsome : a.listed (.read (.object ms)) ≠ [] := by
    rw [hlisted]
    exact mt List.map_eq_nil_iff.mp nonempty
  have hvalues := valuesOn_part_membership a (.read (.object ms)) c privileged now hsome
  rw [hlisted] at hvalues
  refine ⟨Request.membership (.read (.object ms)) c privileged now, ?_, hvalues⟩
  rw [compile_postFilter, if_neg]
  intro hempty
  rw [a.part_of_isEmpty hempty] at hvalues
  cases hvalues

/-- A list of ids in an argument, whatever else the arguments ask for, is compiled into the one
clause that asks for one of several values of the field of the argument. The ids of the clause
are the given ones in their order, with the largest signed word in the place of each id beyond
it. So the ids are kept exactly if none of them is beyond it. Among the other arguments may be a
query on custom fields whose reading has no end, which is taken to go without the entries that
cause it (`MetaItem.read?`). -/
theorem compiled_ids_iff :
    ∃ parts, (compile c [] (.read (.object ms)) privileged now).postFilter = some (.bool parts) ∧
      valuesOn a.field (a.part parts) = [(ids.map (min · largestSigned)).map .ofUInt64] ∧
      (.terms a.field (ids.map .ofUInt64) ∈ a.part parts ↔ ∀ id ∈ ids, id ≤ largestSigned) := by
  obtain ⟨parts, hfilter, hvalues⟩ :=
    exists_postFilter_valuesOn a ms ids nonempty given alone c privileged now
  refine ⟨parts, hfilter, hvalues, ?_⟩
  rw [← mem_valuesOn, hvalues, List.mem_singleton, ← map_min_largestSigned_eq_iff, eq_comm]
  exact List.map_inj_right fun _ _ => ofUInt64_inj

end Given

/-- The ids that are signed words are kept. -/
theorem compiled_ids_small :
    let ids : List UInt64 := [largestSigned, 7]
    let ms : Members := [("post__not_in", .array (ids.map .ofUInt64))]
    ids ≠ [] ∧ Entries.find? IdArgument.excludedIds.name ms = some (.array (ids.map .ofUInt64)) ∧
      ∃ parts, (compile {} [] (.read (.object ms)) false .epoch).postFilter = some (.bool parts) ∧
        .terms "post_id" (ids.map .ofUInt64) ∈ parts.mustNot := by
  intro ids ms
  have nonempty : ids ≠ [] := by decide
  have given : Entries.find? IdArgument.excludedIds.name ms = some (.array (ids.map .ofUInt64)) :=
    Entries.find?_cons_self _ _ _
  have small : ids.map (min · largestSigned) = ids := by decide +kernel
  obtain ⟨parts, hfilter, -, hkept⟩ := compiled_ids_iff .excludedIds ms ids nonempty given
    (fun h => nomatch h) {} false .epoch
  exact ⟨nonempty, given, parts, hfilter, hkept.mpr ((map_min_largestSigned_eq_iff ids).mp small)⟩

/-- An id beyond the signed words selects another item. -/
theorem compiled_ids_large :
    let ids : List UInt64 := [9223372036854775808]
    let ms : Members := [("post__in", .array (ids.map .ofUInt64))]
    ∃ parts, (compile {} [] (.read (.object ms)) false .epoch).postFilter = some (.bool parts) ∧
      .terms "post_id" (ids.map .ofUInt64) ∉ parts.must ∧
      .terms "post_id" [.ofUInt64 9223372036854775807] ∈ parts.must := by
  intro ids ms
  have given : Entries.find? IdArgument.ids.name ms = some (.array (ids.map .ofUInt64)) :=
    Entries.find?_cons_self _ _ _
  obtain ⟨parts, hfilter, hvalues⟩ := exists_postFilter_valuesOn .ids ms ids (by decide) given
    (fun h => nomatch h) {} false .epoch
  have hmin : ids.map (min · largestSigned) = [9223372036854775807] := by decide +kernel
  rw [hmin] at hvalues
  have hmem (vs : List Value) :
      .terms "post_id" vs ∈ parts.must ↔ vs = [.ofUInt64 9223372036854775807] := by
    rw [← mem_valuesOn, ← List.mem_singleton]
    exact iff_of_eq (congrArg (vs ∈ ·) hvalues)
  refine ⟨parts, hfilter, fun h => ?_, (hmem _).mpr rfl⟩
  have hid := ofUInt64_inj (List.cons.inj ((hmem _).mp h)).1
  exact absurd hid (by decide +kernel)

end ContentIndex.Query
