import ContentIndex.Query.Wire

/-
  Which clauses are read back as they were written. Two things can go wrong. A boost that is no
  finite number has no JSON form. And a match without an operator is written as its text alone: if
  that text is an object with a member "query", it looks like a match that has an operator or could
  have one, and only that member is read. `ofJson?_toJson_iff` says of every clause, whatever is
  nested in it, that nothing else does: it is read back exactly if none of its nodes is of either
  kind.

  There is one lemma per kind of clause that says when a clause of that kind is read back, given
  when the clauses in it are. The lemmas are also what the round trip of a whole search body needs.
-/

namespace ContentIndex.Query

open Json (Value Members)
open Number (Double)

/-! ## Members -/

@[simp] theorem find?_member? {α : Type} (name other : String) (f : α → Value) (o : Option α) :
    Entries.find? name (member? other f o) = if other = name then o.map f else none := by
  cases o <;> simp [member?, Entries.find?]

@[simp] theorem find?_listMember (name other : String) (l : List Value) :
    Entries.find? name (listMember other l) =
      if other = name ∧ l ≠ [] then some (.array l) else none := by
  cases l <;> simp [listMember, Entries.find?]

/-- A number is read back if it is absent or finite. -/
theorem double?_ofDouble_iff (o : Option Double) :
    (o.map Value.ofDouble).bind Value.double? = o ↔ ∀ x, o = some x → x.isFinite = true := by
  cases o with
  | none => simp
  | some x =>
    by_cases h : x.isFinite = true
    · simp [Value.ofDouble, Json.Number.ofDouble?, h, Value.double?, Json.Number.toDouble]
    · simp [Value.ofDouble, Json.Number.ofDouble?, h, Value.double?]

theorem string?_string (o : Option String) : (o.map Value.string).bind Value.string? = o := by
  cases o <;> rfl

theorem filterMap_string? (l : List String) :
    l.filterMap (Value.string? ∘ Value.string) = l :=
  List.filterMap_some

theorem uint64?_ofNat {n : Nat} (h : n < 2 ^ 64) :
    (Value.ofNat n).uint64? = some (UInt64.ofNat n) := by
  have hr : -2 ^ 63 ≤ (n : Int) ∧ (n : Int) < 2 ^ 64 := by omega
  rw [Value.ofNat, Value.ofInt, Json.Number.ofInt?, dif_pos hr]
  change (if 0 ≤ (n : Int) then some (UInt64.ofNat (n : Int).toNat) else none) = _
  rw [if_pos (Int.natCast_nonneg n), Int.toNat_natCast]

/-- A word of 32 bits is read back. -/
theorem bind_uint64?_ofNat (o : Option UInt32) :
    ((o.map fun n => Value.ofNat n.toNat).bind Value.uint64?).bind (fun n =>
      if n.toNat < 2 ^ 32 then some n.toUInt32 else none) = o := by
  cases o with
  | none => rfl
  | some n =>
    have h : n.toNat < 2 ^ 32 := n.toNat_lt
    have hn : (UInt64.ofNat n.toNat).toNat = n.toNat :=
      UInt64.toNat_ofNat_of_lt' (Nat.lt_trans h (by decide))
    have hword : (UInt64.ofNat n.toNat).toUInt32 = n := by
      apply UInt32.toNat_inj.mp
      rw [UInt64.toNat_toUInt32, hn, Nat.mod_eq_of_lt h]
    rw [Option.map_some, Option.bind_some, uint64?_ofNat (by omega), Option.bind_some, hn,
      if_pos h, hword]

/-- A member of an object is smaller than the object. -/
theorem sizeOf_lt_of_get? {v w : Value} {name : String} (h : v.get? name = some w) :
    sizeOf w < sizeOf v := by
  cases v with
  | object ms =>
    obtain ⟨k, hk⟩ := Entries.exists_mem_of_find? h
    have hlt := List.sizeOf_lt_of_mem hk
    simp only [Prod.mk.sizeOf_spec, Value.object.sizeOf_spec] at hlt ⊢
    omega
  | _ => cases h

namespace Clause

/-- The clause is read back as it was written. -/
def ReadsBack (c : Clause) : Prop :=
  ofJson? c.toJson = .ok c

/-- Each of the clauses is read back. -/
def AllReadBack (cs : List Clause) : Prop :=
  ∀ c ∈ cs, c.ReadsBack

@[simp] theorem allReadBack_nil : AllReadBack [] :=
  fun _ hc => absurd hc List.not_mem_nil

@[simp] theorem allReadBack_cons {c : Clause} {cs : List Clause} :
    AllReadBack (c :: cs) ↔ c.ReadsBack ∧ AllReadBack cs :=
  List.forall_mem_cons

@[simp] theorem allReadBack_append {as bs : List Clause} :
    AllReadBack (as ++ bs) ↔ AllReadBack as ∧ AllReadBack bs :=
  List.forall_mem_append

/-! ## Clauses on fields -/

theorem ofJson?_single (kind : String) (body : Value) :
    ofJson? (single kind body) = ofBody? kind body := by
  rw [single, ofJson?]

theorem ofBody?_of_leaf {kind : String} (hb : kind ≠ "bool") (hf : kind ≠ "function_score")
    (body : Value) : ofBody? kind body = readLeaf kind body := by
  cases body <;> rw [ofBody?] <;> simp [hb, hf]

/-- A clause that is not made of other clauses is read from the body that is written for it. -/
theorem readsBack_leaf_iff {c : Clause} {kind : String} {body : Value}
    (hc : c.toJson = single kind body) (hb : kind ≠ "bool") (hf : kind ≠ "function_score") :
    c.ReadsBack ↔ readLeaf kind body = .ok c := by
  rw [ReadsBack, hc, ofJson?_single, ofBody?_of_leaf hb hf]

@[simp] theorem readsBack_term (f : String) (v : Value) : ReadsBack (.term f v) :=
  (readsBack_leaf_iff rfl (by decide) (by decide)).mpr rfl

@[simp] theorem readsBack_terms (f : String) (vs : List Value) : ReadsBack (.terms f vs) :=
  (readsBack_leaf_iff rfl (by decide) (by decide)).mpr rfl

@[simp] theorem readsBack_present (f : String) : ReadsBack (.present f) :=
  (readsBack_leaf_iff rfl (by decide) (by decide)).mpr rfl

@[simp] theorem readsBack_regexp (f p : String) : ReadsBack (.regexp f p) :=
  (readsBack_leaf_iff rfl (by decide) (by decide)).mpr rfl

theorem readBounds_toJson (b : Bounds) : readBounds b.toJson = .ok b := by
  simp [Bounds.toJson, readBounds, Entries.find?_append]

@[simp] theorem readsBack_range (f : String) (b : Bounds) : ReadsBack (.range f b) := by
  have hleaf : readLeaf "range" (single f b.toJson) =
      (readBounds b.toJson).bind fun bounds => .ok (.range f bounds) := rfl
  rw [readsBack_leaf_iff rfl (by decide) (by decide), hleaf, readBounds_toJson]
  rfl

/-- A match without an operator is read back unless its text has a member that is taken for the
text. -/
@[simp] theorem readsBack_matching_iff (f : String) (q : Value) :
    ReadsBack (.matching f q none) ↔ q.get? "query" = none := by
  have hleaf : readLeaf "match" (single f q) = .ok (readMatch f q) := rfl
  rw [readsBack_leaf_iff rfl (by decide) (by decide), hleaf, Except.ok.injEq, readMatch]
  cases h : q.get? "query" with
  | none => simp
  | some w =>
    -- what is read is a part of the text, and so it is not the text
    have hne : w ≠ q := by
      rintro rfl
      exact Nat.lt_irrefl _ (sizeOf_lt_of_get? h)
    simp [hne]

@[simp] theorem readsBack_matching_operator (f : String) (q : Value) (operator : String) :
    ReadsBack (.matching f q (some operator)) :=
  (readsBack_leaf_iff rfl (by decide) (by decide)).mpr rfl

theorem get?_multiMatch (m : MultiMatch) (name : String) :
    m.toJson.get? name =
      ((((((if "boost" = name then m.boost.map Value.ofDouble else none).or
        (if "fields" = name then some (Value.strings m.fields) else none)).or
        (if "fuzziness" = name then m.fuzziness.map fun n => Value.ofNat n.toNat else none)).or
        (if "operator" = name then m.operator.map Value.string else none)).or
        (if "query" = name then some (Value.string m.query) else none)).or
        (if "type" = name then m.kind.map Value.string else none)) := by
  have hmember {k : String} {v : Value} :
      Entries.find? name [(k, v)] = if k = name then some v else none := by
    simp [Entries.find?]
  simp only [MultiMatch.toJson, Value.get?, Entries.find?_append, find?_member?, hmember]

theorem readMultiMatch_toJson (m : MultiMatch) :
    readMultiMatch m.toJson =
      .ok (.multiMatch { m with boost := (m.boost.map Value.ofDouble).bind Value.double? }) := by
  simp [readMultiMatch, text?, get?_multiMatch, string?_string, bind_uint64?_ofNat,
    Value.string?, Value.strings, Value.items?, filterMap_string?]

@[simp] theorem readsBack_multiMatch_iff (m : MultiMatch) :
    ReadsBack (.multiMatch m) ↔ ∀ x, m.boost = some x → x.isFinite = true := by
  have hleaf : readLeaf "multi_match" m.toJson = readMultiMatch m.toJson := rfl
  rw [readsBack_leaf_iff rfl (by decide) (by decide), hleaf, readMultiMatch_toJson,
    Except.ok.injEq, Clause.multiMatch.injEq, ← double?_ofDouble_iff]
  obtain ⟨query, fields, kind, operator, boost, fuzziness⟩ := m
  simp

@[simp] theorem readsBack_all_iff (b : Option Double) :
    ReadsBack (.all b) ↔ ∀ x, b = some x → x.isFinite = true := by
  rw [readsBack_leaf_iff rfl (by decide) (by decide), ← double?_ofDouble_iff]
  simp [readLeaf, Value.get?]

/-! ## Clauses made of clauses -/

theorem part?_eq (name : String) (ms : Members) :
    part? name ms = match Entries.find? name ms with
      | none => .ok []
      | some v => clauses? name v := by
  induction ms with
  | nil => rw [part?]; rfl
  | cons m ms ih =>
    obtain ⟨k, v⟩ := m
    rw [part?, Entries.find?]
    split <;> simp_all

theorem scored?_eq (ms : Members) :
    scored? ms = match Entries.find? "query" ms with
      | none => .ok (.all none)
      | some v => ofJson? v := by
  induction ms with
  | nil => rw [scored?]; rfl
  | cons m ms ih =>
    obtain ⟨k, v⟩ := m
    rw [scored?, Entries.find?]
    split <;> simp_all

/-- A part is read from its list, also if the list is empty and was left out. -/
theorem part?_of_find? {name : String} {ms : Members} {l : List Value}
    (h : Entries.find? name ms = if l ≠ [] then some (.array l) else none) :
    part? name ms = list? l := by
  rw [part?_eq, h]
  cases l with
  | nil => rw [list?]; rfl
  | cons v vs => simp [clauses?]

theorem list?_listToJson_iff (cs : List Clause) :
    list? (listToJson cs) = .ok cs ↔ AllReadBack cs := by
  induction cs with
  | nil => simp [listToJson, list?]
  | cons c cs ih =>
    rw [listToJson, list?, allReadBack_cons, ← ih, ReadsBack]
    cases ofJson? c.toJson with
    | error e => simp [bind, Except.bind]
    | ok d => cases list? (listToJson cs) <;> simp [bind, Except.bind]

@[simp] theorem readsBack_bool_iff (p : Compound Clause) :
    ReadsBack (.bool p) ↔
      AllReadBack p.must ∧ AllReadBack p.should ∧ AllReadBack p.mustNot ∧ AllReadBack p.filter := by
  obtain ⟨must, should, mustNot, filter⟩ := p
  simp only [← list?_listToJson_iff]
  rw [ReadsBack, toJson, ofJson?_single, compoundToJson]
  generalize hms : listMember "filter" (listToJson filter) ++ listMember "must" (listToJson must)
    ++ listMember "must_not" (listToJson mustNot) ++ listMember "should" (listToJson should) = ms
  have hmust : part? "must" ms = list? (listToJson must) :=
    part?_of_find? (by simp [← hms, Entries.find?_append])
  have hshould : part? "should" ms = list? (listToJson should) :=
    part?_of_find? (by simp [← hms, Entries.find?_append])
  have hmustNot : part? "must_not" ms = list? (listToJson mustNot) :=
    part?_of_find? (by simp [← hms, Entries.find?_append])
  have hfilter : part? "filter" ms = list? (listToJson filter) :=
    part?_of_find? (by simp [← hms, Entries.find?_append])
  rw [ofBody?, if_pos rfl, hmust, hshould, hmustNot, hfilter]
  cases list? (listToJson must) <;> cases list? (listToJson should) <;>
    cases list? (listToJson mustNot) <;> cases list? (listToJson filter) <;>
    simp [bind, Except.bind]

theorem readsBack_of_isEmpty {p : Compound Clause} (h : p.isEmpty = true) :
    ReadsBack (.bool p) := by
  obtain ⟨must, should, mustNot, filter⟩ := p
  simp only [Compound.isEmpty, Bool.and_eq_true, List.isEmpty_iff] at h
  obtain ⟨⟨⟨rfl, rfl⟩, rfl⟩, rfl⟩ := h
  simp

@[simp] theorem readsBack_functionScore_iff (q : Clause) (random : Bool) (mode : Option String) :
    ReadsBack (.functionScore q random mode) ↔ q.ReadsBack := by
  rw [ReadsBack, toJson, ofJson?_single]
  generalize hms : member? "boost_mode" Value.string mode
    ++ ("query", q.toJson) :: (if random then [("random_score", Value.object [])] else []) = ms
  have hquery : scored? ms = ofJson? q.toJson := by
    rw [scored?_eq, ← hms]
    simp [Entries.find?_append, Entries.find?]
  have hrandom : (Entries.find? "random_score" ms).isSome = random := by
    cases random <;> simp [← hms, Entries.find?_append, Entries.find?]
  have hmode : (Entries.find? "boost_mode" ms).bind Value.string? = mode := by
    cases random <;> cases mode <;>
      simp [← hms, Entries.find?_append, Entries.find?, Value.string?]
  rw [ofBody?, if_neg (by decide), if_pos rfl, hquery, hrandom, hmode, ReadsBack]
  cases ofJson? q.toJson <;> simp [bind, Except.bind]

@[simp] theorem readsBack_negate_iff (c : Clause) : c.negate.ReadsBack ↔ c.ReadsBack := by
  unfold negate
  simp

@[simp] theorem allReadBack_combine_iff (r : Relation) (cs : List Clause) :
    AllReadBack (combine r cs).toList ↔ AllReadBack cs := by
  cases cs with
  | nil => simp [combine]
  | cons c cs => cases r <;> simp [combine, Compound.withAll]

/-! ## The nodes of a clause -/

mutual
/-- The clause and all clauses inside it. -/
def nodes : Clause → List Clause
  | .bool parts => .bool parts :: nodesOf parts
  | .functionScore q random mode => .functionScore q random mode :: nodes q
  | c => [c]
termination_by structural c => c

def nodesOf : Compound Clause → List Clause
  | ⟨must, should, mustNot, filter⟩ =>
    nodesIn must ++ nodesIn should ++ nodesIn mustNot ++ nodesIn filter
termination_by structural p => p

def nodesIn : List Clause → List Clause
  | [] => []
  | c :: cs => nodes c ++ nodesIn cs
termination_by structural cs => cs
end

/-- The boost that a clause itself has. -/
def boost? : Clause → Option Double
  | .multiMatch m => m.boost
  | .all b => b
  | _ => none

/-- Nothing in the clause itself is lost when it is written; what is inside does not count. -/
def Plain (n : Clause) : Prop :=
  (∀ x, n.boost? = some x → x.isFinite = true) ∧
    ∀ f q, n = .matching f q none → q.get? "query" = none

mutual
theorem readsBack_iff_plain : (c : Clause) → (c.ReadsBack ↔ ∀ n ∈ c.nodes, n.Plain)
  | .term f v => by simp [nodes, Plain, boost?]
  | .terms f vs => by simp [nodes, Plain, boost?]
  | .range f b => by simp [nodes, Plain, boost?]
  | .present f => by simp [nodes, Plain, boost?]
  | .matching f q none => by simp [nodes, Plain, boost?]
  | .matching f q (some op) => by simp [nodes, Plain, boost?]
  | .multiMatch m => by simp [nodes, Plain, boost?]
  | .regexp f p => by simp [nodes, Plain, boost?]
  | .all b => by simp [nodes, Plain, boost?]
  | .bool ⟨must, should, mustNot, filter⟩ => by
    have hself : Plain (.bool ⟨must, should, mustNot, filter⟩) := by simp [Plain, boost?]
    rw [readsBack_bool_iff, allReadBack_iff_plain must, allReadBack_iff_plain should,
      allReadBack_iff_plain mustNot, allReadBack_iff_plain filter, nodes, nodesOf]
    simp only [List.forall_mem_cons, List.forall_mem_append, hself, true_and, and_assoc]
  | .functionScore q random mode => by
    have hself : Plain (.functionScore q random mode) := by simp [Plain, boost?]
    rw [readsBack_functionScore_iff, readsBack_iff_plain q, nodes, List.forall_mem_cons]
    simp only [hself, true_and]
termination_by structural c => c

theorem allReadBack_iff_plain : (cs : List Clause) →
    (AllReadBack cs ↔ ∀ n ∈ nodesIn cs, n.Plain)
  | [] => by simp [nodesIn]
  | c :: cs => by
    rw [allReadBack_cons, readsBack_iff_plain c, allReadBack_iff_plain cs, nodesIn,
      List.forall_mem_append]
termination_by structural cs => cs
end

/-- A clause is read back as it was written exactly if every boost in it is a finite number and no
match in it that has no operator has an object with a member "query" for its text. -/
theorem ofJson?_toJson_iff (c : Clause) :
    ofJson? c.toJson = .ok c ↔
      (∀ n ∈ c.nodes, ∀ x, n.boost? = some x → x.isFinite = true) ∧
        ∀ n ∈ c.nodes, ∀ f q, n = .matching f q none → q.get? "query" = none := by
  have h : ofJson? c.toJson = .ok c ↔ ∀ n ∈ c.nodes, n.Plain := readsBack_iff_plain c
  rw [h]
  constructor
  · intro h
    exact ⟨fun n hn => (h n hn).1, fun n hn => (h n hn).2⟩
  · rintro ⟨hboosts, htexts⟩ n hn
    exact ⟨hboosts n hn, htexts n hn⟩

example :
    ofJson? (Clause.negate (.matching "title" (.object [("query", .string "x")]) none)).toJson =
      .ok (Clause.negate (.matching "title" (.string "x") none)) := rfl

end Clause
end ContentIndex.Query
