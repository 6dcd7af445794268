import ContentIndex.Proofs.Query.ReadBack

/-
  The grammar of clauses. `Accepted` says which values write a clause, without reading them. The
  reader accepts exactly these; of any other value it reports what is wrong at the first place that
  is at fault, where places are visited depth first (`places`) and each is judged by itself
  (`Place.fault?`).
-/

namespace ContentIndex.Query

open Json (Value)
open Clause (ofJson? ofBody? part? clauses? list? scored? onlyMember readLeaf
  readMatch readMultiMatch text?)

/-! ## The grammar -/

/-- The kinds of clauses. -/
def kinds : List String :=
  ["term", "terms", "range", "exists", "match", "multi_match", "regexp", "match_all", "bool",
    "function_score"]

/-- The members of a compound that are read, in this order. -/
def partNames : List String := ["must", "should", "must_not", "filter"]

mutual
/-- The values that write a clause. -/
inductive Accepted : Value → Prop
  | node {kind : String} {body : Value} : Fits kind body → Accepted (.object [(kind, body)])

/-- What may stand under a kind. -/
inductive Fits : String → Value → Prop
  | term (field : String) (v : Value) : Fits "term" (.object [(field, v)])
  | matching (field : String) (v : Value) : Fits "match" (.object [(field, v)])
  | terms (field : String) (vs : List Value) : Fits "terms" (.object [(field, .array vs)])
  | range (field : String) (ms : List (String × Value)) :
      Fits "range" (.object [(field, .object ms)])
  | regexp (field p : String) : Fits "regexp" (.object [(field, .string p)])
  | present {ms : List (String × Value)} {f : String} :
      Entries.find? "field" ms = some (.string f) → Fits "exists" (.object ms)
  | multiMatch {ms : List (String × Value)} {q : String} :
      Entries.find? "query" ms = some (.string q) → Fits "multi_match" (.object ms)
  | all (body : Value) : Fits "match_all" body
  | bool {ms : List (String × Value)} :
      (∀ name ∈ partNames, ∀ v, Entries.find? name ms = some v → FitsPart v) →
      Fits "bool" (.object ms)
  | functionScore {body : Value} : (∀ q, body.get? "query" = some q → Accepted q) →
      Fits "function_score" body

/-- What may stand in a part of a compound: a list of clauses, or a lone one. -/
inductive FitsPart : Value → Prop
  | list {vs : List Value} : (∀ v ∈ vs, Accepted v) → FitsPart (.array vs)
  | lone {ms : List (String × Value)} : Accepted (.object ms) → FitsPart (.object ms)
end

/-! ## Places -/

/-- A place where something may be wrong. -/
inductive Place where
  /-- Where a clause has to stand. -/
  | node (v : Value)
  /-- A part of a compound that is there. -/
  | part (name : String) (v : Value)

mutual
/-- The places of a value, depth first. -/
def places : Value → List Place
  | .object [(kind, body)] => .node (.object [(kind, body)]) :: placesIn kind body
  | v => [.node v]
termination_by structural v => v

/-- The places under a kind. -/
def placesIn (kind : String) : Value → List Place
  | .object ms =>
    if kind = "bool" then
      placesOfPart "must" ms ++ placesOfPart "should" ms ++ placesOfPart "must_not" ms
        ++ placesOfPart "filter" ms
    else if kind = "function_score" then placesScored ms
    else []
  | _ => []
termination_by structural v => v

def placesOfPart (name : String) : List (String × Value) → List Place
  | [] => []
  | (k, v) :: ms => if k = name then .part name v :: placesInPart v else placesOfPart name ms
termination_by structural ms => ms

def placesInPart : Value → List Place
  | .array vs => placesOfItems vs
  | .object [(kind, body)] => .node (.object [(kind, body)]) :: placesIn kind body
  | .object ms => [.node (.object ms)]
  | _ => []
termination_by structural v => v

def placesOfItems : List Value → List Place
  | [] => []
  | v :: vs => places v ++ placesOfItems vs
termination_by structural vs => vs

def placesScored : List (String × Value) → List Place
  | [] => []
  | (k, v) :: ms => if k = "query" then places v else placesScored ms
termination_by structural ms => ms
end

/-- A fault, unless a condition holds. -/
def Fault.unless (f : Fault) (holds : Bool) : Option Fault :=
  if holds then none else some f

/-- What is wrong with an object that has to have one member. -/
def entryFault? (inside : Value → Option Fault) : Value → Option Fault
  | .object [(_, v)] => inside v
  | .object _ => some .notOneMember
  | _ => some .notObject

/-- What is wrong with what stands under a kind, apart from what is wrong with clauses in it. -/
def bodyFault? (kind : String) (body : Value) : Option WireError :=
  let malformed : Option Fault → Option WireError := Option.map (.malformed kind)
  match kind with
  | "term" | "match" => malformed (entryFault? (fun _ => none) body)
  | "terms" => malformed (entryFault? (fun v => Fault.valuesNotList.unless v.isArray) body)
  | "range" => malformed (entryFault? (fun v => Fault.boundsNotObject.unless v.isObject) body)
  | "regexp" =>
    malformed (entryFault? (fun v => Fault.patternNotText.unless v.string?.isSome) body)
  | "exists" => malformed (Fault.noField.unless (text? body "field").isSome)
  | "multi_match" => malformed (Fault.noQuery.unless (text? body "query").isSome)
  | "bool" => malformed (Fault.bodyNotObject.unless body.isObject)
  | "match_all" | "function_score" => none
  | _ => some (.unknownClause kind)

/-- What is wrong at a place by itself. -/
def Place.fault? : Place → Option WireError
  | .node (.object [(kind, body)]) => bodyFault? kind body
  | .node (.object _) => some (.malformed "clause" .notOneMember)
  | .node _ => some (.malformed "clause" .notObject)
  | .part name v =>
    ((Fault.partNotList name).unless (v.isArray || v.isObject)).map (.malformed "bool")

/-- The first place that is at fault. -/
def offending? (ps : List Place) : Option Place :=
  ps.find? (·.fault?.isSome)

/-- What is wrong at the first place that is at fault. -/
def firstFault? (ps : List Place) : Option WireError :=
  ps.findSome? Place.fault?

@[simp] theorem firstFault?_nil : firstFault? [] = none := rfl

@[simp] theorem firstFault?_cons (p : Place) (ps : List Place) :
    firstFault? (p :: ps) = p.fault?.or (firstFault? ps) := by
  unfold firstFault?
  rw [List.findSome?_cons]
  cases p.fault? <;> rfl

@[simp] theorem firstFault?_append (ps ps' : List Place) :
    firstFault? (ps ++ ps') = (firstFault? ps).or (firstFault? ps') :=
  List.findSome?_append

theorem firstFault?_eq_some {ps : List Place} {e : WireError} :
    firstFault? ps = some e ↔ ∃ p, offending? ps = some p ∧ p.fault? = some e := by
  induction ps with
  | nil => simp [offending?]
  | cons p ps ih =>
    unfold offending? at ih ⊢
    rw [firstFault?_cons, List.find?_cons]
    cases h : p.fault? with
    | none => simpa [h] using ih
    | some e' => simp [h]

/-! ## What the reader reports -/

/-- What a reader reports. -/
def reported? {α : Type} : Except WireError α → Option WireError
  | .ok _ => none
  | .error e => some e

section

variable {α β : Type}

@[simp] theorem reported?_ok (a : α) : reported? (.ok a) = none := rfl

@[simp] theorem reported?_error (e : WireError) : reported? (.error e : Except _ α) = some e := rfl

theorem reported?_eq_none {r : Except WireError α} : reported? r = none ↔ ∃ a, r = .ok a := by
  cases r <;> simp

theorem reported?_eq_some {r : Except WireError α} {e : WireError} :
    reported? r = some e ↔ r = .error e := by
  cases r <;> simp

@[simp] theorem reported?_map (f : α → β) (r : Except WireError α) :
    reported? (r.map f) = reported? r := by
  cases r <;> rfl

/-- A reader in two parts reports what the first one does, and else what the second one does. -/
theorem reported?_bind {r : Except WireError α} {f : α → Except WireError β}
    {o : Option WireError} (h : ∀ a, reported? (f a) = o) :
    reported? (r >>= f) = (reported? r).or o := by
  cases r with
  | error e => rfl
  | ok a => exact h a

theorem reported?_bind_ok {r : Except WireError α} {f : α → Except WireError β}
    (h : ∀ a, reported? (f a) = none) : reported? (r >>= f) = reported? r := by
  rw [reported?_bind h, Option.or_none]

end

theorem reported?_onlyMember {α : Type} {kind : String} {inside : Value → Option Fault}
    {f : String × Value → Except WireError α}
    (h : ∀ field v, reported? (f (field, v)) = (inside v).map (.malformed kind)) (body : Value) :
    reported? (onlyMember kind body >>= f) = (entryFault? inside body).map (.malformed kind) := by
  cases body with
  | object ms =>
    cases ms with
    | nil => rfl
    | cons m ms =>
      cases ms with
      | nil => exact h m.1 m.2
      | cons m' ms => rfl
  | _ => rfl

/-- The reader of a clause that is not made of others reports what is wrong with its body. -/
theorem reported?_readLeaf {kind : String} (hb : kind ≠ "bool") (hf : kind ≠ "function_score")
    (body : Value) : reported? (readLeaf kind body) = bodyFault? kind body := by
  have entry (kind : String) (c : String × Value → Clause) :
      reported? (onlyMember kind body >>= fun m => .ok (c m)) =
        (entryFault? (fun _ => none) body).map (.malformed kind) :=
    reported?_onlyMember (fun _ _ => rfl) body
  unfold readLeaf
  split
  · exact entry "term" fun m => .term m.1 m.2
  · refine reported?_onlyMember (fun field v => ?_) body
    cases v <;> rfl
  · refine reported?_onlyMember (fun field v => ?_) body
    cases v <;> rfl
  · change _ = (Fault.noField.unless (text? body "field").isSome).map (WireError.malformed _)
    cases text? body "field" <;> rfl
  · exact entry "match" fun m => readMatch m.1 m.2
  · change _ = (Fault.noQuery.unless (text? body "query").isSome).map (WireError.malformed _)
    unfold readMultiMatch
    cases text? body "query" <;> rfl
  · refine reported?_onlyMember (fun field v => ?_) body
    cases v <;> rfl
  · rfl
  · unfold bodyFault?
    split <;> first | rfl | contradiction

/-! ## Reading and places -/

/-- What is no object holds no other clauses. -/
theorem placesIn_flat (kind : String) {v : Value} (h : v.isObject = false) :
    placesIn kind v = [] := by
  cases v with
  | object ms => cases h
  | _ => rfl

theorem reported?_ofBody?_flat (kind : String) {v : Value} (h : v.isObject = false) :
    reported? (ofBody? kind v) = (bodyFault? kind v).or (firstFault? (placesIn kind v)) := by
  have read : ofBody? kind v =
      if kind = "bool" then .error (.malformed "bool" .bodyNotObject)
      else if kind = "function_score" then .ok (.functionScore (.all none) false none)
      else readLeaf kind v := by
    cases v with
    | object ms => cases h
    | _ => rfl
  rw [placesIn_flat kind h, firstFault?_nil, Option.or_none, read]
  by_cases hb : kind = "bool"
  · rw [if_pos hb, hb, bodyFault?, h]
    rfl
  · by_cases hf : kind = "function_score"
    · rw [if_neg hb, if_pos hf, hf]
      rfl
    · rw [if_neg hb, if_neg hf]
      exact reported?_readLeaf hb hf v

mutual
theorem reported?_ofJson? : ∀ v, reported? (ofJson? v) = firstFault? (places v)
  | .object [(kind, body)] => by
    rw [ofJson?, places, firstFault?_cons]
    exact reported?_ofBody? kind body
  | .object [] => rfl
  | .object (_ :: _ :: _) => rfl
  | .null => rfl
  | .bool _ => rfl
  | .number _ => rfl
  | .string _ => rfl
  | .array _ => rfl
termination_by structural v => v

theorem reported?_ofBody? (kind : String) :
    ∀ v, reported? (ofBody? kind v) = (bodyFault? kind v).or (firstFault? (placesIn kind v))
  | .object ms => by
    rw [ofBody?, placesIn]
    by_cases hb : kind = "bool"
    · rw [if_pos hb, if_pos hb, hb, show bodyFault? "bool" (.object ms) = none from rfl,
        Option.none_or]
      simp only [firstFault?_append, Option.or_assoc, ← reported?_part? _ ms]
      refine reported?_bind fun must => reported?_bind fun should => reported?_bind fun mustNot => ?_
      exact reported?_bind_ok fun _ => rfl
    · by_cases hf : kind = "function_score"
      · rw [if_neg hb, if_pos hf, if_neg hb, if_pos hf, hf,
          show bodyFault? "function_score" (.object ms) = none from rfl, Option.none_or,
          ← reported?_scored? ms]
        exact reported?_bind_ok fun _ => rfl
      · rw [if_neg hb, if_neg hf, if_neg hb, if_neg hf, firstFault?_nil, Option.or_none]
        exact reported?_readLeaf hb hf _
  | .null => reported?_ofBody?_flat kind rfl
  | .bool _ => reported?_ofBody?_flat kind rfl
  | .number _ => reported?_ofBody?_flat kind rfl
  | .string _ => reported?_ofBody?_flat kind rfl
  | .array _ => reported?_ofBody?_flat kind rfl
termination_by structural v => v

theorem reported?_part? (name : String) :
    ∀ ms, reported? (part? name ms) = firstFault? (placesOfPart name ms)
  | [] => rfl
  | (k, v) :: ms => by
    rw [part?, placesOfPart]
    by_cases h : k = name
    · rw [if_pos h, if_pos h, firstFault?_cons]
      exact reported?_clauses? name v
    · rw [if_neg h, if_neg h]
      exact reported?_part? name ms
termination_by structural ms => ms

theorem reported?_clauses? (name : String) :
    ∀ v, reported? (clauses? name v) =
      (Place.part name v).fault?.or (firstFault? (placesInPart v))
  | .array vs => by
    rw [clauses?, placesInPart]
    exact reported?_list? vs
  | .object [(kind, body)] => by
    rw [clauses?, placesInPart, reported?_map, firstFault?_cons]
    exact reported?_ofBody? kind body
  | .object [] => rfl
  | .object (_ :: _ :: _) => rfl
  | .null => rfl
  | .bool _ => rfl
  | .number _ => rfl
  | .string _ => rfl
termination_by structural v => v

theorem reported?_list? : ∀ vs, reported? (list? vs) = firstFault? (placesOfItems vs)
  | [] => rfl
  | v :: vs => by
    rw [list?, placesOfItems, firstFault?_append, ← reported?_ofJson? v, ← reported?_list? vs]
    refine reported?_bind fun c => ?_
    exact reported?_bind_ok fun _ => rfl
termination_by structural vs => vs

theorem reported?_scored? : ∀ ms, reported? (scored? ms) = firstFault? (placesScored ms)
  | [] => rfl
  | (k, v) :: ms => by
    rw [scored?, placesScored]
    by_cases h : k = "query"
    · rw [if_pos h, if_pos h]
      exact reported?_ofJson? v
    · rw [if_neg h, if_neg h]
      exact reported?_scored? ms
termination_by structural ms => ms
end

/-! ## The grammar and places -/

theorem Fault.unless_eq_none {f : Fault} {holds : Bool} : f.unless holds = none ↔ holds = true := by
  cases holds <;> simp [Fault.unless]

theorem entryFault?_eq_none {inside : Value → Option Fault} {body : Value} :
    entryFault? inside body = none ↔ ∃ field v, body = .object [(field, v)] ∧ inside v = none := by
  constructor
  · intro h
    unfold entryFault? at h
    split at h
    · exact ⟨_, _, rfl, h⟩
    · cases h
    · cases h
  · rintro ⟨field, v, rfl, h⟩
    exact h

theorem text?_isSome {body : Value} {name : String} :
    (text? body name).isSome = true ↔
      ∃ ms s, body = .object ms ∧ Entries.find? name ms = some (.string s) := by
  constructor
  · intro h
    obtain ⟨s, hs⟩ := Option.isSome_iff_exists.mp h
    obtain ⟨v, hv, ht⟩ := Option.bind_eq_some_iff.mp hs
    cases body with
    | object ms =>
      cases v with
      | string s' => exact ⟨ms, s', rfl, hv⟩
      | _ => cases ht
    | _ => cases hv
  · rintro ⟨ms, s, rfl, h⟩
    change ((Entries.find? name ms).bind Value.string?).isSome = true
    rw [h]
    rfl

/-- A clause that is not made of others fits if nothing is wrong with its body. -/
theorem fits_iff_of_leaf {kind : String} (hb : kind ≠ "bool") (hf : kind ≠ "function_score")
    {body : Value} : Fits kind body ↔ bodyFault? kind body = none := by
  constructor
  · intro h
    cases h with
    | term field v => rfl
    | matching field v => rfl
    | terms field vs => rfl
    | range field ms => rfl
    | regexp field p => rfl
    | all body => rfl
    | present h =>
      have holds := text?_isSome.mpr ⟨_, _, rfl, h⟩
      exact Option.map_eq_none_iff.mpr (Fault.unless_eq_none.mpr holds)
    | multiMatch h =>
      have holds := text?_isSome.mpr ⟨_, _, rfl, h⟩
      exact Option.map_eq_none_iff.mpr (Fault.unless_eq_none.mpr holds)
    | bool h => exact absurd rfl hb
    | functionScore h => exact absurd rfl hf
  · intro h
    unfold bodyFault? at h
    simp only at h
    split at h
    · obtain ⟨field, v, rfl, -⟩ := entryFault?_eq_none.mp (Option.map_eq_none_iff.mp h)
      exact .term field v
    · obtain ⟨field, v, rfl, -⟩ := entryFault?_eq_none.mp (Option.map_eq_none_iff.mp h)
      exact .matching field v
    · obtain ⟨field, v, rfl, h⟩ := entryFault?_eq_none.mp (Option.map_eq_none_iff.mp h)
      cases v with
      | array vs => exact .terms field vs
      | _ => cases h
    · obtain ⟨field, v, rfl, h⟩ := entryFault?_eq_none.mp (Option.map_eq_none_iff.mp h)
      cases v with
      | object ms => exact .range field ms
      | _ => cases h
    · obtain ⟨field, v, rfl, h⟩ := entryFault?_eq_none.mp (Option.map_eq_none_iff.mp h)
      cases v with
      | string p => exact .regexp field p
      | _ => cases h
    · have holds := Fault.unless_eq_none.mp (Option.map_eq_none_iff.mp h)
      obtain ⟨ms, f, rfl, hfield⟩ := text?_isSome.mp holds
      exact .present hfield
    · have holds := Fault.unless_eq_none.mp (Option.map_eq_none_iff.mp h)
      obtain ⟨ms, q, rfl, hquery⟩ := text?_isSome.mp holds
      exact .multiMatch hquery
    · exact absurd rfl hb
    · exact .all body
    · exact absurd rfl hf
    · cases h

/-- A compound fits if each of its parts does. -/
theorem fits_bool_iff {body : Value} :
    Fits "bool" body ↔ ∃ ms, body = .object ms ∧
      ∀ name ∈ partNames, ∀ v, Entries.find? name ms = some v → FitsPart v := by
  refine ⟨fun h => ?_, fun ⟨ms, hb, h⟩ => hb ▸ .bool h⟩
  generalize hk : "bool" = kind at h
  cases h with
  | bool h => exact ⟨_, rfl, h⟩
  | _ => exact absurd hk (by decide)

theorem fits_functionScore_iff {body : Value} :
    Fits "function_score" body ↔ ∀ q, body.get? "query" = some q → Accepted q := by
  refine ⟨fun h => ?_, .functionScore⟩
  generalize hk : "function_score" = kind at h
  cases h with
  | functionScore h => exact h
  | _ => exact absurd hk (by decide)

/-- What is no object holds no other clauses. -/
theorem fits_iff_of_flat (kind : String) {v : Value} (h : v.isObject = false) :
    Fits kind v ↔ (bodyFault? kind v).or (firstFault? (placesIn kind v)) = none := by
  rw [placesIn_flat kind h, firstFault?_nil, Option.or_none]
  have absent (name : String) : v.get? name = none := by
    cases v with
    | object ms => cases h
    | _ => rfl
  by_cases hb : kind = "bool"
  · rw [hb, fits_bool_iff, bodyFault?, h]
    refine ⟨fun ⟨ms, he, _⟩ => ?_, nofun⟩
    rw [he] at h
    cases h
  · by_cases hf : kind = "function_score"
    · rw [hf]
      refine iff_of_true (.functionScore fun q hq => ?_) rfl
      rw [absent] at hq
      cases hq
    · exact fits_iff_of_leaf hb hf

mutual
theorem accepted_iff : ∀ v, Accepted v ↔ firstFault? (places v) = none
  | .object [(kind, body)] => by
    rw [places, firstFault?_cons]
    refine Iff.trans ⟨fun h => ?_, .node⟩ (fits_iff kind body)
    cases h with
    | node h => exact h
  | .object [] => ⟨nofun, nofun⟩
  | .object (_ :: _ :: _) => ⟨nofun, nofun⟩
  | .null => ⟨nofun, nofun⟩
  | .bool _ => ⟨nofun, nofun⟩
  | .number _ => ⟨nofun, nofun⟩
  | .string _ => ⟨nofun, nofun⟩
  | .array _ => ⟨nofun, nofun⟩
termination_by structural v => v

theorem fits_iff (kind : String) :
    ∀ v, Fits kind v ↔ (bodyFault? kind v).or (firstFault? (placesIn kind v)) = none
  | .object ms => by
    rw [placesIn]
    by_cases hb : kind = "bool"
    · rw [if_pos hb, hb, show bodyFault? "bool" (.object ms) = none from rfl, Option.none_or]
      rw [firstFault?_append, firstFault?_append, firstFault?_append, Option.or_eq_none_iff,
        Option.or_eq_none_iff, Option.or_eq_none_iff, ← parts_iff "must" ms,
        ← parts_iff "should" ms, ← parts_iff "must_not" ms, ← parts_iff "filter" ms,
        fits_bool_iff]
      simp [partNames, and_assoc]
    · by_cases hf : kind = "function_score"
      · rw [if_neg hb, if_pos hf, hf,
          show bodyFault? "function_score" (.object ms) = none from rfl, Option.none_or,
          ← acceptedScored_iff ms]
        exact fits_functionScore_iff
      · rw [if_neg hb, if_neg hf, firstFault?_nil, Option.or_none]
        exact fits_iff_of_leaf hb hf
  | .null => fits_iff_of_flat kind rfl
  | .bool _ => fits_iff_of_flat kind rfl
  | .number _ => fits_iff_of_flat kind rfl
  | .string _ => fits_iff_of_flat kind rfl
  | .array _ => fits_iff_of_flat kind rfl
termination_by structural v => v

theorem parts_iff (name : String) : ∀ ms,
    (∀ v, Entries.find? name ms = some v → FitsPart v) ↔ firstFault? (placesOfPart name ms) = none
  | [] => ⟨fun _ => rfl, fun _ => nofun⟩
  | (k, v) :: ms => by
    rw [placesOfPart, Entries.find?]
    by_cases h : k = name
    · rw [if_pos h, if_pos h, firstFault?_cons, ← fitsPart_iff name v]
      exact ⟨fun h => h v rfl, fun h w hw => by cases hw; exact h⟩
    · rw [if_neg h, if_neg h]
      exact parts_iff name ms
termination_by structural ms => ms

theorem fitsPart_iff (name : String) : ∀ v, FitsPart v ↔
    (Place.part name v).fault?.or (firstFault? (placesInPart v)) = none
  | .array vs => by
    rw [placesInPart]
    refine Iff.trans ⟨fun h => ?_, .list⟩ (acceptedItems_iff vs)
    cases h with
    | list h => exact h
  | .object [(kind, body)] => by
    rw [placesInPart, firstFault?_cons]
    refine Iff.trans ⟨fun h => ?_, fun h => .lone (.node h)⟩ (fits_iff kind body)
    cases h with
    | lone h =>
      cases h with
      | node h => exact h
  | .object [] => ⟨nofun, nofun⟩
  | .object (_ :: _ :: _) => ⟨nofun, nofun⟩
  | .null => ⟨nofun, nofun⟩
  | .bool _ => ⟨nofun, nofun⟩
  | .number _ => ⟨nofun, nofun⟩
  | .string _ => ⟨nofun, nofun⟩
termination_by structural v => v

theorem acceptedItems_iff : ∀ vs,
    (∀ v ∈ vs, Accepted v) ↔ firstFault? (placesOfItems vs) = none
  | [] => ⟨fun _ => rfl, fun _ => nofun⟩
  | v :: vs => by
    rw [List.forall_mem_cons, placesOfItems, firstFault?_append, Option.or_eq_none_iff,
      accepted_iff v, acceptedItems_iff vs]
termination_by structural vs => vs

theorem acceptedScored_iff : ∀ ms,
    (∀ v, Entries.find? "query" ms = some v → Accepted v) ↔
      firstFault? (placesScored ms) = none
  | [] => ⟨fun _ => rfl, fun _ => nofun⟩
  | (k, v) :: ms => by
    rw [placesScored, Entries.find?]
    by_cases h : k = "query"
    · rw [if_pos h, if_pos h, ← accepted_iff v]
      exact ⟨fun h => h v rfl, fun h w hw => by cases hw; exact h⟩
    · rw [if_neg h, if_neg h]
      exact acceptedScored_iff ms
termination_by structural ms => ms
end

/-! ## The reader accepts the grammar -/

/-- What is malformed is not unknown. -/
theorem malformed_ne_unknownClause {kind k : String} (o : Option Fault) :
    o.map (WireError.malformed kind) ≠ some (.unknownClause k) := by
  cases o <;> exact nofun

theorem bodyFault?_eq_unknownClause {kind k : String} {body : Value} :
    bodyFault? kind body = some (.unknownClause k) ↔ k = kind ∧ kind ∉ kinds := by
  have known {kind : String} {o : Option WireError} (ho : o ≠ some (.unknownClause k))
      (hk : kind ∈ kinds) : o = some (.unknownClause k) ↔ k = kind ∧ kind ∉ kinds :=
    iff_of_false ho fun h => h.2 hk
  unfold bodyFault?
  simp only
  split
  case h_11 =>
    have new : kind ∉ kinds := by simp_all [kinds]
    exact ⟨fun h => ⟨by cases h; rfl, new⟩, fun ⟨h, _⟩ => by rw [h]⟩
  all_goals first
    | exact known (malformed_ne_unknownClause _) (by decide)
    | exact known nofun (by decide)

theorem fault?_eq_unknownClause {p : Place} {k : String} :
    p.fault? = some (.unknownClause k) ↔ ∃ body, p = .node (.object [(k, body)]) ∧ k ∉ kinds := by
  constructor
  · intro h
    unfold Place.fault? at h
    split at h
    · obtain ⟨rfl, hk⟩ := bodyFault?_eq_unknownClause.mp h
      exact ⟨_, rfl, hk⟩
    · cases h
    · cases h
    · exact absurd h (malformed_ne_unknownClause _)
  · rintro ⟨body, rfl, hk⟩
    exact bodyFault?_eq_unknownClause.mpr ⟨rfl, hk⟩

/-- A value is read as a clause exactly if it is one by the grammar. Of any other value that is
reported which is wrong at its first place at fault, and a clause is reported as unknown exactly if
that place is an object with one member whose name is no kind. -/
theorem reads_grammar (v : Value) :
    ((∃ c, ofJson? v = .ok c) ↔ Accepted v) ∧
      (∀ e, ofJson? v = .error e ↔ ∃ p, offending? (places v) = some p ∧ p.fault? = some e) ∧
      ∀ k, ofJson? v = .error (.unknownClause k) ↔
        ∃ body, offending? (places v) = some (.node (.object [(k, body)])) ∧ k ∉ kinds := by
  have reports (e : WireError) :
      ofJson? v = .error e ↔ ∃ p, offending? (places v) = some p ∧ p.fault? = some e := by
    rw [← reported?_eq_some, reported?_ofJson?, firstFault?_eq_some]
  refine ⟨?_, reports, fun k => ?_⟩
  · rw [← reported?_eq_none, reported?_ofJson?, accepted_iff]
  · rw [reports]
    constructor
    · rintro ⟨p, hp, hk⟩
      obtain ⟨body, rfl, unknown⟩ := fault?_eq_unknownClause.mp hk
      exact ⟨body, hp, unknown⟩
    · rintro ⟨body, hp, hk⟩
      exact ⟨_, hp, fault?_eq_unknownClause.mpr ⟨body, rfl, hk⟩⟩

/-- An unknown clause in the first part is reported before a part that is no list. -/
example : ofJson? (single "bool" (.object [("filter", .null), ("must", single "prefix" .null)])) =
    .error (.unknownClause "prefix") := rfl

end ContentIndex.Query
