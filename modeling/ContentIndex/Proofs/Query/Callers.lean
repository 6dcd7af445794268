import ContentIndex.Proofs.Query.Clock
import ContentIndex.Proofs.Query.Membership

/-
  What callers with and without privileges see. The filter that is compiled for a caller admits a
  document, given which clauses on fields match it; of these, the clauses on the status say what
  the status of the document is. Only the statuses that a request leaves open depend on the
  caller. So a document that is seen without privileges is seen with them too, with one
  exception (`privileged_sees_iff`): if no status is public, a caller without privileges is not
  restricted to any status, while one with privileges is restricted to the private ones.
-/

namespace ContentIndex.Query

open Json (Value)
open Calendar (Moment)

/-- Whether a document belongs to the result, given which clauses on fields match it. -/
def CompiledQuery.admits (q : CompiledQuery) (leaf : Clause → Bool) : Bool :=
  q.postFilter.all (·.condition leaf)

/-- The clauses on the status match as they do for a document that has this one. -/
structure HasStatus (status : String) (leaf : Clause → Bool) : Prop where
  term (v : Value) : leaf (.term "post_status" v) = true ↔ v = .string status
  terms (vs : List Value) : leaf (.terms "post_status" vs) = true ↔ .string status ∈ vs

/-- A filter by value lets a value pass. -/
def ValueFilter.Allows : ValueFilter → String → Prop
  | .any, _ => True
  | .one v, s => s = v
  | .many vs, s => s ∈ vs

variable {c : Config} {r : Request} {privileged : Bool} {now : Moment} {leaf : Clause → Bool}
  {status : String}

/-- The filter admits what satisfies each part of the request. -/
theorem admits_compile_iff :
    (compile c [] r privileged now).admits leaf = true ↔
      ∀ d, ∀ f ∈ r.asks c privileged now d, f leaf = true := by
  let membership := r.membership c privileged now
  have hasks : (∀ f ∈ membership.asks, f leaf = true) ↔
      ∀ d, ∀ f ∈ r.asks c privileged now d, f leaf = true := by
    simp only [membership, r.mem_asks_membership, forall_exists_index]
    exact forall_comm
  rw [← hasks, CompiledQuery.admits, compile_postFilter]
  split
  next h =>
    rw [(Compound.isEmpty_iff rfl rfl).mp h]
    simp
  next =>
    rw [Option.all_some]
    exact Compound.condition_eq_true_iff rfl rfl leaf

/-! ## Statuses -/

theorem ValueFilter.forall_asks_iff (h : HasStatus status leaf) (v : ValueFilter) :
    (∀ f ∈ v.asks "post_status", f leaf = true) ↔ v.Allows status := by
  cases v with
  | any => exact ⟨fun _ => trivial, fun _ f hf => absurd hf List.not_mem_nil⟩
  | one v =>
    rw [asks, List.forall_mem_singleton, h.term, Value.string.injEq]
    exact eq_comm
  | many vs =>
    rw [asks, List.forall_mem_singleton, h.terms]
    simp [Allows]

/-- A caller is restricted to the statuses that are listed for it; if none is, it sees all. -/
theorem visibleStatuses_allows_iff :
    (visibleStatuses c privileged).Allows status ↔
      let listed := c.publicStatuses ++ if privileged then c.privateStatuses else []
      listed = [] ∨ status ∈ listed := by
  unfold visibleStatuses
  dsimp only
  split <;> simp_all [ValueFilter.Allows]

/-- What a request asks for does not depend on the caller, except for the status. -/
theorem Request.asks_of_ne_status {d : Dimension} (h : d ≠ .status) :
    r.asks c true now d = r.asks c false now d := by
  cases d <;> first | rfl | exact absurd rfl h

/-- Of two callers, one sees a document that the other sees if it is allowed its status. -/
theorem admits_iff_of_admits (h : HasStatus status leaf)
    (seen : (compile c [] r false now).admits leaf = true) :
    (compile c [] r true now).admits leaf = true ↔
      (r.status.getD (visibleStatuses c true)).Allows status := by
  rw [admits_compile_iff] at seen ⊢
  rw [← ValueFilter.forall_asks_iff h]
  constructor
  · intro hall
    exact hall .status
  · intro hstatus d
    by_cases hd : d = .status
    · subst hd
      exact hstatus
    · rw [Request.asks_of_ne_status hd]
      exact seen d

/-- A document that is seen without privileges is seen with them, whatever the moment, exactly
unless the request names no status, no status is public and the document has none of the private
ones, of which there are some. -/
theorem privileged_sees_iff (c : Config) (r : Request) (now now' : Moment)
    (timeless : r.isTimeless = true) {status : String} {leaf : Clause → Bool}
    (document : HasStatus status leaf)
    (seen : (compile c [] r false now).admits leaf = true) :
    (compile c [] r true now').admits leaf = true ↔
      ¬ (r.status = none ∧ c.publicStatuses = [] ∧ c.privateStatuses ≠ [] ∧
        status ∉ c.privateStatuses) := by
  have hclock : (compile c [] r true now').admits leaf = (compile c [] r true now).admits leaf := by
    rw [CompiledQuery.admits, CompiledQuery.admits, compile_postFilter, compile_postFilter,
      Request.membership_of_timeless timeless]
  have hallowed : (r.status.getD (visibleStatuses c false)).Allows status := by
    rw [← ValueFilter.forall_asks_iff document]
    exact admits_compile_iff.mp seen .status
  rw [hclock, admits_iff_of_admits document seen]
  cases hs : r.status with
  | some v =>
    rw [hs] at hallowed
    simpa using hallowed
  | none =>
    rw [hs, Option.getD_none, visibleStatuses_allows_iff] at hallowed
    rw [Option.getD_none, visibleStatuses_allows_iff]
    simp only [Bool.false_eq_true, if_false, if_true, List.append_nil, List.append_eq_nil_iff,
      List.mem_append] at hallowed ⊢
    rcases hallowed with hnil | hpublic
    · simp only [hnil, List.not_mem_nil, false_or, true_and, ne_eq]
      exact Decidable.or_iff_not_not_and_not
    · have hne : c.publicStatuses ≠ [] := List.ne_nil_of_mem hpublic
      simp [hne, hpublic]

/-- All clauses on fields match, but those on the status match as they do for a document that has
this one. -/
def matchingAll (status : String) : Clause → Bool
  | .term "post_status" v => decide (v = .string status)
  | .terms "post_status" vs => decide (.string status ∈ vs)
  | _ => true

theorem hasStatus_matchingAll (status : String) : HasStatus status (matchingAll status) where
  term _ := decide_eq_true_iff
  terms _ := decide_eq_true_iff

/-- What is published and seen by everybody is seen by a caller with privileges. -/
theorem privileged_sees_published :
    let r : Request := { ids := [7] }
    HasStatus "publish" (matchingAll "publish") ∧ r.isTimeless = true ∧
      (compile {} [] r false .epoch).admits (matchingAll "publish") = true ∧
      (compile {} [] r true .epoch).admits (matchingAll "publish") = true := by
  intro r
  have document := hasStatus_matchingAll "publish"
  have seen : (compile {} [] r false .epoch).admits (matchingAll "publish") = true := rfl
  refine ⟨document, rfl, seen, ?_⟩
  exact (privileged_sees_iff {} r .epoch .epoch rfl document seen).mpr (by decide)

/-- Where no status is public, a published document is seen by everybody but not by a caller with
privileges. -/
theorem privileged_sees_less :
    let c : Config := { publicStatuses := [] }
    let r : Request := {}
    HasStatus "publish" (matchingAll "publish") ∧ r.isTimeless = true ∧
      (compile c [] r false .epoch).admits (matchingAll "publish") = true ∧
      (compile c [] r true .epoch).admits (matchingAll "publish") = false :=
  ⟨hasStatus_matchingAll "publish", rfl, rfl, rfl⟩

end ContentIndex.Query
