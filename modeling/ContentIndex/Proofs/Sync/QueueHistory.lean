import ContentIndex.Sync.Queue
import Mathlib.Data.List.Induction

/-
  What a queue holds after any sequence of operations that starts from the empty queue. An id waits
  for that which was asked for it last, as long as the ids that wait for the same have been neither
  handed out nor cleared since (`mem_waiting_after`). This is read off the sequence alone; what an
  operation answers then follows from what it finds (`after_waits_and_answers`).

  The two sets of a queue are treated alike: `Purpose` names what an id waits for, and `askFor` and
  `drainFor` are the operations of either set.
-/

namespace ContentIndex.Sync

/-- What an id can wait for. -/
inductive Purpose where
  | indexing
  | removal
deriving DecidableEq, Repr

namespace Queue

/-- The ids that wait for something. -/
def waiting (q : Queue) : Purpose → IdSet
  | .indexing => q.pending
  | .removal => q.removals

def askFor (q : Queue) (p : Purpose) (id : UInt64) : Bool × Queue :=
  match p with
  | .indexing => q.enqueue id
  | .removal => q.enqueueRemoval id

def drainFor (q : Queue) : Purpose → List UInt64 × Queue
  | .indexing => q.drain
  | .removal => q.drainRemovals

/-! ## Single operations -/

theorem mem_waiting_askFor {q : Queue} {p r : Purpose} {id x : UInt64} :
    x ∈ (q.askFor p id).2.waiting r ↔ (r = p ∧ x = id) ∨ (x ∈ q.waiting r ∧ x ≠ id) := by
  cases p <;> cases r <;> simp [askFor, waiting, enqueue, enqueueRemoval]
  -- the set that is asked for: whether the id was in it already makes no difference
  all_goals
    by_cases h : x = id <;> simp [h]

theorem mem_waiting_drainFor {q : Queue} {p r : Purpose} {x : UInt64} :
    x ∈ (q.drainFor p).2.waiting r ↔ x ∈ q.waiting r ∧ r ≠ p := by
  cases p <;> cases r <;> simp [drainFor, waiting, drain, drainRemovals]

theorem not_mem_waiting_clear {q : Queue} {r : Purpose} {x : UInt64} :
    ¬ x ∈ q.clear.waiting r := by
  cases r <;> simp [waiting, clear]

theorem drainFor_waiting_self (q : Queue) (p : Purpose) : (q.drainFor p).2.waiting p = ∅ := by
  cases p <;> rfl

theorem drainFor_waiting_ne (q : Queue) {p r : Purpose} (h : r ≠ p) :
    (q.drainFor p).2.waiting r = q.waiting r := by
  cases p <;> cases r <;> first | rfl | exact absurd rfl h

theorem askFor_fst (q : Queue) (p : Purpose) (id : UInt64) :
    (q.askFor p id).1 = false ↔ id ∈ q.waiting p := by
  cases p <;> simp [askFor, waiting, enqueue, enqueueRemoval]

theorem drainFor_fst (q : Queue) (p : Purpose) :
    (q.drainFor p).1 = (q.waiting p).descending := by
  cases p <;> rfl

/-! ## Sequences -/

inductive Operation where
  | ask (p : Purpose) (id : UInt64)
  | drain (p : Purpose)
  | clear
deriving DecidableEq, Repr

def next (q : Queue) : Operation → Queue
  | .ask p id => (q.askFor p id).2
  | .drain p => (q.drainFor p).2
  | .clear => q.clear

/-- The queue after a sequence of operations. -/
def after (ops : List Operation) : Queue :=
  ops.foldl next {}

/-- The operation decides anew whether an id waits for something. -/
def Operation.Decides (p : Purpose) (id : UInt64) : Operation → Prop
  | .ask _ x => x = id
  | .drain r => r = p
  | .clear => True

/-- The last operation that decides whether an id waits for something has asked for it. -/
def AskedLast (ops : List Operation) (p : Purpose) (id : UInt64) : Prop :=
  ∃ earlier later, ops = earlier ++ .ask p id :: later ∧ ∀ op ∈ later, ¬ op.Decides p id

theorem not_askedLast_nil {p : Purpose} {id : UInt64} : ¬ AskedLast [] p id := by
  rintro ⟨earlier, later, h, -⟩
  cases earlier <;> cases h

theorem askedLast_append_singleton {ops : List Operation} {op : Operation} {p : Purpose}
    {id : UInt64} :
    AskedLast (ops ++ [op]) p id ↔
      op = .ask p id ∨ (AskedLast ops p id ∧ ¬ op.Decides p id) := by
  constructor
  · rintro ⟨earlier, later, h, hlater⟩
    rcases List.eq_nil_or_concat later with rfl | ⟨later, last, rfl⟩
    · obtain ⟨-, h⟩ := List.append_inj' h rfl
      exact .inl (List.cons.inj h).1
    · rw [List.concat_eq_append] at h hlater
      rw [← List.cons_append, ← List.append_assoc] at h
      obtain ⟨hops, hlast⟩ := List.append_inj' h rfl
      obtain rfl := (List.cons.inj hlast).1
      refine .inr ⟨⟨earlier, later, hops, fun x hx => ?_⟩, ?_⟩
      · exact hlater x (List.mem_append_left _ hx)
      · exact hlater op (List.mem_append_right _ (List.mem_singleton.mpr rfl))
  · rintro (rfl | ⟨⟨earlier, later, rfl, hlater⟩, hop⟩)
    · exact ⟨ops, [], rfl, fun x hx => absurd hx List.not_mem_nil⟩
    · refine ⟨earlier, later ++ [op], by rw [List.append_assoc, List.cons_append], ?_⟩
      intro x hx
      rcases List.mem_append.mp hx with hx | hx
      · exact hlater x hx
      · rwa [List.mem_singleton.mp hx]

/-- What one operation makes of the ids that wait. -/
theorem mem_waiting_next {q : Queue} {op : Operation} {p : Purpose} {id : UInt64} :
    id ∈ (q.next op).waiting p ↔ op = .ask p id ∨ (id ∈ q.waiting p ∧ ¬ op.Decides p id) := by
  cases op with
  | ask r x => grind [next, mem_waiting_askFor, Operation.Decides]
  | drain r => grind [next, mem_waiting_drainFor, Operation.Decides]
  | clear => simp [next, not_mem_waiting_clear, Operation.Decides]

theorem next_disjoint {q : Queue} (h : q.Disjoint) (op : Operation) : (q.next op).Disjoint := by
  cases op with
  | ask p id =>
    cases p with
    | indexing => exact enqueue_disjoint h id
    | removal => exact enqueueRemoval_disjoint h id
  | drain p =>
    cases p with
    | indexing => exact drain_disjoint q
    | removal => exact drainRemovals_disjoint q
  | clear => exact clear_disjoint q

theorem after_append_singleton (ops : List Operation) (op : Operation) :
    after (ops ++ [op]) = (after ops).next op := by
  rw [after, List.foldl_append]
  rfl

theorem after_disjoint (ops : List Operation) : (after ops).Disjoint := by
  induction ops using List.reverseRecOn with
  | nil => exact empty_disjoint
  | append_singleton ops op ih =>
    rw [after_append_singleton]
    exact next_disjoint ih op

/-- An id waits for something exactly if that was asked for it last. -/
theorem mem_waiting_after (ops : List Operation) (p : Purpose) (id : UInt64) :
    id ∈ (after ops).waiting p ↔ AskedLast ops p id := by
  induction ops using List.reverseRecOn with
  | nil =>
    refine iff_of_false ?_ not_askedLast_nil
    cases p <;> exact IdSet.not_mem_empty
  | append_singleton ops op ih =>
    rw [after_append_singleton, mem_waiting_next, ih, askedLast_append_singleton]

/-- After any sequence of operations no id waits for both, and each waits for that which was asked
for it last. To ask again for what an id waits for is answered by false. To drain a set hands out
its ids, the highest first, and leaves that set empty and the other one as it was. -/
theorem after_waits_and_answers (ops : List Operation) :
    let q := after ops
    (∀ id, ¬ (id ∈ q.pending ∧ id ∈ q.removals)) ∧
      (∀ p id, id ∈ q.waiting p ↔ AskedLast ops p id) ∧
      (∀ p id, (q.askFor p id).1 = false ↔ id ∈ q.waiting p) ∧
      ∀ p, (q.drainFor p).1.Pairwise (· > ·) ∧
        (∀ id, id ∈ (q.drainFor p).1 ↔ id ∈ q.waiting p) ∧
        (q.drainFor p).2.waiting p = ∅ ∧
        ∀ r, r ≠ p → (q.drainFor p).2.waiting r = q.waiting r := by
  intro q
  have hdisjoint : q.Disjoint := after_disjoint ops
  refine ⟨fun id h => hdisjoint id h.1 h.2, mem_waiting_after ops, q.askFor_fst, fun p => ?_⟩
  refine ⟨?_, fun id => ?_, q.drainFor_waiting_self p, fun r hr => q.drainFor_waiting_ne hr⟩
  · rw [drainFor_fst]
    exact (q.waiting p).descending_pairwise
  · rw [drainFor_fst, IdSet.mem_descending]

example : ((after [.ask .indexing 5, .ask .removal 5, .drain .indexing]).drainFor .removal).1 =
    [5] := by decide

end Queue
end ContentIndex.Sync
