import ContentIndex.IdSet

/-
  The queue of a sync session: ids to be indexed, and ids to be removed from the index. An id waits
  for at most one of the two, that which was asked for last.
-/

namespace ContentIndex.Sync

structure Queue where
  pending : IdSet := ∅
  removals : IdSet := ∅
deriving DecidableEq

namespace Queue

/-- Asks for an id to be indexed. The answer is whether it did not wait for that yet. -/
def enqueue (q : Queue) (id : UInt64) : Bool × Queue :=
  (!q.pending.contains id, ⟨q.pending.insert id, q.removals.erase id⟩)

/-- Asks for an id to be removed. The answer is whether it did not wait for that yet. -/
def enqueueRemoval (q : Queue) (id : UInt64) : Bool × Queue :=
  (!q.removals.contains id, ⟨q.pending.erase id, q.removals.insert id⟩)

def isEmpty (q : Queue) : Bool :=
  q.pending.isEmpty && q.removals.isEmpty

/-- The ids to be indexed, the highest first, and the queue without them. -/
def drain (q : Queue) : List UInt64 × Queue :=
  (q.pending.descending, { q with pending := ∅ })

/-- The ids to be removed, the highest first, and the queue without them. -/
def drainRemovals (q : Queue) : List UInt64 × Queue :=
  (q.removals.descending, { q with removals := ∅ })

/-- The queue without any ids. -/
def clear (q : Queue) : Queue :=
  { q with pending := ∅, removals := ∅ }

/-! ## Laws -/

/-- No id waits for both. -/
def Disjoint (q : Queue) : Prop :=
  ∀ id, id ∈ q.pending → ¬ id ∈ q.removals

theorem empty_disjoint : Disjoint {} :=
  fun _ _ => IdSet.not_mem_empty

theorem enqueue_disjoint {q : Queue} (h : q.Disjoint) (id : UInt64) :
    (q.enqueue id).2.Disjoint := by
  intro x hx hr
  obtain ⟨hr, hne⟩ := IdSet.mem_erase.mp hr
  rcases IdSet.mem_insert.mp hx with rfl | hx
  · exact hne rfl
  · exact h x hx hr

theorem enqueueRemoval_disjoint {q : Queue} (h : q.Disjoint) (id : UInt64) :
    (q.enqueueRemoval id).2.Disjoint := by
  intro x hx hr
  obtain ⟨hx, hne⟩ := IdSet.mem_erase.mp hx
  rcases IdSet.mem_insert.mp hr with rfl | hr
  · exact hne rfl
  · exact h x hx hr

theorem drain_disjoint (q : Queue) : q.drain.2.Disjoint :=
  fun _ hx => absurd hx IdSet.not_mem_empty

theorem drainRemovals_disjoint (q : Queue) : q.drainRemovals.2.Disjoint :=
  fun _ _ => IdSet.not_mem_empty

theorem clear_disjoint (q : Queue) : q.clear.Disjoint :=
  empty_disjoint

end Queue
end ContentIndex.Sync
