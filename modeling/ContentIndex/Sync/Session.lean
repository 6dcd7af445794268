import ContentIndex.Indexer.Bulk
import ContentIndex.Indexer.Write
import ContentIndex.Sync.Queue

/-
  The end of a sync session. What the queue holds is written to the index: first the items in one
  bulk write, then the removals one by one, whether or not the bulk write failed.
-/

namespace ContentIndex.Sync

/-- What a session did. -/
structure Report where
  indexed : BulkOutcome := {}
  removed : Nat := 0
  removalFailures : Nat := 0
deriving DecidableEq, Repr

/-- Removes documents, and counts the removals that succeeded and those that failed. -/
def removeAll (x : Indexer) (ids : List UInt64) : Action (Nat × Nat) :=
  ids.foldlM (fun (removed, failures) id => do
    if ← x.deleteOne id then pure (removed + 1, failures) else pure (removed, failures + 1)) (0, 0)

/-- Writes what a queue holds to the index. -/
def finish (x : Indexer) (q : Queue) : Action Report := do
  let (ids, q) := q.drain
  let (removals, _) := q.drainRemovals
  Action.measure (.drained ids.length removals.length)
  let indexed ← if ids.isEmpty then pure (.ok {}) else (x.bulkIndex ids).result
  let (removed, failures) ← removeAll x removals
  Action.ofExcept id (indexed.map fun o => ⟨o, removed, failures⟩)

end ContentIndex.Sync
