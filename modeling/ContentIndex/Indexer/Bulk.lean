import ContentIndex.Bulk.Answer
import ContentIndex.Bulk.Batch
import ContentIndex.Indexer.Basic
import ContentIndex.Resilience.Retry

/-
  Writing many items. Their documents are collected in batches; a batch is sent, and of it what the
  engine did not accept is sent again, until nothing is left, a request fails as a whole or the
  attempts are used up. What is left then has failed and goes to the ledger.
-/

namespace ContentIndex

/-- What became of the items of a bulk write. -/
structure BulkOutcome where
  indexed : Nat := 0
  failed : Nat := 0
  skipped : Nat := 0
  retries : Nat := 0
  failedIds : List UInt64 := []
deriving DecidableEq, Repr

namespace BulkOutcome

def isSuccess (o : BulkOutcome) : Bool := o.failed == 0

/-- The outcome of two writes. -/
def merge (a b : BulkOutcome) : BulkOutcome where
  indexed := a.indexed + b.indexed
  failed := a.failed + b.failed
  skipped := a.skipped + b.skipped
  retries := a.retries + b.retries
  failedIds := a.failedIds ++ b.failedIds

end BulkOutcome

namespace Indexer

open Bulk (Batch Entry)

/-- The request that writes entries. -/
def bulkRequest (x : Indexer) (paths : Engine.Paths) (entries : List Entry) : Engine.Request :=
  (Engine.Request.post paths.bulk (Bulk.body entries)).ndjson.withTimeout x.config.bulkTimeoutMs

/-- The ids that an answer to a bulk request rejects. -/
def rejectedBy (entries : List Entry) (answer : Except Engine.TransportError Engine.Response) :
    Except IndexError IdSet := do
  let response ← (answer.bind (·.checked)).mapError .transport
  let json ← response.json.mapError .transport
  match Bulk.Answer.read? json with
  | some a => .ok (a.rejected (entries.map (·.id)))
  | none => .error (.invalidResponse "bulk response has no items")

/-- Sends entries once, and gives the ids that were rejected. -/
def submit (x : Indexer) (paths : Engine.Paths) (entries : List Entry) : Action IdSet := do
  let request := x.bulkRequest paths entries
  Action.measure (.bulkBytes (Bulk.body entries).utf8ByteSize)
  let answer ← Action.send request
  Action.measure (.timed "bulk")
  Action.ofExcept id (rejectedBy entries answer)

/-- The pause between two attempts at a batch. -/
def bulkPolicy (x : Indexer) : RetryPolicy :=
  .bulk x.config.bulkMaxAttempts (x.config.bulkRetryDelayMs.toNat * nanosPerMilli)

/-- Sends entries until none is left; `left` more attempts remain after this one. Gives the entries
that failed and the number of the last attempt. Without an offset the ids are the only way back
to the items of a request that failed as a whole. -/
def flushFrom (x : Indexer) (paths : Engine.Paths) (offset : Option UInt64) (attempt : Nat)
    (pending : List Entry) (left : Nat) : Action (List Entry × Nat) := do
  Action.pause (x.bulkPolicy.delayFor attempt)
  match ← (x.submit paths pending).result with
  | .error _ =>
    x.recordFailures (if offset.isSome then [] else pending.map (·.id)) offset
    pure (pending, attempt)
  | .ok rejected =>
    let pending := pending.filter fun e => rejected.contains e.id
    if pending.isEmpty then pure (pending, attempt)
    else
      match left with
      | 0 =>
        x.recordFailures (pending.map (·.id)) offset
        pure (pending, attempt)
      | left + 1 =>
        Action.measure (.bulkRetry (attempt + 1) pending.length)
        flushFrom x paths offset (attempt + 1) pending left

/-- Writes the entries of one batch. -/
def flush (x : Indexer) (paths : Engine.Paths) (offset : Option UInt64) (entries : List Entry) :
    Action BulkOutcome := do
  let (failed, attempts) ←
    x.flushFrom paths offset 1 entries (x.config.bulkMaxAttempts.toNat - 1)
  let outcome : BulkOutcome := {
    indexed := entries.length - failed.length
    failed := failed.length
    retries := attempts - 1
    failedIds := failed.map (·.id) }
  Action.measure (.indexed outcome.indexed)
  Action.measure (.failed outcome.failed)
  pure outcome

/-- Writes what a batch holds. -/
def flushBatch (x : Indexer) (paths : Engine.Paths) (offset : Option UInt64) (b : Batch)
    (o : BulkOutcome) : Action (Batch × BulkOutcome) := do
  let (entries, b) := b.take
  pure (b, o.merge (← x.flush paths offset entries))

/-- Adds one item to a batch, and writes the batch if it has to be sent. An item that cannot be
prepared has failed; one that is gone, or that a hook leaves out, is skipped. -/
def addItem (x : Indexer) (paths : Engine.Paths) (offset : Option UInt64)
    (state : Batch × BulkOutcome) (id : UInt64) : Action (Batch × BulkOutcome) := do
  let (b, o) := state
  match ← Action.prepare id with
  | .error _ =>
    x.recordFailures [id] offset
    Action.measure (.failed 1)
    pure (b, { o with failed := o.failed + 1, failedIds := o.failedIds ++ [id] })
  | .ok none => pure (b, { o with skipped := o.skipped + 1 })
  | .ok (some d) =>
    if x.hooks.skips d then pure (b, { o with skipped := o.skipped + 1 })
    else
      let (b, full) := b.push (.ofDocument (x.hooks.prepare d))
      if full.isSome then x.flushBatch paths offset b o else pure (b, o)

/-- Writes items, those of the page at an offset if one is given. -/
def bulkInto (x : Indexer) (paths : Engine.Paths) (offset : Option UInt64) (ids : List UInt64) :
    Action BulkOutcome := do
  let empty := Batch.withLimits x.config.bulkPageSize.toNat x.config.bulkFlushBytes.toNat
  let (b, o) ← ids.foldlM (x.addItem paths offset) (empty, {})
  let (_, o) ← if b.entries.isEmpty then pure (b, o) else x.flushBatch paths offset b o
  Action.measure (.skipped o.skipped)
  pure o

/-- Writes items to the index. -/
def bulkIndex (x : Indexer) (ids : List UInt64) : Action BulkOutcome :=
  x.bulkInto x.paths none ids

end Indexer
end ContentIndex
