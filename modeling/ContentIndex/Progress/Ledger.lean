import ContentIndex.IdSet
import ContentIndex.Progress.RunId
import ContentIndex.Progress.Store

/-
  The ledger of failures: ids of items that were not written, and offsets of pages that hold such
  items. Its two sets are separate records. A rebuild reports the ledger at the end of each scope
  and clears it.
-/

namespace ContentIndex

open Json (Reader Value)

structure Ledger where
  items : IdSet := ∅
  offsets : IdSet := ∅
deriving DecidableEq

/-- What the host is told of failures. The moment of the report, which it is told too, is left out:
nothing here reads it. -/
structure FailureReport where
  scope : Option String
  run : Option RunId
  items : List UInt64
  offsets : List UInt64
deriving DecidableEq, Repr

def FailureReport.toJson (r : FailureReport) : Value :=
  .object [
    ("scope", .ofOption .string r.scope),
    ("run_id", .ofOption RunId.toJson r.run),
    ("failed_items", .array (r.items.map .ofUInt64)),
    ("failed_offsets", .array (r.offsets.map .ofUInt64))]

namespace Ledger

def isEmpty (l : Ledger) : Bool :=
  l.items.isEmpty && l.offsets.isEmpty

/-- The ledger with more failures in it. -/
def add (l : Ledger) (items : List UInt64) (offset : Option UInt64) : Ledger :=
  ⟨l.items.union items, l.offsets.union offset.toList⟩

/-- What is reported at the end of a scope. -/
def report (l : Ledger) (scope : Option String) (run : Option RunId) : FailureReport :=
  ⟨scope, run, l.items.ids, l.offsets.ids⟩

/-! ## Records -/

def idsToJson (s : IdSet) : Value :=
  .array (s.ids.map .ofUInt64)

def readIds : Reader IdSet :=
  fun t => (Reader.list Reader.uint64 t).map IdSet.ofList

def load (keys : RecordKeys) : StoreAction Ledger := do
  let items ← StoreAction.load readIds keys.failedItems
  let offsets ← StoreAction.load readIds keys.failedOffsets
  pure ⟨items.getD ∅, offsets.getD ∅⟩

def save (keys : RecordKeys) (l : Ledger) : StoreAction Unit := do
  StoreAction.save keys.failedItems (idsToJson l.items)
  StoreAction.save keys.failedOffsets (idsToJson l.offsets)

/-- Adds failures to the stored ledger. -/
def record (keys : RecordKeys) (items : List UInt64) (offset : Option UInt64) :
    StoreAction Unit := do
  save keys ((← load keys).add items offset)

/-- Removes the stored ledger. -/
def clear (keys : RecordKeys) : StoreAction Unit := do
  StoreAction.delete keys.failedItems
  StoreAction.delete keys.failedOffsets

end Ledger
end ContentIndex
