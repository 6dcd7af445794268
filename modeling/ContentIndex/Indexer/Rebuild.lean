import ContentIndex.Indexer.Bulk
import ContentIndex.Indexer.Write

/-
  Rebuilding the index from the content store, scope by scope and page by page. The position is
  kept in the state record, so that a rebuild can be given up and taken up again. Before a step
  writes the record it looks whether the record still names its own rebuild; if it does not, the
  rebuild was cancelled.
-/

namespace ContentIndex

/-- The end of a rebuild. -/
structure Summary where
  run : RunId
  synced : UInt64
  failed : UInt64
deriving DecidableEq, Repr

/-- What a step of a rebuild leads to. -/
inductive RebuildStep where
  | progress (c : Cursor)
  | completed (s : Summary)
deriving DecidableEq

namespace Indexer

/-! ## The state record -/

def loadState (x : Indexer) : Action IndexState :=
  .stored (IndexState.load x.keys)

def saveState (x : Indexer) (s : IndexState) : Action Unit :=
  .stored (IndexState.save x.keys s)

def phase (x : Indexer) : Action Phase := do
  return (← x.loadState).phase

/-- Gives up the rebuild that is running, if there is one, and turns reads off. -/
def cancel (x : Indexer) : Action Unit :=
  x.saveState .cancelled

/-- Turns reads on, unless a rebuild is running. -/
def enableReads (x : Indexer) : Action Unit := do
  let s ← x.loadState
  Action.require (!s.isRunning) .rebuildRunning
  x.saveState { s with readEnabled := true }

/-! ## Steps -/

/-- Fails unless the state record names a rebuild. -/
def requireRun (x : Indexer) (run : RunId) : Action Unit := do
  Action.require ((← x.loadState).isRun run) .cancelled

/-- Saves the position of a rebuild that the record still names. -/
def persist (x : Indexer) (c : Cursor) : Action Unit := do
  x.requireRun c.run
  x.saveState (.running c)

/-- Begins a rebuild with an empty index for the first scope. -/
def startRebuild (x : Indexer) (scopes : List String) : Action Cursor := do
  x.recreateIndex scopes.head?
  .stored (Ledger.clear x.keys)
  let total ← Action.count scopes.head?
  let run ← Action.ask .newRun
  let now ← Action.ask .now
  let c := Cursor.start run now scopes total
  x.saveState (.running c)
  return c

/-- Takes up a rebuild, whose index must still be there. -/
def resume (x : Indexer) (c : Cursor) : Action Unit := do
  let paths := x.pathsFor c.scope
  Action.require (← existsAt paths) (.indexMissing paths.index)

/-- Reports the failures of a scope and clears the ledger. -/
def reportFailures (x : Indexer) (c : Cursor) : Action Unit := do
  let ledger ← .stored (Ledger.load x.keys)
  if !ledger.isEmpty then Action.notify (ledger.report c.scope (some c.run))
  .stored (Ledger.clear x.keys)

/-- Ends a scope, and goes on with the next one or ends the rebuild. -/
def completeScope (x : Indexer) (c : Cursor) : Action RebuildStep := do
  x.reportFailures c
  match c.scopes[1]? with
  | some scope =>
    let c := c.nextScope (← Action.count (some scope))
    x.recreateIndex (some scope)
    x.persist c
    return .progress c
  | none =>
    x.requireRun c.run
    x.saveState (.completed (← Action.ask .now) c.synced)
    return .completed ⟨c.run, c.synced, c.failed⟩

/-- Writes the next page, or ends the scope if there is none. -/
def advance (x : Indexer) (c : Cursor) : Action RebuildStep := do
  let size := x.config.bulkPageSize
  let ids ← Action.listIds ⟨c.scope, c.offset, size⟩
  if ids.isEmpty then x.completeScope c
  else
    let o ← x.bulkInto (x.pathsFor c.scope) (some c.offset) ids
    Action.releaseCaches
    let c := c.advance size (.ofNat o.indexed) (.ofNat o.failed)
    Action.measure (.rebuildOffset c.offset)
    Action.measure (.rebuildSynced c.synced)
    x.persist c
    return .progress c

/-- One step of the rebuild that is running, or the first step of a new one. -/
def rebuildStep (x : Indexer) (scopes : List String) : Action RebuildStep := do
  match (← x.loadState).cursor? with
  | some c =>
    x.resume c
    x.advance c
  | none => x.advance (← x.startRebuild scopes)

/-- One more step of a rebuild that must still be running. -/
def continueRebuild (x : Indexer) (run : RunId) : Action RebuildStep := do
  match (← x.loadState).cursor? with
  | some c =>
    Action.require (c.run == run) .cancelled
    x.advance c
  | none => throw .cancelled

/-- Goes on with a rebuild for at most so many steps; none if it has not ended then. -/
def rebuildFrom (x : Indexer) : (limit : Nat) → RebuildStep → Action (Option Summary)
  | _, .completed s => return s
  | 0, .progress _ => return none
  | limit + 1, .progress c => do
    x.rebuildFrom limit (← x.continueRebuild c.run)

/-- A whole rebuild; none if it does not end within so many steps. The limit is no part of the
rebuild, which goes on for as long as there are items to list: it makes the operation end. -/
def rebuild (x : Indexer) (limit : Nat) (scopes : List String) : Action (Option Summary) := do
  x.rebuildFrom limit (← x.rebuildStep scopes)

end Indexer
end ContentIndex
