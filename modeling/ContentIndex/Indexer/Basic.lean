import ContentIndex.Content
import ContentIndex.Engine.Paths
import ContentIndex.Engine.Request
import ContentIndex.Hooks
import ContentIndex.Metrics
import ContentIndex.Progress.Ledger
import ContentIndex.Progress.State

/-
  The indexer and what it calls: the store of records, the content store, the engine, the clock, the
  metrics and the sink of failure reports. Every operation is a program of single calls, so that
  what other programs do between two calls of an operation can be said too. `Action` is such a
  program that may end in an error.
-/

namespace ContentIndex

open Calendar (Moment)

/-- Why an operation on the index failed. -/
inductive IndexError where
  | config (e : ConfigError)
  | indexMissing (index : String)
  | rebuildRunning
  | cancelled
  | invalidResponse (reason : String)
  | transport (e : Engine.TransportError)
  | store (e : StoreError)
  | content (e : ContentError)
deriving DecidableEq, Repr

def IndexError.message : IndexError → String
  | .config e => "invalid configuration: " ++ e.message
  | .indexMissing index => "index " ++ index ++ " does not exist"
  | .rebuildRunning => "a full reindex is in progress"
  | .cancelled => "full reindex was cancelled"
  | .invalidResponse reason => "invalid engine response: " ++ reason
  | .transport e => e.message
  | .store e => e.message
  | .content e => e.message

/-! ## Calls -/

/-- The calls of an operation. -/
inductive IndexerCall where
  | store (c : StoreCall)
  | content (c : ContentCall)
  | engine (r : Engine.Request)
  /-- A pause in nanoseconds. -/
  | wait (nanos : Nat)
  | notify (report : FailureReport)
  /-- An id that was not given before. -/
  | newRun
  | now
  | measure (m : Measurement)

def surroundings : Interface where
  Call := IndexerCall
  Answer
    | .store c => ContentIndex.store.Answer c
    | .content c => ContentIndex.content.Answer c
    | .engine _ => Except Engine.TransportError Engine.Response
    | .wait _ => Unit
    | .notify _ => Unit
    | .newRun => RunId
    | .now => Moment
    | .measure _ => Unit

/-- A program of an operation that may end in an error. -/
abbrev Action (α : Type) := ExceptT IndexError (Program surroundings) α

namespace Action

/-- One call that cannot fail. -/
def ask (c : IndexerCall) : Action (surroundings.Answer c) :=
  ExceptT.lift (.perform (I := surroundings) c)

/-- Ends with the error of a result, if it is one. -/
def ofExcept {ε α : Type} (wrap : ε → IndexError) (r : Except ε α) : Action α :=
  ExceptT.mk (pure (r.mapError wrap))

/-- Ends with an error unless a condition holds. -/
def require (holds : Bool) (e : IndexError) : Action Unit :=
  if holds then pure () else throw e

/-- What an operation ends with, be it an error. -/
def result {α : Type} (a : Action α) : Action (Except IndexError α) :=
  ExceptT.lift a.run

def stored {α : Type} (a : StoreAction α) : Action α := do
  let r ← ExceptT.lift <|
    Program.run (I := store) (fun c => .perform (I := surroundings) (.store c)) a.run
  ofExcept .store r

def prepare (id : UInt64) : Action (Except ContentError (Option Document)) :=
  ask (.content (.prepare id))

def listIds (page : Page) : Action (List UInt64) := do
  ofExcept .content (← ask (.content (.listIds page)))

def count (scope : Option String) : Action UInt64 := do
  ofExcept .content (← ask (.content (.count scope)))

def releaseCaches : Action Unit :=
  ask (.content .releaseCaches)

def send (r : Engine.Request) : Action (Except Engine.TransportError Engine.Response) :=
  ask (.engine r)

/-- Waits, unless there is nothing to wait for. -/
def pause (nanos : Nat) : Action Unit :=
  if nanos = 0 then pure () else ask (.wait nanos)

def notify (report : FailureReport) : Action Unit :=
  ask (.notify report)

def measure (m : Measurement) : Action Unit :=
  ask (.measure m)

end Action

/-! ## The indexer -/

/-- Checked settings, the hooks of the host, and the scope whose index is worked on. -/
structure Indexer where
  config : Config
  hooks : Hooks := []
  scope : Option String := none
  valid : config.fault? = none

namespace Indexer

/-- The indexer of the base index; the settings must be without fault. -/
def ofConfig (c : Config) (hooks : Hooks := []) : Except IndexError Indexer :=
  match h : c.fault? with
  | none => .ok ⟨c, hooks, none, h⟩
  | some e => .error (.config e)

/-- The same indexer for another scope. -/
def withScope (x : Indexer) (scope : String) : Indexer :=
  { x with scope := some scope }

def keys (x : Indexer) : RecordKeys :=
  .withLead x.config.stateKeyPrefix

/-- The paths of the index of a scope. -/
def pathsFor (x : Indexer) (scope : Option String) : Engine.Paths :=
  .ofConfig x.config scope

def paths (x : Indexer) : Engine.Paths :=
  x.pathsFor x.scope

/-- Adds failures to the ledger. -/
def recordFailures (x : Indexer) (items : List UInt64) (offset : Option UInt64) : Action Unit :=
  .stored (Ledger.record x.keys items offset)

end Indexer
end ContentIndex
