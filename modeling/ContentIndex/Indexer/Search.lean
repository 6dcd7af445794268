import ContentIndex.Indexer.Rebuild
import ContentIndex.Query.Compiler
import ContentIndex.Query.Results

/-
  Searching the index. A search always has an outcome: results, or the reason why the host has to
  list the items by itself. While a rebuild is running or reads are off nothing is sent.
-/

namespace ContentIndex

open Query (Request SearchResults)

/-- Why a search is not answered from the index. -/
inductive Fallback where
  | readsOff
  | rebuilding
  | indexMissing
  | noAnswer (e : Engine.TransportError)
  | refused (status : UInt16)
  | unreadable (e : Engine.TransportError)
  | stateUnknown (e : IndexError)
deriving DecidableEq, Repr

def Fallback.message : Fallback → String
  | .readsOff => "read path disabled"
  | .rebuilding => "full reindex running"
  | .indexMissing => "index missing"
  | .noAnswer e => "engine unavailable: " ++ e.message
  | .refused status => "engine unavailable: HTTP " ++ Number.natText status.toNat
  | .unreadable e => "invalid search response: " ++ e.message
  | .stateUnknown e => "state store unavailable: " ++ e.message

inductive SearchOutcome where
  | indexed (r : SearchResults)
  | fallback (f : Fallback)
deriving DecidableEq

namespace SearchOutcome

/-- The outcome of an answer of the engine. -/
def ofAnswer : Except Engine.TransportError Engine.Response → SearchOutcome
  | .error e => .fallback (.noAnswer e)
  | .ok r =>
    if r.status = 404 then .fallback .indexMissing
    else if !r.isSuccess then .fallback (.refused r.status)
    else
      match r.json with
      | .ok body => .indexed (.read body)
      | .error e => .fallback (.unreadable e)

/-- What a state record says against a search. -/
def bar? : Except IndexError IndexState → Option Fallback
  | .error e => some (.stateUnknown e)
  | .ok s =>
    if s.isRunning then some .rebuilding
    else if !s.readEnabled then some .readsOff
    else none

def label : SearchOutcome → String
  | .indexed _ => "indexed"
  | .fallback _ => "fallback"

end SearchOutcome

namespace Indexer

/-- The request of a search. -/
def searchRequest (x : Indexer) (r : Request) (privileged : Bool) (now : Calendar.Moment) :
    Engine.Request :=
  let body := Query.compile x.config x.hooks r privileged now
  (Engine.Request.post x.paths.search body.toJson.render).withTimeout x.config.requestTimeoutMs

/-- Searches the index of the scope. The moment is asked for in any case, also where a request has
no dates; only relative dates depend on it. -/
def search (x : Indexer) (r : Request) (privileged : Bool) : Action SearchOutcome := do
  let outcome ←
    match SearchOutcome.bar? (← x.loadState.result) with
    | some f => pure (.fallback f)
    | none => do
      let now ← Action.ask .now
      let answer ← Action.send (x.searchRequest r privileged now)
      Action.measure (.timed "search")
      pure (.ofAnswer answer)
  Action.measure (.search outcome.label)
  return outcome

end Indexer
end ContentIndex
