import ContentIndex.Content.Catalogue
import ContentIndex.Indexer.Basic
import ContentIndex.Resilience.Pause

/-
  A world in which operations of the indexer run: records and content in memory, a clock that stands
  still, and an engine that is given as a function of the request and of the world. The world
  remembers what was sent, reported, measured and waited for.
-/

namespace ContentIndex

open Calendar (Moment)

/-- The surroundings of an indexer; `E` is the state of the engine. -/
structure World (E : Type) where
  engine : E
  catalogue : Catalogue := {}
  memory : Memory := {}
  sent : List Engine.Request := []
  reports : List FailureReport := []
  /-- All pauses that were asked for, in nanoseconds. -/
  pauses : List Nat := []
  /-- How often caches were released. -/
  released : Nat := 0
  /-- How many rebuilds were begun. -/
  runs : Nat := 0
  metrics : Registry := ∅
  now : Moment := Moment.epoch

/-- An engine that lives in a world. -/
abbrev EngineModel (E : Type) :=
  Engine.Request → World E → Except Engine.TransportError Engine.Response × World E

namespace World

variable {E : Type}

/-- The milliseconds that all pauses took. -/
def elapsed (w : World E) : Nat :=
  w.pauses.foldl (fun n p => n + pauseMillis p) 0

/-- The id of a rebuild by its number. -/
def runId (n : Nat) : RunId :=
  ⟨(2 ^ 127 + n) % 2 ^ 128, Nat.mod_lt _ (by decide)⟩

def store (w : World E) (c : StoreCall) : ContentIndex.store.Answer c × World E :=
  let (a, m) := w.memory.handle c
  (a, { w with memory := m })

def content (w : World E) (c : ContentCall) : ContentIndex.content.Answer c × World E :=
  (w.catalogue.answer c,
    { w with released := w.released + if c = .releaseCaches then 1 else 0 })

/-- The answer to one call, and the world after it. -/
def handle (engine : EngineModel E) (w : World E) :
    (c : IndexerCall) → surroundings.Answer c × World E
  | .store c => w.store c
  | .content c => w.content c
  | .engine r => engine r { w with sent := w.sent ++ [r] }
  | .wait n => ((), { w with pauses := w.pauses ++ [n] })
  | .notify r => ((), { w with reports := w.reports ++ [r] })
  | .newRun => (runId w.runs, { w with runs := w.runs + 1 })
  | .now => (w.now, w)
  | .measure m => ((), { w with metrics := w.metrics.record m })

/-- Runs an operation. -/
def perform {α : Type} (engine : EngineModel E) (a : Action α) (w : World E) :
    Except IndexError α × World E :=
  Program.run (I := surroundings) (m := StateM (World E))
    (fun c w => pure (w.handle engine c)) a.run w

end World
end ContentIndex
