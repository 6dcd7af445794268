import ContentIndex.Engine.Mapping
import ContentIndex.Indexer.Basic
import ContentIndex.Resilience.Retry

/-
  Writing and removing single documents, which is tried once, and requests on a whole index, which
  are tried again when they fail. Removing what is not there succeeds.
-/

namespace ContentIndex.Indexer

/-! ## Single documents -/

/-- The request that writes a document. -/
def documentRequest (x : Indexer) (d : Document) : Engine.Request :=
  (Engine.Request.put (x.paths.document d.id) d.toJson.render).withTimeout x.config.requestTimeoutMs

/-- Writes a document, unless a hook leaves it out; says whether it was written. -/
def indexOne (x : Indexer) (d : Document) : Action Bool := do
  if x.hooks.skips d then
    Action.measure (.skipped 1)
    pure false
  else
    match ← Action.send (x.documentRequest (x.hooks.prepare d)) with
    | .ok r =>
      Action.measure (if r.isSuccess then .indexed 1 else .failed 1)
      pure r.isSuccess
    | .error _ =>
      Action.measure (.failed 1)
      pure false

/-- Whether an answer to a removal means that the document is gone. -/
def isRemoved : Except Engine.TransportError Engine.Response → Bool
  | .ok r => r.isSuccess || r.status == 404
  | .error _ => false

/-- Removes a document; says whether it is gone. -/
def deleteOne (x : Indexer) (id : UInt64) : Action Bool := do
  let request := (Engine.Request.delete (x.paths.document id)).withTimeout x.config.requestTimeoutMs
  return isRemoved (← Action.send request)

/-! ## The whole index -/

/-- Sends a request on an index, several times if it fails. -/
def sendRepeatedly (r : Engine.Request) : Action Engine.Response := do
  let answer ← ExceptT.lift <| RetryPolicy.admin.repeated
    (fun n => Program.perform (I := surroundings) (.wait (RetryPolicy.admin.delayFor n)))
    (Program.perform (I := surroundings) (.engine r))
  Action.ofExcept .transport answer

/-- The answer, if it is a success. -/
def checked (r : Engine.Response) : Action Unit := do
  let _ ← Action.ofExcept .transport r.checked

def existsAt (paths : Engine.Paths) : Action Bool := do
  let r ← sendRepeatedly (.head paths.index)
  if r.isSuccess then pure true
  else if r.status = 404 then pure false
  else throw (.transport (.status r.status r.body))

def putMappingAt (x : Indexer) (paths : Engine.Paths) : Action Unit := do
  checked (← sendRepeatedly (.put paths.index (Engine.mapping x.config).render))

def deleteIndexAt (paths : Engine.Paths) : Action Unit := do
  let r ← sendRepeatedly (.delete paths.index)
  if r.status = 404 then pure () else checked r

/-- Whether the index exists. -/
def indexExists (x : Indexer) : Action Bool :=
  existsAt x.paths

/-- Creates the index. -/
def putMapping (x : Indexer) : Action Unit :=
  x.putMappingAt x.paths

/-- Removes the index. -/
def deleteIndex (x : Indexer) : Action Unit :=
  deleteIndexAt x.paths

/-- Makes the index of a scope anew, without documents. -/
def recreateIndex (x : Indexer) (scope : Option String) : Action Unit := do
  deleteIndexAt (x.pathsFor scope)
  x.putMappingAt (x.pathsFor scope)

end ContentIndex.Indexer
