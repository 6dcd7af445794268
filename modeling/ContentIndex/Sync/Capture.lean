import ContentIndex.Config
import ContentIndex.Content
import ContentIndex.Sync.Queue

/-
  Which changes of content reach the index. Saving an item of an indexable type queues it, or its
  removal if its status is not one that is indexed; changes of custom fields and terms queue
  an item that is in the index; deletions always queue a removal. While items are imported or
  saved by themselves, nothing but deletions is queued.
-/

namespace ContentIndex.Sync

/-- A change of content. -/
inductive Mutation where
  | saved (id : UInt64) (status type : String) (isRevision : Bool)
  | metaChanged (id : UInt64) (key : String)
  | termsChanged (id : UInt64)
  | deleted (id : UInt64)
deriving DecidableEq, Repr

def Mutation.id : Mutation → UInt64
  | .saved id _ _ _ => id
  | .metaChanged id _ => id
  | .termsChanged id => id
  | .deleted id => id

/-- In which circumstances changes are made. -/
structure Context where
  importing : Bool := false
  autosave : Bool := false
deriving DecidableEq, Repr

def Context.isTransient (c : Context) : Bool :=
  c.importing || c.autosave

inductive SkipReason where
  | transient
  | revision
  | typeNotIndexable
  | metaNotProjected
  | notEligible
  | missing
deriving DecidableEq, Repr

/-- What a change leads to. -/
inductive Outcome where
  | queued
  | queuedRemoval
  | skipped (reason : SkipReason)
deriving DecidableEq, Repr

/-! ## Types and statuses -/

def typeIndexable (c : Config) (type : String) : Bool :=
  c.indexableTypes.contains type

/-- The exceptions among the statuses are for the attachment types. -/
def statusIndexable (c : Config) (type status : String) : Bool :=
  c.indexableStatuses.contains status ||
    c.attachmentTypes.contains type && c.statusExceptions.contains status

def documentIndexable (c : Config) (d : Document) : Bool :=
  typeIndexable c d.type && statusIndexable c d.type d.status

/-! ## Changes -/

/-- What a change of a custom field leads to, given the item's document if there is one. -/
def judgeMeta (c : Config) (key : String) : Option Document → Outcome
  | none => .skipped .missing
  | some d =>
    if !d.hasMeta key then .skipped .metaNotProjected
    else if !documentIndexable c d then .skipped .notEligible
    else .queued

/-- What saving an item leads to. -/
def judgeSaved (c : Config) (status type : String) (isRevision : Bool) : Outcome :=
  if isRevision then .skipped .revision
  else if !typeIndexable c type then .skipped .typeNotIndexable
  else if statusIndexable c type status then .queued
  else .queuedRemoval

/-- What a change leads to. -/
def evaluate (c : Config) (context : Context) (m : Mutation) :
    ExceptT ContentError (Program content) Outcome :=
  match m with
  | .deleted _ => pure .queuedRemoval
  | m =>
    if context.isTransient then pure (.skipped .transient)
    else
      match m with
      | .saved _ status type isRevision => pure (judgeSaved c status type isRevision)
      | .metaChanged id key => do
        let d ← ExceptT.mk (.perform (I := content) (.prepare id))
        pure (judgeMeta c key d)
      | .termsChanged id => do
        let eligible ← ExceptT.mk (.perform (I := content) (.isEligible id))
        pure (if eligible then .queued else .skipped .notEligible)
      | .deleted _ => pure .queuedRemoval

/-- The queue after an outcome for an id. -/
def Outcome.apply (q : Queue) (id : UInt64) : Outcome → Queue
  | .queued => (q.enqueue id).2
  | .queuedRemoval => (q.enqueueRemoval id).2
  | .skipped _ => q

/-- Puts a change into the queue. -/
def capture (c : Config) (context : Context) (q : Queue) (m : Mutation) :
    ExceptT ContentError (Program content) (Outcome × Queue) := do
  let o ← evaluate c context m
  pure (o, o.apply q m.id)

/-- Records a change in the queue of a session. A change that the content store has no answer for
leaves the queue as it was. -/
def record (c : Config) (context : Context) (q : Queue) (m : Mutation) :
    Program content (Except ContentError Outcome × Queue) := do
  match ← (capture c context q m).run with
  | .ok (o, q) => pure (.ok o, q)
  | .error e => pure (.error e, q)

end ContentIndex.Sync
