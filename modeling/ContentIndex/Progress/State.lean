import ContentIndex.Progress.Cursor
import ContentIndex.Progress.Store

/-
  The state record of an index: whether a rebuild has not begun, is running or was completed, and
  whether searches may read the index. A phase is written with its name under "status" beside its
  own members; on reading, the name may stand anywhere among them.
-/

namespace ContentIndex

open Calendar (Moment)
open Json (ReadError Reader Tree Value)

/-- What is known of the last rebuild. -/
inductive Phase where
  | notStarted
  | running (cursor : Cursor)
  | completed (ended : Moment) (synced : UInt64)
deriving DecidableEq

namespace Phase

/-- The name of the phase. -/
def name : Phase → String
  | .notStarted => "not_started"
  | .running _ => "running"
  | .completed _ _ => "completed"

def toJson (p : Phase) : Value :=
  .object (("status", .string p.name) ::
    match p with
    | .notStarted => []
    | .running c => c.members
    | .completed t n => [("at", .string t.timestampText), ("synced", .ofUInt64 n)])

/-- The end of a rebuild and what it wrote. -/
def readCompleted : Reader (Moment × UInt64) :=
  Reader.record [
    .of "at" Cursor.readMoment fun x p => (x, p.2),
    .of "synced" Reader.uint64 fun x p => (p.1, x)] (Moment.epoch, 0)

/-- The phase of a name; its members are those of a tree. -/
def ofName (name : String) (t : Tree) : Except ReadError Phase :=
  match name, t with
  | "not_started", .array (_ :: _) => .error .mismatch
  | "not_started", _ => .ok .notStarted
  | "running", t => (Cursor.read t).map .running
  | "completed", t => (readCompleted t).map fun p => .completed p.1 p.2
  | _, _ => .error .mismatch

/-- How deep the phase of a record may be nested. -/
def depthLimit : Nat := Json.depthLimit - 1

/-- Reads a phase from an object with its name under "status", or from an array that begins with
its name. -/
def read : Reader Phase := fun t => do
  if (t.toValue? depthLimit).isNone then .error .mismatch
  match t with
  | .object ms =>
    match ms.filter (·.1 == some "status") with
    | [(_, t)] => ofName (← Reader.string t) (.object (ms.filter (·.1 != some "status")))
    | _ => .error .mismatch
  | .array (t :: ts) => do ofName (← Reader.string t) (.array ts)
  | _ => .error .mismatch

end Phase

/-- The state record of an index. -/
structure IndexState where
  phase : Phase := .notStarted
  readEnabled : Bool := true
deriving DecidableEq

namespace IndexState

/-- A rebuild is running; nothing is read before it ends. -/
def running (c : Cursor) : IndexState := ⟨.running c, false⟩

/-- A rebuild was given up, and left an incomplete index behind. -/
def cancelled : IndexState := ⟨.notStarted, false⟩

/-- A rebuild was completed. -/
def completed (now : Moment) (synced : UInt64) : IndexState := ⟨.completed now synced, true⟩

def cursor? (s : IndexState) : Option Cursor :=
  match s.phase with
  | .running c => some c
  | _ => none

def isRunning (s : IndexState) : Bool := s.cursor?.isSome

/-- Whether the record says that a given rebuild is running. -/
def isRun (s : IndexState) (run : RunId) : Bool :=
  s.cursor?.any (·.run == run)

def toJson (s : IndexState) : Value :=
  .object [("phase", s.phase.toJson), ("read_enabled", .bool s.readEnabled)]

def read : Reader IndexState :=
  Reader.record [
    .of "phase" Phase.read fun x s => { s with phase := x },
    .of "read_enabled" Reader.bool fun x s => { s with readEnabled := x }] {}

/-- Loads the record; without one no rebuild has begun, and reads are on. -/
def load (keys : RecordKeys) : StoreAction IndexState := do
  pure ((← StoreAction.load read keys.state).getD {})

def save (keys : RecordKeys) (s : IndexState) : StoreAction Unit :=
  StoreAction.save keys.state s.toJson

end IndexState
end ContentIndex
