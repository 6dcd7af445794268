import ContentIndex.Calendar.Timestamp
import ContentIndex.Progress.RunId

/-
  How far a rebuild has come: the page that is next in the listing of the current scope, the scopes
  that are left, and what was written so far.
-/

namespace ContentIndex

open Calendar (Moment)
open Json (Reader Value)

/-- The position of a rebuild. The scopes that are left begin with the current one. -/
structure Cursor where
  offset : UInt64 := 0
  synced : UInt64 := 0
  failed : UInt64 := 0
  /-- How many items the current scope had when it was begun. -/
  total : UInt64
  scopes : List String := []
  scope : Option String := scopes.head?
  run : RunId
  startedAt : Moment
deriving DecidableEq

/-- The sum of two counters; it stops at the largest. -/
def saturatingAdd (a b : UInt64) : UInt64 :=
  if a.toNat + b.toNat < 2 ^ 64 then a + b else UInt64.ofNat (2 ^ 64 - 1)

namespace Cursor

/-- The position before the first page. -/
def start (run : RunId) (now : Moment) (scopes : List String) (total : UInt64) : Cursor :=
  { total, scopes, run, startedAt := now }

/-- The position after a page of some size. -/
def advance (c : Cursor) (pageSize synced failed : UInt64) : Cursor :=
  { c with
    offset := saturatingAdd c.offset pageSize
    synced := c.synced + synced
    failed := c.failed + failed }

/-- The position at the start of the next scope, if there is one. -/
def nextScope (c : Cursor) (total : UInt64) : Cursor :=
  { c with
    scopes := c.scopes.tail
    scope := c.scopes.tail.head?
    offset := 0
    total }

/-! ## Records -/

def members (c : Cursor) : Json.Members :=
  [("offset", .ofUInt64 c.offset),
    ("synced", .ofUInt64 c.synced),
    ("failed", .ofUInt64 c.failed),
    ("total", .ofUInt64 c.total),
    ("scopes", .strings c.scopes),
    ("current_scope", .ofOption .string c.scope),
    ("run_id", c.run.toJson),
    ("started_at", .string c.startedAt.timestampText)]

/-- A moment that is written as a timestamp. -/
def readMoment : Reader Moment := fun t => do
  Reader.ofOption (Moment.readTimestamp? (← Reader.string t))

def fields : List (Json.Field Cursor) := [
  .of "offset" Reader.uint64 fun x c => { c with offset := x },
  .of "synced" Reader.uint64 fun x c => { c with synced := x },
  (Json.Field.of "failed" Reader.uint64 fun x c => { c with failed := x }).optional,
  .of "total" Reader.uint64 fun x c => { c with total := x },
  (Json.Field.of "scopes" (.list .string) fun x c => { c with scopes := x }).optional,
  (Json.Field.of "current_scope" (.nullable .string) fun x c => { c with scope := x }).optional,
  .of "run_id" RunId.read fun x c => { c with run := x },
  .of "started_at" readMoment fun x c => { c with startedAt := x }]

/-- A cursor before any of its fields is read. -/
def blank : Cursor :=
  { total := 0, run := ⟨0, by decide⟩, startedAt := Moment.epoch }

def read : Reader Cursor :=
  Reader.record fields blank

end Cursor
end ContentIndex
