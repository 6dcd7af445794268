import ContentIndex.Document.Basic
import ContentIndex.Json.Printer

/-
  Bulk requests. Each document is an entry of two lines, an action line with its id and then its
  JSON text. A batch collects entries until there are enough of them or they are long enough;
  `push_counted` and `take_counted` keep the running length equal to the length of the entries.
-/

namespace ContentIndex.Bulk

open Json (Value)

/-- The lines that write one document. -/
structure Entry where
  id : UInt64
  lines : String
deriving DecidableEq, Repr

namespace Entry

/-- The line that says which document the next line is. -/
def action (id : UInt64) : String :=
  (Value.object [("index", .object [("_id", .ofUInt64 id)])]).render

def ofDocument (d : Document) : Entry :=
  ⟨d.id, action d.id ++ "\n" ++ d.toJson.render ++ "\n"⟩

/-- The length of the entry in UTF-8 bytes. -/
def size (e : Entry) : Nat := e.lines.utf8ByteSize

end Entry

/-- The body of a bulk request. -/
def body (entries : List Entry) : String :=
  String.join (entries.map (·.lines))

def totalSize (entries : List Entry) : Nat :=
  entries.foldl (fun n e => n + e.size) 0

/-- Why a batch has to be sent. -/
inductive Flush where
  | count
  | size
deriving DecidableEq, Repr

/-- Entries to be sent together, with their length, and the limits at which they are sent. -/
structure Batch where
  entries : List Entry := []
  bytes : Nat := 0
  countLimit : Nat
  byteLimit : Nat
deriving DecidableEq, Repr

namespace Batch

/-- An empty batch. Both limits are at least one. -/
def withLimits (count bytes : Nat) : Batch where
  countLimit := max 1 count
  byteLimit := max 1 bytes

/-- Adds an entry, and says whether the batch has to be sent. -/
def push (b : Batch) (e : Entry) : Batch × Option Flush :=
  let b := { b with entries := b.entries ++ [e], bytes := b.bytes + e.size }
  (b, if b.countLimit ≤ b.entries.length then some .count
    else if b.byteLimit ≤ b.bytes then some .size
    else none)

/-- The entries, and the batch without them. -/
def take (b : Batch) : List Entry × Batch :=
  (b.entries, { b with entries := [], bytes := 0 })

/-! ## Laws -/

/-- The running length is the length of the entries. -/
def Counted (b : Batch) : Prop :=
  b.bytes = totalSize b.entries

theorem withLimits_counted (count bytes : Nat) : (withLimits count bytes).Counted := rfl

theorem push_counted {b : Batch} (h : b.Counted) (e : Entry) : (b.push e).1.Counted := by
  unfold Counted totalSize at *
  show b.bytes + e.size = (b.entries ++ [e]).foldl (fun n e => n + e.size) 0
  rw [List.foldl_append, ← h]
  rfl

theorem take_counted (b : Batch) : b.take.2.Counted := rfl

theorem push_entries (b : Batch) (e : Entry) : (b.push e).1.entries = b.entries ++ [e] := rfl

end Batch
end ContentIndex.Bulk
