import ContentIndex.IdSet
import ContentIndex.Json.Printer
import ContentIndex.Query.Results

/-
  The engine's answer to a bulk request: one item for each entry it took notice of. Items that
  cannot be read are passed over. An entry is accepted if some item mentions it and none of those
  items is a failure.
-/

namespace ContentIndex.Bulk

open Json (Value)

/-- What became of one entry. -/
structure Item where
  id : UInt64
  status : UInt16
  error : Option String
deriving DecidableEq, Repr

namespace Item

/-- The text of an error: itself, its reason, or its JSON text. -/
def errorText : Value → String
  | .string s => s
  | v => ((v.get? "reason").bind Value.string?).getD v.render

/-- A status of 16 bits. -/
def readStatus? (v : Value) : Option UInt16 :=
  v.uint64?.bind fun n => if n < 65536 then some n.toUInt16 else none

/-- Reads the first member of an item; its name is the action that was taken. -/
def read? : Value → Option Item
  | .object ((_, v) :: _) =>
    ((v.get? "_id").bind Query.readId?).map fun id => {
      id
      status := ((v.get? "status").bind readStatus?).getD 0
      error := ((v.get? "error").filter (! ·.isNull)).map errorText }
  | _ => none

def isFailure (i : Item) : Bool :=
  i.error.isSome || !(200 ≤ i.status && i.status < 300)

end Item

structure Answer where
  /-- Whether the engine says that some item failed. -/
  errors : Bool
  items : List Item
deriving DecidableEq, Repr

namespace Answer

/-- Reads an answer; without a list of items it is none. -/
def read? (v : Value) : Option Answer := do
  let items ← (← v.get? "items").items?
  pure ⟨((v.get? "errors").bind Value.bool?).getD false, items.filterMap Item.read?⟩

/-- The entries that failed. -/
def failed (a : Answer) : IdSet :=
  IdSet.ofList ((a.items.filter Item.isFailure).map (·.id))

def mentions (a : Answer) (id : UInt64) : Bool :=
  a.items.any (·.id == id)

/-- The entries that failed or were not mentioned. -/
def rejected (a : Answer) (submitted : List UInt64) : IdSet :=
  a.failed.union (submitted.filter (! a.mentions ·))

end Answer
end ContentIndex.Bulk
