import ContentIndex.Json.Printer
import ContentIndex.Json.Record
import ContentIndex.Program

/-
  The store of persisted records: texts under keys, which any call may fail to reach. Records are
  kept as JSON text. `StoreAction` is a program of store calls that may end in an error; `Memory`
  is a store that can be switched off.
-/

namespace ContentIndex

open Json (Reader Tree Value)

/-- Why a record was not read or written. -/
inductive StoreError where
  /-- The store did not do what was asked. -/
  | backend (reason : String)
  /-- What the store holds is no such record. -/
  | unreadable
deriving DecidableEq, Repr

def StoreError.message : StoreError → String
  | .backend reason => "state backend error: " ++ reason
  | .unreadable => "state (de)serialization failed: no such record"

/-- The calls of the store. -/
inductive StoreCall where
  | get (key : String)
  | set (key text : String)
  | delete (key : String)
deriving DecidableEq, Repr

def store : Interface where
  Call := StoreCall
  Answer
    | .get _ => Except StoreError (Option String)
    | .set _ _ => Except StoreError Unit
    | .delete _ => Except StoreError Unit

/-- A program of store calls that ends with the first of them that fails. -/
abbrev StoreAction (α : Type) := ExceptT StoreError (Program store) α

namespace StoreAction

def get (key : String) : StoreAction (Option String) :=
  ExceptT.mk (.perform (I := store) (.get key))

def set (key text : String) : StoreAction Unit :=
  ExceptT.mk (.perform (I := store) (.set key text))

def delete (key : String) : StoreAction Unit :=
  ExceptT.mk (.perform (I := store) (.delete key))

/-- What a stored text says, if it is such a record. -/
def decode {α : Type} (read : Reader α) (text : String) : Except StoreError α :=
  match Tree.ofText? text with
  | some t => (read t).mapError fun _ => .unreadable
  | none => .error .unreadable

/-- Loads a record, if there is one. -/
def load {α : Type} (read : Reader α) (key : String) : StoreAction (Option α) := do
  match ← get key with
  | none => pure none
  | some text =>
    let a ← ExceptT.mk (pure (decode read text))
    pure (some a)

/-- Saves a record. -/
def save (key : String) (record : Value) : StoreAction Unit :=
  set key record.render

end StoreAction

/-- The keys of the records of one indexer. -/
structure RecordKeys where
  state : String
  failedItems : String
  failedOffsets : String
deriving DecidableEq, Repr

/-- All keys begin with the same text. -/
def RecordKeys.withLead (lead : String) : RecordKeys :=
  ⟨lead ++ "index_state", lead ++ "failed_items", lead ++ "failed_offsets"⟩

/-! ## A store in memory -/

/-- Records in memory. A store that is offline keeps them but fails every call. -/
structure Memory where
  records : SortedMap String := ∅
  offline : Bool := false

namespace Memory

def keys (m : Memory) : List String :=
  m.records.entries.map (·.1)

/-- The answer to one call, and the store afterwards. -/
def handle (m : Memory) : (c : StoreCall) → store.Answer c × Memory
  | .get key =>
    if m.offline then (.error (.backend "in-memory store offline"), m)
    else (.ok (m.records.find? key), m)
  | .set key text =>
    if m.offline then (.error (.backend "in-memory store offline"), m)
    else (.ok (), { m with records := m.records.insert key text })
  | .delete key =>
    if m.offline then (.error (.backend "in-memory store offline"), m)
    else (.ok (), { m with records := m.records.erase key })

/-- Runs store calls on the records in memory. -/
def perform {α : Type} (m : Memory) (a : StoreAction α) : Except StoreError α × Memory :=
  Program.run (I := store) (m := StateM Memory) (fun c m => pure (m.handle c)) a.run m

end Memory
end ContentIndex
