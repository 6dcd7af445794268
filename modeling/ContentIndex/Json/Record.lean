import ContentIndex.Json.Tree

/-
  Typed reading of JSON: scalars, lists, maps and records. A record is given by a table of its
  fields. It is read from an object (members with other names are passed over, no field may come
  twice) or from an array of its fields in the order of the table, where fields at the end may be
  missing if they are not required. The error is that of the first member at fault.
-/

namespace ContentIndex.Json

open ContentIndex.Number

/-- Why a tree is not what was to be read. -/
inductive ReadError where
  /-- Another kind of value, a number out of range, a missing or a repeated field. -/
  | mismatch
  /-- A string that is no date. -/
  | invalidDate (text : String)
deriving DecidableEq, Repr

/-- A reader of trees. -/
abbrev Reader (α : Type) := Tree → Except ReadError α

namespace Reader

def ofOption {α : Type} : Option α → Except ReadError α
  | some a => .ok a
  | none => .error .mismatch

def bool : Reader Bool
  | .bool b => .ok b
  | _ => .error .mismatch

def string : Reader String
  | .string s => ofOption s
  | _ => .error .mismatch

def number : Reader Number
  | .number n => ofOption n
  | _ => .error .mismatch

def double : Reader Double :=
  fun t => (number t).map Number.toDouble

/-- An integer that is written without point and power. -/
def int : Reader Int := fun t => do
  match ← number t with
  | .integer i _ => .ok i
  | .real _ _ => .error .mismatch

def uint64 : Reader UInt64 := fun t => do
  let i ← int t
  if 0 ≤ i then .ok (UInt64.ofNat i.toNat) else .error .mismatch

def int64 : Reader Int64 := fun t => do
  ofOption (int64OfInt? (← int t))

def uint32 : Reader UInt32 := fun t => do
  let i ← int t
  if 0 ≤ i ∧ i < 2 ^ 32 then .ok (UInt32.ofNat i.toNat) else .error .mismatch

def int32 : Reader Int32 := fun t => do
  let i ← int t
  if -2 ^ 31 ≤ i ∧ i < 2 ^ 31 then .ok (Int32.ofInt i) else .error .mismatch

/-- Null, or what the reader reads. -/
def nullable {α : Type} (r : Reader α) : Reader (Option α)
  | .null => .ok none
  | t => (r t).map some

def list {α : Type} (r : Reader α) : Reader (List α)
  | .array ts => ts.mapM r
  | _ => .error .mismatch

/-- The members of an object as pairs, in the order of the text. -/
def members {α : Type} (r : Reader α) : Reader (List (String × α))
  | .object ms => ms.mapM fun (k, t) => do
    let name ← ofOption k
    .ok (name, ← r t)
  | _ => .error .mismatch

end Reader

/-- A field of a record: its name, another spelling if there is one, whether it must be present,
and what reading it does to the record. -/
structure Field (α : Type) where
  name : String
  otherName : Option String := none
  required : Bool := true
  read : Tree → α → Except ReadError α

/-- A field that sets a part of the record to what a reader reads. -/
def Field.of {α β : Type} (name : String) (r : Reader β) (set : β → α → α) : Field α where
  name := name
  read t a := (r t).map (set · a)

/-- The same field, which may be missing. -/
def Field.optional {α : Type} (f : Field α) : Field α :=
  { f with required := false }

def Field.spelled {α : Type} (f : Field α) (other : String) : Field α :=
  { f with otherName := some other }

def Field.named {α : Type} (f : Field α) (name : String) : Bool :=
  f.name == name || f.otherName == some name

/-- Reads one member into the record; `seen` lists the fields read before. -/
def Field.readMember {α : Type} (fields : List (Field α)) (name : Option String) (t : Tree)
    (state : List String × α) : Except ReadError (List String × α) := do
  let k ← Reader.ofOption name
  match fields.find? (·.named k) with
  | none => .ok state
  | some f =>
    if state.1.contains f.name then .error .mismatch
    else .ok (f.name :: state.1, ← f.read t state.2)

/-- Reads a record, from `blank` on. -/
def Reader.record {α : Type} (fields : List (Field α)) (blank : α) : Reader α := fun tree => do
  let (seen, a) ← match tree with
    | .object ms => ms.foldlM (fun s m => Field.readMember fields m.1 m.2 s) ([], blank)
    | .array ts => do
      let read ← (fields.zip ts).foldlM
        (fun s p => do .ok (p.1.name :: s.1, ← p.1.read p.2 s.2)) ([], blank)
      if fields.length < ts.length then .error .mismatch else .ok read
    | _ => .error .mismatch
  if fields.all fun f => !f.required || seen.contains f.name then .ok a else .error .mismatch

end ContentIndex.Json
