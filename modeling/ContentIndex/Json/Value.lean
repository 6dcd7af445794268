import ContentIndex.Json.Number
import ContentIndex.SortedMap

/-
  Values of JSON. The members of an object stand in a list, in the order in which they are
  written. `Value.canonical` sorts them by name. Objects that are read from text or built member
  by member are always sorted.
-/

namespace ContentIndex.Json

open ContentIndex.Number

/-- A JSON value. -/
inductive Value where
  | null
  | bool (b : Bool)
  | number (n : Number)
  | string (s : String)
  | array (items : List Value)
  | object (members : List (String × Value))

/-- The members of an object. -/
abbrev Members := Entries Value

namespace Value

instance : Inhabited Value := ⟨.null⟩
instance : Coe String Value := ⟨.string⟩
instance : Coe Bool Value := ⟨.bool⟩

def ofUInt64 (n : UInt64) : Value := .number (.ofUInt64 n)
def ofInt64 (n : Int64) : Value := .number (.ofInt64 n)

/-- A number that is written if it fits in 64 bits, and null otherwise. -/
def ofInt (i : Int) : Value :=
  match Number.ofInt? i with
  | some n => .number n
  | none => .null

def ofNat (n : Nat) : Value := ofInt n

/-- A finite number; null stands for the others. -/
def ofDouble (x : Double) : Value :=
  match Number.ofDouble? x with
  | some n => .number n
  | none => .null

def strings (l : List String) : Value := .array (l.map .string)

/-- The object with some members, sorted; of several with one name the last stays. -/
def ofMembers (ms : Members) : Value := .object (Entries.sort ms)

/-- Null, or the value there is. -/
def ofOption {α : Type} (f : α → Value) : Option α → Value
  | none => .null
  | some a => f a

/-! ## Parts -/

def members? : Value → Option Members
  | .object ms => some ms
  | _ => none

def items? : Value → Option (List Value)
  | .array vs => some vs
  | _ => none

def string? : Value → Option String
  | .string s => some s
  | _ => none

def bool? : Value → Option Bool
  | .bool b => some b
  | _ => none

def uint64? : Value → Option UInt64
  | .number n => n.uint64?
  | _ => none

def double? : Value → Option Double
  | .number n => some n.toDouble
  | _ => none

/-- A member of an object; any other value has none. -/
def get? (v : Value) (name : String) : Option Value :=
  match v with
  | .object ms => Entries.find? name ms
  | _ => none

def isNull : Value → Bool
  | .null => true
  | _ => false

def isArray : Value → Bool
  | .array _ => true
  | _ => false

def isObject : Value → Bool
  | .object _ => true
  | _ => false

/-! ## Sorting -/

mutual
/-- Sorts the members of every object in the value. -/
def canonical : Value → Value
  | .null => .null
  | .bool b => .bool b
  | .number n => .number n
  | .string s => .string s
  | .array vs => .array (canonicalItems vs)
  | .object ms => .object (Entries.sort (canonicalMembers ms))
termination_by structural v => v

def canonicalItems : List Value → List Value
  | [] => []
  | v :: vs => v.canonical :: canonicalItems vs
termination_by structural vs => vs

def canonicalMembers : List (String × Value) → List (String × Value)
  | [] => []
  | (k, v) :: ms => (k, v.canonical) :: canonicalMembers ms
termination_by structural ms => ms
end

/-! ## Equality -/

mutual
/-- Equality of values can be decided. -/
def decEq : (a b : Value) → Decidable (a = b)
  | .null, .null => isTrue rfl
  | .bool a, .bool b =>
    if h : a = b then isTrue (h ▸ rfl) else isFalse (by intro e; cases e; exact h rfl)
  | .number a, .number b =>
    if h : a = b then isTrue (h ▸ rfl) else isFalse (by intro e; cases e; exact h rfl)
  | .string a, .string b =>
    if h : a = b then isTrue (h ▸ rfl) else isFalse (by intro e; cases e; exact h rfl)
  | .array a, .array b =>
    match decEqItems a b with
    | isTrue h => isTrue (h ▸ rfl)
    | isFalse h => isFalse (by intro e; cases e; exact h rfl)
  | .object a, .object b =>
    match decEqMembers a b with
    | isTrue h => isTrue (h ▸ rfl)
    | isFalse h => isFalse (by intro e; cases e; exact h rfl)
  | .null, .bool _ | .null, .number _ | .null, .string _ | .null, .array _ | .null, .object _
  | .bool _, .null | .bool _, .number _ | .bool _, .string _ | .bool _, .array _
  | .bool _, .object _
  | .number _, .null | .number _, .bool _ | .number _, .string _ | .number _, .array _
  | .number _, .object _
  | .string _, .null | .string _, .bool _ | .string _, .number _ | .string _, .array _
  | .string _, .object _
  | .array _, .null | .array _, .bool _ | .array _, .number _ | .array _, .string _
  | .array _, .object _
  | .object _, .null | .object _, .bool _ | .object _, .number _ | .object _, .string _
  | .object _, .array _ => isFalse (by intro e; cases e)
termination_by structural a => a

def decEqItems : (a b : List Value) → Decidable (a = b)
  | [], [] => isTrue rfl
  | [], _ :: _ | _ :: _, [] => isFalse (by intro e; cases e)
  | a :: as, b :: bs =>
    match decEq a b, decEqItems as bs with
    | isTrue h, isTrue h' => isTrue (h ▸ h' ▸ rfl)
    | isFalse h, _ => isFalse (by intro e; cases e; exact h rfl)
    | _, isFalse h => isFalse (by intro e; cases e; exact h rfl)
termination_by structural a => a

def decEqMembers : (a b : List (String × Value)) → Decidable (a = b)
  | [], [] => isTrue rfl
  | [], _ :: _ | _ :: _, [] => isFalse (by intro e; cases e)
  | (k, a) :: as, (l, b) :: bs =>
    if hk : k = l then
      match decEq a b, decEqMembers as bs with
      | isTrue h, isTrue h' => isTrue (hk ▸ h ▸ h' ▸ rfl)
      | isFalse h, _ => isFalse (by intro e; cases e; exact h rfl)
      | _, isFalse h => isFalse (by intro e; cases e; exact h rfl)
    else isFalse (by intro e; cases e; exact hk rfl)
termination_by structural a => a
end

instance : DecidableEq Value := decEq

end Value

end ContentIndex.Json
