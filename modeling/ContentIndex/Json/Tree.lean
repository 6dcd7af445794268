import ContentIndex.Json.Token
import ContentIndex.Json.Value

/-
  JSON text as it is written: members in the order of the text, repeated or not, and leaves that
  may have no value. A tree is read from tokens by a machine with one step per token and a stack
  of open brackets, so nothing limits the depth of what it reads. A value is a tree whose leaves
  all have values, nested at most `depthLimit` deep; of members with one name it keeps the last.
-/

namespace ContentIndex.Json

/-- JSON text as written. -/
inductive Tree where
  | null
  | bool (b : Bool)
  | number (n : Option Number)
  | string (s : Option String)
  | array (items : List Tree)
  | object (members : List (Option String × Tree))

namespace Tree

/-- An open bracket with what stands in it so far, the latest first. -/
inductive Frame where
  | array (items : List Tree)
  | object (members : List (Option String × Tree)) (name : Option String)

/-- What may come next. -/
inductive Mode where
  /-- A value. -/
  | value
  /-- A value, or the end of an empty array. -/
  | firstItem
  /-- A name, or the end of an empty object. -/
  | firstName (members : List (Option String × Tree))
  /-- A name. -/
  | name (members : List (Option String × Tree))
  /-- The colon after a name. -/
  | colon (members : List (Option String × Tree)) (name : Option String)
  /-- A comma or a closing bracket, after a whole value. -/
  | done (tree : Tree)

/-- The machine: what may come next inside which open brackets. -/
structure Machine where
  mode : Mode
  stack : List Frame

/-- Begins a value, or completes one of a single token. -/
def beginValue (stack : List Frame) : Token → Option Machine
  | .openArray => some ⟨.firstItem, stack⟩
  | .openObject => some ⟨.firstName [], stack⟩
  | .null => some ⟨.done .null, stack⟩
  | .bool b => some ⟨.done (.bool b), stack⟩
  | .number n => some ⟨.done (.number n), stack⟩
  | .string s => some ⟨.done (.string s), stack⟩
  | _ => none

/-- Goes on after a whole value. -/
def afterValue (tree : Tree) : List Frame → Token → Option Machine
  | .array items :: st, .comma => some ⟨.value, .array (tree :: items) :: st⟩
  | .array items :: st, .closeArray => some ⟨.done (.array (tree :: items).reverse), st⟩
  | .object ms k :: st, .comma => some ⟨.name ((k, tree) :: ms), st⟩
  | .object ms k :: st, .closeObject => some ⟨.done (.object ((k, tree) :: ms).reverse), st⟩
  | _, _ => none

/-- One token. -/
def Machine.step (m : Machine) (t : Token) : Option Machine :=
  match m.mode, t with
  | .firstItem, .closeArray => some ⟨.done (.array []), m.stack⟩
  | .firstItem, t => beginValue (.array [] :: m.stack) t
  | .value, t => beginValue m.stack t
  | .firstName _, .closeObject => some ⟨.done (.object []), m.stack⟩
  | .firstName ms, .string k | .name ms, .string k => some ⟨.colon ms k, m.stack⟩
  | .colon ms k, .colon => some ⟨.value, .object ms k :: m.stack⟩
  | .done tree, t => afterValue tree m.stack t
  | _, _ => none

/-- The tree that a list of tokens writes. -/
def ofTokens? (ts : List Token) : Option Tree :=
  match ts.foldlM Machine.step ⟨.value, []⟩ with
  | some ⟨.done tree, []⟩ => some tree
  | _ => none

/-- The tree that a text writes. -/
def ofText? (s : String) : Option Tree :=
  (tokens? s).bind ofTokens?

/-! ## Trees and values -/

mutual
/-- The value of a tree with at most `depth` brackets inside one another. -/
def toValue? (depth : Nat) : Tree → Option Value
  | .null => some .null
  | .bool b => some (.bool b)
  | .number n => n.map .number
  | .string s => s.map .string
  | .array ts =>
    match depth with
    | 0 => none
    | d + 1 => (toValues? d ts).map .array
  | .object ms =>
    match depth with
    | 0 => none
    | d + 1 => (toMembers? d ms).map fun l => .object (Entries.sort l)
termination_by structural t => t

def toValues? (depth : Nat) : List Tree → Option (List Value)
  | [] => some []
  | t :: ts =>
    match toValue? depth t, toValues? depth ts with
    | some v, some vs => some (v :: vs)
    | _, _ => none
termination_by structural ts => ts

def toMembers? (depth : Nat) : List (Option String × Tree) → Option (List (String × Value))
  | [] => some []
  | (k, t) :: ms =>
    match k, toValue? depth t, toMembers? depth ms with
    | some k, some v, some vs => some ((k, v) :: vs)
    | _, _, _ => none
termination_by structural ms => ms
end

mutual
/-- The tree of a value. -/
def ofValue : Value → Tree
  | .null => .null
  | .bool b => .bool b
  | .number n => .number (some n)
  | .string s => .string (some s)
  | .array vs => .array (ofValues vs)
  | .object ms => .object (ofMembers ms)
termination_by structural v => v

def ofValues : List Value → List Tree
  | [] => []
  | v :: vs => ofValue v :: ofValues vs
termination_by structural vs => vs

def ofMembers : List (String × Value) → List (Option String × Tree)
  | [] => []
  | (k, v) :: ms => (some k, ofValue v) :: ofMembers ms
termination_by structural ms => ms
end

end Tree

/-- The number of brackets that a value may have inside one another. -/
def depthLimit : Nat := 127

/-- The value of a JSON text. -/
def Value.parse? (s : String) : Option Value :=
  (Tree.ofText? s).bind (Tree.toValue? depthLimit)

end ContentIndex.Json
