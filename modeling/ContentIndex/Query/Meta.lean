import ContentIndex.Query.Scalar
import ContentIndex.Query.Vocabulary

/-
  Predicates on custom fields. A query is a list of predicates and groups, joined by a relation.
  Each predicate becomes a clause on one of the typed readings of the field, or is dropped if it
  has no value to compare with; groups that become empty are dropped too. Groups below the depth
  limit are refused.
-/

namespace ContentIndex.Query

open Json (Value Members)

/-- A predicate on one custom field. -/
structure MetaPredicate where
  key : String
  value : Option Value
  compare : Comparator
  type : Option ValueType
deriving DecidableEq

/-- A predicate, or a group of them. -/
inductive MetaItem where
  | predicate (p : MetaPredicate)
  | group (relation : Relation) (items : List MetaItem)

instance : Inhabited MetaItem := ⟨.group .and []⟩

/-- Predicates and groups that are joined by a relation. -/
structure MetaQuery where
  relation : Relation := .and
  items : List MetaItem := []

namespace MetaPredicate

def equals (key : String) (value : Value) : MetaPredicate :=
  ⟨key, some value, .equals, none⟩

def present (key : String) : MetaPredicate :=
  ⟨key, none, .present, none⟩

end MetaPredicate

/-! ## Reading -/

/-- The relation that an object names. -/
def readRelation (ms : Members) : Relation :=
  match (Entries.find? "relation" ms).bind Value.string? with
  | some s => .named s
  | none => .and

/-- The comparator that is meant if none is named. -/
def Comparator.implied : Option Value → Comparator
  | none => .present
  | some (.array _) => .oneOf
  | some _ => .equals

/-- The predicate of an object that names a key. -/
def readPredicate? (ms : Members) : Option MetaPredicate :=
  ((Entries.find? "key" ms).bind Value.scalarText?).map fun key =>
    let value := (Entries.find? "value" ms).filter (! ·.isNull)
    let compare := match (Entries.find? "compare" ms).bind Value.string? with
      | some s => Comparator.named s
      | none => Comparator.implied value
    let type := ((Entries.find? "type" ms).bind Value.string?).bind ValueType.named?
    { key, value, compare, type }

/-- A group, if it is not empty. -/
def MetaItem.group? (relation : Relation) (items : List MetaItem) : Option MetaItem :=
  if items.isEmpty then none else some (.group relation items)

namespace MetaItem

mutual
/-- An entry is a list of entries, a predicate with a key, or a group whose members are
entries. An object whose key has no text is none of these. If a list or an object is among its
members, reading it has no end: as an entry it is read as a group, and as a group with a key it is
read as an entry. Here it is no entry in this case either. -/
def read? : Value → Option MetaItem
  | .array vs => group? .and (readList vs)
  | .object ms =>
    match readPredicate? ms with
    | some p => some (.predicate p)
    | none =>
      if (Entries.find? "key" ms).isSome then none else group? (readRelation ms) (readMembers ms)
  | _ => none
termination_by structural v => v

def readList : List Value → List MetaItem
  | [] => []
  | v :: vs => (read? v).toList ++ readList vs
termination_by structural vs => vs

/-- The entries of an object, except for its relation. -/
def readMembers : List (String × Value) → List MetaItem
  | [] => []
  | (k, v) :: ms =>
    if k = "relation" then readMembers ms else (read? v).toList ++ readMembers ms
termination_by structural ms => ms
end

end MetaItem

namespace MetaQuery

/-- The query that a value writes: a list of entries, one entry with a key, or an object of
entries. Where the reading of an entry has no end (`MetaItem.read?`), that of the query has none;
here the query goes without the entry. -/
def read (v : Value) : MetaQuery :=
  match v with
  | .array vs => ⟨.and, MetaItem.readList vs⟩
  | .object ms =>
    if (Entries.find? "key" ms).isSome then ⟨.and, (MetaItem.read? v).toList⟩
    else ⟨readRelation ms, MetaItem.readMembers ms⟩
  | _ => {}

def isEmpty (q : MetaQuery) : Bool := q.items.isEmpty

end MetaQuery

/-! ## Clauses -/

/-- The typed reading of a custom field that a predicate is about. -/
def metaPath (key : String) (compare : Comparator) (type : Option ValueType) : String :=
  let field := "meta." ++ key
  match compare, type with
  | .present, _ | .absent, _ => field
  | .like, _ | .notLike, _ => field ++ ".value"
  | _, some .numeric => field ++ ".long"
  | _, some .decimal => field ++ ".double"
  | _, some .date => field ++ ".date"
  | _, some .dateTime => field ++ ".datetime"
  | _, some .time => field ++ ".time"
  | c, none => field ++ if c.isRange then ".double" else ".raw"
  | _, some .char | _, some .binary => field ++ ".raw"

/-- The first item of a list, or a single value other than null. -/
def firstScalar? : Value → Option Value
  | .array vs => vs.head?
  | .null => none
  | v => some v

/-- A closed range between the two items of a list. -/
def between? (field : String) : Value → Option Clause
  | .array [low, high] => some (.range field { atLeast := some low, atMost := some high })
  | _ => none

/-- The clause of a predicate; none if it lacks what it compares with. -/
def MetaPredicate.clause? (p : MetaPredicate) : Option Clause :=
  let path := metaPath p.key p.compare p.type
  let scalar := p.value.bind firstScalar?
  let values := p.value.map Value.asItems
  match p.compare with
  | .present => some (.present path)
  | .absent => some (Clause.present path).negate
  | .like => scalar.map fun v => .matching path v none
  | .notLike => scalar.map fun v => (Clause.matching path v none).negate
  | .greater => scalar.map fun v => .range path { above := some v }
  | .greaterEq => scalar.map fun v => .range path { atLeast := some v }
  | .less => scalar.map fun v => .range path { below := some v }
  | .lessEq => scalar.map fun v => .range path { atMost := some v }
  | .between => p.value.bind (between? path)
  | .notBetween => (p.value.bind (between? path)).map Clause.negate
  | .equals | .oneOf => values.map (.terms path)
  | .notEquals | .noneOf => values.map fun vs => (Clause.terms path vs).negate

namespace MetaItem

mutual
/-- The clause of an item inside a group at some depth. -/
def clause? (limit depth : Nat) : MetaItem → Except TooDeep (Option Clause)
  | .predicate p => .ok p.clause?
  | .group relation items =>
    if limit < depth + 1 then .error ⟨depth + 1⟩
    else (clauses limit (depth + 1) items).map (Clause.combine relation)
termination_by structural i => i

def clauses (limit depth : Nat) : List MetaItem → Except TooDeep (List Clause)
  | [] => .ok []
  | i :: is => do
    let c ← clause? limit depth i
    let cs ← clauses limit depth is
    .ok (c.toList ++ cs)
termination_by structural is => is
end

end MetaItem

namespace MetaQuery

/-- The clauses of a query that stands at some depth, not yet joined. -/
def clauses (q : MetaQuery) (depth limit : Nat) : Except TooDeep (List Clause) :=
  if limit < depth then .error ⟨depth⟩ else MetaItem.clauses limit depth q.items

/-- The clause of a query; none if it is empty. -/
def filter? (q : MetaQuery) (limit : Nat) : Except TooDeep (Option Clause) :=
  (q.clauses 0 limit).map (Clause.combine q.relation)

end MetaQuery
end ContentIndex.Query
