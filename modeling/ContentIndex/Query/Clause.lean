import ContentIndex.Json.Value

/-
  Query clauses: predicates on the fields of a document and their compositions. A compound has four
  lists of clauses; `Compound.combine` joins clauses by a relation and yields nothing for an empty
  list, so that no empty compound arises from it.
-/

namespace ContentIndex.Query

open Json (Value)
open Number (Double)

/-- How the parts of a query are joined. -/
inductive Relation where
  | and
  | or
deriving DecidableEq, Repr

/-- Four lists of parts: those that must hold, those of which one should, those that must not hold,
and those that must hold without counting for relevance. -/
structure Compound (α : Type) where
  must : List α := []
  should : List α := []
  mustNot : List α := []
  filter : List α := []
deriving DecidableEq

/-- The bounds of a range; each may be absent. -/
structure Bounds where
  above : Option Value := none
  atLeast : Option Value := none
  below : Option Value := none
  atMost : Option Value := none
deriving DecidableEq

def Bounds.isUnbounded (b : Bounds) : Bool :=
  b.above.isNone && b.atLeast.isNone && b.below.isNone && b.atMost.isNone

/-- An analyzed match of one text in several fields. -/
structure MultiMatch where
  query : String
  fields : List String
  kind : Option String := none
  operator : Option String := none
  boost : Option Double := none
  fuzziness : Option UInt32 := none
deriving DecidableEq

/-- A query clause. -/
inductive Clause where
  /-- The field has the value. -/
  | term (field : String) (value : Value)
  /-- The field has one of the values. -/
  | terms (field : String) (values : List Value)
  | range (field : String) (bounds : Bounds)
  /-- The field is there. -/
  | present (field : String)
  /-- The analyzed text of the field matches. -/
  | matching (field : String) (query : Value) (operator : Option String)
  | multiMatch (parts : MultiMatch)
  | regexp (field pattern : String)
  | all (boost : Option Double)
  | bool (parts : Compound Clause)
  /-- Another clause with a score of its own. -/
  | functionScore (query : Clause) (randomScore : Bool) (boostMode : Option String)

/-- Where a part stands in a compound. -/
inductive Occur where
  | must
  | should
  | mustNot
  | filter
deriving DecidableEq, Repr

namespace Compound

variable {α : Type}

/-- The compound of some parts that all stand at one place. -/
def withAll : Occur → List α → Compound α
  | .must, l => { must := l }
  | .should, l => { should := l }
  | .mustNot, l => { mustNot := l }
  | .filter, l => { filter := l }

def isEmpty (c : Compound α) : Bool :=
  c.must.isEmpty && c.should.isEmpty && c.mustNot.isEmpty && c.filter.isEmpty

def length (c : Compound α) : Nat :=
  c.must.length + c.should.length + c.mustNot.length + c.filter.length

end Compound

namespace Clause

instance : Inhabited Clause := ⟨.all none⟩

/-- The clause that holds where `c` does not. -/
def negate (c : Clause) : Clause :=
  .bool { mustNot := [c] }

/-- The clause with a random score on top of its own. -/
def randomized (c : Clause) : Clause :=
  .functionScore c true (some "sum")

/-- The field of a clause on one field. -/
def field? : Clause → Option String
  | .term f _ | .terms f _ | .range f _ | .present f | .matching f _ _ | .regexp f _ => some f
  | .multiMatch _ | .all _ | .bool _ | .functionScore _ _ _ => none

/-- All of the clauses, or one of them; nothing if there are none. -/
def combine (r : Relation) : List Clause → Option Clause
  | [] => none
  | c :: cs => some (.bool (.withAll (match r with | .and => .must | .or => .should) (c :: cs)))

/-! ## Equality -/

mutual
/-- Whether two clauses are the same. -/
def beq : Clause → Clause → Bool
  | .term f v, .term g w => f = g ∧ v = w
  | .terms f v, .terms g w => f = g ∧ v = w
  | .range f v, .range g w => f = g ∧ v = w
  | .present f, .present g => f = g
  | .matching f v o, .matching g w p => f = g ∧ v = w ∧ o = p
  | .multiMatch m, .multiMatch n => m = n
  | .regexp f v, .regexp g w => f = g ∧ v = w
  | .all b, .all c => b = c
  | .bool a, .bool b => beqCompound a b
  | .functionScore a r m, .functionScore b s n => beq a b && decide (r = s ∧ m = n)
  | _, _ => false
termination_by structural c => c

def beqCompound : Compound Clause → Compound Clause → Bool
  | ⟨a, b, c, d⟩, ⟨a', b', c', d'⟩ =>
    beqList a a' && beqList b b' && beqList c c' && beqList d d'
termination_by structural c => c

def beqList : List Clause → List Clause → Bool
  | [], [] => true
  | a :: as, b :: bs => beq a b && beqList as bs
  | _, _ => false
termination_by structural l => l
end

mutual
theorem beq_iff : (a b : Clause) → (beq a b = true ↔ a = b)
  | .term _ _, b => by cases b <;> simp [beq]
  | .terms _ _, b => by cases b <;> simp [beq]
  | .range _ _, b => by cases b <;> simp [beq]
  | .present _, b => by cases b <;> simp [beq]
  | .matching _ _ _, b => by cases b <;> simp [beq]
  | .multiMatch _, b => by cases b <;> simp [beq]
  | .regexp _ _, b => by cases b <;> simp [beq]
  | .all _, b => by cases b <;> simp [beq]
  | .bool p, b => by cases b <;> simp [beq, beqCompound_iff p]
  | .functionScore q _ _, b => by cases b <;> simp [beq, beq_iff q]
termination_by structural c => c

theorem beqCompound_iff : (a b : Compound Clause) → (beqCompound a b = true ↔ a = b)
  | ⟨a, b, c, d⟩, ⟨a', b', c', d'⟩ => by
    simp [beqCompound, beqList_iff a, beqList_iff b, beqList_iff c, beqList_iff d, and_assoc]
termination_by structural c => c

theorem beqList_iff : (a b : List Clause) → (beqList a b = true ↔ a = b)
  | [], b => by cases b <;> simp [beqList]
  | a :: as, b => by cases b <;> simp [beqList, beq_iff a, beqList_iff as]
termination_by structural l => l
end

instance : DecidableEq Clause := fun a b => decidable_of_iff _ (beq_iff a b)

end Clause
end ContentIndex.Query
