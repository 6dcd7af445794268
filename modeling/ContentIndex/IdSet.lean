/-
  Finite sets of ids, as lists in strictly ascending order. `mem_insert`, `mem_erase` and
  `mem_union` say what the operations do to membership; equal members make equal sets.
-/

namespace ContentIndex

/-- Puts an id at its place among ascending ones, unless it is there. -/
def insertId (id : UInt64) : List UInt64 → List UInt64
  | [] => [id]
  | a :: r => if id < a then id :: a :: r else if id = a then a :: r else a :: insertId id r

theorem mem_insertId {id x : UInt64} {l : List UInt64} :
    x ∈ insertId id l ↔ x = id ∨ x ∈ l := by
  induction l with
  | nil => simp [insertId]
  | cons a r ih =>
    simp only [insertId]
    split
    · simp
    · split
      · rename_i h
        subst h
        simp
      · simp only [List.mem_cons, ih]
        constructor
        · rintro (h | h | h) <;> simp [h]
        · rintro (h | h | h) <;> simp [h]

theorem insertId_sorted (id : UInt64) {l : List UInt64} (h : l.Pairwise (· < ·)) :
    (insertId id l).Pairwise (· < ·) := by
  induction l with
  | nil => simp [insertId]
  | cons a r ih =>
    obtain ⟨ha, hr⟩ := List.pairwise_cons.mp h
    simp only [insertId]
    split
    · rename_i hlt
      refine List.pairwise_cons.mpr ⟨?_, h⟩
      intro x hx
      rcases List.mem_cons.mp hx with rfl | hx
      · exact hlt
      · exact UInt64.lt_trans hlt (ha x hx)
    · split
      · exact h
      · rename_i hlt hne
        refine List.pairwise_cons.mpr ⟨?_, ih hr⟩
        intro x hx
        rcases mem_insertId.mp hx with rfl | hx
        · exact UInt64.lt_of_le_of_ne (UInt64.not_lt.mp hlt) (Ne.symm hne)
        · exact ha x hx

/-- A finite set of ids. -/
structure IdSet where
  ids : List UInt64
  sorted : ids.Pairwise (· < ·)
deriving DecidableEq

namespace IdSet

def empty : IdSet := ⟨[], List.Pairwise.nil⟩

instance : EmptyCollection IdSet := ⟨empty⟩
instance : Inhabited IdSet := ⟨empty⟩
instance : Membership UInt64 IdSet := ⟨fun s id => id ∈ s.ids⟩

instance (id : UInt64) (s : IdSet) : Decidable (id ∈ s) :=
  inferInstanceAs (Decidable (id ∈ s.ids))

def contains (s : IdSet) (id : UInt64) : Bool := s.ids.contains id
def isEmpty (s : IdSet) : Bool := s.ids.isEmpty
def size (s : IdSet) : Nat := s.ids.length

def insert (s : IdSet) (id : UInt64) : IdSet :=
  ⟨insertId id s.ids, insertId_sorted id s.sorted⟩

def erase (s : IdSet) (id : UInt64) : IdSet :=
  ⟨s.ids.filter (· ≠ id), s.sorted.filter _⟩

/-- The set with the ids of a list added. -/
def union (s : IdSet) (l : List UInt64) : IdSet :=
  l.foldl insert s

def ofList (l : List UInt64) : IdSet := union ∅ l

/-- The ids from the highest down. -/
def descending (s : IdSet) : List UInt64 := s.ids.reverse

/-! ## Laws -/

theorem mem_def {id : UInt64} {s : IdSet} : id ∈ s ↔ id ∈ s.ids := Iff.rfl

@[simp] theorem contains_iff {id : UInt64} {s : IdSet} : s.contains id = true ↔ id ∈ s := by
  simp [contains, mem_def]

@[simp] theorem not_mem_empty {id : UInt64} : ¬ id ∈ (∅ : IdSet) := by
  intro h
  exact absurd h List.not_mem_nil

@[simp] theorem mem_insert {id x : UInt64} {s : IdSet} : x ∈ s.insert id ↔ x = id ∨ x ∈ s :=
  mem_insertId

@[simp] theorem mem_erase {id x : UInt64} {s : IdSet} : x ∈ s.erase id ↔ x ∈ s ∧ x ≠ id := by
  simp [mem_def, erase]

@[simp] theorem mem_union {x : UInt64} {s : IdSet} {l : List UInt64} :
    x ∈ s.union l ↔ x ∈ s ∨ x ∈ l := by
  induction l generalizing s with
  | nil => simp [union]
  | cons a l ih =>
    have : s.union (a :: l) = (s.insert a).union l := rfl
    rw [this, ih, mem_insert, List.mem_cons]
    constructor
    · rintro ((h | h) | h) <;> simp [h]
    · rintro (h | h | h) <;> simp [h]

@[simp] theorem mem_ofList {x : UInt64} {l : List UInt64} : x ∈ ofList l ↔ x ∈ l := by
  simp [ofList]

@[simp] theorem mem_descending {x : UInt64} {s : IdSet} : x ∈ s.descending ↔ x ∈ s := by
  simp [descending, mem_def]

theorem descending_pairwise (s : IdSet) : s.descending.Pairwise (· > ·) :=
  List.pairwise_reverse.mpr s.sorted

@[simp] theorem length_descending (s : IdSet) : s.descending.length = s.size :=
  List.length_reverse

theorem descending_of_isEmpty {s : IdSet} (h : s.isEmpty = true) : s.descending = [] :=
  List.reverse_eq_nil_iff.mpr (List.isEmpty_iff.mp h)

theorem nodup_ids (s : IdSet) : s.ids.Nodup :=
  s.sorted.imp UInt64.ne_of_lt

/-- Sets with the same members are equal. -/
theorem ext {s t : IdSet} (h : ∀ id, id ∈ s ↔ id ∈ t) : s = t := by
  obtain ⟨l, hl⟩ := s
  obtain ⟨l', hl'⟩ := t
  have hp : l.Perm l' :=
    (List.perm_ext_iff_of_nodup (nodup_ids ⟨l, hl⟩) (nodup_ids ⟨l', hl'⟩)).mpr h
  have he : l = l' :=
    hp.eq_of_pairwise (fun a b _ _ h₁ h₂ => absurd h₂ (UInt64.lt_asymm h₁)) hl hl'
  subst he
  rfl

/-- A set is the set of its ids. -/
@[simp] theorem ofList_ids (s : IdSet) : ofList s.ids = s :=
  ext fun _ => mem_ofList

end IdSet
end ContentIndex
