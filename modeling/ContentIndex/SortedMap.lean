/-
  Maps from names to values, as lists of entries in ascending order of their names. Names are
  compared by code point, which is also the order of their UTF-8 bytes. `insert_sorted` keeps the
  order, and the find laws say what `insert` and `erase` do to every name. `SortedMap` carries
  the order in its type.
-/

namespace ContentIndex

/-- Names with their values. -/
abbrev Entries (α : Type) := List (String × α)

namespace Entries

variable {α β : Type}

/-- The value of the first entry with a name. -/
def find? (name : String) : Entries α → Option α
  | [] => none
  | (k, v) :: r => if k = name then some v else find? name r

/-- Puts an entry at its place among sorted entries, instead of one of the same name. -/
def insert (name : String) (value : α) : Entries α → Entries α
  | [] => [(name, value)]
  | (k, v) :: r =>
    if name < k then (name, value) :: (k, v) :: r
    else if k = name then (name, value) :: r
    else (k, v) :: insert name value r

/-- Sorts entries by name; of several with one name the last stays. -/
def sort (es : Entries α) : Entries α :=
  es.foldl (fun acc e => insert e.1 e.2 acc) []

/-- Removes the entries of a name. -/
def erase (name : String) (es : Entries α) : Entries α :=
  es.filter (·.1 != name)

/-- The names stand in strictly ascending order. -/
def Sorted (es : Entries α) : Prop :=
  es.Pairwise (·.1 < ·.1)

/-! ## Laws -/

@[simp] theorem find?_cons_self (name : String) (v : α) (es : Entries α) :
    find? name ((name, v) :: es) = some v := by
  simp [find?]

theorem find?_cons_ne {k name : String} (v : α) (es : Entries α) (h : k ≠ name) :
    find? name ((k, v) :: es) = find? name es := by
  simp [find?, h]

theorem find?_append (name : String) (es fs : Entries α) :
    find? name (es ++ fs) = (find? name es).or (find? name fs) := by
  induction es with
  | nil => rfl
  | cons e es ih =>
    obtain ⟨k, v⟩ := e
    by_cases h : k = name
    · simp [find?, h]
    · simpa [find?, h] using ih

/-- What is found is the value of an entry. -/
theorem exists_mem_of_find? {name : String} {v : α} {es : Entries α} (h : find? name es = some v) :
    ∃ k, (k, v) ∈ es := by
  induction es with
  | nil => cases h
  | cons e es ih =>
    obtain ⟨k, w⟩ := e
    rw [find?] at h
    split at h
    · cases h
      exact ⟨k, List.mem_cons_self⟩
    · obtain ⟨l, hl⟩ := ih h
      exact ⟨l, List.mem_cons_of_mem _ hl⟩

/-- What was put under a name is found there. -/
@[simp] theorem find?_insert_self (name : String) (v : α) (es : Entries α) :
    find? name (insert name v es) = some v := by
  induction es with
  | nil => simp [insert]
  | cons e es ih =>
    obtain ⟨k, w⟩ := e
    simp only [insert]
    split
    · simp
    · split
      · simp
      · rename_i hk
        rw [find?_cons_ne _ _ hk, ih]

/-- Putting an entry under one name leaves the others alone. -/
theorem find?_insert_ne {name other : String} (h : name ≠ other) (v : α) (es : Entries α) :
    find? other (insert name v es) = find? other es := by
  induction es with
  | nil => simp [insert, find?, h]
  | cons e es ih =>
    obtain ⟨k, w⟩ := e
    simp only [insert]
    split
    · simp [find?, h]
    · split
      · rename_i hk
        simp [find?, h, hk]
      · simp [find?, ih]

theorem mem_insert {name : String} {v : α} {es : Entries α} {e : String × α}
    (h : e ∈ insert name v es) : e = (name, v) ∨ e ∈ es := by
  induction es with
  | nil => simpa [insert] using h
  | cons f es ih =>
    obtain ⟨k, w⟩ := f
    simp only [insert] at h
    split at h
    · simpa using h
    · split at h
      · rcases List.mem_cons.mp h with h | h
        · exact .inl h
        · exact .inr (List.mem_cons_of_mem _ h)
      · rcases List.mem_cons.mp h with h | h
        · exact .inr (h ▸ List.mem_cons_self)
        · exact (ih h).imp id (List.mem_cons_of_mem _)

theorem mem_names_insert {name other : String} {v : α} {es : Entries α} :
    other ∈ (insert name v es).map (·.1) ↔ other = name ∨ other ∈ es.map (·.1) := by
  induction es with
  | nil => simp [insert]
  | cons e es ih =>
    obtain ⟨k, w⟩ := e
    simp only [insert]
    split
    · simp
    · split
      · simp_all
      · simp [ih, or_left_comm]

theorem Sorted.nodup_names {es : Entries α} (h : Sorted es) : (es.map (·.1)).Nodup := by
  refine List.pairwise_map.mpr (h.imp fun hlt heq => ?_)
  rw [heq] at hlt
  exact String.lt_irrefl _ hlt

theorem insert_sorted (name : String) (v : α) {es : Entries α} (h : Sorted es) :
    Sorted (insert name v es) := by
  induction es with
  | nil => simp [insert, Sorted]
  | cons f es ih =>
    obtain ⟨k, w⟩ := f
    obtain ⟨hk, hr⟩ := List.pairwise_cons.mp h
    simp only [insert]
    split
    · rename_i hlt
      refine List.pairwise_cons.mpr ⟨?_, h⟩
      intro e he
      rcases List.mem_cons.mp he with rfl | he
      · exact hlt
      · exact String.lt_trans hlt (hk e he)
    · split
      · rename_i heq
        subst heq
        exact List.pairwise_cons.mpr ⟨hk, hr⟩
      · rename_i hlt hne
        refine List.pairwise_cons.mpr ⟨?_, ih hr⟩
        intro e he
        rcases mem_insert he with rfl | he
        · exact Std.lt_of_le_of_ne (String.not_lt.mp hlt) hne
        · exact hk e he

theorem sort_sorted (es : Entries α) : Sorted (sort es) := by
  have main : ∀ (es acc : Entries α), Sorted acc →
      Sorted (es.foldl (fun acc e => insert e.1 e.2 acc) acc) := by
    intro es
    induction es with
    | nil => exact fun _ h => h
    | cons e es ih => exact fun acc h => ih _ (insert_sorted _ _ h)
  exact main es [] List.Pairwise.nil

/-- An entry whose name comes after all others goes to the end. -/
theorem insert_last {name : String} {v : α} {es : Entries α} (h : ∀ e ∈ es, e.1 < name) :
    insert name v es = es ++ [(name, v)] := by
  induction es with
  | nil => rfl
  | cons f es ih =>
    obtain ⟨k, w⟩ := f
    have hk : k < name := h (k, w) List.mem_cons_self
    have hlt : ¬ name < k := String.lt_asymm hk
    have hne : k ≠ name := fun e => String.lt_irrefl name (e ▸ hk)
    simp only [insert, hlt, hne, if_false, List.cons_append]
    rw [ih fun e he => h e (List.mem_cons_of_mem _ he)]

/-- Sorted entries stay as they are. -/
theorem sort_eq_self {es : Entries α} (h : Sorted es) : sort es = es := by
  have main : ∀ (es acc : Entries α), Sorted (acc ++ es) →
      es.foldl (fun acc e => insert e.1 e.2 acc) acc = acc ++ es := by
    intro es
    induction es with
    | nil => simp
    | cons e es ih =>
      intro acc h
      have hacc : ∀ f ∈ acc, f.1 < e.1 := fun f hf =>
        (List.pairwise_append.mp h).2.2 f hf e List.mem_cons_self
      rw [List.foldl_cons, insert_last hacc, ih]
      · simp
      · simpa using h
  exact main es [] h

theorem erase_sorted (name : String) {es : Entries α} (h : Sorted es) : Sorted (erase name es) :=
  List.Pairwise.filter _ h

@[simp] theorem find?_erase_self (name : String) (es : Entries α) :
    find? name (erase name es) = none := by
  induction es with
  | nil => rfl
  | cons e es ih =>
    obtain ⟨k, v⟩ := e
    by_cases h : k = name
    · simpa [erase, h] using ih
    · have : erase name ((k, v) :: es) = (k, v) :: erase name es := by simp [erase, h]
      rw [this, find?_cons_ne _ _ h, ih]

theorem find?_erase_ne {name other : String} (h : name ≠ other) (es : Entries α) :
    find? other (erase name es) = find? other es := by
  induction es with
  | nil => rfl
  | cons e es ih =>
    obtain ⟨k, v⟩ := e
    by_cases hk : k = name
    · subst hk
      have : erase k ((k, v) :: es) = erase k es := by simp [erase]
      rw [this, ih, find?_cons_ne _ _ h]
    · have : erase name ((k, v) :: es) = (k, v) :: erase name es := by simp [erase, hk]
      rw [this, find?, find?, ih]

end Entries

/-- Entries whose names stand in strictly ascending order. -/
structure SortedMap (α : Type) where
  entries : Entries α
  sorted : Entries.Sorted entries

namespace SortedMap

variable {α : Type}

instance [DecidableEq α] : DecidableEq (SortedMap α) := fun a b =>
  match decEq a.entries b.entries with
  | isTrue h => isTrue (by cases a; cases b; cases h; rfl)
  | isFalse h => isFalse fun e => h (e ▸ rfl)

def empty : SortedMap α := ⟨[], List.Pairwise.nil⟩

instance : EmptyCollection (SortedMap α) := ⟨empty⟩
instance : Inhabited (SortedMap α) := ⟨empty⟩

def find? (m : SortedMap α) (name : String) : Option α :=
  Entries.find? name m.entries

def contains (m : SortedMap α) (name : String) : Bool :=
  (m.find? name).isSome

def insert (m : SortedMap α) (name : String) (value : α) : SortedMap α :=
  ⟨Entries.insert name value m.entries, Entries.insert_sorted name value m.sorted⟩

def erase (m : SortedMap α) (name : String) : SortedMap α :=
  ⟨Entries.erase name m.entries, Entries.erase_sorted name m.sorted⟩

/-- The map of some entries; of several with one name the last stays. -/
def ofList (es : Entries α) : SortedMap α :=
  ⟨Entries.sort es, Entries.sort_sorted es⟩

/-- The map in which the value of a name is what `f` makes of the one there was. -/
def alter (m : SortedMap α) (name : String) (f : Option α → α) : SortedMap α :=
  m.insert name (f (m.find? name))

/-! ## Laws -/

@[ext] theorem ext {a b : SortedMap α} (h : a.entries = b.entries) : a = b := by
  cases a
  cases b
  simp_all

@[simp] theorem find?_insert_self (m : SortedMap α) (name : String) (v : α) :
    (m.insert name v).find? name = some v :=
  Entries.find?_insert_self name v m.entries

theorem find?_insert_ne (m : SortedMap α) {name other : String} (h : name ≠ other) (v : α) :
    (m.insert name v).find? other = m.find? other :=
  Entries.find?_insert_ne h v m.entries

@[simp] theorem find?_erase_self (m : SortedMap α) (name : String) :
    (m.erase name).find? name = none :=
  Entries.find?_erase_self name m.entries

theorem find?_erase_ne (m : SortedMap α) {name other : String} (h : name ≠ other) :
    (m.erase name).find? other = m.find? other :=
  Entries.find?_erase_ne h m.entries

@[simp] theorem find?_empty (name : String) : (empty : SortedMap α).find? name = none :=
  rfl

theorem ofList_entries (m : SortedMap α) : ofList m.entries = m :=
  ext (Entries.sort_eq_self m.sorted)

end SortedMap
end ContentIndex
