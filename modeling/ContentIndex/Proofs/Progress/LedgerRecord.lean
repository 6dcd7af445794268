import ContentIndex.Progress.Ledger
import ContentIndex.Proofs.Progress.ReadBack

/-
  The records of the ledger. A ledger that was written is read back as it is
  (`ofRecords?_records`), so what is said of the ledger can be said of the two texts that the
  store holds.
-/

namespace ContentIndex.Ledger

open Json (Reader ReadsAs Tree Value)

/-- What the store holds of a ledger. -/
structure Records where
  items : Option String
  offsets : Option String

/-- The set that a record says; without one it is empty. -/
def ofRecord? : Option String → Except StoreError IdSet
  | none => .ok ∅
  | some text => StoreAction.decode readIds text

/-- The ledger that two records say. -/
def ofRecords? (t : Records) : Except StoreError Ledger := do
  let items ← ofRecord? t.items
  let offsets ← ofRecord? t.offsets
  pure ⟨items, offsets⟩

/-- The text of a set. -/
def setText (s : IdSet) : String := (idsToJson s).render

def records (l : Ledger) : Records :=
  ⟨some (setText l.items), some (setText l.offsets)⟩

/-! ## Sets -/

theorem integralItems_ids (l : List UInt64) : Value.IntegralItems (l.map .ofUInt64) := by
  induction l with
  | nil => trivial
  | cons n l ih => exact ⟨trivial, ih⟩

theorem read_idsToJson (s : IdSet) : readIds (Tree.ofValue (idsToJson s)) = .ok s := by
  have ids : ReadsAs (Reader.list Reader.uint64) (idsToJson s) s.ids :=
    .list fun n _ => .uint64 n
  rw [readIds, ids.written]
  exact congrArg Except.ok (IdSet.ofList_ids s)

theorem ofRecord?_setText (s : IdSet) : ofRecord? (some (setText s)) = .ok s := by
  have hv : (idsToJson s).Integral := integralItems_ids s.ids
  show StoreAction.decode readIds (idsToJson s).render = .ok s
  unfold StoreAction.decode
  rw [Tree.ofText?_render _ hv]
  simp only [read_idsToJson]
  rfl

/-! ## Ledgers -/

/-- A ledger that was written is read back as it is. -/
theorem ofRecords?_records (l : Ledger) : ofRecords? l.records = .ok l := by
  unfold ofRecords? records
  rw [ofRecord?_setText, ofRecord?_setText]
  rfl

/-- A ledger that is read has two records that are read. -/
theorem ofRecords?_eq_ok {t : Records} {l : Ledger} :
    ofRecords? t = .ok l ↔
      ofRecord? t.items = .ok l.items ∧ ofRecord? t.offsets = .ok l.offsets := by
  unfold ofRecords?
  cases hi : ofRecord? t.items with
  | error e =>
    constructor
    · intro h
      cases h
    · rintro ⟨h, -⟩
      cases h
  | ok items =>
    cases ho : ofRecord? t.offsets with
    | error e =>
      constructor
      · intro h
        cases h
      · rintro ⟨-, h⟩
        cases h
    | ok offsets =>
      constructor
      · intro h
        cases h
        exact ⟨rfl, rfl⟩
      · rintro ⟨h₁, h₂⟩
        cases h₁
        cases h₂
        rfl

end ContentIndex.Ledger
