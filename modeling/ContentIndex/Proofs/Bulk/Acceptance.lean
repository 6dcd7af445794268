import ContentIndex.Proofs.Bulk.Delivery
import ContentIndex.Proofs.Json.Canonical

/-
  When the engine's answer to a bulk request counts an entry as accepted. What an item says is the
  value of its first action (`Tells`); it is about an entry if it names the id of the entry
  (`IsFor`), and good news only with a status of success and without an error (`IsGood`). An item
  is read as what it says, or not at all (`read?_eq_some_iff`). So an entry is not rejected if
  something was said about it and all of that is good news, and nothing else in an answer can make
  up for it (`not_mem_rejected_iff`).
-/

namespace ContentIndex.Bulk

open Json (Value)

/-! ## What is said of an entry -/

/-- What an item says: the value of its first action, in the order of the names. -/
def Tells (item result : Value) : Prop :=
  ∃ ms name, item = .object ms ∧ (name, result) ∈ ms ∧ ∀ m ∈ ms, name ≤ m.1

/-- A result is about an entry: its id is that number, or a text that writes it. -/
def IsFor (result : Value) (id : UInt64) : Prop :=
  result.get? "_id" = some (.ofUInt64 id) ∨
    ∃ s, result.get? "_id" = some (.string s) ∧ Number.uint64? s = some id

/-- A result is good news: its status is an integer from 200 to 299, and its error is missing or
null. -/
def IsGood (result : Value) : Prop :=
  (∃ n : UInt64, result.get? "status" = some (.ofUInt64 n) ∧ 200 ≤ n ∧ n ≤ 299) ∧
    (result.get? "error" = none ∨ result.get? "error" = some .null)

/-- An item that can be read. -/
def Readable (item : Value) : Prop :=
  ∃ result id, Tells item result ∧ IsFor result id

/-- In the order of its members an item says what stands first. -/
theorem tells_iff {item result : Value} (h : item.Canonical) :
    Tells item result ↔ ∃ name ms, item = .object ((name, result) :: ms) := by
  constructor
  · rintro ⟨ms, name, rfl, hm, least⟩
    cases ms with
    | nil => cases hm
    | cons m ms =>
      rcases List.mem_cons.mp hm with rfl | hm
      · exact ⟨name, ms, rfl⟩
      · have later : m.1 < name := (List.pairwise_cons.mp h.sorted).1 _ hm
        exact absurd later (String.not_lt.mpr (least m List.mem_cons_self))
  · rintro ⟨name, ms, rfl⟩
    refine ⟨_, name, rfl, List.mem_cons_self, List.forall_mem_cons.mpr ⟨String.le_refl name, ?_⟩⟩
    intro m hm
    exact String.not_lt.mp (String.lt_asymm ((List.pairwise_cons.mp h.sorted).1 m hm))

/-- A value is an unsigned integer only as the number that is written for it. -/
theorem uint64?_eq_some_iff {v : Value} {n : UInt64} :
    v.uint64? = some n ↔ v = .ofUInt64 n := by
  constructor
  · intro h
    cases v with
    | number m =>
      cases m with
      | real x hx => cases h
      | integer i hi =>
        change (if 0 ≤ i then some (UInt64.ofNat i.toNat) else none) = some n at h
        split at h
        · cases h
          have small : i.toNat < UInt64.size := by
            show i.toNat < 18446744073709551616
            omega
          have value : i = ((UInt64.ofNat i.toNat).toNat : Int) := by
            rw [UInt64.toNat_ofNat_of_lt' small]
            omega
          show Value.number _ = Value.number (Json.Number.integer _ _)
          congr
        · cases h
    | _ => cases h
  · rintro rfl
    exact Json.Number.uint64?_ofUInt64 n

theorem isFor_iff {result : Value} {id : UInt64} :
    IsFor result id ↔ (result.get? "_id").bind Query.readId? = some id := by
  unfold IsFor
  cases hv : result.get? "_id" with
  | none => simp
  | some v =>
    rw [Option.bind_some]
    cases v with
    | string s =>
      show _ ↔ Number.uint64? s = some id
      simp [Value.ofUInt64]
    | number n =>
      show _ ↔ (Value.number n).uint64? = some id
      rw [uint64?_eq_some_iff]
      simp
    | null => simp [Query.readId?, Value.uint64?, Value.ofUInt64]
    | bool b => simp [Query.readId?, Value.uint64?, Value.ofUInt64]
    | array vs => simp [Query.readId?, Value.uint64?, Value.ofUInt64]
    | object ms => simp [Query.readId?, Value.uint64?, Value.ofUInt64]

namespace Item

/-- What became of an entry by a result. -/
def ofResult (id : UInt64) (result : Value) : Item where
  id
  status := ((result.get? "status").bind readStatus?).getD 0
  error := ((result.get? "error").filter (! ·.isNull)).map errorText

/-- Only a status from 200 to 299 is read as such. -/
theorem status_iff (status : Option Value) :
    (200 ≤ (status.bind readStatus?).getD 0 ∧ (status.bind readStatus?).getD 0 < 300) ↔
      ∃ n : UInt64, status = some (.ofUInt64 n) ∧ 200 ≤ n ∧ n ≤ 299 := by
  have zero : ¬ ((200 : UInt16) ≤ 0 ∧ (0 : UInt16) < 300) := by decide
  have read (n : UInt64) : (200 ≤ ((readStatus? (.ofUInt64 n)).getD 0) ∧
      (readStatus? (.ofUInt64 n)).getD 0 < 300) ↔ 200 ≤ n ∧ n ≤ 299 := by
    have hn : (Value.ofUInt64 n).uint64? = some n := uint64?_eq_some_iff.mpr rfl
    unfold readStatus?
    rw [hn, Option.bind_some]
    simp only [UInt64.lt_iff_toNat_lt, UInt64.le_iff_toNat_le, UInt16.lt_iff_toNat_lt,
      UInt16.le_iff_toNat_le]
    split
    · rename_i small
      have short : n.toUInt16.toNat = n.toNat := by
        rw [UInt64.toNat_toUInt16]
        exact Nat.mod_eq_of_lt small
      rw [Option.getD_some, short]
      show 200 ≤ n.toNat ∧ n.toNat < 300 ↔ 200 ≤ n.toNat ∧ n.toNat ≤ 299
      omega
    · rename_i large
      change ¬ n.toNat < 65536 at large
      rw [Option.getD_none]
      show 200 ≤ 0 ∧ 0 < 300 ↔ 200 ≤ n.toNat ∧ n.toNat ≤ 299
      omega
  cases status with
  | none => simp
  | some v =>
    rw [Option.bind_some]
    cases hv : v.uint64? with
    | some n =>
      rw [uint64?_eq_some_iff] at hv
      subst hv
      rw [read n]
      constructor
      · exact fun h => ⟨n, rfl, h⟩
      · rintro ⟨m, hm, h⟩
        have same : (Value.ofUInt64 n).uint64? = some m :=
          uint64?_eq_some_iff.mpr (Option.some.inj hm)
        rw [uint64?_eq_some_iff.mpr rfl] at same
        cases same
        exact h
    | none =>
      have unread : readStatus? v = none := by
        unfold readStatus?
        rw [hv, Option.bind_none]
      rw [unread, Option.getD_none]
      refine iff_of_false zero ?_
      rintro ⟨n, hn, -⟩
      rw [uint64?_eq_some_iff.mpr (Option.some.inj hn)] at hv
      cases hv

theorem error_iff (error : Option Value) :
    ((error.filter (! ·.isNull)).map errorText).isSome = false ↔
      error = none ∨ error = some .null := by
  cases error with
  | none => simp
  | some v => cases v <;> simp [Option.filter, Value.isNull]

/-- Good news is no failure. -/
theorem isFailure_ofResult {id : UInt64} {result : Value} :
    (ofResult id result).isFailure = false ↔ IsGood result := by
  unfold isFailure IsGood ofResult
  rw [Bool.or_eq_false_iff, error_iff, and_comm, Bool.not_eq_false', Bool.and_eq_true,
    decide_eq_true_iff, decide_eq_true_iff, status_iff]

/-- An item is read as what it says of an entry. -/
theorem read?_eq_some_iff {item : Value} (h : item.Canonical) {i : Item} :
    read? item = some i ↔
      ∃ result, Tells item result ∧ IsFor result i.id ∧ i = ofResult i.id result := by
  constructor
  · intro hi
    cases item with
    | object ms =>
      cases ms with
      | nil => cases hi
      | cons m ms =>
        obtain ⟨name, result⟩ := m
        obtain ⟨id, hid, rfl⟩ := Option.map_eq_some_iff.mp hi
        exact ⟨result, (tells_iff h).mpr ⟨name, ms, rfl⟩, isFor_iff.mpr hid, rfl⟩
    | _ => cases hi
  · rintro ⟨result, told, about, hi⟩
    obtain ⟨name, ms, rfl⟩ := (tells_iff h).mp told
    refine Option.map_eq_some_iff.mpr ⟨i.id, isFor_iff.mp about, ?_⟩
    exact hi.symm

end Item

/-! ## Answers -/

namespace Answer

/-- An entry is not rejected if it is mentioned, or was not submitted, and nothing that mentions
it is a failure. -/
theorem not_mem_rejected (a : Answer) (submitted : List UInt64) (id : UInt64) :
    id ∉ a.rejected submitted ↔
      ((∃ i ∈ a.items, i.id = id) ∨ id ∉ submitted) ∧
        ∀ i ∈ a.items, i.id = id → i.isFailure = false := by
  have mentioned : a.mentions id = true ↔ ∃ i ∈ a.items, i.id = id := by
    unfold mentions
    rw [List.any_eq_true]
    simp only [beq_iff_eq]
  unfold rejected
  rw [IdSet.mem_union, not_or, mem_failed, List.mem_filter, ← mentioned, and_comm]
  refine and_congr ?_ ?_
  · cases a.mentions id <;> simp
  · simp only [not_exists, not_and, Bool.not_eq_true]

theorem read?_of_items {body : Value} {items : List Value}
    (h : body.get? "items" = some (.array items)) :
    ∃ a, read? body = some a ∧ a.items = items.filterMap Item.read? := by
  unfold read?
  rw [h]
  exact ⟨_, rfl, rfl⟩

variable {body : Value} {items : List Value} {a : Answer}

/-- The items of an answer are those that can be read. -/
theorem mem_items_iff (sorted : body.Canonical) (h : body.get? "items" = some (.array items))
    (ha : a.items = items.filterMap Item.read?) {i : Item} :
    i ∈ a.items ↔ ∃ item ∈ items, ∃ result, Tells item result ∧ IsFor result i.id ∧
      i = .ofResult i.id result := by
  have each : ∀ item ∈ items, item.Canonical :=
    fun item hm => (sorted.get? h).of_mem_array hm
  rw [ha, List.mem_filterMap]
  refine exists_congr fun item => and_congr_right fun hm => ?_
  exact Item.read?_eq_some_iff (each item hm)

/-- Only what was said of an entry counts for it, and all of that has to be good news. -/
theorem not_mem_rejected_iff (sorted : body.Canonical)
    (h : body.get? "items" = some (.array items)) (ha : a.items = items.filterMap Item.read?)
    (submitted : List UInt64) (id : UInt64) :
    id ∉ a.rejected submitted ↔
      ((∃ item ∈ items, ∃ result, Tells item result ∧ IsFor result id) ∨ id ∉ submitted) ∧
        ∀ item ∈ items, ∀ result, Tells item result → IsFor result id → IsGood result := by
  rw [not_mem_rejected]
  refine and_congr (or_congr_left ?_) ?_
  · constructor
    · rintro ⟨i, hi, rfl⟩
      obtain ⟨item, hm, result, told, about, -⟩ := (mem_items_iff sorted h ha).mp hi
      exact ⟨item, hm, result, told, about⟩
    · rintro ⟨item, hm, result, told, about⟩
      exact ⟨.ofResult id result,
        (mem_items_iff sorted h ha).mpr ⟨item, hm, result, told, about, rfl⟩, rfl⟩
  · constructor
    · intro good item hm result told about
      have hi := (mem_items_iff sorted h ha (i := .ofResult id result)).mpr
        ⟨item, hm, result, told, about, rfl⟩
      exact Item.isFailure_ofResult.mp (good _ hi rfl)
    · rintro good i hi rfl
      obtain ⟨item, hm, result, told, about, he⟩ := (mem_items_iff sorted h ha).mp hi
      rw [he]
      exact Item.isFailure_ofResult.mpr (good item hm result told about)

/-- An entry is accepted on positive evidence only. An answer with a list of items can be read; it
does not reject an id exactly if some item that can be read is about the id, or the id was not
submitted, and all items that are about it are good news. Answers with the same readable items
reject the same ids, whatever else they hold. -/
theorem rejects_without_evidence (sorted : body.Canonical)
    (h : body.get? "items" = some (.array items)) :
    ∃ a, read? body = some a ∧
      (∀ submitted id, id ∉ a.rejected submitted ↔
        ((∃ item ∈ items, ∃ result, Tells item result ∧ IsFor result id) ∨ id ∉ submitted) ∧
          ∀ item ∈ items, ∀ result, Tells item result → IsFor result id → IsGood result) ∧
      ∀ (body' : Value) (items' : List Value), body'.Canonical →
        body'.get? "items" = some (.array items') →
        (∀ item, Readable item → (item ∈ items' ↔ item ∈ items)) →
        ∃ a', read? body' = some a' ∧
          ∀ submitted, a'.rejected submitted = a.rejected submitted := by
  obtain ⟨a, read, ha⟩ := read?_of_items h
  refine ⟨a, read, not_mem_rejected_iff sorted h ha, ?_⟩
  intro body' items' sorted' h' same
  obtain ⟨a', read', ha'⟩ := read?_of_items h'
  refine ⟨a', read', fun submitted => IdSet.ext fun id => ?_⟩
  rw [← not_iff_not, not_mem_rejected_iff sorted h ha, not_mem_rejected_iff sorted' h' ha']
  -- What is said of the id stands in the same items on both sides.
  have told (item result : Value) (ht : Tells item result) (hf : IsFor result id) :
      item ∈ items' ↔ item ∈ items := same item ⟨result, id, ht, hf⟩
  refine and_congr (or_congr_left ?_) ?_
  · refine exists_congr fun item => ?_
    constructor
    · rintro ⟨hm, result, ht, hf⟩
      exact ⟨(told item result ht hf).mp hm, result, ht, hf⟩
    · rintro ⟨hm, result, ht, hf⟩
      exact ⟨(told item result ht hf).mpr hm, result, ht, hf⟩
  · constructor
    · intro good item hm result ht hf
      exact good item ((told item result ht hf).mpr hm) result ht hf
    · intro good item hm result ht hf
      exact good item ((told item result ht hf).mp hm) result ht hf

/-- An answer that speaks of errors, with good news of entry 5 alone. -/
def alarming : String :=
  "\x7b\"errors\":true,\"items\":[\x7b\"index\":\x7b\"_id\":\"5\",\"status\":201\x7d\x7d]\x7d"

/-- Entry 5 is accepted, and the flag has no say in it. -/
theorem rejects_without_evidence_alarming :
    ∃ body a, Value.parse? alarming = some body ∧ read? body = some a ∧ a.errors = true ∧
      5 ∉ a.rejected [5, 6] := by
  let result : Value := .object [("_id", .string "5"), ("status", .ofUInt64 201)]
  let item : Value := .object [("index", result)]
  let body : Value := .object [("errors", .bool true), ("items", .array [item])]
  have parsed : Value.parse? alarming = some body := by decide +kernel
  have listed : body.get? "items" = some (.array [item]) := rfl
  obtain ⟨a, read, accepted, -⟩ :=
    rejects_without_evidence (Value.canonical_of_parse? parsed) listed
  have errors : (read? body).map (·.errors) = some true := rfl
  rw [read] at errors
  refine ⟨body, a, parsed, read, Option.some.inj errors, (accepted [5, 6] 5).mpr ⟨.inl ?_, ?_⟩⟩
  · refine ⟨item, List.mem_singleton_self item, result, ?_, .inr ⟨"5", rfl, by decide⟩⟩
    exact (tells_iff (by decide)).mpr ⟨"index", [], rfl⟩
  · intro item' hm result' told _
    rw [List.mem_singleton.mp hm] at told
    obtain ⟨name, ms, he⟩ := (tells_iff (by decide)).mp told
    change Value.object [("index", result)] = _ at he
    cases he
    exact ⟨⟨201, rfl, by decide, by decide⟩, .inl rfl⟩

end Answer

end ContentIndex.Bulk
