import ContentIndex.Progress.Ledger
import ContentIndex.Proofs.Indexer.StateRecord
import ContentIndex.Proofs.Progress.LedgerRecord
import Mathlib.Data.List.Induction
import Mathlib.Logic.Function.Basic

/-
  Records that are saved and loaded again. All that is asked of a store is that it `Keeps` its
  texts: a key shows what was last set for it. Such a store answers every program as a plain
  function from keys to texts does (`Keeps.perform`), and there it can be computed what a save
  leaves and what a load finds. After any saves under one lead the state and the ledger that are
  loaded are those that were saved last (`records_read_back`), whatever else was saved before,
  after and in between.
-/

namespace ContentIndex

open Program (trace)

/-! ## Stores -/

/-- What a store shows under its keys. -/
abbrev Texts := String → Option String

/-- The store that is its texts. -/
def Texts.handle : (c : store.Call) → Texts → store.Answer c × Texts
  | .get key, t => (.ok (t key), t)
  | .set key text, t => (.ok (), Function.update t key (some text))
  | .delete key, t => (.ok (), Function.update t key none)

/-- As long as a store is up, it answers each call, and a key shows what was last set for it. -/
structure Keeps {σ : Type} (handle : (c : store.Call) → σ → store.Answer c × σ)
    (shown : σ → Texts) (Up : σ → Prop) : Prop where
  answers : ∀ c s, Up s → (handle c s).1 = (Texts.handle c (shown s)).1
  shows : ∀ c s, Up s → shown (handle c s).2 = (Texts.handle c (shown s)).2
  stays : ∀ c s, Up s → Up (handle c s).2

/-- What store calls end with, and the store then. -/
def StoreAction.performOn {σ α : Type} (handle : (c : store.Call) → σ → store.Answer c × σ)
    (a : StoreAction α) (s : σ) : Except StoreError α × σ :=
  (a.run.trace handle s).2

open StoreAction (performOn)

section

variable {σ α β : Type} {handle : (c : store.Call) → σ → store.Answer c × σ} {shown : σ → Texts}
  {Up : σ → Prop} {s : σ}

/-- A store that keeps its texts does to a program what the texts alone do to it. -/
theorem Keeps.perform (h : Keeps handle shown Up) (a : StoreAction α) (hs : Up s) :
    (performOn handle a s).1 = (performOn Texts.handle a (shown s)).1 ∧
      shown (performOn handle a s).2 = (performOn Texts.handle a (shown s)).2 ∧
      Up (performOn handle a s).2 := by
  have all (p : Program store (Except StoreError α)) (s : σ) (hs : Up s) :
      (p.trace handle s).2.1 = (p.trace Texts.handle (shown s)).2.1 ∧
        shown (p.trace handle s).2.2 = (p.trace Texts.handle (shown s)).2.2 ∧
        Up (p.trace handle s).2.2 := by
    induction p generalizing s with
    | done r => exact ⟨rfl, rfl, hs⟩
    | call c next ih =>
      have same : Texts.handle c (shown s) = ((handle c s).1, shown (handle c s).2) :=
        Prod.ext (h.answers c s hs).symm (h.shows c s hs).symm
      simp only [trace, same]
      exact ih _ _ (h.stays c s hs)
  exact all a.run s hs

/-- Store calls go on with the value of the ones before them, unless one of those has failed. -/
theorem StoreAction.performOn_bind (a : StoreAction α) (f : α → StoreAction β) (s : σ) :
    performOn handle (a >>= f) s =
      match performOn handle a s with
      | (.ok v, s') => performOn handle (f v) s'
      | (.error e, s') => (.error e, s') := by
  unfold performOn
  rw [ExceptT.run_bind, Program.trace_bind]
  obtain ⟨-, r, s'⟩ := a.run.trace handle s
  cases r <;> rfl

end

/-! ## Single records -/

/-- A change of the stored records. -/
inductive Save where
  | state (s : IndexState)
  | ledger (l : Ledger)
  | clearLedger

namespace Save

/-- The store calls of a change. -/
def action (keys : RecordKeys) : Save → StoreAction Unit
  | state s => s.save keys
  | ledger l => l.save keys
  | clearLedger => Ledger.clear keys

/-- The state that a change saves. -/
def state? : Save → Option IndexState
  | state s => some s
  | _ => none

/-- The ledger that a change saves; a cleared one is empty. -/
def ledger? : Save → Option Ledger
  | state _ => none
  | ledger l => some l
  | clearLedger => some {}

/-- The texts after a change. -/
def leave (keys : RecordKeys) (t : Texts) : Save → Texts
  | state s => Function.update t keys.state (some s.text)
  | ledger l =>
    Function.update (Function.update t keys.failedItems l.records.items) keys.failedOffsets
      l.records.offsets
  | clearLedger =>
    Function.update (Function.update t keys.failedItems none) keys.failedOffsets none

theorem performOn_action (keys : RecordKeys) (t : Texts) (x : Save) :
    performOn Texts.handle (x.action keys) t = (.ok (), x.leave keys t) := by
  cases x <;> rfl

end Save

theorem performOn_get (key : String) (t : Texts) :
    performOn Texts.handle (StoreAction.get key) t = (.ok (t key), t) := rfl

theorem performOn_load {α : Type} (read : Json.Reader α) (key : String) (t : Texts) :
    performOn Texts.handle (StoreAction.load read key) t =
      (match t key with
        | none => .ok none
        | some text => (StoreAction.decode read text).map some, t) := by
  unfold StoreAction.load
  rw [StoreAction.performOn_bind, performOn_get]
  cases t key with
  | none => rfl
  | some text =>
    simp only
    cases StoreAction.decode read text <;> rfl

/-- Loading the state gives what the text of its record says. -/
theorem performOn_loadState (keys : RecordKeys) (t : Texts) :
    (performOn Texts.handle (IndexState.load keys) t).1 = IndexState.ofRecord? (t keys.state) := by
  unfold IndexState.load IndexState.ofRecord?
  rw [StoreAction.performOn_bind, performOn_load]
  cases t keys.state with
  | none => rfl
  | some text =>
    simp only
    cases StoreAction.decode IndexState.read text <;> rfl

/-- Loading the ledger gives what the texts of its two records say. -/
theorem performOn_loadLedger (keys : RecordKeys) (t : Texts) :
    (performOn Texts.handle (Ledger.load keys) t).1 =
      Ledger.ofRecords? ⟨t keys.failedItems, t keys.failedOffsets⟩ := by
  have second (items : IdSet) :
      (performOn Texts.handle (do
        let offsets ← StoreAction.load Ledger.readIds keys.failedOffsets
        pure (⟨items, offsets.getD ∅⟩ : Ledger)) t).1 =
        (do pure ⟨items, ← Ledger.ofRecord? (t keys.failedOffsets)⟩) := by
    unfold Ledger.ofRecord?
    rw [StoreAction.performOn_bind, performOn_load]
    cases t keys.failedOffsets with
    | none => rfl
    | some text =>
      simp only
      cases StoreAction.decode Ledger.readIds text <;> rfl
  unfold Ledger.load Ledger.ofRecords?
  rw [StoreAction.performOn_bind, performOn_load]
  cases t keys.failedItems with
  | none => exact second ∅
  | some text =>
    simp only [Ledger.ofRecord?]
    cases StoreAction.decode Ledger.readIds text with
    | error e => rfl
    | ok items => exact second items

/-! ## Sequences -/

/-- Makes changes one after another. -/
def saveAll (keys : RecordKeys) : List Save → StoreAction Unit
  | [] => pure ()
  | x :: saves => do
    x.action keys
    saveAll keys saves

theorem performOn_saveAll (keys : RecordKeys) (saves : List Save) (t : Texts) :
    performOn Texts.handle (saveAll keys saves) t =
      (.ok (), saves.foldl (Save.leave keys) t) := by
  induction saves generalizing t with
  | nil => rfl
  | cons x saves ih =>
    have first := Save.performOn_action keys t x
    rw [saveAll, StoreAction.performOn_bind, first]
    exact ih (x.leave keys t)

/-- No two records have the same key. -/
structure RecordKeys.Distinct (keys : RecordKeys) : Prop where
  stateItems : keys.state ≠ keys.failedItems
  stateOffsets : keys.state ≠ keys.failedOffsets
  itemsOffsets : keys.failedItems ≠ keys.failedOffsets

/-- Whatever the keys begin with, it is the same for all of them, and they differ behind it. -/
theorem RecordKeys.distinct_withLead (lead : String) : (withLead lead).Distinct := by
  constructor <;> simp [withLead]

section

variable {keys : RecordKeys} (hk : keys.Distinct)

include hk

/-- The state that is found after some changes is that which they saved last. -/
theorem ofRecord?_saved (saves : List Save) (t : Texts) :
    IndexState.ofRecord? (saves.foldl (Save.leave keys) t keys.state) =
      (saves.filterMap Save.state?).getLast?.elim (IndexState.ofRecord? (t keys.state)) .ok := by
  induction saves using List.reverseRecOn with
  | nil => rfl
  | append_singleton saves x ih =>
    rw [List.foldl_append, List.filterMap_append]
    cases x with
    | state s => simp [Save.leave, Save.state?]
    | ledger l => simpa [Save.leave, Save.state?, hk.stateItems, hk.stateOffsets] using ih
    | clearLedger => simpa [Save.leave, Save.state?, hk.stateItems, hk.stateOffsets] using ih

/-- The ledger that is found after some changes is that which they saved last. -/
theorem ofRecords?_saved (saves : List Save) (t : Texts) :
    Ledger.ofRecords? ⟨saves.foldl (Save.leave keys) t keys.failedItems,
      saves.foldl (Save.leave keys) t keys.failedOffsets⟩ =
      (saves.filterMap Save.ledger?).getLast?.elim
        (Ledger.ofRecords? ⟨t keys.failedItems, t keys.failedOffsets⟩) .ok := by
  induction saves using List.reverseRecOn with
  | nil => rfl
  | append_singleton saves x ih =>
    rw [List.foldl_append, List.filterMap_append]
    cases x with
    | state s =>
      simpa [Save.leave, Save.ledger?, hk.stateItems.symm, hk.stateOffsets.symm] using ih
    | ledger l =>
      simpa [Save.leave, Save.ledger?, hk.itemsOffsets] using Ledger.ofRecords?_records l
    | clearLedger =>
      simp [Save.leave, Save.ledger?, hk.itemsOffsets]
      rfl

end

/-- Changes leave what is under other keys alone. -/
theorem foldl_leave_of_ne {keys : RecordKeys} {key : String}
    (hk : key ∉ [keys.state, keys.failedItems, keys.failedOffsets]) (saves : List Save)
    (t : Texts) : saves.foldl (Save.leave keys) t key = t key := by
  have ne : key ≠ keys.state ∧ key ≠ keys.failedItems ∧ key ≠ keys.failedOffsets := by
    simpa using hk
  induction saves generalizing t with
  | nil => rfl
  | cons x saves ih =>
    rw [List.foldl_cons, ih]
    cases x <;> simp [Save.leave, ne]

/-- Records are saved in a store that keeps its texts, in any order and any number of times. All
saves succeed, and then the state that is loaded is the one that was saved last, and so is the
ledger; what was never saved is loaded as before, and what is under other keys stays. -/
theorem records_read_back {σ : Type} {handle : (c : store.Call) → σ → store.Answer c × σ}
    {shown : σ → Texts} {Up : σ → Prop} (h : Keeps handle shown Up) (lead : String)
    (saves : List Save) {s : σ} (hs : Up s) :
    let keys := RecordKeys.withLead lead
    let saved := performOn handle (saveAll keys saves) s
    saved.1 = .ok () ∧
      (performOn handle (IndexState.load keys) saved.2).1 =
        (saves.filterMap Save.state?).getLast?.elim
          (performOn handle (IndexState.load keys) s).1 .ok ∧
      (performOn handle (Ledger.load keys) saved.2).1 =
        (saves.filterMap Save.ledger?).getLast?.elim
          (performOn handle (Ledger.load keys) s).1 .ok ∧
      keys.Distinct ∧
      ∀ key, key ∉ [keys.state, keys.failedItems, keys.failedOffsets] →
        shown saved.2 key = shown s key := by
  intro keys saved
  have distinct : keys.Distinct := RecordKeys.distinct_withLead lead
  obtain ⟨done, shows, up⟩ := h.perform (saveAll keys saves) hs
  rw [performOn_saveAll] at done shows
  have loadedState {s : σ} (hs : Up s) : (performOn handle (IndexState.load keys) s).1 =
      IndexState.ofRecord? (shown s keys.state) := by
    rw [(h.perform _ hs).1, performOn_loadState]
  have loadedLedger {s : σ} (hs : Up s) : (performOn handle (Ledger.load keys) s).1 =
      Ledger.ofRecords? ⟨shown s keys.failedItems, shown s keys.failedOffsets⟩ := by
    rw [(h.perform _ hs).1, performOn_loadLedger]
  refine ⟨done, ?_, ?_, distinct, fun key hk => ?_⟩
  · rw [loadedState up, loadedState hs, shows]
    exact ofRecord?_saved distinct saves (shown s)
  · rw [loadedLedger up, loadedLedger hs, shows]
    exact ofRecords?_saved distinct saves (shown s)
  · rw [shows]
    exact foldl_leave_of_ne hk saves (shown s)

/-- Records in memory are kept as long as the store is not offline. -/
theorem Memory.keeps :
    Keeps (fun c m => Memory.handle m c) (fun m => m.records.find?) (·.offline = false) := by
  constructor
  · rintro (key | ⟨key, text⟩ | key) m hm <;> simp only [handle, hm, Texts.handle] <;> rfl
  · rintro (key | ⟨key, text⟩ | key) m hm
    · simp [handle, hm, Texts.handle]
    · simp only [handle, hm, Texts.handle, Bool.false_eq_true, if_false]
      funext other
      by_cases h : key = other
      · simp [h]
      · rw [m.records.find?_insert_ne h, Function.update_of_ne (Ne.symm h)]
    · simp only [handle, hm, Texts.handle, Bool.false_eq_true, if_false]
      funext other
      by_cases h : key = other
      · simp [h]
      · rw [m.records.find?_erase_ne h, Function.update_of_ne (Ne.symm h)]
  · rintro (key | ⟨key, text⟩ | key) m hm <;> simp [handle, hm]

/-- A rebuild of one scope that has begun. -/
def begunState : IndexState :=
  .running (.start Cursor.blank.run Calendar.Moment.epoch ["\u00e4\n"] 3)

/-- A ledger is saved, then a state, and then the ledger is cleared: the state is found as it was
saved, and the ledger is empty. -/
theorem records_read_back_cleared :
    let saves : List Save := [.ledger ⟨.ofList [5], .ofList [0]⟩, .state begunState, .clearLedger]
    let saved := performOn (fun c m => Memory.handle m c) (saveAll (.withLead "site:") saves) {}
    (performOn (fun c m => Memory.handle m c) (IndexState.load (.withLead "site:")) saved.2).1 =
        .ok begunState ∧
      (performOn (fun c m => Memory.handle m c) (Ledger.load (.withLead "site:")) saved.2).1 =
        .ok {} := by
  intro saves saved
  obtain ⟨-, state, ledger, -⟩ := records_read_back Memory.keeps "site:" saves (s := {}) rfl
  exact ⟨state, ledger⟩

end ContentIndex
