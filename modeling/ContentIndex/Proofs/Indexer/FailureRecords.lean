import ContentIndex.Proofs.Indexer.Trace
import ContentIndex.Proofs.Indexer.Traffic
import ContentIndex.Proofs.Progress.LedgerRecord

/-
  Operations that run on the ledger. As for the state record, a store call that fails changes
  nothing, and all other answers are arbitrary. Recording failures reads both records, adds to
  them and writes them back; it fails only if a call fails or if the records cannot be read
  (`runs_recordFailures`).
-/

namespace ContentIndex

open Ledger (Records ofRecord? ofRecords?)
open Program (runs_bind_except runs_call_iff runs_done_iff)

/-- What a call and its answer make of the records of the ledger. -/
def ledgered (keys : RecordKeys) : Effect surroundings Records := fun t e t' =>
  recorded keys.failedItems t.items e t'.items ∧
    recorded keys.failedOffsets t.offsets e t'.offsets

theorem idle_recorded (key : String) : Idle (recorded key) := by
  intro t e t' h he
  obtain ⟨c, a⟩ := e
  cases c with
  | store c => cases he
  | _ => exact h

theorem Ledger.Records.eq {t t' : Records} (hi : t'.items = t.items)
    (ho : t'.offsets = t.offsets) : t' = t := by
  obtain ⟨i, o⟩ := t
  obtain ⟨i', o'⟩ := t'
  cases hi
  cases ho
  rfl

theorem idle_ledgered (keys : RecordKeys) : Idle (ledgered keys) := by
  intro t e t' h he
  exact Records.eq (idle_recorded _ h.1 he) (idle_recorded _ h.2 he)

theorem RecordKeys.failedItems_ne (lead : String) :
    (withLead lead).failedItems ≠ (withLead lead).failedOffsets := by
  simp [withLead]

/-! ## Store calls of an operation -/

section

variable {σ α β : Type} {E : Effect surroundings σ} {s s' : σ} {es : List (Event surroundings)}

/-- Passes a call of the store on. -/
def Action.passOn (c : store.Call) : Program surroundings (store.Answer c) :=
  .perform (I := surroundings) (.store c)

theorem Action.stored_run (a : StoreAction α) :
    (Action.stored a).run =
      Program.run (I := store) passOn a.run >>= fun r => .done (r.mapError .store) := by
  unfold Action.stored
  rw [ExceptT.run_bind]
  show (Program.run (I := store) passOn a.run >>= fun r => Program.done (Except.ok r)) >>= _ = _
  rw [Program.bind_bind]
  rfl

theorem Action.stored_bind (a : StoreAction α) (f : α → StoreAction β) :
    Action.stored (a >>= f) = Action.stored a >>= fun v => Action.stored (f v) := by
  refine ExceptT.ext ?_
  rw [ExceptT.run_bind, stored_run, stored_run, ExceptT.run_bind, Program.run_bind,
    Program.bind_bind, Program.bind_bind]
  congr 1
  funext r
  cases r with
  | error e => rfl
  | ok v => exact (stored_run (f v)).symm

theorem runs_stored_get {key : String} {r : Except IndexError (Option String)}
    (h : Program.Runs E (Action.stored (StoreAction.get key)).run s es r s') :
    ∃ a, es = [⟨.store (.get key), a⟩] ∧ E s ⟨.store (.get key), a⟩ s' ∧ r = a.mapError .store := by
  obtain ⟨a, s₁, es', rfl, he, h⟩ := runs_call_iff.mp h
  obtain ⟨rfl, rfl, rfl⟩ := runs_done_iff.mp h
  exact ⟨a, rfl, he, rfl⟩

theorem runs_stored_set {key text : String} {r : Except IndexError Unit}
    (h : Program.Runs E (Action.stored (StoreAction.set key text)).run s es r s') :
    ∃ a, es = [⟨.store (.set key text), a⟩] ∧ E s ⟨.store (.set key text), a⟩ s' ∧
      r = a.mapError .store := by
  obtain ⟨a, s₁, es', rfl, he, h⟩ := runs_call_iff.mp h
  obtain ⟨rfl, rfl, rfl⟩ := runs_done_iff.mp h
  exact ⟨a, rfl, he, rfl⟩

/-- A set is loaded by one call; what its text says is the result. -/
theorem runs_loadSet {key : String} {r : Except IndexError (Option IdSet)}
    (h : Program.Runs E (Action.stored (StoreAction.load Ledger.readIds key)).run s es r s') :
    ∃ a, es = [⟨.store (.get key), a⟩] ∧ E s ⟨.store (.get key), a⟩ s' ∧
      r.map (·.getD ∅) = (a.bind ofRecord?).mapError .store := by
  unfold StoreAction.load at h
  rw [Action.stored_bind] at h
  rcases runs_bind_except.mp h with ⟨e, h₁, rfl⟩ | ⟨text, s₁, es₁, es₂, rfl, h₁, h₂⟩
  · obtain ⟨a, rfl, he, ha⟩ := runs_stored_get h₁
    refine ⟨a, rfl, he, ?_⟩
    cases a with
    | error e' => cases ha; rfl
    | ok text => cases ha
  · obtain ⟨a, rfl, he, ha⟩ := runs_stored_get h₁
    cases a with
    | error e' => cases ha
    | ok text' =>
      cases ha
      cases text with
      | none =>
        obtain ⟨rfl, rfl, rfl⟩ := runs_done_iff.mp h₂
        exact ⟨_, rfl, he, rfl⟩
      | some text =>
        have hd : ∃ d, StoreAction.decode Ledger.readIds text = d := ⟨_, rfl⟩
        obtain ⟨d, hd⟩ := hd
        simp only [hd] at h₂
        cases d with
        | error e =>
          obtain ⟨rfl, rfl, rfl⟩ := runs_done_iff.mp h₂
          refine ⟨_, rfl, he, ?_⟩
          show _ = (StoreAction.decode Ledger.readIds text).mapError IndexError.store
          rw [hd]
          rfl
        | ok v =>
          obtain ⟨rfl, rfl, rfl⟩ := runs_done_iff.mp h₂
          refine ⟨_, rfl, he, ?_⟩
          show _ = (StoreAction.decode Ledger.readIds text).mapError IndexError.store
          rw [hd]
          rfl

end

/-! ## Loading and saving -/

section

variable {keys : RecordKeys} {t t' : Records} {es : List (Event surroundings)}

/-- A call of the store has failed. -/
def Faulty (es : List (Event surroundings)) : Prop := ∃ v ∈ es, v.isFault = true

theorem ledgered_get {key : String} {a : Except StoreError (Option String)}
    (h : ledgered keys t ⟨.store (.get key), a⟩ t') : t' = t := by
  cases a with
  | error e => exact Records.eq h.1 h.2
  | ok text => exact Records.eq h.1.1 h.2.1

/-- One of the two sets is loaded, unless the call fails or the record cannot be read. -/
theorem runs_loadPart {key : String} {part : Option String}
    (hpart : ∀ text, ledgered keys t ⟨.store (.get key), .ok text⟩ t → text = part)
    {r : Except IndexError (Option IdSet)}
    (h : Program.Runs (ledgered keys) (Action.stored (StoreAction.load Ledger.readIds key)).run
      t es r t') :
    t' = t ∧ ((∃ v, r = .ok v ∧ ofRecord? part = .ok (v.getD ∅)) ∨
      (∃ e, r = .error e) ∧ (Faulty es ∨ ∃ e, ofRecord? part = .error e)) := by
  obtain ⟨a, rfl, he, hr⟩ := runs_loadSet h
  obtain rfl := ledgered_get he
  refine ⟨rfl, ?_⟩
  cases a with
  | error e =>
    cases r with
    | ok v => cases hr
    | error e' => exact .inr ⟨⟨e', rfl⟩, .inl ⟨_, List.mem_singleton_self _, rfl⟩⟩
  | ok text =>
    obtain rfl := hpart text he
    change r.map (·.getD ∅) = (ofRecord? text).mapError .store at hr
    cases hd : ofRecord? text with
    | error e =>
      rw [hd] at hr
      cases r with
      | ok v => cases hr
      | error e' => exact .inr ⟨⟨e', rfl⟩, .inr ⟨e, rfl⟩⟩
    | ok set =>
      rw [hd] at hr
      cases r with
      | error e' => cases hr
      | ok v => exact .inl ⟨v, rfl, congrArg Except.ok (Except.ok.inj hr).symm⟩

/-- Loading keeps the records, and gives the ledger that they say. -/
theorem runs_loadLedger {r : Except IndexError Ledger}
    (h : Program.Runs (ledgered keys) (Action.stored (Ledger.load keys)).run t es r t') :
    t' = t ∧ ((∃ l, r = .ok l ∧ ofRecords? t = .ok l) ∨
      (∃ e, r = .error e) ∧ (Faulty es ∨ ∃ e, ofRecords? t = .error e)) := by
  have unreadable (hu : (∃ e, ofRecord? t.items = .error e) ∨ ∃ e, ofRecord? t.offsets = .error e) :
      ∃ e, ofRecords? t = .error e := by
    cases hl : ofRecords? t with
    | error e => exact ⟨e, rfl⟩
    | ok l =>
      obtain ⟨hi, ho⟩ := Ledger.ofRecords?_eq_ok.mp hl
      rw [hi, ho] at hu
      rcases hu with ⟨e, he⟩ | ⟨e, he⟩ <;> cases he
  unfold Ledger.load at h
  rw [Action.stored_bind] at h
  rcases runs_bind_except.mp h with ⟨e, h₁, rfl⟩ | ⟨items, t₁, es₁, es₂, rfl, h₁, h₂⟩
  · obtain ⟨rfl, ⟨v, hv, -⟩ | ⟨-, hb⟩⟩ := runs_loadPart (fun text he => he.1.2 rfl) h₁
    · cases hv
    · exact ⟨rfl, .inr ⟨⟨e, rfl⟩, hb.imp id fun hu => unreadable (.inl hu)⟩⟩
  obtain ⟨rfl, ⟨items, hv, hi⟩ | ⟨⟨e, he⟩, -⟩⟩ := runs_loadPart (fun text he => he.1.2 rfl) h₁
  · cases hv
    rw [Action.stored_bind] at h₂
    rcases runs_bind_except.mp h₂ with ⟨e, h₃, rfl⟩ | ⟨offsets, t₂, es₃, es₄, rfl, h₃, h₄⟩
    · obtain ⟨rfl, ⟨v, hv, -⟩ | ⟨-, hb⟩⟩ := runs_loadPart (fun text he => he.2.2 rfl) h₃
      · cases hv
      · refine ⟨rfl, .inr ⟨⟨e, rfl⟩, hb.imp ?_ fun hu => unreadable (.inr hu)⟩⟩
        rintro ⟨v, hm, hv⟩
        exact ⟨v, List.mem_append_right _ hm, hv⟩
    · obtain ⟨rfl, ⟨offsets, hv, ho⟩ | ⟨⟨e, he⟩, -⟩⟩ := runs_loadPart (fun text he => he.2.2 rfl) h₃
      · cases hv
        obtain ⟨rfl, rfl, rfl⟩ := runs_done_iff.mp h₄
        exact ⟨rfl, .inl ⟨_, rfl, Ledger.ofRecords?_eq_ok.mpr ⟨hi, ho⟩⟩⟩
      · cases he
  · cases he

theorem ledgered_set {key text : String} {u : Unit}
    (h : ledgered keys t ⟨.store (.set key text), .ok u⟩ t') :
    t' = ⟨if key = keys.failedItems then some text else t.items,
      if key = keys.failedOffsets then some text else t.offsets⟩ :=
  Records.eq h.1 h.2

/-- A ledger is saved, unless a call fails. -/
theorem runs_saveLedger (hk : keys.failedItems ≠ keys.failedOffsets) {l : Ledger}
    {r : Except IndexError Unit}
    (h : Program.Runs (ledgered keys) (Action.stored (Ledger.save keys l)).run t es r t') :
    r = .ok () ∧ t' = l.records ∨ (∃ e, r = .error e) ∧ Faulty es := by
  unfold Ledger.save at h
  rw [Action.stored_bind] at h
  rcases runs_bind_except.mp h with ⟨e, h₁, rfl⟩ | ⟨u, t₁, es₁, es₂, rfl, h₁, h₂⟩
  · obtain ⟨a, rfl, he, ha⟩ := runs_stored_set h₁
    cases a with
    | ok u => cases ha
    | error e' => exact .inr ⟨⟨e, rfl⟩, _, List.mem_singleton_self _, rfl⟩
  · obtain ⟨a, rfl, he₁, ha⟩ := runs_stored_set h₁
    obtain ⟨b, rfl, he₂, rfl⟩ := runs_stored_set h₂
    cases a with
    | error e' => cases ha
    | ok u =>
      cases b with
      | error e' => exact .inr ⟨⟨_, rfl⟩, _, List.mem_cons_of_mem _ (List.mem_singleton_self _), rfl⟩
      | ok u' =>
        have h₁ := ledgered_set he₁
        have h₂ := ledgered_set he₂
        rw [if_pos rfl, if_neg hk] at h₁
        rw [if_neg (Ne.symm hk), if_pos rfl, h₁] at h₂
        exact .inl ⟨rfl, h₂⟩

end

/-- Recording adds to the ledger, unless a call fails or the records cannot be read. -/
theorem Indexer.runs_recordFailures {x : Indexer} {items : List UInt64} {offset : Option UInt64}
    {t t' : Records} {es : List (Event surroundings)} {r : Except IndexError Unit}
    (h : Program.Runs (ledgered x.keys) (x.recordFailures items offset).run t es r t') :
    (∃ l, r = .ok () ∧ ofRecords? t = .ok l ∧ t' = (l.add items offset).records) ∨
      (∃ e, r = .error e) ∧ (Faulty es ∨ ∃ e, ofRecords? t = .error e) := by
  have hk : x.keys.failedItems ≠ x.keys.failedOffsets := RecordKeys.failedItems_ne _
  unfold recordFailures Ledger.record at h
  rw [Action.stored_bind] at h
  rcases runs_bind_except.mp h with ⟨e, h₁, rfl⟩ | ⟨l, t₁, es₁, es₂, rfl, h₁, h₂⟩
  · obtain ⟨rfl, ⟨l, hl, -⟩ | ⟨-, hb⟩⟩ := runs_loadLedger h₁
    · cases hl
    · exact .inr ⟨⟨e, rfl⟩, hb⟩
  · obtain ⟨rfl, ⟨l, hv, hl⟩ | ⟨⟨e, he⟩, -⟩⟩ := runs_loadLedger h₁
    · cases hv
      rcases runs_saveLedger hk h₂ with ⟨rfl, rfl⟩ | ⟨he, v, hm, hv⟩
      · exact .inl ⟨l, rfl, hl, rfl⟩
      · exact .inr ⟨he, .inl ⟨v, List.mem_append_right _ hm, hv⟩⟩
    · cases he

/-! ## In a world -/

namespace World

variable {E : Type} {engine : EngineModel E}

/-- The records of the ledger. -/
def failureRecords (w : World E) (keys : RecordKeys) : Records :=
  ⟨w.record keys.failedItems, w.record keys.failedOffsets⟩

/-- The ledger in a world. -/
def ledger (w : World E) (keys : RecordKeys) : Except StoreError Ledger :=
  ofRecords? (w.failureRecords keys)

/-- An operation that is performed in a world runs on its ledger. -/
theorem perform_runs_ledgered (keys : RecordKeys) {α : Type} (a : Action α) (w : World E)
    (h : ∀ r w, (engine r w).2.memory = w.memory) :
    Program.Runs (ledgered keys) a.run (w.failureRecords keys) (w.events engine a)
      (w.perform engine a).1 ((w.perform engine a).2.failureRecords keys) := by
  have kept (key : String) (r : Engine.Request) (w : World E) :
      (engine r w).2.record key = w.record key := by
    unfold record
    rw [h]
  rw [perform, Program.run_eq_trace]
  exact Program.runs_trace (fun w => failureRecords w keys)
    (fun c w => ⟨recorded_handle (kept _) c w, recorded_handle (kept _) c w⟩) a.run w

/-- A store that works carries out a call, and still works then. -/
theorem handle_online (h : ∀ r w, (engine r w).2.memory = w.memory) (c : IndexerCall) (w : World E)
    (online : w.memory.offline = false) :
    Event.isFault ⟨c, (w.handle engine c).1⟩ = false ∧
      (w.handle engine c).2.memory.offline = false := by
  cases c with
  | store c => cases c <;> simp [handle, store, Memory.handle, online, Event.isFault]
  | engine r => exact ⟨rfl, by rw [handle, h]; exact online⟩
  | _ => exact ⟨rfl, online⟩

/-- A store that works carries out every call. -/
theorem events_not_faulty {α : Type} (a : Action α) (w : World E)
    (h : ∀ r w, (engine r w).2.memory = w.memory) (online : w.memory.offline = false) :
    ¬ Faulty (w.events engine a) := by
  rintro ⟨e, he, hf⟩
  have calm := Program.forall_trace (fun e => e.isFault = false)
    (fun w : World E => w.memory.offline = false) (handle_online h) a.run online e he
  rw [calm] at hf
  cases hf

theorem perform_online {α : Type} (a : Action α) (w : World E)
    (h : ∀ r w, (engine r w).2.memory = w.memory) (online : w.memory.offline = false) :
    (w.perform engine a).2.memory.offline = false := by
  rw [perform, Program.run_eq_trace]
  exact Program.moves_frame (P := fun _ => True)
    (E := fun w _ w' => w.memory.offline = false → w'.memory.offline = false)
    (fun w => w.memory.offline = false) (fun _ _ _ _ he hw => he hw)
    (Program.runs_trace id (fun c w hw => (handle_online h c w hw).2) a.run w)
    (fun _ _ => trivial) online

end World

end ContentIndex
