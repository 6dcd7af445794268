import ContentIndex.Proofs.Indexer.FailureRecords

/-
  What happens to single failures. A failure is an item or a page; it can stand in the ledger, it
  can be stored by a call, and it can be told to the host in a report. Calls that are `Elsewhere`
  do none of this. At the end of a scope the whole ledger is reported, if there is anything in it,
  and is removed (`runs_reportFailures`).
-/

namespace ContentIndex

open Ledger (Records ofRecord? ofRecords?)
open Program (runs_bind_except runs_call_iff runs_done_iff)

/-! ## Failures -/

/-- A failure that the ledger can hold. -/
inductive Failure where
  | item (id : UInt64)
  | page (offset : UInt64)
deriving DecidableEq, Repr

namespace Failure

/-- The key of the record that holds such failures. -/
def key (keys : RecordKeys) : Failure → String
  | .item _ => keys.failedItems
  | .page _ => keys.failedOffsets

def number : Failure → UInt64
  | .item n | .page n => n

end Failure

namespace Ledger

/-- The set that such failures stand in. -/
def part (l : Ledger) : Failure → IdSet
  | .item _ => l.items
  | .page _ => l.offsets

instance : Membership Failure Ledger := ⟨fun l f => f.number ∈ l.part f⟩

instance (f : Failure) (l : Ledger) : Decidable (f ∈ l) :=
  inferInstanceAs (Decidable (f.number ∈ l.part f))

theorem mem_iff {f : Failure} {l : Ledger} : f ∈ l ↔ f.number ∈ l.part f := Iff.rfl

@[simp] theorem not_mem_blank (f : Failure) : ¬ f ∈ ({} : Ledger) := by
  cases f <;> exact IdSet.not_mem_empty

theorem mem_add {f : Failure} {l : Ledger} {items : List UInt64} {offset : Option UInt64} :
    f ∈ l.add items offset ↔
      f ∈ l ∨ match f with
        | .item id => id ∈ items
        | .page o => offset = some o := by
  cases f with
  | item id => exact IdSet.mem_union
  | page o => exact IdSet.mem_union.trans (or_congr Iff.rfl Option.mem_toList)

theorem isEmpty_iff {l : Ledger} : l.isEmpty = true ↔ ∀ f : Failure, ¬ f ∈ l := by
  have empty (s : IdSet) : s.isEmpty = true ↔ ∀ id, ¬ id ∈ s :=
    List.isEmpty_iff.trans List.eq_nil_iff_forall_not_mem
  unfold isEmpty
  rw [Bool.and_eq_true, empty, empty]
  refine ⟨fun h f => ?_, fun h => ⟨fun id => h (.item id), fun o => h (.page o)⟩⟩
  cases f with
  | item id => exact h.1 id
  | page o => exact h.2 o

end Ledger

namespace FailureReport

instance : Membership Failure FailureReport :=
  ⟨fun r f => match f with
    | .item id => id ∈ r.items
    | .page o => o ∈ r.offsets⟩

instance (f : Failure) (r : FailureReport) : Decidable (f ∈ r) :=
  match f with
  | .item id => inferInstanceAs (Decidable (id ∈ r.items))
  | .page o => inferInstanceAs (Decidable (o ∈ r.offsets))

theorem mem_report {f : Failure} {l : Ledger} {scope : Option String} {run : Option RunId} :
    f ∈ l.report scope run ↔ f ∈ l := by
  cases f <;> exact Iff.rfl

end FailureReport

/-! ## Events -/

namespace Event

/-- The call has stored a set with the failure in it. -/
def stores (keys : RecordKeys) (f : Failure) (e : Event surroundings) : Prop :=
  ∃ text s, e.stored? (f.key keys) = some text ∧ ofRecord? (some text) = .ok s ∧ f.number ∈ s

theorem stores_iff {keys : RecordKeys} {f : Failure} {e : Event surroundings} :
    e.stores keys f ↔
      ∃ text ∈ e.stored? (f.key keys), ∃ s ∈ (ofRecord? (some text)).toOption, f.number ∈ s := by
  refine exists_congr fun text => ⟨?_, ?_⟩
  · rintro ⟨s, ht, hs, hn⟩
    exact ⟨ht, s, by rw [hs]; rfl, hn⟩
  · rintro ⟨ht, s, hs, hn⟩
    refine ⟨s, ht, ?_, hn⟩
    cases hr : ofRecord? (some text) with
    | error e => rw [hr] at hs; cases hs
    | ok s' => rw [hr] at hs; cases hs; rfl

instance (keys : RecordKeys) (f : Failure) (e : Event surroundings) : Decidable (e.stores keys f) :=
  decidable_of_iff _ stores_iff.symm

end Event

def reports (es : List (Event surroundings)) : List FailureReport :=
  es.filterMap Event.report?

/-- The failure was stored. -/
def Stored (keys : RecordKeys) (f : Failure) (es : List (Event surroundings)) : Prop :=
  ∃ e ∈ es, e.stores keys f

/-- The host was told of the failure. -/
def Reported (f : Failure) (es : List (Event surroundings)) : Prop :=
  ∃ r ∈ reports es, f ∈ r

instance (keys : RecordKeys) (f : Failure) (es : List (Event surroundings)) :
    Decidable (Stored keys f es) :=
  inferInstanceAs (Decidable (∃ e ∈ es, e.stores keys f))

instance (f : Failure) (es : List (Event surroundings)) : Decidable (Reported f es) :=
  inferInstanceAs (Decidable (∃ r ∈ reports es, f ∈ r))

/-- The ledger is removed before it is looked at. -/
def Discards (keys : RecordKeys) (es : List (Event surroundings)) : Prop :=
  ∃ a, es.find? (·.touches keys.failedItems) = some ⟨.store (.delete keys.failedItems), a⟩

section

variable {keys : RecordKeys} {f : Failure} {es es' : List (Event surroundings)}

@[simp] theorem reports_nil : reports [] = [] := rfl

@[simp] theorem reports_append : reports (es ++ es') = reports es ++ reports es' :=
  List.filterMap_append

@[simp] theorem not_stored_nil : ¬ Stored keys f [] := by
  rintro ⟨e, he, -⟩
  cases he

@[simp] theorem stored_append :
    Stored keys f (es ++ es') ↔ Stored keys f es ∨ Stored keys f es' := by
  unfold Stored
  simp only [List.mem_append, or_and_right, exists_or]

@[simp] theorem not_reported_nil : ¬ Reported f [] := by
  rintro ⟨r, hr, -⟩
  cases hr

@[simp] theorem reported_append : Reported f (es ++ es') ↔ Reported f es ∨ Reported f es' := by
  unfold Reported
  simp only [reports_append, List.mem_append, or_and_right, exists_or]

theorem Discards.append (h : Discards keys es) : Discards keys (es ++ es') := by
  obtain ⟨a, ha⟩ := h
  exact ⟨a, by rw [List.find?_append, ha, Option.some_or]⟩

/-- Only the first look at the ledger counts. -/
theorem discards_append : Discards keys (es ++ es') →
    Discards keys es ∨ (∀ e ∈ es, e.touches keys.failedItems = false) ∧ Discards keys es' := by
  rintro ⟨a, ha⟩
  rw [List.find?_append] at ha
  cases hf : es.find? (·.touches keys.failedItems) with
  | some e =>
    rw [hf, Option.some_or] at ha
    exact .inl ⟨a, by rw [hf, ha]⟩
  | none =>
    rw [hf, Option.none_or] at ha
    refine .inr ⟨fun e he => ?_, a, ha⟩
    exact Bool.not_eq_true _ ▸ List.find?_eq_none.mp hf e he

end

/-! ## Calls elsewhere -/

/-- A call that is neither on the ledger nor a report. -/
def Elsewhere (keys : RecordKeys) : IndexerCall → Prop
  | .store c => ¬ c.On (Ledger.ledgerKeys keys)
  | .notify _ => False
  | _ => True

/-- Events that leave the ledger and the host alone. -/
structure Untouched (keys : RecordKeys) (es : List (Event surroundings)) : Prop where
  items : ∀ e ∈ es, e.touches keys.failedItems = false
  stored : ∀ f, ¬ Stored keys f es
  reports : reports es = []

section

variable {keys : RecordKeys} {t t' : Records} {es es' : List (Event surroundings)}

theorem Untouched.not_discards (h : Untouched keys es) : ¬ Discards keys es := by
  rintro ⟨a, ha⟩
  have hm := h.items _ (List.mem_of_find?_eq_some ha)
  rw [List.find?_some ha] at hm
  cases hm

/-- What comes before the first look at the ledger does not count. -/
theorem Untouched.discards (h : Untouched keys es) (hd : Discards keys es') :
    Discards keys (es ++ es') := by
  obtain ⟨a, ha⟩ := hd
  have before : es.find? (·.touches keys.failedItems) = none :=
    List.find?_eq_none.mpr fun e he => by
      rw [h.items e he]
      exact Bool.false_ne_true
  exact ⟨a, by rw [List.find?_append, before, Option.none_or, ha]⟩

theorem Elsewhere.touches {e : Event surroundings} (h : Elsewhere keys e.call) {key : String}
    (hk : key ∈ Ledger.ledgerKeys keys) : e.touches key = false := by
  obtain ⟨c, a⟩ := e
  cases c with
  | store c =>
    have other (k : String) (hn : ¬ k ∈ Ledger.ledgerKeys keys) : (k == key) = false :=
      beq_eq_false_iff_ne.mpr fun he => hn (he ▸ hk)
    cases c <;> exact other _ h
  | _ => rfl

theorem Failure.key_mem (f : Failure) (keys : RecordKeys) :
    f.key keys ∈ Ledger.ledgerKeys keys := by
  cases f <;> simp [key, Ledger.ledgerKeys]

theorem Event.stored?_of_touches {key : String} {e : Event surroundings}
    (h : e.touches key = false) : e.stored? key = none := by
  obtain ⟨c, a⟩ := e
  cases c with
  | store c =>
    cases c with
    | set k text =>
      cases a with
      | error e => rfl
      | ok u => exact if_neg (beq_eq_false_iff_ne.mp h)
    | _ => rfl
  | _ => rfl

theorem untouched_of_elsewhere (h : ∀ e ∈ es, Elsewhere keys e.call) : Untouched keys es := by
  refine ⟨fun e he => (h e he).touches (by simp [Ledger.ledgerKeys]), ?_, ?_⟩
  · rintro f ⟨e, he, text, s, hs, -⟩
    rw [Event.stored?_of_touches ((h e he).touches (f.key_mem keys))] at hs
    cases hs
  · refine List.filterMap_eq_nil_iff.mpr fun e he => ?_
    have hc := h e he
    obtain ⟨c, a⟩ := e
    cases c with
    | notify r => exact hc.elim
    | _ => rfl

/-- An operation with all its calls elsewhere keeps the ledger. -/
theorem runs_elsewhere {α : Type} {a : Action α} {r : Except IndexError α}
    (ha : a.Calls (Elsewhere keys)) (h : Program.Runs (ledgered keys) a.run t es r t') :
    t' = t ∧ Untouched keys es := by
  have hes := (Program.Always.of_runs ha h).1
  refine ⟨Program.moves_frame (P := Elsewhere keys) (· = t) (fun t₁ e t₂ he hs h₁ => ?_) h hes rfl,
    untouched_of_elsewhere hes⟩
  rw [← h₁]
  exact Records.eq (recorded_untouched (he.touches (by simp [Ledger.ledgerKeys])) hs.1).1
    (recorded_untouched (he.touches (by simp [Ledger.ledgerKeys])) hs.2).1

end

/-! ## Calls on the ledger -/

section

variable {σ : Type} {E : Effect surroundings σ} {s s' : σ} {keys : RecordKeys}
  {es : List (Event surroundings)}

theorem runs_loadSet_ok {key : String} {v : Option IdSet}
    (h : Program.Runs E (Action.stored (StoreAction.load Ledger.readIds key)).run s es (.ok v) s') :
    ∃ text, es = [⟨.store (.get key), .ok text⟩] ∧ ofRecord? text = .ok (v.getD ∅) := by
  obtain ⟨a, rfl, -, hv⟩ := runs_loadSet h
  cases a with
  | error e => cases hv
  | ok text =>
    refine ⟨text, rfl, ?_⟩
    change Except.ok (v.getD ∅) = (ofRecord? text).mapError IndexError.store at hv
    cases ht : ofRecord? text with
    | error e =>
      rw [ht] at hv
      cases hv
    | ok set =>
      rw [ht] at hv
      exact congrArg Except.ok (Except.ok.inj hv).symm

/-- A ledger is loaded by two calls. -/
theorem runs_loadLedger_ok {l : Ledger}
    (h : Program.Runs E (Action.stored (Ledger.load keys)).run s es (.ok l) s') :
    ∃ a b, es = [⟨.store (.get keys.failedItems), .ok a⟩,
      ⟨.store (.get keys.failedOffsets), .ok b⟩] ∧ ofRecords? ⟨a, b⟩ = .ok l := by
  unfold Ledger.load at h
  rw [Action.stored_bind] at h
  obtain ⟨items, s₁, es₁, es₂, rfl, h₁, h₂⟩ := Program.runs_bind_ok h
  rw [Action.stored_bind] at h₂
  obtain ⟨offsets, s₂, es₃, es₄, rfl, h₃, h₄⟩ := Program.runs_bind_ok h₂
  obtain ⟨a, rfl, ha⟩ := runs_loadSet_ok h₁
  obtain ⟨b, rfl, hb⟩ := runs_loadSet_ok h₃
  obtain ⟨rfl, hl, -⟩ := runs_done_iff.mp h₄
  cases hl
  exact ⟨a, b, rfl, Ledger.ofRecords?_eq_ok.mpr ⟨ha, hb⟩⟩

/-- A ledger is saved by two calls. -/
theorem runs_saveLedger_ok {l : Ledger}
    (h : Program.Runs E (Action.stored (Ledger.save keys l)).run s es (.ok ()) s') :
    es = [⟨.store (.set keys.failedItems (Ledger.setText l.items)), .ok ()⟩,
      ⟨.store (.set keys.failedOffsets (Ledger.setText l.offsets)), .ok ()⟩] := by
  unfold Ledger.save at h
  rw [Action.stored_bind] at h
  obtain ⟨u, s₁, es₁, es₂, rfl, h₁, h₂⟩ := Program.runs_bind_ok h
  obtain ⟨a, rfl, -, ha⟩ := runs_stored_set h₁
  obtain ⟨b, rfl, -, hb⟩ := runs_stored_set h₂
  cases a with
  | error e => cases ha
  | ok u =>
    cases b with
    | error e => cases hb
    | ok u => rfl

end

section

variable {keys : RecordKeys} {t t' : Records} {es : List (Event surroundings)}

theorem runs_stored_delete {σ : Type} {E : Effect surroundings σ} {s s' : σ} {key : String}
    {r : Except IndexError Unit}
    (h : Program.Runs E (Action.stored (StoreAction.delete key)).run s es r s') :
    ∃ a, es = [⟨.store (.delete key), a⟩] ∧ E s ⟨.store (.delete key), a⟩ s' ∧
      r = a.mapError .store := by
  obtain ⟨a, s₁, es', rfl, he, h⟩ := runs_call_iff.mp h
  obtain ⟨rfl, rfl, rfl⟩ := runs_done_iff.mp h
  exact ⟨a, rfl, he, rfl⟩

theorem ledgered_delete {key : String} {u : Unit}
    (h : ledgered keys t ⟨.store (.delete key), .ok u⟩ t') :
    t' = ⟨if key = keys.failedItems then none else t.items,
      if key = keys.failedOffsets then none else t.offsets⟩ :=
  Records.eq h.1 h.2

/-- The records of an empty ledger. -/
def Ledger.Records.absent : Records := ⟨none, none⟩

/-- The ledger is removed by two calls, unless one of them fails. -/
theorem runs_clearLedger {r : Except IndexError Unit}
    (h : Program.Runs (ledgered keys) (Action.stored (Ledger.clear keys)).run t es r t') :
    r = .ok () ∧ t' = .absent ∧
        es = [⟨.store (.delete keys.failedItems), .ok ()⟩,
          ⟨.store (.delete keys.failedOffsets), .ok ()⟩] ∨
      (∃ e, r = .error e) ∧ Faulty es := by
  unfold Ledger.clear at h
  rw [Action.stored_bind] at h
  rcases runs_bind_except.mp h with ⟨e, h₁, rfl⟩ | ⟨u, t₁, es₁, es₂, rfl, h₁, h₂⟩
  · obtain ⟨a, rfl, -, ha⟩ := runs_stored_delete h₁
    cases a with
    | ok u => cases ha
    | error e' => exact .inr ⟨⟨e, rfl⟩, _, List.mem_singleton_self _, rfl⟩
  · obtain ⟨a, rfl, he₁, ha⟩ := runs_stored_delete h₁
    obtain ⟨b, rfl, he₂, rfl⟩ := runs_stored_delete h₂
    cases a with
    | error e' => cases ha
    | ok u =>
      cases b with
      | error e' =>
        exact .inr ⟨⟨_, rfl⟩, _, List.mem_cons_of_mem _ (List.mem_singleton_self _), rfl⟩
      | ok u' =>
        obtain rfl := ledgered_delete he₁
        refine .inl ⟨rfl, (ledgered_delete he₂).trans ?_, rfl⟩
        simp [Ledger.Records.absent]

end

/-- What a ledger holds is what is stored when it is saved. -/
theorem stored_save {keys : RecordKeys} (hk : keys.failedItems ≠ keys.failedOffsets) (l : Ledger)
    (f : Failure) :
    Stored keys f [⟨.store (.set keys.failedItems (Ledger.setText l.items)), .ok ()⟩,
      ⟨.store (.set keys.failedOffsets (Ledger.setText l.offsets)), .ok ()⟩] ↔ f ∈ l := by
  have saved (s : IdSet) (n : UInt64) :
      (∃ s', ofRecord? (some (Ledger.setText s)) = .ok s' ∧ n ∈ s') ↔ n ∈ s := by
    rw [Ledger.ofRecord?_setText]
    exact ⟨fun ⟨s', hs, hn⟩ => by cases hs; exact hn, fun hn => ⟨s, rfl, hn⟩⟩
  cases f with
  | item n =>
    simpa [Stored, Event.stores, Event.stored?, Failure.key, Failure.number, Ledger.mem_iff,
      Ledger.part, hk.symm]
      using saved l.items n
  | page n =>
    simpa [Stored, Event.stores, Event.stored?, Failure.key, Failure.number, Ledger.mem_iff,
      Ledger.part, hk]
      using saved l.offsets n

/-- Failures that are recorded are added to the ledger, which is looked at before. -/
theorem Indexer.runs_recordFailures_ok {x : Indexer} {items : List UInt64}
    {offset : Option UInt64} {t t' : Records} {es : List (Event surroundings)}
    (h : Program.Runs (ledgered x.keys) (x.recordFailures items offset).run t es (.ok ()) t') :
    ∃ l, ofRecords? t = .ok l ∧ t' = (l.add items offset).records ∧
      (∀ f, Stored x.keys f es ↔ f ∈ l.add items offset) ∧ ¬ Discards x.keys es ∧
      reports es = [] := by
  have hk : x.keys.failedItems ≠ x.keys.failedOffsets := RecordKeys.failedItems_ne _
  rcases runs_recordFailures h with ⟨l, -, hl, ht⟩ | ⟨⟨e, he⟩, -⟩
  swap
  · cases he
  unfold recordFailures Ledger.record at h
  rw [Action.stored_bind] at h
  obtain ⟨l₁, t₁, es₁, es₂, rfl, h₁, h₂⟩ := Program.runs_bind_ok h
  obtain ⟨a, b, hes₁, -⟩ := runs_loadLedger_ok h₁
  obtain ⟨rfl, ⟨l₂, hl₂, hl'⟩ | ⟨⟨e, he⟩, -⟩⟩ := runs_loadLedger h₁
  swap
  · cases he
  cases hl₂
  rw [hl] at hl'
  cases hl'
  have hes₂ := runs_saveLedger_ok h₂
  refine ⟨l, hl, ht, fun f => ?_, ?_, by rw [hes₁, hes₂]; rfl⟩
  · rw [stored_append, hes₂, stored_save hk]
    refine or_iff_right ?_
    simp [hes₁, Stored, Event.stores, Event.stored?]
  · rintro ⟨a, ha⟩
    rw [hes₁, List.cons_append, List.find?_cons_of_pos (by simp [Event.touches])] at ha
    cases ha

/-- The ledger at the end of a scope is reported if there is anything in it, and removed. -/
theorem Indexer.runs_reportFailures {x : Indexer} {c : Cursor} {t t' : Records}
    {es : List (Event surroundings)} {r : Except IndexError Unit}
    (h : Program.Runs (ledgered x.keys) (x.reportFailures c).run t es r t') :
    (∃ l, r = .ok () ∧ ofRecords? t = .ok l ∧ t' = .absent ∧
        (∀ f, ¬ Stored x.keys f es) ∧ ¬ Discards x.keys es ∧
        reports es = if l.isEmpty then [] else [l.report c.scope (some c.run)]) ∨
      (∃ e, r = .error e) ∧ (Faulty es ∨ ∃ e, ofRecords? t = .error e) := by
  rcases runs_bind_except.mp h with ⟨e, h₁, rfl⟩ | ⟨l, t₁, es₁, es₂, rfl, h₁, h₂⟩
  · obtain ⟨rfl, ⟨l, hl, -⟩ | ⟨-, hb⟩⟩ := runs_loadLedger h₁
    · cases hl
    · exact .inr ⟨⟨e, rfl⟩, hb⟩
  obtain ⟨a, b, hes₁, -⟩ := runs_loadLedger_ok h₁
  obtain ⟨rfl, ⟨l, hv, hl⟩ | ⟨⟨e, he⟩, -⟩⟩ := runs_loadLedger h₁
  · cases hv
    have clear {es : List (Event surroundings)} {t' : Records}
        (h : Program.Runs (ledgered x.keys) (Action.stored (Ledger.clear x.keys)).run t₁ es r t') :
        r = .ok () ∧ t' = .absent ∧ (∀ f, ¬ Stored x.keys f es) ∧ reports es = [] ∨
          (∃ e, r = .error e) ∧ Faulty es := by
      rcases runs_clearLedger h with ⟨hr, ht, rfl⟩ | hf
      · exact .inl ⟨hr, ht, by simp [Stored, Event.stores, Event.stored?], rfl⟩
      · exact .inr hf
    have loaded (f : Failure) : ¬ Stored x.keys f es₁ := by
      simp [hes₁, Stored, Event.stores, Event.stored?]
    have looked (es' : List (Event surroundings)) : ¬ Discards x.keys (es₁ ++ es') := by
      rintro ⟨a, ha⟩
      rw [hes₁, List.cons_append, List.find?_cons_of_pos (by simp [Event.touches])] at ha
      cases ha
    have silent : reports es₁ = [] := by rw [hes₁]; rfl
    cases hemp : l.isEmpty with
    | true =>
      simp only [hemp, Bool.not_true, Bool.false_eq_true, if_false] at h₂
      rcases clear h₂ with ⟨hr, ht, hs, hn⟩ | ⟨he, v, hm, hv⟩
      · refine .inl ⟨l, hr, hl, ht, fun f => ?_, looked _, ?_⟩
        · rw [stored_append, not_or]
          exact ⟨loaded f, hs f⟩
        · rw [reports_append, silent, hn, hemp, if_pos rfl]
          rfl
      · exact .inr ⟨he, .inl ⟨v, List.mem_append_right _ hm, hv⟩⟩
    | false =>
      simp only [hemp, Bool.not_false, if_true] at h₂
      obtain ⟨a, t₂, es₃, rfl, he, h₃⟩ := runs_ask_bind h₂
      obtain rfl := idle_ledgered x.keys he rfl
      rcases clear h₃ with ⟨hr, ht, hs, hn⟩ | ⟨he, v, hm, hv⟩
      · refine .inl ⟨l, hr, hl, ht, fun f => ?_, looked _, ?_⟩
        · rw [stored_append, not_or]
          refine ⟨loaded f, ?_⟩
          rw [← List.singleton_append, stored_append, not_or]
          exact ⟨by simp [Stored, Event.stores, Event.stored?], hs f⟩
        · rw [reports_append, silent, hemp, if_neg Bool.false_ne_true, ← List.singleton_append,
            reports_append, hn]
          rfl
      · exact .inr ⟨he, .inl ⟨v, List.mem_append_right _ (List.mem_cons_of_mem _ hm), hv⟩⟩
  · cases he

end ContentIndex
