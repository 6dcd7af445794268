import ContentIndex.Proofs.Indexer.Footprint
import ContentIndex.Proofs.Indexer.StateRecord
import ContentIndex.Proofs.Progress.LedgerRecord

/-
  Operations all of whose calls succeed. A call has succeeded if it was carried out and what was
  loaded can be read (`Event.succeeds`); the answers about single items, what the content store
  makes of an item and what the engine says of a bulk request, may be anything. Every part
  of a rebuild then yields a value, except for its looks whether its run is still the recorded
  one.
-/

namespace ContentIndex

open Program (Succeeds Yields succeeds_pure)

/-- A request was carried out, or has nothing to remove. -/
def Engine.Request.fulfilledBy (r : Engine.Request) :
    Except Engine.TransportError Engine.Response → Bool
  | .ok answer => answer.isSuccess || r.method == .delete && answer.status == 404
  | .error _ => false

/-- The texts under the keys of the records say something. -/
def RecordKeys.readable (keys : RecordKeys) (key : String) (text : Option String) : Bool :=
  (key != keys.state || (IndexState.ofRecord? text).isOk) &&
    (!(Ledger.ledgerKeys keys).contains key || (Ledger.ofRecord? text).isOk)

/-- A call was carried out, and a record that it has loaded can be read. Bulk requests may be
answered in any way. -/
def Event.succeeds (keys : RecordKeys) : Event surroundings → Bool
  | ⟨.store (.get _), .error _⟩ => false
  | ⟨.store (.get key), .ok text⟩ => keys.readable key text
  | ⟨.store (.set _ _), a⟩ => Except.isOk a
  | ⟨.store (.delete _), a⟩ => Except.isOk a
  | ⟨.content (.listIds _), a⟩ => Except.isOk a
  | ⟨.content (.count _), a⟩ => Except.isOk a
  | ⟨.engine r, a⟩ => r.method == .post || r.fulfilledBy a
  | _ => true

theorem exists_ok_of_isOk {ε α : Type} {r : Except ε α} (h : r.isOk = true) : ∃ v, r = .ok v := by
  cases r with
  | error e => cases h
  | ok v => exact ⟨v, rfl⟩

variable {keys : RecordKeys} {α β : Type}

/-- When all its calls succeed, the operation yields a value with a property. -/
def Action.Attains (keys : RecordKeys) (Q : α → Prop) (a : Action α) : Prop :=
  Succeeds (fun e => e.succeeds keys = true) Q a

/-- When all its calls succeed, the operation yields a value. -/
def Action.Reliable (keys : RecordKeys) (a : Action α) : Prop :=
  a.Attains keys fun _ => True

namespace Action

variable {Q : α → Prop} {R : β → Prop}

theorem Attains.bind {a : Action α} {f : α → Action β} (h : a.Attains keys Q)
    (hf : ∀ v, Q v → (f v).Attains keys R) : (a >>= f).Attains keys R :=
  Succeeds.bind h hf

theorem Reliable.bind {a : Action α} {f : α → Action β} (h : a.Reliable keys)
    (hf : ∀ v, (f v).Attains keys R) : (a >>= f).Attains keys R :=
  Succeeds.bind h fun v _ => hf v

theorem reliable_pure (v : α) : (pure v : Action α).Reliable keys :=
  ⟨v, rfl, trivial⟩

theorem attains_ask {c : IndexerCall} {Q : surroundings.Answer c → Prop}
    (h : ∀ r, Event.succeeds keys ⟨c, r⟩ = true → Q r) : (ask c).Attains keys Q :=
  fun r hr => ⟨r, rfl, h r hr⟩

theorem reliable_ask (c : IndexerCall) : (ask c).Reliable keys :=
  attains_ask fun _ _ => trivial

theorem reliable_ofExcept {ε : Type} {wrap : ε → IndexError} {r : Except ε α}
    (h : r.isOk = true) : (ofExcept wrap r).Reliable keys := by
  obtain ⟨v, rfl⟩ := exists_ok_of_isOk h
  exact reliable_pure v

theorem attains_require {holds : Bool} (h : holds = true) (e : IndexError) :
    (require holds e).Reliable keys := by
  rw [h]
  exact reliable_pure ()

/-- What an operation ends with is a value, be it of an error. -/
theorem reliable_result (a : Action α) : a.result.Reliable keys := by
  have any (p : Program surroundings (Except IndexError α)) :
      p.Yields (fun e => e.succeeds keys = true) fun _ => True := by
    induction p with
    | done r => trivial
    | call c next ih => exact fun r _ => ih r
  exact Yields.bind (any a.run) fun r _ => ⟨r, rfl, trivial⟩

theorem reliable_listIds (p : Page) : (listIds p).Reliable keys :=
  (attains_ask (c := .content (.listIds p)) (Q := fun r => Except.isOk r = true)
    fun _ h => h).bind fun _ h => reliable_ofExcept h

theorem reliable_count (scope : Option String) : (count scope).Reliable keys :=
  (attains_ask (c := .content (.count scope)) (Q := fun r => Except.isOk r = true)
    fun _ h => h).bind fun _ h => reliable_ofExcept h

theorem reliable_pause (nanos : Nat) : (pause nanos).Reliable keys := by
  cases nanos with
  | zero => exact reliable_pure ()
  | succ n => exact reliable_ask _

end Action

/-! ## The ledger -/

/-- The same of a call of the store. -/
def Event.succeedsInStore (keys : RecordKeys) (e : Event store) : Prop :=
  Event.succeeds keys ⟨.store e.call, e.answer⟩ = true

theorem yields_run_store {Q : α → Prop} {p : Program store α}
    (h : p.Yields (Event.succeedsInStore keys) Q) :
    (Program.run (I := store) (m := Program surroundings)
      (fun c => .perform (I := surroundings) (.store c)) p).Yields
        (fun e => e.succeeds keys = true) Q := by
  induction p with
  | done a => exact h
  | call c next ih => exact fun r hr => ih r (h r hr)

theorem Action.reliable_stored {a : StoreAction α}
    (h : Succeeds (Event.succeedsInStore keys) (fun _ => True) a) :
    (Action.stored a).Reliable keys := by
  have lifted : Action.Attains keys (fun r => Except.isOk r = true) (ExceptT.lift
      (Program.run (I := store) (fun c => .perform (I := surroundings) (.store c)) a.run)) := by
    refine Yields.bind (yields_run_store h) fun r hr => ?_
    obtain ⟨v, rfl, -⟩ := hr
    exact ⟨.ok v, rfl, rfl⟩
  exact lifted.bind fun r hr => reliable_ofExcept hr

namespace Ledger

theorem succeeds_loadSet {key : String} (hk : key ∈ ledgerKeys keys) :
    Succeeds (Event.succeedsInStore keys) (fun _ => True) (StoreAction.load readIds key) := by
  have get : Succeeds (Event.succeedsInStore keys) (fun text => (ofRecord? text).isOk = true)
      (StoreAction.get key) := by
    intro a ha
    cases a with
    | error e => cases ha
    | ok text =>
      have readable := (Bool.and_eq_true_iff.mp ha).2
      exact ⟨text, rfl, by simpa [hk] using readable⟩
  refine Succeeds.bind get fun text h => ?_
  cases text with
  | none => exact succeeds_pure trivial
  | some text =>
    obtain ⟨v, hv⟩ := exists_ok_of_isOk h
    have decoded : Succeeds (Event.succeedsInStore keys) (fun _ => True)
        (ExceptT.mk (pure (StoreAction.decode readIds text)) : StoreAction IdSet) :=
      ⟨v, hv, trivial⟩
    exact decoded.bind fun v _ => succeeds_pure trivial

theorem succeeds_set (key text : String) :
    Succeeds (Event.succeedsInStore keys) (fun _ => True) (StoreAction.set key text) := by
  intro a ha
  obtain ⟨u, rfl⟩ := exists_ok_of_isOk (r := a) ha
  exact ⟨u, rfl, trivial⟩

theorem succeeds_delete (key : String) :
    Succeeds (Event.succeedsInStore keys) (fun _ => True) (StoreAction.delete key) := by
  intro a ha
  obtain ⟨u, rfl⟩ := exists_ok_of_isOk (r := a) ha
  exact ⟨u, rfl, trivial⟩

theorem reliable_load : (Action.stored (load keys)).Reliable keys :=
  Action.reliable_stored <| (succeeds_loadSet (by simp [ledgerKeys])).bind fun _ _ =>
    (succeeds_loadSet (by simp [ledgerKeys])).bind fun _ _ => succeeds_pure trivial

theorem reliable_clear : (Action.stored (clear keys)).Reliable keys :=
  Action.reliable_stored <| (succeeds_delete _).bind fun _ _ => succeeds_delete _

theorem reliable_record (items : List UInt64) (offset : Option UInt64) :
    (Action.stored (record keys items offset)).Reliable keys := by
  have load : Succeeds (Event.succeedsInStore keys) (fun _ => True) (load keys) :=
    (succeeds_loadSet (by simp [ledgerKeys])).bind fun _ _ =>
      (succeeds_loadSet (by simp [ledgerKeys])).bind fun _ _ => succeeds_pure trivial
  exact Action.reliable_stored <| load.bind fun _ _ =>
    (succeeds_set _ _).bind fun _ _ => succeeds_set _ _

end Ledger

namespace Indexer

open ContentIndex.Action

/-! ## The engine -/

theorem yields_attempts {r : Engine.Request} (hr : r.method ≠ .post) (attempt left : Nat) :
    (attempts r attempt left).Yields (fun e => e.succeeds keys = true)
      fun a => r.fulfilledBy a = true := by
  have fulfilled (a : Except Engine.TransportError Engine.Response)
      (h : Event.succeeds keys ⟨.engine r, a⟩ = true) : r.fulfilledBy a = true := by
    simpa [Event.succeeds, hr] using h
  cases left with
  | zero => exact fulfilled
  | succ left =>
    intro a h
    have answered := fulfilled a h
    cases a with
    | error e => cases answered
    | ok answer => exact answered

/-- A request on a whole index is answered at once. -/
theorem attains_sendRepeatedly {r : Engine.Request} (hr : r.method ≠ .post) :
    (sendRepeatedly r).Attains keys fun answer => r.fulfilledBy (.ok answer) = true := by
  have lifted : Attains keys (fun a => r.fulfilledBy a = true)
      (ExceptT.lift (attempts r 1 2)) :=
    Yields.bind (yields_attempts hr _ _) fun a h => ⟨a, rfl, h⟩
  refine lifted.bind fun a h => ?_
  cases a with
  | error e => cases h
  | ok answer => exact ⟨answer, rfl, h⟩

theorem attains_existsAt (paths : Engine.Paths) :
    (existsAt paths).Attains keys fun found => found = true := by
  have head : (Engine.Request.head paths.index).method ≠ .post := nofun
  refine (attains_sendRepeatedly head).bind fun answer h => ?_
  have accepted : answer.isSuccess = true := by
    simpa [Engine.Request.fulfilledBy, Engine.Request.head] using h
  rw [if_pos accepted]
  exact ⟨true, rfl, rfl⟩

theorem reliable_checked {answer : Engine.Response} (h : answer.isSuccess = true) :
    (checked answer).Reliable keys := by
  unfold checked Engine.Response.checked
  rw [if_pos h]
  exact reliable_pure ()

theorem reliable_deleteIndexAt (paths : Engine.Paths) :
    (deleteIndexAt paths).Reliable keys := by
  have delete : (Engine.Request.delete paths.index).method ≠ .post := nofun
  refine (attains_sendRepeatedly delete).bind fun answer h => ?_
  split
  · exact reliable_pure ()
  · rename_i found
    refine reliable_checked ?_
    simpa [Engine.Request.fulfilledBy, Engine.Request.delete, found] using h

theorem reliable_recreateIndex (x : Indexer) (scope : Option String) :
    (x.recreateIndex scope).Reliable keys := by
  have put : (Engine.Request.put (x.pathsFor scope).index
      (Engine.mapping x.config).render).method ≠ .post := nofun
  refine (reliable_deleteIndexAt _).bind fun _ => (attains_sendRepeatedly put).bind fun answer h => ?_
  exact reliable_checked (by simpa [Engine.Request.fulfilledBy, Engine.Request.put] using h)

theorem reliable_resume (x : Indexer) (c : Cursor) : (x.resume c).Reliable keys :=
  (attains_existsAt _).bind fun _ h => attains_require h _

/-! ## The state record -/

theorem reliable_saveState (x : Indexer) (s : IndexState) : (x.saveState s).Reliable keys := by
  rw [Reliable, Attains, Succeeds, saveState_run]
  intro a ha
  obtain ⟨u, rfl⟩ := exists_ok_of_isOk (r := a) ha
  exact ⟨u, rfl, trivial⟩

theorem reliable_startRebuild (x : Indexer) (scopes : List String) :
    (x.startRebuild scopes).Reliable x.keys := by
  refine (reliable_recreateIndex x _).bind fun _ => Ledger.reliable_clear.bind fun _ => ?_
  refine (reliable_count _).bind fun total => (reliable_ask .newRun).bind fun run => ?_
  refine (reliable_ask .now).bind fun now => ?_
  exact (reliable_saveState x _).bind fun _ => reliable_pure _

/-! ## Bulk writes -/

theorem reliable_flushFrom (x : Indexer) (paths : Engine.Paths) (offset : Option UInt64)
    (attempt : Nat) (pending : List Bulk.Entry) (left : Nat) :
    (x.flushFrom paths offset attempt pending left).Reliable x.keys := by
  have record (items : List UInt64) : (x.recordFailures items offset).Reliable x.keys :=
    Ledger.reliable_record items offset
  induction left generalizing attempt pending with
  | zero =>
    unfold flushFrom
    refine (reliable_pause _).bind fun _ => (reliable_result _).bind fun a => ?_
    cases a with
    | error e => exact (record _).bind fun _ => reliable_pure _
    | ok rejected =>
      simp only
      split
      · exact reliable_pure _
      · exact (record _).bind fun _ => reliable_pure _
  | succ left ih =>
    unfold flushFrom
    refine (reliable_pause _).bind fun _ => (reliable_result _).bind fun a => ?_
    cases a with
    | error e => exact (record _).bind fun _ => reliable_pure _
    | ok rejected =>
      simp only
      split
      · exact reliable_pure _
      · exact (reliable_ask _).bind fun _ => ih _ _

theorem reliable_flushBatch (x : Indexer) (paths : Engine.Paths) (offset : Option UInt64)
    (b : Bulk.Batch) (o : BulkOutcome) : (x.flushBatch paths offset b o).Reliable x.keys := by
  refine Reliable.bind ?_ fun o' => reliable_pure _
  refine (reliable_flushFrom x paths offset 1 _ _).bind fun r => ?_
  exact (reliable_ask _).bind fun _ => (reliable_ask _).bind fun _ => reliable_pure _

theorem reliable_addItem (x : Indexer) (paths : Engine.Paths) (offset : Option UInt64)
    (s : Bulk.Batch × BulkOutcome) (id : UInt64) :
    (x.addItem paths offset s id).Reliable x.keys := by
  obtain ⟨b, o⟩ := s
  refine (reliable_ask _).bind fun a => ?_
  cases a with
  | error e =>
    exact (Ledger.reliable_record _ _).bind fun _ => (reliable_ask _).bind fun _ => reliable_pure _
  | ok d =>
    cases d with
    | none => exact reliable_pure _
    | some d =>
      simp only
      split
      · exact reliable_pure _
      · split
        · exact reliable_flushBatch x paths offset _ o
        · exact reliable_pure _

theorem reliable_addItems (x : Indexer) (paths : Engine.Paths) (offset : Option UInt64)
    (ids : List UInt64) (s : Bulk.Batch × BulkOutcome) :
    (ids.foldlM (x.addItem paths offset) s).Reliable x.keys := by
  induction ids generalizing s with
  | nil => exact reliable_pure s
  | cons id ids ih =>
    rw [List.foldlM_cons]
    exact (reliable_addItem x paths offset s id).bind ih

/-- A bulk write yields a count of its items, whatever is said of them. -/
theorem reliable_bulkInto (x : Indexer) (paths : Engine.Paths) (offset : Option UInt64)
    (ids : List UInt64) : (x.bulkInto paths offset ids).Reliable x.keys := by
  refine (reliable_addItems x paths offset ids _).bind fun s => ?_
  obtain ⟨b, o⟩ := s
  simp only
  split
  · exact (reliable_ask _).bind fun _ => reliable_pure _
  · exact (reliable_flushBatch x paths offset b o).bind fun s =>
      (reliable_ask _).bind fun _ => reliable_pure _

theorem reliable_reportFailures (x : Indexer) (c : Cursor) :
    (x.reportFailures c).Reliable x.keys := by
  refine Ledger.reliable_load.bind fun l => ?_
  split
  · exact (reliable_ask _).bind fun _ => Ledger.reliable_clear
  · exact Ledger.reliable_clear

end Indexer
end ContentIndex
