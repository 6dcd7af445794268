import ContentIndex.Indexer.Rebuild
import ContentIndex.Proofs.Indexer.Calls

/-
  What the parts of a rebuild leave alone. An `Apart` call does not touch the state record; a call
  that is `Aside` also lists no page, prepares no item and counts none as skipped. All that a
  rebuild does is aside, except for its reads and writes of the state record, its listings and
  the items of its pages. Work on one index `Sends` requests of one kind only, and beside them
  makes no calls but those on the ledger, pauses and measurements.
-/

namespace ContentIndex

open ContentIndex.Action

/-- The state record is apart from the ledger. -/
theorem RecordKeys.state_notMem_ledgerKeys (lead : String) :
    (withLead lead).state ∉ Ledger.ledgerKeys (withLead lead) := by
  simp [Ledger.ledgerKeys, withLead]

/-- A call that neither reads nor writes the state record. -/
def Apart (keys : RecordKeys) : IndexerCall → Prop
  | .store c => c.On (Ledger.ledgerKeys keys)
  | _ => True

/-- A call that is apart from the state record and no step from item to item. -/
def Aside (keys : RecordKeys) : IndexerCall → Prop
  | .store c => c.On (Ledger.ledgerKeys keys)
  | .content (.listIds _) | .content (.prepare _) | .measure (.skipped _) => False
  | _ => True

/-- A request that removes an index or makes it. -/
def Engine.Request.remakes (r : Engine.Request) : Bool :=
  r.method == .delete || r.method == .put

/-- A request of some kind, or a call on the ledger, a pause or a measurement beside it. -/
def Sends (keys : RecordKeys) (kind : Engine.Request → Prop) : IndexerCall → Prop
  | .store c => c.On (Ledger.ledgerKeys keys)
  | .engine r => kind r
  | .wait _ => True
  | .measure (.skipped _) => False
  | .measure _ => True
  | _ => False

theorem Aside.apart {keys : RecordKeys} {c : IndexerCall} (h : Aside keys c) : Apart keys c := by
  cases c with
  | store c => exact h
  | _ => trivial

theorem Sends.aside {keys : RecordKeys} {kind : Engine.Request → Prop} {c : IndexerCall}
    (h : Sends keys kind c) : Aside keys c := by
  cases c with
  | store c => exact h
  | content c => exact h.elim
  | measure m =>
    cases m with
    | skipped n => exact h
    | _ => trivial
  | _ => trivial

/-- Writing items: each is asked for, and sent with others. -/
def Fills (keys : RecordKeys) : IndexerCall → Prop
  | .content (.prepare _) => True
  | .measure _ => True
  | c => Sends keys (·.method = .post) c

theorem Sends.fills {keys : RecordKeys} {c : IndexerCall} (h : Sends keys (·.method = .post) c) :
    Fills keys c := by
  cases c with
  | measure m => trivial
  | content c => exact h.elim
  | _ => exact h

theorem Fills.apart {keys : RecordKeys} {c : IndexerCall} (h : Fills keys c) : Apart keys c := by
  cases c with
  | store c => exact h
  | _ => trivial

theorem Action.Gives.apart {α : Type} {keys : RecordKeys} {Q : α → Prop} {a : Action α}
    (h : a.Gives (Aside keys) Q) : a.Gives (Apart keys) Q :=
  h.mono (fun _ => Aside.apart) fun _ => id

theorem Action.Gives.fills {α : Type} {keys : RecordKeys} {Q : α → Prop} {a : Action α}
    (h : a.Gives (Sends keys (·.method = .post)) Q) : a.Gives (Fills keys) Q :=
  h.mono (fun _ => Sends.fills) fun _ => id

theorem Action.Gives.aside {α : Type} {keys : RecordKeys} {kind : Engine.Request → Prop}
    {Q : α → Prop} {a : Action α} (h : a.Gives (Sends keys kind) Q) : a.Gives (Aside keys) Q :=
  h.mono (fun _ => Sends.aside) fun _ => id

namespace Indexer

variable {keys : RecordKeys} {kind : Engine.Request → Prop}

/-! ## The ledger and the engine -/

theorem sends_recordFailures (x : Indexer) (items : List UInt64) (offset : Option UInt64) :
    (x.recordFailures items offset).Calls (Sends x.keys kind) :=
  calls_stored (Ledger.always_record items offset) fun _ => id

/-- A request on an index from some attempt on, with the pauses in between. -/
abbrev attempts (r : Engine.Request) (attempt left : Nat) :
    Program surroundings (Except Engine.TransportError Engine.Response) :=
  retryFrom (fun n => .perform (I := surroundings) (.wait (RetryPolicy.admin.delayFor n)))
    (.perform (I := surroundings) (.engine r)) attempt left

/-- Attempts are requests and pauses. -/
theorem always_attempts {P : IndexerCall → Prop} {r : Engine.Request} (hr : P (.engine r))
    (hw : ∀ n, P (.wait n)) (attempt left : Nat) :
    (attempts r attempt left).Always P fun _ => True := by
  induction left generalizing attempt with
  | zero => exact ⟨hr, fun _ => trivial⟩
  | succ left ih =>
    refine ⟨hr, fun a => ?_⟩
    cases a with
    | ok a => trivial
    | error e => exact ⟨hw _, fun _ => ih (attempt + 1)⟩

theorem sendRepeatedly_bind_run {α : Type} (r : Engine.Request)
    (f : Engine.Response → Action α) :
    (sendRepeatedly r >>= f).run =
      attempts r 1 2 >>= fun a => (ofExcept .transport a >>= f).run := by
  rw [sendRepeatedly, bind_assoc, ExceptT.run_bind_lift]
  rfl

theorem calls_sendRepeatedly {P : IndexerCall → Prop} {r : Engine.Request} (hr : P (.engine r))
    (hw : ∀ n, P (.wait n)) : (sendRepeatedly r).Calls P := by
  have lifted : Calls P (ExceptT.lift (attempts r 1 2)) :=
    Program.Always.bind (always_attempts hr hw _ _) fun _ _ _ _ => trivial
  exact lifted.bind fun a => calls_ofExcept _ a

theorem calls_checked {S : IndexerCall → Prop} (r : Engine.Response) : (checked r).Calls S :=
  (calls_ofExcept _ _).bind fun _ => calls_pure ()

section

variable {P : IndexerCall → Prop} (hw : ∀ n, P (.wait n))

include hw

theorem calls_existsAt (hr : ∀ r : Engine.Request, r.method = .head → P (.engine r))
    (paths : Engine.Paths) : (existsAt paths).Calls P := by
  refine (calls_sendRepeatedly (hr _ rfl) hw).bind fun r => ?_
  split
  · exact calls_pure _
  split
  · exact calls_pure _
  · exact gives_throw _

theorem calls_recreateIndex_of (hr : ∀ r : Engine.Request, r.remakes = true → P (.engine r))
    (x : Indexer) (scope : Option String) : (x.recreateIndex scope).Calls P := by
  have remove (paths : Engine.Paths) : (deleteIndexAt paths).Calls P := by
    refine (calls_sendRepeatedly (hr _ rfl) hw).bind fun r => ?_
    split
    · exact calls_pure _
    · exact calls_checked r
  refine (remove _).bind fun _ => ?_
  exact (calls_sendRepeatedly (hr _ rfl) hw).bind fun r => calls_checked r

theorem calls_resume_of (hr : ∀ r : Engine.Request, r.method = .head → P (.engine r))
    (x : Indexer) (c : Cursor) : (x.resume c).Calls P :=
  (calls_existsAt hw hr _).bind fun _ => calls_require _ _

end

theorem sends_recreateIndex (x : Indexer) (scope : Option String) :
    (x.recreateIndex scope).Calls (Sends keys (·.remakes = true)) :=
  calls_recreateIndex_of (fun _ => trivial) (fun _ h => h) x scope

theorem calls_recreateIndex (x : Indexer) (scope : Option String) :
    (x.recreateIndex scope).Calls (Aside keys) :=
  (sends_recreateIndex x scope).aside

theorem sends_resume (x : Indexer) (c : Cursor) :
    (x.resume c).Calls (Sends keys (·.method = .head)) :=
  calls_resume_of (fun _ => trivial) (fun _ h => h) x c

theorem calls_resume (x : Indexer) (c : Cursor) : (x.resume c).Calls (Aside keys) :=
  (sends_resume x c).aside

/-- The failures of a scope are reported by calls on the ledger and one of the host. -/
theorem calls_reportFailures_of {P : IndexerCall → Prop} (x : Indexer) (c : Cursor)
    (hs : ∀ c, c.On (Ledger.ledgerKeys x.keys) → P (.store c)) (hn : ∀ r, P (.notify r)) :
    (x.reportFailures c).Calls P := by
  refine (calls_stored Ledger.always_loadLedger hs).bind fun l => ?_
  have clear : (stored (Ledger.clear x.keys)).Calls P := calls_stored Ledger.always_clear hs
  split
  · exact (calls_ask (hn _)).bind fun _ => clear
  · exact clear

theorem calls_reportFailures (x : Indexer) (c : Cursor) :
    (x.reportFailures c).Calls (Aside x.keys) :=
  calls_reportFailures_of x c (fun _ => id) fun _ => trivial

/-! ## Bulk requests -/

theorem calls_submit {P : IndexerCall → Prop} (x : Indexer) (paths : Engine.Paths)
    (entries : List Bulk.Entry) (hr : P (.engine (x.bulkRequest paths entries)))
    (hb : ∀ n, P (.measure (.bulkBytes n))) (ht : P (.measure (.timed "bulk"))) :
    (x.submit paths entries).Calls P :=
  (calls_ask (hb _)).bind fun _ => (calls_send hr).bind fun _ =>
    (calls_ask ht).bind fun _ => calls_ofExcept _ _

theorem sends_submit (x : Indexer) (paths : Engine.Paths) (entries : List Bulk.Entry) :
    (x.submit paths entries).Calls (Sends keys (·.method = .post)) :=
  calls_submit x paths entries rfl (fun _ => trivial) trivial

/-- What is left of the entries in the end is a part of them, in their order. -/
theorem gives_flushFrom (x : Indexer) (paths : Engine.Paths) (offset : Option UInt64)
    (attempt : Nat) (pending : List Bulk.Entry) (left : Nat) :
    (x.flushFrom paths offset attempt pending left).Gives (Sends x.keys (·.method = .post))
      fun r => r.1.Sublist pending := by
  induction left generalizing attempt pending with
  | zero =>
    unfold flushFrom
    refine (calls_pause trivial).bind fun _ => (sends_submit x paths pending).result.bind fun a => ?_
    cases a with
    | error e => exact (sends_recordFailures x _ _).bind fun _ => gives_pure (List.Sublist.refl _)
    | ok rejected =>
      simp only
      split
      · exact gives_pure List.filter_sublist
      · exact (sends_recordFailures x _ _).bind fun _ => gives_pure List.filter_sublist
  | succ left ih =>
    unfold flushFrom
    refine (calls_pause trivial).bind fun _ => (sends_submit x paths pending).result.bind fun a => ?_
    cases a with
    | error e => exact (sends_recordFailures x _ _).bind fun _ => gives_pure (List.Sublist.refl _)
    | ok rejected =>
      simp only
      split
      · exact gives_pure List.filter_sublist
      · refine (calls_ask trivial).bind fun _ => (ih _ _).mono (fun _ => id) fun r hr => ?_
        exact hr.trans List.filter_sublist

/-- Every entry of a batch is counted once, as indexed or as failed. -/
theorem gives_flush (x : Indexer) (paths : Engine.Paths) (offset : Option UInt64)
    (entries : List Bulk.Entry) :
    (x.flush paths offset entries).Gives (Sends x.keys (·.method = .post)) fun o =>
      o.indexed + o.failed = entries.length ∧ o.skipped = 0 := by
  refine (gives_flushFrom x paths offset 1 entries _).bind fun r hr => ?_
  have hle := hr.length_le
  refine (calls_ask trivial).bind fun _ => (calls_ask trivial).bind fun _ => gives_pure ?_
  exact ⟨by simp only; omega, rfl⟩

end Indexer
end ContentIndex
