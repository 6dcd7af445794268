import ContentIndex.Proofs.Ledger.Failures
import ContentIndex.Sync.Session

/-
  Which operations lose failures. Where no store call fails, a part of an operation that is in
  `Custody` of the ledger hands every failure on: what the ledger held, and what was stored, is in
  the ledger afterwards or was reported. Recording failures and reporting them are such parts, and
  so are all parts but one: the start of a rebuild removes the ledger without a look at it
  (`deals_startRebuild`). It happens only if the state record names no rebuild that is running
  (`found_of_discards`).
-/

namespace ContentIndex

open ContentIndex.Action
open Ledger (Records ofRecords?)
open Program (runs_bind_except runs_bind_iff runs_done_iff)

/-- What was in the ledger, or was stored, is still there or was reported. -/
structure Handed (keys : RecordKeys) (l : Ledger) (es : List (Event surroundings)) (l' : Ledger) :
    Prop where
  kept : ∀ f, f ∈ l ∨ Stored keys f es → f ∈ l' ∨ Reported f es
  known : ∀ f ∈ l', f ∈ l ∨ Stored keys f es

namespace Handed

variable {keys : RecordKeys} {l l₁ l' : Ledger} {es es' : List (Event surroundings)}

theorem refl (h : Untouched keys es) (l : Ledger) : Handed keys l es l :=
  ⟨fun f hf => .inl (hf.resolve_right (h.stored f)), fun _ hf => .inl hf⟩

theorem trans (h : Handed keys l es l₁) (h' : Handed keys l₁ es' l') :
    Handed keys l (es ++ es') l' := by
  refine ⟨fun f hf => ?_, fun f hf => ?_⟩
  · rw [stored_append, ← or_assoc] at hf
    rw [reported_append]
    have later (hf : f ∈ l₁ ∨ Stored keys f es') : f ∈ l' ∨ Reported f es ∨ Reported f es' :=
      (h'.kept f hf).imp_right .inr
    rcases hf with hf | hf
    · rcases h.kept f hf with hf | hf
      · exact later (.inl hf)
      · exact .inr (.inl hf)
    · exact later (.inr hf)
  · rw [stored_append, ← or_assoc]
    exact (h'.known f hf).imp_left (h.known f)

end Handed

variable {σ α β : Type} {keys : RecordKeys}

/-- Where no store call fails, the operation hands all failures on, and looks at the ledger before
it removes it. -/
def Custody (keys : RecordKeys) (a : Action α) : Prop :=
  ∀ ⦃t l es r t'⦄, Program.Runs (ledgered keys) a.run t es r t' → ¬ Faulty es →
    ofRecords? t = .ok l →
    ∃ l', ofRecords? t' = .ok l' ∧ ¬ Discards keys es ∧ Handed keys l es l'

theorem Faulty.left {es : List (Event surroundings)} (es' : List (Event surroundings))
    (h : Faulty es) : Faulty (es ++ es') := by
  obtain ⟨e, he, hf⟩ := h
  exact ⟨e, List.mem_append_left _ he, hf⟩

theorem Faulty.right (es : List (Event surroundings)) {es' : List (Event surroundings)}
    (h : Faulty es') : Faulty (es ++ es') := by
  obtain ⟨e, he, hf⟩ := h
  exact ⟨e, List.mem_append_right _ he, hf⟩

/-! ## Rules -/

theorem custody_elsewhere {a : Action α} (ha : a.Calls (Elsewhere keys)) : Custody keys a := by
  intro t l es r t' h _ hl
  obtain ⟨rfl, hes⟩ := runs_elsewhere ha h
  exact ⟨l, hl, hes.not_discards, .refl hes l⟩

theorem custody_pure (v : α) : Custody keys (pure v) :=
  custody_elsewhere (calls_pure v)

theorem Custody.bind {a : Action α} {f : α → Action β} (ha : Custody keys a)
    (hf : ∀ v, Custody keys (f v)) : Custody keys (a >>= f) := by
  intro t l es r t' h calm hl
  rcases runs_bind_except.mp h with ⟨e, h₁, -⟩ | ⟨v, t₁, es₁, es₂, rfl, h₁, h₂⟩
  · exact ha h₁ calm hl
  obtain ⟨l₁, hl₁, hd₁, H₁⟩ := ha h₁ (fun hf => calm (hf.left _)) hl
  obtain ⟨l', hl', hd₂, H₂⟩ := hf v h₂ (fun hf => calm (hf.right _)) hl₁
  refine ⟨l', hl', fun hd => ?_, H₁.trans H₂⟩
  exact (discards_append hd).elim hd₁ fun hd => hd₂ hd.2

theorem Custody.foldlM {f : β → α → Action β} (hf : ∀ b a, Custody keys (f b a)) (b : β)
    (as : List α) : Custody keys (as.foldlM f b) := by
  induction as generalizing b with
  | nil => exact custody_pure b
  | cons a as ih =>
    rw [List.foldlM_cons]
    exact (hf b a).bind ih

/-- An operation whose error counts as a value hands on what it hands on. -/
theorem Custody.result {a : Action α} (ha : Custody keys a) : Custody keys a.result := by
  intro t l es r t' h calm hl
  obtain ⟨v, t₁, es₁, es₂, rfl, h₁, h₂⟩ := runs_bind_iff.mp h
  obtain ⟨rfl, -, rfl⟩ := runs_done_iff.mp h₂
  rw [List.append_nil] at calm ⊢
  exact ha h₁ calm hl

/-! ## Calls on the ledger -/

/-- Failures that are recorded are in the ledger, with those that were there. -/
theorem custody_recordFailures (x : Indexer) (items : List UInt64) (offset : Option UInt64) :
    Custody x.keys (x.recordFailures items offset) := by
  intro t l es r t' h calm hl
  rcases x.runs_recordFailures h with ⟨-, rfl, -, -⟩ | ⟨-, hf | ⟨e, he⟩⟩
  · obtain ⟨l₁, hl₁, rfl, hs, hd, -⟩ := x.runs_recordFailures_ok h
    rw [hl] at hl₁
    cases hl₁
    refine ⟨_, Ledger.ofRecords?_records _, hd, fun f hf => .inl ?_,
      fun f hf => .inr ((hs f).mpr hf)⟩
    exact hf.elim (fun hf => Ledger.mem_add.mpr (.inl hf)) (hs f).mp
  · exact absurd hf calm
  · rw [hl] at he
    cases he

/-- The failures of a scope are reported before they are removed. -/
theorem custody_reportFailures (x : Indexer) (c : Cursor) :
    Custody x.keys (x.reportFailures c) := by
  intro t l es r t' h calm hl
  rcases x.runs_reportFailures h with ⟨l₁, -, hl₁, rfl, hs, hd, hr⟩ | ⟨-, hf | ⟨e, he⟩⟩
  · rw [hl] at hl₁
    cases hl₁
    refine ⟨{}, rfl, hd, fun f hf => .inr ?_, fun f hf => absurd hf (Ledger.not_mem_blank f)⟩
    have hf := hf.resolve_right (hs f)
    rw [if_neg fun hemp => Ledger.isEmpty_iff.mp hemp f hf] at hr
    exact ⟨_, by rw [hr]; exact List.mem_singleton_self _, FailureReport.mem_report.mpr hf⟩
  · exact absurd hf calm
  · rw [hl] at he
    cases he

/-! ## Parts elsewhere -/

namespace Indexer

variable (x : Indexer)

theorem elsewhere_get : Elsewhere x.keys (.store (.get x.keys.state)) :=
  x.state_notMem_ledgerKeys

theorem elsewhere_set (text : String) : Elsewhere x.keys (.store (.set x.keys.state text)) :=
  x.state_notMem_ledgerKeys

theorem elsewhere_loadState : x.loadState.Calls (Elsewhere x.keys) :=
  calls_loadState x x.elsewhere_get

theorem elsewhere_requireRun (run : RunId) : (x.requireRun run).Calls (Elsewhere x.keys) :=
  calls_requireRun x x.elsewhere_get run

theorem elsewhere_saveState (s : IndexState) : (x.saveState s).Calls (Elsewhere x.keys) :=
  calls_saveState x (x.elsewhere_set _)

theorem elsewhere_persist (c : Cursor) : (x.persist c).Calls (Elsewhere x.keys) :=
  calls_persist x x.elsewhere_get (x.elsewhere_set _)

theorem elsewhere_recreateIndex (scope : Option String) :
    (x.recreateIndex scope).Calls (Elsewhere x.keys) :=
  calls_recreateIndex_of (fun _ => trivial) (fun _ _ => trivial) x scope

theorem elsewhere_resume (c : Cursor) : (x.resume c).Calls (Elsewhere x.keys) :=
  calls_resume_of (fun _ => trivial) (fun _ _ => trivial) x c

theorem elsewhere_submit (paths : Engine.Paths) (entries : List Bulk.Entry) :
    (x.submit paths entries).Calls (Elsewhere x.keys) :=
  calls_submit x paths entries trivial (fun _ => trivial) trivial

/-! ## Writing items -/

theorem custody_measure (m : Measurement) : Custody x.keys (measure m) :=
  custody_elsewhere (calls_ask trivial)

theorem custody_flushFrom (paths : Engine.Paths) (offset : Option UInt64) (attempt : Nat)
    (pending : List Bulk.Entry) (left : Nat) :
    Custody x.keys (x.flushFrom paths offset attempt pending left) := by
  induction left generalizing attempt pending with
  | zero =>
    unfold flushFrom
    refine (custody_elsewhere (calls_pause trivial)).bind fun _ =>
      (custody_elsewhere (x.elsewhere_submit paths pending)).result.bind fun a => ?_
    cases a with
    | error e => exact (custody_recordFailures x _ _).bind fun _ => custody_pure _
    | ok rejected =>
      simp only
      split
      · exact custody_pure _
      · exact (custody_recordFailures x _ _).bind fun _ => custody_pure _
  | succ left ih =>
    unfold flushFrom
    refine (custody_elsewhere (calls_pause trivial)).bind fun _ =>
      (custody_elsewhere (x.elsewhere_submit paths pending)).result.bind fun a => ?_
    cases a with
    | error e => exact (custody_recordFailures x _ _).bind fun _ => custody_pure _
    | ok rejected =>
      simp only
      split
      · exact custody_pure _
      · exact (x.custody_measure _).bind fun _ => ih _ _

theorem custody_flushBatch (paths : Engine.Paths) (offset : Option UInt64) (b : Bulk.Batch)
    (o : BulkOutcome) : Custody x.keys (x.flushBatch paths offset b o) := by
  refine Custody.bind ?_ fun o' => custody_pure _
  exact (x.custody_flushFrom paths offset 1 _ _).bind fun _ =>
    (x.custody_measure _).bind fun _ => (x.custody_measure _).bind fun _ => custody_pure _

theorem custody_addItem (paths : Engine.Paths) (offset : Option UInt64)
    (state : Bulk.Batch × BulkOutcome) (id : UInt64) :
    Custody x.keys (x.addItem paths offset state id) := by
  obtain ⟨b, o⟩ := state
  refine (custody_elsewhere (calls_prepare trivial)).bind fun a => ?_
  cases a with
  | error e =>
    exact (custody_recordFailures x [id] offset).bind fun _ =>
      (x.custody_measure _).bind fun _ => custody_pure _
  | ok d =>
    cases d with
    | none => exact custody_pure _
    | some d =>
      simp only
      split
      · exact custody_pure _
      · split
        · exact x.custody_flushBatch paths offset _ o
        · exact custody_pure _

theorem custody_bulkInto (paths : Engine.Paths) (offset : Option UInt64) (ids : List UInt64) :
    Custody x.keys (x.bulkInto paths offset ids) := by
  refine (Custody.foldlM (x.custody_addItem paths offset) _ ids).bind fun s => ?_
  simp only
  split
  · exact (custody_pure _).bind fun _ => (x.custody_measure _).bind fun _ => custody_pure _
  · exact (x.custody_flushBatch paths offset _ _).bind fun _ =>
      (x.custody_measure _).bind fun _ => custody_pure _

theorem custody_deleteOne (id : UInt64) : Custody x.keys (x.deleteOne id) :=
  (custody_elsewhere (calls_send trivial)).bind fun _ => custody_pure _

theorem custody_removeAll (ids : List UInt64) : Custody x.keys (Sync.removeAll x ids) := by
  refine Custody.foldlM (fun n id => ?_) _ ids
  refine (x.custody_deleteOne id).bind fun removed => ?_
  cases removed <;> exact custody_pure _

theorem custody_finish (q : Sync.Queue) : Custody x.keys (Sync.finish x q) := by
  refine (x.custody_measure _).bind fun _ => ?_
  have removals (indexed : Except IndexError BulkOutcome) : Custody x.keys (do
      let n ← Sync.removeAll x q.drain.2.drainRemovals.1
      ofExcept id (indexed.map fun o => (⟨o, n.1, n.2⟩ : Sync.Report))) :=
    (x.custody_removeAll _).bind fun n => custody_elsewhere (calls_ofExcept _ _)
  simp only
  split
  · exact (custody_pure _).bind removals
  · exact (x.custody_bulkInto x.paths none _).result.bind removals

/-! ## Rebuilding -/

theorem custody_completeScope (c : Cursor) : Custody x.keys (x.completeScope c) := by
  refine (custody_reportFailures x c).bind fun _ => ?_
  split
  · exact (custody_elsewhere (calls_count trivial)).bind fun total =>
      (custody_elsewhere (x.elsewhere_recreateIndex _)).bind fun _ =>
        (custody_elsewhere (x.elsewhere_persist _)).bind fun _ => custody_pure _
  · have clock : Custody x.keys (ask .now) := custody_elsewhere (calls_ask trivial)
    exact (custody_elsewhere (x.elsewhere_requireRun _)).bind fun _ => clock.bind fun now =>
      (custody_elsewhere (x.elsewhere_saveState _)).bind fun _ => custody_pure _

theorem custody_advance (c : Cursor) : Custody x.keys (x.advance c) := by
  refine (custody_elsewhere (calls_listIds trivial)).bind fun ids => ?_
  split
  · exact x.custody_completeScope c
  · have release : Custody x.keys releaseCaches := custody_elsewhere (calls_ask trivial)
    exact (x.custody_bulkInto _ _ _).bind fun o => release.bind fun _ =>
      (x.custody_measure _).bind fun _ => (x.custody_measure _).bind fun _ =>
        (custody_elsewhere (x.elsewhere_persist _)).bind fun _ => custody_pure _

theorem custody_continueRebuild (run : RunId) : Custody x.keys (x.continueRebuild run) := by
  refine (custody_elsewhere x.elsewhere_loadState).bind fun s => ?_
  split
  · exact (custody_elsewhere (calls_require _ _)).bind fun _ => x.custody_advance _
  · exact custody_elsewhere (gives_throw _)

theorem custody_rebuildFrom (limit : Nat) (step : RebuildStep) :
    Custody x.keys (x.rebuildFrom limit step) := by
  induction limit generalizing step with
  | zero => cases step <;> exact custody_pure _
  | succ limit ih =>
    cases step with
    | completed s => exact custody_pure _
    | progress c => exact (x.custody_continueRebuild c.run).bind ih

end Indexer

/-! ## The start of a rebuild -/

/-- What an operation makes of the ledger: it hands all failures on, or it first removes those that
there are. -/
def Dealt (keys : RecordKeys) (l : Ledger) (es : List (Event surroundings)) (l' : Ledger) : Prop :=
  ¬ Discards keys es ∧ Handed keys l es l' ∨ Discards keys es ∧ Handed keys {} es l'

/-- Where no store call fails, the operation hands all failures on but those that it removes
unseen at its beginning. -/
def Deals (keys : RecordKeys) (a : Action α) : Prop :=
  ∀ ⦃t l es r t'⦄, Program.Runs (ledgered keys) a.run t es r t' → ¬ Faulty es →
    ofRecords? t = .ok l → ∃ l', ofRecords? t' = .ok l' ∧ Dealt keys l es l'

theorem Custody.deals {a : Action α} (ha : Custody keys a) : Deals keys a := by
  intro t l es r t' h calm hl
  obtain ⟨l', hl', H⟩ := ha h calm hl
  exact ⟨l', hl', .inl H⟩

theorem Deals.bind {a : Action α} {f : α → Action β} (ha : Deals keys a)
    (hf : ∀ v, Custody keys (f v)) : Deals keys (a >>= f) := by
  intro t l es r t' h calm hl
  rcases runs_bind_except.mp h with ⟨e, h₁, -⟩ | ⟨v, t₁, es₁, es₂, rfl, h₁, h₂⟩
  · exact ha h₁ calm hl
  obtain ⟨l₁, hl₁, H₁⟩ := ha h₁ (fun hf => calm (hf.left _)) hl
  obtain ⟨l', hl', hd₂, H₂⟩ := hf v h₂ (fun hf => calm (hf.right _)) hl₁
  refine ⟨l', hl', H₁.imp ?_ ?_⟩
  · rintro ⟨hd₁, H₁⟩
    exact ⟨fun hd => (discards_append hd).elim hd₁ fun hd => hd₂ hd.2, H₁.trans H₂⟩
  · rintro ⟨hd₁, H₁⟩
    exact ⟨hd₁.append, H₁.trans H₂⟩

/-- What happens elsewhere before makes no difference. -/
theorem Deals.after {a : Action α} {f : α → Action β} (ha : a.Calls (Elsewhere keys))
    (hf : ∀ v, Deals keys (f v)) : Deals keys (a >>= f) := by
  intro t l es r t' h calm hl
  rcases runs_bind_except.mp h with ⟨e, h₁, -⟩ | ⟨v, t₁, es₁, es₂, rfl, h₁, h₂⟩
  · exact (custody_elsewhere ha).deals h₁ calm hl
  obtain ⟨rfl, hes⟩ := runs_elsewhere ha h₁
  obtain ⟨l', hl', H⟩ := hf v h₂ (fun hf => calm (hf.right _)) hl
  refine ⟨l', hl', H.imp ?_ ?_⟩
  · rintro ⟨hd, H⟩
    exact ⟨fun hd' => (discards_append hd').elim hes.not_discards fun hd' => hd hd'.2,
      (Handed.refl hes l).trans H⟩
  · rintro ⟨hd, H⟩
    exact ⟨hes.discards hd, (Handed.refl hes {}).trans H⟩

theorem deals_clear : Deals keys (stored (Ledger.clear keys)) := by
  intro t l es r t' h calm _
  rcases runs_clearLedger h with ⟨-, rfl, rfl⟩ | ⟨-, hf⟩
  · refine ⟨{}, rfl, .inr ⟨⟨.ok (), by simp [Event.touches]⟩, fun f hf => ?_, fun f hf => ?_⟩⟩
    · simp [Stored, Event.stores, Event.stored?] at hf
    · exact absurd hf (Ledger.not_mem_blank f)
  · exact absurd hf calm

namespace Indexer

variable (x : Indexer)

/-- The start of a rebuild removes the ledger, whether or not the rebuild begins then. -/
theorem deals_startRebuild (scopes : List String) : Deals x.keys (x.startRebuild scopes) := by
  refine Deals.after (x.elsewhere_recreateIndex _) fun _ => deals_clear.bind fun _ => ?_
  exact custody_elsewhere <| (calls_count trivial).bind fun total =>
    (calls_ask trivial).bind fun run => (calls_ask trivial).bind fun now =>
      (x.elsewhere_saveState _).bind fun _ => calls_pure _

theorem deals_rebuildStep (scopes : List String) : Deals x.keys (x.rebuildStep scopes) := by
  refine Deals.after x.elsewhere_loadState fun s => ?_
  split
  · exact ((custody_elsewhere (x.elsewhere_resume _)).bind fun _ => x.custody_advance _).deals
  · exact (x.deals_startRebuild scopes).bind fun c => x.custody_advance c

theorem deals_rebuild (limit : Nat) (scopes : List String) :
    Deals x.keys (x.rebuild limit scopes) :=
  (x.deals_rebuildStep scopes).bind fun step => x.custody_rebuildFrom limit step

/-- A step that removes the ledger unseen has found no rebuild that is running. -/
theorem found_of_discards {scopes : List String} {t t' : Records} {l : Ledger}
    {es : List (Event surroundings)} {r : Except IndexError RebuildStep}
    (h : Program.Runs (ledgered x.keys) (x.rebuildStep scopes).run t es r t') (calm : ¬ Faulty es)
    (hl : ofRecords? t = .ok l) (hd : Discards x.keys es) : Found x.keys es none := by
  have looked (a : Except StoreError (Option String)) :
      Untouched x.keys [⟨.store (.get x.keys.state), a⟩] :=
    untouched_of_elsewhere fun e he => List.mem_singleton.mp he ▸ x.elsewhere_get
  rcases runs_loadState_bind h with ⟨-, a, rfl⟩ | ⟨text, rest, s, t₁, rfl, hs, he, h₁⟩
  · exact absurd hd (looked a).not_discards
  cases hc : s.cursor? with
  | none => exact ⟨text, rest, s, rfl, hs, hc⟩
  | some c =>
    simp only [hc] at h₁
    obtain rfl := ledgered_get he
    have goes_on : Custody x.keys (x.resume c >>= fun _ => x.advance c) :=
      (custody_elsewhere (x.elsewhere_resume c)).bind fun _ => x.custody_advance c
    obtain ⟨l', -, hn, -⟩ := goes_on h₁ (fun hf => calm (hf.right [_])) hl
    rw [← List.singleton_append] at hd
    exact (discards_append hd).elim (absurd · (looked _).not_discards) (absurd ·.2 hn)

end Indexer
end ContentIndex
