import ContentIndex.Proofs.Ledger.PageFailures
import ContentIndex.Proofs.Rebuild.Step

/-
  What a step of a rebuild makes of the ledger (`Worked`). From a cursor it adds what the page has
  noted, or it ends the scope: then it reports the ledger, if there is anything in it, and leaves
  it empty. A whole step does that from the cursor that it has found in the state record, or else
  from the first cursor of a new rebuild, which begins with an empty ledger
  (`runs_started_worked`).
-/

namespace ContentIndex

open ContentIndex.Action
open Ledger (Records ofRecords?)
open Program (runs_bind_ok runs_call_iff runs_done_iff)

/-! ## One step -/

/-- The rebuild that a result belongs to. -/
def RebuildStep.run : RebuildStep → RunId
  | .progress c => c.run
  | .completed s => s.run

/-- What a step from a cursor makes of the ledger, with the work and the reports that it shows. -/
inductive Worked (x : Indexer) (c : Cursor) (t : Records) (es : List (Event surroundings)) :
    RebuildStep → Records → Prop
  | page {c' : Cursor} {t' : Records} (w : PageWork x) :
      w.scope = c.scope → w.offset = c.offset →
      ⟨.content (.listIds (x.nextPage c)), .ok (w.fetched.map (·.id))⟩ ∈ es →
      w.Shown es → reports es = [] →
      (∀ l, ofRecords? t = .ok l →
        ∃ l', ofRecords? t' = .ok l' ∧ ∀ f, f ∈ l' ↔ f ∈ l ∨ w.Notes f) →
      c'.scopes = c.scopes → c'.scope = c.scope → c'.run = c.run →
      Worked x c t es (.progress c') t'
  | scope {r : RebuildStep} (l : Ledger) :
      ⟨.content (.listIds (x.nextPage c)), .ok []⟩ ∈ es →
      fetches es = [] → ofRecords? t = .ok l →
      (reports es = if l.isEmpty then [] else [l.report c.scope (some c.run)]) →
      r.run = c.run → (∀ c', r = .progress c' → c'.scopes ≠ c.scopes) →
      Worked x c t es r .absent

namespace Indexer

variable {x : Indexer} {c : Cursor} {t t' : Records} {es : List (Event surroundings)}
  {r : RebuildStep}

theorem outside_get : Outside x.keys (.store (.get x.keys.state)) :=
  x.state_notMem_ledgerKeys

theorem outside_saveState (s : IndexState) : (x.saveState s).Calls (Outside x.keys) :=
  calls_saveState x (x.state_notMem_ledgerKeys : Outside x.keys (.store (.set _ _)))

theorem outside_requireRun (run : RunId) : (x.requireRun run).Calls (Outside x.keys) :=
  calls_requireRun x outside_get run

theorem outside_persist (c : Cursor) : (x.persist c).Calls (Outside x.keys) :=
  (outside_requireRun c.run).bind fun _ => outside_saveState _

theorem outside_recreateIndex (scope : Option String) :
    (x.recreateIndex scope).Calls (Outside x.keys) := by
  refine calls_recreateIndex_of (fun _ => trivial) (fun r hr hp => ?_) x scope
  rw [Engine.Request.remakes, hp] at hr
  cases hr

theorem outside_resume (c : Cursor) : (x.resume c).Calls (Outside x.keys) := by
  refine calls_resume_of (fun _ => trivial) (fun r hr hp => ?_) x c
  rw [hp] at hr
  cases hr

/-- A report takes calls on the ledger and of the host. -/
theorem no_traffic_reportFailures {v : Except IndexError Unit}
    (h : Program.Runs (ledgered x.keys) (x.reportFailures c).run t es v t') : fetches es = [] := by
  refine fetches_eq_nil fun e he => ?_
  have hc := (Program.Always.of_runs (calls_reportFailures x c) h).1 e he
  obtain ⟨c, a⟩ := e
  cases c with
  | content c =>
    cases c with
    | prepare id => exact hc.elim
    | _ => rfl
  | _ => rfl

/-- At the end of a scope the ledger is reported, and empty then. -/
theorem runs_completeScope_worked (es₀ : List (Event surroundings)) (h₀ : Unworked es₀)
    (hl₀ : ⟨.content (.listIds (x.nextPage c)), .ok []⟩ ∈ es₀)
    (h : Program.Runs (ledgered x.keys) (x.completeScope c).run t es (.ok r) t') :
    Worked x c t (es₀ ++ es) r t' := by
  obtain ⟨u, t₁, es₁, es₂, rfl, h₁, h₂⟩ := runs_bind_ok h
  rcases runs_reportFailures h₁ with ⟨l, -, hl, rfl, -, -, hr⟩ | ⟨⟨e, he⟩, -⟩
  swap
  · cases he
  have close {r : RebuildStep} {t' : Records} (hes : Unworked es₂) (ht : t' = .absent)
      (hrun : r.run = c.run) (hs : ∀ c', r = .progress c' → c'.scopes ≠ c.scopes) :
      Worked x c t (es₀ ++ (es₁ ++ es₂)) r t' := by
    rw [ht]
    refine .scope l (List.mem_append_left _ hl₀) ?_ hl ?_ hrun hs
    · rw [fetches_append, fetches_append, h₀.fetches, no_traffic_reportFailures h₁, hes.fetches]
      rfl
    · rw [reports_append, reports_append, h₀.reports, hes.reports, hr, List.append_nil,
        List.nil_append]
  cases hs : c.scopes[1]? with
  | some s =>
    simp only [hs] at h₂
    have rest : Gives (Outside x.keys) (fun r => ∃ total, r = .progress (c.nextScope total)) (do
        let c := c.nextScope (← Action.count (some s))
        x.recreateIndex (some s)
        x.persist c
        pure (RebuildStep.progress c)) :=
      (calls_count trivial).bind fun total => (outside_recreateIndex _).bind fun _ =>
        (outside_persist _).bind fun _ => gives_pure ⟨total, rfl⟩
    obtain ⟨ht, hes, total, rfl⟩ := runs_outside rest h₂
    refine close hes ht rfl fun c' hc' he => ?_
    -- The scopes that are left have become fewer.
    cases hc'
    have longer : 1 < c.scopes.length := (List.getElem?_eq_some_iff.mp hs).1
    have hlen := congrArg List.length he
    simp only [Cursor.nextScope, List.length_tail] at hlen
    omega
  | none =>
    simp only [hs] at h₂
    have rest : Gives (Outside x.keys) (fun r => r = .completed ⟨c.run, c.synced, c.failed⟩) (do
        x.requireRun c.run
        x.saveState (.completed (← Action.ask .now) c.synced)
        pure (RebuildStep.completed ⟨c.run, c.synced, c.failed⟩)) :=
      (outside_requireRun _).bind fun _ => (calls_ask trivial).bind fun now =>
        (outside_saveState _).bind fun _ => gives_pure rfl
    obtain ⟨ht, hes, rfl⟩ := runs_outside rest h₂
    exact close hes ht rfl fun c' hc' => by cases hc'

/-- A step from a cursor lists a page and does the work on it, or ends the scope. -/
theorem runs_advance_worked
    (h : Program.Runs (ledgered x.keys) (x.advance c).run t es (.ok r) t') :
    Worked x c t es r t' := by
  obtain ⟨ids, t₁, es₁, es₂, rfl, h₁, h₂⟩ := runs_bind_ok h
  obtain ⟨a, t₂, es₃, rfl, he, h₃⟩ := runs_call_iff.mp h₁
  obtain ⟨rfl, hv, rfl⟩ := runs_done_iff.mp h₃
  obtain rfl := idle_ledgered x.keys he rfl
  have unworked (v : Except ContentError (List UInt64)) :
      Unworked [⟨.content (.listIds (x.nextPage c)), v⟩] :=
    @unworked_of_outside x.keys _ fun e he => by
      rw [List.mem_singleton.mp he]
      trivial
  cases a with
  | error e => cases hv
  | ok l =>
    cases hv
    cases ids with
    | nil => exact runs_completeScope_worked _ (unworked _) (List.mem_singleton_self _) h₂
    | cons id ids =>
      simp only [List.isEmpty_cons, Bool.false_eq_true, if_false] at h₂
      obtain ⟨o, t₃, es₄, es₅, rfl, h₄, h₅⟩ := runs_bind_ok h₂
      obtain ⟨w, hw, ho, hids, hs, hr, hm⟩ := runs_bulkInto_notes h₄
      have release : releaseCaches.Calls (Outside x.keys) := calls_ask trivial
      have close (c' : Cursor) : Gives (Outside x.keys) (fun r => r = .progress c') (do
          releaseCaches
          measure (.rebuildOffset c'.offset)
          measure (.rebuildSynced c'.synced)
          x.persist c'
          pure (RebuildStep.progress c')) :=
        release.bind fun _ => (calls_ask trivial).bind fun _ =>
          (calls_ask trivial).bind fun _ => (outside_persist _).bind fun _ => gives_pure rfl
      obtain ⟨rfl, hes, rfl⟩ := runs_outside (close _) h₅
      refine .page w hw ho ?_ ?_ ?_ hm rfl rfl rfl
      · rw [hids]
        exact List.mem_append_left _ (List.mem_singleton_self _)
      · rw [← List.append_assoc]
        exact (unworked _).shown hes hs
      · rw [reports_append, reports_append, hr, hes.reports]
        rfl

end Indexer

namespace Worked

variable {x : Indexer} {c : Cursor} {t t' : Records} {es : List (Event surroundings)}
  {r : RebuildStep}

theorem run (h : Worked x c t es r t') : r.run = c.run := by
  cases h with
  | page w hw ho hl hs hr hm h₁ h₂ h₃ => exact h₃
  | scope l hl hf ho hr h₁ h₂ => exact h₁

/-- Only the position counts. -/
theorem congr {c' : Cursor} (h : Worked x c t es r t') (hs : c'.scope = c.scope)
    (ho : c'.offset = c.offset) (hss : c'.scopes = c.scopes) (hr : c'.run = c.run) :
    Worked x c' t es r t' := by
  have page : x.nextPage c' = x.nextPage c := by
    unfold Indexer.nextPage
    rw [hs, ho]
  cases h with
  | page w h₁ h₂ h₃ h₄ h₅ h₆ h₇ h₈ h₉ =>
    exact .page w (h₁.trans hs.symm) (h₂.trans ho.symm) (page ▸ h₃) h₄ h₅ h₆ (h₇.trans hss.symm)
      (h₈.trans hs.symm) (h₉.trans hr.symm)
  | scope l h₁ h₂ h₃ h₄ h₅ h₆ =>
    refine .scope l (page ▸ h₁) h₂ h₃ ?_ (h₅.trans hr.symm) fun c'' hc => hss ▸ h₆ c'' hc
    rw [h₄, hs, hr]

/-- Events without work may come before. -/
theorem prepend {before : List (Event surroundings)} (h : Worked x c t es r t')
    (hb : Unworked before) : Worked x c t (before ++ es) r t' := by
  cases h with
  | page w hw ho hl hs hr hm h₁ h₂ h₃ =>
    refine .page w hw ho (List.mem_append_right _ hl) ?_ ?_ hm h₁ h₂ h₃
    · have shown := hb.shown .nil hs
      rwa [List.append_nil] at shown
    · rw [reports_append, hb.reports, hr]
      rfl
  | scope l hl hf ho hr h₁ h₂ =>
    refine .scope l (List.mem_append_right _ hl) ?_ ho ?_ h₁ h₂
    · rw [fetches_append, hb.fetches, hf]
      rfl
    · rw [reports_append, hb.reports, hr]
      rfl

end Worked

/-! ## Whole steps -/

namespace Indexer

variable {x : Indexer} {c : Cursor} {t t' : Records} {es : List (Event surroundings)}
  {r : RebuildStep} {scopes : List String}

/-- A step goes on from what it has found in the state record. -/
theorem runs_found {c? : Option Cursor} {f : IndexState → Action RebuildStep}
    (hc : Found x.keys es c?)
    (h : Program.Runs (ledgered x.keys) (x.loadState >>= f).run t es (.ok r) t') :
    ∃ look rest s, es = look ++ rest ∧ Unworked look ∧ s.cursor? = c? ∧
      Program.Runs (ledgered x.keys) (f s).run t rest (.ok r) t' := by
  obtain ⟨text, rest, s, rfl, hs, hc⟩ := hc
  rcases runs_loadState_bind h with ⟨⟨e, he⟩, -⟩ | ⟨text', rest', s', t₁, hes, hs', he, h₁⟩
  · cases he
  cases hes
  rw [hs] at hs'
  cases hs'
  obtain rfl := ledgered_get he
  refine ⟨[_], rest, s, rfl, @unworked_of_outside x.keys _ fun e he => ?_, hc, h₁⟩
  rw [List.mem_singleton.mp he]
  exact outside_get

/-- A step that takes up a rebuild works from the cursor in the state record. -/
theorem runs_resumed_worked (hc : Found x.keys es (some c))
    (h : Program.Runs (ledgered x.keys) (x.rebuildStep scopes).run t es (.ok r) t') :
    Worked x c t es r t' := by
  obtain ⟨look, rest, s, rfl, hes, hs, h₁⟩ := runs_found hc h
  simp only [hs] at h₁
  obtain ⟨-, es₁, es₂, rfl, hes₁, h₂⟩ := runs_outside_bind (outside_resume c) h₁
  exact ((runs_advance_worked h₂).prepend hes₁).prepend hes

/-- So does one more step. -/
theorem runs_continued_worked {run : RunId} (hc : Found x.keys es (some c))
    (h : Program.Runs (ledgered x.keys) (x.continueRebuild run).run t es (.ok r) t') :
    Worked x c t es r t' := by
  obtain ⟨look, rest, s, rfl, hes, hs, h₁⟩ := runs_found hc h
  simp only [hs] at h₁
  obtain ⟨-, es₁, es₂, rfl, hes₁, h₂⟩ := runs_outside_bind (calls_require _ _) h₁
  exact ((runs_advance_worked h₂).prepend hes₁).prepend hes

/-- The first step of a rebuild works from its first cursor, with an empty ledger. -/
theorem runs_started_worked (hc : Found x.keys es none)
    (h : Program.Runs (ledgered x.keys) (x.rebuildStep scopes).run t es (.ok r) t') :
    ∃ now total, Worked x (.start r.run now scopes total) .absent es r t' := by
  obtain ⟨look, rest, s, rfl, hes, hs, h₁⟩ := runs_found hc h
  simp only [hs, startRebuild, bind_assoc, pure_bind] at h₁
  obtain ⟨-, es₁, es₂, rfl, hes₁, h₂⟩ := runs_outside_bind (outside_recreateIndex _) h₁
  obtain ⟨u, t₁, es₃, es₄, rfl, h₃, h₄⟩ := runs_bind_ok h₂
  rcases runs_clearLedger h₃ with ⟨-, rfl, rfl⟩ | ⟨⟨e, he⟩, -⟩
  swap
  · cases he
  have cleared : Unworked [⟨.store (.delete x.keys.failedItems), .ok ()⟩,
      ⟨.store (.delete x.keys.failedOffsets), .ok ()⟩] := ⟨rfl, rfl, rfl⟩
  obtain ⟨total, es₅, es₆, rfl, hes₅, h₅⟩ := runs_outside_bind (calls_count trivial) h₄
  obtain ⟨run, es₇, es₈, rfl, hes₇, h₆⟩ := runs_outside_bind (calls_ask (c := .newRun) trivial) h₅
  obtain ⟨now, es₉, es₁₀, rfl, hes₉, h₇⟩ := runs_outside_bind (calls_ask (c := .now) trivial) h₆
  obtain ⟨-, es₁₁, es₁₂, rfl, hes₁₁, h₈⟩ := runs_outside_bind (outside_saveState _) h₇
  have work := ((((runs_advance_worked h₈).prepend hes₁₁).prepend hes₉).prepend hes₇).prepend hes₅
  obtain rfl : r.run = run := work.run
  exact ⟨now, total, ((work.prepend cleared).prepend hes₁).prepend hes⟩

end Indexer

end ContentIndex
