import ContentIndex.Proofs.Ledger.StepWork
import ContentIndex.Proofs.Rebuild.Drive

/-
  The report at the end of a scope is exact. The start of a rebuild leaves an empty ledger, each
  page adds what its work notes, and the end of a scope reports the ledger and leaves it empty
  again. So at the end of a scope the ledger holds what the pages of this scope have noted, and
  nothing else (`scope_report_exact`). The invariant of the induction over the pages (`Holds`) is
  that the members of the ledger are the failures that the pages so far have noted. A whole
  rebuild with which nobody interferes is a run of that kind (`freshRun_of_rebuild`).
-/

namespace ContentIndex

open Ledger (Records ofRecords?)
open Program (runs_bind_ok)

/-! ## Runs of a rebuild -/

/-- A step of a rebuild: the cursor that it works from, and what it has led to. -/
structure Turn where
  cursor : Cursor
  events : List (Event surroundings)
  result : RebuildStep
  /-- The records of the ledger afterwards. -/
  ledger : Records

/-- The rebuild goes on with fewer scopes, or is complete. -/
def Turn.EndsScope (τ : Turn) : Prop :=
  match τ.result with
  | .progress c => c.scopes ≠ τ.cursor.scopes
  | .completed _ => True

/-- Steps one after another. Each begins with the ledger that the one before has left, and has
found the cursor in the state record that the one before has reached. -/
inductive GoesOn (x : Indexer) : RebuildStep → Records → List Turn → Prop
  | nil (r : RebuildStep) (t : Records) : GoesOn x r t []
  | step {t : Records} {τ : Turn} {τs : List Turn} (scopes : List String) :
      Found x.keys τ.events (some τ.cursor) →
      Program.Runs (ledgered x.keys) (x.rebuildStep scopes).run t τ.events (.ok τ.result) τ.ledger →
      GoesOn x τ.result τ.ledger τs → GoesOn x (.progress τ.cursor) t (τ :: τs)
  | more {t : Records} {τ : Turn} {τs : List Turn} :
      Found x.keys τ.events (some τ.cursor) →
      Program.Runs (ledgered x.keys) (x.continueRebuild τ.cursor.run).run t τ.events
        (.ok τ.result) τ.ledger →
      GoesOn x τ.result τ.ledger τs → GoesOn x (.progress τ.cursor) t (τ :: τs)

/-- A rebuild that begins anew: the first step has found no rebuild in the state record. Nobody
else writes the ledger; all answers but those about the ledger are arbitrary. -/
structure FreshRun (x : Indexer) (scopes : List String) (t : Records) (τ : Turn)
    (τs : List Turn) : Prop where
  fresh : Found x.keys τ.events none
  begins : ∃ now total, τ.cursor = .start τ.result.run now scopes total
  runs : Program.Runs (ledgered x.keys) (x.rebuildStep scopes).run t τ.events (.ok τ.result)
    τ.ledger
  rest : GoesOn x τ.result τ.ledger τs

/-- The steps of a run with what they make of the ledger. -/
inductive Chain (x : Indexer) : RebuildStep → Records → List Turn → Prop
  | nil (r : RebuildStep) (t : Records) : Chain x r t []
  | cons {t : Records} {τ : Turn} {τs : List Turn} :
      Worked x τ.cursor t τ.events τ.result τ.ledger → Chain x τ.result τ.ledger τs →
      Chain x (.progress τ.cursor) t (τ :: τs)

variable {x : Indexer}

theorem GoesOn.chain {r : RebuildStep} {t : Records} {τs : List Turn} (h : GoesOn x r t τs) :
    Chain x r t τs := by
  induction h with
  | nil r t => exact .nil r t
  | step scopes hf hr _ ih => exact .cons (Indexer.runs_resumed_worked hf hr) ih
  | more hf hr _ ih => exact .cons (Indexer.runs_continued_worked hf hr) ih

/-- A run begins with an empty ledger. -/
theorem FreshRun.chain {scopes : List String} {t : Records} {τ : Turn} {τs : List Turn}
    (h : FreshRun x scopes t τ τs) : Chain x (.progress τ.cursor) .absent (τ :: τs) := by
  obtain ⟨now, total, hτ⟩ := h.begins
  obtain ⟨now', total', hw⟩ := Indexer.runs_started_worked h.fresh h.runs
  refine .cons (hw.congr ?_ ?_ ?_ ?_) h.rest.chain <;> rw [hτ] <;> rfl

/-! ## Scopes -/

/-- The work on a page is what a step has done. -/
structure Turn.Writes (σ : Turn) (w : PageWork x) : Prop where
  scope : w.scope = σ.cursor.scope
  offset : w.offset = σ.cursor.offset
  listed : ⟨.content (.listIds (x.nextPage σ.cursor)), .ok (w.fetched.map (·.id))⟩ ∈ σ.events
  shown : w.Shown σ.events

/-- The ledger holds what pages have noted, and nothing else. -/
def Ledger.Holds (l : Ledger) (ws : List (PageWork x)) : Prop :=
  ∀ f : Failure, f ∈ l ↔ ∃ w ∈ ws, w.Notes f

namespace Turn

variable {τ : Turn} {t : Records}

/-- A step that ends its scope has reported the ledger, and left it empty. -/
theorem ends (h : Worked x τ.cursor t τ.events τ.result τ.ledger) (he : τ.EndsScope) :
    τ.ledger = .absent ∧ ⟨.content (.listIds (x.nextPage τ.cursor)), .ok []⟩ ∈ τ.events ∧
      fetches τ.events = [] ∧ ∃ l, ofRecords? t = .ok l ∧
        reports τ.events =
          if l.isEmpty then [] else [l.report τ.cursor.scope (some τ.cursor.run)] := by
  obtain ⟨c, es, r, t'⟩ := τ
  cases h with
  | page w hw ho hl hs hr hm h₁ h₂ h₃ => exact absurd h₁ he
  | scope l hl hf ho hr h₁ h₂ => exact ⟨rfl, hl, hf, l, ho, hr⟩

/-- Any other step has done the work on a page, and reported nothing. -/
theorem writes (h : Worked x τ.cursor t τ.events τ.result τ.ledger) (hn : ¬ τ.EndsScope) :
    ∃ (w : PageWork x) (c' : Cursor), τ.result = .progress c' ∧ c'.scope = τ.cursor.scope ∧
      τ.Writes w ∧ reports τ.events = [] ∧ ∀ l, ofRecords? t = .ok l →
        ∃ l', ofRecords? τ.ledger = .ok l' ∧ ∀ f, f ∈ l' ↔ f ∈ l ∨ w.Notes f := by
  obtain ⟨c, es, r, t'⟩ := τ
  cases h with
  | page w hw ho hl hs hr hm h₁ h₂ h₃ => exact ⟨w, _, rfl, h₂, ⟨hw, ho, hl, hs⟩, hr, hm⟩
  | scope l hl hf ho hr h₁ h₂ =>
    cases r with
    | progress c' => exact absurd (h₂ c' rfl) hn
    | completed s => exact absurd True.intro hn

end Turn

namespace Ledger.Holds

variable {l l' : Ledger} {ws : List (PageWork x)} {w : PageWork x}

theorem blank : Holds (x := x) {} [] := fun f => by simp

theorem add (h : l.Holds ws) (hl : ∀ f, f ∈ l' ↔ f ∈ l ∨ w.Notes f) : l'.Holds (ws ++ [w]) := by
  intro f
  rw [hl, h f]
  simp only [List.mem_append, List.mem_singleton, or_and_right, exists_or, exists_eq_left]

/-- It is empty if no page has failures. -/
theorem isEmpty_iff (h : l.Holds ws) : l.isEmpty = true ↔ ∀ w ∈ ws, w.failed = [] := by
  rw [Ledger.isEmpty_iff]
  constructor
  · intro hn w hw
    by_contra hf
    exact hn (.page w.offset) ((h _).mpr ⟨w, hw, rfl, hf⟩)
  · intro hn f hf
    obtain ⟨w, hw, hf⟩ := (h f).mp hf
    exact w.not_notes (hn w hw) f hf

end Ledger.Holds

namespace Chain

variable {r : RebuildStep} {c : Cursor} {t : Records} {l : Ledger} {ws : List (PageWork x)}
  {before pages after τs : List Turn} {τ : Turn}

/-- All steps belong to one rebuild. -/
theorem run (h : Chain x r t τs) : ∀ σ ∈ τs, σ.cursor.run = r.run := by
  induction h with
  | nil r t => exact fun σ hσ => by cases hσ
  | cons hw _ ih =>
    intro σ hσ
    rcases List.mem_cons.mp hσ with rfl | hσ
    · rfl
    · exact (ih σ hσ).trans hw.run

/-- Where a scope ends, the ledger is empty. -/
theorem emptied (h : Chain x r t (before ++ τs)) (he : ∀ σ ∈ before.getLast?, σ.EndsScope) :
    ∃ r' t', Chain x r' t' τs ∧ (before = [] ∧ t' = t ∨ t' = .absent) := by
  induction before generalizing r t with
  | nil => exact ⟨r, t, h, .inl ⟨rfl, rfl⟩⟩
  | cons σ before ih =>
    cases h with
    | cons hw hrest =>
      cases before with
      | nil => exact ⟨_, _, hrest, .inr (Turn.ends hw (he σ rfl)).1⟩
      | cons σ' before =>
        obtain ⟨r', t', hc, ⟨hb, -⟩ | ht⟩ := ih hrest he
        · cases hb
        · exact ⟨r', t', hc, .inr ht⟩

/-- Over the pages of a scope the ledger holds what they have noted. -/
theorem holds_pages (h : Chain x (.progress c) t (pages ++ τ :: after))
    (hn : ∀ σ ∈ pages, ¬ σ.EndsScope) (hl : ofRecords? t = .ok l) (H : l.Holds ws) :
    ∃ (ws' : List (PageWork x)) (t₁ : Records) (l₁ : Ledger), List.Forall₂ Turn.Writes pages ws' ∧
      (∀ σ ∈ pages, σ.cursor.scope = c.scope ∧ reports σ.events = []) ∧
      τ.cursor.scope = c.scope ∧ Worked x τ.cursor t₁ τ.events τ.result τ.ledger ∧
      ofRecords? t₁ = .ok l₁ ∧ l₁.Holds (ws ++ ws') := by
  induction pages generalizing c t l ws with
  | nil =>
    cases h with
    | cons hw _ =>
      refine ⟨[], t, l, .nil, fun σ hσ => ?_, rfl, hw, hl, ?_⟩
      · cases hσ
      · rwa [List.append_nil]
  | cons σ pages ih =>
    cases h with
    | cons hw hrest =>
      obtain ⟨w, c', hr, hc, hσ, silent, hm⟩ := Turn.writes hw (hn σ List.mem_cons_self)
      obtain ⟨l', hl', hm⟩ := hm l hl
      rw [hr] at hrest
      obtain ⟨ws', t₁, l₁, hp, hs, hτ, hw₁, hl₁, H₁⟩ :=
        ih hrest (fun σ' hσ' => hn σ' (List.mem_cons_of_mem σ hσ')) hl' (H.add hm)
      refine ⟨w :: ws', t₁, l₁, .cons hσ hp, ?_, hτ.trans hc, hw₁, hl₁, ?_⟩
      · intro σ' hσ'
        rcases List.mem_cons.mp hσ' with rfl | hσ'
        · exact ⟨rfl, silent⟩
        · exact ⟨(hs σ' hσ').1.trans hc, (hs σ' hσ').2⟩
      · rwa [List.append_assoc] at H₁

end Chain

/-! ## Reports -/

/-- A report names its scope and its rebuild, and what the pages of the scope have noted. -/
structure FailureReport.Exact (r : FailureReport) (scope : Option String) (run : RunId)
    (ws : List (PageWork x)) : Prop where
  of_scope : r.scope = scope
  of_run : r.run = some run
  items_ascend : r.items.Pairwise (· < ·)
  items_iff : ∀ id, id ∈ r.items ↔ ∃ w ∈ ws, id ∈ w.broken ∨ id ∈ w.rejected
  offsets_ascend : r.offsets.Pairwise (· < ·)
  offsets_iff : ∀ o, o ∈ r.offsets ↔ ∃ w ∈ ws, w.offset = o ∧ w.failed ≠ []

theorem Ledger.Holds.exact {l : Ledger} {ws : List (PageWork x)} (h : l.Holds ws)
    (scope : Option String) (run : RunId) : (l.report scope (some run)).Exact scope run ws :=
  ⟨rfl, rfl, l.items.sorted, fun id => h (.item id), l.offsets.sorted, fun o => h (.page o)⟩

/-- The end of a scope of a rebuild, with the steps that have written its pages. -/
structure ScopeEnd (run : RunId) (pages : List Turn) (τ : Turn) (ws : List (PageWork x)) :
    Prop where
  writes : List.Forall₂ Turn.Writes pages ws
  same_scope : ∀ σ ∈ pages, σ.cursor.scope = τ.cursor.scope
  no_more : ⟨.content (.listIds (x.nextPage τ.cursor)), .ok []⟩ ∈ τ.events
  no_work : fetches τ.events = []
  silent : ∀ σ ∈ pages, reports σ.events = []
  unreported : (∀ w ∈ ws, w.failed = []) → reports τ.events = []
  reported : (∃ w ∈ ws, w.failed ≠ []) →
    ∃ r, reports τ.events = [r] ∧ r.Exact τ.cursor.scope run ws
  emptied : ofRecords? τ.ledger = .ok {}

/-- At the end of every scope the failures of its pages are reported, if there are any; the report
is exact, and the next scope begins with an empty ledger. -/
theorem scope_report_exact {scopes : List String} {t : Records} {first τ : Turn}
    {rest before pages after : List Turn} (h : FreshRun x scopes t first rest)
    (parts : first :: rest = before ++ pages ++ τ :: after)
    (begins : ∀ σ ∈ before.getLast?, σ.EndsScope) (written : ∀ σ ∈ pages, ¬ σ.EndsScope)
    (ends : τ.EndsScope) : ∃ ws : List (PageWork x), ScopeEnd first.cursor.run pages τ ws := by
  have chain := h.chain
  rw [parts] at chain
  have run : τ.cursor.run = first.cursor.run :=
    chain.run τ (List.mem_append_right _ List.mem_cons_self)
  rw [List.append_assoc] at chain
  obtain ⟨r, t₁, chain, ht⟩ := chain.emptied begins
  obtain rfl : t₁ = .absent := ht.elim And.right id
  obtain ⟨c, rfl⟩ : ∃ c, r = .progress c := by
    cases pages <;> cases chain <;> exact ⟨_, rfl⟩
  obtain ⟨ws, t₂, l, hp, hs, hτ, hw, hl, H⟩ := chain.holds_pages written rfl Ledger.Holds.blank
  obtain ⟨ht, listed, unworked, l', hl', hr⟩ := Turn.ends hw ends
  rw [hl] at hl'
  cases hl'
  rw [List.nil_append] at H
  rw [run] at hr
  refine ⟨ws, hp, fun σ hσ => (hs σ hσ).1.trans hτ.symm, listed, unworked,
    fun σ hσ => (hs σ hσ).2, fun hn => ?_, fun ⟨w, hw, hf⟩ => ?_, ht ▸ rfl⟩
  · rw [hr, if_pos (H.isEmpty_iff.mpr hn)]
  · refine ⟨_, ?_, H.exact τ.cursor.scope first.cursor.run⟩
    rw [hr, if_neg fun hn => hf (H.isEmpty_iff.mp hn w hw)]

/-! ## In a world -/

namespace World

/-- A world after a step of a rebuild. -/
def step (w : World Unit) (scopes : List String) : World Unit :=
  (w.perform accepting (plain.rebuildStep scopes)).2

/-- The step, from a cursor to a result. -/
def turn (w : World Unit) (scopes : List String) (c : Cursor) (r : RebuildStep) : Turn where
  cursor := c
  events := w.events accepting (plain.rebuildStep scopes)
  result := r
  ledger := (w.step scopes).failureRecords plain.keys

variable {w : World Unit} {scopes : List String} {c : Cursor} {r : RebuildStep} {τs : List Turn}

theorem turn_runs (h : (w.perform accepting (plain.rebuildStep scopes)).1 = .ok r) :
    Program.Runs (ledgered plain.keys) (plain.rebuildStep scopes).run
      (w.failureRecords plain.keys) (w.turn scopes c r).events (.ok (w.turn scopes c r).result)
      (w.turn scopes c r).ledger := by
  have run := @perform_runs_ledgered _ accepting plain.keys _ (plain.rebuildStep scopes) w
    fun _ _ => rfl
  rwa [h] at run

theorem turn_found (h : (w.perform accepting (plain.rebuildStep scopes)).1 = .ok r) :
    ∃ s, IndexState.ofRecord? (w.record plain.keys.state) = .ok s ∧
      Found plain.keys (w.turn scopes c r).events s.cursor? := by
  have run := perform_runs plain (plain.rebuildStep scopes) w (accepting_record _)
  rw [h] at run
  exact Indexer.found_of_runs run

theorem step_saves {c' : Cursor}
    (h : (w.perform accepting (plain.rebuildStep scopes)).1 = .ok (.progress c')) :
    (w.step scopes).record plain.keys.state = some (IndexState.running c').text := by
  have run := perform_runs plain (plain.rebuildStep scopes) w (accepting_record _)
  rw [h] at run
  exact Indexer.runs_rebuildStep_saves run

theorem freshRun_turn (h : (w.perform accepting (plain.rebuildStep scopes)).1 = .ok r)
    (hn : IndexState.NoRun (w.record plain.keys.state))
    (hc : ∃ now total, c = .start r.run now scopes total)
    (hr : GoesOn plain r ((w.step scopes).failureRecords plain.keys) τs) :
    FreshRun plain scopes (w.failureRecords plain.keys) (w.turn scopes c r) τs := by
  obtain ⟨s, hs, hf⟩ := turn_found (c := c) h
  exact ⟨hn s hs ▸ hf, hc, turn_runs h, hr⟩

theorem goesOn_turn (h : (w.perform accepting (plain.rebuildStep scopes)).1 = .ok r)
    (hs : w.record plain.keys.state = some (IndexState.running c).text)
    (hr : GoesOn plain r ((w.step scopes).failureRecords plain.keys) τs) :
    GoesOn plain (.progress c) (w.failureRecords plain.keys) (w.turn scopes c r :: τs) := by
  obtain ⟨s, hs', hf⟩ := turn_found (c := c) h
  rw [hs] at hs'
  obtain rfl := IndexState.eq_of_ofRecord?_text hs'
  exact @GoesOn.step plain _ (w.turn scopes c r) _ scopes hf (turn_runs h) hr

/-- A world with a scope of one item, which cannot be prepared. -/
def brokenPage : World Unit :=
  { engine := (), catalogue := ({ broken := IdSet.ofList [5] } : Catalogue).setScope "a" [5] }

/-- The cursor before the page. -/
def beforePage : Cursor := .start (runId 0) Calendar.Moment.epoch ["a"] 1

/-- The cursor behind the page. -/
def afterPage : Cursor := beforePage.advance 350 0 1

end World

open World in
/-- The broken item is reported with its page. -/
theorem scope_report_broken_page :
    ∃ ws : List (PageWork plain),
      ScopeEnd (runId 0) [brokenPage.turn ["a"] beforePage (.progress afterPage)]
        ((brokenPage.step ["a"]).turn ["a"] afterPage (.completed ⟨runId 0, 0, 1⟩)) ws ∧
      reports ((brokenPage.step ["a"]).events accepting (plain.rebuildStep ["a"])) =
        [⟨some "a", some (runId 0), [5], [0]⟩] := by
  have seen : (brokenPage.perform accepting (plain.rebuildStep ["a"])).1 =
        .ok (.progress afterPage) ∧
      ((brokenPage.step ["a"]).perform accepting (plain.rebuildStep ["a"])).1 =
        .ok (.completed ⟨runId 0, 0, 1⟩) ∧
      reports ((brokenPage.step ["a"]).events accepting (plain.rebuildStep ["a"])) =
        [⟨some "a", some (runId 0), [5], [0]⟩] := by
    decide +kernel
  obtain ⟨page, last, told⟩ := seen
  have fresh := freshRun_turn (c := beforePage) page (fun s hs => by cases hs; rfl) ⟨_, _, rfl⟩
    (goesOn_turn last (step_saves page) (.nil _ _))
  obtain ⟨ws, hws⟩ := scope_report_exact (x := plain) fresh
    (rfl : _ = [] ++ [brokenPage.turn ["a"] beforePage (.progress afterPage)] ++ _ :: [])
    (fun σ hσ => by cases hσ) (fun σ hσ => List.mem_singleton.mp hσ ▸ fun h => h rfl) trivial
  exact ⟨ws, hws, told⟩

/-! ## Whole rebuilds -/

/-- What a call makes of the state record and of the records of the ledger. -/
def recordedAll (keys : RecordKeys) : Effect surroundings (Option String × Records) :=
  fun s e s' => recorded keys.state s.1 e s'.1 ∧ ledgered keys s.2 e s'.2

section

variable {s s' : Option String × Records} {es : List (Event surroundings)} {sm : Summary}

theorem runs_state {α : Type} {a : Action α} {r : Except IndexError α}
    (h : Program.Runs (recordedAll x.keys) a.run s es r s') : x.Runs a s.1 es r s'.1 :=
  Program.Moves.map Prod.fst (fun _ _ _ he => he.1) h

theorem runs_ledger {α : Type} {a : Action α} {r : Except IndexError α}
    (h : Program.Runs (recordedAll x.keys) a.run s es r s') :
    Program.Runs (ledgered x.keys) a.run s.2 es r s'.2 :=
  Program.Moves.map Prod.snd (fun _ _ _ he => he.2) h

/-- A rebuild that is brought to its end goes on step by step. -/
theorem goesOn_of_rebuildFrom {limit : Nat} {r : RebuildStep}
    (saved : ∀ c, r = .progress c → s.1 = some (IndexState.running c).text)
    (h : Program.Runs (recordedAll x.keys) (x.rebuildFrom limit r).run s es (.ok (some sm)) s') :
    ∃ τs, GoesOn x r s.2 τs ∧ τs.flatMap (·.events) = es ∧
      (τs.map (·.result)).getLastD r = .completed sm := by
  induction limit generalizing r s es with
  | zero =>
    cases r with
    | progress c =>
      obtain ⟨-, hr, -⟩ := runs_value_iff.mp h
      cases hr
    | completed sm' =>
      obtain ⟨rfl, hr, -⟩ := runs_value_iff.mp h
      cases hr
      exact ⟨[], .nil _ _, rfl, rfl⟩
  | succ limit ih =>
    cases r with
    | completed sm' =>
      obtain ⟨rfl, hr, -⟩ := runs_value_iff.mp h
      cases hr
      exact ⟨[], .nil _ _, rfl, rfl⟩
    | progress c =>
      obtain ⟨r', s₁, es₁, es₂, rfl, h₁, h₂⟩ := runs_bind_ok h
      obtain ⟨st, hst, hf⟩ := Indexer.found_of_runs (runs_state h₁)
      rw [saved c rfl] at hst
      obtain rfl := IndexState.eq_of_ofRecord?_text hst
      obtain ⟨τs, hτs, hes, hl⟩ :=
        ih (fun c' hc' => Indexer.runs_continueRebuild_saves (runs_state (hc' ▸ h₁))) h₂
      let τ : Turn := ⟨c, es₁, r', s₁.2⟩
      refine ⟨τ :: τs, @GoesOn.more x _ τ _ hf (runs_ledger h₁) hτs, ?_, ?_⟩
      · rw [List.flatMap_cons, hes]
      · rw [List.map_cons, List.getLastD_cons]
        exact hl

/-- A whole rebuild that begins anew and comes to its end is a run of steps. -/
theorem freshRun_of_rebuild {limit : Nat} {scopes : List String} (hn : IndexState.NoRun s.1)
    (h : Program.Runs (recordedAll x.keys) (x.rebuild limit scopes).run s es (.ok (some sm)) s') :
    ∃ first rest, FreshRun x scopes s.2 first rest ∧
      (first :: rest).flatMap (·.events) = es ∧
      (rest.map (·.result)).getLastD first.result = .completed sm := by
  obtain ⟨r, s₁, es₁, es₂, rfl, h₁, h₂⟩ := runs_bind_ok h
  obtain ⟨st, hst, hf⟩ := Indexer.found_of_runs (runs_state h₁)
  rw [hn st hst] at hf
  obtain ⟨τs, hτs, hes, hl⟩ :=
    goesOn_of_rebuildFrom (fun c hc => Indexer.runs_rebuildStep_saves (runs_state (hc ▸ h₁))) h₂
  obtain ⟨now, total, -⟩ := Indexer.runs_started_worked hf (runs_ledger h₁)
  let τ : Turn := ⟨.start r.run now scopes total, es₁, r, s₁.2⟩
  refine ⟨τ, τs, ⟨hf, ⟨now, total, rfl⟩, runs_ledger h₁, hτs⟩, ?_, hl⟩
  rw [List.flatMap_cons, hes]

end

end ContentIndex
