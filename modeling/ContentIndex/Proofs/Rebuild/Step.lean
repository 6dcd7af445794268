import ContentIndex.Proofs.Indexer.Conservation

/-
  What one step of a rebuild can do. From a cursor (`Advanced`) it fails and leaves the state
  record as it was, or it writes a page, goes on to the next scope or ends the rebuild, and then
  its last call was the save of the record that says so. A whole step (`Stepped`) does that from
  the cursor in the record, or from a new one that it has saved before.
-/

namespace ContentIndex

open ContentIndex.Action
open Program (runs_bind_except runs_bind_ok runs_done_iff)

namespace Indexer

variable {x : Indexer} {c : Cursor} {t t' : Option String} {es : List (Event surroundings)}

/-! ## From a cursor -/

/-- The page that is next for a cursor. -/
def nextPage (x : Indexer) (c : Cursor) : Page := ⟨c.scope, c.offset, x.config.bulkPageSize⟩

/-- The ends of a step from a cursor, with the notes that it leaves. -/
inductive Advanced (x : Indexer) (c : Cursor) (t : Option String) (ns : List Note) :
    Except IndexError RebuildStep → Option String → Prop
  | failed (e : IndexError) : Advanced x c t ns (.error e) t
  | page {ids : List UInt64} {o : BulkOutcome} (c' : Cursor) :
      ids ≠ [] →
      ns = .listed (x.nextPage c) (.ok ids) :: (ids.map .prepared ++ [.skipped o.skipped]) →
      o.counted = ids.length →
      c' = c.advance x.config.bulkPageSize (.ofNat o.indexed) (.ofNat o.failed) →
      Advanced x c t ns (.ok (.progress c')) (some (IndexState.running c').text)
  | scope {s : String} (total : UInt64) :
      ns = [.listed (x.nextPage c) (.ok [])] →
      c.scopes[1]? = some s →
      Advanced x c t ns (.ok (.progress (c.nextScope total)))
        (some (IndexState.running (c.nextScope total)).text)
  | completed (now : Calendar.Moment) :
      ns = [.listed (x.nextPage c) (.ok [])] →
      c.scopes[1]? = none →
      Advanced x c t ns (.ok (.completed ⟨c.run, c.synced, c.failed⟩))
        (some (IndexState.completed now c.synced).text)

theorem Advanced.of_error {ns : List Note} {r : Except IndexError RebuildStep}
    (h : ∃ e, r = .error e) : Advanced x c t ns r t := by
  obtain ⟨e, rfl⟩ := h
  exact .failed e

/-- The end of a scope, after a listing without ids. -/
theorem runs_completeScope {r : Except IndexError RebuildStep}
    (h : x.Runs (x.completeScope c) t es r t') :
    Advanced x c t (.listed (x.nextPage c) (.ok []) :: notes es) r t' := by
  rcases (quiet_aside (calls_reportFailures x c)).runs_bind h with ⟨he, rfl⟩ | ⟨u, es₁, hn₁, h⟩
  · exact .of_error he
  cases hs : c.scopes[1]? with
  | some s =>
    rw [hs] at h
    rcases (quiet_aside (calls_count trivial)).runs_bind h with ⟨he, rfl⟩ | ⟨total, es₂, hn₂, h⟩
    · exact .of_error he
    rcases (quiet_aside (calls_recreateIndex x _)).runs_bind h with ⟨he, rfl⟩ | ⟨u, es₃, hn₃, h⟩
    · exact .of_error he
    rcases (saves_persist x _).runs_bind_pure h with ⟨he, rfl⟩ | ⟨rfl, hn₄, rfl⟩
    · exact .of_error he
    · exact .scope total (by rw [hn₁, hn₂, hn₃, hn₄]) hs
  | none =>
    rw [hs] at h
    rcases (quiet_requireRun x c.run).runs_bind h with ⟨he, rfl⟩ | ⟨u, es₂, hn₂, h⟩
    · exact .of_error he
    rcases (quiet_ask x .now trivial).runs_bind h with ⟨he, rfl⟩ | ⟨now, es₃, hn₃, h⟩
    · exact .of_error he
    rcases (saves_saveState x _).runs_bind_pure h with ⟨he, rfl⟩ | ⟨rfl, hn₄, rfl⟩
    · exact .of_error he
    · exact .completed now (by rw [hn₁, hn₂, hn₃, hn₄]) hs

/-- A page that was listed, from its items to the save of the position after it. -/
theorem runs_advance {r : Except IndexError RebuildStep} (h : x.Runs (x.advance c) t es r t') :
    Advanced x c t (notes es) r t' := by
  rcases runs_bind_except.mp h with ⟨e, h₁, rfl⟩ | ⟨ids, t₁, es₁, es₂, rfl, h₁, h₂⟩
  · obtain ⟨rfl, -⟩ := runs_listIds h₁
    exact .failed e
  obtain ⟨rfl, hn₁⟩ := runs_listIds h₁
  rw [notes_append, hn₁ ids rfl]
  cases ids with
  | nil => exact runs_completeScope h₂
  | cons id ids =>
    change x.Runs (x.bulkInto (x.pathsFor c.scope) (some c.offset) (id :: ids) >>= _) _ _ _ _ at h₂
    rcases runs_bind_except.mp h₂ with ⟨e, h₃, rfl⟩ | ⟨o, t₂, es₃, es₄, rfl, h₃, h₄⟩
    · obtain rfl := Runs.frame h₃ (calls_bulkInto _)
      exact .failed e
    obtain rfl := Runs.frame h₃ (calls_bulkInto _)
    obtain ⟨hn₃, ho⟩ := runs_bulkInto h₃
    rcases (quiet_ask x (.content .releaseCaches) trivial).runs_bind h₄ with
      ⟨he, rfl⟩ | ⟨u, es₅, hn₅, h⟩
    · exact .of_error he
    rcases (quiet_ask x (.measure (.rebuildOffset _)) trivial).runs_bind h with
      ⟨he, rfl⟩ | ⟨u, es₆, hn₆, h⟩
    · exact .of_error he
    rcases (quiet_ask x (.measure (.rebuildSynced _)) trivial).runs_bind h with
      ⟨he, rfl⟩ | ⟨u, es₇, hn₇, h⟩
    · exact .of_error he
    rcases (saves_persist x _).runs_bind_pure h with ⟨he, rfl⟩ | ⟨rfl, hn₈, rfl⟩
    · exact .of_error he
    · refine .page _ (List.cons_ne_nil id ids) ?_ ho rfl
      rw [notes_append, hn₃, hn₅, hn₆, hn₇, hn₈, List.append_nil]
      rfl

/-- A step that does not end the rebuild leaves the record of the cursor that it has reached. -/
theorem Advanced.saves {ns : List Note} {c' : Cursor}
    (h : Advanced x c t ns (.ok (.progress c')) t') : t' = some (IndexState.running c').text := by
  cases h with
  | page c' hi hn ho hc => rfl
  | scope total hn hs => rfl

theorem runs_advance_saves {c' : Cursor}
    (h : x.Runs (x.advance c) t es (.ok (.progress c')) t') :
    t' = some (IndexState.running c').text :=
  (runs_advance h).saves

theorem runs_continueRebuild_saves {run : RunId} {c' : Cursor}
    (h : x.Runs (x.continueRebuild run) t es (.ok (.progress c')) t') :
    t' = some (IndexState.running c').text := by
  obtain ⟨s, t₁, es₁, es₂, -, -, h₂⟩ := runs_bind_ok h
  cases hc : s.cursor? with
  | none =>
    simp only [hc] at h₂
    obtain ⟨-, hr, -⟩ := runs_done_iff.mp h₂
    cases hr
  | some c =>
    simp only [hc] at h₂
    obtain ⟨-, t₂, es₃, es₄, -, -, h₃⟩ := runs_bind_ok h₂
    exact runs_advance_saves h₃

/-! ## Whole steps -/

/-- The first part of a new rebuild, up to its record. -/
def newCursor (x : Indexer) (scopes : List String) : Action Cursor := do
  x.recreateIndex scopes.head?
  stored (Ledger.clear x.keys)
  let total ← count scopes.head?
  let run ← ask .newRun
  let now ← ask .now
  return Cursor.start run now scopes total

/-- What a step does after its look at the record. -/
def stepFrom (x : Indexer) (scopes : List String) (s : IndexState) : Action RebuildStep :=
  match s.cursor? with
  | some c => do
    x.resume c
    x.advance c
  | none => do
    let c ← x.newCursor scopes
    x.saveState (.running c)
    x.advance c

theorem rebuildStep_eq_stepFrom (x : Indexer) (scopes : List String) :
    x.rebuildStep scopes = x.loadState >>= x.stepFrom scopes := by
  refine bind_congr fun s => ?_
  cases hc : s.cursor? with
  | some c => simp only [stepFrom, hc]
  | none =>
    simp only [stepFrom, hc, startRebuild, newCursor, bind_assoc, pure_bind]

theorem apart_newCursor (x : Indexer) (scopes : List String) :
    (x.newCursor scopes).Calls (Apart x.keys) := by
  refine Calls.bind (calls_recreateIndex x _).apart fun _ => ?_
  refine Calls.bind (calls_stored Ledger.always_clear fun _ => id) fun _ => ?_
  refine (calls_count trivial).bind fun total => ?_
  exact (calls_ask trivial).bind fun run => (calls_ask trivial).bind fun now => calls_pure _

/-- The ends of a step from a state record, with the notes that it leaves. -/
inductive Stepped (x : Indexer) (scopes : List String) (t : Option String) (ns : List Note) :
    Except IndexError RebuildStep → Option String → Prop
  | failed (e : IndexError) : Stepped x scopes t ns (.error e) t
  | resumed {s : IndexState} {c : Cursor} {r : Except IndexError RebuildStep} {t' : Option String} :
      IndexState.ofRecord? t = .ok s → s.cursor? = some c →
      Advanced x c t ns r t' → Stepped x scopes t ns r t'
  | started {s : IndexState} {c : Cursor} {r : Except IndexError RebuildStep} {t' : Option String}
      (run : RunId) (now : Calendar.Moment) (total : UInt64) :
      IndexState.ofRecord? t = .ok s → s.cursor? = none → c = Cursor.start run now scopes total →
      Advanced x c (some (IndexState.running c).text) ns r t' → Stepped x scopes t ns r t'

theorem Stepped.of_error {scopes : List String} {ns : List Note}
    {r : Except IndexError RebuildStep} (h : ∃ e, r = .error e) : Stepped x scopes t ns r t := by
  obtain ⟨e, rfl⟩ := h
  exact .failed e

/-- A start fails and keeps the state record, or leaves the record of a new cursor. -/
theorem runs_startRebuild {scopes : List String} {r : Except IndexError Cursor}
    (h : x.Runs (x.startRebuild scopes) t es r t') :
    (∃ e, r = .error e) ∧ t' = t ∨
      notes es = [] ∧ ∃ run now total, r = .ok (Cursor.start run now scopes total) ∧
        t' = some (IndexState.running (Cursor.start run now scopes total)).text := by
  rcases (quiet_aside (calls_recreateIndex x _)).runs_bind h with h | ⟨u, es₁, hn₁, h⟩
  · exact .inl h
  rcases (quiet_aside (calls_stored Ledger.always_clear fun _ => id)).runs_bind h with
    h | ⟨u, es₂, hn₂, h⟩
  · exact .inl h
  rcases (quiet_aside (calls_count trivial)).runs_bind h with h | ⟨total, es₃, hn₃, h⟩
  · exact .inl h
  rcases (quiet_ask x .newRun trivial).runs_bind h with h | ⟨run, es₄, hn₄, h⟩
  · exact .inl h
  rcases (quiet_ask x .now trivial).runs_bind h with h | ⟨now, es₅, hn₅, h⟩
  · exact .inl h
  rcases (saves_saveState x _).runs_bind_pure h with h | ⟨rfl, hn₆, rfl⟩
  · exact .inl h
  · exact .inr ⟨by rw [hn₁, hn₂, hn₃, hn₄, hn₅, hn₆], run, now, total, rfl, rfl⟩

theorem runs_rebuildStep {scopes : List String} {r : Except IndexError RebuildStep}
    (h : x.Runs (x.rebuildStep scopes) t es r t') : Stepped x scopes t (notes es) r t' := by
  rcases runs_bind_except.mp h with ⟨e, h₁, rfl⟩ | ⟨s, t₁, es₁, es₂, rfl, h₁, h₂⟩
  · obtain ⟨rfl, -⟩ := runs_loadState h₁
    exact .failed e
  obtain ⟨rfl, hn₁, hs⟩ := runs_loadState h₁
  have hs := hs s rfl
  rw [notes_append, hn₁, List.nil_append]
  cases hc : s.cursor? with
  | some c =>
    simp only [hc] at h₂
    rcases (quiet_aside (calls_resume x c)).runs_bind h₂ with ⟨he, rfl⟩ | ⟨u, es₃, hn₃, h₃⟩
    · exact .of_error he
    · rw [hn₃]
      exact .resumed hs hc (runs_advance h₃)
  | none =>
    simp only [hc] at h₂
    rcases runs_bind_except.mp h₂ with ⟨e, h₃, rfl⟩ | ⟨c, t₂, es₃, es₄, rfl, h₃, h₄⟩
    · rcases runs_startRebuild h₃ with ⟨-, rfl⟩ | ⟨-, run, now, total, he, -⟩
      · exact .failed e
      · cases he
    · rcases runs_startRebuild h₃ with ⟨⟨e, he⟩, -⟩ | ⟨hn₃, run, now, total, he, rfl⟩
      · cases he
      · cases he
        rw [notes_append, hn₃, List.nil_append]
        exact .started run now total hs hc rfl (runs_advance h₄)

theorem runs_rebuildStep_saves {scopes : List String} {c' : Cursor}
    (h : x.Runs (x.rebuildStep scopes) t es (.ok (.progress c')) t') :
    t' = some (IndexState.running c').text := by
  cases runs_rebuildStep h with
  | resumed hs hc ha => exact ha.saves
  | started run now total hs hc hstart ha => exact ha.saves

end Indexer
end ContentIndex
