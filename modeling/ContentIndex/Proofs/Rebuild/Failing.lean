import ContentIndex.Proofs.Rebuild.Drive

/-
  Steps that fail. Whichever call made a step fail, the record of a rebuild that was running is the
  one that was there; a step that was to begin a rebuild leaves the record as it was, or has
  saved the first position already. Either way the page that is due has not changed: it is the
  only page that a step lists, and a step that does not fail has listed it.
-/

namespace ContentIndex

open ContentIndex.Action
open IndexState (NoRun)
open Program (runs_bind_except)

/-- A listing of one page only, or a call of another kind. -/
def ListsOnly (p : Page) : IndexerCall → Prop
  | .content (.listIds q) => q = p
  | _ => True

theorem Aside.listsOnly {keys : RecordKeys} {p : Page} {c : IndexerCall} (h : Aside keys c) :
    ListsOnly p c := by
  cases c with
  | content c =>
    cases c with
    | listIds q => exact h.elim
    | _ => trivial
  | _ => trivial

theorem Fills.listsOnly {keys : RecordKeys} {p : Page} {c : IndexerCall} (h : Fills keys c) :
    ListsOnly p c := by
  cases c with
  | content c =>
    cases c with
    | listIds q => exact h.elim
    | _ => trivial
  | _ => trivial

/-- A position of a rebuild of some scopes that has written nothing yet. -/
structure Cursor.Fresh (scopes : List String) (c : Cursor) : Prop where
  offset : c.offset = 0
  synced : c.synced = 0
  failed : c.failed = 0
  scope : c.scope = scopes.head?
  scopes : c.scopes = scopes

theorem Cursor.fresh_start (run : RunId) (now : Calendar.Moment) (scopes : List String)
    (total : UInt64) : (Cursor.start run now scopes total).Fresh scopes :=
  ⟨rfl, rfl, rfl, rfl, rfl⟩

namespace Indexer

variable {x : Indexer} {c : Cursor} {p : Page} {scopes : List String} {t t' : Option String}
  {es : List (Event surroundings)} {r : Except IndexError RebuildStep} {e : IndexError}

/-- The page that a step is to write: the next one of the recorded rebuild, or the first one of a
new rebuild. -/
def duePage (x : Indexer) (scopes : List String) (t : Option String) : Page :=
  match (IndexState.ofRecord? t).toOption.bind (·.cursor?) with
  | some c => x.nextPage c
  | none => ⟨scopes.head?, 0, x.config.bulkPageSize⟩

/-! ## The listings of a step -/

theorem aside_listsOnly {α : Type} {a : Action α} (h : a.Calls (Aside x.keys)) :
    a.Calls (ListsOnly p) :=
  h.mono (fun _ => Aside.listsOnly) fun _ => id

theorem listsOnly_completeScope (x : Indexer) (c : Cursor) :
    (x.completeScope c).Calls (ListsOnly p) := by
  refine (aside_listsOnly (calls_reportFailures x c)).bind fun _ => ?_
  cases c.scopes[1]? with
  | some s =>
    refine (calls_count (P := ListsOnly p) trivial).bind fun total => ?_
    refine (aside_listsOnly (x := x) (calls_recreateIndex x _)).bind fun _ => ?_
    exact Calls.bind (calls_persist x trivial trivial) fun _ => calls_pure _
  | none =>
    refine (calls_requireRun (P := ListsOnly p) x trivial c.run).bind fun _ => ?_
    refine Calls.bind (calls_ask trivial) fun now => ?_
    exact Calls.bind (calls_saveState x trivial) fun _ => calls_pure _

/-- From a cursor only its next page is listed. -/
theorem listsOnly_advance (x : Indexer) (c : Cursor) :
    (x.advance c).Calls (ListsOnly (x.nextPage c)) := by
  refine Calls.bind (calls_listIds rfl) fun ids => ?_
  split
  · exact listsOnly_completeScope x c
  · refine ((fills_bulkInto ids).mono (fun _ => Fills.listsOnly) fun _ => id).bind fun o _ => ?_
    refine Calls.bind (calls_ask trivial) fun _ => Calls.bind (calls_ask trivial) fun _ => ?_
    refine Calls.bind (calls_ask trivial) fun _ => ?_
    exact Calls.bind (calls_persist x trivial trivial) fun _ => calls_pure _

/-- A new position is at the first page, before which nothing is listed. -/
theorem listsOnly_startRebuild (x : Indexer) (scopes : List String) :
    (x.startRebuild scopes).Gives (ListsOnly p) fun c =>
      x.nextPage c = ⟨scopes.head?, 0, x.config.bulkPageSize⟩ := by
  refine (aside_listsOnly (x := x) (calls_recreateIndex x _)).bind fun _ => ?_
  refine (calls_stored Ledger.always_clear fun _ _ => trivial).bind fun _ => ?_
  refine (calls_count (P := ListsOnly p) trivial).bind fun total => ?_
  refine (calls_ask (P := ListsOnly p) (c := .newRun) trivial).bind fun run => ?_
  refine (calls_ask (P := ListsOnly p) (c := .now) trivial).bind fun now => ?_
  exact (calls_saveState (P := ListsOnly p) x trivial).bind fun _ => gives_pure rfl

/-! ## The page that is due -/

theorem duePage_eq {s : IndexState} (hs : IndexState.ofRecord? t = .ok s) :
    x.duePage scopes t =
      match s.cursor? with
      | some c => x.nextPage c
      | none => ⟨scopes.head?, 0, x.config.bulkPageSize⟩ := by
  rw [duePage, hs]
  rfl

/-- All that a step lists is the page that is due. -/
theorem eq_duePage_of_listed (h : x.Runs (x.rebuildStep scopes) t es r t') {q : Page}
    {ids : Except ContentError (List UInt64)} (hn : .listed q ids ∈ notes es) :
    q = x.duePage scopes t := by
  rcases runs_bind_except.mp h with ⟨e, h₁, rfl⟩ | ⟨s, t₁, es₁, es₂, rfl, h₁, h₂⟩
  · rw [(runs_loadState h₁).2.1] at hn
    exact absurd hn List.not_mem_nil
  obtain ⟨rfl, hn₁, hs⟩ := runs_loadState h₁
  have due : x.duePage scopes t₁ = _ := duePage_eq (hs s rfl)
  have rest : Calls (ListsOnly (x.duePage scopes t₁)) (do
      match s.cursor? with
      | some c => x.resume c; x.advance c
      | none => x.advance (← x.startRebuild scopes)) := by
    rw [due]
    cases s.cursor? with
    | some c =>
      exact (aside_listsOnly (x := x) (calls_resume x c)).bind fun _ => listsOnly_advance x c
    | none => exact (listsOnly_startRebuild x scopes).bind fun c hc => hc ▸ listsOnly_advance x c
  rw [notes_append, hn₁, List.nil_append] at hn
  obtain ⟨⟨call, a⟩, he, hnote⟩ := List.mem_filterMap.mp hn
  have page := (Program.Always.of_runs rest h₂).1 _ he
  cases call with
  | content call =>
    cases call with
    | listIds p => cases hnote; exact page
    | _ => cases hnote
  | measure m => cases m <;> cases hnote
  | _ => cases hnote

/-- A step that does not fail lists it. -/
theorem duePage_listed {v : RebuildStep} (h : x.Runs (x.rebuildStep scopes) t es (.ok v) t') :
    ∃ ids, .listed (x.duePage scopes t) (.ok ids) ∈ notes es := by
  have advanced {c : Cursor} {t : Option String} (h : Advanced x c t (notes es) (.ok v) t') :
      ∃ ids, .listed (x.nextPage c) (.ok ids) ∈ notes es := by
    cases h with
    | page c' hi hn ho hc => exact ⟨_, hn ▸ List.mem_cons_self⟩
    | scope total hn hs => exact ⟨_, hn ▸ List.mem_cons_self⟩
    | completed now hn hs => exact ⟨_, hn ▸ List.mem_cons_self⟩
  cases runs_rebuildStep h with
  | resumed hs hc ha =>
    rw [duePage_eq hs, hc]
    exact advanced ha
  | started run now total hs hc hstart ha =>
    rw [duePage_eq hs, hc]
    subst hstart
    exact advanced ha

theorem duePage_of_run (h : ¬ NoRun t) (scopes scopes' : List String) :
    x.duePage scopes t = x.duePage scopes' t := by
  simp only [NoRun, not_forall] at h
  obtain ⟨s, hs, hc⟩ := h
  obtain ⟨c, hc⟩ := Option.ne_none_iff_exists'.mp hc
  rw [duePage_eq hs, duePage_eq hs, hc]

/-! ## Steps that fail -/

/-- A step that fails keeps the record of a rebuild that was running, and otherwise the record
that there was, or it leaves that of a position that has written nothing, with reads off. -/
theorem record_of_failed (h : x.Runs (x.rebuildStep scopes) t es (.error e) t') :
    t' = t ∨ NoRun t ∧ ∃ c : Cursor, c.Fresh scopes ∧
      x.nextPage c = x.duePage scopes t ∧ t' = some (IndexState.running c).text := by
  cases runs_rebuildStep h with
  | failed e => exact .inl rfl
  | resumed hs hc ha =>
    cases ha with
    | failed e => exact .inl rfl
  | @started s c _ _ run now total hs hc hstart ha =>
    cases ha with
    | failed e =>
      have idle : NoRun t := by
        intro s' hs'
        cases hs.symm.trans hs'
        exact hc
      refine .inr ⟨idle, c, hstart ▸ Cursor.fresh_start run now scopes total, ?_, rfl⟩
      rw [duePage_eq hs, hc, hstart]
      rfl

/-- A step that fails, at whichever call, does not move the position: the record of a rebuild that
was running stays, and without one the record stays or is that of a new position. So the next
step works on the same page again, for the same scopes or, if a rebuild is recorded, for any: it
lists no other page, and it lists this one unless it fails too. -/
theorem failed_step_keeps_page (h : x.Runs (x.rebuildStep scopes) t es (.error e) t') :
    (¬ NoRun t → t' = t) ∧
      (NoRun t → t' = t ∨
        ∃ c : Cursor, c.Fresh scopes ∧ t' = some (IndexState.running c).text) ∧
      (∀ q ids, .listed q ids ∈ notes es → q = x.duePage scopes t) ∧
      ∀ scopes', (NoRun t' → scopes' = scopes) → ∀ es' r t'',
        x.Runs (x.rebuildStep scopes') t' es' r t'' →
        (∀ q ids, .listed q ids ∈ notes es' → q = x.duePage scopes t) ∧
          ∀ v, r = .ok v → ∃ ids, .listed (x.duePage scopes t) (.ok ids) ∈ notes es' := by
  have due (scopes' : List String) (hs : NoRun t' → scopes' = scopes) :
      x.duePage scopes' t' = x.duePage scopes t := by
    rcases record_of_failed h with rfl | ⟨-, c, -, hp, rfl⟩
    · by_cases hrun : NoRun t'
      · rw [hs hrun]
      · exact duePage_of_run hrun _ _
    · rw [duePage_eq (IndexState.ofRecord?_text _), ← hp]
      rfl
  refine ⟨fun hrun => ?_, fun _ => ?_, fun q ids hq => eq_duePage_of_listed h hq,
    fun scopes' hs es' r t'' h' => ⟨fun q ids hq => ?_, ?_⟩⟩
  · rcases record_of_failed h with rfl | ⟨idle, -⟩
    · rfl
    · exact absurd idle hrun
  · rcases record_of_failed h with rfl | ⟨-, c, hc, -, rfl⟩
    · exact .inl rfl
    · exact .inr ⟨c, hc, rfl⟩
  · exact (eq_duePage_of_listed h' hq).trans (due scopes' hs)
  · rintro v rfl
    rw [← due scopes' hs]
    exact duePage_listed h'

end Indexer

/-! ## A store that is lost -/

namespace World

/-- An engine with which the store is lost at the first request after a record was saved. -/
def losing : EngineModel Unit := fun r w =>
  ((accepting r w).1,
    { w with memory.offline := w.memory.offline || (w.record plain.keys.state).isSome })

/-- A step begins a rebuild, finds the first scope empty and makes the index of the second one.
The store is lost meanwhile; the record of the first position stays. -/
theorem failed_step_keeps_first_page :
    ∃ e, (firstEmpty.perform losing (plain.rebuildStep ["a", "b"])).1 = .error e ∧
      ∃ c : Cursor, c.Fresh ["a", "b"] ∧
        (firstEmpty.perform losing (plain.rebuildStep ["a", "b"])).2.record plain.keys.state =
          some (IndexState.running c).text := by
  have runs := @perform_runs _ losing plain _ (plain.rebuildStep ["a", "b"]) firstEmpty
    fun _ _ => rfl
  have seen : ((firstEmpty.perform losing (plain.rebuildStep ["a", "b"])).1.toOption.isNone &&
      ((firstEmpty.perform losing (plain.rebuildStep ["a", "b"])).2.record
        plain.keys.state).isSome) = true := by
    decide +kernel
  obtain ⟨fails, recorded⟩ := Bool.and_eq_true_iff.mp seen
  have idle : NoRun (firstEmpty.record plain.keys.state) := by
    intro s hs
    cases hs
    rfl
  cases hr : (firstEmpty.perform losing (plain.rebuildStep ["a", "b"])).1 with
  | ok v =>
    rw [hr] at fails
    cases fails
  | error e =>
    rw [hr] at runs
    refine ⟨e, rfl, ?_⟩
    rcases (Indexer.failed_step_keeps_page runs).2.1 idle with same | fresh
    · rw [same] at recorded
      cases recorded
    · exact fresh

end World
end ContentIndex
