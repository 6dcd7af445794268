import ContentIndex.Proofs.Indexer.Trace
import ContentIndex.Proofs.Rebuild.Heed

/-
  Any number of tasks that write one state record. Each task is what is left of an operation, and
  a step of the system is the start of an operation or one call of one task (`Reachable`). All
  records that are stored come from writes of the tasks, so what every operation writes, whatever
  it is answered, holds of all of them (`Reachable.stored_good`).
-/

namespace ContentIndex

open ContentIndex.Action
open IndexState (cancelled)

/-- The operations that write the state record. -/
inductive Writer where
  | rebuild (op : RebuildCall)
  | cancel
  | enableReads

/-- The operation of a writer. -/
def Writer.action (x : Indexer) : Writer → Action Unit
  | .rebuild op => op.action x
  | .cancel => x.cancel
  | .enableReads => x.enableReads

/-- What is left of an operation. -/
abbrev Task := Program surroundings (Except IndexError Unit)

/-- The events so far, the last of them first, the state record, and the tasks. All tasks are
writers of a kind, of indexers with the same keys. -/
inductive Reachable (keys : RecordKeys) (kind : Writer → Prop) (t₀ : Option String) :
    List (Event surroundings) → Option String → List Task → Prop
  | start : Reachable keys kind t₀ [] t₀ []
  | begin {es : List (Event surroundings)} {t : Option String} {ps : List Task} (x : Indexer)
      (op : Writer) : x.keys = keys → kind op → Reachable keys kind t₀ es t ps →
      Reachable keys kind t₀ es t ((op.action x).run :: ps)
  | call {es : List (Event surroundings)} {t t' : Option String} {ps qs : List Task}
      {c : IndexerCall} {next : surroundings.Answer c → Task} {r : surroundings.Answer c} :
      Reachable keys kind t₀ es t (ps ++ .call c next :: qs) → recorded keys.state t ⟨c, r⟩ t' →
      Reachable keys kind t₀ (⟨c, r⟩ :: es) t' (ps ++ next r :: qs)

variable {keys : RecordKeys} {kind : Writer → Prop} {t₀ t : Option String}
  {es : List (Event surroundings)} {ps : List Task}

/-- The texts that were stored in the state record, the last of them first. -/
def storedTexts (key : String) (es : List (Event surroundings)) : List String :=
  es.filterMap (Event.stored? key)

/-- One task goes on by itself. -/
theorem Reachable.moves {p q : Task} {t' : Option String} {es' : List (Event surroundings)}
    (h : Reachable keys kind t₀ es t (p :: ps))
    (hm : Program.Moves (recorded keys.state) p t es' q t') :
    Reachable keys kind t₀ (es'.reverse ++ es) t' (q :: ps) := by
  induction hm generalizing es with
  | refl => exact h
  | @call c next r s s₁ s' es' q he _ ih =>
    have first : Reachable keys kind t₀ es s ([] ++ .call c next :: ps) := h
    have one : Reachable keys kind t₀ (⟨c, r⟩ :: es) s₁ (next r :: ps) := first.call he
    rw [List.reverse_cons, List.append_assoc]
    exact ih one

/-- An operation by itself in a world. -/
theorem reachable_perform {E : Type} {engine : EngineModel E} (x : Indexer) (op : Writer)
    (hop : kind op) (w : World E)
    (h : ∀ r w, (engine r w).2.record x.keys.state = w.record x.keys.state) :
    Reachable x.keys kind (w.record x.keys.state) (w.events engine (op.action x)).reverse
      ((w.perform engine (op.action x)).2.record x.keys.state)
      [.done (w.perform engine (op.action x)).1] := by
  have begun : Reachable x.keys kind (w.record x.keys.state) [] (w.record x.keys.state)
      [(op.action x).run] := .begin x op rfl hop .start
  have ended := begun.moves (World.perform_runs x (op.action x) w h)
  rwa [List.append_nil] at ended

/-- A step of a rebuild by itself, up to the end of its start. -/
theorem reachable_started (x : Indexer) (scopes : List String)
    (hop : kind (.rebuild (.step scopes))) {t t' : Option String} {s : IndexState} {c : Cursor}
    {es : List (Event surroundings)} (hs : IndexState.ofRecord? t = .ok s)
    (hc : s.cursor? = none) (h : x.Runs (x.startRebuild scopes) t es (.ok c) t') :
    ∃ q, Reachable x.keys kind t (es.reverse ++ [⟨.store (.get x.keys.state), .ok t⟩]) t' [q] := by
  have begun : Reachable x.keys kind t [] t [((RebuildCall.step scopes).action x).run] :=
    .begin x (.rebuild (.step scopes)) rfl hop .start
  have look : Program.Moves (recorded x.keys.state) (x.rebuildStep scopes).run t
      [⟨.store (.get x.keys.state), .ok t⟩] (x.startRebuild scopes >>= x.advance).run t := by
    have new : Indexer.loaded (.ok t) = .ok s := by
      rw [Indexer.loaded, hs]
      rfl
    unfold Indexer.rebuildStep
    rw [Indexer.loadState_bind_run]
    refine .call ⟨rfl, fun _ => rfl⟩ ?_
    rw [new, Indexer.afterLoad, hc]
    exact .refl _ _
  have start := look.append (Program.Moves.bind (ExceptT.bindCont x.advance) h)
  have task := begun.moves (start.bind (ExceptT.bindCont fun _ => pure ()))
  rw [List.append_nil, List.reverse_append] at task
  exact ⟨_, task⟩

namespace World

/-- The position with which the rebuild of the scope in `oneGone` begins. -/
def begun : Cursor := .start (runId 0) Calendar.Moment.epoch ["a"] 1

/-- The start of that rebuild stores one record, that of its first position. -/
theorem runs_start_oneGone :
    ∃ es, plain.Runs (plain.startRebuild ["a"]) none es (.ok begun)
        (some (IndexState.running begun).text) ∧
      (storedTexts plain.keys.state es).length = 1 := by
  have started : (oneGone.perform accepting (plain.startRebuild ["a"])).1.toOption = some begun := by
    decide +kernel
  have stored : (storedTexts plain.keys.state
      (oneGone.events accepting (plain.startRebuild ["a"]))).length = 1 := by
    decide +kernel
  have runs := perform_runs plain (plain.startRebuild ["a"]) oneGone (accepting_record _)
  rcases Indexer.runs_startRebuild runs with ⟨⟨e, he⟩, -⟩ | ⟨-, run, now, total, hr, ht⟩
  · rw [he] at started
    cases started
  · rw [hr] at started runs
    rw [ht, Option.some.inj started] at runs
    exact ⟨_, runs, stored⟩

end World

/-! ## Writes -/

/-- The record is not removed, and what is written to it is good. -/
def Writes (key : String) (good : String → Prop) : IndexerCall → Prop
  | .store (.set k text) => k = key → good text
  | .store (.delete k) => k ≠ key
  | _ => True

/-- What a call does to the record if its writes are good. -/
theorem recorded_writes {key : String} {good : String → Prop} {t t' : Option String}
    {e : Event surroundings} (he : recorded key t e t') (hw : Writes key good e.call) :
    e.stored? key = none ∧ t' = t ∨ ∃ text, e.stored? key = some text ∧ t' = some text ∧
      good text := by
  cases htouch : e.touches key with
  | false =>
    obtain ⟨rfl, hs⟩ := recorded_untouched htouch he
    exact .inl ⟨hs, rfl⟩
  | true =>
    obtain ⟨c, r⟩ := e
    cases c with
    | store c =>
      cases c with
      | get k =>
        cases r with
        | error e => exact .inl ⟨rfl, he⟩
        | ok text => exact .inl ⟨rfl, he.1⟩
      | set k text =>
        obtain rfl : k = key := by simpa [Event.touches] using htouch
        cases r with
        | error e => exact .inl ⟨rfl, he⟩
        | ok u => exact .inr ⟨text, if_pos rfl, Eq.trans he (if_pos rfl), hw rfl⟩
      | delete k => exact absurd (by simpa [Event.touches] using htouch) hw
    | _ => cases htouch

/-- The record is the last text that was stored, and all of these are good. -/
theorem Reachable.stored_good {good : String → Prop}
    (hgood : ∀ x : Indexer, x.keys = keys → ∀ op, kind op →
      (op.action x).Calls (Writes keys.state good))
    (h : Reachable keys kind t₀ es t ps) :
    (∀ text ∈ storedTexts keys.state es, good text) ∧
      t = (storedTexts keys.state es).head?.or t₀ ∧
      ∀ p ∈ ps, p.Always (Writes keys.state good) fun _ => True := by
  induction h with
  | start => exact ⟨by simp [storedTexts], rfl, by simp⟩
  | begin x op hx hop _ ih =>
    obtain ⟨hstored, ht, hps⟩ := ih
    refine ⟨hstored, ht, fun p hp => ?_⟩
    rcases List.mem_cons.mp hp with rfl | hp
    · exact Program.Always.mono (hgood x hx op hop) (fun _ => id) fun _ _ => trivial
    · exact hps p hp
  | @call es t t' ps qs c next r _ he ih =>
    obtain ⟨hstored, ht, hps⟩ := ih
    have task := hps (.call c next) (by simp)
    have rest : ∀ p ∈ ps ++ next r :: qs, p.Always (Writes keys.state good) fun _ => True := by
      intro p hp
      rcases List.mem_append.mp hp with hp | hp
      · exact hps p (List.mem_append_left _ hp)
      · rcases List.mem_cons.mp hp with rfl | hp
        · exact task.2 r
        · exact hps p (by simp [hp])
    rcases recorded_writes he task.1 with ⟨hs, rfl⟩ | ⟨text, hs, rfl, hw⟩
    · rw [storedTexts, List.filterMap_cons_none hs]
      exact ⟨hstored, ht, rest⟩
    · rw [storedTexts, List.filterMap_cons_some hs]
      refine ⟨fun text' ht' => ?_, rfl, rest⟩
      rcases List.mem_cons.mp ht' with rfl | ht'
      · exact hw
      · exact hstored text' ht'

/-! ## What the operations write -/

theorem Heeds.always {α : Type} {key : String} {good : String → Prop}
    (hg : ∀ text, RebuildText text → good text)
    {p : Program surroundings (Except IndexError α)} (h : Heeds key p) :
    p.Always (Writes key good) fun _ => True := by
  induction p with
  | done a => trivial
  | call c next ih =>
    refine ⟨?_, fun a => ih a (h.2 a)⟩
    have minds := h.1
    cases c with
    | store c =>
      cases c with
      | get k => trivial
      | set k text => exact fun hk => hg text (minds hk).1
      | delete k => exact minds
    | _ => trivial

/-- A rebuild writes records of running and completed rebuilds. -/
theorem RebuildCall.calls_writes (x : Indexer) (op : RebuildCall) {good : String → Prop}
    (hg : ∀ text, RebuildText text → good text) :
    (op.action x).Calls (Writes x.keys.state good) := by
  obtain ⟨rest, hx, hrest⟩ := op.heeds x
  rw [Calls, Gives, hx]
  exact ⟨trivial, fun a => ((hrest a).always hg).mono (fun _ => id) fun _ _ _ _ => trivial⟩

namespace Indexer

variable {x : Indexer} {good : String → Prop}

/-- Reads are turned on in a record that was loaded, and only if no rebuild was running in it. -/
theorem calls_enableReads
    (hg : ∀ s : IndexState, s.isRunning = false → good { s with readEnabled := true }.text) :
    x.enableReads.Calls (Writes x.keys.state good) := by
  refine (calls_loadState x trivial).bind fun s => (gives_require _ _).bind fun _ hs => ?_
  exact calls_saveState x fun _ => hg s (by simpa using hs)

end Indexer
end ContentIndex
