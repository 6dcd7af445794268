import ContentIndex.Proofs.Rebuild.Step

/-
  How a rebuild heeds the state record. `Heeds` says of every call that is left of a program what
  it does with the record: a look at a record that was cancelled ends the program, as does a look
  or a write that fails, and every write says that a rebuild is running or completed. After its
  first look all of a rebuild heeds the record (`RebuildCall.heeds`).
-/

namespace ContentIndex

open ContentIndex.Action
open IndexState (cancelled)
open Program (Moves)

/-- The record of a rebuild that is running or completed. -/
def RebuildText (text : String) : Prop :=
  (∃ c, text = (IndexState.running c).text) ∨ ∃ now n, text = (IndexState.completed now n).text

/-! ## Heeding -/

section

variable {α β : Type} {key : String}

/-- What one call does about the record. -/
def Minds (key : String) :
    (c : IndexerCall) → (surroundings.Answer c → Program surroundings (Except IndexError α)) → Prop
  | .store (.get k), next => k = key →
      ∀ a, (a = .ok (some cancelled.text) ∨ ∃ e, a = .error e) → ∃ e, next a = .done (.error e)
  | .store (.set k text), next => k = key →
      RebuildText text ∧ ∀ e, ∃ e', next (.error e) = .done (.error e')
  | .store (.delete k), _ => k ≠ key
  | _, _ => True

/-- All calls that are left of a program mind the record. -/
def Heeds (key : String) : Program surroundings (Except IndexError α) → Prop
  | .done _ => True
  | .call c next => Minds key c next ∧ ∀ a, Heeds key (next a)

theorem Heeds.of_moves {σ : Type} {E : Effect surroundings σ} {s s' : σ}
    {p q : Program surroundings (Except IndexError α)} {es : List (Event surroundings)}
    (hp : Heeds key p) (hm : Moves E p s es q s') : Heeds key q := by
  induction hm with
  | refl => exact hp
  | call _ _ ih => exact ih (hp.2 _)

theorem Heeds.bind {a : Action α} {f : α → Action β} (h : Heeds key a.run)
    (hf : ∀ v, Heeds key (f v).run) : Heeds key (a >>= f).run := by
  have main (p : Program surroundings (Except IndexError α)) (hp : Heeds key p) :
      Heeds key (p >>= ExceptT.bindCont f) := by
    induction p with
    | done r =>
      cases r with
      | error e => trivial
      | ok v => exact hf v
    | call c next ih =>
      refine ⟨?_, fun a => ih a (hp.2 a)⟩
      have ends (r : surroundings.Answer c) (h : ∃ e, next r = .done (.error e)) :
          ∃ e, (next r >>= ExceptT.bindCont f) = .done (.error e) := by
        obtain ⟨e, he⟩ := h
        exact ⟨e, by rw [he]; rfl⟩
      have minds := hp.1
      cases c with
      | store c =>
        cases c with
        | get k => exact fun hk a ha => ends a (minds hk a ha)
        | set k text => exact fun hk => ⟨(minds hk).1, fun e => ends (.error e) ((minds hk).2 e)⟩
        | delete k => exact minds
      | _ => trivial
  exact main a.run h

theorem Heeds.of_apart {keys : RecordKeys} {a : Action α} (ha : a.Calls (Apart keys))
    (hk : key ∉ Ledger.ledgerKeys keys) : Heeds key a.run := by
  have main (p : Program surroundings (Except IndexError α)) (Q : Except IndexError α → Prop)
      (hp : p.Always (Apart keys) Q) : Heeds key p := by
    induction p with
    | done r => trivial
    | call c next ih =>
      refine ⟨?_, fun a => ih a (hp.2 a)⟩
      have apart := hp.1
      cases c with
      | store c =>
        cases c with
        | get k => exact fun e => absurd (e ▸ apart) hk
        | set k text => exact fun e => absurd (e ▸ apart) hk
        | delete k => exact fun e => hk (e ▸ apart)
      | _ => trivial
  exact main a.run _ ha

end

namespace Indexer

variable {α : Type} {x : Indexer}

theorem heeds_pure (v : α) : Heeds x.keys.state (pure v : Action α).run :=
  trivial

theorem heeds_apart {a : Action α} (ha : a.Calls (Apart x.keys)) : Heeds x.keys.state a.run :=
  .of_apart ha x.state_notMem_ledgerKeys

theorem heeds_ask (c : IndexerCall) (hc : Apart x.keys c) : Heeds x.keys.state (ask c).run :=
  heeds_apart (calls_ask hc)

theorem heeds_afterLoad {f : IndexState → Action α} (hf : ∀ s, Heeds x.keys.state (f s).run)
    (r : Except IndexError IndexState) : Heeds x.keys.state (afterLoad f r) := by
  cases r with
  | error e => trivial
  | ok s => exact hf s

/-- A look at the record after which a cancel ends the operation. -/
theorem heeds_load {f : IndexState → Action α} (hf : ∀ s, Heeds x.keys.state (f s).run)
    (hc : ∃ e, (f cancelled).run = .done (.error e)) :
    Heeds x.keys.state (x.loadState >>= f).run := by
  rw [loadState_bind_run]
  refine ⟨fun _ a ha => ?_, fun a => heeds_afterLoad hf (loaded a)⟩
  rcases ha with rfl | ⟨e, rfl⟩
  · have shown : loaded (.ok (some cancelled.text)) = .ok cancelled := by
      rw [loaded, IndexState.ofRecord?_text]
      rfl
    obtain ⟨e, he⟩ := hc
    exact ⟨e, (congrArg (afterLoad f) shown).trans he⟩
  · exact ⟨_, rfl⟩

theorem heeds_saveState {s : IndexState} (hs : RebuildText s.text) :
    Heeds x.keys.state (x.saveState s).run := by
  rw [saveState_run]
  exact ⟨fun _ => ⟨hs, fun e => ⟨_, rfl⟩⟩, fun _ => trivial⟩

theorem heeds_saveRunning (c : Cursor) : Heeds x.keys.state (x.saveState (.running c)).run :=
  heeds_saveState (.inl ⟨c, rfl⟩)

theorem heeds_requireRun (run : RunId) : Heeds x.keys.state (x.requireRun run).run :=
  heeds_load (fun _ => heeds_apart (calls_require _ _)) ⟨_, rfl⟩

theorem heeds_persist (c : Cursor) : Heeds x.keys.state (x.persist c).run :=
  (heeds_requireRun c.run).bind fun _ => heeds_saveRunning _

theorem heeds_startRebuild (scopes : List String) :
    Heeds x.keys.state (x.startRebuild scopes).run := by
  refine (heeds_apart (calls_recreateIndex x _).apart).bind fun _ => ?_
  refine (heeds_apart (calls_stored Ledger.always_clear fun _ => id)).bind fun _ => ?_
  refine (heeds_apart (calls_count trivial)).bind fun total => ?_
  refine (heeds_ask .newRun trivial).bind fun run => (heeds_ask .now trivial).bind fun now => ?_
  exact (heeds_saveRunning _).bind fun _ => heeds_pure _

theorem heeds_completeScope (c : Cursor) : Heeds x.keys.state (x.completeScope c).run := by
  refine (heeds_apart (calls_reportFailures x c).apart).bind fun _ => ?_
  cases c.scopes[1]? with
  | some s =>
    refine (heeds_apart (calls_count trivial)).bind fun total => ?_
    refine (heeds_apart (calls_recreateIndex x _).apart).bind fun _ => ?_
    exact (heeds_persist _).bind fun _ => heeds_pure _
  | none =>
    refine (heeds_requireRun c.run).bind fun _ => ?_
    refine (heeds_ask .now trivial).bind fun now => ?_
    exact (heeds_saveState (.inr ⟨now, c.synced, rfl⟩)).bind fun _ => heeds_pure _

theorem heeds_advance (c : Cursor) : Heeds x.keys.state (x.advance c).run := by
  refine (heeds_apart (calls_listIds trivial)).bind fun ids => ?_
  split
  · exact heeds_completeScope c
  · refine (heeds_apart (calls_bulkInto _)).bind fun o => ?_
    refine (heeds_ask (.content .releaseCaches) trivial).bind fun _ => ?_
    refine (heeds_ask (.measure (.rebuildOffset _)) trivial).bind fun _ => ?_
    refine (heeds_ask (.measure (.rebuildSynced _)) trivial).bind fun _ => ?_
    exact (heeds_persist _).bind fun _ => heeds_pure _

/-- One more step of a rebuild looks at the record first, and ends if it was cancelled. -/
theorem heeds_continueRebuild (run : RunId) : Heeds x.keys.state (x.continueRebuild run).run := by
  refine heeds_load (fun s => ?_) ⟨_, rfl⟩
  cases s.cursor? with
  | some c => exact (heeds_apart (calls_require _ _)).bind fun _ => heeds_advance c
  | none => trivial

theorem heeds_rebuildFrom (limit : Nat) (r : RebuildStep) :
    Heeds x.keys.state (x.rebuildFrom limit r).run := by
  induction limit generalizing r with
  | zero => cases r <;> exact heeds_pure _
  | succ limit ih =>
    cases r with
    | completed s => exact heeds_pure _
    | progress c => exact (heeds_continueRebuild c.run).bind ih

end Indexer

/-! ## Rebuilds -/

/-- The calls that make or continue a rebuild; what they yield is left out. -/
inductive RebuildCall where
  | step (scopes : List String)
  | whole (limit : Nat) (scopes : List String)

/-- The operation of a call. -/
def RebuildCall.action (x : Indexer) : RebuildCall → Action Unit
  | .step scopes => do
    let _ ← x.rebuildStep scopes
  | .whole limit scopes => do
    let _ ← x.rebuild limit scopes

open Indexer in
/-- A rebuild looks at the record, and heeds it from then on. -/
theorem RebuildCall.heeds (x : Indexer) (op : RebuildCall) :
    ∃ rest, (op.action x).run = .call (.store (.get x.keys.state)) rest ∧
      ∀ a, Heeds x.keys.state (rest a) := by
  have first (scopes : List String) : ∃ f, x.rebuildStep scopes = x.loadState >>= f ∧
      ∀ s, Heeds x.keys.state (f s).run := by
    refine ⟨_, rfl, fun s => ?_⟩
    cases s.cursor? with
    | some c => exact (heeds_apart (calls_resume x c).apart).bind fun _ => heeds_advance c
    | none => exact (heeds_startRebuild scopes).bind fun c => heeds_advance c
  cases op with
  | step scopes =>
    obtain ⟨f, hx, hf⟩ := first scopes
    rw [action, hx, bind_assoc, loadState_bind_run]
    exact ⟨_, rfl, fun a => heeds_afterLoad (fun s => (hf s).bind fun _ => heeds_pure ()) _⟩
  | whole limit scopes =>
    obtain ⟨f, hx, hf⟩ := first scopes
    rw [action, rebuild, hx, bind_assoc, bind_assoc, loadState_bind_run]
    exact ⟨_, rfl, fun a => heeds_afterLoad (fun s => (hf s).bind fun r =>
      (heeds_rebuildFrom limit r).bind fun _ => heeds_pure ()) _⟩

end ContentIndex
