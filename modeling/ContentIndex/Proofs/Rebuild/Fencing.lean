import ContentIndex.Proofs.Indexer.Success
import ContentIndex.Proofs.Indexer.Trace

/-
  Steps of a rebuild beside other tasks. Before each call of a step, other tasks may store any
  state record (`contested`). The last thing that a step does before it writes the record is to
  look at it, and what it then finds decides: unless the record names the step's own rebuild, the
  step ends there, cancelled, and leaves the record as it found it. So no step writes over
  the record of another rebuild, of a cancel or of a completion that it could have seen.
-/

namespace ContentIndex

open ContentIndex.Action
open Program (runs_bind_ok runs_call_iff runs_done_iff)

/-- What a call and its answer make of the text under a key when, before it, other tasks may have
stored any text or removed it. -/
def contested (key : String) : Effect surroundings (Option String) := fun _ e t' =>
  ∃ t, recorded key t e t'

/-- A look at a record, and what it showed. -/
def look (key : String) (text : Option String) : Event surroundings :=
  ⟨.store (.get key), .ok text⟩

/-- A call other than a look at a record. -/
def NoLook (key : String) (c : IndexerCall) : Prop := c ≠ .store (.get key)

/-- A record says that a rebuild is running. -/
def IndexState.Names (run : RunId) (text : Option String) : Prop :=
  ∃ s, ofRecord? text = .ok s ∧ s.isRun run = true

/-! ## Steps -/

/-- The ways to make a step: as the next step of the host, or in a whole rebuild. -/
inductive StepCall where
  | step (scopes : List String)
  | continued (run : RunId)

namespace StepCall

def action (x : Indexer) : StepCall → Action RebuildStep
  | .step scopes => x.rebuildStep scopes
  | .continued run => x.continueRebuild run

end StepCall

/-- The id that was given to a new rebuild. -/
def Event.newRun? : Event surroundings → Option RunId
  | ⟨.newRun, run⟩ => some run
  | _ => none

/-- The rebuild of a step: the one that it was to continue, the one that it found recorded, or the
one that it has begun. -/
def StepCall.run? (op : StepCall) (es : List (Event surroundings)) : Option RunId :=
  match op, es with
  | .continued run, _ => some run
  | .step _, ⟨.store (.get _), .ok text⟩ :: es =>
    match (IndexState.ofRecord? text).toOption.bind (·.cursor?) with
    | some c => some c.run
    | none => es.findSome? Event.newRun?
  | .step _, _ => none

/-- All calls have succeeded. -/
def AllSucceed (keys : RecordKeys) (es : List (Event surroundings)) : Prop :=
  ∀ e ∈ es, e.succeeds keys = true

theorem AllSucceed.tail {keys : RecordKeys} {e : Event surroundings}
    {es : List (Event surroundings)} (h : AllSucceed keys (e :: es)) : AllSucceed keys es :=
  fun e he => h e (List.mem_cons_of_mem _ he)

theorem AllSucceed.right {keys : RecordKeys} {es es' : List (Event surroundings)}
    (h : AllSucceed keys (es ++ es')) : AllSucceed keys es' :=
  fun e he => h e (List.mem_append_right _ he)

/-- There is a last look at the record, and unless it showed that the rebuild is running, nothing
was called after it, the step was cancelled, and the record is still what was seen. -/
def Fenced (key : String) (run : RunId) (es : List (Event surroundings))
    (r : Except IndexError RebuildStep) (t' : Option String) : Prop :=
  ∃ before text after, es = before ++ look key text :: after ∧ (∀ e ∈ after, NoLook key e.call) ∧
    (¬ IndexState.Names run text → after = [] ∧ r = .error .cancelled ∧ t' = text)

theorem Fenced.prepend {key : String} {run : RunId} {es : List (Event surroundings)}
    {r : Except IndexError RebuildStep} {t' : Option String} (h : Fenced key run es r t')
    (es₀ : List (Event surroundings)) : Fenced key run (es₀ ++ es) r t' := by
  obtain ⟨before, text, after, rfl, h⟩ := h
  exact ⟨es₀ ++ before, text, after, (List.append_assoc _ _ _).symm, h⟩

namespace Indexer

variable {x : Indexer} {c : Cursor} {run : RunId} {t t' : Option String}
  {es : List (Event surroundings)} {α : Type}

/-- The operation runs while other tasks store state records between its calls. -/
abbrev RunsBeside (x : Indexer) (a : Action α) (t : Option String)
    (es : List (Event surroundings)) (r : Except IndexError α) (t' : Option String) : Prop :=
  Program.Runs (contested x.keys.state) a.run t es r t'

/-- After a look at a record that can be read, an operation goes on with what it says. -/
theorem runs_of_look {f : IndexState → Action α} {r : Except IndexError α} {text : Option String}
    {s : IndexState} (h : x.RunsBeside (x.loadState >>= f) t (look x.keys.state text :: es) r t')
    (hs : IndexState.ofRecord? text = .ok s) : x.RunsBeside (f s) text es r t' := by
  unfold RunsBeside at h
  rw [loadState_bind_run] at h
  obtain ⟨a, t₁, es', hes, ⟨t₀, he⟩, h⟩ := runs_call_iff.mp h
  cases hes
  obtain ⟨rfl, htext⟩ := he
  obtain rfl := htext rfl
  have shown : loaded (.ok text) = .ok s := by
    rw [loaded, hs]
    rfl
  rwa [shown] at h

/-- An operation that begins with a look has made it, if its calls succeed. -/
theorem runs_look_bind {f : IndexState → Action α} {r : Except IndexError α}
    (h : x.RunsBeside (x.loadState >>= f) t es r t') (hes : AllSucceed x.keys es) :
    ∃ text s es', es = look x.keys.state text :: es' ∧ IndexState.ofRecord? text = .ok s ∧
      x.RunsBeside (f s) text es' r t' := by
  have first := h
  unfold RunsBeside at first
  rw [loadState_bind_run] at first
  obtain ⟨a, t₁, es', rfl, -, -⟩ := runs_call_iff.mp first
  have succeeds := hes _ List.mem_cons_self
  cases a with
  | error e => cases succeeds
  | ok text =>
    have readable := (Bool.and_eq_true_iff.mp succeeds).1
    obtain ⟨s, hs⟩ := exists_ok_of_isOk (r := IndexState.ofRecord? text) (by simpa using readable)
    exact ⟨text, s, es', rfl, hs, runs_of_look h hs⟩

/-! ## The last look -/

/-- When all its calls succeed, the operation is fenced. -/
def Fences (x : Indexer) (run : RunId) (a : Action RebuildStep) : Prop :=
  ∀ ⦃t es r t'⦄, x.RunsBeside a t es r t' → AllSucceed x.keys es →
    Fenced x.keys.state run es r t'

theorem Fences.bind {a : Action α} {f : α → Action RebuildStep} (ha : a.Reliable x.keys)
    (hf : ∀ v, x.Fences run (f v)) : x.Fences run (a >>= f) := by
  intro t es r t' h hes
  obtain ⟨v, t₁, es₁, es₂, rfl, -, -, h⟩ := Program.Succeeds.runs_bind ha h hes
  exact (hf v h hes.right).prepend es₁

/-- What is done only while the rebuild is the recorded one, without another look. -/
theorem fences_requireRun {f : Unit → Action RebuildStep}
    (hf : (f ()).Calls (NoLook x.keys.state)) : x.Fences run (x.requireRun run >>= f) := by
  intro t es r t' h hes
  unfold requireRun at h
  rw [bind_assoc] at h
  obtain ⟨text, s, es', rfl, hs, h⟩ := runs_look_bind h hes
  cases hrun : s.isRun run with
  | true =>
    rw [hrun] at h
    refine ⟨[], text, es', rfl, (Program.Always.of_runs hf h).1, fun hno => ?_⟩
    exact absurd ⟨s, hs, hrun⟩ hno
  | false =>
    rw [hrun] at h
    obtain ⟨rfl, rfl, rfl⟩ := runs_done_iff.mp h
    exact ⟨[], _, [], rfl, fun e he => absurd he List.not_mem_nil, fun _ => ⟨rfl, rfl, rfl⟩⟩

theorem noLook_save {s : IndexState} {v : RebuildStep} :
    (x.saveState s >>= fun _ => pure v).Calls (NoLook x.keys.state) :=
  (calls_saveState (P := NoLook x.keys.state) x nofun).bind fun _ => calls_pure v

theorem fences_persist {v : RebuildStep} (hc : c.run = run) :
    x.Fences run (x.persist c >>= fun _ => pure v) := by
  unfold persist
  rw [bind_assoc, hc]
  exact fences_requireRun noLook_save

/-- The end of a scope, be it the last one. -/
theorem fences_completeScope (x : Indexer) (c : Cursor) :
    x.Fences c.run (x.completeScope c) := by
  refine Fences.bind (reliable_reportFailures x c) fun _ => ?_
  cases c.scopes[1]? with
  | some s =>
    refine Fences.bind (reliable_count _) fun total => ?_
    exact Fences.bind (reliable_recreateIndex x _) fun _ => fences_persist rfl
  | none =>
    exact fences_requireRun <|
      (calls_ask (P := NoLook x.keys.state) (c := .now) nofun).bind fun now => noLook_save

/-- A page, or the end of the scope. -/
theorem fences_advance (x : Indexer) (c : Cursor) : x.Fences c.run (x.advance c) := by
  refine Fences.bind (reliable_listIds _) fun ids => ?_
  split
  · exact fences_completeScope x c
  · refine Fences.bind (reliable_bulkInto x _ _ ids) fun o => ?_
    refine Fences.bind (reliable_ask _) fun _ => Fences.bind (reliable_ask _) fun _ => ?_
    exact Fences.bind (reliable_ask _) fun _ => fences_persist rfl

/-! ## Whole steps -/

theorem no_newRun {a : Action α} {r : Except IndexError α} (ha : a.Calls (· ≠ .newRun))
    (h : x.RunsBeside a t es r t') : es.findSome? Event.newRun? = none := by
  refine List.findSome?_eq_none_iff.mpr fun e he => ?_
  have other := (Program.Always.of_runs ha h).1 e he
  obtain ⟨c, a⟩ := e
  cases c with
  | newRun => exact absurd rfl other
  | _ => rfl

/-- A new rebuild has the id that it was given. -/
theorem newRun_of_startRebuild {scopes : List String}
    (h : x.RunsBeside (x.startRebuild scopes) t es (.ok c) t') :
    es.findSome? Event.newRun? = some c.run := by
  obtain ⟨u, t₁, es₁, es₂, rfl, h₁, h⟩ := runs_bind_ok h
  obtain ⟨u, t₂, es₃, es₄, rfl, h₂, h⟩ := runs_bind_ok h
  obtain ⟨total, t₃, es₅, es₆, rfl, h₃, h⟩ := runs_bind_ok h
  obtain ⟨given, t₄, es₇, es₈, rfl, h₄, h⟩ := runs_bind_ok h
  obtain ⟨now, t₅, es₉, es₁₀, rfl, -, h⟩ := runs_bind_ok h
  obtain ⟨u, t₆, es₁₁, es₁₂, rfl, -, h⟩ := runs_bind_ok h
  obtain ⟨-, hc, -⟩ := runs_done_iff.mp h
  cases hc
  obtain ⟨a, t₇, es₁₃, rfl, -, h₄⟩ := runs_call_iff.mp h₄
  obtain ⟨rfl, ha, -⟩ := runs_done_iff.mp h₄
  cases ha
  have made : (x.recreateIndex scopes.head?).Calls (Sends x.keys (·.remakes = true)) :=
    sends_recreateIndex x _
  have none₁ := no_newRun (made.mono (fun c hc e => by rw [e] at hc; exact hc) fun _ => id) h₁
  have none₂ := no_newRun (calls_stored Ledger.always_clear fun _ _ => nofun) h₂
  have none₃ := no_newRun (calls_count nofun) h₃
  rw [List.findSome?_append, List.findSome?_append, List.findSome?_append, none₁, none₂, none₃]
  rfl

/-- A whole step first looks whether a rebuild is recorded. -/
theorem fenced_rebuildStep {scopes : List String} {r : Except IndexError RebuildStep}
    (h : x.RunsBeside (x.rebuildStep scopes) t es r t') (hes : AllSucceed x.keys es) :
    ∃ run, (StepCall.step scopes).run? es = some run ∧ Fenced x.keys.state run es r t' := by
  obtain ⟨text, s, es₁, rfl, hs, h⟩ := runs_look_bind h hes
  have hes₁ : AllSucceed x.keys es₁ := hes.tail
  have recorded : (IndexState.ofRecord? text).toOption.bind (·.cursor?) = s.cursor? := by
    rw [hs]
    rfl
  cases hc : s.cursor? with
  | some c =>
    simp only [hc] at h recorded
    refine ⟨c.run, by simp [StepCall.run?, look, recorded], ?_⟩
    exact (Fences.bind (reliable_resume x c) (fun _ => fences_advance x c) h hes₁).prepend [_]
  | none =>
    simp only [hc] at h recorded
    obtain ⟨c, t₂, es₂, es₃, rfl, -, h₂, h₃⟩ :=
      Program.Succeeds.runs_bind (reliable_startRebuild x scopes) h hes₁
    refine ⟨c.run, ?_, ?_⟩
    · simp [StepCall.run?, look, recorded, List.findSome?_append, newRun_of_startRebuild h₂]
    · exact ((fences_advance x c h₃ hes₁.right).prepend es₂).prepend [_]

/-- A step that continues a rebuild looks first whether it is still the recorded one, and does
nothing else if it is not. -/
theorem runs_continueRebuild_foreign {text : Option String} {s : IndexState}
    {r : Except IndexError RebuildStep}
    (h : x.RunsBeside (x.continueRebuild run) t (look x.keys.state text :: es) r t')
    (hs : IndexState.ofRecord? text = .ok s) (hrun : s.isRun run = false) :
    es = [] ∧ r = .error .cancelled ∧ t' = text := by
  have h := runs_of_look h hs
  cases hc : s.cursor? with
  | none =>
    simp only [hc] at h
    exact runs_done_iff.mp h
  | some c =>
    have other : (c.run == run) = false := by simpa [IndexState.isRun, hc] using hrun
    simp only [hc, other] at h
    exact runs_done_iff.mp h

theorem fenced_continueRebuild {r : Except IndexError RebuildStep}
    (h : x.RunsBeside (x.continueRebuild run) t es r t') (hes : AllSucceed x.keys es) :
    Fenced x.keys.state run es r t' := by
  have steps := h
  obtain ⟨text, s, es', rfl, hs, h⟩ := runs_look_bind h hes
  cases hrun : s.isRun run with
  | false =>
    obtain ⟨rfl, hr, ht⟩ := runs_continueRebuild_foreign steps hs hrun
    exact ⟨[], text, [], rfl, fun e he => absurd he List.not_mem_nil, fun _ => ⟨rfl, hr, ht⟩⟩
  | true =>
    cases hc : s.cursor? with
    | none => simp [IndexState.isRun, hc] at hrun
    | some c =>
      have same : c.run = run := by simpa [IndexState.isRun, hc] using hrun
      subst same
      simp only [hc, beq_self_eq_true] at h
      exact (fences_advance x c h hes.tail).prepend [_]

/-- A step of a rebuild beside other tasks, which may store any record before each of its calls.
If its own calls succeed, there is a last look at the record, and what it finds decides: unless
it says that the rebuild of the step is running, the step makes no other call and is cancelled,
and the record is the one that was found. A step that is to continue a rebuild makes no call
after its first look, if that shows that another rebuild is running or none. -/
theorem foreign_record_fences (x : Indexer) (op : StepCall) {t t' : Option String}
    {es : List (Event surroundings)} {r : Except IndexError RebuildStep}
    (h : x.RunsBeside (op.action x) t es r t') :
    (AllSucceed x.keys es →
      ∃ run, op.run? es = some run ∧ Fenced x.keys.state run es r t') ∧
    ∀ run text s es', op = .continued run → es = look x.keys.state text :: es' →
      IndexState.ofRecord? text = .ok s → s.isRun run = false →
      es' = [] ∧ r = .error .cancelled ∧ t' = text := by
  constructor
  · intro hes
    cases op with
    | step scopes => exact fenced_rebuildStep h hes
    | continued run => exact ⟨run, rfl, fenced_continueRebuild h hes⟩
  · rintro run text s es' rfl rfl hs hrun
    exact runs_continueRebuild_foreign h hs hrun

end Indexer

/-! ## A step that is overtaken -/

namespace World

variable {E α : Type} {engine : EngineModel E}

/-- An operation that is performed in a world runs beside an engine that may store records. -/
theorem perform_runs_beside (x : Indexer) (a : Action α) (w : World E) :
    x.RunsBeside a (w.record x.keys.state) (w.events engine a) (w.perform engine a).1
      ((w.perform engine a).2.record x.keys.state) := by
  have handled (c : IndexerCall) (w : World E) : contested x.keys.state (w.record x.keys.state)
      ⟨c, (w.handle engine c).1⟩ ((w.handle engine c).2.record x.keys.state) := by
    cases c with
    | store c => exact ⟨_, w.memory.recorded_handle x.keys.state c⟩
    | _ => exact ⟨_, rfl⟩
  rw [perform, Program.run_eq_trace]
  exact Program.runs_trace (·.record x.keys.state) handled a.run w

/-- An engine beside which another task cancels the recorded rebuild when an index is made. -/
def cancelling : EngineModel Unit := fun r w =>
  ((accepting r w).1,
    if r.method == .put && (w.record plain.keys.state).isSome then
      { w with memory.records :=
          w.memory.records.insert plain.keys.state IndexState.cancelled.text }
    else w)

/-- A step begins a rebuild, finds the first scope empty and makes the index of the second one.
The cancel that was stored meanwhile stays. -/
theorem cancel_fences_next_scope :
    ∃ run, (StepCall.step ["a", "b"]).run?
        (firstEmpty.events cancelling (plain.rebuildStep ["a", "b"])) = some run ∧
      Fenced plain.keys.state run (firstEmpty.events cancelling (plain.rebuildStep ["a", "b"]))
        (.error .cancelled) (some IndexState.cancelled.text) := by
  have runs := @perform_runs_beside _ _ cancelling plain (plain.rebuildStep ["a", "b"]) firstEmpty
  have seen : (firstEmpty.events cancelling (plain.rebuildStep ["a", "b"])).all
        (·.succeeds plain.keys) = true ∧
      (firstEmpty.perform cancelling (plain.rebuildStep ["a", "b"])).1 = .error .cancelled ∧
      (firstEmpty.perform cancelling (plain.rebuildStep ["a", "b"])).2.record plain.keys.state =
        some IndexState.cancelled.text := by
    decide +kernel
  rw [seen.2.1, seen.2.2] at runs
  exact (Indexer.foreign_record_fences plain (.step ["a", "b"]) runs).1
    (List.all_eq_true.mp seen.1)

end World
end ContentIndex
