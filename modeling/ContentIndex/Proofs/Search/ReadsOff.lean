import ContentIndex.Proofs.Indexer.Trace
import ContentIndex.Proofs.Rebuild.Tasks
import ContentIndex.Proofs.Search.Gate

/-
  Reads are off while a rebuild is recorded. No operation ever writes the record of a running
  rebuild with reads on, whatever it has loaded before (`Writer.calls_guarded`), so none is ever
  stored, however the calls of all operations are interleaved; and a search that finds the record
  of a running rebuild falls back without a request.
-/

namespace ContentIndex

open ContentIndex.Action
open IndexState (cancelled ofRecord?)

/-- If the record says that a rebuild is running, it also says that reads are off. -/
def Guarded (t : Option String) : Prop :=
  ∀ s, ofRecord? t = .ok s → s.isRunning = true → s.readEnabled = false

theorem guarded_none : Guarded none := by
  intro s hs hr
  cases hs
  cases hr

/-- The text of a record that is guarded. -/
def GuardedText (text : String) : Prop :=
  ∃ s : IndexState, text = s.text ∧ (s.isRunning = true → s.readEnabled = false)

theorem GuardedText.guarded {text : String} (h : GuardedText text) : Guarded (some text) := by
  obtain ⟨s, rfl, h⟩ := h
  intro s' hs' hr
  obtain rfl := IndexState.eq_of_ofRecord?_text hs'
  exact h hr

theorem RebuildText.guarded {text : String} (h : RebuildText text) : GuardedText text := by
  rcases h with ⟨c, rfl⟩ | ⟨now, n, rfl⟩
  · exact ⟨.running c, rfl, fun _ => rfl⟩
  · exact ⟨.completed now n, rfl, nofun⟩

/-- What an operation writes is guarded. -/
theorem Writer.calls_guarded (x : Indexer) (op : Writer) :
    (op.action x).Calls (Writes x.keys.state GuardedText) := by
  cases op with
  | rebuild op => exact op.calls_writes x fun text => RebuildText.guarded
  | cancel => exact Indexer.calls_saveState x fun _ => ⟨cancelled, rfl, nofun⟩
  | enableReads =>
    refine Indexer.calls_enableReads fun s hs => ⟨_, rfl, fun hr => ?_⟩
    have same : ({ s with readEnabled := true } : IndexState).isRunning = s.isRunning := rfl
    rw [same, hs] at hr
    cases hr

/-- However the calls of any number of operations are interleaved, and whatever they are answered,
every state record that is stored is guarded, from a guarded record or none on. A search whose look
at the record shows a running rebuild, or that reads are off, or fails, sends no request and falls
back. -/
theorem reads_off_while_running {keys : RecordKeys} {t₀ : Option String} (h₀ : Guarded t₀) :
    (∀ es t ps, Reachable keys (fun _ => True) t₀ es t ps →
      Guarded t ∧ ∀ text ∈ storedTexts keys.state es, GuardedText text) ∧
    ∀ (x : Indexer) (q : Query.Request) (privileged : Bool) {σ : Type}
      {E : Effect surroundings σ} {s s' : σ} {es : List (Event surroundings)}
      {o : Except IndexError SearchOutcome},
      Program.Runs E (x.search q privileged).run s es o s' →
      ∃ a rest, es = ⟨.store (.get x.keys.state), a⟩ :: rest ∧
        (Barred a → (∀ e ∈ es, ∀ r, e.call ≠ .engine r) ∧ ∃ f, o = .ok (.fallback f)) := by
  refine ⟨fun es t ps h => ?_, fun x q privileged _ _ _ _ _ _ h => Indexer.search_barred h⟩
  obtain ⟨hstored, ht, -⟩ := h.stored_good fun x hx op _ => hx ▸ op.calls_guarded x
  refine ⟨?_, hstored⟩
  rw [ht]
  cases hs : storedTexts keys.state es with
  | nil => exact h₀
  | cons text rest => exact (hstored text (hs ▸ List.mem_cons_self)).guarded

/-- The record of a rebuild that has begun says that it is running, with reads off. -/
theorem reads_off_after_start :
    ∃ es t ps s, Reachable World.plain.keys (fun _ => True) none es t ps ∧
      ofRecord? t = .ok s ∧ s.isRunning = true ∧ s.readEnabled = false := by
  obtain ⟨es, runs, -⟩ := World.runs_start_oneGone
  obtain ⟨q, h⟩ : ∃ q, Reachable World.plain.keys (fun _ => True) none _ _ [q] :=
    reachable_started World.plain ["a"] trivial (s := {}) rfl rfl runs
  have hs := IndexState.ofRecord?_text (.running World.begun)
  exact ⟨_, _, _, _, h, hs, rfl, ((reads_off_while_running guarded_none).1 _ _ _ h).1 _ hs rfl⟩

end ContentIndex
