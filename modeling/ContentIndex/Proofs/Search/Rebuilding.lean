import ContentIndex.Proofs.Search.ReadsOff

/-
  Searches while an index is rebuilt. Until the rebuild is completed, a search falls back as soon
  as a state record has been stored, by the rebuild or by a cancel, and not before
  (`no_search_indexed_iff`). The index is emptied before the record is stored: in between, and
  for good if the start fails there, searches are answered from the empty index
  (`search_indexed_after_failed_start`).
-/

namespace ContentIndex

open ContentIndex.Action
open IndexState (cancelled ofRecord?)

/-- The record of a running, completed or cancelled rebuild. -/
def ControlText (text : String) : Prop :=
  RebuildText text ∨ text = cancelled.text

/-- Without turning reads on, all operations write such records. -/
theorem Writer.calls_control (x : Indexer) (op : Writer) (hop : op ≠ .enableReads) :
    (op.action x).Calls (Writes x.keys.state ControlText) := by
  cases op with
  | rebuild op => exact op.calls_writes x fun text => .inl
  | cancel => exact Indexer.calls_saveState x fun _ => .inr rfl
  | enableReads => exact absurd rfl hop

/-- A record of these that is not that of a completed rebuild bars searches. -/
theorem ControlText.barred {text : String} (h : ControlText text)
    (hc : ∀ now n, text ≠ (IndexState.completed now n).text) : Barred (.ok (some text)) := by
  intro s hs
  rcases h with (⟨c, rfl⟩ | ⟨now, n, rfl⟩) | rfl
  · obtain rfl := IndexState.eq_of_ofRecord?_text hs
    exact .inl rfl
  · exact absurd rfl (hc now n)
  · obtain rfl := IndexState.eq_of_ofRecord?_text hs
    exact .inr rfl

/-- Steps, whole rebuilds and cancels, however their calls are interleaved and whatever they are
answered, from a record that lets searches pass on. As long as no rebuild has been completed, no
search is answered from the index exactly if a state record has been stored. -/
theorem no_search_indexed_iff (x : Indexer) {t₀ t : Option String} {s₀ : IndexState}
    (h₀ : ofRecord? t₀ = .ok s₀) (hrun : s₀.isRunning = false) (hread : s₀.readEnabled = true)
    {es : List (Event surroundings)} {ps : List Task}
    (h : Reachable x.keys (· ≠ .enableReads) t₀ es t ps)
    (hc : ∀ text ∈ storedTexts x.keys.state es, ∀ now n,
      text ≠ (IndexState.completed now n).text)
    (q : Query.Request) (privileged : Bool) :
    (∀ es' o t', x.Runs (x.search q privileged) t es' o t' → ∀ r, o ≠ .ok (.indexed r)) ↔
      storedTexts x.keys.state es ≠ [] := by
  obtain ⟨hstored, ht, -⟩ := h.stored_good fun y hy op hop => hy ▸ op.calls_control y hop
  cases hs : storedTexts x.keys.state es with
  | nil =>
    rw [hs] at ht
    obtain ⟨es', r, hr⟩ := Indexer.search_passes x q privileged (t := t) (ht ▸ h₀) hrun hread
    exact ⟨fun h => absurd rfl (h es' _ _ hr r), fun h => absurd rfl h⟩
  | cons text rest =>
    have htext : text ∈ storedTexts x.keys.state es := hs ▸ List.mem_cons_self
    have barred := (hstored text htext).barred (hc text htext)
    rw [hs] at ht
    refine ⟨fun _ => List.cons_ne_nil _ _, fun _ es' o t' hr r ho => ?_⟩
    obtain ⟨f, hf⟩ := Indexer.search_falls_back hr (ht ▸ barred)
    rw [hf] at ho
    cases ho

/-- A record that is read as that of a running rebuild is none of a completed one. -/
theorem ne_completed_of_running {text : String} {s : IndexState}
    (hs : ofRecord? (some text) = .ok s) (hr : s.isRunning = true) (now : Calendar.Moment)
    (n : UInt64) : text ≠ (IndexState.completed now n).text := by
  rintro rfl
  obtain rfl := IndexState.eq_of_ofRecord?_text hs
  cases hr

/-- A rebuild that has begun has stored a record, and no search is answered from the index. -/
theorem no_search_indexed_after_start :
    ∃ es t ps, Reachable World.plain.keys (· ≠ .enableReads) none es t ps ∧
      storedTexts World.plain.keys.state es ≠ [] ∧
      ∀ es' o t', World.plain.Runs (World.plain.search {} false) t es' o t' →
        ∀ r, o ≠ .ok (.indexed r) := by
  obtain ⟨es, runs, one⟩ := World.runs_start_oneGone
  obtain ⟨q, h⟩ : ∃ q, Reachable World.plain.keys (· ≠ .enableReads) none _ _ [q] :=
    reachable_started World.plain ["a"] nofun (s := {}) rfl rfl runs
  obtain ⟨text, stored⟩ : ∃ text, storedTexts World.plain.keys.state
      (es.reverse ++ [⟨.store (.get World.plain.keys.state), .ok none⟩]) = [text] := by
    refine List.length_eq_one_iff.mp ?_
    rw [storedTexts, List.filterMap_append, List.filterMap_reverse, List.length_append,
      List.length_reverse]
    exact congrArg (· + 0) one
  obtain ⟨-, last, -⟩ := h.stored_good fun y hy op hop => hy ▸ op.calls_control y hop
  rw [stored] at last
  have running : text = (IndexState.running World.begun).text := (Option.some.inj last).symm
  have absent : ofRecord? none = .ok {} := rfl
  have nonempty := stored ▸ List.cons_ne_nil _ []
  refine ⟨_, _, _, h, nonempty,
    (no_search_indexed_iff World.plain absent rfl rfl h ?_ {} false).mpr nonempty⟩
  intro text ht
  rw [stored] at ht
  rw [List.mem_singleton.mp ht, running]
  exact ne_completed_of_running (IndexState.ofRecord?_text (.running World.begun)) rfl

/-- The index at a path was made anew: the request that puts its mapping was accepted. -/
def Event.makesIndex (path : String) : Event surroundings → Bool
  | ⟨.engine r, .ok answer⟩ => r.method == .put && r.path == path && answer.isSuccess
  | _ => false

/-- A world whose items cannot be counted. -/
def uncounted : World Unit := { engine := (), catalogue := { unlisted := true } }

/-- When the count of the items fails, the index was made anew, the step has failed, no record was
stored, and searches are answered from the empty index. -/
theorem search_indexed_after_failed_start :
    ¬ ∀ es t ps, Reachable World.plain.keys (· ≠ .enableReads) none es t ps →
      (∃ e ∈ es, e.makesIndex World.plain.paths.index = true) →
      (∀ text ∈ storedTexts World.plain.keys.state es, ∀ now n,
        text ≠ (IndexState.completed now n).text) →
      ∀ q privileged es' o t', World.plain.Runs (World.plain.search q privileged) t es' o t' →
        ∀ r, o ≠ .ok (.indexed r) := by
  intro claim
  have h : Reachable World.plain.keys (· ≠ .enableReads) none _ _ _ :=
    reachable_perform World.plain (.rebuild (.step [])) nofun uncounted
      (World.accepting_record _)
  have put : (uncounted.events World.accepting
      ((Writer.rebuild (.step [])).action World.plain)).reverse.any
        (·.makesIndex World.plain.paths.index) = true := by
    decide +kernel
  have stored : storedTexts World.plain.keys.state (uncounted.events World.accepting
      ((Writer.rebuild (.step [])).action World.plain)).reverse = [] := by
    decide +kernel
  have unchanged : (uncounted.perform World.accepting
      ((Writer.rebuild (.step [])).action World.plain)).2.record World.plain.keys.state =
        none := by
    decide +kernel
  obtain ⟨es', r, hr⟩ :=
    Indexer.search_passes World.plain {} false (t := none) (s := {}) rfl rfl rfl
  rw [← unchanged] at hr
  refine claim _ _ _ h (List.any_eq_true.mp put) ?_ {} false es' _ _ hr r rfl
  rw [stored]
  exact fun text ht => by cases ht

end ContentIndex
