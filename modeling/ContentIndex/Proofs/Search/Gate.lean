import ContentIndex.Indexer.Search
import ContentIndex.Proofs.Indexer.StateRecord

/-
  The gate of a search. A search looks at the state record first; what it finds there either bars
  it, and then it falls back without a request, or lets it pass, and then its outcome is that of
  the answer of the engine to its one request.
-/

namespace ContentIndex

open Query (Request SearchResults)
open Program (runs_call_iff runs_done_iff)

/-- The store failed, or what it holds is no record, or says that a rebuild is running or that
reads are off. -/
def Barred : Except StoreError (Option String) → Prop
  | .error _ => True
  | .ok text => ∀ s, IndexState.ofRecord? text = .ok s → s.isRunning = true ∨ s.readEnabled = false

namespace Indexer

/-- What a search does after its look at the state record. -/
def answered (x : Indexer) (q : Request) (privileged : Bool) :
    Option Fallback → Program surroundings (Except IndexError SearchOutcome)
  | some f =>
    .call (.measure (.search (SearchOutcome.fallback f).label)) fun _ => .done (.ok (.fallback f))
  | none =>
    .call .now fun now => .call (.engine (x.searchRequest q privileged now)) fun answer =>
      .call (.measure (.timed "search")) fun _ =>
        .call (.measure (.search (SearchOutcome.ofAnswer answer).label)) fun _ =>
          .done (.ok (.ofAnswer answer))

theorem search_run (x : Indexer) (q : Request) (privileged : Bool) :
    (x.search q privileged).run = .call (.store (.get x.keys.state)) fun a =>
      x.answered q privileged (SearchOutcome.bar? (loaded a)) := by
  have goes_on (r : Except IndexError IndexState) :
      (do
        let outcome ←
          match SearchOutcome.bar? (← Action.result (ExceptT.mk (.done r))) with
          | some f => pure (.fallback f)
          | none => do
            let now ← Action.ask .now
            let answer ← Action.send (x.searchRequest q privileged now)
            Action.measure (.timed "search")
            pure (.ofAnswer answer)
        Action.measure (.search outcome.label)
        return outcome : Action SearchOutcome).run =
          x.answered q privileged (SearchOutcome.bar? r) := by
    cases r with
    | error e => rfl
    | ok s =>
      obtain ⟨p, b⟩ := s
      cases p <;> cases b <;> rfl
  rw [search, Action.result, loadState_run]
  exact congrArg (Program.call (I := surroundings) _) (funext fun a => goes_on (loaded a))

variable {x : Indexer} {q : Request} {privileged : Bool}

/-- What bars a search makes it fall back. -/
theorem bar?_of_barred {a : Except StoreError (Option String)} (h : Barred a) :
    ∃ f, SearchOutcome.bar? (loaded a) = some f := by
  cases ha : loaded a with
  | error e => exact ⟨_, rfl⟩
  | ok s =>
    obtain ⟨text, rfl, hs⟩ := loaded_eq_ok ha
    rcases h s hs with hr | hr
    · exact ⟨.rebuilding, by rw [SearchOutcome.bar?, if_pos hr]⟩
    · cases hrun : s.isRunning with
      | true => exact ⟨.rebuilding, by rw [SearchOutcome.bar?, if_pos hrun]⟩
      | false => exact ⟨.readsOff, by simp [SearchOutcome.bar?, hrun, hr]⟩

/-- A search looks at the record first. If that bars it, it sends no request and falls back. -/
theorem search_barred {σ : Type} {E : Effect surroundings σ} {s s' : σ}
    {es : List (Event surroundings)} {o : Except IndexError SearchOutcome}
    (h : Program.Runs E (x.search q privileged).run s es o s') :
    ∃ a rest, es = ⟨.store (.get x.keys.state), a⟩ :: rest ∧
      (Barred a → (∀ e ∈ es, ∀ r, e.call ≠ .engine r) ∧ ∃ f, o = .ok (.fallback f)) := by
  rw [search_run] at h
  obtain ⟨a, s₁, es₁, rfl, -, h⟩ := runs_call_iff.mp h
  refine ⟨a, es₁, rfl, fun ha => ?_⟩
  obtain ⟨f, hf⟩ := bar?_of_barred ha
  rw [hf] at h
  obtain ⟨u, s₂, es₂, rfl, -, h⟩ := runs_call_iff.mp h
  obtain ⟨rfl, rfl, -⟩ := runs_done_iff.mp h
  refine ⟨fun e he r => ?_, f, rfl⟩
  rcases List.mem_cons.mp he with rfl | he
  · exact nofun
  · cases List.mem_singleton.mp he
    exact nofun

/-- A search that finds a record that bars it falls back, also if the store fails. -/
theorem search_falls_back {t t' : Option String} {es : List (Event surroundings)}
    {o : Except IndexError SearchOutcome} (h : x.Runs (x.search q privileged) t es o t')
    (ht : Barred (.ok t)) : ∃ f, o = .ok (.fallback f) := by
  obtain ⟨a, rest, rfl, hbarred⟩ := search_barred h
  unfold Runs at h
  rw [search_run] at h
  obtain ⟨a', t₁, es', he, hrec, -⟩ := runs_call_iff.mp h
  cases he
  cases a with
  | error e => exact (hbarred trivial).2
  | ok text =>
    rw [hrec.2 rfl] at hbarred
    exact (hbarred ht).2

/-- A search that finds a record that lets it pass can be answered from the index. -/
theorem search_passes (x : Indexer) (q : Request) (privileged : Bool) {t : Option String}
    {s : IndexState} (hs : IndexState.ofRecord? t = .ok s) (hrun : s.isRunning = false)
    (hread : s.readEnabled = true) :
    ∃ es r, x.Runs (x.search q privileged) t es (.ok (.indexed r)) t := by
  let answer : Except Engine.TransportError Engine.Response :=
    .ok { status := 200, body := "\x7b\x7d" }
  obtain ⟨r, hr⟩ : ∃ r, SearchOutcome.ofAnswer answer = .indexed r := ⟨_, rfl⟩
  have passes : SearchOutcome.bar? (loaded (.ok t)) = none := by
    rw [loaded, hs]
    show SearchOutcome.bar? (.ok s) = none
    simp [SearchOutcome.bar?, hrun, hread]
  have request : Program.Runs (recorded x.keys.state) (x.answered q privileged none) t
      [⟨.now, Calendar.Moment.epoch⟩,
        ⟨.engine (x.searchRequest q privileged Calendar.Moment.epoch), answer⟩,
        ⟨.measure (.timed "search"), ()⟩,
        ⟨.measure (.search (SearchOutcome.ofAnswer answer).label), ()⟩]
      (.ok (.ofAnswer answer)) t :=
    .call rfl (.call rfl (.call rfl (.call rfl (.refl _ _))))
  rw [hr, ← passes] at request
  have look : Program.Runs (recorded x.keys.state)
      (.call (.store (.get x.keys.state)) fun a =>
        x.answered q privileged (SearchOutcome.bar? (loaded a)))
      t (⟨.store (.get x.keys.state), .ok t⟩ :: _) (.ok (.indexed r)) t :=
    .call ⟨rfl, fun _ => rfl⟩ request
  rw [← search_run] at look
  exact ⟨_, r, look⟩

end Indexer
end ContentIndex
