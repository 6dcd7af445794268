import ContentIndex.Proofs.Indexer.Trace
import ContentIndex.Proofs.Indexer.Traffic
import ContentIndex.Proofs.Progress.Persistence
import ContentIndex.Proofs.Search.Gate

/-
  What a search comes to. The state record either stops it (`Stops`) or lets it pass (`Passes`), and
  then the answer to its one request decides (`Answers`). Together these say for every answer of the
  store and of the engine what the outcome is (`Concludes`), and there is only one
  (`Concludes.unique`). A search has such an outcome in any surroundings, and as it only reads, it
  leaves what is stored alone (`search_concludes`).
-/

namespace ContentIndex

open Calendar (Moment)
open Json (Value)
open Program (runs_call_iff runs_done_iff)
open Query (Request)

/-! ## The table of outcomes -/

/-- What an answer of the store lets a search fall back to, the first reason that applies. -/
inductive Stops : Except StoreError (Option String) → Fallback → Prop
  | failed (e : StoreError) : Stops (.error e) (.stateUnknown (.store e))
  | unreadable {text : Option String} {e : StoreError} :
      IndexState.ofRecord? text = .error e → Stops (.ok text) (.stateUnknown (.store e))
  | rebuilding {text : Option String} {s : IndexState} :
      IndexState.ofRecord? text = .ok s → s.isRunning = true → Stops (.ok text) .rebuilding
  | readsOff {text : Option String} {s : IndexState} :
      IndexState.ofRecord? text = .ok s → s.isRunning = false → s.readEnabled = false →
      Stops (.ok text) .readsOff

/-- The record is there or absent, names no running rebuild, and has reads enabled. -/
def Passes (a : Except StoreError (Option String)) : Prop :=
  ∃ text s, a = .ok text ∧ IndexState.ofRecord? text = .ok s ∧ s.isRunning = false ∧
    s.readEnabled = true

/-- A status of success. -/
def Engine.Response.Accepted (r : Engine.Response) : Prop :=
  200 ≤ r.status.toNat ∧ r.status.toNat ≤ 299

/-- What an answer of the engine makes of a search. -/
inductive Answers : Except Engine.TransportError Engine.Response → SearchOutcome → Prop
  | noAnswer (e : Engine.TransportError) : Answers (.error e) (.fallback (.noAnswer e))
  | indexMissing {r : Engine.Response} :
      r.status.toNat = 404 → Answers (.ok r) (.fallback .indexMissing)
  | refused {r : Engine.Response} :
      ¬ r.Accepted → r.status.toNat ≠ 404 → Answers (.ok r) (.fallback (.refused r.status))
  | unreadable {r : Engine.Response} {e : Engine.TransportError} :
      r.Accepted → Value.parse? r.body = none → r.json = .error e →
      Answers (.ok r) (.fallback (.unreadable e))
  | indexed {r : Engine.Response} {v : Value} :
      r.Accepted → Value.parse? r.body = some v → Answers (.ok r) (.indexed (.read v))

/-- A request that puts the query, as it is compiled at a moment, to the index of the scope. -/
structure Searches (x : Indexer) (q : Request) (privileged : Bool) (now : Moment)
    (r : Engine.Request) : Prop where
  method : r.method = .post
  path : r.path = x.paths.search
  body : r.body = some (Query.compile x.config x.hooks q privileged now).toJson.render

/-- What a search comes to, by the answer of the store, the moments that the clock gave and what was
exchanged with the engine. -/
inductive Concludes (x : Indexer) (q : Request) (privileged : Bool)
    (a : Except StoreError (Option String)) : List Moment → List Exchange → SearchOutcome → Prop
  | stopped {f : Fallback} : Stops a f → Concludes x q privileged a [] [] (.fallback f)
  | answered {now : Moment} {e : Exchange} {o : SearchOutcome} :
      Passes a → Searches x q privileged now e.request → Answers e.answer o →
      Concludes x q privileged a [now] [e] o

/-! ## One outcome -/

theorem Stops.unique {a : Except StoreError (Option String)} {f f' : Fallback} (h : Stops a f)
    (h' : Stops a f') : f' = f := by
  cases h <;> cases h' <;> simp_all

theorem Stops.not_passes {a : Except StoreError (Option String)} {f : Fallback}
    (h : Stops a f) : ¬ Passes a := by
  rintro ⟨text, s, rfl, hs, hrun, hread⟩
  cases h <;> simp_all

theorem Answers.unique {a : Except Engine.TransportError Engine.Response} {o o' : SearchOutcome}
    (h : Answers a o) (h' : Answers a o') : o' = o := by
  have missing {r : Engine.Response} (h : r.status.toNat = 404) : ¬ r.Accepted := by
    rintro ⟨-, h'⟩
    omega
  cases h <;> cases h' <;> simp_all

theorem Concludes.unique {x : Indexer} {q : Request} {privileged : Bool}
    {a : Except StoreError (Option String)} {ms ms' : List Moment} {xs : List Exchange}
    {o o' : SearchOutcome} (h : Concludes x q privileged a ms xs o)
    (h' : Concludes x q privileged a ms' xs o') : o' = o := by
  cases h with
  | stopped hs =>
    cases h' with
    | stopped hs' => rw [hs.unique hs']
  | answered _ _ ho =>
    cases h' with
    | answered _ _ ho' => exact ho.unique ho'

/-- A request is sent exactly if the record lets the search pass. -/
theorem Concludes.sends_iff {x : Indexer} {q : Request} {privileged : Bool}
    {a : Except StoreError (Option String)} {ms : List Moment} {xs : List Exchange}
    {o : SearchOutcome} (h : Concludes x q privileged a ms xs o) :
    (∃ e, xs = [e]) ↔ Passes a := by
  cases h with
  | stopped hs => exact ⟨nofun, fun hp => absurd hp hs.not_passes⟩
  | answered hp _ _ => exact ⟨fun _ => hp, fun _ => ⟨_, rfl⟩⟩

/-! ## The outcome of a search -/

namespace SearchOutcome

/-- What is found in place of a state either stops a search or lets it pass. -/
theorem stops_or_passes (a : Except StoreError (Option String)) :
    (∃ f, bar? (Indexer.loaded a) = some f ∧ Stops a f) ∨
      bar? (Indexer.loaded a) = none ∧ Passes a := by
  cases a with
  | error e => exact .inl ⟨_, rfl, .failed e⟩
  | ok text =>
    unfold Indexer.loaded
    simp only
    cases hs : IndexState.ofRecord? text with
    | error e => exact .inl ⟨_, rfl, .unreadable hs⟩
    | ok s =>
      unfold Except.mapError bar?
      simp only
      cases hrun : s.isRunning with
      | true => exact .inl ⟨_, rfl, .rebuilding hs hrun⟩
      | false =>
        cases hread : s.readEnabled with
        | true => exact .inr ⟨rfl, text, s, rfl, hs, hrun, hread⟩
        | false => exact .inl ⟨_, rfl, .readsOff hs hrun hread⟩

theorem accepted_iff (r : Engine.Response) : r.isSuccess = true ↔ r.Accepted := by
  unfold Engine.Response.isSuccess Engine.Response.Accepted
  rw [Bool.and_eq_true, decide_eq_true_iff, decide_eq_true_iff, UInt16.le_iff_toNat_le,
    UInt16.lt_iff_toNat_lt]
  exact and_congr_right fun _ => Nat.lt_succ_iff

/-- Every answer of the engine makes one thing of a search. -/
theorem answers_ofAnswer (a : Except Engine.TransportError Engine.Response) :
    Answers a (ofAnswer a) := by
  cases a with
  | error e => exact .noAnswer e
  | ok r =>
    unfold ofAnswer
    simp only
    by_cases missing : r.status = 404
    · rw [if_pos missing]
      exact .indexMissing (congrArg UInt16.toNat missing)
    have found : r.status.toNat ≠ 404 := fun h => missing (UInt16.toNat_inj.mp h)
    rw [if_neg missing]
    cases success : r.isSuccess with
    | false =>
      refine .refused (fun h => ?_) found
      rw [(accepted_iff r).mpr h] at success
      cases success
    | true =>
      have accepted := (accepted_iff r).mp success
      cases hv : Value.parse? r.body with
      | some v =>
        have json : r.json = .ok v := by rw [Engine.Response.json, hv]
        rw [json]
        exact .indexed accepted hv
      | none =>
        have json : r.json = .error (.invalidBody "no JSON text") := by
          rw [Engine.Response.json, hv]
        rw [json]
        exact .unreadable accepted hv json

end SearchOutcome

/-! ## Runs -/

/-- A moment that the clock gave. -/
def Event.moment? : Event surroundings → Option Moment
  | ⟨.now, m⟩ => some m
  | _ => none

def moments (es : List (Event surroundings)) : List Moment :=
  es.filterMap Event.moment?

/-- A call that changes nothing in a store. -/
def Reads : IndexerCall → Prop
  | .store (.set _ _) | .store (.delete _) => False
  | _ => True

namespace Indexer

variable {x : Indexer} {q : Request} {privileged : Bool} {σ : Type} {E : Effect surroundings σ}
  {s s' : σ} {es : List (Event surroundings)} {r : Except IndexError SearchOutcome}

theorem runs_answered {a : Except StoreError (Option String)}
    (h : Program.Runs E (x.answered q privileged (SearchOutcome.bar? (loaded a))) s es r s') :
    ∃ o, r = .ok o ∧ es.filter Event.isStore = [] ∧
      Concludes x q privileged a (moments es) (exchanges es) o := by
  rcases SearchOutcome.stops_or_passes a with ⟨f, bars, stops⟩ | ⟨bars, passes⟩
  · rw [bars] at h
    obtain ⟨u, s₁, es₁, rfl, -, rest⟩ := runs_call_iff.mp h
    obtain ⟨rfl, rfl, rfl⟩ := runs_done_iff.mp rest
    exact ⟨.fallback f, rfl, rfl, .stopped stops⟩
  · rw [bars] at h
    obtain ⟨now, s₁, es₁, rfl, -, rest⟩ := runs_call_iff.mp h
    obtain ⟨answer, s₂, es₂, rfl, -, rest⟩ := runs_call_iff.mp rest
    obtain ⟨u, s₃, es₃, rfl, -, rest⟩ := runs_call_iff.mp rest
    obtain ⟨u', s₄, es₄, rfl, -, rest⟩ := runs_call_iff.mp rest
    obtain ⟨rfl, rfl, rfl⟩ := runs_done_iff.mp rest
    have searches : Searches x q privileged now (x.searchRequest q privileged now) :=
      ⟨rfl, rfl, rfl⟩
    exact ⟨.ofAnswer answer, rfl, rfl,
      .answered passes searches (SearchOutcome.answers_ofAnswer answer)⟩

/-- However its calls are answered, a search has an outcome. -/
theorem runs_search (h : Program.Runs E (x.search q privileged).run s es r s') :
    ∃ a o, r = .ok o ∧ es.filter Event.isStore = [⟨.store (.get x.keys.state), a⟩] ∧
      Concludes x q privileged a (moments es) (exchanges es) o := by
  rw [search_run] at h
  obtain ⟨a, s₁, es₁, rfl, -, rest⟩ := runs_call_iff.mp h
  obtain ⟨o, ho, stores, concludes⟩ := runs_answered rest
  exact ⟨a, o, ho, congrArg (List.cons _) stores, concludes⟩

end Indexer

theorem reads_of_stores {key : String} {a : Except StoreError (Option String)}
    {es : List (Event surroundings)}
    (h : es.filter Event.isStore = [⟨.store (.get key), a⟩]) : ∀ e ∈ es, Reads e.call := by
  intro e he
  cases hs : e.isStore with
  | true =>
    have found : e ∈ es.filter Event.isStore := List.mem_filter.mpr ⟨he, hs⟩
    rw [h, List.mem_singleton] at found
    rw [found]
    trivial
  | false =>
    obtain ⟨c, b⟩ := e
    cases c with
    | store c => cases hs
    | _ => trivial

/-- Whatever the store holds and whether or not it answers, whoever asks for what, and whatever the
engine answers: a search looks at the state record once, has the one outcome that the answers call
for, sends its request only if the record lets it pass, and leaves all of its surroundings alone
that calls other than writes leave alone. -/
theorem search_concludes (x : Indexer) (q : Request) (privileged : Bool) {σ : Type}
    (handle : (c : surroundings.Call) → σ → surroundings.Answer c × σ) (s : σ) :
    let run := (x.search q privileged).run.trace handle s
    (∃ a o, run.2.1 = .ok o ∧
      run.1.filter Event.isStore = [⟨.store (.get x.keys.state), a⟩] ∧
      Concludes x q privileged a (moments run.1) (exchanges run.1) o ∧
      (∀ o', Concludes x q privileged a (moments run.1) (exchanges run.1) o' → o' = o) ∧
      ((∃ e, exchanges run.1 = [e]) ↔ Passes a)) ∧
    ∀ {τ : Type} (shown : σ → τ),
      (∀ c s, Reads c → shown (handle c s).2 = shown s) → shown run.2.2 = shown s := by
  intro run
  have runs : Program.Runs (fun s e s' => handle e.call s = (e.answer, s'))
      (x.search q privileged).run s run.1 run.2.1 run.2.2 :=
    Program.runs_trace id (fun _ _ => rfl) _ s
  obtain ⟨a, o, ho, stores, concludes⟩ := Indexer.runs_search runs
  refine ⟨⟨a, o, ho, stores, concludes, fun o' h => concludes.unique h, concludes.sends_iff⟩,
    fun shown kept => ?_⟩
  refine Program.moves_frame (P := Reads) (shown · = shown s) (fun s₁ e s₂ he hs h₁ => ?_) runs
    (reads_of_stores stores) rfl
  have same := kept e.call s₁ he
  rw [hs] at same
  exact same.trans h₁

/-- An engine that accepts the request answers a search, and the records stay. -/
theorem search_concludes_accepted :
    let run := (World.plain.search {} false).run.trace
      (fun c w => w.handle World.accepting c) World.oneGone
    run.2.1 = .ok (.indexed {}) ∧ run.2.2.memory = World.oneGone.memory := by
  intro run
  have reads (c : IndexerCall) (w : World Unit) (h : Reads c) :
      (w.handle World.accepting c).2.memory = w.memory := by
    cases c with
    | store c =>
      cases c with
      | get key => unfold World.handle World.store Memory.handle; split <;> rfl
      | _ => exact h.elim
    | _ => rfl
  obtain ⟨-, kept⟩ := search_concludes World.plain {} false
    (fun c w => w.handle World.accepting c) World.oneGone
  exact ⟨by decide +kernel, kept World.memory reads⟩

end ContentIndex
