import ContentIndex.Proofs.Engine.Indices
import ContentIndex.Proofs.Indexer.FailureRecords
import ContentIndex.Proofs.Rebuild.Step

/-
  Exchanges of the parts of a rebuild. Most parts make none (`Unseen`). Making an index anew sends
  its removal and its creation, each as often as it takes to get an answer, and when it ends
  without an error the index is there and holds nothing (`runs_recreateIndex`).
-/

namespace ContentIndex

open Program (runs_bind_except runs_bind_iff runs_bind_ok runs_call_iff runs_done_iff)

/-! ## Calls that are neither exchanges nor fetches -/

/-- A call that goes neither to the engine nor after an item. -/
def Unseen : IndexerCall → Prop
  | .engine _ | .content (.prepare _) => False
  | _ => True

theorem no_traffic_of_unseen {es : List (Event surroundings)} (h : ∀ e ∈ es, Unseen e.call) :
    exchanges es = [] ∧ fetches es = [] := by
  refine ⟨exchanges_eq_nil fun e he => ?_, fetches_eq_nil fun e he => ?_⟩
  · have hc := h e he
    obtain ⟨c, a⟩ := e
    cases c with
    | engine r => exact hc.elim
    | _ => rfl
  · have hc := h e he
    obtain ⟨c, a⟩ := e
    cases c with
    | content c =>
      cases c with
      | prepare id => exact hc.elim
      | _ => rfl
    | _ => rfl

/-- The exchanges that leave an index without documents, whatever there was. -/
structure Opens (typed : Bool) (index : String) (xs : List Exchange) : Prop where
  on : ∀ e ∈ xs, e.request.isOn typed index = true
  bulkless : ∀ e ∈ xs, e.request.method ≠ .post
  empty : ∀ I : Indices, I.after typed xs index = some fun _ => none

namespace Indexer

variable {x : Indexer} {α β : Type} {t t' : Option String} {es : List (Event surroundings)}

/-- What comes after an unseen part has all the exchanges and fetches. -/
theorem runs_unseen_bind {a : Action α} {f : α → Action β} {v : β} (ha : a.Calls Unseen)
    (h : x.Runs (a >>= f) t es (.ok v) t') :
    ∃ w t₁ es', exchanges es = exchanges es' ∧ fetches es = fetches es' ∧
      x.Runs (f w) t₁ es' (.ok v) t' := by
  obtain ⟨w, t₁, es₁, es₂, rfl, h₁, h₂⟩ := runs_bind_ok h
  obtain ⟨hx, hf⟩ := no_traffic_of_unseen (Program.Always.of_runs ha h₁).1
  refine ⟨w, t₁, es₂, ?_, ?_, h₂⟩
  · rw [exchanges_append, hx, List.nil_append]
  · rw [fetches_append, hf, List.nil_append]

theorem no_traffic_of_calls {a : Action α} {r : Except IndexError α} (ha : a.Calls Unseen)
    (h : x.Runs a t es r t') : exchanges es = [] ∧ fetches es = [] :=
  no_traffic_of_unseen (Program.Always.of_runs ha h).1

theorem unseen_ask (c : IndexerCall) (h : Unseen c) : (Action.ask c).Calls Unseen :=
  Action.calls_ask h

theorem unseen_count (scope : Option String) : (Action.count scope).Calls Unseen :=
  (unseen_ask (.content (.count scope)) True.intro).bind fun _ => Action.calls_ofExcept _ _

theorem unseen_stored {a : StoreAction α} {S : StoreCall → Prop}
    (h : a.run.Always S fun _ => True) : (Action.stored a).Calls Unseen :=
  Action.calls_stored h fun _ _ => True.intro

theorem unseen_loadState (x : Indexer) : x.loadState.Calls Unseen :=
  calls_loadState x True.intro

theorem unseen_saveState (x : Indexer) (s : IndexState) : (x.saveState s).Calls Unseen :=
  calls_saveState x True.intro

theorem unseen_requireRun (x : Indexer) (run : RunId) : (x.requireRun run).Calls Unseen :=
  calls_requireRun x True.intro run

theorem unseen_persist (x : Indexer) (c : Cursor) : (x.persist c).Calls Unseen :=
  calls_persist x True.intro True.intro

theorem unseen_reportFailures (x : Indexer) (c : Cursor) :
    (x.reportFailures c).Calls Unseen := by
  have clear : (Action.stored (Ledger.clear x.keys)).Calls Unseen :=
    unseen_stored Ledger.always_clear
  refine (unseen_stored Ledger.always_loadLedger).bind fun l => ?_
  split
  · exact (Action.calls_ask True.intro).bind fun _ => clear
  · exact clear

/-! ## Making an index anew -/

/-- A request that is tried again is sent until an answer comes, and that answer is the last. -/
theorem runs_attempts {σ : Type} {E : Effect surroundings σ} {q : Engine.Request}
    {attempt left : Nat} {s s' : σ} {r : Except Engine.TransportError Engine.Response}
    (h : Program.Runs E (attempts q attempt left) s es r s') :
    fetches es = [] ∧ ∃ xs, exchanges es = xs ++ [⟨q, r⟩] ∧ ∀ y ∈ xs, y.request = q := by
  induction left generalizing attempt s es with
  | zero =>
    obtain ⟨a, s₁, es', rfl, -, h⟩ := runs_call_iff.mp h
    obtain ⟨rfl, rfl, -⟩ := runs_done_iff.mp h
    exact ⟨rfl, [], rfl, fun y hy => (List.not_mem_nil hy).elim⟩
  | succ left ih =>
    obtain ⟨a, s₁, es', rfl, -, h⟩ := runs_call_iff.mp h
    cases a with
    | ok a =>
      obtain ⟨rfl, rfl, -⟩ := runs_done_iff.mp h
      exact ⟨rfl, [], rfl, fun y hy => (List.not_mem_nil hy).elim⟩
    | error e =>
      obtain ⟨u, s₂, es'', rfl, -, h⟩ := runs_call_iff.mp h
      obtain ⟨hf, xs, hx, hq⟩ := ih h
      refine ⟨hf, ⟨q, .error e⟩ :: xs, ?_, ?_⟩
      · show ⟨q, .error e⟩ :: exchanges es'' = _
        rw [hx]
        rfl
      · intro y hy
        rcases List.mem_cons.mp hy with rfl | hy
        · rfl
        · exact hq y hy

theorem runs_sendRepeatedly {q : Engine.Request} {r : Engine.Response}
    (h : x.Runs (sendRepeatedly q) t es (.ok r) t') :
    fetches es = [] ∧ ∃ xs, exchanges es = xs ++ [⟨q, .ok r⟩] ∧ ∀ y ∈ xs, y.request = q := by
  obtain ⟨answer, t₁, es₁, es₂, rfl, h₁, h₂⟩ := runs_bind_ok h
  obtain ⟨rfl, hr, rfl⟩ := runs_done_iff.mp h₂
  obtain ⟨a, t₂, es₃, es₄, rfl, h₃, h₄⟩ := runs_bind_iff.mp h₁
  obtain ⟨rfl, ha, rfl⟩ := runs_done_iff.mp h₄
  cases ha
  cases answer with
  | error e => cases hr
  | ok r' =>
    cases hr
    rw [List.append_nil, List.append_nil]
    exact runs_attempts h₃

/-- A removal sends nothing else. -/
theorem runs_deleteIndexAt {paths : Engine.Paths}
    (h : x.Runs (deleteIndexAt paths) t es (.ok ()) t') :
    fetches es = [] ∧ ∀ e ∈ exchanges es, e.request = .delete paths.index := by
  obtain ⟨r, t₁, es₁, es₂, rfl, h₁, h₂⟩ := runs_bind_ok h
  obtain ⟨hf₁, xs, hx₁, hq⟩ := runs_sendRepeatedly h₁
  obtain ⟨hx₂, hf₂⟩ : exchanges es₂ = [] ∧ fetches es₂ = [] := by
    split at h₂
    · exact no_traffic_of_calls (Action.calls_pure ()) h₂
    · exact no_traffic_of_calls (calls_checked r) h₂
  refine ⟨by rw [fetches_append, hf₁, hf₂, List.append_nil], fun e he => ?_⟩
  rw [exchanges_append, hx₁, hx₂, List.append_nil] at he
  rcases List.mem_append.mp he with he | he
  · exact hq e he
  · rw [List.mem_singleton.mp he]

theorem isSuccess_of_runs_checked {r : Engine.Response}
    (h : x.Runs (checked r) t es (.ok ()) t') : r.isSuccess = true := by
  obtain ⟨v, t₁, es₁, es₂, -, h₁, -⟩ := runs_bind_ok h
  obtain ⟨-, hv, -⟩ := runs_done_iff.mp h₁
  unfold Engine.Response.checked at hv
  cases hs : r.isSuccess with
  | true => rfl
  | false =>
    rw [hs] at hv
    cases hv

/-- A creation sends nothing else, and its last answer is a success. -/
theorem runs_putMappingAt {paths : Engine.Paths}
    (h : x.Runs (x.putMappingAt paths) t es (.ok ()) t') :
    fetches es = [] ∧ ∃ xs r,
      exchanges es = xs ++ [⟨.put paths.index (Engine.mapping x.config).render, .ok r⟩] ∧
      (∀ e ∈ xs, e.request = .put paths.index (Engine.mapping x.config).render) ∧
      r.isSuccess = true := by
  obtain ⟨r, t₁, es₁, es₂, rfl, h₁, h₂⟩ := runs_bind_ok h
  obtain ⟨hf₁, xs, hx₁, hq⟩ := runs_sendRepeatedly h₁
  obtain ⟨hx₂, hf₂⟩ := no_traffic_of_calls (calls_checked r) h₂
  refine ⟨by rw [fetches_append, hf₁, hf₂, List.append_nil], xs, r, ?_, hq,
    isSuccess_of_runs_checked h₂⟩
  rw [exchanges_append, hx₁, hx₂, List.append_nil]

/-- An index that is made anew is empty. -/
theorem runs_recreateIndex {scope : Option String}
    (h : x.Runs (x.recreateIndex scope) t es (.ok ()) t') :
    fetches es = [] ∧
      Opens x.config.usesMappingTypes (x.config.indexForScope scope) (exchanges es) := by
  obtain ⟨u, t₁, es₁, es₂, rfl, h₁, h₂⟩ := runs_bind_ok h
  obtain ⟨hf₁, removes⟩ := runs_deleteIndexAt h₁
  obtain ⟨hf₂, xs, r, hx₂, creates, success⟩ := runs_putMappingAt h₂
  let index := x.config.indexForScope scope
  let creation := Engine.Request.put index (Engine.mapping x.config).render
  have each : ∀ e ∈ exchanges (es₁ ++ es₂),
      e.request = .delete index ∨ e.request = creation := by
    intro e he
    rw [exchanges_append, hx₂] at he
    simp only [List.mem_append, List.mem_singleton] at he
    rcases he with he | he | rfl
    · exact .inl (removes e he)
    · exact .inr (creates e he)
    · exact .inr rfl
  refine ⟨by rw [fetches_append, hf₁, hf₂, List.append_nil], fun e he => ?_, fun e he => ?_,
    fun I => ?_⟩
  · rcases each e he with he | he <;> rw [he] <;> exact beq_self_eq_true index
  · rcases each e he with he | he <;> rw [he] <;> exact fun hm => by cases hm
  · rw [exchanges_append, hx₂, ← List.append_assoc, Indices.after_append]
    refine Indices.apply_put rfl (beq_self_eq_true index) ?_
    unfold Exchange.success?
    simp only [success, if_true]
    rfl

end Indexer
end ContentIndex
