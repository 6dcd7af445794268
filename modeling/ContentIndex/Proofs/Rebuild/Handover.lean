import ContentIndex.Proofs.Rebuild.Cancel
import ContentIndex.Proofs.Rebuild.Drive

/-
  Requests that remove or make an index after a cancel. A rebuild sends them when it hands over to
  the next scope: the scope is counted, its index is removed and made anew, and only then does
  the rebuild look at its record again. So a cancel that is stored after the last look before
  a handover is followed by these requests, and no other cancel is. `Careful` says of every call
  that is left of a program how it keeps to that order; it is carried along the calls that were
  made (`Careful.of_moves`) and read off the calls that follow (`Careful.remakes_iff`).
-/

namespace ContentIndex

open ContentIndex.Action
open IndexState (cancelled)
open Indexer (afterLoad loaded loadState_bind_run rebuildStep_eq_stepFrom)
open Program (Moves Runs runs_call_iff runs_done_iff)

/-! ## Events -/

namespace Event

/-- A request that removes an index or makes it. -/
def remakes : Event surroundings → Bool
  | ⟨.engine r, _⟩ => r.remakes
  | _ => false

/-- The items of a scope were counted. -/
def counts : Event surroundings → Bool
  | ⟨.content (.count _), .ok _⟩ => true
  | _ => false

/-- Whether a handover is under way after an event: it begins when the scope is counted and lasts
until the next call on the record. -/
def handover (key : String) (before : Bool) (e : Event surroundings) : Bool :=
  !e.touches key && (before || e.counts)

end Event

/-- Whether the last of the events belong to a handover. -/
def handingOver (key : String) (es : List (Event surroundings)) : Bool :=
  es.foldl (Event.handover key) false

/-- The events before the next call on the record. -/
def beforeTouch (key : String) (es : List (Event surroundings)) : List (Event surroundings) :=
  es.takeWhile fun e => !e.touches key

/-- The events before the record is replaced. -/
def untilStored (key : String) (es : List (Event surroundings)) : List (Event surroundings) :=
  es.takeWhile fun e => (e.stored? key).isNone

/-! ## Programs -/

section

variable {σ α : Type} {key : String}

/-- Nothing but pauses comes before a request that removes an index or makes it. -/
def Soon : Program surroundings α → Prop
  | .call (.engine r) _ => r.remakes = true
  | .call (.wait _) next => Soon (next ())
  | _ => False

/-- While a handover is under way, every call is followed by a request that makes an index, or is
one, up to the next call on the record; at other times no such request is sent, except that
counting a scope begins a handover. -/
def Careful (key : String) : Bool → Program surroundings α → Prop
  | _, .done _ => True
  | b, .call c next => ∀ a,
      (Event.touches key ⟨c, a⟩ = false →
        if b then Soon (.call c next)
        else Event.remakes ⟨c, a⟩ = false ∧ (Event.counts ⟨c, a⟩ = true → Soon (next a))) ∧
      Careful key (Event.handover key b ⟨c, a⟩) (next a)

theorem Careful.of_moves {E : Effect surroundings σ} {b : Bool} {s s' : σ}
    {p q : Program surroundings α} {es : List (Event surroundings)} (hp : Careful key b p)
    (hm : Moves E p s es q s') : Careful key (es.foldl (Event.handover key) b) q := by
  induction hm generalizing b with
  | refl => exact hp
  | call _ _ ih => exact ih (hp _).2

theorem Soon.remakes {E : Effect surroundings σ} {s s' : σ} {p : Program surroundings α} {v : α}
    {es : List (Event surroundings)} (hp : Soon p) (hr : Runs E p s es v s') :
    ∃ e ∈ untilStored key es, e.remakes = true := by
  induction p generalizing s es with
  | done v => exact hp.elim
  | call c next ih =>
    obtain ⟨a, s₁, es', rfl, -, hr⟩ := runs_call_iff.mp hr
    cases c with
    | engine r => exact ⟨_, List.mem_cons_self, hp⟩
    | wait n =>
      obtain ⟨e, he, hrem⟩ := ih () hp hr
      exact ⟨e, List.mem_cons_of_mem _ he, hrem⟩
    | _ => exact hp.elim

/-- As long as a cancel is in the record, an index is removed or made exactly if a handover is
under way and not over, or begins before the next call on the record. -/
theorem Careful.remakes_iff {b : Bool} {q : Program surroundings (Except IndexError α)}
    (hq : Careful key b q) (heeds : Heeds key q) {es : List (Event surroundings)}
    {r : Except IndexError α} {t : Option String}
    (hr : Runs (recorded key) q (some cancelled.text) es r t) :
    (∃ e ∈ untilStored key es, e.remakes = true) ↔
      b = true ∧ beforeTouch key es ≠ [] ∨ ∃ e ∈ beforeTouch key es, e.counts = true := by
  induction q generalizing b es with
  | done v =>
    obtain ⟨rfl, -, -⟩ := runs_done_iff.mp hr
    simp [beforeTouch, untilStored]
  | call c next ih =>
    have runs := hr
    obtain ⟨a, t₁, es', rfl, he, hr⟩ := runs_call_iff.mp hr
    cases ht : Event.touches key ⟨c, a⟩ with
    | true =>
      -- The look at the record finds the cancel, or the cancel is overwritten.
      have none_before : beforeTouch key (⟨c, a⟩ :: es') = [] := by simp [beforeTouch, ht]
      rw [none_before]
      rcases heeds.ends_cancelled ht he with ⟨-, -, e, hn⟩ | ⟨s, hs, -⟩
      · rw [hn] at hr
        obtain ⟨rfl, -, -⟩ := runs_done_iff.mp hr
        refine iff_of_false ?_ (by simp)
        rintro ⟨e, he, hrem⟩
        obtain rfl := List.mem_singleton.mp ((List.takeWhile_prefix _).subset he)
        cases c with
        | store c => cases hrem
        | _ => cases ht
      · simp [untilStored, hs]
    | false =>
      obtain ⟨rfl, stored⟩ := recorded_untouched ht he
      have before : beforeTouch key (⟨c, a⟩ :: es') = ⟨c, a⟩ :: beforeTouch key es' := by
        simp [beforeTouch, ht]
      have until_stored : untilStored key (⟨c, a⟩ :: es') = ⟨c, a⟩ :: untilStored key es' := by
        simp [untilStored, stored]
      obtain ⟨now, later⟩ := hq a
      have now := now ht
      rw [before, until_stored]
      cases b with
      | true =>
        rw [← until_stored]
        exact iff_of_true (Soon.remakes now runs) (.inl ⟨rfl, List.cons_ne_nil _ _⟩)
      | false =>
        obtain ⟨first, begins⟩ := now
        cases hc : Event.counts ⟨c, a⟩ with
        | true =>
          obtain ⟨e, he, hrem⟩ := (begins hc).remakes hr
          exact iff_of_true ⟨e, List.mem_cons_of_mem _ he, hrem⟩
            (.inr ⟨_, List.mem_cons_self, hc⟩)
        | false =>
          have idle : Event.handover key false ⟨c, a⟩ = false := by
            simp [Event.handover, hc]
          rw [idle] at later
          simpa [first, hc] using ih a later (heeds.2 a) hr

end

/-! ## Parts of a rebuild -/

/-- A call that has nothing to do with a handover: none on the state record, none that counts a
scope and none that removes or makes an index. -/
def Plain (keys : RecordKeys) : IndexerCall → Prop
  | .content (.count _) => False
  | .engine r => r.remakes = false
  | c => Apart keys c

theorem Sends.plain {keys : RecordKeys} {kind : Engine.Request → Prop} {c : IndexerCall}
    (h : Sends keys kind c) (hk : ∀ r, kind r → r.remakes = false) : Plain keys c := by
  cases c with
  | content c => exact h.elim
  | engine r => exact hk r h
  | store c => exact h
  | _ => trivial

theorem Fills.plain {keys : RecordKeys} {c : IndexerCall} (h : Fills keys c) : Plain keys c := by
  cases c with
  | content c =>
    cases c with
    | prepare id => trivial
    | _ => exact h.elim
  | engine r =>
    have post : r.method = .post := h
    simp [Plain, Engine.Request.remakes, post]
  | store c => exact h
  | wait n => trivial
  | measure m => trivial
  | _ => exact h.elim

namespace Indexer

variable {x : Indexer} {α β : Type} {b : Bool}

/-- Whatever follows when no handover is under way: as long as that is careful, it is careful with
the operation before it. -/
def CarefulFrom (x : Indexer) (b : Bool) (a : Action α) : Prop :=
  ∀ (γ : Type) (f : α → Action γ), (∀ v, Careful x.keys.state false (f v).run) →
    Careful x.keys.state b (a >>= f).run

theorem CarefulFrom.bind {a : Action α} {f : α → Action β} (ha : x.CarefulFrom b a)
    (hf : ∀ v, x.CarefulFrom false (f v)) : x.CarefulFrom b (a >>= f) := by
  intro γ g hg
  rw [bind_assoc]
  exact ha γ _ fun v => hf v γ g hg

theorem carefulFrom_pure (v : α) : x.CarefulFrom false (pure v : Action α) :=
  fun _ _ hf => hf v

theorem carefulFrom_plain {a : Action α} (ha : a.Calls (Plain x.keys)) :
    x.CarefulFrom false a := by
  intro γ f hf
  have main (p : Program surroundings (Except IndexError α)) {Q : Except IndexError α → Prop}
      (hp : p.Always (Plain x.keys) Q) :
      Careful x.keys.state false (p >>= ExceptT.bindCont f) := by
    induction p with
    | done r =>
      cases r with
      | error e => trivial
      | ok v => exact hf v
    | call c next ih =>
      intro a
      have later := ih a (hp.2 a)
      have plain := hp.1
      have quiet : Event.remakes ⟨c, a⟩ = false ∧ Event.counts ⟨c, a⟩ = false := by
        cases c with
        | engine r => exact ⟨plain, rfl⟩
        | content c =>
          cases c with
          | count s => exact plain.elim
          | _ => exact ⟨rfl, rfl⟩
        | _ => exact ⟨rfl, rfl⟩
      have idle : Event.handover x.keys.state false ⟨c, a⟩ = false := by
        simp [Event.handover, quiet.2]
      refine ⟨fun _ => ⟨quiet.1, fun hc => ?_⟩, ?_⟩
      · rw [quiet.2] at hc
        cases hc
      · rw [idle]
        exact later
  exact main a.run ha

/-- A call on the record ends a handover, if one is under way. -/
theorem Careful.call_touching {p : Program surroundings (Except IndexError α)} {c : IndexerCall}
    {next : surroundings.Answer c → Program surroundings (Except IndexError α)}
    (hp : p = .call c next) (ht : ∀ a, Event.touches x.keys.state ⟨c, a⟩ = true)
    (hn : ∀ a, Careful x.keys.state false (next a)) : Careful x.keys.state b p := by
  rw [hp]
  intro a
  rw [Event.handover, ht a]
  exact ⟨nofun, hn a⟩

theorem carefulFrom_loadState : x.CarefulFrom b x.loadState := by
  intro γ f hf
  refine Careful.call_touching (loadState_bind_run x f) (fun _ => beq_self_eq_true _) fun a => ?_
  cases loaded a with
  | error e => trivial
  | ok s => exact hf s

theorem carefulFrom_saveState (s : IndexState) : x.CarefulFrom b (x.saveState s) := by
  intro γ f hf
  refine Careful.call_touching (c := .store (.set x.keys.state s.text)) rfl
    (fun _ => beq_self_eq_true _) fun a => ?_
  cases a with
  | error e => trivial
  | ok u => exact hf u

theorem carefulFrom_require (holds : Bool) (e : IndexError) :
    x.CarefulFrom false (require holds e) :=
  carefulFrom_plain (calls_require holds e)

theorem carefulFrom_ask {c : IndexerCall} (h : Plain x.keys c) : x.CarefulFrom false (ask c) :=
  carefulFrom_plain (calls_ask h)

theorem carefulFrom_requireRun (run : RunId) : x.CarefulFrom b (x.requireRun run) :=
  carefulFrom_loadState.bind fun _ => carefulFrom_require _ _

theorem carefulFrom_persist (c : Cursor) : x.CarefulFrom b (x.persist c) :=
  (carefulFrom_requireRun c.run).bind fun _ => carefulFrom_saveState _

/-! ### Handing over -/

theorem careful_attempts {r : Engine.Request} (hr : r.remakes = true)
    {k : Except Engine.TransportError Engine.Response → Program surroundings (Except IndexError α)}
    (hk : ∀ a, Careful x.keys.state true (k a)) (attempt left : Nat) :
    Soon (attempts r attempt left >>= k) ∧
      Careful x.keys.state true (attempts r attempt left >>= k) := by
  induction left generalizing attempt with
  | zero => exact ⟨hr, fun a => ⟨fun _ => hr, hk a⟩⟩
  | succ left ih =>
    refine ⟨hr, fun a => ⟨fun _ => hr, ?_⟩⟩
    cases a with
    | ok answer => exact hk _
    | error e => exact fun u => ⟨fun _ => (ih (attempt + 1)).1, (ih (attempt + 1)).2⟩

theorem careful_sendRepeatedly {r : Engine.Request} (hr : r.remakes = true)
    {f : Engine.Response → Action α} (hf : ∀ a, Careful x.keys.state true (f a).run) :
    Soon (sendRepeatedly r >>= f).run ∧
      Careful x.keys.state true (sendRepeatedly r >>= f).run := by
  rw [sendRepeatedly_bind_run]
  refine careful_attempts hr (fun a => ?_) _ _
  cases a with
  | error e => trivial
  | ok answer => exact hf answer

theorem careful_recreateIndex (scope : Option String) {f : Unit → Action α}
    (hf : Careful x.keys.state true (f ()).run) :
    Soon (x.recreateIndex scope >>= f).run ∧
      Careful x.keys.state true (x.recreateIndex scope >>= f).run := by
  have delete : (Engine.Request.delete (x.pathsFor scope).index).remakes = true := rfl
  have put : (Engine.Request.put (x.pathsFor scope).index
      (Engine.mapping x.config).render).remakes = true := rfl
  have checked_then (r : Engine.Response) {g : Unit → Action α}
      (hg : Careful x.keys.state true (g ()).run) :
      Careful x.keys.state true (checked r >>= g).run := by
    unfold checked
    cases r.checked with
    | error e => trivial
    | ok u => exact hg
  rw [recreateIndex, bind_assoc, deleteIndexAt, bind_assoc]
  refine careful_sendRepeatedly delete fun r => ?_
  have made : Careful x.keys.state true ((do
      let r ← sendRepeatedly (.put (x.pathsFor scope).index (Engine.mapping x.config).render)
      checked r) >>= f : Action α).run := by
    rw [bind_assoc]
    exact (careful_sendRepeatedly put fun r => checked_then r hf).2
  split
  · exact made
  · exact checked_then r made

/-- Counting a scope begins a handover, which lasts until the next call on the record. -/
theorem carefulFrom_handOver {scope : Option String} {a : UInt64 → Action α}
    (ha : ∀ n, x.CarefulFrom true (a n)) :
    x.CarefulFrom false (do
      let n ← count scope
      x.recreateIndex scope
      a n) := by
  intro γ f hf r
  cases r with
  | error e => exact ⟨fun _ => ⟨rfl, nofun⟩, trivial⟩
  | ok n =>
    have remade := careful_recreateIndex scope (f := fun _ => a n >>= f) (ha n γ f hf)
    rw [← bind_assoc] at remade
    exact ⟨fun _ => ⟨rfl, fun _ => remade.1⟩, remade.2⟩

theorem carefulFrom_completeScope (c : Cursor) : x.CarefulFrom false (x.completeScope c) := by
  have reports : (x.reportFailures c).Calls (Plain x.keys) :=
    calls_reportFailures_of x c (fun _ => id) fun _ => trivial
  refine (carefulFrom_plain reports).bind fun _ => ?_
  cases c.scopes[1]? with
  | some s =>
    exact carefulFrom_handOver fun n => (carefulFrom_persist _).bind fun _ => carefulFrom_pure _
  | none =>
    refine (carefulFrom_requireRun c.run).bind fun _ => ?_
    refine CarefulFrom.bind (carefulFrom_ask trivial) fun now => ?_
    exact (carefulFrom_saveState _).bind fun _ => carefulFrom_pure _

theorem carefulFrom_advance (c : Cursor) : x.CarefulFrom false (x.advance c) := by
  refine CarefulFrom.bind (carefulFrom_plain (calls_listIds trivial)) fun ids => ?_
  split
  · exact carefulFrom_completeScope c
  · refine (carefulFrom_plain ((fills_bulkInto _).mono (fun _ => Fills.plain) fun _ => id)).bind
      fun o => ?_
    refine CarefulFrom.bind (carefulFrom_ask trivial) fun _ => ?_
    refine CarefulFrom.bind (carefulFrom_ask trivial) fun _ => ?_
    refine CarefulFrom.bind (carefulFrom_ask trivial) fun _ => ?_
    exact (carefulFrom_persist _).bind fun _ => carefulFrom_pure _

theorem carefulFrom_continueRebuild (run : RunId) : x.CarefulFrom b (x.continueRebuild run) := by
  refine carefulFrom_loadState.bind fun s => ?_
  cases s.cursor? with
  | some c => exact (carefulFrom_require _ _).bind fun _ => carefulFrom_advance c
  | none => exact carefulFrom_plain (gives_throw _)

theorem carefulFrom_rebuildFrom (limit : Nat) (r : RebuildStep) :
    x.CarefulFrom false (x.rebuildFrom limit r) := by
  induction limit generalizing r with
  | zero => cases r <;> exact carefulFrom_pure _
  | succ limit ih =>
    cases r with
    | completed s => exact carefulFrom_pure _
    | progress c => exact (carefulFrom_continueRebuild c.run).bind ih

/-! ### Whole steps -/

theorem carefulFrom_stepFrom {s : IndexState} {c : Cursor} (hc : s.cursor? = some c)
    (scopes : List String) : x.CarefulFrom false (x.stepFrom scopes s) := by
  have plain : (x.resume c).Calls (Plain x.keys) :=
    (sends_resume x c).mono
      (fun _ h => h.plain fun r hr => by simp [Engine.Request.remakes, hr]) fun _ => id
  simp only [stepFrom, hc]
  exact (carefulFrom_plain plain).bind fun _ => carefulFrom_advance c

/-- A step that has looked at the record is careful, once a rebuild is recorded. -/
theorem careful_of_moves_stepFrom {scopes : List String} {g : RebuildStep → Action α}
    {s : IndexState} {t t₁ : Option String} {es : List (Event surroundings)}
    {q : Program surroundings (Except IndexError α)}
    (hg : ∀ r, Careful x.keys.state false (g r).run) (hs : IndexState.ofRecord? t = .ok s)
    (hm : Moves (recorded x.keys.state) (x.stepFrom scopes s >>= g).run t es q t₁)
    (ht : ¬ IndexState.NoRun t₁) :
    Careful x.keys.state (handingOver x.keys.state es) q := by
  cases hc : s.cursor? with
  | some c => exact (carefulFrom_stepFrom hc scopes α g hg).of_moves hm
  | none =>
    simp only [stepFrom, hc, bind_assoc] at hm
    rw [ExceptT.run_bind] at hm
    have apart := apart_newCursor x scopes
    rcases Program.moves_bind_iff.mp hm with ⟨p, hp, -⟩ | ⟨r, t₂, es₁, es₂, rfl, h₁, h₂⟩
    · -- No record has been written yet, so that there is none of a rebuild.
      have kept : t₁ = t := frame_of_moves apart hp
      refine absurd (fun s' hs' => ?_) ht
      rw [kept, hs] at hs'
      cases hs'
      exact hc
    · -- Whatever came before it, the save of the new record ends it.
      rw [handingOver, List.foldl_append]
      refine Careful.of_moves ?_ h₂
      cases r with
      | error e => trivial
      | ok c =>
        change Careful _ _ (x.saveState (.running c) >>= fun _ => x.advance c >>= g).run
        rw [← bind_assoc]
        exact ((carefulFrom_saveState _).bind fun _ => carefulFrom_advance c) α g hg

theorem RebuildCall.careful_of_moves {op : RebuildCall} {t t₁ : Option String}
    {es : List (Event surroundings)} {q : Program surroundings (Except IndexError Unit)}
    (hes : es ≠ []) (hm : Moves (recorded x.keys.state) (op.action x).run t es q t₁)
    (ht : ¬ IndexState.NoRun t₁) :
    Careful x.keys.state (handingOver x.keys.state es) q := by
  -- Both kinds of call make a step first; the rest of a whole rebuild is careful by itself.
  have parts : ∃ scopes g, op.action x = x.rebuildStep scopes >>= g ∧
      ∀ r, Careful x.keys.state false (g r).run := by
    cases op with
    | step scopes => exact ⟨scopes, _, rfl, fun _ => trivial⟩
    | whole limit scopes =>
      refine ⟨scopes, _, bind_assoc _ _ _, fun r => ?_⟩
      exact carefulFrom_rebuildFrom limit r Unit _ fun _ => trivial
  obtain ⟨scopes, g, hop, hg⟩ := parts
  rw [hop, rebuildStep_eq_stepFrom, bind_assoc, loadState_bind_run] at hm
  cases hm with
  | refl => exact absurd rfl hes
  | @call _ _ a _ t₂ _ es _ he hm =>
    have look : handingOver x.keys.state (⟨.store (.get x.keys.state), a⟩ :: es) =
        handingOver x.keys.state es := by
      simp [handingOver, Event.handover, Event.touches]
    rw [look]
    change Moves _ (afterLoad (fun s => x.stepFrom scopes s >>= g) (loaded a)) _ _ _ _ at hm
    cases hl : loaded a with
    | error e =>
      rw [hl] at hm
      obtain ⟨-, rfl, -⟩ := Program.moves_done hm
      trivial
    | ok s =>
      rw [hl] at hm
      obtain ⟨text, rfl, hs⟩ := loaded_eq_ok hl
      obtain ⟨rfl, same⟩ := he
      rw [same rfl] at hs
      exact careful_of_moves_stepFrom hg hs hm ht

/-- A rebuild is recorded when a cancel is stored after the first call of a step. As long as the
cancel stands, an index is removed or made exactly if the cancel came in a handover and another
call of it follows, or if the scope that begins the handover is counted before the next call on
the record. A cancel stands to the end, unless that call is a write. -/
theorem remakes_after_cancel_iff (x : Indexer) (op : RebuildCall) {t t₁ t₂ t₃ : Option String}
    {es es' esc : List (Event surroundings)}
    {q : Program surroundings (Except IndexError Unit)} {r : Except IndexError Unit}
    (hes : es ≠ []) (hm : Moves (recorded x.keys.state) (op.action x).run t es q t₁)
    (ht : ¬ IndexState.NoRun t₁) (hc : x.Runs x.cancel t₁ esc (.ok ()) t₂)
    (hr : Program.Runs (recorded x.keys.state) q t₂ es' r t₃) :
    ((∃ e ∈ untilStored x.keys.state es', e.remakes = true) ↔
      handingOver x.keys.state es = true ∧ beforeTouch x.keys.state es' ≠ [] ∨
        ∃ e ∈ beforeTouch x.keys.state es', e.counts = true) ∧
      ((∀ e ∈ es'.find? (·.touches x.keys.state), e.stored? x.keys.state = none) →
        untilStored x.keys.state es' = es') := by
  have careful := RebuildCall.careful_of_moves hes hm ht
  obtain rfl := runs_cancel hc
  obtain ⟨rest, hx, hrest⟩ := op.heeds x
  rw [hx] at hm
  cases hm with
  | refl => exact absurd rfl hes
  | call _ hm =>
    have hq : Heeds x.keys.state q := (hrest _).of_moves hm
    refine ⟨careful.remakes_iff hq hr, fun kept => ?_⟩
    rcases hq.runs_cancelled hr with ⟨hnone, -⟩ | ⟨e, hfind, s, hstored, -⟩
    · exact List.takeWhile_eq_self_iff.mpr fun e he => by simp [hnone e he]
    · rw [kept e hfind] at hstored
      cases hstored

end Indexer

/-! ## A cancel after the first look -/

namespace World

/-- The position at which a rebuild of two scopes begins. -/
def twoScopes : Cursor := .start (runId 0) Calendar.Moment.epoch ["a", "b"] 0

/-- What is left of a step of that rebuild, after its look at the record. -/
def afterScopesLook : Action Unit :=
  (do plain.resume twoScopes; plain.advance twoScopes) >>= fun _ => pure ()

theorem moves_afterScopesLook :
    Moves (recorded plain.keys.state) ((RebuildCall.step ["a", "b"]).action plain).run
      (some (IndexState.running twoScopes).text)
      [⟨.store (.get plain.keys.state), .ok (some (IndexState.running twoScopes).text)⟩]
      afterScopesLook.run (some (IndexState.running twoScopes).text) := by
  have parts : ((RebuildCall.step ["a", "b"]).action plain).run =
      .call (.store (.get plain.keys.state)) fun a =>
        afterLoad (fun s => plain.stepFrom ["a", "b"] s >>= fun _ => pure ()) (loaded a) := by
    rw [RebuildCall.action, rebuildStep_eq_stepFrom, bind_assoc, loadState_bind_run]
  have shown : loaded (.ok (some (IndexState.running twoScopes).text)) =
      .ok (.running twoScopes) := by
    rw [loaded, IndexState.ofRecord?_text]
    rfl
  rw [parts]
  refine .call ⟨rfl, fun _ => rfl⟩ ?_
  rw [shown]
  exact .refl _ _

/-- A world in which that rebuild was cancelled, by the items of the first scope. -/
def scopesCancelled (ids : List UInt64) : World Unit where
  engine := ()
  catalogue := (({} : Catalogue).setScope "a" ids).setScope "b" [5]
  memory := { records := (∅ : SortedMap String).insert plain.keys.state cancelled.text }

theorem runs_afterScopesLook (ids : List UInt64) :
    plain.Runs afterScopesLook (some cancelled.text)
      ((scopesCancelled ids).events accepting afterScopesLook)
      ((scopesCancelled ids).perform accepting afterScopesLook).1
      (((scopesCancelled ids).perform accepting afterScopesLook).2.record plain.keys.state) := by
  have shown : (scopesCancelled ids).record plain.keys.state = some cancelled.text :=
    SortedMap.find?_insert_self _ _ _
  rw [← shown]
  exact perform_runs plain afterScopesLook _ (accepting_record _)

theorem runs_scopes_cancel :
    plain.Runs plain.cancel (some (IndexState.running twoScopes).text)
      [⟨.store (.set plain.keys.state cancelled.text), .ok ()⟩] (.ok ())
      (some cancelled.text) :=
  .call (if_pos rfl).symm (.refl _ _)

theorem recorded_twoScopes : ¬ IndexState.NoRun (some (IndexState.running twoScopes).text) := by
  intro h
  cases h _ (IndexState.ofRecord?_text _)

/-- As long as the first scope has items, no index is removed or made after a cancel. -/
theorem cancel_stops_page :
    ¬ ∃ e ∈ untilStored plain.keys.state
      ((scopesCancelled [5]).events accepting afterScopesLook), e.remakes = true := by
  rw [(Indexer.remakes_after_cancel_iff plain (.step ["a", "b"]) (List.cons_ne_nil _ _)
    moves_afterScopesLook recorded_twoScopes runs_scopes_cancel (runs_afterScopesLook [5])).1]
  have quiet : ((beforeTouch plain.keys.state
      ((scopesCancelled [5]).events accepting afterScopesLook)).any (·.counts)) = false := by
    decide +kernel
  rintro (⟨h, -⟩ | ⟨e, he, hc⟩)
  · cases h
  · rw [List.any_eq_false] at quiet
    exact quiet e he hc

/-- When the first scope is at its end, a cancel that is stored after the look of the step does
not keep the rebuild from removing and making the index of the second scope. -/
theorem cancel_does_not_stop_handover :
    ¬ ∀ (op : RebuildCall) (c : Cursor) (es es' esc : List (Event surroundings))
      (q : Program surroundings (Except IndexError Unit)) (r : Except IndexError Unit)
      (t t₁ t₂ t₃ : Option String), es ≠ [] →
      Moves (recorded plain.keys.state) (op.action plain).run t es q t₁ →
      t₁ = some (IndexState.running c).text → 1 < c.scopes.length →
      plain.Runs plain.cancel t₁ esc (.ok ()) t₂ →
      Program.Runs (recorded plain.keys.state) q t₂ es' r t₃ →
      ∀ e ∈ es', e.remakes = false := by
  intro h
  have stops := h (.step ["a", "b"]) twoScopes _ _ _ _ _ _ _ _ _ (List.cons_ne_nil _ _)
    moves_afterScopesLook rfl (by decide) runs_scopes_cancel (runs_afterScopesLook [])
  have remade : (((scopesCancelled []).events accepting afterScopesLook).any (·.remakes)) =
      true := by
    decide +kernel
  obtain ⟨e, he, hrem⟩ := List.any_eq_true.mp remade
  rw [stops e he] at hrem
  cases hrem

end World
end ContentIndex
