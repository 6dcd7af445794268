import ContentIndex.Proofs.Indexer.Trace
import ContentIndex.Proofs.Rebuild.Heed

/-
  A cancel while a rebuild is at work. What the rebuild does next to the record after the cancel
  decides: if it looks, or fails to write, the cancel stays; if it writes, the cancel is lost
  (`cancel_kept_iff`). A write comes next between a look and the write that it allows, and from
  the first look to the record of a new rebuild, where `cancel_not_kept` loses a cancel.
-/

namespace ContentIndex

open IndexState (cancelled)
open Program (Moves runs_call_iff runs_done_iff)

/-- The record says that a rebuild is running or was completed. -/
def IndexState.Begun (s : IndexState) : Prop := s.phase ≠ .notStarted

theorem RebuildText.begun {text : String} (h : RebuildText text) :
    ∃ s : IndexState, text = s.text ∧ s.Begun := by
  rcases h with ⟨c, rfl⟩ | ⟨now, n, rfl⟩
  · exact ⟨.running c, rfl, nofun⟩
  · exact ⟨.completed now n, rfl, nofun⟩

/-- A call on a record that was cancelled: either it stores nothing, and then it ends the program
and the cancel stays; or it stores that a rebuild has begun. -/
theorem Heeds.ends_cancelled {α : Type} {key : String} {c : IndexerCall}
    {next : surroundings.Answer c → Program surroundings (Except IndexError α)}
    (hq : Heeds key (.call c next)) {a : surroundings.Answer c} {t : Option String}
    (ht : Event.touches key ⟨c, a⟩ = true)
    (he : recorded key (some cancelled.text) ⟨c, a⟩ t) :
    (Event.stored? key ⟨c, a⟩ = none ∧ t = some cancelled.text ∧
        ∃ e, next a = .done (.error e)) ∨
      ∃ s : IndexState, Event.stored? key ⟨c, a⟩ = some s.text ∧ s.Begun := by
  have minds := hq.1
  cases c with
  | store c =>
    cases c with
    | get k =>
      obtain rfl : k = key := by simpa [Event.touches] using ht
      cases a with
      | error e => exact .inl ⟨rfl, he, minds rfl _ (.inr ⟨e, rfl⟩)⟩
      | ok text =>
        obtain ⟨ht₁, htext⟩ := he
        exact .inl ⟨rfl, ht₁, minds rfl _ (.inl (by rw [htext rfl]))⟩
    | set k text =>
      obtain rfl : k = key := by simpa [Event.touches] using ht
      obtain ⟨htext, fails⟩ := minds rfl
      obtain ⟨s, rfl, hs⟩ := htext.begun
      cases a with
      | error e => exact .inl ⟨rfl, he, fails e⟩
      | ok u => exact .inr ⟨s, if_pos rfl, hs⟩
    | delete k => exact absurd (by simpa [Event.touches] using ht) minds
  | _ => cases ht

/-- What is decided by the next call on the record after a cancel: either it stores nothing, and
then nothing is stored and the cancel stays; or it stores that a rebuild has begun. -/
theorem Heeds.runs_cancelled {α : Type} {key : String}
    {q : Program surroundings (Except IndexError α)} (hq : Heeds key q)
    {es : List (Event surroundings)} {r : Except IndexError α} {t : Option String}
    (h : Program.Runs (recorded key) q (some cancelled.text) es r t) :
    (∀ e ∈ es, e.stored? key = none) ∧ t = some cancelled.text ∨
      ∃ e ∈ es.find? (·.touches key), ∃ s : IndexState, e.stored? key = some s.text ∧ s.Begun := by
  induction q generalizing es with
  | done a =>
    obtain ⟨rfl, rfl, rfl⟩ := runs_done_iff.mp h
    exact .inl ⟨fun e he => (by cases he), rfl⟩
  | call c next ih =>
    obtain ⟨a, t₁, es', rfl, he, h⟩ := runs_call_iff.mp h
    cases ht : (⟨c, a⟩ : Event surroundings).touches key with
    | false =>
      obtain ⟨rfl, hs⟩ := recorded_untouched ht he
      rcases ih a (hq.2 a) h with ⟨hes, rfl⟩ | ⟨e, hfind, hstored⟩
      · exact .inl ⟨by simpa using ⟨hs, hes⟩, rfl⟩
      · exact .inr ⟨e, by rwa [List.find?_cons_of_neg (by simp [ht])], hstored⟩
    | true =>
      rcases hq.ends_cancelled ht he with ⟨hs, rfl, e, hn⟩ | ⟨s, hs, hb⟩
      · rw [hn] at h
        obtain ⟨rfl, -, rfl⟩ := runs_done_iff.mp h
        exact .inl ⟨by simpa using hs, rfl⟩
      · exact .inr ⟨_, List.find?_cons_of_pos (by simpa using ht), s, hs, hb⟩

namespace Indexer

variable {x : Indexer}

theorem runs_cancel {t t' : Option String} {es : List (Event surroundings)}
    (h : x.Runs x.cancel t es (.ok ()) t') : t' = some cancelled.text := by
  rcases saves_saveState x cancelled h with ⟨⟨e, he⟩, -⟩ | ⟨-, -, rfl⟩
  · cases he
  · rfl

/-- No record of a running or completed rebuild is stored, and the record stays that of the
cancel. -/
def CancelKept (key : String) (es : List (Event surroundings)) (t : Option String) : Prop :=
  (∀ e ∈ es, ∀ s : IndexState, s.Begun → e.stored? key ≠ some s.text) ∧ t = some cancelled.text

/-- A cancel that is stored after the first call of a rebuild, whatever the answers were, is kept
exactly if the next of the calls of the rebuild on the record is no write that succeeds. -/
theorem cancel_kept_iff (x : Indexer) (op : RebuildCall) {σ : Type} {E : Effect surroundings σ}
    {s s' : σ} {es es' esc : List (Event surroundings)}
    {q : Program surroundings (Except IndexError Unit)} {r : Except IndexError Unit}
    {t₁ t₂ t₃ : Option String} (hes : es ≠ []) (hm : Moves E (op.action x).run s es q s')
    (hc : x.Runs x.cancel t₁ esc (.ok ()) t₂)
    (hr : Program.Runs (recorded x.keys.state) q t₂ es' r t₃) :
    CancelKept x.keys.state es' t₃ ↔
      ∀ e ∈ es'.find? (·.touches x.keys.state), e.stored? x.keys.state = none := by
  obtain rfl := runs_cancel hc
  obtain ⟨rest, hx, hrest⟩ := op.heeds x
  rw [hx] at hm
  cases hm with
  | refl => exact absurd rfl hes
  | call _ hm =>
    have hq : Heeds x.keys.state q := (hrest _).of_moves hm
    rcases hq.runs_cancelled hr with ⟨hnone, ht⟩ | ⟨e, hfind, i, hstored, hi⟩
    · refine ⟨fun _ e he => hnone e (List.mem_of_find?_eq_some he), fun _ => ⟨?_, ht⟩⟩
      intro e he i _
      rw [hnone e he]
      exact nofun
    · constructor
      · intro h
        exact absurd hstored (h.1 e (List.mem_of_find?_eq_some hfind) i hi)
      · intro h
        rw [h e hfind] at hstored
        cases hstored

/-! ## The start of a rebuild -/

/-- What is left of a step that begins a rebuild, after its look at the record. -/
def afterLook : Action Unit :=
  (World.plain.startRebuild [] >>= World.plain.advance) >>= fun _ => pure ()

theorem moves_afterLook :
    Moves (recorded World.plain.keys.state) ((RebuildCall.step []).action World.plain).run none
      [⟨.store (.get World.plain.keys.state), .ok none⟩] afterLook.run none :=
  .call ⟨rfl, fun _ => rfl⟩ (.refl _ _)

theorem runs_plain_cancel :
    World.plain.Runs World.plain.cancel none
      [⟨.store (.set World.plain.keys.state cancelled.text), .ok ()⟩] (.ok ())
      (some cancelled.text) :=
  .call (if_pos rfl).symm (.refl _ _)

/-- A world without items in which a cancel has been stored. -/
def cancelledWorld (offline : Bool) : World Unit where
  engine := ()
  memory := {
    records := (∅ : SortedMap String).insert World.plain.keys.state cancelled.text
    offline }

theorem runs_afterLook (offline : Bool) :
    World.plain.Runs afterLook (some cancelled.text)
      ((cancelledWorld offline).events World.accepting afterLook)
      ((cancelledWorld offline).perform World.accepting afterLook).1
      (((cancelledWorld offline).perform World.accepting afterLook).2.record
        World.plain.keys.state) := by
  have shown : (cancelledWorld offline).record World.plain.keys.state = some cancelled.text :=
    SortedMap.find?_insert_self _ _ _
  rw [← shown]
  exact World.perform_runs World.plain afterLook _ (World.accepting_record _)

/-- When the store fails after the cancel, the cancel is kept. -/
theorem cancel_kept_offline :
    CancelKept World.plain.keys.state ((cancelledWorld true).events World.accepting afterLook)
      (((cancelledWorld true).perform World.accepting afterLook).2.record
        World.plain.keys.state) := by
  refine (cancel_kept_iff World.plain (.step []) (List.cons_ne_nil _ _) moves_afterLook
    runs_plain_cancel (runs_afterLook true)).mpr fun e he => ?_
  have untouched : (((cancelledWorld true).events World.accepting afterLook).find?
      (·.touches World.plain.keys.state)).isNone = true := by
    decide +kernel
  rw [Option.isNone_iff_eq_none.mp untouched] at he
  cases he

/-- A cancel that is stored between the first look of a step and the record of the rebuild that it
begins is lost: the rebuild goes on to its end, and turns reads on. -/
theorem cancel_not_kept :
    ¬ ∀ (op : RebuildCall) (es es' esc : List (Event surroundings))
      (q : Program surroundings (Except IndexError Unit)) (r : Except IndexError Unit)
      (t t₁ t₂ t₃ : Option String), es ≠ [] →
      Moves (recorded World.plain.keys.state) (op.action World.plain).run t es q t₁ →
      (∀ e ∈ es, e.stored? World.plain.keys.state = none) →
      World.plain.Runs World.plain.cancel t₁ esc (.ok ()) t₂ →
      Program.Runs (recorded World.plain.keys.state) q t₂ es' r t₃ →
      CancelKept World.plain.keys.state es' t₃ := by
  intro h
  have kept := h (.step []) _ _ _ _ _ _ _ _ _ (List.cons_ne_nil _ _) moves_afterLook
    (fun e he => by cases List.mem_singleton.mp he; rfl) runs_plain_cancel (runs_afterLook false)
  have lost : ((cancelledWorld false).perform World.accepting afterLook).2.record
      World.plain.keys.state = some (IndexState.completed Calendar.Moment.epoch 0).text := by
    decide +kernel
  have differ : (IndexState.completed Calendar.Moment.epoch 0).text ≠ cancelled.text := by
    decide +kernel
  exact differ (Option.some.inj (lost.symm.trans kept.2))

end Indexer
end ContentIndex
