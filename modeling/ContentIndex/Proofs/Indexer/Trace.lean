import ContentIndex.Indexer.World
import ContentIndex.Proofs.Indexer.StateRecord

/-
  Operations in a world run on its state record (`perform_runs`), and its content store lists as
  a fixed listing says (`lists_events`), as long as the engine leaves both alone. So whatever is
  shown of all runs holds of what a world does.
-/

namespace ContentIndex.World

variable {E : Type} {engine : EngineModel E}

/-- The text under a key. -/
def record (w : World E) (key : String) : Option String :=
  w.memory.records.find? key

/-- The calls of an operation and the answers to them. -/
def events {α : Type} (engine : EngineModel E) (a : Action α) (w : World E) :
    List (Event surroundings) :=
  (a.run.trace (fun c w => w.handle engine c) w).1

theorem recorded_handle {key : String} (h : ∀ r w, (engine r w).2.record key = w.record key)
    (c : IndexerCall) (w : World E) :
    recorded key (w.record key) ⟨c, (w.handle engine c).1⟩ ((w.handle engine c).2.record key) := by
  cases c with
  | store c => exact w.memory.recorded_handle key c
  | engine r => exact h r _
  | _ => rfl

/-- An operation that is performed in a world runs on its state record. -/
theorem perform_runs (x : Indexer) {α : Type} (a : Action α) (w : World E)
    (h : ∀ r w, (engine r w).2.record x.keys.state = w.record x.keys.state) :
    x.Runs a (w.record x.keys.state) (w.events engine a) (w.perform engine a).1
      ((w.perform engine a).2.record x.keys.state) := by
  rw [perform, Program.run_eq_trace]
  exact Program.runs_trace (·.record x.keys.state) (recorded_handle h) a.run w

/-- Calls are answered as a world answers them. -/
def answering (engine : EngineModel E) : Effect surroundings (World E) :=
  fun w e w' => w.handle engine e.call = (e.answer, w')

/-- An operation that is performed in a world runs as the world answers. -/
theorem runs_events {α : Type} (a : Action α) (w : World E) :
    Program.Runs (answering engine) a.run w (w.events engine a) (w.perform engine a).1
      (w.perform engine a).2 := by
  rw [perform, Program.run_eq_trace]
  exact Program.runs_trace id (fun _ _ => rfl) a.run w

/-- An operation that ends so in a world runs to that end. -/
theorem runs_events_of_ends {α : Type} {a : Action α} {w : World E} {r : Except IndexError α}
    (h : (w.perform engine a).1 = r) :
    Program.Runs (answering engine) a.run w (w.events engine a) r (w.perform engine a).2 := by
  rw [← h]
  exact runs_events a w

theorem catalogue_handle (h : ∀ r w, (engine r w).2.catalogue = w.catalogue) (c : IndexerCall)
    (w : World E) : (w.handle engine c).2.catalogue = w.catalogue := by
  cases c with
  | engine r => exact h r _
  | _ => rfl

theorem catalogue_perform {α : Type} (a : Action α) (w : World E)
    (h : ∀ r w, (engine r w).2.catalogue = w.catalogue) :
    (w.perform engine a).2.catalogue = w.catalogue := by
  have kept (p : Program surroundings (Except IndexError α)) (w : World E) :
      (p.trace (fun c w => w.handle engine c) w).2.2.catalogue = w.catalogue := by
    induction p generalizing w with
    | done a => rfl
    | call c next ih => exact (ih _ _).trans (catalogue_handle h c w)
  rw [perform, Program.run_eq_trace]
  exact kept a.run w

/-- Every page that is listed is a part of the listing of the catalogue. -/
theorem lists_events {α : Type} (p : Program surroundings α) (w : World E)
    (h : ∀ r w, (engine r w).2.catalogue = w.catalogue) (page : Page) (ids : List UInt64)
    (hn : .listed page (.ok ids) ∈ notes (p.trace (fun c w => w.handle engine c) w).1) :
    ids = ((w.catalogue.listing page.scope).drop page.offset.toNat).take page.limit.toNat := by
  induction p generalizing w with
  | done a => cases hn
  | call c next ih =>
    have kept : (w.handle engine c).2.catalogue = w.catalogue := catalogue_handle h c w
    have later := ih (w.handle engine c).1 (w.handle engine c).2
    rw [kept] at later
    obtain ⟨e, he, hp⟩ := List.mem_filterMap.mp hn
    rcases List.mem_cons.mp he with rfl | he
    · cases c with
      | content c =>
        cases c with
        | listIds p =>
          obtain ⟨rfl, hids⟩ := Note.listed.inj (Option.some.inj hp)
          change (w.catalogue.list p.scope).map _ = _ at hids
          unfold Catalogue.list at hids
          split at hids
          · cases hids
          · cases hids
            rfl
        | _ => cases hp
      | measure n => cases n <;> cases hp
      | _ => cases hp
    · exact later (List.mem_filterMap.mpr ⟨e, he, hp⟩)

/-! ## Plain worlds -/

/-- An engine that accepts every request. -/
def accepting : EngineModel Unit :=
  fun _ w => (.ok { status := 200, body := "\x7b\x7d" }, w)

theorem accepting_record (key : String) (r : Engine.Request) (w : World Unit) :
    (accepting r w).2.record key = w.record key := rfl

theorem accepting_catalogue (r : Engine.Request) (w : World Unit) :
    (accepting r w).2.catalogue = w.catalogue := rfl

/-- An indexer with the standard settings. -/
def plain : Indexer := ⟨{}, [], none, by decide⟩

/-- A world with a scope of one item that is gone. -/
def oneGone : World Unit :=
  { engine := (), catalogue := ({} : Catalogue).setScope "a" [5] }

/-- A world with two scopes, the first without items. -/
def firstEmpty : World Unit where
  engine := ()
  catalogue := (({} : Catalogue).setScope "a" []).setScope "b" [5]

end ContentIndex.World
