import ContentIndex.Proofs.Indexer.Trace
import ContentIndex.Proofs.Rebuild.Pages

/-
  Steps of a rebuild that one driver makes, each after the one before it, through errors. Of each
  step is kept what was seen of it: its events and its result. From them are read the page that
  it has written, if it did not fail, and how many ids of the page were skipped. A world makes
  such a drive (`World.driven_drive`).
-/

namespace ContentIndex

namespace Note

def scope? : Note → Option (Option String)
  | .listed p _ => some p.scope
  | _ => none

def prepared? : Note → Option UInt64
  | .prepared id => some id
  | _ => none

def skipped? : Note → Option Nat
  | .skipped n => some n
  | _ => none

end Note

/-- What was seen of one step. -/
structure StepRun where
  events : List (Event surroundings)
  result : Except IndexError RebuildStep

namespace StepRun

def isOk (s : StepRun) : Bool :=
  match s.result with
  | .ok _ => true
  | .error _ => false

/-- The position that the step reached, if it did not end the rebuild. -/
def progress? (s : StepRun) : Option Cursor :=
  match s.result with
  | .ok (.progress c) => some c
  | _ => none

/-- The end of the rebuild, if the step reached it. -/
def completed? (s : StepRun) : Option Summary :=
  match s.result with
  | .ok (.completed s) => some s
  | _ => none

/-- The ids that were prepared, in order. -/
def prepared (s : StepRun) : List UInt64 :=
  (notes s.events).filterMap Note.prepared?

/-- The scope of the listing. -/
def scope? (s : StepRun) : Option (Option String) :=
  (notes s.events).findSome? Note.scope?

/-- The page that a step has written, if it did not fail. -/
def page? (s : StepRun) : Option WrittenPage :=
  if s.progress?.isSome && !s.prepared.isEmpty then s.scope?.map (·, s.prepared) else none

/-- How many ids of its page a step has counted as skipped. -/
def skipped (s : StepRun) : Nat :=
  if s.page?.isSome then ((notes s.events).filterMap Note.skipped?).sum else 0

/-- All listings that succeed are parts of one listing. -/
def Lists (s : StepRun) (L : Listing) : Prop :=
  ∀ p ids, .listed p (.ok ids) ∈ notes s.events →
    ids = ((L p.scope).drop p.offset.toNat).take p.limit.toNat

end StepRun

/-- The pages that steps have written, in order. -/
def written (steps : List StepRun) : List WrittenPage :=
  steps.filterMap StepRun.page?

/-- How many ids of these pages were counted as skipped. -/
def skippedBy (steps : List StepRun) : Nat :=
  (steps.map StepRun.skipped).sum

/-! ## What one step shows -/

namespace StepRun

variable {s : StepRun}

theorem of_error {es : List (Event surroundings)} {e : IndexError} :
    (⟨es, .error e⟩ : StepRun).page? = none ∧ (⟨es, .error e⟩ : StepRun).skipped = 0 :=
  ⟨rfl, rfl⟩

theorem of_page {es : List (Event surroundings)} {c : Cursor} {p : Page} {ids : List UInt64}
    {n : Nat} (hi : ids ≠ [])
    (hn : notes es = .listed p (.ok ids) :: (ids.map .prepared ++ [.skipped n])) :
    (⟨es, .ok (.progress c)⟩ : StepRun).page? = some (p.scope, ids) ∧
      (⟨es, .ok (.progress c)⟩ : StepRun).skipped = n := by
  have ids_prepared : (ids.map Note.prepared).filterMap Note.prepared? = ids := by
    rw [List.filterMap_map]
    exact List.filterMap_some
  have none_skipped : (ids.map Note.prepared).filterMap Note.skipped? = [] := by
    rw [List.filterMap_map]
    exact List.filterMap_eq_nil_iff.mpr fun _ _ => rfl
  have hp : (⟨es, .ok (.progress c)⟩ : StepRun).prepared = ids := by
    simp [prepared, hn, List.filterMap_cons, ids_prepared, Note.prepared?]
  have hs : (⟨es, .ok (.progress c)⟩ : StepRun).scope? = some p.scope := by
    simp [scope?, hn, List.findSome?_cons, Note.scope?]
  have page : (⟨es, .ok (.progress c)⟩ : StepRun).page? = some (p.scope, ids) := by
    rw [page?, hp, hs]
    simp [progress?, hi]
  refine ⟨page, ?_⟩
  rw [skipped, page]
  simp [hn, List.filterMap_cons, none_skipped, Note.skipped?]

theorem of_no_page {es : List (Event surroundings)} {c : Cursor} {p : Page}
    (hn : notes es = [.listed p (.ok [])]) :
    (⟨es, .ok (.progress c)⟩ : StepRun).page? = none ∧
      (⟨es, .ok (.progress c)⟩ : StepRun).skipped = 0 := by
  have page : (⟨es, .ok (.progress c)⟩ : StepRun).page? = none := by
    simp [page?, prepared, hn, List.filterMap_cons, Note.prepared?]
  exact ⟨page, by rw [skipped, page]; rfl⟩

end StepRun

theorem written_append (steps steps' : List StepRun) :
    written (steps ++ steps') = written steps ++ written steps' :=
  List.filterMap_append

theorem written_singleton (s : StepRun) : written [s] = s.page?.toList := by
  cases h : s.page? <;> simp [written, h]

theorem skippedBy_append_singleton (steps : List StepRun) (s : StepRun) :
    skippedBy (steps ++ [s]) = skippedBy steps + s.skipped := by
  simp [skippedBy]

/-! ## Drives -/

namespace Indexer

/-- One driver makes steps, each after the one before it, and nobody else writes the record. -/
inductive Driven (x : Indexer) (scopes : List String) :
    Option String → List StepRun → Option String → Prop
  | nil (t : Option String) : Driven x scopes t [] t
  | cons {t t₁ t' : Option String} {s : StepRun} {steps : List StepRun} :
      x.Runs (x.rebuildStep scopes) t s.events s.result t₁ → Driven x scopes t₁ steps t' →
      Driven x scopes t (s :: steps) t'

variable {x : Indexer} {scopes : List String} {t t' : Option String} {steps steps' : List StepRun}

theorem driven_append :
    x.Driven scopes t (steps ++ steps') t' ↔
      ∃ t₁, x.Driven scopes t steps t₁ ∧ x.Driven scopes t₁ steps' t' := by
  induction steps generalizing t with
  | nil =>
    constructor
    · exact fun h => ⟨t, .nil t, h⟩
    · rintro ⟨t₁, h, h'⟩
      cases h
      exact h'
  | cons s steps ih =>
    constructor
    · intro h
      cases h with
      | cons hr h =>
        obtain ⟨t₂, h₁, h₂⟩ := ih.mp h
        exact ⟨t₂, .cons hr h₁, h₂⟩
    · rintro ⟨t₂, h₁, h₂⟩
      cases h₁ with
      | cons hr h => exact .cons hr (ih.mpr ⟨t₂, h, h₂⟩)

theorem driven_append_singleton {s : StepRun} :
    x.Driven scopes t (steps ++ [s]) t' ↔
      ∃ t₁, x.Driven scopes t steps t₁ ∧
        x.Runs (x.rebuildStep scopes) t₁ s.events s.result t' := by
  rw [driven_append]
  constructor
  · rintro ⟨t₁, h, h'⟩
    cases h' with
    | cons hr h' =>
      cases h'
      exact ⟨t₁, h, hr⟩
  · rintro ⟨t₁, h, hr⟩
    exact ⟨t₁, h, .cons hr (.nil t')⟩

end Indexer

/-- No rebuild is recorded. -/
def IndexState.NoRun (t : Option String) : Prop :=
  ∀ s, ofRecord? t = .ok s → s.cursor? = none

theorem IndexState.noRun_completed (now : Calendar.Moment) (n : UInt64) :
    NoRun (some (completed now n).text) := by
  intro s hs
  obtain rfl := eq_of_ofRecord?_text hs
  rfl

/-- The position from which the next step goes on, that of the recorded rebuild or that of a new
one, has a property. -/
def Stands (scopes : List String) (R : Cursor → Prop) (t : Option String) : Prop :=
  (IndexState.NoRun t ∧ ∀ run now total, R (.start run now scopes total)) ∨
    ∃ c, R c ∧ t = some (IndexState.running c).text

theorem Stands.imp {scopes : List String} {R R' : Cursor → Prop} {t : Option String}
    (h : Stands scopes R t) (hR : ∀ c, R c → R' c) : Stands scopes R' t :=
  Or.imp (fun ⟨hno, hs⟩ => ⟨hno, fun run now total => hR _ (hs run now total)⟩)
    (fun ⟨c, hc, ht⟩ => ⟨c, hR c hc, ht⟩) h

/-- A step that does not fail at once goes on from a position with the property. -/
theorem Stands.resumes {x : Indexer} {scopes : List String} {R : Cursor → Prop}
    {t t' : Option String} {es : List (Event surroundings)} {r : Except IndexError RebuildStep}
    (h : Stands scopes R t) (hr : x.Runs (x.rebuildStep scopes) t es r t') :
    (∃ e, r = .error e) ∧ t' = t ∨
      ∃ c t₁, R c ∧ (t₁ = t ∨ t₁ = some (IndexState.running c).text) ∧
        Indexer.Advanced x c t₁ (notes es) r t' := by
  cases Indexer.runs_rebuildStep hr with
  | failed e => exact .inl ⟨⟨e, rfl⟩, rfl⟩
  | resumed hs hc ha =>
    rcases h with ⟨hno, -⟩ | ⟨c, hR, rfl⟩
    · cases (hno _ hs).symm.trans hc
    · obtain rfl := IndexState.eq_of_ofRecord?_text hs
      cases hc
      exact .inr ⟨_, _, hR, .inl rfl, ha⟩
  | started run now total hs hc hstart ha =>
    rcases h with ⟨-, hstarts⟩ | ⟨c, hR, rfl⟩
    · subst hstart
      exact .inr ⟨_, _, hstarts run now total, .inr rfl, ha⟩
    · obtain rfl := IndexState.eq_of_ofRecord?_text hs
      cases hc

/-! ## Drives in a world -/

namespace World

variable {E : Type} {engine : EngineModel E}

/-- So many steps in a world. -/
def drive (engine : EngineModel E) (x : Indexer) (scopes : List String) :
    Nat → World E → List StepRun × World E
  | 0, w => ([], w)
  | n + 1, w =>
    let step := w.perform engine (x.rebuildStep scopes)
    let rest := drive engine x scopes n step.2
    (⟨w.events engine (x.rebuildStep scopes), step.1⟩ :: rest.1, rest.2)

theorem driven_drive (x : Indexer) (scopes : List String) (n : Nat) (w : World E)
    (h : ∀ r w, (engine r w).2.record x.keys.state = w.record x.keys.state) :
    x.Driven scopes (w.record x.keys.state) (w.drive engine x scopes n).1
      ((w.drive engine x scopes n).2.record x.keys.state) := by
  induction n generalizing w with
  | zero => exact .nil _
  | succ n ih => exact .cons (perform_runs x (x.rebuildStep scopes) w h) (ih _)

theorem lists_drive (x : Indexer) (scopes : List String) (n : Nat) (w : World E)
    (h : ∀ r w, (engine r w).2.catalogue = w.catalogue) :
    ∀ s ∈ (w.drive engine x scopes n).1, s.Lists w.catalogue.listing := by
  induction n generalizing w with
  | zero => exact fun s hs => by cases hs
  | succ n ih =>
    intro s hs
    rcases List.mem_cons.mp hs with rfl | hs
    · exact lists_events _ w h
    · rw [← catalogue_perform (x.rebuildStep scopes) w h]
      exact ih _ s hs

end World
end ContentIndex
