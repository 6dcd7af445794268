import ContentIndex.Proofs.Bulk.Tally
import ContentIndex.Proofs.Rebuild.Coverage
import ContentIndex.Proofs.Rebuild.Recreate

/-
  What a rebuild exchanges with the engine. It is a list of sections, one for each scope in turn:
  the index of the scope is made anew, and then the items of its pages are delivered
  (`rebuild_sections`). The invariant (`Built`) ties the cursor to the sections so far: all but
  the last are complete, and the last one misses at most the ids from the offset on.
-/

namespace ContentIndex

open Bulk (Delivery)
open Program (runs_bind_ok)

/-- The store lists parts of one listing. -/
def Listing.Answers (L : Listing) (es : List (Event surroundings)) : Prop :=
  ∀ p ids, .listed p (.ok ids) ∈ notes es →
    ids = ((L p.scope).drop p.offset.toNat).take p.limit.toNat

theorem Listing.Answers.left {L : Listing} {es es' : List (Event surroundings)}
    (h : L.Answers (es ++ es')) : L.Answers es :=
  fun p ids hm => h p ids (by rw [notes_append]; exact List.mem_append_left _ hm)

theorem Listing.Answers.right {L : Listing} {es es' : List (Event surroundings)}
    (h : L.Answers (es ++ es')) : L.Answers es' :=
  fun p ids hm => h p ids (by rw [notes_append]; exact List.mem_append_right _ hm)

/-! ## Sections -/

/-- The part of a rebuild that is on one scope. -/
structure Section (x : Indexer) where
  scope : Option String
  opening : List Exchange
  fetched : List Fetch
  deliveries : List (Delivery x.config.bulkMaxAttempts.toNat)

namespace Section

variable {x : Indexer}

/-- The bulk requests. -/
def bulks (p : Section x) : List Exchange :=
  p.deliveries.flatMap fun d => d.attempts.map (x.exchange (x.pathsFor p.scope))

def exchanges (p : Section x) : List Exchange := p.opening ++ p.bulks

/-- The index was opened, and what is not left of the listing was fetched and delivered. -/
structure Covers (L : Listing) (left : List UInt64) (p : Section x) : Prop where
  opens : Opens x.config.usesMappingTypes (x.config.indexForScope p.scope) p.opening
  handed : p.fetched.filterMap (·.handed? x.hooks) = p.deliveries.flatMap (·.entries)
  listed : ∀ f ∈ p.fetched, f.id ∈ L p.scope
  covered : ∀ id ∈ L p.scope, id ∈ p.fetched.map (·.id) ∨ id ∈ left

end Section

variable {x : Indexer} {L : Listing} {scopes : List String} {c : Cursor}
  {ps qs rs : List (Section x)} {p : Section x} {es es' : List (Event surroundings)}
  {t t' : Option String}

/-- Events that lead from some sections to others. -/
structure Extends (ps : List (Section x)) (es : List (Event surroundings))
    (qs : List (Section x)) : Prop where
  exchanged : qs.flatMap Section.exchanges = ps.flatMap Section.exchanges ++ exchanges es
  fetched : qs.flatMap Section.fetched = ps.flatMap Section.fetched ++ fetches es

theorem Extends.trans (h : Extends ps es qs) (h' : Extends qs es' rs) :
    Extends ps (es ++ es') rs := by
  refine ⟨?_, ?_⟩
  · rw [h'.exchanged, h.exchanged, exchanges_append, List.append_assoc]
  · rw [h'.fetched, h.fetched, fetches_append, List.append_assoc]

/-- Events without traffic lead nowhere. -/
theorem Extends.of_no_traffic (h : exchanges es = [] ∧ fetches es = []) : Extends ps es ps := by
  refine ⟨?_, ?_⟩
  · rw [h.1, List.append_nil]
  · rw [h.2, List.append_nil]

/-- Only the traffic of the events matters. -/
theorem Extends.congr (h : Extends ps es' qs) (hx : exchanges es = exchanges es')
    (hf : fetches es = fetches es') : Extends ps es qs :=
  ⟨by rw [h.exchanged, hx], by rw [h.fetched, hf]⟩

/-! ## The invariant -/

/-- How far the sections of a rebuild have come when they have reached a cursor. -/
structure Built (L : Listing) (scopes : List String) (c : Cursor) (ps : List (Section x))
    (p : Section x) : Prop where
  complete : ∀ q ∈ ps, q.Covers L []
  current : p.Covers L ((L c.scope).drop c.offset.toNat)
  scope : p.scope = c.scope
  order : ps.map (·.scope) ++ c.scope :: c.scopes.tail.map some = targets scopes

namespace Built

/-- At a new cursor the first scope is open. -/
theorem start (run : RunId) (now : Calendar.Moment) (total : UInt64) {xs : List Exchange}
    (hx : Opens x.config.usesMappingTypes (x.config.indexForScope scopes.head?) xs) :
    Built (x := x) L scopes (.start run now scopes total) [] ⟨scopes.head?, xs, [], []⟩ := by
  refine ⟨fun q hq => (List.not_mem_nil hq).elim, ⟨hx, rfl, fun f hf => ?_, fun id hid => ?_⟩,
    rfl, ?_⟩
  · exact (List.not_mem_nil hf).elim
  · exact .inr hid
  · cases scopes <;> rfl

/-- A page was delivered. -/
theorem page (h : Built L scopes c ps p) {size : UInt64} {ids : List UInt64} {fs : List Fetch}
    {xs : List Exchange} {ds : List (Delivery x.config.bulkMaxAttempts.toNat)}
    {o : BulkOutcome} (i f : UInt64)
    (hids : ids = ((L c.scope).drop c.offset.toNat).take size.toNat)
    (hfs : fs.map (·.id) = ids) (T : Tally x (x.pathsFor c.scope) fs xs [] ds o) :
    Built L scopes (c.advance size i f) ps
      { p with fetched := p.fetched ++ fs, deliveries := p.deliveries ++ ds } := by
  refine ⟨h.complete, ⟨h.current.opens, ?_, ?_, ?_⟩, h.scope, h.order⟩
  · rw [List.filterMap_append, List.flatMap_append, h.current.handed, T.handed, List.append_nil]
  · intro g hg
    rcases List.mem_append.mp hg with hg | hg
    · exact h.current.listed g hg
    · have hid : g.id ∈ ids := by
        rw [← hfs]
        exact List.mem_map_of_mem hg
      rw [hids] at hid
      show g.id ∈ L p.scope
      rw [h.scope]
      exact List.mem_of_mem_drop (List.mem_of_mem_take hid)
  · intro id hid
    rw [List.map_append, hfs, List.mem_append, or_assoc]
    refine (h.current.covered id hid).imp_right fun hleft => ?_
    -- The next offset is not beyond the end of the page, so what the page lacks is left.
    have near : (c.advance size i f).offset.toNat ≤ c.offset.toNat + size.toNat := by
      show (saturatingAdd c.offset size).toNat ≤ _
      rw [Listing.saturatingAdd_toNat]
      exact Nat.min_le_left _ _
    rw [← List.take_append_drop size.toNat ((L c.scope).drop c.offset.toNat), ← hids,
      List.mem_append, List.drop_drop] at hleft
    exact hleft.imp_right fun hm => (List.drop_sublist_drop_left _ near).subset hm

/-- At the end of a scope all sections so far are complete. -/
theorem all_complete (h : Built L scopes c ps p) (hn : (L c.scope).drop c.offset.toNat = []) :
    ∀ q ∈ ps ++ [p], q.Covers L [] := by
  have hc := h.current
  rw [hn] at hc
  intro q hq
  rcases List.mem_append.mp hq with hq | hq
  · exact h.complete q hq
  · rwa [List.mem_singleton.mp hq]

/-- A scope has ended, and the next one is open. -/
theorem next (h : Built L scopes c ps p) (hn : (L c.scope).drop c.offset.toNat = [])
    {s : String} (hs : c.scopes[1]? = some s) (total : UInt64) {xs : List Exchange}
    (hx : Opens x.config.usesMappingTypes (x.config.indexForScope (some s)) xs) :
    Built L scopes (c.nextScope total) (ps ++ [p]) ⟨some s, xs, [], []⟩ := by
  have rest := Listing.tail_of_second hs
  have scope : (c.nextScope total).scope = some s := by
    show c.scopes.tail.head? = some s
    rw [rest, List.head?_cons]
  refine ⟨h.all_complete hn, ⟨hx, rfl, fun f hf => (List.not_mem_nil hf).elim, fun id hid => ?_⟩,
    scope.symm, ?_⟩
  · rw [scope]
    exact .inr hid
  · have order := h.order
    rw [rest, List.map_cons] at order
    rw [scope, List.map_append, List.append_assoc, List.map_singleton, h.scope, ← order]
    rfl

/-- The last scope has ended. -/
theorem last (h : Built L scopes c ps p) (hn : (L c.scope).drop c.offset.toNat = [])
    (hs : c.scopes[1]? = none) :
    (∀ q ∈ ps ++ [p], q.Covers L []) ∧ (ps ++ [p]).map (·.scope) = targets scopes := by
  have order := h.order
  rw [Listing.tail_of_last hs] at order
  refine ⟨h.all_complete hn, ?_⟩
  rw [List.map_append, List.map_singleton, h.scope, ← order]
  rfl

end Built

/-! ## Steps -/

namespace Indexer

/-- What a step from a cursor adds to the sections; in the end all of them are complete. -/
inductive Builds (L : Listing) (scopes : List String) (ps : List (Section x)) (p : Section x)
    (es : List (Event surroundings)) : RebuildStep → Prop
  | progress {c' : Cursor} {ps' : List (Section x)} {p' : Section x} :
      Built L scopes c' ps' p' → Extends (ps ++ [p]) es (ps' ++ [p']) →
      Builds L scopes ps p es (.progress c')
  | completed (sm : Summary) :
      (∀ q ∈ ps ++ [p], q.Covers L []) → (ps ++ [p]).map (·.scope) = targets scopes →
      Extends (ps ++ [p]) es (ps ++ [p]) → Builds L scopes ps p es (.completed sm)

theorem Builds.congr {r : RebuildStep} (h : Builds L scopes ps p es' r)
    (hx : exchanges es = exchanges es') (hf : fetches es = fetches es') :
    Builds L scopes ps p es r := by
  cases h with
  | progress B hext => exact .progress B (hext.congr hx hf)
  | completed sm hc ho hext => exact .completed sm hc ho (hext.congr hx hf)

/-- The end of a scope opens the next one, or ends the rebuild. -/
theorem builds_completeScope (B : Built L scopes c ps p)
    (hn : (L c.scope).drop c.offset.toNat = []) {r : RebuildStep}
    (h : x.Runs (x.completeScope c) t es (.ok r) t') : Builds L scopes ps p es r := by
  unfold completeScope at h
  obtain ⟨-, t₁, es₁, hx₁, hf₁, h⟩ := runs_unseen_bind (unseen_reportFailures x c) h
  refine Builds.congr ?_ hx₁ hf₁
  cases hs : c.scopes[1]? with
  | some s =>
    simp only [hs] at h
    obtain ⟨total, t₂, es₂, hx₂, hf₂, h⟩ :=
      runs_unseen_bind (unseen_count (some s)) h
    refine Builds.congr ?_ hx₂ hf₂
    obtain ⟨u, t₃, es₃, es₄, rfl, h₃, h₄⟩ := runs_bind_ok h
    obtain ⟨hf₃, opens⟩ := runs_recreateIndex h₃
    obtain ⟨-, t₄, es₅, hx₄, hf₄, h₅⟩ := runs_unseen_bind (unseen_persist x _) h₄
    obtain ⟨rfl, hr, -⟩ := runs_pure_iff.mp h₅
    cases hr
    refine .progress (B.next hn hs total opens) ⟨?_, ?_⟩
    · rw [List.flatMap_append, List.flatMap_singleton, exchanges_append, hx₄, exchanges_nil,
        List.append_nil]
      exact congrArg _ (List.append_nil _)
    · rw [List.flatMap_append, List.flatMap_singleton, fetches_append, hf₃, hf₄]
      rfl
  | none =>
    simp only [hs] at h
    obtain ⟨-, t₂, es₂, hx₂, hf₂, h⟩ := runs_unseen_bind (unseen_requireRun x c.run) h
    refine Builds.congr ?_ hx₂ hf₂
    obtain ⟨now, t₃, es₃, hx₃, hf₃, h⟩ := runs_unseen_bind (unseen_ask .now True.intro) h
    refine Builds.congr ?_ hx₃ hf₃
    obtain ⟨-, t₄, es₄, hx₄, hf₄, h⟩ := runs_unseen_bind (unseen_saveState x _) h
    refine Builds.congr ?_ hx₄ hf₄
    obtain ⟨rfl, hr, -⟩ := runs_pure_iff.mp h
    cases hr
    obtain ⟨complete, order⟩ := B.last hn hs
    exact .completed _ complete order (.of_no_traffic ⟨rfl, rfl⟩)

/-- A step from a cursor delivers a page, or ends the scope. -/
theorem builds_advance (B : Built L scopes c ps p) (hL : L.Answers es) {r : RebuildStep}
    (h : x.Runs (x.advance c) t es (.ok r) t') : Builds L scopes ps p es r := by
  obtain ⟨ids, t₁, es₁, es₂, rfl, h₁, h₂⟩ := runs_bind_ok h
  obtain ⟨-, hnotes⟩ := runs_listIds h₁
  have slice : ids = ((L c.scope).drop c.offset.toNat).take x.config.bulkPageSize.toNat := by
    refine hL ⟨c.scope, c.offset, x.config.bulkPageSize⟩ ids ?_
    rw [notes_append, hnotes ids rfl]
    exact List.mem_cons_self
  obtain ⟨hx₁, hf₁⟩ := no_traffic_of_calls (Action.calls_listIds True.intro) h₁
  refine Builds.congr (?_ : Builds L scopes ps p es₂ r) (by rw [exchanges_append, hx₁]; rfl)
    (by rw [fetches_append, hf₁]; rfl)
  cases hids : ids with
  | nil =>
    rw [hids] at h₂ slice
    exact builds_completeScope B (Reached.exhausted_of_slice x.pageSize_pos slice) h₂
  | cons id rest =>
    simp only [hids, List.isEmpty_cons, Bool.false_eq_true, if_false] at h₂
    obtain ⟨o, t₂, es₃, es₄, rfl, h₃, h₄⟩ := runs_bind_ok h₂
    obtain ⟨hfs, ⟨ds, T⟩, -⟩ :=
      runs_bulkInto_tally (idle_recorded _) (Follow.trivial _ x (some c.offset)) h₃
    obtain ⟨-, t₃, es₅, hx₅, hf₅, h₅⟩ :=
      runs_unseen_bind (unseen_ask (.content .releaseCaches) True.intro) h₄
    obtain ⟨-, t₄, es₆, hx₆, hf₆, h₆⟩ :=
      runs_unseen_bind (unseen_ask (.measure (.rebuildOffset _)) True.intro) h₅
    obtain ⟨-, t₅, es₇, hx₇, hf₇, h₇⟩ :=
      runs_unseen_bind (unseen_ask (.measure (.rebuildSynced _)) True.intro) h₆
    obtain ⟨-, t₆, es₈, hx₈, hf₈, h₈⟩ := runs_unseen_bind (unseen_persist x _) h₇
    obtain ⟨rfl, hr, -⟩ := runs_pure_iff.mp h₈
    cases hr
    refine .progress (B.page _ _ slice (hfs.trans hids.symm) T) ⟨?_, ?_⟩
    · rw [exchanges_append, hx₅, hx₆, hx₇, hx₈, exchanges_nil, List.append_nil, T.sent]
      simp only [List.flatMap_append, List.flatMap_singleton, Section.exchanges, Section.bulks,
        B.scope, List.append_assoc]
    · rw [fetches_append, hf₅, hf₆, hf₇, hf₈, fetches_nil, List.append_nil]
      simp only [List.flatMap_append, List.flatMap_singleton, List.append_assoc]

/-! ## Whole rebuilds -/

/-- One more step goes on from the cursor in the record. -/
theorem builds_continueRebuild (B : Built L scopes c ps p) (hL : L.Answers es) {r : RebuildStep}
    (h : x.Runs (x.continueRebuild c.run) (some (IndexState.running c).text) es (.ok r) t') :
    Builds L scopes ps p es r ∧
      ∀ c', r = .progress c' → t' = some (IndexState.running c').text := by
  obtain ⟨s, t₁, es₁, es₂, rfl, h₁, h₂⟩ := runs_bind_ok h
  obtain ⟨rfl, -, hs⟩ := runs_loadState h₁
  obtain ⟨hx₁, hf₁⟩ := no_traffic_of_calls (unseen_loadState x) h₁
  obtain rfl := IndexState.eq_of_ofRecord?_text (hs s rfl)
  change x.Runs (Action.require (c.run == c.run) .cancelled >>= fun _ => x.advance c) _ _ _ _ at h₂
  obtain ⟨u, t₂, es₃, es₄, rfl, h₃, h₄⟩ := runs_bind_ok h₂
  obtain ⟨hx₃, hf₃⟩ := no_traffic_of_calls (Action.calls_require _ _) h₃
  refine ⟨?_, ?_⟩
  · refine (builds_advance B hL.right.right h₄).congr ?_ ?_
    · rw [exchanges_append, exchanges_append, hx₁, hx₃]
      rfl
    · rw [fetches_append, fetches_append, hf₁, hf₃]
      rfl
  · rintro c' rfl
    exact runs_advance_saves h₄

/-- Sections that make up a whole rebuild. -/
structure Whole (L : Listing) (scopes : List String) (qs : List (Section x)) : Prop where
  complete : ∀ q ∈ qs, q.Covers L []
  order : qs.map (·.scope) = targets scopes

/-- After a step, the rebuild goes on until all sections are complete. -/
theorem whole_rebuildFrom {limit : Nat} {r : RebuildStep} {sm : Summary}
    (b : Builds L scopes ps p es r)
    (saved : ∀ c, r = .progress c → t = some (IndexState.running c).text)
    (hL : L.Answers es') (h : x.Runs (x.rebuildFrom limit r) t es' (.ok (some sm)) t') :
    ∃ qs, Whole L scopes qs ∧ Extends (ps ++ [p]) (es ++ es') qs := by
  induction limit generalizing r ps p es t es' with
  | zero =>
    cases b with
    | progress B hext =>
      obtain ⟨-, hr, -⟩ := runs_pure_iff.mp h
      cases hr
    | completed s complete order hext =>
      obtain ⟨rfl, -, -⟩ := runs_pure_iff.mp h
      exact ⟨_, ⟨complete, order⟩, by rwa [List.append_nil]⟩
  | succ limit ih =>
    cases b with
    | progress B hext =>
      cases saved _ rfl
      obtain ⟨r', t₁, es₁, es₂, rfl, h₁, h₂⟩ := runs_bind_ok h
      obtain ⟨b', saved'⟩ := builds_continueRebuild B hL.left h₁
      obtain ⟨qs, whole, hext'⟩ := ih b' saved' hL.right h₂
      exact ⟨qs, whole, hext.trans hext'⟩
    | completed s complete order hext =>
      obtain ⟨rfl, -, -⟩ := runs_pure_iff.mp h
      exact ⟨_, ⟨complete, order⟩, by rwa [List.append_nil]⟩

/-- A rebuild begins by opening the first index. -/
theorem runs_startRebuild_opens {c : Cursor}
    (h : x.Runs (x.startRebuild scopes) t es (.ok c) t') :
    fetches es = [] ∧
      Opens x.config.usesMappingTypes (x.config.indexForScope scopes.head?) (exchanges es) ∧
      ∃ run now total, c = .start run now scopes total := by
  obtain ⟨u, t₁, es₁, es₂, rfl, h₁, h⟩ := runs_bind_ok h
  obtain ⟨hf₁, opens⟩ := runs_recreateIndex h₁
  obtain ⟨-, t₂, es₃, hx₃, hf₃, h⟩ := runs_unseen_bind (unseen_stored Ledger.always_clear) h
  obtain ⟨total, t₃, es₄, hx₄, hf₄, h⟩ := runs_unseen_bind (unseen_count scopes.head?) h
  obtain ⟨run, t₄, es₅, hx₅, hf₅, h⟩ := runs_unseen_bind (unseen_ask .newRun True.intro) h
  obtain ⟨now, t₅, es₆, hx₆, hf₆, h⟩ := runs_unseen_bind (unseen_ask .now True.intro) h
  obtain ⟨-, t₆, es₇, hx₇, hf₇, h⟩ := runs_unseen_bind (unseen_saveState x _) h
  obtain ⟨rfl, hc, -⟩ := runs_pure_iff.mp h
  have silent : exchanges es₂ = [] ∧ fetches es₂ = [] :=
    ⟨by rw [hx₃, hx₄, hx₅, hx₆, hx₇, exchanges_nil],
      by rw [hf₃, hf₄, hf₅, hf₆, hf₇, fetches_nil]⟩
  rw [exchanges_append, fetches_append, silent.1, silent.2, List.append_nil, List.append_nil]
  cases hc
  exact ⟨hf₁, opens, run, now, total, rfl⟩

/-- A rebuild that begins anew and ends is one section for each scope, in their order. -/
theorem rebuild_sections {limit : Nat} {sm : Summary} (hn : IndexState.NoRun t)
    (hL : L.Answers es) (h : x.Runs (x.rebuild limit scopes) t es (.ok (some sm)) t') :
    ∃ qs : List (Section x), Whole L scopes qs ∧ qs.flatMap Section.exchanges = exchanges es ∧
      qs.flatMap Section.fetched = fetches es := by
  obtain ⟨r, t₁, es₁, es₂, rfl, h₁, h₂⟩ := runs_bind_ok h
  obtain ⟨s, t₂, es₃, es₄, rfl, h₃, h₄⟩ := runs_bind_ok h₁
  obtain ⟨rfl, -, hs⟩ := runs_loadState h₃
  obtain ⟨hx₃, hf₃⟩ := no_traffic_of_calls (unseen_loadState x) h₃
  simp only [hn s (hs s rfl)] at h₄
  obtain ⟨c, t₃, es₅, es₆, rfl, h₅, h₆⟩ := runs_bind_ok h₄
  obtain ⟨hf₅, opens, run, now, total, rfl⟩ := runs_startRebuild_opens h₅
  have b := builds_advance (Built.start run now total opens) hL.left.right.right h₆
  obtain ⟨qs, whole, hext⟩ :=
    whole_rebuildFrom b (fun c' hc => runs_advance_saves (hc ▸ h₆)) hL.right h₂
  refine ⟨qs, whole, ?_, ?_⟩
  · rw [hext.exchanged]
    simp only [exchanges_append, hx₃, List.nil_append, List.append_assoc, List.flatMap_singleton]
    exact congrArg (· ++ _) (List.append_nil (exchanges es₅))
  · rw [hext.fetched]
    simp only [fetches_append, hf₃, hf₅, List.nil_append, List.append_assoc,
      List.flatMap_singleton]

end Indexer
end ContentIndex
