import ContentIndex.Proofs.Rebuild.Coverage

/-
  A rebuild of one scope while items come and go between its pages. A page is a window of the ids
  that are eligible when it is listed, the highest first, so an item is on the page in whose
  window its rank lies: the number of eligible ids above it. When ids above an item go away, its
  rank falls; if it falls below the next offset, the rebuild has passed the item without having
  written it. That is the only way to miss an item that stays (`kept_item_written_or_passed`), and
  it happens (`kept_item_not_written`).
-/

namespace ContentIndex

/-! ## Ranks -/

/-- In a list without repetitions, the item at a place is in the windows over that place. -/
theorem mem_window_iff {α : Type} {l : List α} (hl : l.Nodup) {k : Nat} {a : α}
    (hk : l[k]? = some a) (offset size : Nat) :
    a ∈ (l.drop offset).take size ↔ offset ≤ k ∧ k < offset + size := by
  have here : k < l.length := (List.getElem?_eq_some_iff.mp hk).1
  rw [List.mem_iff_getElem?]
  constructor
  · rintro ⟨i, hi⟩
    rw [List.getElem?_take] at hi
    split at hi
    · rename_i hsize
      rw [List.getElem?_drop, ← hk] at hi
      have := (List.getElem?_inj here hl).mp hi.symm
      omega
    · cases hi
  · rintro ⟨hle, hlt⟩
    refine ⟨k - offset, ?_⟩
    rw [List.getElem?_take_of_lt (by omega), List.getElem?_drop, Nat.add_sub_cancel' hle, hk]

namespace IdSet

variable {s : IdSet} {id : UInt64}

/-- How many ids of a set are above an id. -/
def above (s : IdSet) (id : UInt64) : Nat := s.ids.countP (id < ·)

/-- From the highest id down, an id stands behind those above it. -/
theorem getElem?_above (h : id ∈ s) : s.descending[s.above id]? = some id := by
  obtain ⟨as, bs, hs⟩ := List.append_of_mem (mem_def.mp h)
  have sorted := s.sorted
  rw [hs, List.pairwise_append] at sorted
  obtain ⟨-, behind, before⟩ := sorted
  have lower : as.countP (id < ·) = 0 := by
    refine List.countP_eq_zero.mpr fun a ha => ?_
    have := before a ha id List.mem_cons_self
    simpa using UInt64.le_of_lt this
  have higher : bs.countP (id < ·) = bs.length :=
    List.countP_eq_length.mpr fun b hb =>
      decide_eq_true ((List.pairwise_cons.mp behind).1 b hb)
  have rank : s.above id = bs.reverse.length := by
    unfold above
    rw [hs, List.countP_append, List.countP_cons, lower, higher, List.length_reverse]
    simp
  rw [rank, descending, hs, List.reverse_append, List.reverse_cons, List.append_assoc,
    List.getElem?_append_right (Nat.le_refl _), Nat.sub_self]
  rfl

theorem above_lt_length (h : id ∈ s) : s.above id < s.descending.length :=
  (List.getElem?_eq_some_iff.mp (getElem?_above h)).1

/-- An id is in the windows over its rank. -/
theorem mem_descending_window (h : id ∈ s) (offset size : Nat) :
    id ∈ (s.descending.drop offset).take size ↔
      offset ≤ s.above id ∧ s.above id < offset + size :=
  mem_window_iff (List.nodup_reverse.mpr s.nodup_ids) (getElem?_above h) offset size

end IdSet

/-- The offset of a page by its number; it stops at the largest. -/
def pageOffset (size k : Nat) : Nat := min (k * size) (2 ^ 64 - 1)

theorem pageOffset_zero (size : Nat) : pageOffset size 0 = 0 := by
  rw [pageOffset, Nat.zero_mul, Nat.zero_min]

theorem pageOffset_succ (size k : Nat) :
    pageOffset size (k + 1) = min (pageOffset size k + size) (2 ^ 64 - 1) := by
  unfold pageOffset
  rw [Nat.succ_mul]
  omega

/-! ## Looks -/

/-- A step of a rebuild, and the ids that are eligible in each scope at its time. -/
structure Look where
  step : StepRun
  live : Option String → IdSet

namespace Look

/-- The content store lists the ids that are eligible, the highest first. -/
def Lists (l : Look) : Prop :=
  l.step.Lists fun scope => (l.live scope).descending

/-- The page of a number in what is eligible. -/
def page (size : Nat) (scope : Option String) (k : Nat) (l : Look) : WrittenPage :=
  (scope, ((l.live scope).descending.drop (pageOffset size k)).take size)

/-- The rank of an item: how many eligible ids are above it. -/
def rank (l : Look) (scope : Option String) (id : UInt64) : Nat :=
  (l.live scope).above id

/-- An eligible item is on the page in whose window its rank is. -/
theorem mem_page_iff {l : Look} {scope : Option String} {id : UInt64} (h : id ∈ l.live scope)
    (size k : Nat) :
    id ∈ (l.page size scope k).2 ↔
      pageOffset size k ≤ l.rank scope id ∧ l.rank scope id < pageOffset size k + size :=
  IdSet.mem_descending_window h _ _

end Look

/-- When the rank of an item is below the offset behind all pages in the end, it was in the window
of a page, or it fell below the offset of the next look, which it had reached. -/
theorem caught_or_passed {size : Nat} {scope : Option String} {id : UInt64} (looks : List Look)
    {last : Look} (ends : last.rank scope id < pageOffset size looks.length) :
    (∃ k l, looks[k]? = some l ∧ pageOffset size k ≤ l.rank scope id ∧
        l.rank scope id < pageOffset size k + size) ∨
      ∃ k l l', (looks ++ [last])[k]? = some l ∧ (looks ++ [last])[k + 1]? = some l' ∧
        pageOffset size (k + 1) ≤ l.rank scope id ∧
        l'.rank scope id < pageOffset size (k + 1) := by
  induction looks using List.reverseRecOn generalizing last with
  | nil =>
    rw [List.length_nil, pageOffset_zero] at ends
    exact absurd ends (Nat.not_lt_zero _)
  | append_singleton looks l ih =>
    rw [List.length_append, List.length_singleton] at ends
    have here : (looks ++ [l])[looks.length]? = some l := List.getElem?_concat_length
    have next : pageOffset size (looks.length + 1) ≤ pageOffset size looks.length + size := by
      rw [pageOffset_succ]
      exact Nat.min_le_left _ _
    by_cases before : l.rank scope id < pageOffset size looks.length
    · -- The item was passed or caught up to this look.
      have earlier {k : Nat} {a : Look} {bs cs : List Look} (h : bs[k]? = some a) :
          (bs ++ cs)[k]? = some a := by
        rw [List.getElem?_append_left (List.getElem?_eq_some_iff.mp h).1, h]
      rcases ih before with ⟨k, a, ha, hw⟩ | ⟨k, a, b, ha, hb, hp⟩
      · exact .inl ⟨k, a, earlier ha, hw⟩
      · exact .inr ⟨k, a, b, earlier ha, earlier hb, hp⟩
    · by_cases inside : l.rank scope id < pageOffset size looks.length + size
      · exact .inl ⟨looks.length, l, here, Nat.le_of_not_lt before, inside⟩
      · refine .inr ⟨looks.length, l, last, ?_, ?_, by omega, ends⟩
        · rw [List.getElem?_append_left (by simp), here]
        · rw [List.getElem?_append_right (by simp), List.length_append, List.length_singleton,
            Nat.sub_self]
          rfl

/-- The looks of the steps that did not fail. -/
def succeeded (looks : List Look) : List Look :=
  looks.filter (·.step.isOk)

theorem succeeded_append (looks looks' : List Look) :
    succeeded (looks ++ looks') = succeeded looks ++ succeeded looks' :=
  List.filter_append looks looks'

theorem succeeded_singleton {l : Look} (h : l.step.isOk = true) : succeeded [l] = [l] :=
  List.filter_cons_of_pos h

theorem succeeded_singleton_error {es : List (Event surroundings)} {e : IndexError}
    {live : Option String → IdSet} : succeeded [⟨⟨es, .error e⟩, live⟩] = [] :=
  rfl

/-- Only steps that do not fail write pages. -/
theorem written_succeeded (looks : List Look) :
    written (looks.map (·.step)) = (succeeded looks).filterMap (·.step.page?) := by
  rw [written, List.filterMap_map, succeeded, List.filterMap_filter]
  refine List.filterMap_congr fun l _ => ?_
  obtain ⟨⟨es, _ | _⟩, live⟩ := l <;> rfl

/-- When all steps that do not fail have written a page, there are no other pages. -/
theorem written_eq {looks : List Look} {pages : List WrittenPage}
    (h : (succeeded looks).map (·.step.page?) = pages.map some) :
    written (looks.map (·.step)) = pages := by
  calc written (looks.map (·.step))
      = (succeeded looks).filterMap (·.step.page?) := written_succeeded looks
    _ = ((succeeded looks).map (·.step.page?)).filterMap id := by rw [List.filterMap_map]; rfl
    _ = (pages.map some).filterMap id := by rw [h]
    _ = pages := by rw [List.filterMap_map]; exact List.filterMap_some

/-! ## The invariant -/

/-- Where the steps of a rebuild of one scope have come to: behind one page for each step that
did not fail, each of them a page of what was eligible then. -/
structure Placed (size : UInt64) (scope : Option String) (looks : List Look) (c : Cursor) :
    Prop where
  current : c.scope = scope
  /-- No other scope is left. -/
  single : c.scopes[1]? = none
  offset : c.offset.toNat = pageOffset size.toNat (succeeded looks).length
  pages : (succeeded looks).map (·.step.page?) =
    ((succeeded looks).mapIdx (Look.page size.toNat scope)).map some

namespace Placed

variable {size : UInt64} {scopes : List String} {scope : Option String} {looks : List Look}
  {c : Cursor}

/-- Steps that have all failed have come to the start. -/
theorem start (one : targets scopes = [scope]) (run : RunId) (now : Calendar.Moment)
    (total : UInt64) : Placed size scope [] (.start run now scopes total) := by
  have offset : (0 : UInt64).toNat = pageOffset size.toNat 0 := (pageOffset_zero _).symm
  cases scopes with
  | nil => cases one; exact ⟨rfl, rfl, offset, rfl⟩
  | cons a scopes =>
    obtain ⟨rfl, hs⟩ := List.cons.inj one
    cases List.map_eq_nil_iff.mp hs
    exact ⟨rfl, rfl, offset, rfl⟩

theorem append_error (h : Placed size scope looks c) (es : List (Event surroundings))
    (e : IndexError) (live : Option String → IdSet) :
    Placed size scope (looks ++ [⟨⟨es, .error e⟩, live⟩]) c := by
  refine ⟨h.current, h.single, ?_, ?_⟩
  · rw [succeeded_append, succeeded_singleton_error, List.append_nil]
    exact h.offset
  · rw [succeeded_append, succeeded_singleton_error, List.append_nil]
    exact h.pages

/-- A step that writes the page that is next. -/
theorem append_page (h : Placed size scope looks c) {es : List (Event surroundings)}
    {ids : List UInt64} {i f : UInt64} {skipped : Nat} {live : Option String → IdSet}
    (hi : ids ≠ [])
    (hn : notes es =
      .listed ⟨c.scope, c.offset, size⟩ (.ok ids) :: (ids.map .prepared ++ [.skipped skipped]))
    (hl : ids = ((live c.scope).descending.drop c.offset.toNat).take size.toNat) :
    Placed size scope (looks ++ [⟨⟨es, .ok (.progress (c.advance size i f))⟩, live⟩])
      (c.advance size i f) := by
  have step : (⟨es, .ok (.progress (c.advance size i f))⟩ : StepRun).isOk = true := rfl
  refine ⟨h.current, h.single, ?_, ?_⟩
  · rw [succeeded_append, succeeded_singleton step, List.length_append, List.length_singleton,
      pageOffset_succ, ← h.offset, ← Listing.saturatingAdd_toNat]
    rfl
  · rw [succeeded_append, succeeded_singleton step, List.map_append, h.pages, List.mapIdx_concat,
      List.map_append, List.map_singleton, (StepRun.of_page hi hn).1, hl, h.current, h.offset]
    rfl

end Placed

/-! ## Runs -/

namespace Indexer

variable {x : Indexer} {scopes : List String} {scope : Option String} {looks : List Look}
  {l last : Look} {t t' : Option String}

/-- What the next step leaves: a position behind it, or the end of the rebuild at a position
behind which nothing is eligible. -/
theorem next_placed (h : Stands scopes (Placed x.config.bulkPageSize scope looks) t)
    (hr : x.Runs (x.rebuildStep scopes) t l.step.events l.step.result t') (hl : l.Lists) :
    l.step.completed? = none ∧
        Stands scopes (Placed x.config.bulkPageSize scope (looks ++ [l])) t' ∨
      l.step.completed? ≠ none ∧ ∃ c, Placed x.config.bulkPageSize scope looks c ∧
        (l.live scope).descending.length ≤ c.offset.toNat := by
  obtain ⟨⟨es, r⟩, live⟩ := l
  have failed (e : IndexError) {t : Option String}
      (h : Stands scopes (Placed x.config.bulkPageSize scope looks) t) :
      Stands scopes (Placed x.config.bulkPageSize scope (looks ++ [⟨⟨es, .error e⟩, live⟩])) t :=
    h.imp fun c hc => hc.append_error es e live
  rcases h.resumes hr with ⟨⟨e, rfl⟩, rfl⟩ | ⟨c, t₁, hc, ht, ha⟩
  · exact .inl ⟨rfl, failed e h⟩
  have stands : Stands scopes (Placed x.config.bulkPageSize scope looks) t₁ := by
    rcases ht with rfl | rfl
    · exact h
    · exact .inr ⟨c, hc, rfl⟩
  cases ha with
  | failed e => exact .inl ⟨rfl, failed e stands⟩
  | page c' hi hn ho hc' =>
    subst hc'
    have window := hl _ _ (hn ▸ List.mem_cons_self)
    exact .inl ⟨rfl, .inr ⟨_, hc.append_page hi hn window, rfl⟩⟩
  | scope total hn hs => cases hc.single.symm.trans hs
  | completed now hn hs =>
    have window := hl _ _ (hn ▸ List.mem_cons_self)
    have rest := Reached.exhausted_of_slice x.pageSize_pos window
    change (live c.scope).descending.drop c.offset.toNat = [] at rest
    rw [hc.current] at rest
    exact .inr ⟨Option.some_ne_none _, c, hc, List.drop_eq_nil_iff.mp rest⟩

/-- Steps of which none ends the rebuild go on from where the steps before them have come to. -/
theorem stands_append (before : List Look)
    (h : Stands scopes (Placed x.config.bulkPageSize scope before) t)
    (hd : x.Driven scopes t (looks.map (·.step)) t')
    (hc : ∀ l ∈ looks, l.step.completed? = none) (hl : ∀ l ∈ looks, l.Lists) :
    Stands scopes (Placed x.config.bulkPageSize scope (before ++ looks)) t' := by
  induction looks generalizing before t with
  | nil =>
    cases hd
    rwa [List.append_nil]
  | cons l looks ih =>
    cases hd with
    | cons hr hd =>
      obtain ⟨hcl, hc⟩ := List.forall_mem_cons.mp hc
      obtain ⟨hll, hl⟩ := List.forall_mem_cons.mp hl
      rw [List.append_cons]
      rcases next_placed h hr hll with ⟨-, h⟩ | ⟨hs, -⟩
      · exact ih _ h hd hc hl
      · exact absurd hcl hs

/-- A rebuild, from where none is recorded to its end, with what is eligible at each step. -/
structure Shifting (x : Indexer) (scopes : List String) (looks : List Look) (last : Look) :
    Prop where
  run : ∃ t t', IndexState.NoRun t ∧ x.Driven scopes t ((looks ++ [last]).map (·.step)) t'
  /-- No step before the last ends the rebuild. -/
  going : ∀ l ∈ looks, l.step.completed? = none
  ended : last.step.completed? ≠ none
  lists : ∀ l ∈ looks ++ [last], l.Lists

namespace Shifting

/-- Each step that does not fail writes the page of its number, and in the end nothing is eligible
behind these pages. -/
theorem placed (h : x.Shifting scopes looks last) (one : targets scopes = [scope]) :
    (succeeded looks).map (·.step.page?) =
        ((succeeded looks).mapIdx (Look.page x.config.bulkPageSize.toNat scope)).map some ∧
      (last.live scope).descending.length ≤
        pageOffset x.config.bulkPageSize.toNat (succeeded looks).length := by
  obtain ⟨t, t', hno, hd⟩ := h.run
  rw [List.map_append, List.map_singleton] at hd
  obtain ⟨t₁, hd, hr⟩ := driven_append_singleton.mp hd
  have started : Stands scopes (Placed x.config.bulkPageSize scope []) t :=
    .inl ⟨hno, Placed.start one⟩
  have stands := stands_append [] started hd h.going
    fun l hm => h.lists l (List.mem_append_left _ hm)
  have lists := h.lists last (List.mem_append_right _ (List.mem_singleton_self last))
  rcases next_placed stands hr lists with ⟨hs, -⟩ | ⟨-, c, hc, rest⟩
  · exact absurd hs h.ended
  · rw [List.nil_append] at hc
    rw [← hc.offset]
    exact ⟨hc.pages, rest⟩

/-- Among the steps that do not fail, each has written the page of its number. -/
theorem getElem?_written (h : x.Shifting scopes looks last) (one : targets scopes = [scope])
    {k : Nat} (hl : (succeeded looks)[k]? = some l) :
    l.step.page? = some (l.page x.config.bulkPageSize.toNat scope k) ∧
      (written (looks.map (·.step)))[k]? = some (l.page x.config.bulkPageSize.toNat scope k) := by
  obtain ⟨pages, -⟩ := h.placed one
  constructor
  · have here := congrArg (·[k]?) pages
    simpa [hl] using here
  · rw [written_eq pages, List.getElem?_mapIdx, hl]
    rfl

end Shifting

/-- A rebuild of one scope while items come and go. Each step that does not fail writes one page,
and an item that is eligible at all steps is in just those pages in whose window its rank is at the
step. There is one, unless between two steps that do not fail its rank falls below the offset of
the second, which it had reached. -/
theorem kept_item_written_or_passed (x : Indexer) {scopes : List String} {scope : Option String}
    (one : targets scopes = [scope]) {looks : List Look} {last : Look}
    (h : x.Shifting scopes looks last) {id : UInt64}
    (kept : ∀ l ∈ looks ++ [last], id ∈ l.live scope) :
    (written (looks.map (·.step))).length = (succeeded looks).length ∧
    (∀ k l, (succeeded looks)[k]? = some l →
      ∃ p, l.step.page? = some p ∧ (written (looks.map (·.step)))[k]? = some p ∧
        (id ∈ p.2 ↔ pageOffset x.config.bulkPageSize.toNat k ≤ l.rank scope id ∧
          l.rank scope id <
            pageOffset x.config.bulkPageSize.toNat k + x.config.bulkPageSize.toNat)) ∧
    ((∃ p ∈ written (looks.map (·.step)), id ∈ p.2) ∨
      ∃ k l l', (succeeded looks ++ [last])[k]? = some l ∧
        (succeeded looks ++ [last])[k + 1]? = some l' ∧
        pageOffset x.config.bulkPageSize.toNat (k + 1) ≤ l.rank scope id ∧
        l'.rank scope id < pageOffset x.config.bulkPageSize.toNat (k + 1)) := by
  obtain ⟨pages, rest⟩ := h.placed one
  have stays := kept last (List.mem_append_right _ (List.mem_singleton_self last))
  have ends : last.rank scope id < _ := Nat.lt_of_lt_of_le (IdSet.above_lt_length stays) rest
  have inside {k : Nat} {l : Look} (hl : (succeeded looks)[k]? = some l) :
      id ∈ (l.page x.config.bulkPageSize.toNat scope k).2 ↔ _ :=
    Look.mem_page_iff (kept l (List.mem_append_left _
      (List.mem_of_mem_filter (List.mem_of_getElem? hl)))) _ k
  refine ⟨by rw [written_eq pages, List.length_mapIdx], fun k l hl => ?_, ?_⟩
  · obtain ⟨page, number⟩ := h.getElem?_written one hl
    exact ⟨_, page, number, inside hl⟩
  · refine (caught_or_passed (succeeded looks) ends).imp_left ?_
    rintro ⟨k, l, hl, window⟩
    exact ⟨_, List.mem_of_getElem? (h.getElem?_written one hl).2, (inside hl).mpr window⟩

end Indexer

/-! ## An item that is passed -/

namespace World

variable {E : Type} {engine : EngineModel E}

/-- A step in a world, and what its catalogue lists. -/
def look (engine : EngineModel E) (x : Indexer) (scopes : List String) (w : World E) : Look where
  step := ⟨w.events engine (x.rebuildStep scopes), (w.perform engine (x.rebuildStep scopes)).1⟩
  live scope := .ofList ((scope.bind w.catalogue.scopes.find?).getD
    (w.catalogue.documents.map (·.id)))

theorem lists_look (x : Indexer) (scopes : List String) (w : World E)
    (h : ∀ r w, (engine r w).2.catalogue = w.catalogue) : (w.look engine x scopes).Lists :=
  lists_events (x.rebuildStep scopes).run w h

/-- Between steps the catalogue changes. -/
def restock (w : World E) (c : Catalogue) : World E := { w with catalogue := c }

theorem record_restock (w : World E) (c : Catalogue) (key : String) :
    (w.restock c).record key = w.record key :=
  rfl

theorem runs_look (x : Indexer) (scopes : List String) (w : World E)
    (h : ∀ r w, (engine r w).2.record x.keys.state = w.record x.keys.state) :
    x.Runs (x.rebuildStep scopes) (w.record x.keys.state) (w.look engine x scopes).step.events
      (w.look engine x scopes).step.result
      ((w.perform engine (x.rebuildStep scopes)).2.record x.keys.state) :=
  w.perform_runs x (x.rebuildStep scopes) h

/-- Two steps in a world whose catalogue changes between them. -/
theorem driven_looks (x : Indexer) (scopes : List String) (w w' : World E) (c : Catalogue)
    (hw : w' = (w.perform engine (x.rebuildStep scopes)).2)
    (h : ∀ r w, (engine r w).2.record x.keys.state = w.record x.keys.state) :
    ∃ t', x.Driven scopes (w.record x.keys.state)
      [(w.look engine x scopes).step, ((w'.restock c).look engine x scopes).step] t' := by
  have first := w.runs_look x scopes h
  have second := (w'.restock c).runs_look x scopes h
  rw [← hw] at first
  rw [record_restock] at second
  exact ⟨_, .cons first (.cons second (.nil _))⟩

/-- An indexer that writes one item at a time. -/
def oneByOne : Indexer := ⟨{ bulkPageSize := 1 }, [], none, by decide⟩

/-- A catalogue of one item, whose scope lists some ids. -/
def listing (ids : List UInt64) : Catalogue where
  documents := [.new 1 "post" Calendar.Moment.epoch]
  scopes := SortedMap.insert ∅ "a" ids

/-- A scope that lists item 2, which is about to go, and item 1. -/
def twoItems : World Unit := { engine := (), catalogue := listing [2, 1] }

def firstLook : Look := twoItems.look accepting oneByOne ["a"]

/-- The step after the first one, with item 1 alone in the scope. -/
def secondLook : Look :=
  ((twoItems.perform accepting (oneByOne.rebuildStep ["a"])).2.restock (listing [1])).look
    accepting oneByOne ["a"]

/-- The cursor before the page of item 2. -/
def goingPage : Cursor := .start (runId 0) Calendar.Moment.epoch ["a"] 2

/-- The first step writes a page of item 2, and the second ends the rebuild. -/
theorem steps_twoItems :
    (firstLook.step.completed?, written [firstLook.step], secondLook.step.completed?) =
      (none, [(some "a", [2])], some ⟨runId 0, 0, 0⟩) := by
  have known (x : Indexer) :=
    x.loadState_eq_loadAmong [.running (goingPage.advance 1 0 0), .running goingPage]
  simp only [firstLook, secondLook, look, Indexer.rebuildStep, Indexer.advance,
    Indexer.completeScope, Indexer.persist, Indexer.requireRun, known]
  decide +kernel

theorem shifting_twoItems : oneByOne.Shifting ["a"] [firstLook] secondLook := by
  obtain ⟨going, ended⟩ := Prod.mk.inj steps_twoItems
  obtain ⟨-, ended⟩ := Prod.mk.inj ended
  obtain ⟨t', run⟩ := driven_looks oneByOne ["a"] twoItems _ (listing [1]) rfl
    (accepting_record _)
  have fresh : IndexState.NoRun (twoItems.record oneByOne.keys.state) := by
    intro s hs
    cases hs
    rfl
  refine ⟨⟨_, t', fresh, run⟩, ?_, ?_, ?_⟩
  · intro l hl
    rw [List.mem_singleton.mp hl]
    exact going
  · rw [ended]
    exact Option.some_ne_none _
  · intro l hl
    rcases List.mem_cons.mp hl with rfl | hl
    · exact lists_look _ _ _ fun _ _ => rfl
    · rw [List.mem_singleton.mp hl]
      exact lists_look _ _ _ fun _ _ => rfl

/-- Item 1 stays. -/
theorem kept_twoItems : ∀ l ∈ [firstLook] ++ [secondLook], 1 ∈ l.live (some "a") := by
  have first : 1 ∈ IdSet.ofList [2, 1] := by decide
  have second : 1 ∈ IdSet.ofList [1] := by decide
  intro l hl
  rcases List.mem_cons.mp hl with rfl | hl
  · exact first
  · rw [List.mem_singleton.mp hl]
    exact second

theorem not_written_twoItems : ¬ ∃ p ∈ written [firstLook.step], 1 ∈ p.2 := by
  obtain ⟨-, pages⟩ := Prod.mk.inj steps_twoItems
  rw [(Prod.mk.inj pages).1]
  decide

end World

namespace Indexer

/-- An item that stays need not be written. -/
theorem kept_item_not_written :
    ¬ ∀ (x : Indexer) (scopes : List String) (scope : Option String) (looks : List Look)
      (last : Look), targets scopes = [scope] → x.Shifting scopes looks last →
      ∀ id, (∀ l ∈ looks ++ [last], id ∈ l.live scope) →
        ∃ p ∈ written (looks.map (·.step)), id ∈ p.2 := by
  intro all
  exact World.not_written_twoItems (all World.oneByOne ["a"] (some "a") [World.firstLook]
    World.secondLook rfl World.shifting_twoItems 1 World.kept_twoItems)

/-- Item 1 was passed when item 2 went. -/
theorem kept_item_passed :
    ∃ k l l', (succeeded [World.firstLook] ++ [World.secondLook])[k]? = some l ∧
      (succeeded [World.firstLook] ++ [World.secondLook])[k + 1]? = some l' ∧
      pageOffset 1 (k + 1) ≤ l.rank (some "a") 1 ∧ l'.rank (some "a") 1 < pageOffset 1 (k + 1) :=
  (kept_item_written_or_passed World.oneByOne rfl World.shifting_twoItems
    World.kept_twoItems).2.2.resolve_left World.not_written_twoItems

end Indexer
end ContentIndex
