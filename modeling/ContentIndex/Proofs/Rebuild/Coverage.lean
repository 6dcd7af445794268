import ContentIndex.Proofs.Rebuild.Drive

/-
  A rebuild that is driven step by step, through errors, writes every page of the listing once.
  A drive is a list of steps, each of which runs from the state record that the one before it
  left. The invariant (`Reached`) ties the cursor in the record to the steps since the rebuild
  began: the pages that they wrote and those that are pending are all pages, what they counted is
  what the counters hold, and the steps that did not fail and those that are left are all steps.
  A step that failed leaves the record alone, so a page that it wrote in part is not counted.
-/

namespace ContentIndex

/-! ## The invariant -/

/-- How far the steps of a rebuild have come when they have reached a cursor. -/
structure Reached (L : Listing) (size : UInt64) (scopes : List String) (steps : List StepRun)
    (c : Cursor) : Prop where
  /-- The pages that were written and those that are pending are all pages. -/
  pages : written steps ++ L.pendingPages size.toNat c = L.pages size.toNat (targets scopes)
  /-- The counters hold what the pages that were written have counted. -/
  counted : ∃ i f, c.synced = .ofNat i ∧ c.failed = .ofNat f ∧
    i + f + skippedBy steps = ((written steps).map fun p => p.2.length).sum
  /-- The steps that did not fail and those that are left are all steps. -/
  count : steps.countP StepRun.isOk + L.stepsLeft size.toNat c =
    L.steps size.toNat (targets scopes)
  /-- All positions are those of one run. -/
  run : ∀ s ∈ steps, ∀ c' ∈ s.progress?, c'.run = c.run

namespace Reached

variable {L : Listing} {size : UInt64} {scopes : List String} {steps : List StepRun} {c : Cursor}

/-- Steps that have all failed have reached the start. -/
theorem start (h : ∀ s ∈ steps, s.isOk = false) (run : RunId) (now : Calendar.Moment)
    (total : UInt64) : Reached L size scopes steps (.start run now scopes total) := by
  have failed : ∀ s ∈ steps, s.progress? = none ∧ s.page? = none ∧ s.skipped = 0 := by
    intro s hs
    obtain ⟨es, r⟩ := s
    cases r with
    | error e => exact ⟨rfl, rfl, rfl⟩
    | ok r => cases h _ hs
  have no_page : written steps = [] :=
    List.filterMap_eq_nil_iff.mpr fun s hs => (failed s hs).2.1
  have none_skipped : skippedBy steps = 0 :=
    List.sum_eq_zero_iff_forall_eq_nat.mpr fun n hn => by
      obtain ⟨s, hs, rfl⟩ := List.mem_map.mp hn
      exact (failed s hs).2.2
  have none_ok : steps.countP StepRun.isOk = 0 :=
    List.countP_eq_zero.mpr fun s hs => by simp [h s hs]
  refine ⟨?_, ⟨0, 0, rfl, rfl, ?_⟩, ?_, ?_⟩
  · rw [no_page, Listing.pendingPages_start, List.nil_append]
  · rw [no_page, none_skipped]
    rfl
  · rw [none_ok, Listing.stepsLeft_start, Nat.zero_add]
  · intro s hs c' hc
    rw [(failed s hs).1] at hc
    cases hc

theorem append_error (h : Reached L size scopes steps c) (es : List (Event surroundings))
    (e : IndexError) : Reached L size scopes (steps ++ [⟨es, .error e⟩]) c := by
  refine ⟨?_, ?_, ?_, ?_⟩
  · rw [written_append, written_singleton, StepRun.of_error.1, Option.toList_none,
      List.append_nil]
    exact h.pages
  · rw [written_append, written_singleton, StepRun.of_error.1, Option.toList_none,
      List.append_nil, skippedBy_append_singleton, StepRun.of_error.2]
    exact h.counted
  · simpa [StepRun.isOk] using h.count
  · intro s hs
    rcases List.mem_append.mp hs with hs | hs
    · exact h.run s hs
    · intro c' hc
      cases List.mem_singleton.mp hs
      cases hc

theorem run_append (h : Reached L size scopes steps c) {es : List (Event surroundings)}
    {c' : Cursor} (hc : c'.run = c.run) :
    ∀ s ∈ steps ++ [⟨es, .ok (.progress c')⟩], ∀ d ∈ s.progress?, d.run = c'.run := by
  intro s hs d hd
  rcases List.mem_append.mp hs with hs | hs
  · exact (h.run s hs d hd).trans hc.symm
  · cases List.mem_singleton.mp hs
    cases hd
    rfl

/-- A part of a listing is empty only if nothing is left there. -/
theorem exhausted_of_slice {l : List UInt64} (hsize : 0 < size.toNat)
    (h : [] = l.take size.toNat) : l = [] := by
  cases l with
  | nil => rfl
  | cons id l =>
    obtain ⟨n, hn⟩ := Nat.exists_eq_succ_of_ne_zero (Nat.pos_iff_ne_zero.mp hsize)
    rw [hn] at h
    cases h

/-- A step that lists no id and goes on to the next scope. -/
theorem append_scope (h : Reached L size scopes steps c) (hsize : 0 < size.toNat)
    {es : List (Event surroundings)} {p : Page} {s : String} (total : UInt64)
    (hn : notes es = [.listed p (.ok [])]) (hl : (L c.scope).drop c.offset.toNat = [])
    (hs : c.scopes[1]? = some s) :
    Reached L size scopes (steps ++ [⟨es, .ok (.progress (c.nextScope total))⟩])
      (c.nextScope total) := by
  obtain ⟨pages, left⟩ := Listing.pendingPages_nextScope hsize total hl hs
  obtain ⟨hp, hk⟩ := StepRun.of_no_page (c := c.nextScope total) hn
  refine ⟨?_, ?_, ?_, h.run_append rfl⟩
  · rw [written_append, written_singleton, hp, Option.toList_none, List.append_nil, ← pages]
    exact h.pages
  · rw [written_append, written_singleton, hp, Option.toList_none, List.append_nil,
      skippedBy_append_singleton, hk]
    exact h.counted
  · have := h.count
    rw [List.countP_append, List.countP_singleton]
    simp only [StepRun.isOk, if_true]
    omega

/-- A step that writes the page that is next. -/
theorem append_page (h : Reached L size scopes steps c) (hsize : 0 < size.toNat)
    (hL : (L c.scope).length < 2 ^ 64) {es : List (Event surroundings)} {ids : List UInt64}
    {o : BulkOutcome} (hi : ids ≠ [])
    (hn : notes es =
      .listed ⟨c.scope, c.offset, size⟩ (.ok ids) :: (ids.map .prepared ++ [.skipped o.skipped]))
    (hl : ids = ((L c.scope).drop c.offset.toNat).take size.toNat) (ho : o.counted = ids.length) :
    Reached L size scopes
      (steps ++ [⟨es, .ok (.progress (c.advance size (.ofNat o.indexed) (.ofNat o.failed)))⟩])
      (c.advance size (.ofNat o.indexed) (.ofNat o.failed)) := by
  have rest : (L c.scope).drop c.offset.toNat ≠ [] := by
    rintro hr
    rw [hr, List.take_nil] at hl
    exact hi hl
  obtain ⟨pages, left⟩ :=
    Listing.pendingPages_advance hsize (.ofNat o.indexed) (.ofNat o.failed) hL rest
  obtain ⟨hp, hk⟩ :=
    StepRun.of_page (c := c.advance size (.ofNat o.indexed) (.ofNat o.failed)) hi hn
  refine ⟨?_, ?_, ?_, h.run_append rfl⟩
  · rw [written_append, written_singleton, hp, Option.toList_some, List.append_assoc,
      List.singleton_append, hl, ← pages]
    exact h.pages
  · obtain ⟨i, f, hi, hf, hsum⟩ := h.counted
    refine ⟨i + o.indexed, f + o.failed, ?_, ?_, ?_⟩
    · rw [Cursor.advance, hi, UInt64.ofNat_add]
    · rw [Cursor.advance, hf, UInt64.ofNat_add]
    · rw [BulkOutcome.counted] at ho
      rw [written_append, written_singleton, hp, skippedBy_append_singleton, hk]
      simp only [Option.toList_some, List.map_append, List.map_cons, List.map_nil,
        List.sum_append, List.sum_singleton]
      omega
  · have := h.count
    rw [List.countP_append, List.countP_singleton]
    simp only [StepRun.isOk, if_true]
    omega

end Reached

/-! ## Runs -/

/-- What the state record says after the steps of a rebuild: nothing of it while all of them have
failed, and then the position that they have reached. -/
inductive Standing (L : Listing) (size : UInt64) (scopes : List String) (steps : List StepRun) :
    Option String → Prop
  | idle {t : Option String} :
      IndexState.NoRun t → (∀ s ∈ steps, s.isOk = false) → Standing L size scopes steps t
  | reached {c : Cursor} :
      Reached L size scopes steps c →
      Standing L size scopes steps (some (IndexState.running c).text)

namespace Indexer

open IndexState (NoRun)

variable {x : Indexer} {L : Listing} {scopes : List String} {steps : List StepRun}
  {t t' : Option String} {es : List (Event surroundings)}

theorem pageSize_pos (x : Indexer) : 0 < x.config.bulkPageSize.toNat := by
  have hv := x.valid
  unfold Config.fault? at hv
  rcases Nat.eq_zero_or_pos x.config.bulkPageSize.toNat with h | h
  · rw [if_pos (UInt64.toNat_inj.mp h)] at hv
    split at hv <;> cases hv
  · exact h

/-- A step that does not fail at once goes on from a cursor that the steps before it have
reached. -/
theorem resumes_reached {r : Except IndexError RebuildStep}
    (h : Standing L x.config.bulkPageSize scopes steps t)
    (hr : x.Runs (x.rebuildStep scopes) t es r t') :
    (∃ e, r = .error e) ∧ t' = t ∨
      ∃ c t₁, Reached L x.config.bulkPageSize scopes steps c ∧
        Standing L x.config.bulkPageSize scopes steps t₁ ∧ Advanced x c t₁ (notes es) r t' := by
  have stands : Stands scopes (Reached L x.config.bulkPageSize scopes steps) t := by
    cases h with
    | idle hno hfailed => exact .inl ⟨hno, Reached.start hfailed⟩
    | reached hc => exact .inr ⟨_, hc, rfl⟩
  rcases stands.resumes hr with failed | ⟨c, t₁, hc, ht, ha⟩
  · exact .inl failed
  · refine .inr ⟨c, t₁, hc, ?_, ha⟩
    rcases ht with rfl | rfl
    · exact h
    · exact .reached hc

/-- What the next step leaves: after a failure and after progress the invariant, and at the end
of the rebuild a cursor before which nothing is left. -/
theorem next_standing {r : Except IndexError RebuildStep}
    (h : Standing L x.config.bulkPageSize scopes steps t)
    (hr : x.Runs (x.rebuildStep scopes) t es r t') (hl : (⟨es, r⟩ : StepRun).Lists L)
    (hL : ∀ s, (L s).length < 2 ^ 64) :
    (∃ e, r = .error e) ∧ Standing L x.config.bulkPageSize scopes (steps ++ [⟨es, r⟩]) t' ∨
    (∃ c, r = .ok (.progress c) ∧ t' = some (IndexState.running c).text ∧
      Reached L x.config.bulkPageSize scopes (steps ++ [⟨es, r⟩]) c) ∨
    ∃ c now, r = .ok (.completed ⟨c.run, c.synced, c.failed⟩) ∧
      t' = some (IndexState.completed now c.synced).text ∧
      Reached L x.config.bulkPageSize scopes steps c ∧
      L.pendingPages x.config.bulkPageSize.toNat c = [] ∧
      L.stepsLeft x.config.bulkPageSize.toNat c = 1 := by
  have failed {t₁ : Option String} (e : IndexError)
      (h : Standing L x.config.bulkPageSize scopes steps t₁) :
      Standing L x.config.bulkPageSize scopes (steps ++ [⟨es, .error e⟩]) t₁ := by
    cases h with
    | idle hno hfailed =>
      refine .idle hno fun s hs => ?_
      rcases List.mem_append.mp hs with hs | hs
      · exact hfailed s hs
      · cases List.mem_singleton.mp hs
        rfl
    | reached hr => exact .reached (hr.append_error es e)
  rcases resumes_reached h hr with ⟨⟨e, rfl⟩, rfl⟩ | ⟨c, t₁, hc, hrec, ha⟩
  · exact .inl ⟨⟨e, rfl⟩, failed e h⟩
  cases ha with
  | failed e => exact .inl ⟨⟨e, rfl⟩, failed e hrec⟩
  | page c' hi hn ho hc' =>
    subst hc'
    have slice := hl _ _ (hn ▸ List.mem_cons_self)
    exact .inr (.inl ⟨_, rfl, rfl, hc.append_page x.pageSize_pos (hL _) hi hn slice ho⟩)
  | scope total hn hs =>
    have slice := hl _ _ (hn ▸ List.mem_cons_self)
    have rest := Reached.exhausted_of_slice x.pageSize_pos slice
    exact .inr (.inl ⟨_, rfl, rfl, hc.append_scope x.pageSize_pos total hn rest hs⟩)
  | completed now hn hs =>
    have slice := hl _ _ (hn ▸ List.mem_cons_self)
    have rest := Reached.exhausted_of_slice x.pageSize_pos slice
    obtain ⟨pages, left⟩ := Listing.pendingPages_last x.pageSize_pos rest hs
    exact .inr (.inr ⟨c, now, rfl, rfl, hc, pages, left⟩)

/-- Steps of which none ends the rebuild go on from where the steps before them stand. -/
theorem standing_append (before : List StepRun)
    (h : Standing L x.config.bulkPageSize scopes before t) (hd : x.Driven scopes t steps t')
    (hc : ∀ s ∈ steps, s.completed? = none) (hl : ∀ s ∈ steps, s.Lists L)
    (hL : ∀ s, (L s).length < 2 ^ 64) :
    Standing L x.config.bulkPageSize scopes (before ++ steps) t' := by
  induction steps generalizing before t with
  | nil =>
    cases hd
    rwa [List.append_nil]
  | cons s steps ih =>
    obtain ⟨es, r⟩ := s
    cases hd with
    | cons hr hd =>
      have here : (⟨es, r⟩ : StepRun) ∈ ⟨es, r⟩ :: steps := List.mem_cons_self
      rw [List.append_cons]
      have after := fun hs => ih (before ++ [⟨es, r⟩]) hs hd
        (fun s hs => hc s (List.mem_cons_of_mem _ hs))
        fun s hs => hl s (List.mem_cons_of_mem _ hs)
      rcases next_standing h hr (hl _ here) hL with ⟨-, hs⟩ | ⟨c, -, rfl, hs⟩ | ⟨c, now, rfl, -⟩
      · exact after hs
      · exact after (.reached hs)
      · cases hc _ here

/-- While no step ends the rebuild, the record says how far it has come. -/
theorem driven_standing (ht : NoRun t) (hd : x.Driven scopes t steps t')
    (hc : ∀ s ∈ steps, s.completed? = none) (hl : ∀ s ∈ steps, s.Lists L)
    (hL : ∀ s, (L s).length < 2 ^ 64) : Standing L x.config.bulkPageSize scopes steps t' :=
  standing_append [] (.idle ht fun s hs => by cases hs) hd hc hl hL

/-- After the end of a rebuild none is recorded. -/
theorem noRun_of_completed {s : StepRun} (h : x.Driven scopes t (steps ++ [s]) t')
    (hs : s.completed? ≠ none) : NoRun t' := by
  obtain ⟨t₁, -, hr⟩ := driven_append_singleton.mp h
  obtain ⟨es, r⟩ := s
  have ended {c : Cursor} {t : Option String} (ha : Advanced x c t (notes es) r t') :
      NoRun t' := by
    cases ha with
    | completed now _ _ => exact IndexState.noRun_completed now _
    | _ => exact absurd rfl hs
  cases runs_rebuildStep hr with
  | failed e => exact absurd rfl hs
  | resumed _ _ ha => exact ended ha
  | started _ _ _ _ _ _ ha => exact ended ha

/-- The step that ends a rebuild: all pages were written before it, and all ids were counted. -/
theorem covered_of_completed (ht : NoRun t) {last : StepRun} {summary : Summary}
    (hd : x.Driven scopes t (steps ++ [last]) t') (hc : ∀ s ∈ steps, s.completed? = none)
    (hs : last.completed? = some summary) (hl : ∀ s ∈ steps ++ [last], s.Lists L)
    (hL : ∀ s, (L s).length < 2 ^ 64) :
    written steps = L.pages x.config.bulkPageSize.toNat (targets scopes) ∧
    (∀ s ∈ steps, ∀ c ∈ s.progress?, c.run = summary.run) ∧
    ∃ i f, summary.synced = .ofNat i ∧ summary.failed = .ofNat f ∧
      i + f + skippedBy steps = L.total (targets scopes) := by
  obtain ⟨t₁, hd, hr⟩ := driven_append_singleton.mp hd
  have before := driven_standing ht hd hc (fun s hs => hl s (List.mem_append_left _ hs)) hL
  obtain ⟨es, r⟩ := last
  have hlast := hl _ (List.mem_append_right _ List.mem_cons_self)
  rcases next_standing before hr hlast hL with ⟨⟨e, rfl⟩, -⟩ | ⟨c, rfl, -⟩ | ⟨c, now, rfl, -, h⟩
  · cases hs
  · cases hs
  · obtain ⟨hc, hp, -⟩ := h
    cases hs
    have pages : written steps = L.pages x.config.bulkPageSize.toNat (targets scopes) := by
      rw [← hc.pages, hp, List.append_nil]
    refine ⟨pages, hc.run, ?_⟩
    obtain ⟨i, f, hi, hf, hsum⟩ := hc.counted
    refine ⟨i, f, hi, hf, ?_⟩
    rw [hsum, pages, Listing.sum_length_pages x.pageSize_pos]

/-- Among steps that do not fail, it is the last of all steps that ends the rebuild. -/
theorem completed_iff_last (ht : NoRun t) {last : StepRun}
    (hd : x.Driven scopes t (steps ++ [last]) t') (hc : ∀ s ∈ steps, s.completed? = none)
    (hok : ∀ s ∈ steps ++ [last], s.isOk) (hl : ∀ s ∈ steps ++ [last], s.Lists L)
    (hL : ∀ s, (L s).length < 2 ^ 64) :
    last.completed? ≠ none ↔
      steps.length + 1 = L.steps x.config.bulkPageSize.toNat (targets scopes) := by
  obtain ⟨t₁, hd, hr⟩ := driven_append_singleton.mp hd
  have before := driven_standing ht hd hc (fun s hs => hl s (List.mem_append_left _ hs)) hL
  have count_all (l : List StepRun) (h : ∀ s ∈ l, s.isOk) : l.countP StepRun.isOk = l.length :=
    List.countP_eq_length.mpr h
  obtain ⟨es, r⟩ := last
  have hlast : (⟨es, r⟩ : StepRun) ∈ steps ++ [⟨es, r⟩] :=
    List.mem_append_right _ List.mem_cons_self
  rcases next_standing before hr (hl _ hlast) hL with ⟨⟨e, rfl⟩, -⟩ | ⟨c, rfl, -, h⟩ | h
  · cases hok _ hlast
  · have count := h.count
    rw [count_all _ hok, List.length_append, List.length_singleton, Listing.stepsLeft] at count
    exact ⟨fun hs => absurd rfl hs, fun he => by omega⟩
  · obtain ⟨c, now, rfl, -, h, -, left⟩ := h
    have count := h.count
    rw [count_all _ fun s hs => hok s (List.mem_append_left _ hs), left] at count
    exact ⟨fun _ => count, fun _ hs => by cases hs⟩

theorem driven_take (hd : x.Driven scopes t steps t') {k : Nat} (hk : k < steps.length) :
    ∃ t₁, x.Driven scopes t (steps.take k ++ [steps[k]]) t₁ := by
  rw [← List.take_append_drop (k + 1) steps, driven_append] at hd
  obtain ⟨t₁, h, -⟩ := hd
  rw [List.take_succ_eq_append_getElem hk] at h
  exact ⟨t₁, h⟩

theorem completed_at_iff (ht : NoRun t) (hd : x.Driven scopes t steps t')
    (hok : ∀ s ∈ steps, s.isOk) (hl : ∀ s ∈ steps, s.Lists L) (hL : ∀ s, (L s).length < 2 ^ 64)
    {k : Nat} (hk : k < steps.length) (hc : ∀ s ∈ steps.take k, s.completed? = none) :
    steps[k].completed? ≠ none ↔
      k + 1 = L.steps x.config.bulkPageSize.toNat (targets scopes) := by
  have inside : ∀ s ∈ steps.take k ++ [steps[k]], s ∈ steps := by
    rw [← List.take_succ_eq_append_getElem hk]
    exact fun s hs => List.mem_of_mem_take hs
  obtain ⟨t₁, h⟩ := driven_take hd hk
  have iff_length := completed_iff_last ht h hc (fun s hs => hok s (inside s hs))
    (fun s hs => hl s (inside s hs)) hL
  rwa [List.length_take_of_le (Nat.le_of_lt hk)] at iff_length

/-- Steps that do not fail do not end the rebuild before the last of all steps. -/
theorem none_completed_before (ht : NoRun t) (hd : x.Driven scopes t steps t')
    (hok : ∀ s ∈ steps, s.isOk) (hl : ∀ s ∈ steps, s.Lists L) (hL : ∀ s, (L s).length < 2 ^ 64)
    {k : Nat} (hk : k < steps.length)
    (hn : k < L.steps x.config.bulkPageSize.toNat (targets scopes)) :
    ∀ s ∈ steps.take k, s.completed? = none := by
  induction k with
  | zero => exact fun s hs => by cases hs
  | succ k ih =>
    have hk' : k < steps.length := Nat.lt_of_succ_lt hk
    have before := ih hk' (Nat.lt_of_succ_lt hn)
    have at_k := completed_at_iff ht hd hok hl hL hk' before
    intro s hs
    rw [List.take_succ_eq_append_getElem hk'] at hs
    rcases List.mem_append.mp hs with hs | hs
    · exact before s hs
    · rw [List.mem_singleton.mp hs]
      cases hc : steps[k].completed? with
      | none => rfl
      | some summary =>
        have := at_k.mp (by rw [hc]; exact Option.some_ne_none _)
        omega

/-- A drive that begins without a recorded rebuild, through errors of any call. When a step ends a
rebuild, the steps since the last end have written all chunks of all listings, each of them
once and in order, all under the run of the summary, and the summary and these steps have
counted every id. A drive in which no step fails ends the rebuild with the step that comes after
as many as there are chunks and further scopes, and not before. -/
theorem rebuild_covers_listings (x : Indexer) (scopes : List String) (L : Listing)
    (hL : ∀ s, (L s).length < 2 ^ 64) {t t' : Option String} (ht : NoRun t)
    {steps : List StepRun} (hd : x.Driven scopes t steps t') :
    (∀ before run last after summary, steps = before ++ run ++ last :: after →
      (∀ s ∈ before.getLast?, s.completed? ≠ none) → (∀ s ∈ run, s.completed? = none) →
      last.completed? = some summary → (∀ s ∈ run ++ [last], s.Lists L) →
        written run = L.pages x.config.bulkPageSize.toNat (targets scopes) ∧
        (∀ s ∈ run, ∀ c ∈ s.progress?, c.run = summary.run) ∧
        summary.synced + summary.failed + .ofNat (skippedBy run) =
          .ofNat (L.total (targets scopes)) ∧
        (L.total (targets scopes) < 2 ^ 64 →
          summary.synced.toNat + summary.failed.toNat + skippedBy run =
            L.total (targets scopes))) ∧
    ((∀ s ∈ steps, s.isOk) → (∀ s ∈ steps, s.Lists L) → ∀ k (hk : k < steps.length),
      k < L.steps x.config.bulkPageSize.toNat (targets scopes) →
        (steps[k].completed? ≠ none ↔
          k + 1 = L.steps x.config.bulkPageSize.toNat (targets scopes))) := by
  constructor
  · rintro before run last after summary rfl hb hc hs hl
    rw [List.append_assoc, driven_append] at hd
    obtain ⟨t₁, hd₁, hd₂⟩ := hd
    rw [← List.singleton_append, ← List.append_assoc, driven_append] at hd₂
    obtain ⟨t₂, hd₂, -⟩ := hd₂
    have ht₁ : NoRun t₁ := by
      cases h : before.getLast? with
      | none =>
        rw [List.getLast?_eq_none_iff.mp h] at hd₁
        cases hd₁
        exact ht
      | some s =>
        obtain ⟨b, rfl⟩ := List.getLast?_eq_some_iff.mp h
        exact noRun_of_completed hd₁ (hb s h)
    obtain ⟨pages, hrun, i, f, hi, hf, hsum⟩ := covered_of_completed ht₁ hd₂ hc hs hl hL
    refine ⟨pages, hrun, ?_, fun htotal => ?_⟩
    · rw [hi, hf, ← hsum, UInt64.ofNat_add, UInt64.ofNat_add]
    · rw [hi, hf, UInt64.toNat_ofNat_of_lt' (show i < 2 ^ 64 by omega),
        UInt64.toNat_ofNat_of_lt' (show f < 2 ^ 64 by omega), hsum]
  · intro hok hl k hk hn
    exact completed_at_iff ht hd hok hl hL hk (none_completed_before ht hd hok hl hL hk hn)

/-! ## One rebuild -/

/-- The rebuild of a scope of one item that is gone: one step for the page, and one for the end. -/
def gonePage : List StepRun := (World.oneGone.drive World.accepting World.plain ["a"] 2).1

theorem length_listing_oneGone (s : Option String) :
    (World.oneGone.catalogue.listing s).length < 2 ^ 64 := by
  by_cases h : s = some "a"
  · subst h
    decide +kernel
  · have unlisted : s.bind World.oneGone.catalogue.scopes.find? = none := by
      cases s with
      | none => rfl
      | some name =>
        exact SortedMap.find?_insert_ne ∅ (fun e => h (congrArg some e.symm)) _
    rw [Catalogue.listing, unlisted]
    decide

theorem rebuild_covers_gone_item :
    World.plain.Driven ["a"] none gonePage
      ((World.oneGone.drive World.accepting World.plain ["a"] 2).2.record World.plain.keys.state) ∧
    gonePage.map (·.completed?) = [none, some ⟨World.runId 0, 0, 0⟩] ∧
    written (gonePage.take 1) = [(some "a", [5])] ∧ skippedBy (gonePage.take 1) = 1 := by
  have hd : World.plain.Driven ["a"] none gonePage
      ((World.oneGone.drive World.accepting World.plain ["a"] 2).2.record World.plain.keys.state) :=
    World.driven_drive World.plain ["a"] 2 World.oneGone (World.accepting_record _)
  have hl : ∀ s ∈ gonePage, s.Lists World.oneGone.catalogue.listing :=
    World.lists_drive World.plain ["a"] 2 World.oneGone World.accepting_catalogue
  have hc : gonePage.map (·.completed?) = [none, some ⟨World.runId 0, 0, 0⟩] := by
    decide +kernel
  have ht : NoRun none := fun s hs => by cases hs; rfl
  obtain ⟨s₁, s₂, hs⟩ : ∃ s₁ s₂, gonePage = [s₁, s₂] := ⟨_, _, rfl⟩
  refine ⟨hd, hc, ?_⟩
  rw [hs] at hd hl hc ⊢
  obtain ⟨hc₁, hc₂⟩ : s₁.completed? = none ∧ s₂.completed? = some ⟨World.runId 0, 0, 0⟩ := by
    simpa using hc
  have covered := (rebuild_covers_listings World.plain ["a"] World.oneGone.catalogue.listing
    length_listing_oneGone ht hd).1 [] [s₁] s₂ [] ⟨World.runId 0, 0, 0⟩ rfl
  obtain ⟨pages, -, -, total⟩ := covered (by simp) (by simpa using hc₁) hc₂ hl
  refine ⟨pages.trans (by decide +kernel), ?_⟩
  have sum : Listing.total World.oneGone.catalogue.listing (targets ["a"]) = 1 := by decide +kernel
  rw [sum] at total
  exact (Nat.zero_add _).symm.trans (total (by decide))

end Indexer
end ContentIndex
