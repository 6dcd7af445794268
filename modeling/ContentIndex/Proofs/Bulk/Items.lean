import ContentIndex.Proofs.Bulk.Flush

/-
  The items of a bulk write, one after another. An item that was fetched is broken, skipped or an
  entry (`length_fetches`), and one step of the loop does one of four things with it (`Handling`):
  it notes the failure, counts the item as skipped, lets its entry wait in the batch, or sends the
  batch that the entry has filled. A bulk write is a list of such steps, one for each item that was
  fetched, and then the rest of the batch (`runs_bulkInto_handlings`); it ends early only with the
  error of a step.
-/

namespace ContentIndex

open Bulk (Batch Delivery Entry)
open Program (runs_bind_except runs_done_iff runs_map_except)

/-! ## Fetched items -/

deriving instance DecidableEq for Fetch

namespace Fetch

/-- The entry of an item that is to be written. -/
def handed? (hooks : Hooks) (f : Fetch) : Option Entry :=
  match f.answer with
  | .ok (some d) => if hooks.skips d then none else some (.ofDocument (hooks.prepare d))
  | _ => none

/-- Whether the item is gone or left out by a hook. -/
def isSkipped (hooks : Hooks) (f : Fetch) : Bool :=
  match f.answer with
  | .ok none => true
  | .ok (some d) => hooks.skips d
  | .error _ => false

/-- Whether the item could not be prepared. -/
def isBroken (f : Fetch) : Bool :=
  match f.answer with
  | .ok _ => false
  | .error _ => true

variable {hooks : Hooks} {d : Document}

theorem handed?_of_not_skips (id : UInt64) (h : hooks.skips d = false) :
    handed? hooks ⟨id, .ok (some d)⟩ = some (.ofDocument (hooks.prepare d)) := by
  unfold handed?
  simp only [h, Bool.false_eq_true, if_false]

/-- An item is of one kind only. -/
theorem handed?_of_isBroken {f : Fetch} (h : f.isBroken = true) : f.handed? hooks = none := by
  unfold isBroken at h
  unfold handed?
  cases ha : f.answer with
  | error e => rfl
  | ok d => rw [ha] at h; cases h

theorem handed?_of_isSkipped {f : Fetch} (h : f.isSkipped hooks = true) :
    f.handed? hooks = none := by
  unfold isSkipped at h
  unfold handed?
  cases ha : f.answer with
  | error e => rfl
  | ok o =>
    rw [ha] at h
    cases o with
    | none => rfl
    | some d => exact if_pos h

theorem not_isBroken_of_handed? {f : Fetch} {e : Entry} (h : f.handed? hooks = some e) :
    f.isBroken = false := by
  rw [← Bool.not_eq_true]
  intro hb
  rw [handed?_of_isBroken hb] at h
  cases h

theorem not_isSkipped_of_handed? {f : Fetch} {e : Entry} (h : f.handed? hooks = some e) :
    f.isSkipped hooks = false := by
  rw [← Bool.not_eq_true]
  intro hs
  rw [handed?_of_isSkipped hs] at h
  cases h

end Fetch

/-- The entries of several items, the first one apart. -/
theorem filterMap_handed?_cons (hooks : Hooks) (f : Fetch) (fs : List Fetch) :
    (f :: fs).filterMap (·.handed? hooks) =
      (f.handed? hooks).toList ++ fs.filterMap (·.handed? hooks) := by
  rw [List.filterMap_cons]
  cases f.handed? hooks with
  | none => rfl
  | some e => rfl

/-- Every item is an entry, skipped or broken. -/
theorem length_fetches (hooks : Hooks) (fs : List Fetch) :
    fs.length = (fs.filterMap (·.handed? hooks)).length + fs.countP (·.isSkipped hooks) +
      (fs.filter (·.isBroken)).length := by
  induction fs with
  | nil => rfl
  | cons f fs ih =>
    have once : (f.handed? hooks).toList.length + (if f.isSkipped hooks then 1 else 0) +
        (if f.isBroken then 1 else 0) = 1 := by
      unfold Fetch.handed? Fetch.isSkipped Fetch.isBroken
      cases f.answer with
      | error e => rfl
      | ok d =>
        cases d with
        | none => rfl
        | some d => cases hs : hooks.skips d <;> simp [hs]
    rw [List.length_cons, List.countP_cons, List.filter_cons, List.filterMap_cons]
    cases he : f.handed? hooks <;> cases hs : f.isSkipped hooks <;> cases hb : f.isBroken <;>
      simp [he, hs, hb] at once ⊢ <;> omega

namespace Indexer

variable {σ : Type} {E : Effect surroundings σ} {s s' : σ} {es : List (Event surroundings)}
  {x : Indexer} {paths : Engine.Paths} {offset : Option UInt64}

/-! ## One item -/

/-- Sending a batch is one delivery of all that it holds, and it is empty then; only noting the
failures can fail. -/
theorem runs_flushBatch_delivery (hE : Idle E) {b : Batch} {o : BulkOutcome}
    {r : Except IndexError (Batch × BulkOutcome)}
    (h : Program.Runs E (x.flushBatch paths offset b o).run s es r s') :
    ∃ (d : Delivery x.config.bulkMaxAttempts.toNat) (es' : List (Event surroundings))
      (u : Except IndexError Unit), d.entries = b.entries ∧
      exchanges es = d.attempts.map (x.exchange paths) ∧ fetches es = [] ∧
      Program.Runs E (x.settle d.last offset).run s es' u s' ∧
      r = u.map fun _ => (b.take.2, o.merge d.outcome) := by
  obtain ⟨v, flushed, rfl⟩ := runs_map_except h
  obtain ⟨d, es', u, hd, ht, hs, rfl⟩ := runs_flush hE flushed
  obtain ⟨hx, hf⟩ := exchanges_flush ht hs
  refine ⟨d, es', u, hd, hx, hf, hs, ?_⟩
  cases u with
  | error e => rfl
  | ok u => rfl

theorem fetches_flushBatch (hE : Idle E) {b : Batch} {o : BulkOutcome}
    {r : Except IndexError (Batch × BulkOutcome)}
    (h : Program.Runs E (x.flushBatch paths offset b o).run s es r s') : fetches es = [] := by
  obtain ⟨-, -, -, -, -, hf, -⟩ := runs_flushBatch_delivery hE h
  exact hf

/-- A broken item is recorded, which is no exchange; only that can fail. -/
theorem runs_broken (hE : Idle E) {α : Type} {id : UInt64} {v : α} {r : Except IndexError α}
    (h : Program.Runs E (do x.recordFailures [id] offset; Action.measure (.failed 1); pure v :
      Action α).run s es r s') :
    exchanges es = [] ∧ fetches es = [] ∧
      ∃ (es₁ : List (Event surroundings)) (u : Except IndexError Unit),
        Program.Runs E (x.recordFailures [id] offset).run s es₁ u s' ∧ r = u.map fun _ => v := by
  have recorded {es₁ : List (Event surroundings)} {u : Except IndexError Unit} {s₁ : σ}
      (h : Program.Runs E (x.recordFailures [id] offset).run s es₁ u s₁) :
      exchanges es₁ = [] ∧ fetches es₁ = [] :=
    no_traffic_of_store (Program.Always.of_runs
      (Action.calls_stored (P := StoreLift fun _ => True) (Ledger.always_record [id] offset)
        fun _ _ => trivial) h).1
  rcases runs_bind_except.mp h with ⟨e, h₁, rfl⟩ | ⟨u, s₁, es₁, es₂, rfl, h₁, h₂⟩
  · obtain ⟨hx, hf⟩ := recorded h₁
    exact ⟨hx, hf, es, .error e, h₁, rfl⟩
  · obtain ⟨hx, hf⟩ := recorded h₁
    obtain ⟨es₃, ht, h₂⟩ := runs_measure_bind hE h₂
    obtain ⟨rfl, rfl, rfl⟩ := runs_value_iff.mp h₂
    refine ⟨?_, ?_, es₁, .ok u, h₁, rfl⟩
    · rw [exchanges_append, hx, ← exchanges_traffic es₂, ht]
      rfl
    · rw [fetches_append, hf, ← fetches_traffic es₂, ht]
      rfl

/-- What one step of a bulk write does with an item that it has fetched, from the batch and the
outcome so far, and what it ends with. -/
inductive Handling (x : Indexer) (paths : Engine.Paths) (offset : Option UInt64)
    (E : Effect surroundings σ) (f : Fetch) (b : Batch) (o : BulkOutcome) (s : σ) :
    List (Event surroundings) → Except IndexError (Batch × BulkOutcome) → σ → Prop
  | broken {es : List (Event surroundings)} {r : Except IndexError (Batch × BulkOutcome)}
      {s' : σ} : f.isBroken = true →
      Program.Runs E (do
        x.recordFailures [f.id] offset
        Action.measure (.failed 1)
        pure (b, { o with failed := o.failed + 1, failedIds := o.failedIds ++ [f.id] }) :
          Action (Batch × BulkOutcome)).run s es r s' →
      Handling x paths offset E f b o s es r s'
  | skipped : f.isSkipped x.hooks = true → f.isBroken = false →
      Handling x paths offset E f b o s [] (.ok (b, { o with skipped := o.skipped + 1 })) s
  | waits {e : Entry} : f.handed? x.hooks = some e → (b.push e).2 = none →
      Handling x paths offset E f b o s [] (.ok ((b.push e).1, o)) s
  | sends {e : Entry} {es : List (Event surroundings)}
      {r : Except IndexError (Batch × BulkOutcome)} {s' : σ} :
      f.handed? x.hooks = some e → (b.push e).2.isSome = true →
      Program.Runs E (x.flushBatch paths offset (b.push e).1 o).run s es r s' →
      Handling x paths offset E f b o s es r s'

/-- Handling an item fetches no other one. -/
theorem Handling.fetches_eq_nil (hE : Idle E) {f : Fetch} {b : Batch} {o : BulkOutcome}
    {r : Except IndexError (Batch × BulkOutcome)}
    (h : Handling x paths offset E f b o s es r s') : fetches es = [] := by
  cases h with
  | broken _ h => exact (runs_broken hE h).2.1
  | skipped => rfl
  | waits => rfl
  | sends _ _ h => exact fetches_flushBatch hE h

/-- With its item, a step fetches that item alone. -/
theorem Handling.fetches_cons (hE : Idle E) {f : Fetch} {b : Batch} {o : BulkOutcome}
    {r : Except IndexError (Batch × BulkOutcome)}
    (h : Handling x paths offset E f b o s es r s') :
    fetches (⟨.content (.prepare f.id), f.answer⟩ :: es) = [f] := by
  show f :: fetches es = [f]
  rw [h.fetches_eq_nil hE]

/-- A step fetches its item and handles it. -/
theorem runs_addItem_handling {b : Batch} {o : BulkOutcome} {id : UInt64}
    {r : Except IndexError (Batch × BulkOutcome)}
    (h : Program.Runs E (x.addItem paths offset (b, o) id).run s es r s') :
    ∃ a s₁ es₁, es = ⟨.content (.prepare id), a⟩ :: es₁ ∧
      E s ⟨.content (.prepare id), a⟩ s₁ ∧
      Handling x paths offset E ⟨id, a⟩ b o s₁ es₁ r s' := by
  obtain ⟨a, s₁, es₁, rfl, he, h⟩ := runs_ask_bind (c := .content (.prepare id)) h
  refine ⟨a, s₁, es₁, rfl, he, ?_⟩
  cases a with
  | error e => exact .broken rfl h
  | ok d =>
    cases d with
    | none =>
      obtain ⟨rfl, rfl, rfl⟩ := runs_done_iff.mp h
      exact .skipped rfl rfl
    | some d =>
      cases hs : x.hooks.skips d with
      | true =>
        simp only [hs, if_true] at h
        obtain ⟨rfl, rfl, rfl⟩ := runs_done_iff.mp h
        exact .skipped hs rfl
      | false =>
        simp only [hs, Bool.false_eq_true, if_false] at h
        have entry := Fetch.handed?_of_not_skips id hs
        split at h
        · rename_i full
          exact .sends entry full h
        · rename_i room
          obtain ⟨rfl, rfl, rfl⟩ := runs_done_iff.mp h
          exact .waits entry (Option.not_isSome_iff_eq_none.mp room)

/-! ## All items -/

/-- Items that are handled one after another, none of them with an error. -/
inductive Handlings (x : Indexer) (paths : Engine.Paths) (offset : Option UInt64)
    (E : Effect surroundings σ) :
    List Fetch → Batch → BulkOutcome → σ → List (Event surroundings) → Batch → BulkOutcome → σ →
      Prop
  | nil (b : Batch) (o : BulkOutcome) (s : σ) : Handlings x paths offset E [] b o s [] b o s
  | cons {f : Fetch} {fs : List Fetch} {b b₁ b' : Batch} {o o₁ o' : BulkOutcome}
      {s s₁ s₂ s' : σ} {es es' : List (Event surroundings)} :
      E s ⟨.content (.prepare f.id), f.answer⟩ s₁ →
      Handling x paths offset E f b o s₁ es (.ok (b₁, o₁)) s₂ →
      Handlings x paths offset E fs b₁ o₁ s₂ es' b' o' s' →
      Handlings x paths offset E (f :: fs) b o s
        (⟨.content (.prepare f.id), f.answer⟩ :: (es ++ es')) b' o' s'

/-- The items that are fetched are those that are handled. -/
theorem Handlings.fetches_eq (hE : Idle E) {fs : List Fetch} {b b' : Batch} {o o' : BulkOutcome}
    (h : Handlings x paths offset E fs b o s es b' o' s') : fetches es = fs := by
  induction h with
  | nil => rfl
  | cons _ H _ ih =>
    rw [← List.cons_append, fetches_append, H.fetches_cons hE, ih, List.singleton_append]

/-- How a bulk write of items goes on behind those that were handled: it stops at one whose step
ends in an error, or all of them are done and the rest of the batch is sent, if there is any. -/
inductive Ending (x : Indexer) (paths : Engine.Paths) (offset : Option UInt64)
    (E : Effect surroundings σ) (ids : List UInt64) (fs : List Fetch) (b : Batch)
    (o : BulkOutcome) (s : σ) :
    List (Event surroundings) → Except IndexError BulkOutcome → σ → Prop
  | stops {f : Fetch} {e : IndexError} {es : List (Event surroundings)} {s₁ s' : σ} :
      E s ⟨.content (.prepare f.id), f.answer⟩ s₁ →
      Handling x paths offset E f b o s₁ es (.error e) s' → (fs ++ [f]).map (·.id) <+: ids →
      Ending x paths offset E ids fs b o s (⟨.content (.prepare f.id), f.answer⟩ :: es) (.error e)
        s'
  | empty {es : List (Event surroundings)} : fs.map (·.id) = ids → b.entries = [] →
      traffic es = [] → Ending x paths offset E ids fs b o s es (.ok o) s
  | rest {es es' : List (Event surroundings)} {v : Except IndexError (Batch × BulkOutcome)}
      {s' : σ} : fs.map (·.id) = ids → b.entries ≠ [] →
      Program.Runs E (x.flushBatch paths offset b o).run s es' v s' → traffic es = traffic es' →
      Ending x paths offset E ids fs b o s es (v.map (·.2)) s'

/-- The items are handled in order, all of them or up to one whose step ends in an error. -/
theorem runs_addItems_handlings {b : Batch} {o : BulkOutcome} {ids : List UInt64}
    {r : Except IndexError (Batch × BulkOutcome)}
    (h : Program.Runs E (ids.foldlM (x.addItem paths offset) (b, o)).run s es r s') :
    ∃ fs b₁ o₁ s₁ es₁ es₂, es = es₁ ++ es₂ ∧
      Handlings x paths offset E fs b o s es₁ b₁ o₁ s₁ ∧
      (fs.map (·.id) = ids ∧ es₂ = [] ∧ r = .ok (b₁, o₁) ∧ s' = s₁ ∨
        ∃ f s₂ es₃ e, es₂ = ⟨.content (.prepare f.id), f.answer⟩ :: es₃ ∧ r = .error e ∧
          E s₁ ⟨.content (.prepare f.id), f.answer⟩ s₂ ∧
          Handling x paths offset E f b₁ o₁ s₂ es₃ (.error e) s' ∧
          (fs ++ [f]).map (·.id) <+: ids) := by
  induction ids generalizing b o s es with
  | nil =>
    obtain ⟨rfl, rfl, rfl⟩ := runs_done_iff.mp h
    exact ⟨[], b, o, s', [], [], rfl, .nil b o s', .inl ⟨rfl, rfl, rfl, rfl⟩⟩
  | cons id ids ih =>
    rw [List.foldlM_cons] at h
    rcases runs_bind_except.mp h with ⟨e, h₁, rfl⟩ | ⟨⟨b₁, o₁⟩, s₁, es₁, es₂, rfl, h₁, h₂⟩
    · obtain ⟨a, s₁, es₁, rfl, fetch, H⟩ := runs_addItem_handling h₁
      exact ⟨[], b, o, s, [], _, rfl, .nil b o s,
        .inr ⟨⟨id, a⟩, s₁, es₁, e, rfl, rfl, fetch, H, List.prefix_append [id] ids⟩⟩
    · obtain ⟨a, s₂, es₃, rfl, fetch, H⟩ := runs_addItem_handling h₁
      obtain ⟨fs, b₂, o₂, s₃, es₄, es₅, rfl, Hs, ends⟩ := ih h₂
      refine ⟨⟨id, a⟩ :: fs, b₂, o₂, s₃, _, es₅, ?_, .cons fetch H Hs, ?_⟩
      · rw [List.cons_append, List.cons_append, List.append_assoc]
      · refine ends.imp (fun ⟨hids, hes, hr, hs⟩ => ⟨by rw [List.map_cons, hids], hes, hr, hs⟩) ?_
        rintro ⟨f, s₄, es₆, e, hes, hr, fetch, H, upTo⟩
        exact ⟨f, s₄, es₆, e, hes, hr, fetch, H, (List.prefix_append_right_inj [id]).mpr upTo⟩

/-- A bulk write handles its items one after another, and then it ends. -/
theorem runs_bulkInto_handlings (hE : Idle E) {ids : List UInt64}
    {r : Except IndexError BulkOutcome}
    (h : Program.Runs E (x.bulkInto paths offset ids).run s es r s') :
    ∃ fs b o s₁ es₁ es₂, es = es₁ ++ es₂ ∧
      Handlings x paths offset E fs
        (.withLimits x.config.bulkPageSize.toNat x.config.bulkFlushBytes.toNat) {} s es₁ b o s₁ ∧
      Ending x paths offset E ids fs b o s₁ es₂ r s' := by
  -- Behind the last item only the count of skipped items is told.
  have close {o : BulkOutcome} {s₁ : σ} {es₁ : List (Event surroundings)}
      (h : Program.Runs E (do Action.measure (.skipped o.skipped); pure o :
        Action BulkOutcome).run s₁ es₁ r s') : traffic es₁ = [] ∧ r = .ok o ∧ s' = s₁ := by
    obtain ⟨es₂, ht, h⟩ := runs_measure_bind hE h
    obtain ⟨rfl, hr, hs⟩ := runs_value_iff.mp h
    exact ⟨ht, hr, hs⟩
  rcases runs_bind_except.mp h with ⟨e, h₁, rfl⟩ | ⟨⟨b₁, o₁⟩, s₁, es₁, es₂, rfl, h₁, h₂⟩
  · obtain ⟨fs, b, o, s₁, es₁, es₂, rfl, Hs,
      ⟨-, -, hr, -⟩ | ⟨f, s₂, es₃, e', rfl, hr, fetch, H, upTo⟩⟩ := runs_addItems_handlings h₁
    · cases hr
    · exact ⟨fs, b, o, s₁, es₁, _, rfl, Hs, .stops fetch (hr ▸ H) upTo⟩
  · obtain ⟨fs, b, o, s₂, es₃, es₄, rfl, Hs, ⟨hids, rfl, hr, rfl⟩ | ⟨f, s₃, es₅, e', -, hr, -⟩⟩ :=
      runs_addItems_handlings h₁
    · cases hr
      refine ⟨fs, b₁, o₁, s₁, es₃, es₂, by rw [List.append_nil], Hs, ?_⟩
      simp only at h₂
      split at h₂
      · rename_i hb
        obtain ⟨ht, rfl, rfl⟩ := close h₂
        exact .empty hids (List.isEmpty_iff.mp hb) ht
      · rename_i hb
        have waiting : b₁.entries ≠ [] := by rwa [List.isEmpty_iff] at hb
        rcases runs_bind_except.mp h₂ with ⟨e, h₃, rfl⟩ | ⟨⟨b₂, o₂⟩, s₂, es₄, es₅, rfl, h₃, h₄⟩
        · exact .rest (v := .error e) hids waiting h₃ rfl
        · obtain ⟨ht, rfl, rfl⟩ := close h₄
          refine .rest (v := .ok (b₂, o₂)) hids waiting h₃ ?_
          rw [traffic_append, ht, List.append_nil]
    · cases hr

/-- The items are fetched in order, as far as the write gets. -/
theorem fetches_bulkInto {ids : List UInt64} {r : Except IndexError BulkOutcome}
    (h : Program.Runs E (x.bulkInto paths offset ids).run s es r s') :
    (fetches es).map (·.id) <+: ids := by
  have idle := idle_anyAnswer
  obtain ⟨fs, b, o, s₁, es₁, es₂, rfl, Hs, ends⟩ := runs_bulkInto_handlings idle h.forget
  rw [fetches_append, Hs.fetches_eq idle]
  cases ends with
  | stops _ H upTo =>
    rw [H.fetches_cons idle]
    exact upTo
  | empty hids _ ht =>
    rw [fetches_congr (ht.trans traffic_nil.symm), fetches_nil, List.append_nil]
    exact hids ▸ List.prefix_rfl
  | rest hids _ h ht =>
    rw [fetches_congr ht, fetches_flushBatch idle h, List.append_nil]
    exact hids ▸ List.prefix_rfl

end Indexer
end ContentIndex
