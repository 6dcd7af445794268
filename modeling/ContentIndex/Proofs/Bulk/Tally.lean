import ContentIndex.Proofs.Bulk.Items

/-
  What a bulk write makes of its items. The entries go to the engine in deliveries, in order.
  `Tally` says what the outcome has counted of the items, with the entries that still wait in the
  batch; each item that is handled adds its part to it (`Handling.adds`), and so do all of them
  (`runs_bulkInto_deeds`). What can end in the ledger are the deeds of a bulk write, noted one
  after another (`Noting`); what they leave in the state is followed by any relation that adds up
  over the ids that have failed (`Follow`).
-/

namespace ContentIndex

open Bulk (Attempt Batch Delivery Entry)

/-! ## Tallies -/

/-- What an outcome has counted of the items that were fetched and of the exchanges, with the
entries that wait to be sent. -/
structure Tally (x : Indexer) (paths : Engine.Paths) (fs : List Fetch) (xs : List Exchange)
    (waiting : List Entry) (ds : List (Delivery x.config.bulkMaxAttempts.toNat))
    (o : BulkOutcome) : Prop where
  /-- Each entry is in one delivery, or waits. -/
  handed : fs.filterMap (·.handed? x.hooks) = ds.flatMap (·.entries) ++ waiting
  /-- The exchanges are those of the deliveries. -/
  sent : xs = ds.flatMap fun d => d.attempts.map (x.exchange paths)
  skipped : o.skipped = fs.countP (·.isSkipped x.hooks)
  /-- The entries that the engine has accepted. -/
  indexed : o.indexed = (ds.flatMap (·.accepted)).length
  failed : o.failed = o.failedIds.length
  /-- The items that are broken, and those whose entries were not accepted. -/
  failedIds : o.failedIds.Perm
    ((fs.filter (·.isBroken)).map (·.id) ++ (ds.flatMap (·.pending)).map (·.id))

namespace Tally

variable {x : Indexer} {paths : Engine.Paths} {fs : List Fetch} {xs : List Exchange}
  {waiting : List Entry} {ds : List (Delivery x.config.bulkMaxAttempts.toNat)} {o : BulkOutcome}

theorem nil (x : Indexer) (paths : Engine.Paths) : Tally x paths [] [] [] [] {} :=
  ⟨rfl, rfl, rfl, rfl, rfl, .refl _⟩

/-- Nothing that was handed over is missing from the counts. -/
theorem counted (h : Tally x paths fs xs [] ds o) :
    o.indexed + o.failed + o.skipped = fs.length := by
  have entries : (fs.filterMap (·.handed? x.hooks)).length =
      (ds.flatMap (·.accepted)).length + (ds.flatMap (·.pending)).length := by
    rw [h.handed, List.append_nil]
    clear h
    induction ds with
    | nil => rfl
    | cons d ds ih =>
      have hd := d.length_accepted_add
      simp only [List.flatMap_cons, List.length_append]
      omega
  have hf := h.failedIds.length_eq
  rw [List.length_append, List.length_map, List.length_map] at hf
  rw [length_fetches x.hooks fs, h.indexed, h.failed, h.skipped]
  omega

/-- An item that is broken has failed. -/
theorem broken (h : Tally x paths fs xs waiting ds o) (id : UInt64) (e : ContentError) :
    Tally x paths (fs ++ [⟨id, .error e⟩]) xs waiting ds
      { o with failed := o.failed + 1, failedIds := o.failedIds ++ [id] } := by
  refine ⟨?_, h.sent, ?_, h.indexed, ?_, ?_⟩
  · rw [List.filterMap_append, h.handed]
    exact List.append_nil _
  · rw [List.countP_append]
    exact h.skipped
  · rw [List.length_append, h.failed]
    rfl
  · let f : Fetch := ⟨id, .error e⟩
    have hb : (fs ++ [f]).filter (·.isBroken) = fs.filter (·.isBroken) ++ [f] := by
      rw [List.filter_append]
      rfl
    rw [hb, List.map_append, List.append_assoc]
    refine (h.failedIds.append_right [id]).trans ?_
    rw [List.append_assoc]
    exact List.perm_append_comm.append_left _

/-- An item that is gone or left out is skipped. -/
theorem skip (h : Tally x paths fs xs waiting ds o) {f : Fetch}
    (hf : f.isSkipped x.hooks = true) (he : f.handed? x.hooks = none) (hb : f.isBroken = false) :
    Tally x paths (fs ++ [f]) xs waiting ds { o with skipped := o.skipped + 1 } := by
  refine ⟨?_, h.sent, ?_, h.indexed, h.failed, ?_⟩
  · rw [List.filterMap_append, h.handed, List.filterMap_cons, he]
    exact List.append_nil _
  · rw [List.countP_append, List.countP_singleton, if_pos hf, h.skipped]
  · rw [List.filter_append, List.filter_cons, hb, if_neg Bool.false_ne_true, List.filter_nil,
      List.append_nil]
    exact h.failedIds

/-- An entry waits. -/
theorem wait (h : Tally x paths fs xs waiting ds o) {f : Fetch} {e : Entry}
    (he : f.handed? x.hooks = some e) (hf : f.isSkipped x.hooks = false)
    (hb : f.isBroken = false) : Tally x paths (fs ++ [f]) xs (waiting ++ [e]) ds o := by
  refine ⟨?_, h.sent, ?_, h.indexed, h.failed, ?_⟩
  · rw [List.filterMap_append, h.handed, List.filterMap_cons, he, List.append_assoc]
    rfl
  · rw [List.countP_append, List.countP_singleton, hf, if_neg Bool.false_ne_true]
    exact h.skipped
  · rw [List.filter_append, List.filter_cons, hb, if_neg Bool.false_ne_true, List.filter_nil,
      List.append_nil]
    exact h.failedIds

/-- What waits is delivered. -/
theorem deliver (h : Tally x paths fs xs waiting ds o)
    (d : Delivery x.config.bulkMaxAttempts.toNat) (hd : d.entries = waiting) :
    Tally x paths fs (xs ++ d.attempts.map (x.exchange paths)) [] (ds ++ [d])
      (o.merge d.outcome) := by
  have accepted : d.entries.length - d.pending.length = d.accepted.length := by
    have := d.length_accepted_add
    omega
  refine ⟨?_, ?_, h.skipped, ?_, ?_, ?_⟩
  · rw [h.handed, List.flatMap_append, List.flatMap_singleton, hd, List.append_nil]
  · rw [List.flatMap_append, List.flatMap_singleton, h.sent]
  · rw [List.flatMap_append, List.flatMap_singleton, List.length_append, ← h.indexed, ← accepted]
    rfl
  · show o.failed + d.pending.length = (o.failedIds ++ d.pending.map (·.id)).length
    rw [List.length_append, List.length_map, h.failed]
  · rw [List.flatMap_append, List.flatMap_singleton, List.map_append, ← List.append_assoc]
    exact h.failedIds.append_right _

end Tally

/-! ## Ways to run -/

variable {σ : Type} {E : Effect surroundings σ} {s s' : σ} {es : List (Event surroundings)}

/-- A relation between states that adds up over the ids that have failed. -/
structure Follow (E : Effect surroundings σ) (x : Indexer) (offset : Option UInt64)
    (N : σ → List UInt64 → σ → Prop) : Prop where
  nothing : ∀ s, N s [] s
  more : ∀ {s s₁ s' : σ} {a b : List UInt64}, N s a s₁ → N s₁ b s' → N s (a ++ b) s'
  broken : ∀ {s s' : σ} {es : List (Event surroundings)} {id : UInt64},
    Program.Runs E (x.recordFailures [id] offset).run s es (.ok ()) s' → N s [id] s'
  settled : ∀ {s s' : σ} {es : List (Event surroundings)}
    (d : Delivery x.config.bulkMaxAttempts.toNat), d.entries ≠ [] →
    Program.Runs E (x.settle d.last offset).run s es (.ok ()) s' → N s (d.pending.map (·.id)) s'

/-- Where nothing is asked of the state, nothing is to be shown. -/
theorem Follow.trivial (E : Effect surroundings σ) (x : Indexer) (offset : Option UInt64) :
    Follow E x offset fun _ _ _ => True :=
  ⟨fun _ => True.intro, fun _ _ => True.intro, fun _ => True.intro, fun _ _ _ => True.intro⟩

/-- What a bulk write does that can end in the ledger: it finds an item broken, or it delivers a
batch. -/
inductive Deed (x : Indexer) where
  | broken (id : UInt64)
  | delivered (d : Delivery x.config.bulkMaxAttempts.toNat)

namespace Deed

variable {x : Indexer}

/-- The ids that have failed. -/
def failedIds : Deed x → List UInt64
  | broken id => [id]
  | delivered d => d.pending.map (·.id)

def brokenId? : Deed x → Option UInt64
  | broken id => some id
  | delivered _ => none

def delivery? : Deed x → Option (Delivery x.config.bulkMaxAttempts.toNat)
  | broken _ => none
  | delivered d => some d

end Deed

/-- The failures of deeds are noted in the ledger, one deed after another. -/
inductive Noting (E : Effect surroundings σ) (x : Indexer) (offset : Option UInt64) :
    σ → List (Deed x) → σ → Prop
  | nil (s : σ) : Noting E x offset s [] s
  | broken {s s₁ s' : σ} {es : List (Event surroundings)} {id : UInt64} {deeds : List (Deed x)} :
      Program.Runs E (x.recordFailures [id] offset).run s es (.ok ()) s₁ →
      Noting E x offset s₁ deeds s' → Noting E x offset s (.broken id :: deeds) s'
  | delivered {s s₁ s' : σ} {es : List (Event surroundings)}
      {d : Delivery x.config.bulkMaxAttempts.toNat} {deeds : List (Deed x)} :
      d.entries ≠ [] → Program.Runs E (x.settle d.last offset).run s es (.ok ()) s₁ →
      Noting E x offset s₁ deeds s' → Noting E x offset s (.delivered d :: deeds) s'

namespace Noting

variable {x : Indexer} {offset : Option UInt64} {s₁ : σ} {deeds deeds' : List (Deed x)}

theorem append (h : Noting E x offset s deeds s₁) (h' : Noting E x offset s₁ deeds' s') :
    Noting E x offset s (deeds ++ deeds') s' := by
  induction h with
  | nil => exact h'
  | broken hr _ ih => exact .broken hr (ih h')
  | delivered hd hr _ ih => exact .delivered hd hr (ih h')

/-- A relation that follows the failures holds from the first deed to the last. -/
theorem follow {N : σ → List UInt64 → σ → Prop} (hN : Follow E x offset N)
    (h : Noting E x offset s deeds s') : N s (deeds.flatMap (·.failedIds)) s' := by
  induction h with
  | nil s => exact hN.nothing s
  | broken hr _ ih => exact hN.more (hN.broken hr) ih
  | delivered hd hr _ ih => exact hN.more (hN.settled _ hd hr) ih

end Noting

namespace Indexer

variable {x : Indexer} {paths : Engine.Paths} {offset : Option UInt64} {fs : List Fetch}
  {xs : List Exchange} {ds : List (Delivery x.config.bulkMaxAttempts.toNat)} {b b' : Batch}
  {o o' : BulkOutcome} {deeds : List (Deed x)}

/-- What a part of a bulk write adds to a tally by its deeds. -/
structure Adds (x : Indexer) (paths : Engine.Paths) (E : Effect surroundings σ)
    (offset : Option UInt64) (fs : List Fetch) (xs : List Exchange)
    (ds : List (Delivery x.config.bulkMaxAttempts.toNat)) (o : BulkOutcome) (s : σ)
    (es : List (Event surroundings)) (deeds : List (Deed x)) (waiting : List Entry)
    (o' : BulkOutcome) (s' : σ) : Prop where
  tally : Tally x paths (fs ++ fetches es) (xs ++ exchanges es) waiting
    (ds ++ deeds.filterMap (·.delivery?)) o'
  failedIds : o'.failedIds = o.failedIds ++ deeds.flatMap (·.failedIds)
  broken : deeds.filterMap (·.brokenId?) = ((fetches es).filter (·.isBroken)).map (·.id)
  noting : Noting E x offset s deeds s'

/-- Parts of a bulk write add up. -/
theorem Adds.trans {s₁ : σ} {es₁ es₂ : List (Event surroundings)} {waiting waiting' : List Entry}
    {o₁ : BulkOutcome} {deeds₁ deeds₂ : List (Deed x)}
    (h : Adds x paths E offset fs xs ds o s es₁ deeds₁ waiting o₁ s₁)
    (h' : Adds x paths E offset (fs ++ fetches es₁) (xs ++ exchanges es₁)
      (ds ++ deeds₁.filterMap (·.delivery?)) o₁ s₁ es₂ deeds₂ waiting' o' s') :
    Adds x paths E offset fs xs ds o s (es₁ ++ es₂) (deeds₁ ++ deeds₂) waiting' o' s' := by
  refine ⟨?_, ?_, ?_, h.noting.append h'.noting⟩
  · rw [fetches_append, exchanges_append, List.filterMap_append, ← List.append_assoc,
      ← List.append_assoc, ← List.append_assoc]
    exact h'.tally
  · rw [h'.failedIds, h.failedIds, List.flatMap_append, List.append_assoc]
  · rw [List.filterMap_append, h.broken, h'.broken, fetches_append, List.filter_append,
      List.map_append]

/-- Only the traffic counts. -/
theorem Adds.congr {es' : List (Event surroundings)} {waiting : List Entry}
    (h : Adds x paths E offset fs xs ds o s es deeds waiting o' s')
    (ht : traffic es' = traffic es) :
    Adds x paths E offset fs xs ds o s es' deeds waiting o' s' := by
  refine ⟨?_, h.failedIds, ?_, h.noting⟩
  · rw [fetches_congr ht, exchanges_congr ht]
    exact h.tally
  · rw [fetches_congr ht]
    exact h.broken

/-- An item that is neither broken nor sends a batch adds itself alone. -/
theorem Adds.alone {f : Fetch} {waiting : List Entry} (hf : fetches es = [f])
    (hx : exchanges es = []) (hb : f.isBroken = false)
    (T : Tally x paths (fs ++ [f]) xs waiting ds o') (ho : o'.failedIds = o.failedIds) :
    Adds x paths E offset fs xs ds o s es [] waiting o' s := by
  refine ⟨?_, by rw [ho]; exact (List.append_nil _).symm, ?_, .nil s⟩
  · rw [hf, hx, List.filterMap_nil, List.append_nil, List.append_nil]
    exact T
  · rw [hf, List.filter_cons, hb, if_neg Bool.false_ne_true]
    rfl

/-- Sending the batch delivers what waits. -/
theorem runs_flushBatch (hE : Idle E)
    (h : Program.Runs E (x.flushBatch paths offset b o).run s es (.ok (b', o')) s')
    (hb : b.entries ≠ []) (T : Tally x paths fs xs b.entries ds o) :
    fetches es = [] ∧ b'.entries = [] ∧
      ∃ deeds, Adds x paths E offset fs xs ds o s es deeds b'.entries o' s' := by
  obtain ⟨d, es', u, hd, hx, hf, hs, hr⟩ := runs_flushBatch_delivery hE h
  cases u with
  | error e => cases hr
  | ok u =>
    cases hr
    refine ⟨hf, rfl, [.delivered d], ?_, ?_, ?_, .delivered (hd ▸ hb) hs (.nil _)⟩
    · rw [hx, hf, List.append_nil]
      exact T.deliver d hd
    · rw [List.flatMap_singleton]
      rfl
    · rw [hf]
      rfl

/-- An item that is handled is counted or put into the batch. -/
theorem Handling.adds (hE : Idle E) {f : Fetch}
    (h : Handling x paths offset E f b o s es (.ok (b', o')) s')
    (T : Tally x paths fs xs b.entries ds o) :
    ∃ deeds, Adds x paths E offset fs xs ds o s (⟨.content (.prepare f.id), f.answer⟩ :: es)
      deeds b'.entries o' s' := by
  have fetched := h.fetches_cons hE
  have sent : exchanges (⟨.content (.prepare f.id), f.answer⟩ :: es) = exchanges es := rfl
  cases h with
  | broken hf h =>
    obtain ⟨hx, -, es₁, u, hs, hr⟩ := runs_broken hE h
    cases u with
    | error e => cases hr
    | ok u =>
      cases hr
      obtain ⟨id, a⟩ := f
      cases a with
      | ok d => cases hf
      | error e =>
        have undelivered : ([.broken id] : List (Deed x)).filterMap (·.delivery?) = [] := rfl
        refine ⟨[.broken id], ?_, rfl, ?_, .broken hs (.nil _)⟩
        · rw [fetched, sent, hx, undelivered, List.append_nil, List.append_nil]
          exact T.broken id e
        · rw [fetched]
          rfl
  | skipped hf hb =>
    exact ⟨[], .alone fetched sent hb (T.skip hf (Fetch.handed?_of_isSkipped hf) hb) rfl⟩
  | waits he room =>
    exact ⟨[], .alone fetched sent (Fetch.not_isBroken_of_handed? he)
      (T.wait he (Fetch.not_isSkipped_of_handed? he) (Fetch.not_isBroken_of_handed? he)) rfl⟩
  | sends he full h =>
    rename_i e
    have hb := Fetch.not_isBroken_of_handed? he
    have pushed : (b.push e).1.entries ≠ [] := by
      rw [Batch.push_entries]
      exact List.append_ne_nil_of_right_ne_nil _ (List.cons_ne_nil e [])
    obtain ⟨hf, -, deeds, A⟩ := runs_flushBatch hE h pushed
      (T.wait he (Fetch.not_isSkipped_of_handed? he) hb)
    have T' := A.tally
    rw [hf, List.append_nil] at T'
    refine ⟨deeds, ?_, A.failedIds, ?_, A.noting⟩
    · rw [fetched, sent]
      exact T'
    · rw [A.broken, fetched, hf, List.filter_cons, hb]
      rfl

/-- Items that are handled one after another add up. -/
theorem Handlings.adds (hE : Idle E) {gs : List Fetch}
    (h : Handlings x paths offset E gs b o s es b' o' s')
    (T : Tally x paths fs xs b.entries ds o) :
    ∃ deeds, Adds x paths E offset fs xs ds o s es deeds b'.entries o' s' := by
  induction h generalizing fs xs ds with
  | nil b o s =>
    refine ⟨[], ?_, (List.append_nil _).symm, rfl, .nil _⟩
    rw [fetches_nil, exchanges_nil, List.filterMap_nil, List.append_nil, List.append_nil,
      List.append_nil]
    exact T
  | @cons f gs b b₁ b' o o₁ o' s s₁ s₂ s' es es' fetch H _ ih =>
    have hs : s₁ = s := hE fetch rfl
    subst hs
    obtain ⟨deeds₁, A₁⟩ := H.adds hE T
    obtain ⟨deeds₂, A₂⟩ := ih A₁.tally
    exact ⟨deeds₁ ++ deeds₂, A₁.trans A₂⟩

/-- A bulk write fetches its items in order, and its outcome is the tally of all of them. -/
theorem runs_bulkInto_deeds (hE : Idle E) {ids : List UInt64}
    (h : Program.Runs E (x.bulkInto paths offset ids).run s es (.ok o) s') :
    (fetches es).map (·.id) = ids ∧
      ∃ deeds, Adds x paths E offset [] [] [] {} s es deeds [] o s' := by
  obtain ⟨fs, b₁, o₁, s₁, es₁, es₂, rfl, Hs, ends⟩ := runs_bulkInto_handlings hE h
  obtain ⟨deeds₁, A₁⟩ := Hs.adds hE (.nil x paths)
  have fetched := Hs.fetches_eq hE
  generalize hr : (Except.ok o : Except IndexError BulkOutcome) = r at ends
  cases ends with
  | stops => cases hr
  | empty hids hnil ht =>
    cases hr
    rw [hnil] at A₁
    refine ⟨?_, deeds₁, A₁.congr ?_⟩
    · rw [fetches_append, fetched, fetches_congr (ht.trans traffic_nil.symm), fetches_nil,
        List.append_nil, hids]
    · rw [traffic_append, ht, List.append_nil]
  | @rest es es' v s' hids hne h₂ ht =>
    cases v with
    | error e => cases hr
    | ok v =>
      obtain ⟨b₂, o₂⟩ := v
      cases hr
      obtain ⟨hf, hb₂, deeds₂, A₂⟩ := runs_flushBatch hE h₂ hne A₁.tally
      rw [hb₂] at A₂
      refine ⟨?_, deeds₁ ++ deeds₂, A₁.trans (A₂.congr ht)⟩
      rw [fetches_append, fetched, fetches_congr ht, hf, List.append_nil, hids]

/-- What follows the failures of a bulk write holds of all of them. -/
theorem runs_bulkInto_tally (hE : Idle E) {N : σ → List UInt64 → σ → Prop}
    (hN : Follow E x offset N) {ids : List UInt64}
    (h : Program.Runs E (x.bulkInto paths offset ids).run s es (.ok o) s') :
    (fetches es).map (·.id) = ids ∧
      (∃ ds, Tally x paths (fetches es) (exchanges es) [] ds o) ∧ N s o.failedIds s' := by
  obtain ⟨hf, deeds, A⟩ := runs_bulkInto_deeds hE h
  refine ⟨hf, ⟨_, A.tally⟩, ?_⟩
  rw [A.failedIds]
  exact A.noting.follow hN

end Indexer
end ContentIndex
