import Mathlib.Algebra.BigOperators.Group.List.Basic
import ContentIndex.Proofs.Bulk.Items
import ContentIndex.Proofs.Indexer.Trace

/-
  How a bulk write divides its entries into batches. An open batch is below both limits, whatever
  was pushed onto it and taken from it (`Batch.Open`); so the push that reaches a limit makes a
  batch that keeps to both of them but for its last entry (`Within`), and that is not sent before
  it has reached one (`Full`). Each item that is handled hands its entry to the open batch or to a
  delivery (`Dispatched`), so that all deliveries together carry all entries once and in order
  (`bulkInto_divides`), however the write ends (`runs_bulkInto_dispatched`).
-/

namespace ContentIndex

open Bulk (Attempt Batch Delivery Entry totalSize)
open Program (runs_bind_except)

/-! ## Batches -/

namespace Bulk

theorem totalSize_eq_sum (entries : List Entry) :
    totalSize entries = (entries.map (·.size)).sum := by
  unfold totalSize
  rw [List.sum_eq_foldl, List.foldl_map]

theorem totalSize_append (a b : List Entry) :
    totalSize (a ++ b) = totalSize a + totalSize b := by
  rw [totalSize_eq_sum, totalSize_eq_sum, totalSize_eq_sum, List.map_append, List.sum_append]

/-- Entries that may be sent together: there are some, not too many of them, and without the last
one they are not long enough. -/
structure Within (count bytes : Nat) (entries : List Entry) : Prop where
  ne_nil : entries ≠ []
  length_le : entries.length ≤ count
  size_lt : totalSize entries.dropLast < bytes

/-- Entries that have to be sent. -/
def Full (count bytes : Nat) (entries : List Entry) : Prop :=
  count ≤ entries.length ∨ bytes ≤ totalSize entries

namespace Batch

/-- A batch that does not have to be sent, with its limits. -/
structure Open (count bytes : Nat) (b : Batch) : Prop where
  countLimit : b.countLimit = count
  byteLimit : b.byteLimit = bytes
  counted : b.Counted
  length_lt : b.entries.length < count
  size_lt : b.bytes < bytes

variable {count bytes : Nat} {b : Batch}

theorem withLimits_open (count bytes : Nat) :
    (withLimits count bytes).Open (max 1 count) (max 1 bytes) := by
  refine ⟨rfl, rfl, rfl, ?_, ?_⟩
  · show 0 < max 1 count
    omega
  · show 0 < max 1 bytes
    omega

theorem Open.take (h : b.Open count bytes) : b.take.2.Open count bytes :=
  ⟨h.countLimit, h.byteLimit, b.take_counted, Nat.zero_lt_of_lt h.length_lt,
    Nat.zero_lt_of_lt h.size_lt⟩

/-- A batch that does not have to be sent stays open. -/
theorem Open.push (h : b.Open count bytes) {e : Entry} (he : (b.push e).2 = none) :
    (b.push e).1.Open count bytes := by
  unfold Batch.push at he
  simp only [h.countLimit, h.byteLimit] at he
  split at he
  · cases he
  rename_i room
  split at he
  · cases he
  rename_i short
  exact ⟨h.countLimit, h.byteLimit, push_counted h.counted e, Nat.lt_of_not_le room,
    Nat.lt_of_not_le short⟩

/-- With one more entry an open batch may be sent. -/
theorem Open.within_push (h : b.Open count bytes) (e : Entry) :
    Within count bytes (b.push e).1.entries := by
  rw [push_entries]
  refine ⟨List.append_ne_nil_of_right_ne_nil _ (List.cons_ne_nil e []), ?_, ?_⟩
  · have := h.length_lt
    rw [List.length_append, List.length_singleton]
    omega
  · have := h.size_lt
    rwa [List.dropLast_concat, ← h.counted]

/-- A batch has to be sent only if it is full. -/
theorem Open.full_push (h : b.Open count bytes) {e : Entry} (he : (b.push e).2.isSome = true) :
    Full count bytes (b.push e).1.entries := by
  have counted : b.bytes + e.size = totalSize (b.entries ++ [e]) := push_counted h.counted e
  unfold Full
  rw [push_entries, ← counted]
  unfold Batch.push at he
  simp only [h.countLimit, h.byteLimit] at he
  split at he
  · rename_i enough
    exact .inl enough
  · split at he
    · rename_i long
      exact .inr long
    · cases he

/-- What an open batch holds may be sent, if it holds anything. -/
theorem Open.within (h : b.Open count bytes) (hb : b.entries ≠ []) :
    Within count bytes b.entries := by
  refine ⟨hb, Nat.le_of_lt h.length_lt, ?_⟩
  have parts : totalSize b.entries =
      totalSize b.entries.dropLast + totalSize [b.entries.getLast hb] := by
    rw [← totalSize_append, List.dropLast_append_getLast hb]
  have counted : b.bytes = totalSize b.entries := h.counted
  have := h.size_lt
  omega

/-! ## Any use of a batch -/

/-- What is done to a batch. -/
inductive Operation where
  | push (e : Entry)
  | take
deriving DecidableEq, Repr

/-- The batch afterwards. -/
def apply (b : Batch) : Operation → Batch
  | .push e => (b.push e).1
  | .take => b.take.2

/-- The batch after several operations. -/
def after (b : Batch) (ops : List Operation) : Batch :=
  ops.foldl apply b

theorem apply_counted (h : b.Counted) (op : Operation) : (b.apply op).Counted := by
  cases op with
  | push e => exact push_counted h e
  | take => exact b.take_counted

theorem after_counted (h : b.Counted) (ops : List Operation) : (b.after ops).Counted := by
  unfold after
  induction ops generalizing b with
  | nil => exact h
  | cons op ops ih => exact ih (apply_counted h op)

/-- The running length of a batch is the sum of the lengths of its entries. -/
theorem after_bytes (count bytes : Nat) (ops : List Operation) :
    ((withLimits count bytes).after ops).bytes =
      (((withLimits count bytes).after ops).entries.map (·.size)).sum := by
  rw [← totalSize_eq_sum]
  exact after_counted (withLimits_counted count bytes) ops

end Batch
end Bulk

open Bulk (Full Within)

namespace Indexer

variable {σ : Type} {E : Effect surroundings σ} {s s' : σ} {es es' : List (Event surroundings)}
  {x : Indexer} {paths : Engine.Paths} {offset : Option UInt64} {b b' : Batch}
  {o o' : BulkOutcome} {count bytes : Nat}

/-! ## Deliveries of a bulk write -/

/-- The exchanges of some deliveries, each with its attempts. -/
def exchangesOf (x : Indexer) (paths : Engine.Paths)
    (ds : List (Delivery x.config.bulkMaxAttempts.toNat)) : List Exchange :=
  ds.flatMap fun d => d.attempts.map (x.exchange paths)

/-- What a part of a bulk write makes of the entries that it is given: its deliveries carry them
in order, but for those that wait in the end. -/
structure Dispatched (x : Indexer) (paths : Engine.Paths) (count bytes : Nat)
    (given : List Entry) (es : List (Event surroundings))
    (ds : List (Delivery x.config.bulkMaxAttempts.toNat)) (waiting : List Entry) : Prop where
  sent : exchanges es = x.exchangesOf paths ds
  carried : ds.flatMap (·.entries) ++ waiting = given
  within : ∀ d ∈ ds, Within count bytes d.entries

namespace Dispatched

variable {given more waiting waiting' : List Entry}
  {ds ds' : List (Delivery x.config.bulkMaxAttempts.toNat)}

/-- Without an exchange all that is given waits. -/
theorem none (hx : exchanges es = []) (given : List Entry) :
    Dispatched x paths count bytes given es [] given :=
  ⟨hx, rfl, fun _ hd => (List.not_mem_nil hd).elim⟩

/-- Parts of a bulk write, the later one with the entries that wait. -/
theorem append (h : Dispatched x paths count bytes given es ds waiting)
    (h' : Dispatched x paths count bytes (waiting ++ more) es' ds' waiting') :
    Dispatched x paths count bytes (given ++ more) (es ++ es') (ds ++ ds') waiting' := by
  refine ⟨?_, ?_, ?_⟩
  · unfold exchangesOf
    rw [exchanges_append, h.sent, h'.sent, List.flatMap_append]
    rfl
  · rw [List.flatMap_append, List.append_assoc, h'.carried, ← List.append_assoc, h.carried]
  · intro d hd
    exact (List.mem_append.mp hd).elim (h.within d) (h'.within d)

/-- Only the exchanges count. -/
theorem congr (h : Dispatched x paths count bytes given es ds waiting)
    (he : exchanges es' = exchanges es) : Dispatched x paths count bytes given es' ds waiting :=
  ⟨he.trans h.sent, h.carried, h.within⟩

end Dispatched

/-- Sending a batch is one delivery of all that it holds. -/
theorem runs_flushBatch_dispatched (hE : Idle E)
    {r : Except IndexError (Batch × BulkOutcome)} (hb : Within count bytes b.entries)
    (h : Program.Runs E (x.flushBatch paths offset b o).run s es r s') :
    (∃ d, Dispatched x paths count bytes b.entries es [d] []) ∧
      ∀ b' o', r = .ok (b', o') → b' = b.take.2 := by
  obtain ⟨d, es', u, hd, hx, -, -, rfl⟩ := runs_flushBatch_delivery hE h
  refine ⟨⟨d, ?_, ?_, ?_⟩, ?_⟩
  · unfold exchangesOf
    rw [hx, List.flatMap_singleton]
  · rw [List.flatMap_singleton, hd, List.append_nil]
  · intro d' hd'
    rw [List.mem_singleton.mp hd', hd]
    exact hb
  · intro b' o' hv
    cases u with
    | error e => cases hv
    | ok u =>
      cases hv
      rfl

/-- What is handled hands its entry, if it has one, to the open batch or to a delivery that is
full; the batch stays open. -/
theorem Handling.dispatched (hE : Idle E) {f : Fetch} {r : Except IndexError (Batch × BulkOutcome)}
    (hb : b.Open count bytes) (h : Handling x paths offset E f b o s es r s') :
    ∃ ds waiting,
      Dispatched x paths count bytes (b.entries ++ (f.handed? x.hooks).toList) es ds waiting ∧
      (∀ d ∈ ds, Full count bytes d.entries) ∧
      ∀ b' o', r = .ok (b', o') → b'.Open count bytes ∧ b'.entries = waiting := by
  have none_full : ∀ d ∈ ([] : List (Delivery x.config.bulkMaxAttempts.toNat)),
      Full count bytes d.entries := fun _ hd => (List.not_mem_nil hd).elim
  cases h with
  | broken hf h =>
    obtain ⟨hx, -, es₁, u, -, rfl⟩ := runs_broken hE h
    rw [Fetch.handed?_of_isBroken hf, Option.toList_none, List.append_nil]
    refine ⟨[], b.entries, .none hx _, none_full, fun b' o' hv => ?_⟩
    cases u with
    | error e => cases hv
    | ok u =>
      cases hv
      exact ⟨hb, rfl⟩
  | skipped hf =>
    rw [Fetch.handed?_of_isSkipped hf, Option.toList_none, List.append_nil]
    refine ⟨[], b.entries, .none rfl _, none_full, fun b' o' hv => ?_⟩
    cases hv
    exact ⟨hb, rfl⟩
  | waits he room =>
    rw [he, Option.toList_some]
    refine ⟨[], _, .none rfl _, none_full, fun b' o' hv => ?_⟩
    cases hv
    exact ⟨hb.push room, rfl⟩
  | sends he full h =>
    rename_i e
    rw [he, Option.toList_some]
    obtain ⟨⟨d, D⟩, hv⟩ := runs_flushBatch_dispatched hE (hb.within_push e) h
    refine ⟨[d], [], D, fun d' hd' => ?_, fun b' o' hr => ?_⟩
    · have carried : d.entries = (b.push e).1.entries := by
        have := D.carried
        rwa [List.flatMap_singleton, List.append_nil] at this
      rw [List.mem_singleton.mp hd', carried]
      exact hb.full_push full
    · rw [hv b' o' hr]
      -- Pushing leaves the limits alone, and taking empties the batch.
      exact ⟨(show (b.push e).1.take.2 = b.take.2 from rfl) ▸ hb.take, rfl⟩

/-- Items that are handled one after another hand their entries over in order. -/
theorem Handlings.dispatched (hE : Idle E) {fs : List Fetch} (hb : b.Open count bytes)
    (h : Handlings x paths offset E fs b o s es b' o' s') :
    b'.Open count bytes ∧ ∃ ds,
      Dispatched x paths count bytes (b.entries ++ fs.filterMap (·.handed? x.hooks)) es ds
        b'.entries ∧
      ∀ d ∈ ds, Full count bytes d.entries := by
  induction h with
  | nil b o s =>
    refine ⟨hb, [], ?_, fun _ hd => (List.not_mem_nil hd).elim⟩
    rw [List.filterMap_nil, List.append_nil]
    exact .none rfl _
  | @cons f fs b b₁ b' o o₁ o' s s₁ s₂ s' es es' _ H _ ih =>
    obtain ⟨ds, waiting, D, full, next⟩ := H.dispatched hE hb
    obtain ⟨hb₁, rfl⟩ := next b₁ o₁ rfl
    obtain ⟨hb', ds', D', full'⟩ := ih hb₁
    refine ⟨hb', ds ++ ds', ?_, ?_⟩
    · rw [filterMap_handed?_cons, ← List.append_assoc]
      exact (D.append D').congr rfl
    · intro d hd
      exact (List.mem_append.mp hd).elim (full d) (full' d)

/-- What comes behind the items that were handled: an item whose step ends in an error, or what
waits in the batch. Only the last delivery need not be full. -/
theorem Ending.dispatched (hE : Idle E) {ids : List UInt64} {fs : List Fetch}
    {r : Except IndexError BulkOutcome} (hb : b.Open count bytes)
    (h : Ending x paths offset E ids fs b o s es r s') :
    ∃ ds waiting,
      Dispatched x paths count bytes (b.entries ++ (fetches es).filterMap (·.handed? x.hooks)) es
        ds waiting ∧
      (∀ d ∈ ds.dropLast, Full count bytes d.entries) ∧
      ∀ o', r = .ok o' → (fs ++ fetches es).map (·.id) = ids ∧ waiting = [] := by
  cases h with
  | stops _ H _ =>
    obtain ⟨ds, waiting, D, full, -⟩ := H.dispatched hE hb
    refine ⟨ds, waiting, ?_, fun d hd => full d (List.dropLast_subset ds hd),
      fun _ hr => by cases hr⟩
    rw [H.fetches_cons hE, filterMap_handed?_cons, List.filterMap_nil, List.append_nil]
    exact D.congr rfl
  | empty hids hnil ht =>
    have hf : fetches es = [] := fetches_congr (ht.trans traffic_nil.symm)
    have hx : exchanges es = [] := exchanges_congr (ht.trans traffic_nil.symm)
    rw [hf, hnil, List.filterMap_nil, List.append_nil, List.append_nil]
    exact ⟨[], [], .none hx [], fun _ hd => (List.not_mem_nil hd).elim, fun _ _ => ⟨hids, rfl⟩⟩
  | rest hids hne h ht =>
    obtain ⟨⟨d, D⟩, -⟩ := runs_flushBatch_dispatched hE (hb.within hne) h
    rw [fetches_congr ht, fetches_flushBatch hE h, List.filterMap_nil, List.append_nil,
      List.append_nil]
    exact ⟨[d], [], D.congr (exchanges_congr ht), fun _ hd => (List.not_mem_nil hd).elim,
      fun _ _ => ⟨hids, rfl⟩⟩

/-- What a bulk write sends, however it ends: the deliveries carry the entries of the items in
order, and all of them if the write succeeds. -/
theorem runs_bulkInto_dispatched (hE : Idle E) {ids : List UInt64}
    {r : Except IndexError BulkOutcome}
    (h : Program.Runs E (x.bulkInto paths offset ids).run s es r s') :
    ∃ ds waiting, Dispatched x paths (max 1 x.config.bulkPageSize.toNat)
        (max 1 x.config.bulkFlushBytes.toNat) ((fetches es).filterMap (·.handed? x.hooks)) es ds
        waiting ∧
      (∀ d ∈ ds.dropLast, Full (max 1 x.config.bulkPageSize.toNat)
        (max 1 x.config.bulkFlushBytes.toNat) d.entries) ∧
      ∀ o, r = .ok o → (fetches es).map (·.id) = ids ∧ waiting = [] := by
  obtain ⟨fs, b, o, s₁, es₁, es₂, rfl, Hs, ends⟩ := runs_bulkInto_handlings hE h
  have start := Batch.withLimits_open x.config.bulkPageSize.toNat x.config.bulkFlushBytes.toNat
  obtain ⟨hb, ds, D, full⟩ := Hs.dispatched hE start
  obtain ⟨ds', waiting, D', full', done⟩ := ends.dispatched hE hb
  rw [fetches_append, Hs.fetches_eq hE, List.filterMap_append]
  refine ⟨ds ++ ds', waiting, D.append D', fun d hd => ?_, done⟩
  by_cases hn : ds' = []
  · rw [hn, List.append_nil] at hd
    exact full d (List.dropLast_subset ds hd)
  · rw [List.dropLast_append_of_ne_nil hn] at hd
    exact (List.mem_append.mp hd).elim (full d) (full' d)

/-- A bulk write that ends with an outcome divides its entries into batches: they are delivered in
order, each of them once, in batches that keep to the limits and are full but for the last one.
The running length of a batch is the length of its entries whatever is done to it. -/
theorem bulkInto_divides (x : Indexer) (paths : Engine.Paths) (offset : Option UInt64)
    (ids : List UInt64) {o : BulkOutcome}
    (h : Program.Runs E (x.bulkInto paths offset ids).run s es (.ok o) s') :
    (fetches es).map (·.id) = ids ∧
      (∃ ds : List (Delivery x.config.bulkMaxAttempts.toNat),
        exchanges es = (ds.flatMap fun d => d.attempts.map (x.exchange paths)) ∧
        ds.flatMap (·.entries) = (fetches es).filterMap (·.handed? x.hooks) ∧
        (∀ d ∈ ds, Within (max 1 x.config.bulkPageSize.toNat)
          (max 1 x.config.bulkFlushBytes.toNat) d.entries) ∧
        ∀ d ∈ ds.dropLast, Full (max 1 x.config.bulkPageSize.toNat)
          (max 1 x.config.bulkFlushBytes.toNat) d.entries) ∧
      ∀ count bytes ops, ((Batch.withLimits count bytes).after ops).bytes =
        (((Batch.withLimits count bytes).after ops).entries.map (·.size)).sum := by
  obtain ⟨ds, waiting, D, full, done⟩ := runs_bulkInto_dispatched idle_anyAnswer h.forget
  obtain ⟨hids, rfl⟩ := done o rfl
  refine ⟨hids, ⟨ds, D.sent, ?_, D.within, full⟩, Batch.after_bytes⟩
  rw [← D.carried, List.append_nil]

end Indexer

namespace World

/-- An indexer that writes its items one by one, each once, and leaves one out. -/
def singly : Indexer :=
  ⟨{ bulkPageSize := 1, bulkMaxAttempts := 1 }, [.skip (·.id == 3)], none, by decide⟩

def fourPosts : World Unit where
  engine := ()
  catalogue := { documents := [1, 2, 3, 4].map (.new · "post" Calendar.Moment.epoch) }

end World

/-- The items that are to be written go out one by one. -/
theorem Indexer.bulkInto_divides_four_posts :
    ∃ o, Program.Runs (World.answering World.accepting)
        (World.singly.bulkInto World.singly.paths none [1, 2, 3, 4]).run World.fourPosts
        (World.fourPosts.events World.accepting
          (World.singly.bulkInto World.singly.paths none [1, 2, 3, 4])) (.ok o)
        (World.fourPosts.perform World.accepting
          (World.singly.bulkInto World.singly.paths none [1, 2, 3, 4])).2 ∧
      ∃ ds : List (Delivery World.singly.config.bulkMaxAttempts.toNat),
        (ds.flatMap (·.entries)).map (·.id) = [1, 2, 4] ∧ ∀ d ∈ ds, d.entries.length ≤ 1 := by
  have ends : (World.fourPosts.perform World.accepting
      (World.singly.bulkInto World.singly.paths none [1, 2, 3, 4])).1 =
        .ok { failed := 3, skipped := 1, failedIds := [1, 2, 4] } := by
    decide +kernel
  have handed : ((fetches (World.fourPosts.events World.accepting
      (World.singly.bulkInto World.singly.paths none [1, 2, 3, 4]))).filterMap
        (·.handed? World.singly.hooks)).map (·.id) = [1, 2, 4] := by
    decide +kernel
  have run := World.runs_events_of_ends ends
  obtain ⟨-, ⟨ds, -, carried, within, -⟩, -⟩ :=
    bulkInto_divides World.singly World.singly.paths none [1, 2, 3, 4] run
  exact ⟨_, run, ds, (congrArg (List.map (·.id)) carried).trans handed,
    fun d hd => (within d hd).length_le⟩

end ContentIndex
