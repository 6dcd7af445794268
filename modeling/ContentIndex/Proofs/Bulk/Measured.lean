import ContentIndex.Proofs.Bulk.Batches
import ContentIndex.Proofs.Indexer.Trace
import ContentIndex.Proofs.Metrics.Registry

/-
  What a bulk write reports. The reports of a delivery are those of its requests, with one between
  any two of them (`measuredFrom`), and then its outcome. `Measured` says of a part of a bulk write
  that its reports agree with what it adds to the outcome; it holds of the handling of one item and
  adds up over all of them. What is counted as skipped is reported in the end.
-/

namespace ContentIndex

open Bulk (Attempt Batch Delivery Entry)
open Number (Double)
open Program (runs_bind_ok runs_map_except)

/-! ## Reports -/

/-- What is reported. -/
def Event.measured? : Event surroundings → Option Measurement
  | ⟨.measure m, _⟩ => some m
  | _ => none

def measurements (es : List (Event surroundings)) : List Measurement :=
  es.filterMap Event.measured?

@[simp] theorem measurements_append (es es' : List (Event surroundings)) :
    measurements (es ++ es') = measurements es ++ measurements es' :=
  List.filterMap_append

/-- The metrics of a world add up what is reported. -/
theorem World.metrics_perform {E α : Type} {engine : EngineModel E} (a : Action α) (w : World E)
    (h : ∀ r w, (engine r w).2.metrics = w.metrics) :
    (w.perform engine a).2.metrics =
      (measurements (w.events engine a)).foldl Registry.record w.metrics := by
  have added (p : Program surroundings (Except IndexError α)) (w : World E) :
      (p.trace (fun c w => w.handle engine c) w).2.2.metrics =
        (measurements (p.trace (fun c w => w.handle engine c) w).1).foldl Registry.record
          w.metrics := by
    induction p generalizing w with
    | done a => rfl
    | call c next ih =>
      refine (ih _ _).trans ?_
      cases c with
      | engine r => exact congrArg (List.foldl _ · _) (h r _)
      | _ => rfl
  rw [perform, Program.run_eq_trace]
  exact added a.run w

/-! ## Deliveries -/

/-- The bytes of the body. -/
def Engine.Request.bodyBytes (r : Engine.Request) : Nat :=
  r.body.elim 0 (·.utf8ByteSize)

/-- What is reported of a request. -/
def Bulk.Attempt.measured (t : Attempt) : List Measurement :=
  [.bulkBytes (Bulk.body t.entries).utf8ByteSize, .timed "bulk"]

/-- What is reported of attempts; the first of them has a number. -/
def measuredFrom (attempt : Nat) : List Attempt → List Measurement
  | [] => []
  | [t] => t.measured
  | t :: u :: ts =>
    t.measured ++ .bulkRetry (attempt + 1) u.entries.length :: measuredFrom (attempt + 1) (u :: ts)

/-- The entries that the attempt of a number sends once more. -/
def Bulk.Delivery.resent? {limit : Nat} (d : Delivery limit) (attempt : Nat) : Option Nat :=
  if 2 ≤ attempt then d.attempts[attempt - 1]?.map (·.entries.length) else none

theorem measuredFrom_cons (attempt : Nat) (t : Attempt) {u : Attempt} {ts : List Attempt}
    (h : ts.head? = some u) : measuredFrom attempt (t :: ts) =
      t.measured ++ .bulkRetry (attempt + 1) u.entries.length :: measuredFrom (attempt + 1) ts := by
  cases ts with
  | nil => cases h
  | cons v ts =>
    cases h
    rfl

theorem measuredFrom_bytes (attempt : Nat) (ts : List Attempt) :
    (measuredFrom attempt ts).filterMap Histogram.bytes.value? =
      ts.map fun t => (Bulk.body t.entries).utf8ByteSize := by
  fun_induction measuredFrom attempt ts with
  | case1 => rfl
  | case2 => rfl
  | case3 attempt t u ts ih =>
    rw [List.filterMap_append, List.filterMap_cons, ih]
    rfl

theorem measuredFrom_resent (attempt k : Nat) (ts : List Attempt) :
    (measuredFrom attempt ts).filterMap (Histogram.resent k).value? =
      (if attempt < k then ts[k - attempt]?.map (·.entries.length) else none).toList := by
  have unsent (t : Attempt) : t.measured.filterMap (Histogram.resent k).value? = [] := rfl
  fun_induction measuredFrom attempt ts with
  | case1 => simp
  | case2 attempt t =>
    rw [unsent]
    split
    · rw [List.getElem?_eq_none (show [t].length ≤ k - attempt by simp; omega)]
      rfl
    · rfl
  | case3 attempt t u ts ih =>
    have again : (Histogram.resent k).value? (.bulkRetry (attempt + 1) u.entries.length) =
        if attempt + 1 = k then some u.entries.length else none := rfl
    rw [List.filterMap_append, unsent, List.nil_append, List.filterMap_cons, ih, again]
    rcases Nat.lt_trichotomy (attempt + 1) k with later | rfl | before
    · have index : k - attempt = k - (attempt + 1) + 1 := by omega
      rw [if_neg (Nat.ne_of_lt later), if_pos later, if_pos (Nat.lt_of_succ_lt later), index,
        List.getElem?_cons_succ]
    · rw [if_pos rfl, if_neg (Nat.lt_irrefl _), if_pos (Nat.lt_succ_self _),
        Nat.add_sub_cancel_left]
      rfl
    · rw [if_neg (Nat.ne_of_gt before), if_neg (Nat.lt_asymm before), if_neg (Nat.not_lt.mpr
        (Nat.le_of_lt_succ before))]

/-- Of the outcome only the retries are reported before the end of a delivery. -/
theorem measuredFrom_amount (c : Counter) (attempt : Nat) (ts : List Attempt) :
    ((measuredFrom attempt ts).map c.amount).sum =
      if c = .retries then ts.length - 1 else 0 := by
  have uncounted (t : Attempt) : (t.measured.map c.amount).sum = 0 := by
    cases c <;> rfl
  have again (k n : Nat) : c.amount (.bulkRetry k n) = if c = .retries then 1 else 0 := by
    cases c <;> rfl
  fun_induction measuredFrom attempt ts with
  | case1 => simp
  | case2 attempt t => simp [uncounted]
  | case3 attempt t u ts ih =>
    rw [List.map_append, List.sum_append, uncounted, List.map_cons, List.sum_cons, again, ih,
      Nat.zero_add]
    split
    · simp only [List.length_cons]
      omega
    · rfl

namespace Indexer

variable {σ : Type} {E : Effect surroundings σ} {s s' : σ} {es : List (Event surroundings)}
  {x : Indexer} {paths : Engine.Paths} {offset : Option UInt64}

/-! ## Ways to run -/

/-- Calls of the store are neither reports nor exchanges. -/
theorem measurements_of_store (h : ∀ e ∈ es, StoreLift (fun _ => True) e.call) :
    measurements es = [] := by
  refine List.filterMap_eq_nil_iff.mpr fun e he => ?_
  have hc := h e he
  obtain ⟨c, a⟩ := e
  cases c with
  | store c => rfl
  | _ => exact hc.elim

section

variable {α : Type} {r : Except IndexError α}

theorem runs_measured_bind {m : Measurement} {f : Unit → Action α}
    (h : Program.Runs E (Action.measure m >>= f).run s es r s') :
    ∃ s₁ es', measurements es = m :: measurements es' ∧ exchanges es = exchanges es' ∧
      Program.Runs E (f ()).run s₁ es' r s' := by
  obtain ⟨a, s₁, es', rfl, -, h⟩ := runs_ask_bind (c := .measure m) h
  exact ⟨s₁, es', rfl, rfl, h⟩

theorem runs_sent_bind {q : Engine.Request}
    {f : Except Engine.TransportError Engine.Response → Action α}
    (h : Program.Runs E (Action.send q >>= f).run s es r s') :
    ∃ a s₁ es', measurements es = measurements es' ∧ exchanges es = ⟨q, a⟩ :: exchanges es' ∧
      Program.Runs E (f a).run s₁ es' r s' := by
  obtain ⟨a, s₁, es', rfl, -, h⟩ := runs_ask_bind (c := .engine q) h
  exact ⟨a, s₁, es', rfl, rfl, h⟩

theorem runs_paused_bind {n : Nat} {f : Unit → Action α}
    (h : Program.Runs E (Action.pause n >>= f).run s es r s') :
    ∃ s₁ es', measurements es = measurements es' ∧ exchanges es = exchanges es' ∧
      Program.Runs E (f ()).run s₁ es' r s' := by
  cases n with
  | zero => exact ⟨s, es, rfl, rfl, h⟩
  | succ n =>
    obtain ⟨a, s₁, es', rfl, -, h⟩ := runs_ask_bind (c := .wait (n + 1)) h
    exact ⟨s₁, es', rfl, rfl, h⟩

end

/-! ## One batch -/

/-- Noting what is left in the ledger is not reported. -/
theorem runs_settled_measured {α : Type} {last : Attempt} {v w : α}
    (h : Program.Runs E (x.settle last offset >>= fun _ => (pure v : Action α)).run s es (.ok w)
      s') : w = v ∧ measurements es = [] ∧ exchanges es = [] := by
  obtain ⟨u, hu, hw⟩ := runs_bind_pure h
  obtain ⟨hes, -⟩ := Program.Always.of_runs (calls_settle x last offset) hu
  refine ⟨?_, measurements_of_store hes, (no_traffic_of_store hes).1⟩
  cases u with
  | error e => cases hw
  | ok u => exact Except.ok.inj hw

theorem runs_attempt_measured {attempt left : Nat} {pending : List Entry}
    {r : Except IndexError (List Entry × Nat)}
    (h : Program.Runs E (x.flushFrom paths offset attempt pending left).run s es r s') :
    ∃ t s₁ es', t.entries = pending ∧ exchanges es = x.exchange paths t :: exchanges es' ∧
      measurements es = t.measured ++ measurements es' ∧
      Program.Runs E (x.goOn paths offset attempt left t).run s₁ es' r s' := by
  rw [flushFrom_eq] at h
  obtain ⟨s₁, es₁, hm₁, hx₁, h⟩ := runs_paused_bind h
  obtain ⟨s₂, es₂, hm₂, hx₂, h⟩ := runs_measured_bind h
  obtain ⟨a, s₃, es₃, hm₃, hx₃, h⟩ := runs_sent_bind h
  obtain ⟨s₄, es₄, hm₄, hx₄, h⟩ := runs_measured_bind h
  refine ⟨⟨pending, a⟩, s₄, es₄, rfl, ?_, ?_, h⟩
  · rw [hx₁, hx₂, hx₃, hx₄]
    rfl
  · rw [hm₁, hm₂, hm₃, hm₄]
    rfl

/-- From an attempt on, the requests are those of a delivery, and reported as such. -/
theorem runs_flushFrom_measured {attempt left : Nat} {pending : List Entry} {v : List Entry × Nat}
    (h : Program.Runs E (x.flushFrom paths offset attempt pending left).run s es (.ok v) s') :
    ∃ d : Delivery (left + 1), d.entries = pending ∧
      v = (d.pending, attempt + d.attempts.length - 1) ∧
      exchanges es = d.attempts.map (x.exchange paths) ∧
      measurements es = measuredFrom attempt d.attempts := by
  induction left generalizing attempt pending s es with
  | zero =>
    obtain ⟨t, s₁, es₁, he, hx, hm, h⟩ := runs_attempt_measured h
    have settles : x.goOn paths offset attempt 0 t = x.settle t offset >>= fun _ =>
        pure (t.left, attempt) := by
      unfold goOn
      exact ite_self _
    rw [settles] at h
    obtain ⟨rfl, hm₁, hx₁⟩ := runs_settled_measured h
    exact ⟨.single t (.inr rfl), he, rfl, by rw [hx, hx₁]; rfl, by rw [hm, hm₁]; rfl⟩
  | succ left ih =>
    obtain ⟨t, s₁, es₁, he, hx, hm, h⟩ := runs_attempt_measured h
    unfold goOn at h
    cases ends : t.ends with
    | true =>
      rw [if_pos ends] at h
      obtain ⟨rfl, hm₁, hx₁⟩ := runs_settled_measured h
      exact ⟨.single t (.inl ends), he, rfl, by rw [hx, hx₁]; rfl, by rw [hm, hm₁]; rfl⟩
    | false =>
      rw [if_neg (Bool.eq_false_iff.mp ends)] at h
      obtain ⟨s₂, es₂, hm₂, hx₂, h⟩ := runs_measured_bind h
      obtain ⟨d, hd, rfl, hx₃, hm₃⟩ := ih h
      refine ⟨d.again t ends hd, he, ?_, ?_, ?_⟩
      · unfold Delivery.pending
        rw [d.last_again t ends hd]
        refine congrArg (Prod.mk _) ?_
        show _ = attempt + (d.attempts.length + 1) - 1
        omega
      · rw [hx, hx₂, hx₃]
        rfl
      · obtain ⟨u, hu, entries⟩ := d.retried.first
        rw [hm, hm₂, hm₃, ← hd, ← entries]
        exact (measuredFrom_cons attempt t hu).symm

/-- A batch is reported with its outcome. -/
theorem runs_flush_measured {entries : List Entry} {o : BulkOutcome}
    (h : Program.Runs E (x.flush paths offset entries).run s es (.ok o) s') :
    ∃ d : Delivery x.config.bulkMaxAttempts.toNat, o = d.outcome ∧
      exchanges es = d.attempts.map (x.exchange paths) ∧
      measurements es = measuredFrom 1 d.attempts ++ [.indexed o.indexed, .failed o.failed] := by
  have limit : x.config.bulkMaxAttempts.toNat - 1 + 1 = x.config.bulkMaxAttempts.toNat := by
    have := x.one_le_bulkMaxAttempts
    omega
  rw [← limit]
  obtain ⟨v, s₁, es₁, es₂, rfl, h₁, h₂⟩ := runs_bind_ok h
  obtain ⟨d, rfl, rfl, hx, hm⟩ := runs_flushFrom_measured h₁
  obtain ⟨s₂, es₃, hm₃, hx₃, h₃⟩ := runs_measured_bind h₂
  obtain ⟨s₃, es₄, hm₄, hx₄, h₄⟩ := runs_measured_bind h₃
  obtain ⟨rfl, ho, rfl⟩ := runs_value_iff.mp h₄
  have outcome : o = d.outcome := by
    rw [Except.ok.inj ho, Nat.add_sub_cancel_left]
    rfl
  refine ⟨d, outcome, ?_, ?_⟩
  · rw [exchanges_append, hx, hx₃, hx₄]
    exact List.append_nil _
  · rw [measurements_append, hm, hm₃, hm₄, outcome]
    rfl

end Indexer

/-! ## Parts of a bulk write -/

namespace Counter

/-- What an outcome has counted. -/
def of (o : BulkOutcome) : Counter → Nat
  | indexed => o.indexed
  | failed => o.failed
  | skipped => o.skipped
  | retries => o.retries

end Counter

/-- The reports of a part of a bulk write agree with its requests, which are those of some
deliveries, and with what it adds to the outcome. What is skipped is not reported yet. -/
structure Measured (x : Indexer) (paths : Engine.Paths) (o : BulkOutcome)
    (es : List (Event surroundings)) (ds : List (Delivery x.config.bulkMaxAttempts.toNat))
    (o' : BulkOutcome) : Prop where
  sent : exchanges es = ds.flatMap fun d => d.attempts.map (x.exchange paths)
  bytes : (measurements es).filterMap Histogram.bytes.value? =
    (exchanges es).map (·.request.bodyBytes)
  resent : ∀ k, (measurements es).filterMap (Histogram.resent k).value? =
    ds.filterMap (·.resent? k)
  counted : ∀ c, c ≠ .skipped → Counter.of o' c = Counter.of o c +
    ((measurements es).map c.amount).sum
  unskipped : ((measurements es).map Counter.skipped.amount).sum = 0

namespace Measured

variable {x : Indexer} {paths : Engine.Paths} {o o₁ o' : BulkOutcome}
  {es es' : List (Event surroundings)} {ds ds' : List (Delivery x.config.bulkMaxAttempts.toNat)}

/-- A part that sends nothing and reports nothing. -/
theorem quiet (hx : exchanges es = []) (hm : measurements es = [])
    (h : ∀ c, c ≠ .skipped → Counter.of o' c = Counter.of o c) :
    Measured x paths o es [] o' := by
  constructor
  · exact hx
  · rw [hm, hx]
    rfl
  · rw [hm]
    exact fun _ => rfl
  · rw [hm]
    exact h
  · rw [hm]
    rfl

/-- The content store is asked for an item. -/
theorem fetched (f : Fetch) : Measured x paths o [⟨.content (.prepare f.id), f.answer⟩] [] o :=
  .quiet rfl rfl fun _ _ => rfl

/-- An item that has failed before it was sent. -/
theorem broken (id : UInt64) (hx : exchanges es = []) (hm : measurements es = [.failed 1]) :
    Measured x paths o es []
      { o with failed := o.failed + 1, failedIds := o.failedIds ++ [id] } := by
  constructor
  · exact hx
  · rw [hm, hx]
    rfl
  · rw [hm]
    exact fun _ => rfl
  · intro c _
    rw [hm]
    cases c <;> rfl
  · rw [hm]
    rfl

/-- Parts that follow each other add up. -/
theorem trans (h : Measured x paths o es ds o₁) (h' : Measured x paths o₁ es' ds' o') :
    Measured x paths o (es ++ es') (ds ++ ds') o' := by
  constructor
  · rw [exchanges_append, h.sent, h'.sent, List.flatMap_append]
  · rw [measurements_append, List.filterMap_append, h.bytes, h'.bytes, exchanges_append,
      List.map_append]
  · intro k
    rw [measurements_append, List.filterMap_append, h.resent, h'.resent, List.filterMap_append]
  · intro c hc
    rw [h'.counted c hc, h.counted c hc, measurements_append, List.map_append, List.sum_append,
      Nat.add_assoc]
  · rw [measurements_append, List.map_append, List.sum_append, h.unskipped, h'.unskipped]

/-- A batch that is sent. -/
theorem delivered (d : Delivery x.config.bulkMaxAttempts.toNat)
    (hx : exchanges es = d.attempts.map (x.exchange paths))
    (hm : measurements es = measuredFrom 1 d.attempts ++
      [.indexed d.outcome.indexed, .failed d.outcome.failed]) :
    Measured x paths o es [d] (o.merge d.outcome) := by
  constructor
  · rw [hx, List.flatMap_singleton]
  · rw [hm, hx, List.filterMap_append, measuredFrom_bytes, List.map_map]
    exact List.append_nil _
  · intro k
    rw [hm, List.filterMap_append, measuredFrom_resent]
    change (d.resent? k).toList ++ [] = [d].filterMap (·.resent? k)
    rw [List.filterMap_cons]
    cases d.resent? k <;> rfl
  · intro c hc
    rw [hm, List.map_append, List.sum_append, measuredFrom_amount]
    cases c with
    | skipped => exact absurd rfl hc
    | retries => rfl
    | _ => simp [Counter.of, Counter.amount, BulkOutcome.merge]
  · rw [hm, List.map_append, List.sum_append, measuredFrom_amount]
    rfl

end Measured

namespace Indexer

variable {σ : Type} {E : Effect surroundings σ} {s s' : σ} {es : List (Event surroundings)}
  {x : Indexer} {paths : Engine.Paths} {offset : Option UInt64} {b b' : Batch} {o o' : BulkOutcome}

theorem runs_flushBatch_measured
    (h : Program.Runs E (x.flushBatch paths offset b o).run s es (.ok (b', o')) s') :
    ∃ ds, Measured x paths o es ds o' := by
  obtain ⟨v, flushed, hv⟩ := runs_map_except h
  cases v with
  | error e => cases hv
  | ok o₁ =>
    cases hv
    obtain ⟨d, rfl, hx, hm⟩ := runs_flush_measured flushed
    exact ⟨[d], .delivered d hx hm⟩

/-- An item that is handled is reported as it is counted. -/
theorem Handling.measured {f : Fetch}
    (h : Handling x paths offset E f b o s es (.ok (b', o')) s') :
    ∃ ds, Measured x paths o es ds o' := by
  cases h with
  | broken hf h =>
    obtain ⟨u, s₁, es₁, es₂, rfl, noted, h⟩ := runs_bind_ok h
    obtain ⟨hes, -⟩ := Program.Always.of_runs (Action.calls_stored (P := StoreLift fun _ => True)
      (Ledger.always_record [f.id] offset) fun _ _ => trivial) noted
    obtain ⟨s₂, es₃, hm, hx, h⟩ := runs_measured_bind h
    obtain ⟨rfl, hv, rfl⟩ := runs_value_iff.mp h
    cases hv
    refine ⟨[], .broken f.id ?_ ?_⟩
    · rw [exchanges_append, (no_traffic_of_store hes).1, hx]
      rfl
    · rw [measurements_append, measurements_of_store hes, hm]
      rfl
  | skipped hf hb =>
    exact ⟨[], .quiet rfl rfl fun c hc => by cases c <;> first | rfl | exact absurd rfl hc⟩
  | waits he room => exact ⟨[], .quiet rfl rfl fun _ _ => rfl⟩
  | sends he full h => exact runs_flushBatch_measured h

/-- Items that are handled one after another are reported as they are counted. -/
theorem Handlings.measured {fs : List Fetch}
    (h : Handlings x paths offset E fs b o s es b' o' s') : ∃ ds, Measured x paths o es ds o' := by
  induction h with
  | nil b o s => exact ⟨[], .quiet rfl rfl fun _ _ => rfl⟩
  | cons _ H _ ih =>
    obtain ⟨ds, R⟩ := H.measured
    obtain ⟨ds', R'⟩ := ih
    exact ⟨ds ++ ds', (Measured.fetched _).trans (R.trans R')⟩

/-- Behind the items and the rest of the batch only the items that were skipped are reported. -/
theorem runs_bulkInto_measured {ids : List UInt64}
    (h : Program.Runs E (x.bulkInto paths offset ids).run s es (.ok o) s') :
    ∃ ds es₁ es₂, es = es₁ ++ es₂ ∧ Measured x paths {} es₁ ds o ∧ exchanges es₂ = [] ∧
      measurements es₂ = [.skipped o.skipped] := by
  have close {o₁ : BulkOutcome} {s₁ : σ} {es₁ : List (Event surroundings)}
      (h : Program.Runs E (do Action.measure (.skipped o₁.skipped); pure o₁ :
        Action BulkOutcome).run s₁ es₁ (.ok o) s') :
      o = o₁ ∧ exchanges es₁ = [] ∧ measurements es₁ = [.skipped o₁.skipped] := by
    obtain ⟨s₂, es₂, hm, hx, h⟩ := runs_measured_bind h
    obtain ⟨rfl, ho, rfl⟩ := runs_value_iff.mp h
    exact ⟨Except.ok.inj ho, hx, hm⟩
  obtain ⟨⟨b₁, o₁⟩, s₁, es₁, es₂, rfl, h₁, h₂⟩ := runs_bind_ok h
  obtain ⟨fs, b₂, o₂, s₂, es₃, es₄, rfl, Hs, ⟨-, rfl, hr, rfl⟩ | ⟨-, -, -, e, -, hr, -⟩⟩ :=
    runs_addItems_handlings h₁
  · cases hr
    obtain ⟨ds, R⟩ := Hs.measured
    rw [List.append_nil]
    simp only at h₂
    split at h₂
    · obtain ⟨rfl, hx, hm⟩ := close h₂
      exact ⟨ds, es₃, es₂, rfl, R, hx, hm⟩
    · obtain ⟨⟨b₃, o₃⟩, s₃, es₅, es₆, rfl, h₃, h₄⟩ := runs_bind_ok h₂
      obtain ⟨ds', R'⟩ := runs_flushBatch_measured h₃
      obtain ⟨rfl, hx, hm⟩ := close h₄
      exact ⟨ds ++ ds', es₃ ++ es₅, es₆, (List.append_assoc ..).symm, R.trans R', hx, hm⟩
  · cases hr

/-- A bulk write that ends with an outcome (`bulkIndex` is one without an offset), whatever the
store, the content store, the hooks and the engine do. Over it the counters grow by what the outcome
says, the lengths of the bodies of all requests are sampled, and so are the numbers of entries that
were sent once more, by the number of the attempt. -/
theorem bulkInto_measures (x : Indexer) (paths : Engine.Paths) (offset : Option UInt64)
    (ids : List UInt64) {σ : Type} {E : Effect surroundings σ} {s s' : σ}
    {es : List (Event surroundings)} {o : BulkOutcome}
    (h : Program.Runs E (x.bulkInto paths offset ids).run s es (.ok o) s') :
    ∃ ds : List (Delivery x.config.bulkMaxAttempts.toNat),
      (exchanges es = ds.flatMap fun d => d.attempts.map (x.exchange paths)) ∧
      ∀ r : Registry,
        let r' := (measurements es).foldl Registry.record r
        (∀ c : Counter, r'.total c.metric = r.total c.metric + .ofNat (Counter.of o c)) ∧
          r'.samples Histogram.bytes.metric = r.samples Histogram.bytes.metric ++
            (exchanges es).map (fun e => Double.ofNat e.request.bodyBytes) ∧
          ∀ k, r'.samples (Histogram.resent k).metric = r.samples (Histogram.resent k).metric ++
            (ds.filterMap (·.resent? k)).map Double.ofNat := by
  obtain ⟨ds, es₁, es₂, rfl, R, hx, hm⟩ := runs_bulkInto_measured h
  have sent : exchanges (es₁ ++ es₂) = exchanges es₁ := by
    rw [exchanges_append, hx, List.append_nil]
  rw [sent]
  refine ⟨ds, R.sent, fun r => ⟨fun c => ?_, ?_, fun k => ?_⟩⟩
  · have all : ((measurements (es₁ ++ es₂)).map c.amount).sum = Counter.of o c := by
      rw [measurements_append, hm, List.map_append, List.sum_append]
      by_cases hc : c = .skipped
      · rw [hc, R.unskipped]
        exact Nat.zero_add _
      · rw [R.counted c hc]
        cases c <;> first | exact absurd rfl hc | exact (Nat.zero_add _).symm
    rw [Registry.total_records, all]
  · have bytes : (measurements (es₁ ++ es₂)).filterMap Histogram.bytes.value? =
        (exchanges es₁).map (·.request.bodyBytes) := by
      rw [measurements_append, List.filterMap_append, R.bytes, hm]
      exact List.append_nil _
    rw [Registry.samples_records, bytes, List.map_map]
    rfl
  · have resent : (measurements (es₁ ++ es₂)).filterMap (Histogram.resent k).value? =
        ds.filterMap (·.resent? k) := by
      rw [measurements_append, List.filterMap_append, R.resent, hm]
      exact List.append_nil _
    rw [Registry.samples_records, resent]

end Indexer

namespace World

/-- An indexer that writes its items one by one, each twice at the most. -/
def persistent : Indexer := ⟨{ bulkPageSize := 1, bulkMaxAttempts := 2 }, [], none, by decide⟩

/-- An engine that says nothing of the entries that it is sent. -/
def noncommittal : EngineModel Unit :=
  fun _ w => (.ok { status := 200, body := "\x7b\"items\":[]\x7d" }, w)

end World

/-- Of two items one is left unanswered twice and fails, and the other one is gone. -/
theorem Indexer.bulkInto_measures_one_retry :
    ∃ w : World Unit, World.fourPosts.perform World.noncommittal
        (World.persistent.bulkInto World.persistent.paths none [4, 5]) =
          (.ok { failed := 1, skipped := 1, retries := 1, failedIds := [4] }, w) ∧
      w.metrics.total Counter.indexed.metric = 0 ∧ w.metrics.total Counter.failed.metric = 1 ∧
      w.metrics.total Counter.skipped.metric = 1 ∧ w.metrics.total Counter.retries.metric = 1 := by
  have ends : (World.fourPosts.perform World.noncommittal
      (World.persistent.bulkInto World.persistent.paths none [4, 5])).1 =
        .ok { failed := 1, skipped := 1, retries := 1, failedIds := [4] } := by
    decide +kernel
  obtain ⟨ds, -, measures⟩ := bulkInto_measures World.persistent World.persistent.paths none [4, 5]
    (World.runs_events_of_ends ends)
  have kept (r : Engine.Request) (w : World Unit) :
      (World.noncommittal r w).2.metrics = w.metrics := rfl
  have metrics := World.metrics_perform
    (World.persistent.bulkInto World.persistent.paths none [4, 5]) World.fourPosts kept
  obtain ⟨totals, -, -⟩ := measures World.fourPosts.metrics
  rw [← metrics] at totals
  clear metrics measures
  -- What the world is in the end does not matter any more, only what is known of it.
  generalize World.fourPosts.perform World.noncommittal
    (World.persistent.bulkInto World.persistent.paths none [4, 5]) = p at ends totals ⊢
  obtain ⟨r, w⟩ := p
  exact ⟨w, congrArg (·, w) ends, totals .indexed, totals .failed, totals .skipped,
    totals .retries⟩

end ContentIndex
