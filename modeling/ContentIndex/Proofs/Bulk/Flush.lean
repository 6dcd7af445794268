import ContentIndex.Proofs.Bulk.Delivery
import ContentIndex.Proofs.Indexer.Traffic

/-
  What a batch exchanges with the engine when it is written. Whatever the store does, the traffic
  is that of a delivery, and then its failures are noted in the ledger (`settle`); only that can
  fail (`runs_flush`). The attempts are followed one by one, with the entries that are pending
  and the number of attempts that remain.
-/

namespace ContentIndex

open Bulk (Attempt Delivery Entry)
open Program (runs_bind_except)

/-- The ids that are noted in the ledger after the last attempt at a batch, if any are. The page
at an offset stands for the entries of a request that failed as a whole. -/
def Bulk.Attempt.noted? (t : Attempt) (offset : Option UInt64) : Option (List UInt64) :=
  if t.isUnread then some (if offset.isSome then [] else t.entries.map (·.id))
  else if t.left.isEmpty then none
  else some (t.left.map (·.id))

namespace Bulk.Attempt

variable {t : Attempt}

theorem noted?_of_unread (h : t.isUnread = true) (offset : Option UInt64) :
    t.noted? offset = some (if offset.isSome then [] else t.entries.map (·.id)) := by
  unfold noted?
  rw [if_pos h]

theorem noted?_of_nil (h : t.isUnread = false) (hl : t.left = []) (offset : Option UInt64) :
    t.noted? offset = none := by
  unfold noted?
  rw [h, if_neg Bool.false_ne_true, hl, if_pos List.isEmpty_nil]

theorem noted?_of_left (h : t.isUnread = false) (hl : t.left ≠ []) (offset : Option UInt64) :
    t.noted? offset = some (t.left.map (·.id)) := by
  unfold noted?
  rw [h, if_neg Bool.false_ne_true, if_neg (by rwa [List.isEmpty_iff])]

end Bulk.Attempt

/-- The outcome of a batch. -/
def Bulk.Delivery.outcome {limit : Nat} (d : Delivery limit) : BulkOutcome where
  indexed := d.entries.length - d.pending.length
  failed := d.pending.length
  retries := d.attempts.length - 1
  failedIds := d.pending.map (·.id)

namespace Indexer

variable {σ : Type} {E : Effect surroundings σ} {s s' : σ} {es : List (Event surroundings)}
  {x : Indexer} {paths : Engine.Paths} {offset : Option UInt64}

/-- Notes in the ledger what the last attempt at a batch has left. -/
def settle (x : Indexer) (last : Attempt) (offset : Option UInt64) : Action Unit :=
  match last.noted? offset with
  | none => pure ()
  | some items => x.recordFailures items offset

/-- The call of an attempt, with its answer. -/
def sending (x : Indexer) (paths : Engine.Paths) (t : Attempt) : Event surroundings :=
  ⟨.engine (x.bulkRequest paths t.entries), t.answer⟩

theorem calls_settle (x : Indexer) (last : Attempt) (offset : Option UInt64) :
    (x.settle last offset).Calls (StoreLift fun _ => True) := by
  unfold settle
  cases last.noted? offset with
  | none => exact Action.calls_pure ()
  | some items => exact Action.calls_stored (Ledger.always_record items offset) fun _ _ => trivial

/-- Noting failures takes calls of the store alone. -/
theorem no_traffic_of_store (h : ∀ e ∈ es, StoreLift (fun _ => True) e.call) :
    exchanges es = [] ∧ fetches es = [] := by
  refine ⟨exchanges_eq_nil fun e he => ?_, fetches_eq_nil fun e he => ?_⟩ <;>
  · have hc := h e he
    obtain ⟨c, a⟩ := e
    cases c with
    | store c => rfl
    | _ => exact hc.elim

/-- The exchange of an attempt. -/
def exchange (x : Indexer) (paths : Engine.Paths) (t : Attempt) : Exchange :=
  ⟨x.bulkRequest paths t.entries, t.answer⟩

theorem exchanges_sending (ts : List Attempt) :
    exchanges (ts.map (x.sending paths)) = ts.map (x.exchange paths) := by
  unfold exchanges
  rw [List.filterMap_map, ← List.filterMap_eq_map]
  rfl

theorem fetches_sending (ts : List Attempt) : fetches (ts.map (x.sending paths)) = [] := by
  unfold fetches
  rw [List.filterMap_map]
  exact List.filterMap_eq_nil_iff.mpr fun _ _ => rfl

/-- How a batch goes on after an attempt. -/
def goOn (x : Indexer) (paths : Engine.Paths) (offset : Option UInt64) (attempt left : Nat)
    (t : Attempt) : Action (List Entry × Nat) :=
  let settled : Action (List Entry × Nat) := do
    x.settle t offset
    pure (t.left, attempt)
  if t.ends then settled
  else
    match left with
    | 0 => settled
    | left + 1 => do
      Action.measure (.bulkRetry (attempt + 1) t.left.length)
      x.flushFrom paths offset (attempt + 1) t.left left

theorem flushFrom_eq (x : Indexer) (paths : Engine.Paths) (offset : Option UInt64)
    (attempt left : Nat) (pending : List Entry) :
    x.flushFrom paths offset attempt pending left = (do
      Action.pause (x.bulkPolicy.delayFor attempt)
      Action.measure (.bulkBytes (Bulk.body pending).utf8ByteSize)
      let answer ← Action.send (x.bulkRequest paths pending)
      Action.measure (.timed "bulk")
      x.goOn paths offset attempt left ⟨pending, answer⟩) := by
  unfold flushFrom
  refine bind_congr fun _ => ?_
  change Action.measure _ >>= (fun _ => Action.send _ >>= fun a => Action.measure _ >>= fun _ => _) =
    _
  refine bind_congr fun _ => bind_congr fun answer => bind_congr fun _ => ?_
  let t : Attempt := ⟨pending, answer⟩
  change _ = x.goOn paths offset attempt left t
  unfold goOn
  cases hr : rejectedBy pending answer with
  | error e =>
    have hu : t.isUnread = true := Attempt.unread_of_error hr
    have ends : t.ends = true := by rw [Attempt.ends, hu, Bool.true_or]
    simp only [ends, if_true]
    unfold settle
    rw [Attempt.noted?_of_unread hu, t.left_of_unread hu]
    rfl
  | ok rejected =>
    obtain ⟨hu, hl⟩ := Attempt.filter_rejected (t := t) hr
    change (if (pending.filter fun e => rejected.contains e.id).isEmpty then _ else _) = _
    rw [show (pending.filter fun e => rejected.contains e.id) = t.left from hl]
    cases hn : t.left.isEmpty with
    | true =>
      have ends : t.ends = true := by rw [Attempt.ends, hn, Bool.or_true]
      simp only [ends, if_true]
      unfold settle
      rw [Attempt.noted?_of_nil hu (List.isEmpty_iff.mp hn)]
      rfl
    | false =>
      have again : t.ends = false := by rw [Attempt.ends, hu, hn, Bool.or_false]
      simp only [again, Bool.false_eq_true, if_false]
      cases left with
      | zero =>
        unfold settle
        rw [Attempt.noted?_of_left hu (List.isEmpty_eq_false_iff.mp hn)]
      | succ left => rfl

/-- One attempt, after which the batch is settled or what is left is sent again. -/
theorem runs_attempt (hE : Idle E) {attempt left : Nat} {pending : List Entry}
    {r : Except IndexError (List Entry × Nat)}
    (h : Program.Runs E (x.flushFrom paths offset attempt pending left).run s es r s') :
    ∃ (t : Attempt) (es' : List (Event surroundings)), t.entries = pending ∧
      traffic es = x.sending paths t :: traffic es' ∧
      ((t.ends = true ∨ left = 0) ∧
          Program.Runs E (x.settle t offset >>= fun _ => pure (t.left, attempt)).run s es' r s' ∨
        t.ends = false ∧ ∃ left', left = left' + 1 ∧
          Program.Runs E (x.flushFrom paths offset (attempt + 1) t.left left').run s es' r s') := by
  rw [flushFrom_eq] at h
  obtain ⟨es₁, ht₁, h⟩ := runs_pause_bind hE h
  obtain ⟨es₂, ht₂, h⟩ := runs_measure_bind hE h
  obtain ⟨a, es₃, ht₃, h⟩ := runs_send_bind hE h
  obtain ⟨es₄, ht₄, h⟩ := runs_measure_bind hE h
  let t : Attempt := ⟨pending, a⟩
  have sent : traffic es = x.sending paths t :: traffic es₄ := by
    rw [ht₁, ht₂, ht₃, ht₄]
    rfl
  unfold goOn at h
  cases ends : t.ends with
  | true =>
    rw [if_pos ends] at h
    exact ⟨t, es₄, rfl, sent, .inl ⟨.inl ends, h⟩⟩
  | false =>
    rw [if_neg (Bool.eq_false_iff.mp ends)] at h
    cases left with
    | zero => exact ⟨t, es₄, rfl, sent, .inl ⟨.inr rfl, h⟩⟩
    | succ left =>
      obtain ⟨es₅, ht₅, h⟩ := runs_measure_bind hE h
      rw [ht₅] at sent
      exact ⟨t, es₅, rfl, sent, .inr ⟨ends, left, rfl, h⟩⟩

/-- From an attempt on, the traffic is that of a delivery with so many attempts at the most. -/
theorem runs_flushFrom (hE : Idle E) {attempt left : Nat} {pending : List Entry}
    {r : Except IndexError (List Entry × Nat)}
    (h : Program.Runs E (x.flushFrom paths offset attempt pending left).run s es r s') :
    ∃ (d : Delivery (left + 1)) (es' : List (Event surroundings)), d.entries = pending ∧
      traffic es = d.attempts.map (x.sending paths) ++ traffic es' ∧
      Program.Runs E (x.settle d.last offset >>= fun _ =>
        pure (d.pending, attempt + d.attempts.length - 1)).run s es' r s' := by
  induction left generalizing attempt pending s es with
  | zero =>
    obtain ⟨t, es₁, he, ht, ⟨-, h⟩ | ⟨-, left, hl, -⟩⟩ := runs_attempt hE h
    · exact ⟨.single t (.inr rfl), es₁, he, ht, h⟩
    · cases hl
  | succ left ih =>
    obtain ⟨t, es₁, he, ht, ⟨hend, h⟩ | ⟨hend, left', hl, h⟩⟩ := runs_attempt hE h
    · exact ⟨.single t (.inl (hend.resolve_right (Nat.succ_ne_zero left))), es₁, he, ht, h⟩
    · cases hl
      obtain ⟨d, es₂, hd, ht₂, h⟩ := ih h
      refine ⟨d.again t hend hd, es₂, he, by rw [ht, ht₂]; rfl, ?_⟩
      have count : attempt + 1 + d.attempts.length - 1 =
          attempt + (d.again t hend hd).attempts.length - 1 := by
        show _ = attempt + (d.attempts.length + 1) - 1
        omega
      unfold Delivery.pending at h ⊢
      rw [d.last_again t hend hd, ← count]
      exact h

/-- At least one attempt is made. -/
theorem one_le_bulkMaxAttempts (x : Indexer) : 1 ≤ x.config.bulkMaxAttempts.toNat := by
  have hv := x.valid
  unfold Config.fault? at hv
  by_cases h : x.config.bulkMaxAttempts = 0
  · rw [if_pos h] at hv
    split at hv
    · cases hv
    · split at hv <;> cases hv
  · have hne : x.config.bulkMaxAttempts.toNat ≠ 0 := fun h₀ => h (UInt64.toNat_inj.mp h₀)
    omega

/-- A batch is delivered, and its failures are noted; that alone can fail. -/
theorem runs_flush (hE : Idle E) {entries : List Entry} {r : Except IndexError BulkOutcome}
    (h : Program.Runs E (x.flush paths offset entries).run s es r s') :
    ∃ (d : Delivery x.config.bulkMaxAttempts.toNat) (es' : List (Event surroundings))
      (u : Except IndexError Unit), d.entries = entries ∧
      traffic es = d.attempts.map (x.sending paths) ++ traffic es' ∧
      Program.Runs E (x.settle d.last offset).run s es' u s' ∧
      r = u.map fun _ => d.outcome := by
  have limit : x.config.bulkMaxAttempts.toNat - 1 + 1 = x.config.bulkMaxAttempts.toNat := by
    have := x.one_le_bulkMaxAttempts
    omega
  rw [← limit]
  unfold flush at h
  rcases runs_bind_except.mp h with ⟨e, h₁, rfl⟩ | ⟨v, s₁, es₁, es₂, rfl, h₁, h₂⟩
  · obtain ⟨d, es', hd, ht, h₁⟩ := runs_flushFrom hE h₁
    obtain ⟨u, hu, he⟩ := runs_bind_pure h₁
    cases u with
    | ok u => cases he
    | error e' =>
      cases he
      exact ⟨d, es', _, hd, ht, hu, rfl⟩
  · obtain ⟨d, es', hd, ht, h₁⟩ := runs_flushFrom hE h₁
    obtain ⟨u, hu, hv⟩ := runs_bind_pure h₁
    cases u with
    | error e => cases hv
    | ok u =>
      cases hv
      obtain ⟨es₃, ht₃, h₃⟩ := runs_measure_bind hE h₂
      obtain ⟨es₄, ht₄, h₄⟩ := runs_measure_bind hE h₃
      obtain ⟨rfl, rfl, rfl⟩ := runs_value_iff.mp h₄
      refine ⟨d, es', .ok u, hd, ?_, hu, ?_⟩
      · rw [traffic_append, ht, ht₃, ht₄, traffic_nil, List.append_nil]
      · rw [← hd, Nat.add_sub_cancel_left]
        rfl

/-- The exchanges of a batch are those of its delivery, and it fetches nothing. -/
theorem exchanges_flush {ts : List Attempt} {last : Attempt} {u : Except IndexError Unit}
    {es' : List (Event surroundings)}
    (ht : traffic es = ts.map (x.sending paths) ++ traffic es')
    (h : Program.Runs E (x.settle last offset).run s es' u s') :
    exchanges es = ts.map (x.exchange paths) ∧ fetches es = [] := by
  obtain ⟨hes, -⟩ := Program.Always.of_runs (calls_settle x last offset) h
  obtain ⟨hx, hf⟩ := no_traffic_of_store hes
  refine ⟨?_, ?_⟩
  · rw [← exchanges_traffic, ht, exchanges_append, exchanges_sending, exchanges_traffic, hx,
      List.append_nil]
  · rw [← fetches_traffic, ht, fetches_append, fetches_sending, fetches_traffic, hf,
      List.append_nil]

end Indexer
end ContentIndex
