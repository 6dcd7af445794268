import ContentIndex.Proofs.Bulk.Flush
import ContentIndex.Proofs.Indexer.FailureRecords

/-
  A batch in a world whose store works. Whatever the engine answers, the batch is delivered: each
  request after the first carries what the one before it left, until nothing is left, a request
  fails as a whole or the attempts are used up. The outcome counts the entries once, and the
  ledger gains what is pending in the end, or the page alone if the last request failed as a whole
  (`flush_retries`).
-/

namespace ContentIndex

open Bulk (Attempt Delivery Entry)
open Ledger (Records ofRecords?)

namespace Indexer

variable {x : Indexer} {offset : Option UInt64} {t t' : Records}
  {es : List (Event surroundings)}

/-- What the records of the ledger are after the last attempt at a batch. -/
def settled (last : Attempt) (offset : Option UInt64) (l : Ledger) (t : Records) : Records :=
  match last.noted? offset with
  | none => t
  | some items => (l.add items offset).records

/-- On a store that works a batch is settled. -/
theorem runs_settle {last : Attempt} {l : Ledger} {u : Except IndexError Unit}
    (h : Program.Runs (ledgered x.keys) (x.settle last offset).run t es u t')
    (hf : ¬ Faulty es) (hl : ofRecords? t = .ok l) :
    u = .ok () ∧ t' = settled last offset l t := by
  unfold settle at h
  unfold settled
  cases hn : last.noted? offset with
  | none =>
    rw [hn] at h
    obtain ⟨-, hu, ht⟩ := runs_value_iff.mp h
    exact ⟨hu, ht⟩
  | some items =>
    rw [hn] at h
    rcases runs_recordFailures h with ⟨l', hu, hl', ht⟩ | ⟨-, hb | ⟨e, he⟩⟩
    · rw [hl] at hl'
      cases hl'
      exact ⟨hu, ht⟩
    · exact absurd hb hf
    · rw [hl] at he
      cases he

/-- A batch in a world whose store works and whose ledger can be read. It is sent at most as often
as the settings allow, each time with what the time before has left, and then the entries that are
still pending are the failures of the outcome and of the ledger. -/
theorem flush_retries (x : Indexer) (paths : Engine.Paths) (offset : Option UInt64)
    (entries : List Entry) {E : Type} (engine : EngineModel E) (w : World E) (l : Ledger)
    (stays : ∀ r w, (engine r w).2.memory = w.memory) (online : w.memory.offline = false)
    (readable : w.ledger x.keys = .ok l) :
    ∃ (d : Delivery x.config.bulkMaxAttempts.toNat) (o : BulkOutcome),
      (w.perform engine (x.flush paths offset entries)).1 = .ok o ∧
      d.entries = entries ∧
      exchanges (w.events engine (x.flush paths offset entries)) =
        d.attempts.map (fun t => ⟨x.bulkRequest paths t.entries, t.answer⟩) ∧
      (d.attempts.Pairwise fun s t => ∀ e ∈ t.entries, s.accepts e.id = false) ∧
      o.retries + 1 = d.attempts.length ∧
      o.failedIds = d.pending.map (·.id) ∧
      o.failed = d.pending.length ∧
      o.indexed + o.failed = entries.length ∧
      (d.last.isUnread = false → d.pending = [] →
        (w.perform engine (x.flush paths offset entries)).2.failureRecords x.keys =
          w.failureRecords x.keys) ∧
      (d.last.isUnread = false → d.pending ≠ [] →
        (w.perform engine (x.flush paths offset entries)).2.ledger x.keys =
          .ok (l.add (d.pending.map (·.id)) offset)) ∧
      (d.last.isUnread = true →
        (w.perform engine (x.flush paths offset entries)).2.ledger x.keys =
          .ok (l.add (if offset.isSome then [] else d.pending.map (·.id)) offset)) := by
  have run := w.perform_runs_ledgered x.keys (x.flush paths offset entries) stays
  obtain ⟨d, es', u, hd, ht, hs, hr⟩ := runs_flush (idle_ledgered x.keys) run
  have calm : ¬ Faulty es' := by
    rintro ⟨e, he, hf⟩
    refine w.events_not_faulty (x.flush paths offset entries) stays online ⟨e, ?_, hf⟩
    refine mem_of_mem_traffic ?_
    rw [ht]
    exact List.mem_append_right _ (List.mem_filter.mpr ⟨he, e.isTraffic_of_isFault hf⟩)
  obtain ⟨rfl, after⟩ := runs_settle hs calm readable
  have within : d.pending.length ≤ d.entries.length := by
    have := d.length_accepted_add
    omega
  have attempted := d.one_le_length
  refine ⟨d, d.outcome, hr, hd, (exchanges_flush ht hs).1, d.retried.never_again, ?_, rfl, rfl,
    ?_, ?_, ?_, ?_⟩
  · show d.attempts.length - 1 + 1 = d.attempts.length
    omega
  · show d.entries.length - d.pending.length + d.pending.length = entries.length
    rw [← hd]
    omega
  · intro hu hp
    rw [after]
    unfold settled
    rw [Attempt.noted?_of_nil hu hp]
  · intro hu hp
    unfold World.ledger
    rw [after]
    unfold settled
    rw [Attempt.noted?_of_left hu hp]
    exact Ledger.ofRecords?_records _
  · intro hu
    unfold World.ledger
    rw [after, d.pending_of_unread hu]
    unfold settled
    rw [Attempt.noted?_of_unread hu]
    exact Ledger.ofRecords?_records _

/-- An engine whose answers say nothing of the entries fails a batch as a whole. -/
theorem flush_retries_unread_answer :
    (∀ r w, (World.accepting r w).2.memory = w.memory) ∧ World.oneGone.memory.offline = false ∧
      World.oneGone.ledger World.plain.keys = .ok {} ∧
      ∃ (d : Delivery 5) (o : BulkOutcome),
        (World.oneGone.perform World.accepting
          (World.plain.flush World.plain.paths (some 0) [⟨5, "a"⟩, ⟨6, "b"⟩])).1 = .ok o ∧
        d.entries = [⟨5, "a"⟩, ⟨6, "b"⟩] ∧ o.indexed + o.failed = 2 := by
  have stays (r : Engine.Request) (w : World Unit) :
      (World.accepting r w).2.memory = w.memory := rfl
  obtain ⟨d, o, ho, hd, -, -, -, -, -, hc, -⟩ := flush_retries World.plain World.plain.paths
    (some 0) [⟨5, "a"⟩, ⟨6, "b"⟩] World.accepting World.oneGone {} stays rfl rfl
  exact ⟨stays, rfl, rfl, d, o, ho, hd, hc⟩

end Indexer
end ContentIndex
