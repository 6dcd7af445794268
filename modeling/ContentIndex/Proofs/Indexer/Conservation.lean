import ContentIndex.Proofs.Indexer.StateRecord

/-
  Every item of a bulk write is prepared once, in order, and counted once: as indexed, as failed
  or as skipped (`runs_bulkInto`). The items that were seen are the ones that were counted and
  the ones that wait in the batch; each item adds one to them, and sending the batch moves its
  entries from the one to the other.
-/

namespace ContentIndex

open ContentIndex.Action
open Bulk (Batch)
open Program (runs_bind_ok)

/-- How many items a bulk write has counted. -/
def BulkOutcome.counted (o : BulkOutcome) : Nat := o.indexed + o.failed + o.skipped

theorem BulkOutcome.counted_merge (a b : BulkOutcome) :
    (a.merge b).counted = a.counted + b.counted := by
  simp only [counted, merge]
  omega

namespace Indexer

variable {x : Indexer} {paths : Engine.Paths} {offset : Option UInt64} {t t' : Option String}
  {es : List (Event surroundings)}

/-- How many items were seen: those that were counted, and those that wait. -/
def seen (s : Batch × BulkOutcome) : Nat := s.2.counted + s.1.entries.length

/-! ## One item -/

/-- Sending the batch counts its entries and leaves it empty. -/
theorem gives_flushBatch (b : Batch) (o : BulkOutcome) :
    (x.flushBatch paths offset b o).Gives (Sends x.keys (·.method = .post)) fun s =>
      s.1.entries = [] ∧ seen s = seen (b, o) := by
  refine (gives_flush x paths offset b.entries).bind fun o' ho => gives_pure ⟨rfl, ?_⟩
  have hc : o'.counted = b.entries.length := by
    rw [BulkOutcome.counted]
    omega
  simp only [seen, BulkOutcome.counted_merge, hc, List.length_nil, Nat.add_zero]

/-- An item is added by preparing it and by writing items; it is seen once. -/
theorem addItem_eq_prepare (x : Indexer) (paths : Engine.Paths) (offset : Option UInt64)
    (s : Batch × BulkOutcome) (id : UInt64) :
    ∃ rest, x.addItem paths offset s id = Action.prepare id >>= rest ∧
      ∀ a, (rest a).Gives (Sends x.keys (·.method = .post)) fun s' => seen s' = seen s + 1 := by
  obtain ⟨b, o⟩ := s
  refine ⟨_, rfl, fun a => ?_⟩
  cases a with
  | error e =>
    refine (sends_recordFailures x [id] offset).bind fun _ => (calls_ask trivial).bind fun _ => ?_
    exact gives_pure (by simp only [seen, BulkOutcome.counted]; omega)
  | ok d =>
    cases d with
    | none => exact gives_pure (by simp only [seen, BulkOutcome.counted]; omega)
    | some d =>
      simp only
      split
      · exact gives_pure (by simp only [seen, BulkOutcome.counted]; omega)
      · have pushed (e : Bulk.Entry) : seen ((b.push e).1, o) = seen (b, o) + 1 := by
          simp only [seen, Batch.push_entries, List.length_append, List.length_singleton]
          omega
        split
        · exact (gives_flushBatch _ o).mono (fun _ h => h) fun s' hs => hs.2.trans (pushed _)
        · exact gives_pure (pushed _)

theorem fills_addItem (s : Batch × BulkOutcome) (id : UInt64) :
    (x.addItem paths offset s id).Calls (Fills x.keys) := by
  obtain ⟨rest, hx, hr⟩ := addItem_eq_prepare x paths offset s id
  rw [hx]
  exact (calls_prepare trivial).bind fun a => (hr a).fills.calls

theorem runs_addItem {s s' : Batch × BulkOutcome} {id : UInt64}
    (h : x.Runs (x.addItem paths offset s id) t es (.ok s') t') :
    notes es = [.prepared id] ∧ seen s' = seen s + 1 := by
  obtain ⟨rest, hx, hr⟩ := addItem_eq_prepare x paths offset s id
  rw [hx] at h
  obtain ⟨a, t₁, es₁, es₂, rfl, h₁, h₂⟩ := runs_bind_ok h
  obtain ⟨hes, hs⟩ := Program.Always.of_runs (hr a) h₂
  rw [notes_append, runs_prepare h₁, notes_aside fun e he => (hes e he).aside]
  exact ⟨rfl, hs s' rfl⟩

/-! ## All items -/

theorem fills_addItems (s : Batch × BulkOutcome) (ids : List UInt64) :
    (ids.foldlM (x.addItem paths offset) s).Calls (Fills x.keys) := by
  induction ids generalizing s with
  | nil => exact calls_pure s
  | cons id ids ih =>
    rw [List.foldlM_cons]
    exact (fills_addItem s id).bind ih

theorem runs_addItems {s s' : Batch × BulkOutcome} {ids : List UInt64}
    (h : x.Runs (ids.foldlM (x.addItem paths offset) s) t es (.ok s') t') :
    notes es = ids.map .prepared ∧ seen s' = seen s + ids.length := by
  induction ids generalizing s t es with
  | nil =>
    obtain ⟨rfl, hs, -⟩ := runs_pure_iff.mp h
    cases hs
    exact ⟨rfl, rfl⟩
  | cons id ids ih =>
    rw [List.foldlM_cons] at h
    obtain ⟨s₁, t₁, es₁, es₂, rfl, h₁, h₂⟩ := runs_bind_ok h
    obtain ⟨hn₁, hs₁⟩ := runs_addItem h₁
    obtain ⟨hn₂, hs₂⟩ := ih h₂
    refine ⟨by simp [hn₁, hn₂], ?_⟩
    rw [hs₂, hs₁, List.length_cons]
    omega

/-! ## Bulk writes -/

theorem fills_bulkInto (ids : List UInt64) :
    (x.bulkInto paths offset ids).Calls (Fills x.keys) := by
  have close (o : BulkOutcome) :
      (do Action.measure (.skipped o.skipped); pure o : Action BulkOutcome).Calls
        (Fills x.keys) := (calls_ask trivial).bind fun _ => calls_pure o
  refine (fills_addItems _ ids).bind fun s => ?_
  obtain ⟨b, o⟩ := s
  simp only
  split
  · exact close o
  · exact (gives_flushBatch b o).fills.calls.bind fun s => close s.2

/-- A bulk write neither reads nor writes the state record. -/
theorem calls_bulkInto (ids : List UInt64) :
    (x.bulkInto paths offset ids).Calls (Apart x.keys) :=
  (fills_bulkInto ids).mono (fun _ => Fills.apart) fun _ => id

/-- The count of skipped items is told at the end. -/
theorem runs_close {o o' : BulkOutcome}
    (h : x.Runs (do Action.measure (.skipped o.skipped); pure o : Action BulkOutcome)
      t es (.ok o') t') : notes es = [.skipped o'.skipped] ∧ o' = o := by
  obtain ⟨u, t₁, es₁, es₂, rfl, h₁, h₂⟩ := runs_bind_ok h
  obtain ⟨a, rfl, -⟩ := runs_ask h₁
  obtain ⟨rfl, ho, -⟩ := runs_pure_iff.mp h₂
  cases ho
  exact ⟨rfl, rfl⟩

/-- A bulk write prepares its items in order, and counts each of them once. -/
theorem runs_bulkInto {ids : List UInt64} {o : BulkOutcome}
    (h : x.Runs (x.bulkInto paths offset ids) t es (.ok o) t') :
    notes es = ids.map .prepared ++ [.skipped o.skipped] ∧ o.counted = ids.length := by
  obtain ⟨⟨b, o₁⟩, t₁, es₁, es₂, rfl, h₁, h₂⟩ := runs_bind_ok h
  obtain ⟨hn₁, hs₁⟩ := runs_addItems h₁
  have total : seen (b, o₁) = ids.length := by
    rw [hs₁]
    simp [seen, BulkOutcome.counted, Batch.withLimits]
  simp only at h₂
  split at h₂
  · rename_i hb
    obtain ⟨hn₂, rfl⟩ := runs_close h₂
    refine ⟨by rw [notes_append, hn₁, hn₂], ?_⟩
    simpa [seen, List.isEmpty_iff.mp hb] using total
  · obtain ⟨s, t₂, es₃, es₄, rfl, h₃, h₄⟩ := runs_bind_ok h₂
    obtain ⟨hes, hs⟩ := Program.Always.of_runs (gives_flushBatch b o₁) h₃
    obtain ⟨hn₄, rfl⟩ := runs_close h₄
    obtain ⟨he, hs⟩ := hs s rfl
    refine ⟨by simp [hn₁, notes_aside fun e he => (hes e he).aside, hn₄], ?_⟩
    rw [← total, ← hs, seen, he]
    rfl

end Indexer
end ContentIndex
