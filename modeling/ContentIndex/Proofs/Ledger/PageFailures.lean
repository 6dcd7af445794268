import ContentIndex.Proofs.Bulk.Tally
import ContentIndex.Proofs.Indexer.Conservation
import ContentIndex.Proofs.Ledger.Failures

/-
  What a page adds to the ledger. The work on a page is what can be seen of it: the listing, the
  items that were fetched, and the deliveries of their documents. It `Notes` the items that could
  not be prepared and those that the last attempt at their batch still rejects, and the page
  itself if anything has failed. These failures, and no others, are in the ledger after the page
  (`runs_bulkInto_notes`). All that a rebuild does besides leaves no work behind (`Unworked`).
-/

namespace ContentIndex

open Bulk (Attempt Delivery)
open Ledger (Records ofRecords?)
open Program (runs_bind_ok)

/-! ## The work on a page -/

/-- What was done for one page of a scope. -/
structure PageWork (x : Indexer) where
  scope : Option String
  offset : UInt64
  fetched : List Fetch
  deliveries : List (Delivery x.config.bulkMaxAttempts.toNat)

namespace PageWork

variable {x : Indexer}

/-- The items that could not be prepared. -/
def broken (w : PageWork x) : List UInt64 := (w.fetched.filter (·.isBroken)).map (·.id)

/-- The documents that were still rejected after the last attempt at their batch; a request that
failed as a whole rejects none. -/
def rejected (w : PageWork x) : List UInt64 :=
  (w.deliveries.filter fun d => !d.last.isUnread).flatMap fun d => d.pending.map (·.id)

/-- All that has failed, for whatever reason. -/
def failed (w : PageWork x) : List UInt64 :=
  w.broken ++ w.deliveries.flatMap fun d => d.pending.map (·.id)

/-- The failures that belong into the ledger. -/
def Notes (w : PageWork x) : Failure → Prop
  | .item id => id ∈ w.broken ∨ id ∈ w.rejected
  | .page o => w.offset = o ∧ w.failed ≠ []

theorem mem_failed_of_rejected {w : PageWork x} {id : UInt64} (h : id ∈ w.rejected) :
    id ∈ w.failed := by
  obtain ⟨d, hd, hid⟩ := List.mem_flatMap.mp h
  exact List.mem_append_right _ (List.mem_flatMap.mpr ⟨d, (List.mem_filter.mp hd).1, hid⟩)

/-- A page without failures notes nothing. -/
theorem not_notes {w : PageWork x} (h : w.failed = []) (f : Failure) : ¬ w.Notes f := by
  intro hf
  cases f with
  | item id =>
    have hm : id ∈ w.failed :=
      hf.elim (fun hb => List.mem_append_left _ hb) mem_failed_of_rejected
    rw [h] at hm
    cases hm
  | page o => exact hf.2 h

end PageWork

/-- The bulk requests, with the answers to them. -/
def bulks (es : List (Event surroundings)) : List Exchange :=
  (exchanges es).filter (·.request.method == .post)

@[simp] theorem bulks_append (es es' : List (Event surroundings)) :
    bulks (es ++ es') = bulks es ++ bulks es' := by
  unfold bulks
  rw [exchanges_append, List.filter_append]

/-- Events show the work on a page. -/
structure PageWork.Shown {x : Indexer} (w : PageWork x) (es : List (Event surroundings)) :
    Prop where
  fetched : fetches es = w.fetched
  /-- Each document that is to be written is in one delivery. -/
  handed : w.fetched.filterMap (·.handed? x.hooks) = w.deliveries.flatMap (·.entries)
  /-- The bulk requests are the attempts at the deliveries. -/
  sent : bulks es = w.deliveries.flatMap fun d => d.attempts.map (x.exchange (x.pathsFor w.scope))

/-! ## Events without work -/

/-- No item is fetched, nothing is posted, and the host is told nothing. -/
structure Unworked (es : List (Event surroundings)) : Prop where
  fetches : fetches es = []
  bulks : bulks es = []
  reports : reports es = []

namespace Unworked

variable {es es' : List (Event surroundings)}

theorem nil : Unworked [] := ⟨rfl, rfl, rfl⟩

/-- Work is shown if it is shown between events without work. -/
theorem shown {x : Indexer} {w : PageWork x} {before after : List (Event surroundings)}
    (h : Unworked before) (h' : Unworked after) (hw : w.Shown es) :
    w.Shown (before ++ es ++ after) := by
  refine ⟨?_, hw.handed, ?_⟩
  · rw [fetches_append, fetches_append, h.fetches, h'.fetches, hw.fetched, List.append_nil,
      List.nil_append]
  · rw [bulks_append, bulks_append, h.bulks, h'.bulks, hw.sent, List.append_nil, List.nil_append]

end Unworked

/-- A call that is no work, and not on the ledger. -/
def Outside (keys : RecordKeys) : IndexerCall → Prop
  | .store c => ¬ c.On (Ledger.ledgerKeys keys)
  | .engine r => r.method ≠ .post
  | .content (.prepare _) | .notify _ => False
  | _ => True

section

variable {keys : RecordKeys} {t t' : Records} {es : List (Event surroundings)}

theorem Outside.elsewhere {c : IndexerCall} (h : Outside keys c) : Elsewhere keys c := by
  cases c with
  | store c => exact h
  | notify r => exact h.elim
  | _ => trivial

theorem unworked_of_outside (h : ∀ e ∈ es, Outside keys e.call) : Unworked es := by
  refine ⟨fetches_eq_nil fun e he => ?_, List.filter_eq_nil_iff.mpr fun q hq => ?_,
    (untouched_of_elsewhere fun e he => (h e he).elsewhere).reports⟩
  · have hc := h e he
    obtain ⟨c, a⟩ := e
    cases c with
    | content c =>
      cases c with
      | prepare id => exact hc.elim
      | _ => rfl
    | _ => rfl
  · obtain ⟨e, he, hq⟩ := List.mem_filterMap.mp hq
    have hc := h e he
    obtain ⟨c, a⟩ := e
    cases c with
    | engine r =>
      cases hq
      exact fun hp => hc (beq_iff_eq.mp hp)
    | _ => cases hq

/-- An operation that is outside keeps the ledger and does no work. -/
theorem runs_outside {α : Type} {Q : α → Prop} {a : Action α} {v : α}
    (ha : a.Gives (Outside keys) Q) (h : Program.Runs (ledgered keys) a.run t es (.ok v) t') :
    t' = t ∧ Unworked es ∧ Q v := by
  obtain ⟨hes, hv⟩ := Program.Always.of_runs ha h
  exact ⟨(runs_elsewhere (ha.calls.mono (fun _ => Outside.elsewhere) fun _ => id) h).1,
    unworked_of_outside hes, hv v rfl⟩

/-- What follows an operation that is outside begins with the same ledger. -/
theorem runs_outside_bind {α β : Type} {a : Action α} {f : α → Action β} {v : β}
    (ha : a.Calls (Outside keys)) (h : Program.Runs (ledgered keys) (a >>= f).run t es (.ok v) t') :
    ∃ u es₁ es₂, es = es₁ ++ es₂ ∧ Unworked es₁ ∧
      Program.Runs (ledgered keys) (f u).run t es₂ (.ok v) t' := by
  obtain ⟨u, t₁, es₁, es₂, rfl, h₁, h₂⟩ := runs_bind_ok h
  obtain ⟨rfl, hes, -⟩ := runs_outside ha h₁
  exact ⟨u, es₁, es₂, rfl, hes, h₂⟩

end

/-! ## What deeds note -/

namespace Deed

variable {x : Indexer}

/-- The failures that a deed adds to the ledger, on a page or elsewhere. -/
def Notes (offset : Option UInt64) (deed : Deed x) : Failure → Prop
  | .page o => offset = some o ∧ deed.failedIds ≠ []
  | .item id =>
    match deed with
    | .broken id' => id = id'
    | .delivered d => d.last.isUnread = false ∧ id ∈ d.pending.map (·.id)

end Deed

section

variable {x : Indexer} {o : UInt64} {t t' : Records} {es : List (Event surroundings)} {l : Ledger}

/-- What has been recorded is in the ledger, with what was there. -/
theorem Indexer.mem_of_recordFailures {items : List UInt64} {offset : Option UInt64}
    (h : Program.Runs (ledgered x.keys) (x.recordFailures items offset).run t es (.ok ()) t')
    (hl : ofRecords? t = .ok l) :
    ∃ l', ofRecords? t' = .ok l' ∧ ∀ f, f ∈ l' ↔ f ∈ l ∨ match f with
      | .item id => id ∈ items
      | .page o => offset = some o := by
  obtain ⟨l₁, hl₁, rfl, -⟩ := runs_recordFailures_ok h
  rw [hl] at hl₁
  cases hl₁
  exact ⟨_, Ledger.ofRecords?_records _, fun f => Ledger.mem_add⟩

/-- A delivery on a page notes what it has left. If its last request failed as a whole, the page
alone stands for that. -/
theorem Indexer.mem_of_settle {d : Delivery x.config.bulkMaxAttempts.toNat} (hd : d.entries ≠ [])
    (h : Program.Runs (ledgered x.keys) (x.settle d.last (some o)).run t es (.ok ()) t')
    (hl : ofRecords? t = .ok l) :
    ∃ l', ofRecords? t' = .ok l' ∧
      ∀ f, f ∈ l' ↔ f ∈ l ∨ (Deed.delivered d).Notes (some o) f := by
  have left (hp : d.pending ≠ []) : (Deed.delivered d).failedIds ≠ [] :=
    fun hn => hp (List.map_eq_nil_iff.mp hn)
  unfold settle at h
  cases hu : d.last.isUnread with
  | true =>
    have hp : d.pending ≠ [] := by
      rw [d.pending_of_unread hu]
      exact d.last_entries hd
    rw [Attempt.noted?_of_unread hu] at h
    obtain ⟨l', hl', hm⟩ := mem_of_recordFailures h hl
    refine ⟨l', hl', fun f => (hm f).trans (or_congr Iff.rfl ?_)⟩
    cases f with
    | item id => simp [Deed.Notes, hu]
    | page o' => exact (and_iff_left (left hp)).symm
  | false =>
    by_cases hp : d.last.left = []
    · rw [Attempt.noted?_of_nil hu hp] at h
      obtain ⟨-, -, rfl⟩ := runs_value_iff.mp h
      refine ⟨l, hl, fun f => (or_iff_left ?_).symm⟩
      have none : d.pending.map (·.id) = [] := List.map_eq_nil_iff.mpr hp
      cases f with
      | item id => simp [Deed.Notes, none]
      | page o' => simp [Deed.Notes, Deed.failedIds, none]
    · rw [Attempt.noted?_of_left hu hp] at h
      obtain ⟨l', hl', hm⟩ := mem_of_recordFailures h hl
      refine ⟨l', hl', fun f => (hm f).trans (or_congr Iff.rfl ?_)⟩
      cases f with
      | item id => exact (and_iff_right hu).symm
      | page o' => exact (and_iff_left (left hp)).symm

/-- The ledger gains what the deeds on a page note. -/
theorem Noting.mem_iff {deeds : List (Deed x)}
    (h : Noting (ledgered x.keys) x (some o) t deeds t') (hl : ofRecords? t = .ok l) :
    ∃ l', ofRecords? t' = .ok l' ∧
      ∀ f, f ∈ l' ↔ f ∈ l ∨ ∃ deed ∈ deeds, deed.Notes (some o) f := by
  induction h generalizing l with
  | nil t => exact ⟨l, hl, fun f => by simp⟩
  | @broken t t₁ t' es id deeds hr _ ih =>
    obtain ⟨l₁, hl₁, hm₁⟩ := Indexer.mem_of_recordFailures hr hl
    obtain ⟨l', hl', hm⟩ := ih hl₁
    refine ⟨l', hl', fun f => ?_⟩
    have first : (match f with
        | .item i => i ∈ [id]
        | .page o' => some o = some o') ↔ (Deed.broken id : Deed x).Notes (some o) f := by
      cases f with
      | item i => exact List.mem_singleton
      | page o' => exact (and_iff_left (List.cons_ne_nil id [])).symm
    rw [hm, hm₁, first, List.exists_mem_cons_iff, or_assoc]
  | delivered hd hr _ ih =>
    obtain ⟨l₁, hl₁, hm₁⟩ := Indexer.mem_of_settle hd hr hl
    obtain ⟨l', hl', hm⟩ := ih hl₁
    refine ⟨l', hl', fun f => ?_⟩
    rw [hm, hm₁, List.exists_mem_cons_iff, or_assoc]

end

/-! ## The ledger after a page -/

section

variable {x : Indexer} {w : PageWork x} {deeds : List (Deed x)}

/-- Deeds are items that are broken, or deliveries. -/
theorem Deed.exists_iff (deeds : List (Deed x)) (P : Deed x → Prop) :
    (∃ deed ∈ deeds, P deed) ↔ (∃ id ∈ deeds.filterMap (·.brokenId?), P (.broken id)) ∨
      ∃ d ∈ deeds.filterMap (·.delivery?), P (.delivered d) := by
  induction deeds with
  | nil => simp
  | cons deed deeds ih =>
    rw [List.exists_mem_cons_iff, ih]
    cases deed with
    | broken id => simp [brokenId?, delivery?, or_assoc]
    | delivered d => simp [brokenId?, delivery?, or_left_comm]

/-- Something on a page has failed if a deed has failed. -/
theorem PageWork.failed_ne_nil_iff (hb : deeds.filterMap (·.brokenId?) = w.broken)
    (hd : deeds.filterMap (·.delivery?) = w.deliveries) :
    w.failed ≠ [] ↔ ∃ deed ∈ deeds, deed.failedIds ≠ [] := by
  rw [Deed.exists_iff, hb, hd, failed, ne_eq, List.append_eq_nil_iff, not_and_or]
  refine or_congr ⟨fun h => ?_, fun ⟨id, hid, _⟩ => List.ne_nil_of_mem hid⟩ ?_
  · obtain ⟨id, hid⟩ := List.exists_mem_of_ne_nil _ h
    exact ⟨id, hid, List.cons_ne_nil id []⟩
  · simp only [List.flatMap_eq_nil_iff, not_forall, exists_prop, Deed.failedIds, ne_eq]

/-- The work on a page notes what its deeds note. -/
theorem PageWork.notes_iff (hb : deeds.filterMap (·.brokenId?) = w.broken)
    (hd : deeds.filterMap (·.delivery?) = w.deliveries) (f : Failure) :
    w.Notes f ↔ ∃ deed ∈ deeds, deed.Notes (some w.offset) f := by
  cases f with
  | item id =>
    rw [Deed.exists_iff, hb, hd]
    refine or_congr ?_ ?_
    · simp [Deed.Notes]
    · simp only [rejected, List.mem_flatMap, List.mem_filter, Bool.not_eq_true', Deed.Notes,
        and_assoc]
  | page o =>
    simp only [Notes, Deed.Notes, Option.some.injEq, failed_ne_nil_iff hb hd]
    constructor
    · rintro ⟨ho, deed, hm, hf⟩
      exact ⟨deed, hm, ho, hf⟩
    · rintro ⟨deed, hm, ho, hf⟩
      exact ⟨ho, deed, hm, hf⟩

/-- A bulk write of a page does the work on it, and the ledger gains what that notes. -/
theorem Indexer.runs_bulkInto_notes {scope : Option String} {offset : UInt64} {ids : List UInt64}
    {t t' : Records} {es : List (Event surroundings)} {o : BulkOutcome}
    (h : Program.Runs (ledgered x.keys)
      (x.bulkInto (x.pathsFor scope) (some offset) ids).run t es (.ok o) t') :
    ∃ w : PageWork x, w.scope = scope ∧ w.offset = offset ∧ w.fetched.map (·.id) = ids ∧
      w.Shown es ∧ reports es = [] ∧
      ∀ l, ofRecords? t = .ok l →
        ∃ l', ofRecords? t' = .ok l' ∧ ∀ f, f ∈ l' ↔ f ∈ l ∨ w.Notes f := by
  obtain ⟨hids, deeds, A⟩ := runs_bulkInto_deeds (idle_ledgered x.keys) h
  let w : PageWork x := ⟨scope, offset, fetches es, deeds.filterMap (·.delivery?)⟩
  have T := A.tally
  simp only [List.nil_append] at T
  refine ⟨w, rfl, rfl, hids, ⟨rfl, T.handed.trans (List.append_nil _), ?_⟩, ?_, fun l hl => ?_⟩
  · unfold bulks
    rw [T.sent, List.filter_eq_self]
    intro q hq
    obtain ⟨d, -, hq⟩ := List.mem_flatMap.mp hq
    obtain ⟨a, -, rfl⟩ := List.mem_map.mp hq
    rfl
  · refine List.filterMap_eq_nil_iff.mpr fun e he => ?_
    have hc := (Program.Always.of_runs (fills_bulkInto ids) h).1 e he
    obtain ⟨c, a⟩ := e
    cases c with
    | notify r => exact hc.elim
    | _ => rfl
  · obtain ⟨l', hl', hm⟩ := A.noting.mem_iff hl
    exact ⟨l', hl', fun f => by rw [hm, PageWork.notes_iff (w := w) A.broken rfl]⟩

end

end ContentIndex
