import ContentIndex.Proofs.Bulk.Tally
import ContentIndex.Proofs.Indexer.FailureRecords

/-
  A bulk write loses no item. Every item is accepted by the engine, skipped or failed, and the
  ledger gains the failures and nothing else (`bulkInto_accounts`): the ids themselves without an
  offset, and in any case the offset if there is one. `Noted` says so of the records before and
  after, and adds up over the failures of one bulk write.
-/

namespace ContentIndex

open Bulk (Attempt)
open Ledger (Records ofRecords?)

/-! ## Gains of the ledger -/

/-- What a ledger gains by failures on a page, or anywhere if there is no offset. -/
structure Ledger.Gained (l : Ledger) (failed : List UInt64) (offset : Option UInt64)
    (l' : Ledger) : Prop where
  items_kept : ∀ id ∈ l.items, id ∈ l'.items
  offsets_kept : ∀ o ∈ l.offsets, o ∈ l'.offsets
  items_new : ∀ id ∈ l'.items, id ∈ l.items ∨ id ∈ failed
  offsets_new : ∀ o ∈ l'.offsets, o ∈ l.offsets ∨ offset = some o ∧ failed ≠ []
  items_all : offset = none → ∀ id ∈ failed, id ∈ l'.items
  offset_noted : failed ≠ [] → ∀ o, offset = some o → o ∈ l'.offsets

namespace Ledger.Gained

variable {l l₁ l' : Ledger} {offset : Option UInt64} {a b : List UInt64}

theorem refl (l : Ledger) (offset : Option UInt64) : Gained l [] offset l :=
  ⟨fun _ h => h, fun _ h => h, fun _ h => .inl h, fun _ h => .inl h,
    fun _ _ h => (List.not_mem_nil h).elim, fun h => absurd rfl h⟩

theorem trans (h : Gained l a offset l₁) (h' : Gained l₁ b offset l') :
    Gained l (a ++ b) offset l' := by
  refine ⟨fun id hid => h'.items_kept id (h.items_kept id hid),
    fun o ho => h'.offsets_kept o (h.offsets_kept o ho), ?_, ?_, ?_, ?_⟩
  · intro id hid
    rw [List.mem_append]
    rcases h'.items_new id hid with hid | hid
    · exact (h.items_new id hid).imp_right .inl
    · exact .inr (.inr hid)
  · intro o ho
    rcases h'.offsets_new o ho with ho | ⟨ho, hb⟩
    · refine (h.offsets_new o ho).imp_right fun ⟨ho, ha⟩ => ⟨ho, ?_⟩
      exact List.append_ne_nil_of_left_ne_nil ha b
    · exact .inr ⟨ho, List.append_ne_nil_of_right_ne_nil a hb⟩
  · intro hn id hid
    rcases List.mem_append.mp hid with hid | hid
    · exact h'.items_kept id (h.items_all hn id hid)
    · exact h'.items_all hn id hid
  · intro hab o ho
    by_cases ha : a = []
    · subst ha
      exact h'.offset_noted hab o ho
    · exact h'.offsets_kept o (h.offset_noted ha o ho)

/-- Without an offset all failures are added; with one it may stand for them. -/
theorem add (l : Ledger) {items failed : List UInt64} (hf : failed ≠ [])
    (hi : ∀ id ∈ items, id ∈ failed) (hn : offset = none → items = failed) :
    Gained l failed offset (l.add items offset) := by
  unfold Ledger.add
  refine ⟨?_, ?_, ?_, ?_, ?_, ?_⟩
  · intro id hid
    exact IdSet.mem_union.mpr (.inl hid)
  · intro o ho
    exact IdSet.mem_union.mpr (.inl ho)
  · intro id hid
    exact (IdSet.mem_union.mp hid).imp_right (hi id)
  · intro o ho
    exact (IdSet.mem_union.mp ho).imp_right fun ho => ⟨Option.mem_toList.mp ho, hf⟩
  · intro h id hid
    rw [hn h]
    exact IdSet.mem_union.mpr (.inr hid)
  · rintro - o rfl
    exact IdSet.mem_union.mpr (.inr (List.mem_singleton_self o))

end Ledger.Gained

/-- What failures make of the records of the ledger. -/
structure Noted (offset : Option UInt64) (t : Records) (failed : List UInt64) (t' : Records) :
    Prop where
  unchanged : failed = [] → t' = t
  readable : failed ≠ [] → ∃ l, ofRecords? t = .ok l
  gained : ∀ l, ofRecords? t = .ok l → ∃ l', ofRecords? t' = .ok l' ∧ l.Gained failed offset l'

namespace Noted

variable {x : Indexer} {offset : Option UInt64} {t t₁ t' : Records} {a b : List UInt64}

theorem refl (offset : Option UInt64) (t : Records) : Noted offset t [] t :=
  ⟨fun _ => rfl, fun h => absurd rfl h, fun l hl => ⟨l, hl, .refl l offset⟩⟩

theorem trans (h : Noted offset t a t₁) (h' : Noted offset t₁ b t') :
    Noted offset t (a ++ b) t' := by
  refine ⟨?_, ?_, ?_⟩
  · intro hn
    obtain ⟨ha, hb⟩ := List.append_eq_nil_iff.mp hn
    rw [h'.unchanged hb, h.unchanged ha]
  · intro hn
    by_cases ha : a = []
    · subst ha
      rw [← h.unchanged rfl]
      exact h'.readable hn
    · exact h.readable ha
  · intro l hl
    obtain ⟨l₁, hl₁, hg⟩ := h.gained l hl
    obtain ⟨l', hl', hg'⟩ := h'.gained l₁ hl₁
    exact ⟨l', hl', hg.trans hg'⟩

/-- Failures that were recorded. -/
theorem of_runs {items failed : List UInt64} {es : List (Event surroundings)}
    (h : Program.Runs (ledgered x.keys) (x.recordFailures items offset).run t es (.ok ()) t')
    (hf : failed ≠ []) (hi : ∀ id ∈ items, id ∈ failed) (hn : offset = none → items = failed) :
    Noted offset t failed t' := by
  rcases Indexer.runs_recordFailures h with ⟨l, -, hl, rfl⟩ | ⟨⟨e, he⟩, -⟩
  · refine ⟨fun h => absurd h hf, fun _ => ⟨l, hl⟩, fun l' hl' => ?_⟩
    rw [hl] at hl'
    cases hl'
    exact ⟨_, Ledger.ofRecords?_records _, .add l hf hi hn⟩
  · cases he

/-- The failures of a bulk write are noted one after another. -/
theorem follow (x : Indexer) (offset : Option UInt64) :
    Follow (ledgered x.keys) x offset (Noted offset) := by
  refine ⟨Noted.refl offset, trans, ?_, ?_⟩
  · intro t t' es id h
    exact of_runs h (List.cons_ne_nil id []) (fun _ hid => hid) fun _ => rfl
  · intro t t' es d hd h
    unfold Indexer.settle at h
    cases hu : d.last.isUnread with
    | true =>
      rw [Attempt.noted?_of_unread hu, ← d.pending_of_unread hu] at h
      have failed : d.pending.map (·.id) ≠ [] := by
        intro hn
        rw [d.pending_of_unread hu] at hn
        exact d.last_entries hd (List.map_eq_nil_iff.mp hn)
      cases offset with
      | none => exact of_runs h failed (fun _ hid => hid) fun _ => rfl
      | some o =>
        exact of_runs h failed (fun _ hid => (List.not_mem_nil hid).elim) fun hn => by cases hn
    | false =>
      by_cases hl : d.pending = []
      · rw [Attempt.noted?_of_nil hu hl] at h
        obtain ⟨-, -, ht⟩ := runs_value_iff.mp h
        rw [ht, hl]
        exact .refl offset t
      · rw [Attempt.noted?_of_left hu hl] at h
        exact of_runs h (fun hn => hl (List.map_eq_nil_iff.mp hn)) (fun _ hid => hid) fun _ => rfl

end Noted

/-- A bulk write that ends with an outcome (`bulkIndex` is one without an offset). Each item is
accepted, skipped or failed, and counted as such; the ledger keeps what it holds and gains the
failures, whatever the engine, the content store and the hooks do. -/
theorem Indexer.bulkInto_accounts (x : Indexer) (paths : Engine.Paths) (offset : Option UInt64)
    (ids : List UInt64) {t t' : Records} {es : List (Event surroundings)} {o : BulkOutcome}
    (h : Program.Runs (ledgered x.keys) (x.bulkInto paths offset ids).run t es (.ok o) t') :
    o.indexed + o.failed + o.skipped = ids.length ∧
      o.failed = o.failedIds.length ∧
      (fetches es).map (·.id) = ids ∧
      (∃ ds, Tally x paths (fetches es) (exchanges es) [] ds o) ∧
      Noted offset t o.failedIds t' := by
  obtain ⟨hf, ⟨ds, T⟩, hn⟩ := runs_bulkInto_tally (idle_ledgered x.keys) (Noted.follow x offset) h
  refine ⟨?_, T.failed, hf, ⟨ds, T⟩, hn⟩
  rw [T.counted, ← hf, List.length_map]

/-- A world with an item that cannot be prepared. -/
def World.oneBroken : World Unit :=
  { engine := (), catalogue := { broken := IdSet.ofList [5] } }

/-- The broken item has failed, and is found in the ledger. -/
theorem Indexer.bulkInto_accounts_broken_item :
    ∃ t' l', Program.Runs (ledgered World.plain.keys)
        (World.plain.bulkInto World.plain.paths none [5]).run ⟨none, none⟩
        (World.oneBroken.events World.accepting (World.plain.bulkInto World.plain.paths none [5]))
        (.ok { failed := 1, failedIds := [5] }) t' ∧
      ofRecords? t' = .ok l' ∧ 5 ∈ l'.items := by
  have ends : (World.oneBroken.perform World.accepting
      (World.plain.bulkInto World.plain.paths none [5])).1 =
        .ok { failed := 1, failedIds := [5] } := by
    decide +kernel
  have run := @World.perform_runs_ledgered _ World.accepting World.plain.keys _
    (World.plain.bulkInto World.plain.paths none [5]) World.oneBroken fun _ _ => rfl
  rw [ends] at run
  obtain ⟨-, -, -, -, noted⟩ := bulkInto_accounts World.plain World.plain.paths none [5] run
  obtain ⟨l', hl', gained⟩ := noted.gained {} rfl
  exact ⟨_, l', run, hl', gained.items_all rfl 5 (List.mem_singleton_self 5)⟩

end ContentIndex
