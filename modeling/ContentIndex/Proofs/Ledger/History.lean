import ContentIndex.Proofs.Ledger.Custody
import ContentIndex.Proofs.Rebuild.Heed

/-
  Operations one after another on one ledger. A failure that was recorded at any time is in the
  ledger at the end or was reported, with one exception: the start of a rebuild removes what it
  finds in the ledger and tells nobody (`start_drops_failure`). So a failure is lost exactly if a
  start has removed it, nobody recorded it again, and no report of the whole history has it
  (`kept_or_reported_iff`). The induction is over the operations, with what each of them makes of
  the ledger (`Dealt`).
-/

namespace ContentIndex

open ContentIndex.Action
open Ledger (Records ofRecords?)
open Program (runs_bind_except)

/-! ## Operations -/

/-- The operations that write items or rebuild the index, and the cancel of a rebuild. -/
inductive Operation where
  | bulkIndex (ids : List UInt64)
  | finish (q : Sync.Queue)
  | rebuild (op : RebuildCall)
  | cancel

/-- What an operation does; what it yields is left out. -/
def Operation.action (x : Indexer) : Operation → Action Unit
  | .bulkIndex ids => do
    let _ ← x.bulkIndex ids
  | .finish q => do
    let _ ← Sync.finish x q
  | .rebuild op => op.action x
  | .cancel => x.cancel

/-- Only a rebuild may remove the ledger. -/
theorem Operation.custody (x : Indexer) {op : Operation} (h : ∀ call, op ≠ .rebuild call) :
    Custody x.keys (op.action x) := by
  cases op with
  | bulkIndex ids => exact (x.custody_bulkInto x.paths none ids).bind fun _ => custody_pure ()
  | finish q => exact (x.custody_finish q).bind fun _ => custody_pure ()
  | rebuild call => exact absurd rfl (h call)
  | cancel => exact custody_elsewhere (x.elsewhere_saveState _)

theorem Operation.deals (x : Indexer) (op : Operation) : Deals x.keys (op.action x) := by
  by_cases h : ∃ call, op = .rebuild call
  · obtain ⟨call, rfl⟩ := h
    cases call with
    | step scopes => exact (x.deals_rebuildStep scopes).bind fun _ => custody_pure ()
    | whole limit scopes => exact (x.deals_rebuild limit scopes).bind fun _ => custody_pure ()
  · exact (custody x (not_exists.mp h)).deals

/-- The start can only be in the first step, so the look of that step is the first call. -/
theorem Indexer.found_of_discards_bind (x : Indexer) {scopes : List String}
    {f : RebuildStep → Action Unit} {t t' : Records} {l : Ledger} {es : List (Event surroundings)}
    {r : Except IndexError Unit} (hf : ∀ s, Custody x.keys (f s))
    (h : Program.Runs (ledgered x.keys) (x.rebuildStep scopes >>= f).run t es r t')
    (calm : ¬ Faulty es) (hl : ofRecords? t = .ok l) (hd : Discards x.keys es) :
    Found x.keys es none := by
  rcases runs_bind_except.mp h with ⟨e, h₁, -⟩ | ⟨s, t₁, es₁, es₂, rfl, h₁, h₂⟩
  · exact x.found_of_discards h₁ calm hl hd
  · have calm₁ : ¬ Faulty es₁ := fun hf => calm (hf.left _)
    obtain ⟨l₁, hl₁, -⟩ := x.deals_rebuildStep scopes h₁ calm₁ hl
    obtain ⟨l', -, hn, -⟩ := hf s h₂ (fun hf => calm (hf.right _)) hl₁
    rcases discards_append hd with hd | ⟨-, hd⟩
    · exact (x.found_of_discards h₁ calm₁ hl hd).append es₂
    · exact absurd hd hn

/-- Only the start of a rebuild removes the ledger unseen; no rebuild was running before. -/
theorem Operation.starts_of_discards {x : Indexer} {op : Operation} {t t' : Records} {l : Ledger}
    {es : List (Event surroundings)} {r : Except IndexError Unit}
    (h : Program.Runs (ledgered x.keys) (op.action x).run t es r t') (calm : ¬ Faulty es)
    (hl : ofRecords? t = .ok l) (hd : Discards x.keys es) :
    (∃ call, op = .rebuild call) ∧ Found x.keys es none := by
  by_cases ho : ∃ call, op = .rebuild call
  · refine ⟨ho, ?_⟩
    obtain ⟨call, rfl⟩ := ho
    cases call with
    | step scopes => exact x.found_of_discards_bind (fun _ => custody_pure ()) h calm hl hd
    | whole limit scopes =>
      have whole : (RebuildCall.whole limit scopes).action x =
          x.rebuildStep scopes >>= fun s => x.rebuildFrom limit s >>= fun _ => pure () :=
        bind_assoc _ _ _
      rw [Operation.action, whole] at h
      have rest (s : RebuildStep) : Custody x.keys (x.rebuildFrom limit s >>= fun _ => pure ()) :=
        (x.custody_rebuildFrom limit s).bind fun _ => custody_pure ()
      exact x.found_of_discards_bind rest h calm hl hd
  · obtain ⟨l', -, hn, -⟩ := custody x (not_exists.mp ho) h calm hl
    exact absurd hd hn

/-! ## What one operation does with a failure -/

namespace Dealt

variable {keys : RecordKeys} {l l' : Ledger} {es : List (Event surroundings)} {f : Failure}

theorem kept (h : Dealt keys l es l') (hf : f ∈ l ∨ Stored keys f es) :
    f ∈ l' ∨ Reported f es ∨ Discards keys es ∧ ¬ Stored keys f es := by
  rcases h with ⟨-, H⟩ | ⟨hd, H⟩
  · exact (H.kept f hf).imp_right .inl
  · by_cases hs : Stored keys f es
    · exact (H.kept f (.inr hs)).imp_right .inl
    · exact .inr (.inr ⟨hd, hs⟩)

theorem known (h : Dealt keys l es l') (hf : f ∈ l') :
    ¬ Discards keys es ∧ f ∈ l ∨ Stored keys f es := by
  rcases h with ⟨hd, H⟩ | ⟨-, H⟩
  · exact (H.known f hf).imp_left fun hf => ⟨hd, hf⟩
  · exact .inr ((H.known f hf).resolve_left (Ledger.not_mem_blank f))

end Dealt

/-! ## Histories -/

/-- Operations one after another, of indexers with the same keys, on a store that carries out every
call. Nobody else writes the ledger; all other answers are arbitrary. -/
inductive History (keys : RecordKeys) : Records → List (List (Event surroundings)) → Records → Prop
  | nil (t : Records) : History keys t [] t
  | cons {t t₁ t' : Records} {es : List (Event surroundings)}
      {ess : List (List (Event surroundings))} {r : Except IndexError Unit} (x : Indexer)
      (op : Operation) : x.keys = keys →
      Program.Runs (ledgered keys) (op.action x).run t es r t₁ → ¬ Faulty es →
      History keys t₁ ess t' → History keys t (es :: ess) t'

/-- The start of a rebuild has removed the failure, and it was not recorded from then on. -/
def Dropped (keys : RecordKeys) (t : Records) (ess : List (List (Event surroundings)))
    (f : Failure) : Prop :=
  ∃ before es after t₁ l₁, ess = before ++ es :: after ∧ History keys t before t₁ ∧
    ofRecords? t₁ = .ok l₁ ∧ f ∈ l₁ ∧ Discards keys es ∧ ¬ Stored keys f (es :: after).flatten

namespace History

variable {keys : RecordKeys} {t t₁ t' : Records} {l : Ledger} {es : List (Event surroundings)}
  {ess before after : List (List (Event surroundings))} {f : Failure}

/-- What is in the ledger at the end was there at the beginning, or was recorded. -/
theorem known (h : History keys t ess t') (hl : ofRecords? t = .ok l) :
    ∃ l', ofRecords? t' = .ok l' ∧ ∀ f ∈ l', f ∈ l ∨ Stored keys f ess.flatten := by
  induction h generalizing l with
  | nil t => exact ⟨l, hl, fun f hf => .inl hf⟩
  | cons x op hx hr calm _ ih =>
    subst hx
    obtain ⟨l₁, hl₁, H⟩ := op.deals x hr calm hl
    obtain ⟨l', hl', hk⟩ := ih hl₁
    refine ⟨l', hl', fun f hf => ?_⟩
    rw [List.flatten_cons, stored_append]
    rcases hk f hf with hf | hf
    · exact (H.known hf).imp And.right .inl
    · exact .inr (.inr hf)

/-- What is in the ledger after a start was recorded since. -/
theorem stored_since (h : History keys t (before ++ es :: after) t') (hl : ofRecords? t = .ok l)
    (hd : Discards keys es) {l' : Ledger} (hl' : ofRecords? t' = .ok l') (hf : f ∈ l') :
    Stored keys f (es :: after).flatten := by
  induction before generalizing t l with
  | nil =>
    cases h with
    | cons x op hx hr calm rest =>
      subst hx
      obtain ⟨l₁, hl₁, H⟩ := op.deals x hr calm hl
      obtain ⟨l₂, hl₂, hk⟩ := rest.known hl₁
      rw [hl'] at hl₂
      cases hl₂
      rw [List.flatten_cons, stored_append]
      exact (hk f hf).imp_left fun hf => (H.known hf).resolve_left fun hn => hn.1 hd
  | cons es₀ before ih =>
    cases h with
    | cons x op hx hr calm rest =>
      subst hx
      obtain ⟨l₁, hl₁, -⟩ := op.deals x hr calm hl
      exact ih rest hl₁

theorem dropped_cons {r : Except IndexError Unit} {x : Indexer} {op : Operation}
    (hx : x.keys = keys) (hr : Program.Runs (ledgered keys) (op.action x).run t es r t₁)
    (calm : ¬ Faulty es) (hd : Dropped keys t₁ ess f) : Dropped keys t (es :: ess) f := by
  obtain ⟨before, es₁, after, t₂, l₂, rfl, hb, hrest⟩ := hd
  exact ⟨es :: before, es₁, after, t₂, l₂, rfl, .cons x op hx hr calm hb, hrest⟩

/-- A failure that was recorded and not reported is lost only at a start. -/
theorem kept (h : History keys t ess t') (hl : ofRecords? t = .ok l)
    (hf : f ∈ l ∨ Stored keys f ess.flatten) (hn : ¬ Reported f ess.flatten)
    (hd : ¬ Dropped keys t ess f) : ∃ l', ofRecords? t' = .ok l' ∧ f ∈ l' := by
  induction h generalizing l with
  | nil t => exact ⟨l, hl, hf.resolve_right not_stored_nil⟩
  | @cons t t₁ t' es ess r x op hx hr calm _ ih =>
    subst hx
    obtain ⟨l₁, hl₁, H⟩ := op.deals x hr calm hl
    rw [List.flatten_cons, reported_append, not_or] at hn
    by_cases later : f ∈ l₁ ∨ Stored x.keys f ess.flatten
    · exact ih hl₁ later hn.2 fun hd' => hd (dropped_cons rfl hr calm hd')
    -- The failure was there before this operation and is not there after it.
    rw [not_or] at later
    rw [List.flatten_cons, stored_append, ← or_assoc] at hf
    have hf := hf.resolve_right later.2
    rcases H.kept hf with hf' | hf' | ⟨hdis, hs⟩
    · exact absurd hf' later.1
    · exact absurd hf' hn.1
    · refine absurd ⟨[], es, ess, t, l, rfl, .nil t, hl, hf.resolve_right hs, hdis, ?_⟩ hd
      rw [List.flatten_cons, stored_append, not_or]
      exact ⟨hs, later.2⟩

end History

/-- A failure that was recorded is in the ledger or was reported, exactly if it was reported
where a start of a rebuild has removed it for good. -/
theorem kept_or_reported_iff {keys : RecordKeys} {t t' : Records}
    {ess : List (List (Event surroundings))} {l : Ledger} (h : History keys t ess t')
    (hl : ofRecords? t = .ok l) :
    ∃ l', ofRecords? t' = .ok l' ∧ ∀ f, f ∈ l ∨ Stored keys f ess.flatten →
      (f ∈ l' ∨ Reported f ess.flatten ↔
        (Dropped keys t ess f → Reported f ess.flatten)) := by
  obtain ⟨l', hl', -⟩ := h.known hl
  refine ⟨l', hl', fun f hf => ⟨?_, fun hd => ?_⟩⟩
  · rintro (hf' | hr) hdrop
    · obtain ⟨before, es, after, t₁, l₁, rfl, -, -, -, hdis, hs⟩ := hdrop
      exact absurd (h.stored_since hl hdis hl' hf') hs
    · exact hr
  · by_cases hr : Reported f ess.flatten
    · exact .inr hr
    · obtain ⟨l₂, hl₂, hf₂⟩ := h.kept hl hf hr fun hdrop => hr (hd hdrop)
      rw [hl'] at hl₂
      cases hl₂
      exact .inl hf₂

/-! ## In a world -/

namespace World

variable {E : Type} {engine : EngineModel E}

/-- Operations one after another in a world, with the events of each. -/
def performAll (engine : EngineModel E) (x : Indexer) :
    List Operation → World E → List (List (Event surroundings)) × World E
  | [], w => ([], w)
  | op :: ops, w =>
    let rest := performAll engine x ops (w.perform engine (op.action x)).2
    (w.events engine (op.action x) :: rest.1, rest.2)

/-- In a world with a store that works they are a history. -/
theorem history_performAll (x : Indexer) (ops : List Operation) (w : World E)
    (h : ∀ r w, (engine r w).2.memory = w.memory) (online : w.memory.offline = false) :
    History x.keys (w.failureRecords x.keys) (performAll engine x ops w).1
      ((performAll engine x ops w).2.failureRecords x.keys) := by
  induction ops generalizing w with
  | nil => exact .nil _
  | cons op ops ih =>
    exact .cons x op rfl (perform_runs_ledgered x.keys (op.action x) w h)
      (events_not_faulty _ w h online) (ih _ (perform_online _ w h online))

/-- A world with an item that cannot be prepared, and with listings switched off. -/
def brokenUnlisted : World Unit :=
  { engine := (), catalogue := { broken := IdSet.ofList [5], unlisted := true } }

/-- The broken item is written, and then a rebuild is to start. -/
def failedStart : List (List (Event surroundings)) × World Unit :=
  performAll accepting plain [.bulkIndex [5], .rebuild (.step [])] brokenUnlisted

end World

open World in
/-- The item was recorded, but is neither in the ledger nor in a report after the start, though
no rebuild has begun. -/
theorem start_drops_failure :
    Stored plain.keys (.item 5) failedStart.1.flatten ∧
      (failedStart.2.ledger plain.keys).toOption = some {} ∧
      ¬ Reported (.item 5) failedStart.1.flatten ∧
      failedStart.2.record plain.keys.state = none := by
  decide +kernel

open World in
/-- It was the start that has removed the failure for good. -/
theorem dropped_by_start : Dropped plain.keys .absent failedStart.1 (.item 5) := by
  have run : History plain.keys .absent failedStart.1 (failedStart.2.failureRecords plain.keys) :=
    history_performAll plain _ brokenUnlisted (fun _ _ => rfl) rfl
  have stored : Stored plain.keys (.item 5) failedStart.1.flatten := by decide +kernel
  have silent : ¬ Reported (.item 5) failedStart.1.flatten := by decide +kernel
  have lost : failedStart.2.failureRecords plain.keys = .absent :=
    Ledger.Records.eq (by decide +kernel) (by decide +kernel)
  obtain ⟨l', hl', H⟩ := kept_or_reported_iff run (l := {}) rfl
  rw [lost] at hl'
  cases hl'
  by_contra hn
  rcases (H (.item 5) (.inr stored)).mpr fun hd => absurd hd hn with hf | hr
  · exact Ledger.not_mem_blank _ hf
  · exact silent hr

end ContentIndex
