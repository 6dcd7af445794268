import ContentIndex.Proofs.Rebuild.Filling
import ContentIndex.Proofs.Rebuild.Host

/-
  A rebuild that the host drives step by step does what a rebuild in one go does. The two look at
  the record in different ways before a page: a step asks whether the index is still there, and
  the loop of a whole rebuild asks whether the record still names it. Side by side in one host
  both find the position that they saved themselves (`Holds`), and a request whether the index is
  there is answered and forgotten (`runs_resume`); from there on they are the same operation.
  `twin_advance` is that for one step, `twin_stepwiseFrom` for the rest of the rebuild.
-/

namespace ContentIndex

open ContentIndex.Action
open Program (runs_bind_iff runs_call_iff runs_done_iff)

/-! ## The loop of a host -/

namespace Indexer

/-- Goes on with steps until the rebuild has ended, at most so many. The host only knows the list
of scopes with which it began. -/
def stepwiseFrom (x : Indexer) (scopes : List String) :
    (limit : Nat) → RebuildStep → Action (Option Summary)
  | _, .completed s => return s
  | 0, .progress _ => return none
  | limit + 1, .progress _ => do
    x.stepwiseFrom scopes limit (← x.rebuildStep scopes)

/-- A whole rebuild in single steps; none if it does not end within so many. -/
def stepwise (x : Indexer) (limit : Nat) (scopes : List String) : Action (Option Summary) := do
  x.stepwiseFrom scopes limit (← x.rebuildStep scopes)

end Indexer

/-! ## Positions side by side -/

/-- What positions have in common that differ at most in their stamps. -/
theorem Cursor.eq_of_unstamped {c d : Cursor} (h : c.unstamped = d.unstamped) :
    c.scopes = d.scopes ∧ c.scope = d.scope ∧ c.offset = d.offset ∧ c.synced = d.synced ∧
      c.failed = d.failed := by
  simp only [unstamped, mk.injEq] at h
  obtain ⟨offset, synced, failed, -, scopes, scope, -⟩ := h
  exact ⟨scopes, scope, offset, synced, failed⟩

/-- The end of a rebuild without its run id. -/
def Summary.unstamped (s : Summary) : Summary :=
  { s with run := Cursor.blank.run }

theorem IndexState.unstamped_running {c d : Cursor} (h : c.unstamped = d.unstamped) :
    (running c).unstamped = (running d).unstamped :=
  congrArg running h

theorem IndexState.isRun_running (c : Cursor) : (running c).isRun c.run = true := by
  simp [isRun, cursor?, running]

/-- Each of two records is that of a position. -/
def Holds (c₁ c₂ : Cursor) : RecordRel := fun t₁ t₂ =>
  t₁ = some (IndexState.running c₁).text ∧ t₂ = some (IndexState.running c₂).text

/-- Two steps have come equally far, and their records say so. -/
def EquallyFar : RebuildStep → RebuildStep → RecordRel
  | .progress c₁, .progress c₂ => fun t₁ t₂ => c₁.unstamped = c₂.unstamped ∧ Holds c₁ c₂ t₁ t₂
  | .completed s₁, .completed s₂ => fun _ _ => s₁.unstamped = s₂.unstamped
  | _, _ => fun _ _ => False

namespace Indexer

variable {α β : Type} {h : Host} {x : Indexer} {K : RecordRel} {c₁ c₂ d₁ d₂ : Cursor}

/-! ## One step -/

/-- Both sides find the positions that they have saved. -/
theorem twin_running_bind {f : IndexState → Action α} {g : IndexState → Action β}
    {Q : α → β → RecordRel}
    (hfg : Twin h x (Holds c₁ c₂) (f (.running c₁)) (g (.running c₂)) Q) :
    Twin h x (Holds c₁ c₂) (x.loadState >>= f) (x.loadState >>= g) Q := by
  refine twin_loadState.bind fun i j => ?_
  have found (t₁ t₂ : Option String)
      (ht : IndexState.ofRecord? t₁ = .ok i ∧ IndexState.ofRecord? t₂ = .ok j ∧
        Holds c₁ c₂ t₁ t₂) : i = .running c₁ ∧ j = .running c₂ := by
    obtain ⟨hi, hj, rfl, rfl⟩ := ht
    exact ⟨IndexState.eq_of_ofRecord?_text hi, IndexState.eq_of_ofRecord?_text hj⟩
  refine Twin.of_rel found fun hij => ?_
  obtain ⟨rfl, rfl⟩ := hij
  exact hfg.mono (fun _ _ ht => ht.2.2) fun _ _ _ _ => id

theorem twin_requireRun {run₁ run₂ : RunId} (h₁ : run₁ = c₁.run) (h₂ : run₂ = c₂.run) :
    Twin h x (Holds c₁ c₂) (x.requireRun run₁) (x.requireRun run₂) fun _ _ => Holds c₁ c₂ := by
  refine twin_running_bind ?_
  rw [h₁, h₂, IndexState.isRun_running, IndexState.isRun_running]
  exact Twin.pure fun _ _ => id

theorem twin_persist (hd : d₁.unstamped = d₂.unstamped) (h₁ : d₁.run = c₁.run)
    (h₂ : d₂.run = c₂.run) :
    Twin h x (Holds c₁ c₂) (x.persist d₁) (x.persist d₂) fun _ _ => Holds d₁ d₂ :=
  (twin_requireRun h₁ h₂).bind fun _ _ => twin_saveState (IndexState.unstamped_running hd)

theorem twin_progress (hd : d₁.unstamped = d₂.unstamped) (h₁ : d₁.run = c₁.run)
    (h₂ : d₂.run = c₂.run) :
    Twin h x (Holds c₁ c₂) (x.persist d₁ >>= fun _ => pure (.progress d₁))
      (x.persist d₂ >>= fun _ => pure (.progress d₂)) EquallyFar :=
  (twin_persist hd h₁ h₂).bind fun _ _ => Twin.pure fun _ _ ht => ⟨hd, ht⟩

theorem twin_reportFailures (hc : c₁.scope = c₂.scope) :
    Twin h x K (x.reportFailures c₁) (x.reportFailures c₂) fun _ _ => K := by
  have clear : Twin h x K (stored (Ledger.clear x.keys)) (stored (Ledger.clear x.keys))
      fun _ _ => K :=
    (twin_shared (calls_stored Ledger.always_clear fun _ => id)).mono (fun _ _ => id)
      fun _ _ _ _ ht => ht.2
  refine twin_shared_bind (calls_stored Ledger.always_loadLedger fun _ => id) fun l => ?_
  have told : (l.report c₁.scope (some c₁.run)).unstamped =
      (l.report c₂.scope (some c₂.run)).unstamped := by
    rw [hc]
    rfl
  cases l.isEmpty with
  | true => exact clear
  | false => exact (twin_notify told).bind fun _ _ => clear

theorem shared_recreateIndex (scope : Option String) :
    (x.recreateIndex scope).Calls (Shared x.keys) := by
  refine (sends_recreateIndex x scope).mono (fun _ hc => hc.shared fun r hr => ?_) fun _ => id
  rintro head
  simp [Engine.Request.remakes, head] at hr

theorem twin_completeScope (hc : c₁.unstamped = c₂.unstamped) :
    Twin h x (Holds c₁ c₂) (x.completeScope c₁) (x.completeScope c₂) EquallyFar := by
  obtain ⟨scopes, scope, -, synced, failed⟩ := Cursor.eq_of_unstamped hc
  unfold completeScope
  refine (twin_reportFailures scope).bind fun _ _ => ?_
  rw [scopes]
  cases c₂.scopes[1]? with
  | some s =>
    refine twin_shared_bind (calls_count trivial) fun total => ?_
    refine twin_shared_bind (shared_recreateIndex _) fun _ => ?_
    have next : (c₁.nextScope total).unstamped = (c₂.nextScope total).unstamped :=
      congrArg (Cursor.nextScope · total) hc
    exact twin_progress next rfl rfl
  | none =>
    refine (twin_requireRun rfl rfl).bind fun _ _ => ?_
    refine (twin_stamp (.inr rfl)).bind fun now₁ now₂ => ?_
    rw [synced, failed]
    have ended : (IndexState.completed now₁ c₂.synced).unstamped =
        (IndexState.completed now₂ c₂.synced).unstamped := rfl
    exact (twin_saveState ended).bind fun _ _ => Twin.pure fun _ _ _ => rfl

/-- One page, or the end of a scope, from positions that are equally far. -/
theorem twin_advance (hc : c₁.unstamped = c₂.unstamped) :
    Twin h x (Holds c₁ c₂) (x.advance c₁) (x.advance c₂) EquallyFar := by
  obtain ⟨-, scope, offset, -, -⟩ := Cursor.eq_of_unstamped hc
  unfold advance
  rw [scope, offset]
  refine twin_shared_bind (calls_listIds trivial) fun ids => ?_
  split
  · exact twin_completeScope hc
  · refine twin_shared_bind ((fills_bulkInto ids).mono (fun _ => Fills.shared) fun _ => id)
      fun o => ?_
    refine twin_shared_bind (calls_ask trivial) fun _ => ?_
    have next : (c₁.advance x.config.bulkPageSize (.ofNat o.indexed) (.ofNat o.failed)).unstamped =
        (c₂.advance x.config.bulkPageSize (.ofNat o.indexed) (.ofNat o.failed)).unstamped :=
      congrArg (Cursor.advance · x.config.bulkPageSize (.ofNat o.indexed) (.ofNat o.failed)) hc
    obtain ⟨-, -, offset', synced', -⟩ := Cursor.eq_of_unstamped next
    simp only [offset', synced']
    refine twin_shared_bind (calls_ask trivial) fun _ => ?_
    refine twin_shared_bind (calls_ask trivial) fun _ => ?_
    exact twin_progress next rfl rfl

/-! ## The first step -/

theorem twin_newCursor (scopes : List String) :
    Twin h x K (x.newCursor scopes) (x.newCursor scopes) fun c d t₁ t₂ =>
      c.unstamped = d.unstamped ∧ K t₁ t₂ := by
  refine twin_shared_bind (shared_recreateIndex _) fun _ => ?_
  refine twin_shared_bind (calls_stored Ledger.always_clear fun _ => id) fun _ => ?_
  refine twin_shared_bind (calls_count trivial) fun total => ?_
  refine (twin_stamp (.inl rfl)).bind fun run₁ run₂ => ?_
  exact (twin_stamp (.inr rfl)).bind fun now₁ now₂ => Twin.pure fun _ _ hK => ⟨rfl, hK⟩

/-- Without a rebuild that is recorded, both sides begin one. -/
theorem twin_begin (scopes : List String) {t : Option String} (ht : IndexState.NoRun t) :
    Twin h x (fun t₁ t₂ => t₁ = t ∧ t₂ = t) (x.rebuildStep scopes) (x.rebuildStep scopes)
      EquallyFar := by
  rw [rebuildStep_eq_stepFrom]
  refine twin_loadState.bind fun i j => ?_
  refine Twin.of_rel (P := i.cursor? = none ∧ j.cursor? = none) ?_ fun hij => ?_
  · rintro _ _ ⟨hi, hj, rfl, rfl⟩
    exact ⟨ht i hi, ht j hj⟩
  simp only [stepFrom, hij.1, hij.2]
  refine (twin_newCursor scopes).bind fun c d => ?_
  refine Twin.of_rel (fun _ _ hK => hK.1) fun hcd => ?_
  exact (twin_saveState (IndexState.unstamped_running hcd)).bind fun _ _ => twin_advance hcd

/-! ## The next steps -/

variable {s s' : Host.State} {es : List (Event surroundings)}

/-- A request whether an index is there is answered at once, and forgotten. -/
theorem runs_attempts_head {r : Engine.Request} (hr : r.method = .head) {attempt left : Nat}
    {a : Except Engine.TransportError Engine.Response}
    (hs : Program.Runs h.effect (attempts r attempt left) s es a s') :
    (∃ found, a = .ok found ∧ found.isSuccess = true) ∧ s' = s := by
  have found {b : surroundings.Answer (.engine r)} {m : Host.State}
      (he : h.effect s ⟨.engine r, b⟩ m) :
      (∃ found, b = .ok found ∧ found.isSuccess = true) ∧ m = s := by
    simp only [Host.effect, hr, if_true] at he
    exact he
  cases left with
  | zero =>
    obtain ⟨b, m, es', -, he, hs'⟩ := runs_call_iff.mp hs
    obtain ⟨-, rfl, rfl⟩ := runs_done_iff.mp hs'
    exact found he
  | succ left =>
    obtain ⟨b, m, es', -, he, hs'⟩ := runs_call_iff.mp hs
    obtain ⟨⟨answer, rfl, ha⟩, rfl⟩ := found he
    obtain ⟨-, rfl, rfl⟩ := runs_done_iff.mp hs'
    exact ⟨⟨answer, rfl, ha⟩, rfl⟩

/-- The index of a rebuild is found, and nothing changes. -/
theorem runs_resume {c : Cursor} {r : Except IndexError Unit}
    (hr : h.Runs (x.resume c) s es r s') : r = .ok () ∧ s' = s := by
  unfold Host.Runs at hr
  rw [resume, existsAt, bind_assoc, sendRepeatedly_bind_run] at hr
  obtain ⟨a, m, es₁, es₂, -, h₁, h₂⟩ := runs_bind_iff.mp hr
  obtain ⟨⟨found, rfl, hf⟩, rfl⟩ := runs_attempts_head rfl h₁
  change Program.Runs _ ((if found.isSuccess then pure true else _) >>= _ : Action Unit).run
    _ _ _ _ at h₂
  rw [hf] at h₂
  obtain ⟨-, rfl, rfl⟩ := runs_done_iff.mp h₂
  exact ⟨rfl, rfl⟩

/-- A step of the host and one of a whole rebuild, from the positions that they have saved. -/
theorem twin_nextStep (scopes : List String) (hc : c₁.unstamped = c₂.unstamped) :
    Twin h x (Holds c₁ c₂) (x.rebuildStep scopes) (x.continueRebuild c₂.run) EquallyFar := by
  rw [rebuildStep_eq_stepFrom]
  refine twin_running_bind ?_
  have named : (c₂.run == c₂.run) = true := beq_self_eq_true _
  simp only [stepFrom, IndexState.cursor?, IndexState.running, named]
  -- Only the step asks for the index; only the loop asks whether its run is named, and it is.
  exact Twin.skip_left (fun _ _ _ _ => runs_resume) (twin_advance hc)

/-! ## Whole rebuilds -/

/-- Both loops stop at the same time, with the same counts or the same error. -/
theorem twin_stepwiseFrom (scopes : List String) (limit : Nat) (r₁ r₂ : RebuildStep) :
    Twin h x (EquallyFar r₁ r₂) (x.stepwiseFrom scopes limit r₁) (x.rebuildFrom limit r₂)
      fun o₁ o₂ _ _ => o₁.map (·.unstamped) = o₂.map (·.unstamped) := by
  induction limit generalizing r₁ r₂ with
  | zero =>
    cases r₁ <;> cases r₂ <;> refine Twin.pure fun t₁ t₂ hr => ?_
    · rfl
    · exact hr.elim
    · exact hr.elim
    · exact congrArg some hr
  | succ limit ih =>
    cases r₁ with
    | completed s₁ =>
      cases r₂ with
      | completed s₂ => exact Twin.pure fun _ _ hr => congrArg some hr
      | progress c₂ => exact Twin.of_rel (fun _ _ => id) False.elim
    | progress c₁ =>
      cases r₂ with
      | completed s₂ => exact Twin.of_rel (fun _ _ => id) False.elim
      | progress c₂ =>
        refine Twin.of_rel (fun _ _ hr => hr.1) fun hc => ?_
        refine Twin.mono (K := Holds c₁ c₂) ?_ (fun _ _ hr => hr.2) fun _ _ _ _ => id
        exact (twin_nextStep scopes hc).bind ih

theorem twin_stepwise (limit : Nat) (scopes : List String) {t : Option String}
    (ht : IndexState.NoRun t) :
    Twin h x (fun t₁ t₂ => t₁ = t ∧ t₂ = t) (x.stepwise limit scopes) (x.rebuild limit scopes)
      fun o₁ o₂ _ _ => o₁.map (·.unstamped) = o₂.map (·.unstamped) :=
  (twin_begin scopes ht).bind (twin_stepwiseFrom scopes limit)

/-- A rebuild in single steps and a rebuild in one go, from the same state without a recorded
rebuild. Both come to an end within so many steps, or neither does. They send the same requests
in the same order, apart from those that ask whether an index is there; they report the same
failures, and leave the same ledger and the same record; and they end with the same counts or
with the same error. Run ids and moments may differ. -/
theorem stepwise_agrees_with_rebuild (x : Indexer) (h : Host) (limit : Nat) (scopes : List String)
    {s : Host.State} (hs : IndexState.NoRun (s.records.find? x.keys.state)) :
    (∃ es r s', h.Runs (x.stepwise limit scopes) s es r s') ∧
      (∃ es r s', h.Runs (x.rebuild limit scopes) s es r s') ∧
      ∀ ⦃es₁ r₁ s₁ es₂ r₂ s₂⦄, h.Runs (x.stepwise limit scopes) s es₁ r₁ s₁ →
        h.Runs (x.rebuild limit scopes) s es₂ r₂ s₂ →
        es₁.filterMap Event.request? = es₂.filterMap Event.request? ∧
        (es₁.filterMap Event.report?).map (·.unstamped) =
          (es₂.filterMap Event.report?).map (·.unstamped) ∧
        (∀ k ∈ Ledger.ledgerKeys x.keys, s₁.records.find? k = s₂.records.find? k) ∧
        SameRecord (s₁.records.find? x.keys.state) (s₂.records.find? x.keys.state) ∧
        r₁.map (Option.map (·.unstamped)) = r₂.map (Option.map (·.unstamped)) := by
  refine ⟨h.exists_runs _ s, h.exists_runs _ s, ?_⟩
  intro es₁ r₁ s₁ es₂ r₂ s₂ h₁ h₂
  obtain ⟨sent₁, told₁⟩ := Host.runs_sent h₁
  obtain ⟨sent₂, told₂⟩ := Host.runs_sent h₂
  -- All but the results can be read off the last states.
  have seen {K : RecordRel} (ends : Beside x.keys.state K s₁ s₂) :
      es₁.filterMap Event.request? = es₂.filterMap Event.request? ∧
      (es₁.filterMap Event.report?).map (·.unstamped) =
        (es₂.filterMap Event.report?).map (·.unstamped) ∧
      (∀ k ∈ Ledger.ledgerKeys x.keys, s₁.records.find? k = s₂.records.find? k) ∧
      SameRecord (s₁.records.find? x.keys.state) (s₂.records.find? x.keys.state) := by
    have sent := ends.sent
    have told := ends.reports
    rw [sent₁, sent₂] at sent
    rw [told₁, told₂, List.map_append, List.map_append] at told
    refine ⟨List.append_cancel_left sent, List.append_cancel_left told, fun k hk => ?_, ends.same⟩
    exact ends.records k fun e => x.state_notMem_ledgerKeys (e ▸ hk)
  have begins : Beside x.keys.state (fun t₁ t₂ => t₁ = s.records.find? x.keys.state ∧
      t₂ = s.records.find? x.keys.state) s s :=
    ⟨rfl, rfl, fun _ _ => rfl, rfl, .inl rfl, rfl, rfl⟩
  rcases twin_stepwise limit scopes hs begins h₁ h₂ with ⟨e, rfl, rfl, ends⟩ |
    ⟨o₁, o₂, rfl, rfl, ends⟩
  · obtain ⟨requests, reports, ledger, record⟩ := seen ends
    exact ⟨requests, reports, ledger, record, rfl⟩
  · obtain ⟨requests, reports, ledger, record⟩ := seen ends
    exact ⟨requests, reports, ledger, record, congrArg Except.ok ends.state⟩

end Indexer

/-! ## A scope of one item -/

/-- A rebuild in one go ends with one item written, and so do the single steps. -/
theorem Host.stepwise_agrees_onePost :
    ∃ es r s', (Host.ofCatalogue World.onePost.catalogue World.stored).Runs
        (World.plain.stepwise 1 ["a"]) {} es r s' ∧
      r.map (Option.map (·.unstamped)) = .ok (some ⟨Cursor.blank.run, 1, 0⟩) := by
  have idle : IndexState.NoRun ((∅ : SortedMap String).find? World.plain.keys.state) := by
    intro s hs
    cases hs
    rfl
  have accepted : World.stored.isSuccess = true := rfl
  have answers (r : Engine.Request) (w : World Unit) :
      World.storing r w = (.ok World.stored, w) := rfl
  obtain ⟨es₂, s₂, whole⟩ :=
    World.runs_host answers accepted (World.plain.rebuild 1 ["a"]).run World.onePost {} rfl rfl
  have ended := World.rebuild_onePost
  rw [World.perform, Program.run_eq_trace] at ended
  rw [ended] at whole
  obtain ⟨⟨es₁, r₁, s₁, steps⟩, -, same⟩ := Indexer.stepwise_agrees_with_rebuild World.plain
    (Host.ofCatalogue World.onePost.catalogue World.stored) 1 ["a"] (s := {}) idle
  obtain ⟨-, -, -, -, ends⟩ := same steps whole
  exact ⟨es₁, r₁, s₁, steps, ends.trans rfl⟩

end ContentIndex
