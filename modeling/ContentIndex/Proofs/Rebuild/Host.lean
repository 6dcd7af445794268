import ContentIndex.Indexer.World
import ContentIndex.Proofs.Indexer.Traffic
import ContentIndex.Proofs.Rebuild.Step

/-
  Two programs in the same surroundings. A `Host` answers calls as nobody but the programs
  themselves can change it: what it holds is one state, and only new run ids, the clock and the
  answers about indices that are there are left open. `Twin` is a Hoare triple for two operations
  that begin in states which differ at most in the stamps of a rebuild, its run id and its
  moments (`Beside`): they end with the same error, or with values and records that are related.
  There is one rule for each way to build an operation, one for operations that do the same on
  both sides (`twin_shared`), and one for a part that only one side has (`Twin.skip_left`).
-/

namespace ContentIndex

open ContentIndex.Action
open Program (runs_call_iff runs_done_iff)

/-! ## Hosts -/

/-- A fixed content store, an engine whose answers depend on what was sent before, and a store
that fails at certain of its calls. A request whether an index is there is not counted among
what was sent. -/
structure Host where
  content : (c : ContentCall) → ContentIndex.content.Answer c
  engine : List Engine.Request → Engine.Request →
    Except Engine.TransportError Engine.Response
  offline : Nat → Bool

namespace Host

/-- What is there besides the content store. -/
structure State where
  sent : List Engine.Request := []
  reports : List FailureReport := []
  records : SortedMap String := ∅
  /-- How often the store was called. -/
  storeCalls : Nat := 0

def store (h : Host) (s : State) (c : StoreCall) : ContentIndex.store.Answer c × State :=
  let (a, m) := (Memory.mk s.records (h.offline s.storeCalls)).handle c
  (a, { s with records := m.records, storeCalls := s.storeCalls + 1 })

/-- The answers to a call, and the state after it. Every index is found. -/
def effect (h : Host) : Effect surroundings State := fun s e s' =>
  match e with
  | ⟨.store c, a⟩ => a = (h.store s c).1 ∧ s' = (h.store s c).2
  | ⟨.content c, a⟩ => a = h.content c ∧ s' = s
  | ⟨.engine r, a⟩ =>
    if r.method = .head then (∃ found, a = .ok found ∧ found.isSuccess = true) ∧ s' = s
    else a = h.engine s.sent r ∧ s' = { s with sent := s.sent ++ [r] }
  | ⟨.notify r, _⟩ => s' = { s with reports := s.reports ++ [r] }
  | _ => s' = s

theorem exists_effect (h : Host) (s : State) (c : IndexerCall) :
    ∃ a s', h.effect s ⟨c, a⟩ s' := by
  cases c with
  | store c => exact ⟨_, _, rfl, rfl⟩
  | content c => exact ⟨_, _, rfl, rfl⟩
  | engine r =>
    by_cases hr : r.method = .head
    · refine ⟨.ok { status := 200, body := "" }, s, ?_⟩
      simp only [effect, hr, if_true]
      exact ⟨⟨_, rfl, rfl⟩, trivial⟩
    · exact ⟨h.engine s.sent r, _, by simp only [effect, hr, if_false]; exact ⟨rfl, rfl⟩⟩
  | notify r => exact ⟨(), _, rfl⟩
  | newRun => exact ⟨Cursor.blank.run, s, rfl⟩
  | now => exact ⟨Calendar.Moment.epoch, s, rfl⟩
  | wait n => exact ⟨(), s, rfl⟩
  | measure m => exact ⟨(), s, rfl⟩

/-- The operation runs from one state to another. -/
abbrev Runs {α : Type} (h : Host) (a : Action α) (s : State) (es : List (Event surroundings))
    (r : Except IndexError α) (s' : State) : Prop :=
  Program.Runs h.effect a.run s es r s'

/-- Every program runs in a host. -/
theorem exists_runs {α : Type} (h : Host) (p : Program surroundings α) (s : State) :
    ∃ es v s', Program.Runs h.effect p s es v s' := by
  induction p generalizing s with
  | done v => exact ⟨[], v, s, .refl _ _⟩
  | call c next ih =>
    obtain ⟨a, s₁, he⟩ := exists_effect h s c
    obtain ⟨es, v, s', hr⟩ := ih a s₁
    exact ⟨_, v, s', .call he hr⟩

end Host

/-- A request that does more than ask whether an index is there. -/
def Event.request? : Event surroundings → Option Engine.Request
  | ⟨.engine r, _⟩ => if r.method = .head then none else some r
  | _ => none

namespace Host

variable {h : Host} {s s' : State}

theorem effect_sent {e : Event surroundings} (he : h.effect s e s') :
    s'.sent = s.sent ++ e.request?.toList ∧ s'.reports = s.reports ++ e.report?.toList := by
  obtain ⟨c, a⟩ := e
  cases c with
  | store c =>
    obtain ⟨-, rfl⟩ := he
    simp [store, Event.request?, Event.report?]
  | content c =>
    obtain ⟨-, rfl⟩ := he
    simp [Event.request?, Event.report?]
  | engine r =>
    by_cases hr : r.method = .head
    · simp only [effect, hr, if_true] at he
      simp [Event.request?, Event.report?, hr, he.2]
    · simp only [effect, hr, if_false] at he
      simp [Event.request?, Event.report?, hr, he.2]
  | notify r =>
    obtain rfl := he
    simp [Event.request?, Event.report?]
  | _ =>
    obtain rfl := he
    simp [Event.request?, Event.report?]

/-- The state knows what was sent and reported in a run. -/
theorem runs_sent {α : Type} {p : Program surroundings α} {es : List (Event surroundings)} {v : α}
    (hr : Program.Runs h.effect p s es v s') :
    s'.sent = s.sent ++ es.filterMap Event.request? ∧
      s'.reports = s.reports ++ es.filterMap Event.report? := by
  induction p generalizing s es with
  | done w =>
    obtain ⟨rfl, -, rfl⟩ := runs_done_iff.mp hr
    simp
  | call c next ih =>
    obtain ⟨a, s₁, es', rfl, he, hr⟩ := runs_call_iff.mp hr
    obtain ⟨hs, hp⟩ := effect_sent he
    obtain ⟨hs', hp'⟩ := ih a hr
    rw [hs', hp', hs, hp]
    constructor
    · cases hq : Event.request? ⟨c, a⟩ <;> simp [hq]
    · cases hq : Event.report? ⟨c, a⟩ <;> simp [hq]

end Host

/-! ## Hosts of worlds -/

/-- The host that holds a catalogue, and an engine with one answer for everything. -/
def Host.ofCatalogue (c : Catalogue) (answer : Engine.Response) : Host where
  content := c.answer
  engine _ _ := .ok answer
  offline _ := false

theorem Memory.offline_handle (m : Memory) (c : StoreCall) :
    (m.handle c).2.offline = m.offline := by
  cases c <;> cases h : m.offline <;> simp [handle, h]

/-- What a program does in a world it does in the host of the world. -/
theorem World.runs_host {α : Type} {engine : EngineModel Unit} {answer : Engine.Response}
    (gives : ∀ r w, engine r w = (.ok answer, w)) (ha : answer.isSuccess = true)
    (p : Program surroundings α) (w : World Unit) (s : Host.State)
    (online : w.memory.offline = false) (records : s.records = w.memory.records) :
    ∃ es s', Program.Runs (Host.ofCatalogue w.catalogue answer).effect p s es
      (p.trace (fun c w => w.handle engine c) w).2.1 s' := by
  induction p generalizing w s with
  | done v => exact ⟨[], s, .refl _ _⟩
  | call c next ih =>
    have step (m : Host.State)
        (he : (Host.ofCatalogue w.catalogue answer).effect s ⟨c, (w.handle engine c).1⟩ m)
        (same : (w.handle engine c).2.catalogue = w.catalogue)
        (online : (w.handle engine c).2.memory.offline = false)
        (records : m.records = (w.handle engine c).2.memory.records) :
        ∃ es s', Program.Runs (Host.ofCatalogue w.catalogue answer).effect (.call c next) s es
          ((Program.call c next).trace (fun c w => w.handle engine c) w).2.1 s' := by
      obtain ⟨es, s', hr⟩ := ih _ _ m online records
      rw [same] at hr
      exact ⟨_, s', .call he hr⟩
    cases c with
    | store c =>
      have memory : Memory.mk s.records false = w.memory := by rw [records, ← online]
      refine step ((Host.ofCatalogue w.catalogue answer).store s c).2 ⟨?_, rfl⟩ rfl
        ((w.memory.offline_handle c).trans online) ?_
      · exact congrArg (fun m => (Memory.handle m c).1) memory.symm
      · exact congrArg (fun m => (Memory.handle m c).2.records) memory
    | engine r =>
      have answered : w.handle engine (.engine r) =
          (.ok answer, { w with sent := w.sent ++ [r] }) := gives r _
      by_cases hr : r.method = .head
      · refine step s ?_ (by rw [answered]) (by rw [answered]; exact online)
          (by rw [answered]; exact records)
        simp only [Host.effect, hr, if_true, answered]
        exact ⟨⟨answer, rfl, ha⟩, trivial⟩
      · refine step { s with sent := s.sent ++ [r] } ?_ (by rw [answered])
          (by rw [answered]; exact online) (by rw [answered]; exact records)
        simp only [Host.effect, hr, if_false, answered]
        exact ⟨rfl, trivial⟩
    | content c => exact step s ⟨rfl, rfl⟩ rfl online records
    | notify r => exact step { s with reports := s.reports ++ [r] } rfl rfl online records
    | _ => exact step s rfl rfl online records

/-! ## Stamps -/

/-- A position without its run id and its moment. -/
def Cursor.unstamped (c : Cursor) : Cursor :=
  { c with run := blank.run, startedAt := blank.startedAt }

/-- A state record without run ids and moments. -/
def IndexState.unstamped (s : IndexState) : IndexState :=
  match s.phase with
  | .notStarted => s
  | .running c => { s with phase := .running c.unstamped }
  | .completed _ n => { s with phase := .completed Calendar.Moment.epoch n }

/-- A report without its run id. -/
def FailureReport.unstamped (r : FailureReport) : FailureReport :=
  { r with run := r.run.map fun _ => Cursor.blank.run }

/-- The same text, or the texts of two state records that differ at most in their stamps. -/
def SameRecord (t₁ t₂ : Option String) : Prop :=
  t₁ = t₂ ∨ ∃ s₁ s₂ : IndexState, t₁ = some s₁.text ∧ t₂ = some s₂.text ∧
    s₁.unstamped = s₂.unstamped

/-- Both records can be read, or neither, for the same reason. -/
theorem SameRecord.ofRecord? {t₁ t₂ : Option String} (h : SameRecord t₁ t₂) :
    (∃ s₁ s₂, IndexState.ofRecord? t₁ = .ok s₁ ∧ IndexState.ofRecord? t₂ = .ok s₂) ∨
      ∃ e, IndexState.ofRecord? t₁ = .error e ∧ IndexState.ofRecord? t₂ = .error e := by
  rcases h with rfl | ⟨s₁, s₂, rfl, rfl, -⟩
  · cases hs : IndexState.ofRecord? t₁ with
    | ok s => exact .inl ⟨s, s, rfl, rfl⟩
    | error e => exact .inr ⟨e, rfl, rfl⟩
  · exact .inl ⟨s₁, s₂, IndexState.ofRecord?_text _, IndexState.ofRecord?_text _⟩

/-! ## States side by side -/

/-- A relation between two texts of the state record. -/
abbrev RecordRel := Option String → Option String → Prop

/-- Two states that differ at most in stamps, with related state records. -/
structure Beside (key : String) (K : RecordRel) (s₁ s₂ : Host.State) : Prop where
  sent : s₁.sent = s₂.sent
  reports : s₁.reports.map (·.unstamped) = s₂.reports.map (·.unstamped)
  records : ∀ k, k ≠ key → s₁.records.find? k = s₂.records.find? k
  storeCalls : s₁.storeCalls = s₂.storeCalls
  same : SameRecord (s₁.records.find? key) (s₂.records.find? key)
  state : K (s₁.records.find? key) (s₂.records.find? key)

/-- A call that has the same answer on both sides: it depends on nothing that is stamped. -/
def Shared (keys : RecordKeys) : IndexerCall → Prop
  | .store c => c.On (Ledger.ledgerKeys keys)
  | .engine r => r.method ≠ .head
  | .newRun | .now => False
  | _ => True

theorem Sends.shared {keys : RecordKeys} {kind : Engine.Request → Prop} {c : IndexerCall}
    (h : Sends keys kind c) (hk : ∀ r, kind r → r.method ≠ .head) : Shared keys c := by
  cases c with
  | store c => exact h
  | engine r => exact hk r h
  | newRun | now => exact h.elim
  | _ => trivial

theorem Fills.shared {keys : RecordKeys} {c : IndexerCall} (h : Fills keys c) :
    Shared keys c := by
  cases c with
  | store c => exact h
  | engine r =>
    have post : r.method = .post := h
    simp [Shared, post]
  | newRun | now => exact h.elim
  | _ => trivial

namespace Beside

variable {key : String} {K K' : RecordRel} {h : Host} {s₁ s₂ s₁' s₂' : Host.State}

theorem mono (hs : Beside key K s₁ s₂) (hK : ∀ t₁ t₂, K t₁ t₂ → K' t₁ t₂) :
    Beside key K' s₁ s₂ :=
  { hs with state := hK _ _ hs.state }

/-- Calls that change other records in the same way. -/
theorem withRecords {m₁ m₂ : SortedMap String} {n : Nat} (hs : Beside key K s₁ s₂)
    (others : ∀ k, k ≠ key → m₁.find? k = m₂.find? k)
    (own₁ : m₁.find? key = s₁.records.find? key) (own₂ : m₂.find? key = s₂.records.find? key) :
    Beside key K { s₁ with records := m₁, storeCalls := n }
      { s₂ with records := m₂, storeCalls := n } :=
  { hs with
    records := others
    storeCalls := rfl
    same := by simpa only [own₁, own₂] using hs.same
    state := by simpa only [own₁, own₂] using hs.state }

/-- A call of the store on another key than that of the state record. -/
theorem store {c : StoreCall} {ks : List String} (hs : Beside key K s₁ s₂) (hc : c.On ks)
    (hk : key ∉ ks) :
    (h.store s₁ c).1 = (h.store s₂ c).1 ∧ Beside key K (h.store s₁ c).2 (h.store s₂ c).2 := by
  have other (k : String) (hm : k ∈ ks) : k ≠ key := fun e => hk (e ▸ hm)
  cases hf : h.offline s₂.storeCalls with
  | true =>
    cases c <;> simp only [Host.store, Memory.handle, hs.storeCalls, hf, if_true] <;>
      exact ⟨rfl, { hs with storeCalls := rfl }⟩
  | false =>
    cases c with
    | get k =>
      simp only [Host.store, Memory.handle, hs.storeCalls, hf, Bool.false_eq_true, if_false]
      exact ⟨congrArg Except.ok (hs.records k (other k hc)), { hs with storeCalls := rfl }⟩
    | set k text =>
      simp only [Host.store, Memory.handle, hs.storeCalls, hf, Bool.false_eq_true, if_false]
      have kept (m : SortedMap String) : (m.insert k text).find? key = m.find? key :=
        m.find?_insert_ne (other k hc) text
      refine ⟨rfl, hs.withRecords (fun k' hk' => ?_) (kept _) (kept _)⟩
      by_cases e : k = k'
      · simp [e]
      · simp [SortedMap.find?_insert_ne _ e, hs.records k' hk']
    | delete k =>
      simp only [Host.store, Memory.handle, hs.storeCalls, hf, Bool.false_eq_true, if_false]
      have kept (m : SortedMap String) : (m.erase k).find? key = m.find? key :=
        m.find?_erase_ne (other k hc)
      refine ⟨rfl, hs.withRecords (fun k' hk' => ?_) (kept _) (kept _)⟩
      by_cases e : k = k'
      · simp [e]
      · simp [SortedMap.find?_erase_ne _ e, hs.records k' hk']

/-- Reports that differ at most in the run id. -/
theorem notify {r₁ r₂ : FailureReport} (hs : Beside key K s₁ s₂)
    (hr : r₁.unstamped = r₂.unstamped) :
    Beside key K { s₁ with reports := s₁.reports ++ [r₁] }
      { s₂ with reports := s₂.reports ++ [r₂] } :=
  { hs with reports := by simp [hs.reports, hr] }

theorem effect {keys : RecordKeys} {c : IndexerCall} {a₁ a₂ : surroundings.Answer c}
    (hk : key ∉ Ledger.ledgerKeys keys) (hs : Beside key K s₁ s₂) (hc : Shared keys c)
    (h₁ : h.effect s₁ ⟨c, a₁⟩ s₁') (h₂ : h.effect s₂ ⟨c, a₂⟩ s₂') :
    a₁ = a₂ ∧ Beside key K s₁' s₂' := by
  cases c with
  | store c =>
    obtain ⟨rfl, rfl⟩ := h₁
    obtain ⟨rfl, rfl⟩ := h₂
    exact hs.store hc hk
  | content c =>
    obtain ⟨rfl, rfl⟩ := h₁
    obtain ⟨rfl, rfl⟩ := h₂
    exact ⟨rfl, hs⟩
  | engine r =>
    have other : r.method ≠ .head := hc
    simp only [Host.effect, other, if_false] at h₁ h₂
    obtain ⟨rfl, rfl⟩ := h₁
    obtain ⟨rfl, rfl⟩ := h₂
    exact ⟨by rw [hs.sent], { hs with sent := by simp [hs.sent] }⟩
  | notify r =>
    obtain rfl := h₁
    obtain rfl := h₂
    exact ⟨rfl, hs.notify rfl⟩
  | newRun | now => exact hc.elim
  | _ =>
    obtain rfl := h₁
    obtain rfl := h₂
    exact ⟨rfl, hs⟩

end Beside

/-! ## Operations side by side -/

/-- From states side by side the operations end side by side: with the same error, or with two
values whose relation holds of the state records. -/
def Twin {α β : Type} (h : Host) (x : Indexer) (K : RecordRel) (a : Action α) (b : Action β)
    (Q : α → β → RecordRel) : Prop :=
  ∀ ⦃s₁ s₂ es₁ es₂ r₁ r₂ s₁' s₂'⦄, Beside x.keys.state K s₁ s₂ →
    h.Runs a s₁ es₁ r₁ s₁' → h.Runs b s₂ es₂ r₂ s₂' →
    (∃ e, r₁ = .error e ∧ r₂ = .error e ∧ Beside x.keys.state (fun _ _ => True) s₁' s₂') ∨
      ∃ v w, r₁ = .ok v ∧ r₂ = .ok w ∧ Beside x.keys.state (Q v w) s₁' s₂'

namespace Twin

variable {α β γ δ : Type} {h : Host} {x : Indexer} {K K' : RecordRel} {a : Action α}
  {b : Action β} {Q R : α → β → RecordRel}

theorem mono (hab : Twin h x K a b R) (hK : ∀ t₁ t₂, K' t₁ t₂ → K t₁ t₂)
    (hQ : ∀ v w t₁ t₂, R v w t₁ t₂ → Q v w t₁ t₂) : Twin h x K' a b Q := by
  intro s₁ s₂ es₁ es₂ r₁ r₂ s₁' s₂' hs h₁ h₂
  rcases hab (hs.mono hK) h₁ h₂ with he | ⟨v, w, hv, hw, hs'⟩
  · exact .inl he
  · exact .inr ⟨v, w, hv, hw, hs'.mono (hQ v w)⟩

/-- What the relation of the records says by itself may be used. -/
theorem of_rel {P : Prop} (hK : ∀ t₁ t₂, K t₁ t₂ → P) (hab : P → Twin h x K a b Q) :
    Twin h x K a b Q :=
  fun _ _ _ _ _ _ _ _ hs => hab (hK _ _ hs.state) hs

theorem pure {v : α} {w : β} (hK : ∀ t₁ t₂, K t₁ t₂ → Q v w t₁ t₂) :
    Twin h x K (Pure.pure v) (Pure.pure w) Q := by
  intro s₁ s₂ es₁ es₂ r₁ r₂ s₁' s₂' hs h₁ h₂
  obtain ⟨-, rfl, rfl⟩ := runs_done_iff.mp h₁
  obtain ⟨-, rfl, rfl⟩ := runs_done_iff.mp h₂
  exact .inr ⟨v, w, rfl, rfl, hs.mono hK⟩

theorem bind {f : α → Action γ} {g : β → Action δ} {Q : γ → δ → RecordRel}
    (hab : Twin h x K a b R) (hfg : ∀ v w, Twin h x (R v w) (f v) (g w) Q) :
    Twin h x K (a >>= f) (b >>= g) Q := by
  intro s₁ s₂ es₁ es₂ r₁ r₂ s₁' s₂' hs h₁ h₂
  obtain ⟨q₁, m₁, es₃, es₄, -, ha, hf⟩ := Program.runs_bind_iff.mp h₁
  obtain ⟨q₂, m₂, es₅, es₆, -, hb, hg⟩ := Program.runs_bind_iff.mp h₂
  rcases hab hs ha hb with ⟨e, rfl, rfl, hs'⟩ | ⟨v, w, rfl, rfl, hs'⟩
  · obtain ⟨-, rfl, rfl⟩ := runs_done_iff.mp hf
    obtain ⟨-, rfl, rfl⟩ := runs_done_iff.mp hg
    exact .inl ⟨e, rfl, rfl, hs'⟩
  · exact hfg v w hs' hf hg

/-- A part of the left side that always succeeds, and changes nothing. -/
theorem skip_left {f : α → Action γ} {v : α} {Q : γ → β → RecordRel}
    (ha : ∀ ⦃s es r s'⦄, h.Runs a s es r s' → r = .ok v ∧ s' = s)
    (hf : Twin h x K (f v) b Q) : Twin h x K (a >>= f) b Q := by
  intro s₁ s₂ es₁ es₂ r₁ r₂ s₁' s₂' hs h₁ h₂
  obtain ⟨q, m, es₃, es₄, -, h₃, h₄⟩ := Program.runs_bind_iff.mp h₁
  obtain ⟨rfl, rfl⟩ := ha h₃
  exact hf hs h₄ h₂

end Twin

namespace Indexer

variable {α β γ : Type} {h : Host} {x : Indexer} {K : RecordRel} {Q : β → γ → RecordRel}

/-- An operation all of whose calls are shared does the same on both sides. -/
theorem twin_shared {a : Action α} (ha : a.Calls (Shared x.keys)) :
    Twin h x K a a fun v w t₁ t₂ => v = w ∧ K t₁ t₂ := by
  have main (p : Program surroundings (Except IndexError α)) {P : Except IndexError α → Prop}
      (hp : p.Always (Shared x.keys) P) {s₁ s₂ s₁' s₂' : Host.State}
      {es₁ es₂ : List (Event surroundings)} {r₁ r₂ : Except IndexError α}
      (hs : Beside x.keys.state K s₁ s₂) (h₁ : Program.Runs h.effect p s₁ es₁ r₁ s₁')
      (h₂ : Program.Runs h.effect p s₂ es₂ r₂ s₂') : r₁ = r₂ ∧ Beside x.keys.state K s₁' s₂' := by
    induction p generalizing s₁ s₂ es₁ es₂ with
    | done r =>
      obtain ⟨-, rfl, rfl⟩ := runs_done_iff.mp h₁
      obtain ⟨-, rfl, rfl⟩ := runs_done_iff.mp h₂
      exact ⟨rfl, hs⟩
    | call c next ih =>
      obtain ⟨a₁, m₁, es₃, -, e₁, k₁⟩ := runs_call_iff.mp h₁
      obtain ⟨a₂, m₂, es₄, -, e₂, k₂⟩ := runs_call_iff.mp h₂
      obtain ⟨rfl, hs'⟩ := hs.effect x.state_notMem_ledgerKeys hp.1 e₁ e₂
      exact ih a₁ (hp.2 a₁) hs' k₁ k₂
  intro s₁ s₂ es₁ es₂ r₁ r₂ s₁' s₂' hs h₁ h₂
  obtain ⟨rfl, hs'⟩ := main a.run ha hs h₁ h₂
  cases r₁ with
  | error e => exact .inl ⟨e, rfl, rfl, hs'.mono fun _ _ _ => trivial⟩
  | ok v => exact .inr ⟨v, v, rfl, rfl, hs'.mono fun _ _ hK => ⟨rfl, hK⟩⟩

theorem twin_shared_bind {a : Action α} {f : α → Action β} {g : α → Action γ}
    (ha : a.Calls (Shared x.keys)) (hfg : ∀ v, Twin h x K (f v) (g v) Q) :
    Twin h x K (a >>= f) (a >>= g) Q := by
  refine (twin_shared ha).bind fun v w => ?_
  refine Twin.of_rel (fun _ _ hK => hK.1) fun hvw => ?_
  subst hvw
  exact (hfg v).mono (fun _ _ hK => hK.2) fun _ _ _ _ => id

/-- Whatever the clock shows, and whatever the ids of new rebuilds are. -/
theorem twin_stamp {c : IndexerCall} (hc : c = .newRun ∨ c = .now) :
    Twin h x K (ask c) (ask c) fun _ _ => K := by
  intro s₁ s₂ es₁ es₂ r₁ r₂ s₁' s₂' hs h₁ h₂
  obtain ⟨a₁, m₁, es₃, -, e₁, k₁⟩ := runs_call_iff.mp h₁
  obtain ⟨a₂, m₂, es₄, -, e₂, k₂⟩ := runs_call_iff.mp h₂
  obtain ⟨-, rfl, rfl⟩ := runs_done_iff.mp k₁
  obtain ⟨-, rfl, rfl⟩ := runs_done_iff.mp k₂
  refine .inr ⟨a₁, a₂, rfl, rfl, ?_⟩
  rcases hc with rfl | rfl
  · obtain rfl := e₁
    obtain rfl := e₂
    exact hs
  · obtain rfl := e₁
    obtain rfl := e₂
    exact hs

theorem twin_notify {r₁ r₂ : FailureReport} (hr : r₁.unstamped = r₂.unstamped) :
    Twin h x K (notify r₁) (notify r₂) fun _ _ => K := by
  intro s₁ s₂ es₁ es₂ q₁ q₂ s₁' s₂' hs h₁ h₂
  obtain ⟨a₁, m₁, es₃, -, rfl, k₁⟩ := runs_call_iff.mp h₁
  obtain ⟨a₂, m₂, es₄, -, rfl, k₂⟩ := runs_call_iff.mp h₂
  obtain ⟨-, rfl, rfl⟩ := runs_done_iff.mp k₁
  obtain ⟨-, rfl, rfl⟩ := runs_done_iff.mp k₂
  exact .inr ⟨(), (), rfl, rfl, hs.notify hr⟩

/-! ## The state record -/

/-- Both sides find what their records say. -/
theorem twin_loadState :
    Twin h x K x.loadState x.loadState fun i j t₁ t₂ =>
      IndexState.ofRecord? t₁ = .ok i ∧ IndexState.ofRecord? t₂ = .ok j ∧ K t₁ t₂ := by
  intro s₁ s₂ es₁ es₂ r₁ r₂ s₁' s₂' hs h₁ h₂
  unfold Host.Runs at h₁ h₂
  rw [loadState_run] at h₁ h₂
  obtain ⟨a₁, m₁, es₃, -, ⟨rfl, rfl⟩, k₁⟩ := runs_call_iff.mp h₁
  obtain ⟨a₂, m₂, es₄, -, ⟨rfl, rfl⟩, k₂⟩ := runs_call_iff.mp h₂
  obtain ⟨-, rfl, rfl⟩ := runs_done_iff.mp k₁
  obtain ⟨-, rfl, rfl⟩ := runs_done_iff.mp k₂
  cases hf : h.offline s₂.storeCalls with
  | true =>
    simp only [Host.store, Memory.handle, hs.storeCalls, hf, if_true]
    exact .inl ⟨_, rfl, rfl, { hs with storeCalls := rfl, state := trivial }⟩
  | false =>
    simp only [Host.store, Memory.handle, hs.storeCalls, hf, Bool.false_eq_true, if_false, loaded]
    rcases hs.same.ofRecord? with ⟨i, j, hi, hj⟩ | ⟨e, he₁, he₂⟩
    · rw [hi, hj]
      exact .inr ⟨i, j, rfl, rfl, { hs with storeCalls := rfl, state := ⟨hi, hj, hs.state⟩ }⟩
    · rw [he₁, he₂]
      exact .inl ⟨_, rfl, rfl, { hs with storeCalls := rfl, state := trivial }⟩

/-- Both sides save their own record. -/
theorem twin_saveState {i j : IndexState} (hij : i.unstamped = j.unstamped) :
    Twin h x K (x.saveState i) (x.saveState j) fun _ _ t₁ t₂ =>
      t₁ = some i.text ∧ t₂ = some j.text := by
  intro s₁ s₂ es₁ es₂ r₁ r₂ s₁' s₂' hs h₁ h₂
  unfold Host.Runs at h₁ h₂
  rw [saveState_run] at h₁ h₂
  obtain ⟨a₁, m₁, es₃, -, ⟨rfl, rfl⟩, k₁⟩ := runs_call_iff.mp h₁
  obtain ⟨a₂, m₂, es₄, -, ⟨rfl, rfl⟩, k₂⟩ := runs_call_iff.mp h₂
  obtain ⟨-, rfl, rfl⟩ := runs_done_iff.mp k₁
  obtain ⟨-, rfl, rfl⟩ := runs_done_iff.mp k₂
  cases hf : h.offline s₂.storeCalls with
  | true =>
    simp only [Host.store, Memory.handle, hs.storeCalls, hf, if_true]
    exact .inl ⟨_, rfl, rfl, { hs with storeCalls := rfl, state := trivial }⟩
  | false =>
    simp only [Host.store, Memory.handle, hs.storeCalls, hf, Bool.false_eq_true, if_false]
    refine .inr ⟨(), (), rfl, rfl, hs.sent, hs.reports, fun k hk => ?_, rfl, ?_, ?_⟩
    · simp [SortedMap.find?_insert_ne _ (Ne.symm hk), hs.records k hk]
    · simp only [SortedMap.find?_insert_self]
      exact .inr ⟨i, j, rfl, rfl, hij⟩
    · simp only [SortedMap.find?_insert_self]
      exact ⟨trivial, trivial⟩

end Indexer
end ContentIndex
