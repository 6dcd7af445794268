import ContentIndex.Proofs.Ledger.Failures
import ContentIndex.Proofs.Progress.Persistence

/-
  The stored ledger under updates. All that is asked of the store is that a call either is carried
  out or fails and changes nothing (`answered`). Recording looks at both records before it writes
  the first one (`record_run`), so wherever it stops, each record holds what it held before and
  nothing beyond that but what was to be recorded (`runs_record`). A sequence of recordings on a
  store that works ends with the union of all of them (`runs_recordEach`), which depends neither
  on their order nor on repetitions. All calls are on the two records of the ledger.
-/

namespace ContentIndex

open Program (runs_bind_iff runs_call_iff runs_done_iff)
open Ledger (ofRecord? ofRecords? setText)
open StoreAction (performOn)

/-! ## Stores that may fail -/

namespace Event

/-- The same event among those of an operation. -/
def passedOn (e : Event store) : Event surroundings := ⟨.store e.call, e.answer⟩

/-- A call that the store did not carry out. -/
def fails (e : Event store) : Bool := e.passedOn.isFault

end Event

/-- A call that fails changes nothing; any other one is carried out. -/
def answered : Effect store Texts := fun t e t' =>
  if e.fails then t' = t else Texts.handle e.call t = (e.answer, t')

section

variable {t t' : Texts} {key text : String}

theorem answered_get {a : Except StoreError (Option String)}
    (h : answered t ⟨.get key, a⟩ t') : t' = t ∧ (a = .ok (t key) ∨ ∃ e, a = .error e) := by
  cases a with
  | error e => exact ⟨h, .inr ⟨e, rfl⟩⟩
  | ok text =>
    cases h
    exact ⟨rfl, .inl rfl⟩

theorem answered_set {a : Except StoreError Unit} (h : answered t ⟨.set key text, a⟩ t') :
    a = .ok () ∧ t' = Function.update t key (some text) ∨ (∃ e, a = .error e) ∧ t' = t := by
  cases a with
  | error e => exact .inr ⟨⟨e, rfl⟩, h⟩
  | ok u =>
    cases h
    exact .inl ⟨rfl, rfl⟩

end

/-- The ledger that is loaded from a store with some texts. -/
def Texts.ledger (keys : RecordKeys) (t : Texts) : Except StoreError Ledger :=
  (performOn Texts.handle (Ledger.load keys) t).1

theorem Texts.ledger_eq_ok {keys : RecordKeys} {t : Texts} {l : Ledger} :
    t.ledger keys = .ok l ↔
      ofRecord? (t keys.failedItems) = .ok l.items ∧
        ofRecord? (t keys.failedOffsets) = .ok l.offsets := by
  unfold ledger
  rw [performOn_loadLedger]
  exact Ledger.ofRecords?_eq_ok

/-- The failure stands in the record that is for it. -/
def Texts.Holds (keys : RecordKeys) (t : Texts) (f : Failure) : Prop :=
  ∃ s, ofRecord? (t (f.key keys)) = .ok s ∧ f.number ∈ s

theorem Texts.holds_iff {keys : RecordKeys} {t : Texts} {l : Ledger} (h : t.ledger keys = .ok l)
    (f : Failure) : t.Holds keys f ↔ f ∈ l := by
  obtain ⟨hi, ho⟩ := Texts.ledger_eq_ok.mp h
  have part : ofRecord? (t (f.key keys)) = .ok (l.part f) := by
    cases f with
    | item id => exact hi
    | page o => exact ho
  constructor
  · rintro ⟨s, hs, hf⟩
    rw [part] at hs
    cases hs
    exact hf
  · exact fun hf => ⟨_, part, hf⟩

/-! ## One recording -/

/-- What is recorded at once. -/
structure Recording where
  items : List UInt64
  offset : Option UInt64
deriving DecidableEq, Repr

namespace Recording

instance : Membership Failure Recording :=
  ⟨fun r f => match f with
    | .item id => id ∈ r.items
    | .page o => r.offset = some o⟩

def action (keys : RecordKeys) (r : Recording) : StoreAction Unit :=
  Ledger.record keys r.items r.offset

/-- The ledger with what is recorded in it. -/
def addTo (r : Recording) (l : Ledger) : Ledger := l.add r.items r.offset

theorem mem_addTo {r : Recording} {l : Ledger} {f : Failure} : f ∈ r.addTo l ↔ f ∈ l ∨ f ∈ r :=
  Ledger.mem_add.trans (by cases f <;> exact Iff.rfl)

end Recording

namespace Ledger

/-- Goes on with the set that an answer says. -/
def withSet {α : Type} (f : IdSet → Program store (Except StoreError α))
    (a : Except StoreError (Option String)) : Program store (Except StoreError α) :=
  match a.bind ofRecord? with
  | .ok s => f s
  | .error e => .done (.error e)

/-- Loading a set is one look at its record. -/
theorem load_bind_run {α : Type} (key : String) (f : IdSet → StoreAction α) :
    (StoreAction.load readIds key >>= fun s => f (s.getD ∅)).run =
      .call (.get key) (withSet fun s => (f s).run) := by
  refine congrArg (Program.call (I := store) _) (funext fun a => ?_)
  cases a with
  | error e => rfl
  | ok text =>
    cases text with
    | none => rfl
    | some text =>
      have goes_on (d : Except StoreError IdSet) :
          (((ExceptT.mk (pure d) : StoreAction IdSet) >>= fun s => pure (some s)) >>= fun s =>
            f (s.getD ∅)).run =
            match d with
            | .ok s => (f s).run
            | .error e => .done (.error e) := by
        cases d <;> rfl
      exact goes_on _

/-- Recording looks at both records, and then writes both. -/
theorem record_run (keys : RecordKeys) (items : List UInt64) (offset : Option UInt64) :
    (record keys items offset).run =
      .call (.get keys.failedItems) (withSet fun i =>
        .call (.get keys.failedOffsets) (withSet fun o =>
          (save keys (add ⟨i, o⟩ items offset)).run)) := by
  have second (i : IdSet) := load_bind_run keys.failedOffsets
    fun o => save keys (add ⟨i, o⟩ items offset)
  have first := load_bind_run keys.failedItems fun i =>
    StoreAction.load readIds keys.failedOffsets >>= fun o =>
      save keys (add ⟨i, o.getD ∅⟩ items offset)
  unfold record load
  simp only [bind_assoc, pure_bind]
  exact first.trans (congrArg (Program.call (I := store) _) (congrArg withSet (funext second)))

theorem save_run (keys : RecordKeys) (l : Ledger) :
    (save keys l).run =
      .call (.set keys.failedItems (setText l.items)) fun a =>
        match a with
        | .ok _ => .call (.set keys.failedOffsets (setText l.offsets)) .done
        | .error e => .done (.error e) := by
  refine congrArg (Program.call (I := store) _) (funext fun a => ?_)
  cases a <;> rfl

end Ledger

/-- The texts after the first half of a save. -/
def Ledger.saveItems (keys : RecordKeys) (l : Ledger) (t : Texts) : Texts :=
  Function.update t keys.failedItems (some (setText l.items))

section

variable {keys : RecordKeys} {r : Recording} {t t' : Texts} {es : List (Event store)}
  {a : Except StoreError Unit}

/-- Saving is carried out, or fails before the first write or between the two. -/
theorem runs_save {l : Ledger} (h : Program.Runs answered (l.save keys).run t es a t') :
    a = .ok () ∧ (∀ e ∈ es, e.fails = false) ∧ t' = Save.leave keys t (.ledger l) ∨
      (∃ e, a = .error e) ∧ (∃ e ∈ es, e.fails = true) ∧ (t' = t ∨ t' = l.saveItems keys t) := by
  rw [Ledger.save_run] at h
  obtain ⟨b, t₁, es₁, rfl, first, rest⟩ := runs_call_iff.mp h
  rcases answered_set first with ⟨rfl, rfl⟩ | ⟨⟨e, rfl⟩, rfl⟩
  · obtain ⟨c, t₂, es₂, rfl, second, rest⟩ := runs_call_iff.mp rest
    obtain ⟨rfl, rfl, rfl⟩ := runs_done_iff.mp rest
    rcases answered_set second with ⟨rfl, rfl⟩ | ⟨⟨e, rfl⟩, rfl⟩
    · refine .inl ⟨rfl, fun e he => ?_, rfl⟩
      rcases List.mem_cons.mp he with rfl | he
      · rfl
      · rw [List.mem_singleton.mp he]
        rfl
    · exact .inr ⟨⟨e, rfl⟩, ⟨_, List.mem_cons_of_mem _ (List.mem_singleton_self _), rfl⟩, .inr rfl⟩
  · obtain ⟨rfl, rfl, rfl⟩ := runs_done_iff.mp rest
    exact .inr ⟨⟨e, rfl⟩, ⟨_, List.mem_cons_self, rfl⟩, .inl rfl⟩

/-- A look at a set goes on with it, unless the call fails or the record cannot be read. -/
theorem runs_withSet {α : Type} {key : String} {f : IdSet → Program store (Except StoreError α)}
    {v : Except StoreError α}
    (h : Program.Runs answered (.call (.get key) (Ledger.withSet f)) t es v t') :
    (∃ s e es', ofRecord? (t key) = .ok s ∧ es = e :: es' ∧ e.fails = false ∧
        Program.Runs answered (f s) t es' v t') ∨
      (∃ e, v = .error e) ∧ t' = t ∧
        ((∃ e ∈ es, e.fails = true) ∨ ∃ e, ofRecord? (t key) = .error e) := by
  obtain ⟨b, t₁, es₁, rfl, look, rest⟩ := runs_call_iff.mp h
  obtain ⟨rfl, rfl | ⟨e, rfl⟩⟩ := answered_get look
  · cases hs : ofRecord? (t₁ key) with
    | ok s =>
      have on : Ledger.withSet f (.ok (t₁ key)) = f s := by
        unfold Ledger.withSet
        rw [show Except.bind (.ok (t₁ key)) ofRecord? = .ok s from hs]
      exact .inl ⟨s, _, es₁, rfl, rfl, rfl, on ▸ rest⟩
    | error e =>
      have ends : Ledger.withSet f (.ok (t₁ key)) = .done (.error e) := by
        unfold Ledger.withSet
        rw [show Except.bind (.ok (t₁ key)) ofRecord? = .error e from hs]
      obtain ⟨rfl, rfl, rfl⟩ := runs_done_iff.mp (ends ▸ rest)
      exact .inr ⟨⟨e, rfl⟩, rfl, .inr ⟨e, rfl⟩⟩
  · obtain ⟨rfl, rfl, rfl⟩ := runs_done_iff.mp rest
    exact .inr ⟨⟨e, rfl⟩, rfl, .inl ⟨_, List.mem_cons_self, rfl⟩⟩

end

/-! ## What recording makes of the ledger -/

theorem Texts.ledger_leave {keys : RecordKeys} (hk : keys.failedItems ≠ keys.failedOffsets)
    (t : Texts) (l : Ledger) : (Save.leave keys t (.ledger l)).ledger keys = .ok l := by
  rw [Texts.ledger_eq_ok]
  unfold Save.leave
  simp only
  rw [Function.update_of_ne hk, Function.update_self, Function.update_self]
  exact ⟨Ledger.ofRecord?_setText _, Ledger.ofRecord?_setText _⟩

/-- Between the two writes the offsets are those from before. -/
theorem Texts.ledger_saveItems {keys : RecordKeys} (hk : keys.failedItems ≠ keys.failedOffsets)
    {t : Texts} {l : Ledger} (h : t.ledger keys = .ok l) (l' : Ledger) :
    (l'.saveItems keys t).ledger keys = .ok ⟨l'.items, l.offsets⟩ := by
  rw [Texts.ledger_eq_ok] at h ⊢
  unfold Ledger.saveItems
  rw [Function.update_self, Function.update_of_ne (Ne.symm hk)]
  exact ⟨Ledger.ofRecord?_setText _, h.2⟩

/-- The records hold what they held before, and beyond that nothing but some failures. A ledger
that cannot be read is left as it is. -/
structure Grows (keys : RecordKeys) (new : Failure → Prop) (t t' : Texts) : Prop where
  kept : ∀ f, t.Holds keys f → t'.Holds keys f
  only : ∀ f, t'.Holds keys f → t.Holds keys f ∨ new f
  readable : ∀ l, t.ledger keys = .ok l → ∃ l', t'.ledger keys = .ok l'
  unreadable : ∀ e, t.ledger keys = .error e → t' = t

namespace Grows

variable {keys : RecordKeys} {new new' : Failure → Prop} {t t₁ t' : Texts}

theorem refl (keys : RecordKeys) (new : Failure → Prop) (t : Texts) : Grows keys new t t :=
  ⟨fun _ => id, fun _ => .inl, fun l h => ⟨l, h⟩, fun _ _ => rfl⟩

theorem trans (h : Grows keys new t t₁) (h' : Grows keys new' t₁ t') :
    Grows keys (fun f => new f ∨ new' f) t t' := by
  refine ⟨fun f hf => h'.kept f (h.kept f hf), fun f hf => ?_, fun l hl => ?_, fun e he => ?_⟩
  · rcases h'.only f hf with hf | hf
    · exact (h.only f hf).imp_right .inl
    · exact .inr (.inr hf)
  · obtain ⟨l₁, hl₁⟩ := h.readable l hl
    exact h'.readable l₁ hl₁
  · obtain rfl := h.unreadable e he
    exact h'.unreadable e he

theorem mono (h : Grows keys new t t') (hn : ∀ f, new f → new' f) : Grows keys new' t t' :=
  ⟨h.kept, fun f hf => (h.only f hf).imp_right (hn f), h.readable, h.unreadable⟩

/-- A ledger between another one and that with the new failures. -/
theorem of_ledgers {l l' : Ledger} (h : t.ledger keys = .ok l) (h' : t'.ledger keys = .ok l')
    (kept : ∀ f, f ∈ l → f ∈ l') (only : ∀ f, f ∈ l' → f ∈ l ∨ new f) : Grows keys new t t' := by
  refine ⟨fun f hf => ?_, fun f hf => ?_, fun _ _ => ⟨l', h'⟩, fun e he => ?_⟩
  · rw [Texts.holds_iff h] at hf
    rw [Texts.holds_iff h']
    exact kept f hf
  · rw [Texts.holds_iff h'] at hf
    rw [Texts.holds_iff h]
    exact only f hf
  · rw [h] at he
    cases he

end Grows

section

variable {keys : RecordKeys} (hk : keys.failedItems ≠ keys.failedOffsets) {r : Recording}
  {t t' : Texts} {es : List (Event store)} {a : Except StoreError Unit}

include hk

/-- A recording succeeds, and then the ledger has what is recorded in it; or a call has failed or
a record cannot be read, and then it has an error, whatever was written before. -/
theorem runs_recording (h : Program.Runs answered (r.action keys).run t es a t') :
    Grows keys (· ∈ r) t t' ∧
      ((∃ l, t.ledger keys = .ok l ∧ a = .ok () ∧ (∀ e ∈ es, e.fails = false) ∧
          t'.ledger keys = .ok (r.addTo l)) ∨
        (∃ e, a = .error e) ∧
          ((∃ e ∈ es, e.fails = true) ∨ ∃ e, t.ledger keys = .error e)) := by
  have unreadable (hu : ∀ l, t.ledger keys ≠ .ok l) : ∃ e, t.ledger keys = .error e := by
    cases hl : t.ledger keys with
    | error e => exact ⟨e, rfl⟩
    | ok l => exact absurd hl (hu l)
  have run := h
  unfold Recording.action at run
  rw [Ledger.record_run] at run
  rcases runs_withSet run with ⟨i, e₁, es₁, hi, rfl, calm₁, run⟩ | ⟨he, rfl, hf | ⟨e, hu⟩⟩
  · rcases runs_withSet run with ⟨o, e₂, es₂, ho, rfl, calm₂, run⟩ | ⟨he, rfl, hf | ⟨e, hu⟩⟩
    · have found : t.ledger keys = .ok ⟨i, o⟩ := Texts.ledger_eq_ok.mpr ⟨hi, ho⟩
      rcases runs_save run with ⟨ha, calm, rfl⟩ | ⟨he, ⟨e, hm, hf⟩, rfl | rfl⟩
      · have after := Texts.ledger_leave hk t (r.addTo ⟨i, o⟩)
        refine ⟨.of_ledgers found after (fun f hf => Recording.mem_addTo.mpr (.inl hf))
          (fun f => Recording.mem_addTo.mp), .inl ⟨_, found, ha, fun e he => ?_, after⟩⟩
        rcases List.mem_cons.mp he with rfl | he
        · exact calm₁
        rcases List.mem_cons.mp he with rfl | he
        · exact calm₂
        · exact calm e he
      · exact ⟨.refl _ _ _, .inr ⟨he, .inl
          ⟨e, List.mem_cons_of_mem _ (List.mem_cons_of_mem _ hm), hf⟩⟩⟩
      · refine ⟨?_, .inr ⟨he, .inl
          ⟨e, List.mem_cons_of_mem _ (List.mem_cons_of_mem _ hm), hf⟩⟩⟩
        refine .of_ledgers found (Texts.ledger_saveItems hk found _) (fun f hf => ?_) fun f hf => ?_
        · cases f with
          | item id => exact Recording.mem_addTo.mpr (.inl hf)
          | page o => exact hf
        · cases f with
          | item id => exact Recording.mem_addTo.mp hf
          | page o => exact .inl hf
    · obtain ⟨e, hm, hf⟩ := hf
      exact ⟨.refl _ _ _, .inr ⟨he, .inl ⟨e, List.mem_cons_of_mem _ hm, hf⟩⟩⟩
    · refine ⟨.refl _ _ _, .inr ⟨he, .inr (unreadable fun l hl => ?_)⟩⟩
      rw [(Texts.ledger_eq_ok.mp hl).2] at hu
      cases hu
  · exact ⟨.refl _ _ _, .inr ⟨he, .inl hf⟩⟩
  · refine ⟨.refl _ _ _, .inr ⟨he, .inr (unreadable fun l hl => ?_)⟩⟩
    rw [(Texts.ledger_eq_ok.mp hl).1] at hu
    cases hu

end

/-! ## Sequences -/

/-- Recordings one after another, each with what it ends with. -/
def recordEach (keys : RecordKeys) :
    List Recording → Program store (List (Except StoreError Unit))
  | [] => .done []
  | r :: rs => do
    let a ← (r.action keys).run
    let as ← recordEach keys rs
    pure (a :: as)

section

variable {keys : RecordKeys} (hk : keys.failedItems ≠ keys.failedOffsets) {t t' : Texts}
  {es : List (Event store)}

include hk

/-- However many of the recordings fail, the ledger grows by nothing but what is recorded; if no
call fails, it grows by all of that. -/
theorem runs_recordEach {rs : List Recording} {as : List (Except StoreError Unit)}
    (h : Program.Runs answered (recordEach keys rs) t es as t') :
    Grows keys (fun f => ∃ r ∈ rs, f ∈ r) t t' ∧
      ∀ l, t.ledger keys = .ok l → (∀ e ∈ es, e.fails = false) →
        as = rs.map (fun _ => .ok ()) ∧
          ∃ l', t'.ledger keys = .ok l' ∧ ∀ f, f ∈ l' ↔ f ∈ l ∨ ∃ r ∈ rs, f ∈ r := by
  induction rs generalizing t es as with
  | nil =>
    obtain ⟨rfl, rfl, rfl⟩ := runs_done_iff.mp h
    exact ⟨.refl _ _ _, fun l hl _ => ⟨rfl, l, hl, by simp⟩⟩
  | cons r rs ih =>
    obtain ⟨a, t₁, es₁, es₂, rfl, first, rest⟩ := runs_bind_iff.mp h
    obtain ⟨as, t₂, es₃, es₄, rfl, others, last⟩ := runs_bind_iff.mp rest
    obtain ⟨rfl, rfl, rfl⟩ := runs_done_iff.mp last
    obtain ⟨grows, ends⟩ := runs_recording hk first
    obtain ⟨grows', all⟩ := ih others
    refine ⟨(grows.trans grows').mono fun f hf => ?_, fun l hl calm => ?_⟩
    · simpa using hf
    · rcases ends with ⟨l₀, hl₀, rfl, -, hl₁⟩ | ⟨-, ⟨e, hm, hf⟩ | ⟨e, he⟩⟩
      · rw [hl] at hl₀
        cases hl₀
        obtain ⟨rfl, l', hl', mem⟩ := all _ hl₁ fun e he =>
          calm e (List.mem_append_right _ (List.mem_append_left _ he))
        refine ⟨rfl, l', hl', fun f => ?_⟩
        rw [mem, Recording.mem_addTo, or_assoc]
        simp
      · rw [calm e (List.mem_append_left _ hm)] at hf
        cases hf
      · rw [hl] at he
        cases he

end

/-! ## Other records -/

theorem Event.not_touches {e : Event store} {own : List String} (h : e.call.On own) {key : String}
    (hk : key ∉ own) : e.passedOn.touches key = false := by
  obtain ⟨c, a⟩ := e
  have other (k : String) (hm : k ∈ own) : (k == key) = false :=
    beq_eq_false_iff_ne.mpr fun he => hk (he ▸ hm)
  cases c <;> exact other _ h

/-- A call on other keys leaves a text alone. -/
theorem answered_apart {t t' : Texts} {e : Event store} {key : String} (h : answered t e t')
    (hk : e.passedOn.touches key = false) : t' key = t key := by
  obtain ⟨c, a⟩ := e
  cases c with
  | get k => rw [(answered_get h).1]
  | set k text =>
    rcases answered_set h with ⟨-, rfl⟩ | ⟨-, rfl⟩
    · exact Function.update_of_ne (Ne.symm (beq_eq_false_iff_ne.mp hk)) _ _
    · rfl
  | delete k =>
    cases a with
    | error e => rw [show t' = t from h]
    | ok u =>
      cases h
      exact Function.update_of_ne (Ne.symm (beq_eq_false_iff_ne.mp hk)) _ _

/-- Recordings in a store that carries out a call or fails and changes nothing. A sequence of them
loses nothing and adds nothing but what is recorded; if no call fails, and the ledger can be read,
all of them succeed, and the ledger is then the union. One of them has an error exactly if a call
fails or the ledger cannot be read. Neither recording nor clearing touches the state record. -/
theorem recordings_keep_ledger (lead : String) {σ : Type} {E : Effect store σ}
    (shown : σ → Texts) (answers : ∀ s e s', E s e s' → answered (shown s) e (shown s')) :
    let keys := RecordKeys.withLead lead
    (∀ rs s es as s', Program.Runs E (recordEach keys rs) s es as s' →
      Grows keys (fun f => ∃ r ∈ rs, f ∈ r) (shown s) (shown s') ∧
      ∀ l, (shown s).ledger keys = .ok l → (∀ e ∈ es, e.fails = false) →
        as = rs.map (fun _ => .ok ()) ∧
          ∃ l', (shown s').ledger keys = .ok l' ∧ ∀ f, f ∈ l' ↔ f ∈ l ∨ ∃ r ∈ rs, f ∈ r) ∧
    (∀ (r : Recording) s es a s', Program.Runs E (r.action keys).run s es a s' →
      Grows keys (· ∈ r) (shown s) (shown s') ∧
      ((∃ e, a = .error e) ↔
        (∃ e ∈ es, e.fails = true) ∨ ∃ e, (shown s).ledger keys = .error e)) ∧
    ∀ action, (action = Ledger.clear keys ∨ ∃ r : Recording, action = r.action keys) →
      ∀ s es a s', Program.Runs E action.run s es a s' →
        (∀ e ∈ es, e.passedOn.touches keys.state = false) ∧
          shown s' keys.state = shown s keys.state := by
  intro keys
  have hk : keys.failedItems ≠ keys.failedOffsets := RecordKeys.failedItems_ne lead
  refine ⟨fun rs s es as s' h => runs_recordEach hk (h.map shown answers),
    fun r s es a s' h => ?_, fun action hact s es a s' h => ?_⟩
  · obtain ⟨grows, ends⟩ := runs_recording hk (h.map shown answers)
    refine ⟨grows, ?_⟩
    rcases ends with ⟨l, hl, rfl, calm, -⟩ | ⟨he, hf⟩
    · rw [hl]
      refine iff_of_false nofun ?_
      rintro (⟨e, hm, hf⟩ | ⟨e, he⟩)
      · rw [calm e hm] at hf
        cases hf
      · cases he
    · exact iff_of_true he hf
  · have calls : action.run.Always (StoreCall.On (Ledger.ledgerKeys keys)) fun _ => True := by
      rcases hact with rfl | ⟨r, rfl⟩
      · exact Ledger.always_clear
      · exact Ledger.always_record r.items r.offset
    have own := (calls.of_runs h).1
    have apart {e : Event store} (he : e.call.On (Ledger.ledgerKeys keys)) :
        e.passedOn.touches keys.state = false :=
      Event.not_touches he (RecordKeys.state_notMem_ledgerKeys lead)
    refine ⟨fun e he => apart (own e he), ?_⟩
    refine Program.moves_frame (P := StoreCall.On (Ledger.ledgerKeys keys))
      (fun s' => shown s' keys.state = shown s keys.state) (fun s₁ e s₂ he hs h₁ => ?_) h own rfl
    exact (answered_apart (answers _ _ _ hs) (apart he)).trans h₁

/-! ## A store that goes offline -/

/-- Records in memory that are taken offline after so many calls. -/
def Memory.expiring (c : store.Call) (s : Nat × Memory) : store.Answer c × Nat × Memory :=
  let (a, m) := ({ s.2 with offline := s.1 == 0 } : Memory).handle c
  (a, s.1 - 1, m)

theorem answered_handle (c : store.Call) (t : Texts) :
    answered t ⟨c, (Texts.handle c t).1⟩ (Texts.handle c t).2 := by
  cases c <;> rfl

/-- Calls are answered by records that are taken offline. -/
def Memory.expiry : Effect store (Nat × Memory) := fun s e s' => expiring e.call s = (e.answer, s')

theorem Memory.answered_expiry {s s' : Nat × Memory} {e : Event store} (h : expiry s e s') :
    answered s.2.records.find? e s'.2.records.find? := by
  obtain ⟨n, m⟩ := s
  have held : answered m.records.find? ⟨e.call, (expiring e.call (n, m)).1⟩
      (expiring e.call (n, m)).2.2.records.find? := by
    cases n with
    | zero => cases e.call <;> rfl
    | succ n =>
      have up : ({ m with offline := false } : Memory).offline = false := rfl
      have carried := answered_handle e.call m.records.find?
      rwa [← Memory.keeps.answers _ _ up, ← Memory.keeps.shows _ _ up] at carried
  unfold expiry at h
  rwa [h] at held

/-- Two recordings with an item in common. -/
def Recording.overlapping : List Recording := [⟨[3, 4], some 0⟩, ⟨[4, 9], some 350⟩]

/-- What they make of an empty store that is taken offline after so many calls. -/
def Recording.leftAfter (calls : Nat) : Nat × Memory :=
  ((recordEach (.withLead "site:") overlapping).trace Memory.expiring (calls, {})).2.2

/-- Both succeed, or the second one has an error, since the store is taken offline before its last
call: its items are in the ledger and its offset is not. -/
theorem recordings_keep_ledger_offline :
    let keys := RecordKeys.withLead "site:"
    let left (calls : Nat) : Texts := (Recording.leftAfter calls).2.records.find?
    (∃ l, (left 8).ledger keys = .ok l ∧ ∀ f, f ∈ l ↔ ∃ r ∈ Recording.overlapping, f ∈ r) ∧
      Grows keys (fun f => ∃ r ∈ Recording.overlapping, f ∈ r) (fun _ => none) (left 7) ∧
      (left 7).ledger keys = .ok ⟨.ofList [3, 4, 9], .ofList [0]⟩ := by
  intro keys left
  have each := (recordings_keep_ledger "site:" (fun s : Nat × Memory => s.2.records.find?)
    fun _ _ _ => Memory.answered_expiry).1 Recording.overlapping
  have run (n : Nat) : Program.Runs Memory.expiry (recordEach keys Recording.overlapping) (n, {})
      ((recordEach keys Recording.overlapping).trace Memory.expiring (n, {})).1
      ((recordEach keys Recording.overlapping).trace Memory.expiring (n, {})).2.1
      (Recording.leftAfter n) :=
    Program.runs_trace id (fun _ _ => rfl) _ _
  have calm : ∀ e ∈ ((recordEach keys Recording.overlapping).trace Memory.expiring (8, {})).1,
      e.fails = false := by
    decide +kernel
  have blank : Texts.ledger keys (fun _ => none) = .ok {} := rfl
  obtain ⟨l, hl, mem⟩ := ((each _ _ _ _ (run 8)).2 {} blank calm).2
  refine ⟨⟨l, hl, fun f => ?_⟩, (each _ _ _ _ (run 7)).1, ?_⟩
  · rw [mem]
    simp
  · decide +kernel

end ContentIndex
