import ContentIndex.Proofs.Indexer.Footprint
import ContentIndex.Proofs.Progress.ReadBack

/-
  Operations that run on a state record. Any call may fail, and a store call that fails changes
  nothing; all other answers are arbitrary, those about other records included. `Indexer.Runs` is
  an operation with whose state record nobody interferes. Calls that are apart keep the record
  (`Runs.frame`), and of what an operation does with items only its notes matter: which pages it
  listed, which items it prepared, and how many it counted as skipped.
-/

namespace ContentIndex

open Program (Moves runs_bind_except runs_bind_ok runs_call_iff runs_done_iff)

/-- What a call and its answer make of the text under a key. -/
def recorded (key : String) : Effect surroundings (Option String) := fun t e t' =>
  match e with
  | ⟨.store (.get k), .ok text⟩ => t' = t ∧ (k = key → text = t)
  | ⟨.store (.set k text), .ok ()⟩ => t' = if k = key then some text else t
  | ⟨.store (.delete k), .ok ()⟩ => t' = if k = key then none else t
  | _ => t' = t

namespace Event

/-- Whether the call is on a key. -/
def touches (key : String) : Event surroundings → Bool
  | ⟨.store (.get k), _⟩ | ⟨.store (.set k _), _⟩ | ⟨.store (.delete k), _⟩ => k == key
  | _ => false

/-- The text that was stored under a key. -/
def stored? (key : String) : Event surroundings → Option String
  | ⟨.store (.set k text), .ok ()⟩ => if k = key then some text else none
  | _ => none

end Event

/-- Calls on other keys keep the text and store none. -/
theorem recorded_untouched {key : String} {t t' : Option String} {e : Event surroundings}
    (he : e.touches key = false) (h : recorded key t e t') : t' = t ∧ e.stored? key = none := by
  obtain ⟨c, r⟩ := e
  cases c with
  | store c =>
    cases c with
    | get k => cases r <;> simp_all [recorded, Event.stored?]
    | set k text => cases r <;> simp_all [recorded, Event.stored?, Event.touches]
    | delete k => cases r <;> simp_all [recorded, Event.stored?, Event.touches]
  | _ => exact ⟨h, rfl⟩

/-- The store in memory answers so. -/
theorem Memory.recorded_handle (m : Memory) (key : String) (c : StoreCall) :
    recorded key (m.records.find? key) ⟨.store c, (m.handle c).1⟩
      ((m.handle c).2.records.find? key) := by
  cases c with
  | get k =>
    cases h : m.offline with
    | true => simp [handle, h, recorded]
    | false => simpa [handle, h, recorded] using fun hk => by rw [hk]
  | set k text =>
    cases h : m.offline with
    | true => simp [handle, h, recorded]
    | false =>
      by_cases hk : k = key
      · simp [handle, h, recorded, hk]
      · simp [handle, h, recorded, hk, m.records.find?_insert_ne hk]
  | delete k =>
    cases h : m.offline with
    | true => simp [handle, h, recorded]
    | false =>
      by_cases hk : k = key
      · simp [handle, h, recorded, hk]
      · simp [handle, h, recorded, hk, m.records.find?_erase_ne hk]

/-! ## Calls that are apart -/

theorem recorded_apart {keys : RecordKeys} {key : String} (hk : key ∉ Ledger.ledgerKeys keys)
    (t : Option String) (e : Event surroundings) (t' : Option String)
    (he : Apart keys e.call) (h : recorded key t e t') : t' = t := by
  obtain ⟨c, r⟩ := e
  have apart : ∀ k, k ∈ Ledger.ledgerKeys keys → k ≠ key := fun k hm e => hk (e ▸ hm)
  cases c with
  | store c =>
    cases c with
    | get k =>
      cases r with
      | error e => exact h
      | ok text => exact h.1
    | set k text =>
      cases r with
      | error e => exact h
      | ok u => exact Eq.trans h (if_neg (apart k he))
    | delete k =>
      cases r with
      | error e => exact h
      | ok u => exact Eq.trans h (if_neg (apart k he))
  | _ => exact h

theorem Indexer.state_notMem_ledgerKeys (x : Indexer) :
    x.keys.state ∉ Ledger.ledgerKeys x.keys :=
  RecordKeys.state_notMem_ledgerKeys _

/-! ## Notes -/

/-- What can be seen of the work on the items of a page. -/
inductive Note where
  | listed (page : Page) (ids : Except ContentError (List UInt64))
  | prepared (id : UInt64)
  | skipped (n : Nat)

def Event.note? : Event surroundings → Option Note
  | ⟨.content (.listIds p), r⟩ => some (.listed p r)
  | ⟨.content (.prepare id), _⟩ => some (.prepared id)
  | ⟨.measure (.skipped n), _⟩ => some (.skipped n)
  | _ => none

def notes (es : List (Event surroundings)) : List Note :=
  es.filterMap Event.note?

@[simp] theorem notes_nil : notes [] = [] := rfl

@[simp] theorem notes_append (es es' : List (Event surroundings)) :
    notes (es ++ es') = notes es ++ notes es' :=
  List.filterMap_append

theorem notes_aside {keys : RecordKeys} {es : List (Event surroundings)}
    (h : ∀ e ∈ es, Aside keys e.call) : notes es = [] := by
  refine List.filterMap_eq_nil_iff.mpr fun e he => ?_
  have ha := h e he
  obtain ⟨c, r⟩ := e
  cases c with
  | content c => cases c <;> first | rfl | exact ha.elim
  | measure c => cases c <;> first | rfl | exact ha.elim
  | _ => rfl

/-! ## Ways to run -/

namespace Indexer

variable {x : Indexer} {α β : Type} {t t' : Option String} {es : List (Event surroundings)}

/-- The operation runs from one text of the state record to another without interference. -/
abbrev Runs (x : Indexer) (a : Action α) (t : Option String) (es : List (Event surroundings))
    (r : Except IndexError α) (t' : Option String) : Prop :=
  Program.Runs (recorded x.keys.state) a.run t es r t'

/-- Up to every point, an operation all of whose calls are apart keeps the state record. -/
theorem frame_of_moves {a : Action α} {q : Program surroundings (Except IndexError α)}
    (ha : a.Calls (Apart x.keys)) (h : Moves (recorded x.keys.state) a.run t es q t') : t' = t :=
  Program.moves_frame (P := Apart x.keys) (· = t)
    (fun t₁ e t₂ he hs h₁ =>
      (recorded_apart x.state_notMem_ledgerKeys t₁ e t₂ he hs).trans h₁) h
    (Program.Always.of_moves ha h).1 rfl

theorem Runs.frame {a : Action α} {r : Except IndexError α} (h : x.Runs a t es r t')
    (ha : a.Calls (Apart x.keys)) : t' = t :=
  frame_of_moves ha h

theorem runs_pure_iff {v : α} {r : Except IndexError α} :
    x.Runs (pure v : Action α) t es r t' ↔ es = [] ∧ r = .ok v ∧ t' = t :=
  runs_done_iff

/-- The operation keeps the state record and leaves no notes. -/
def Quiet (x : Indexer) (a : Action α) : Prop :=
  ∀ ⦃t es r t'⦄, x.Runs a t es r t' → t' = t ∧ notes es = []

theorem quiet_aside {a : Action α} (ha : a.Calls (Aside x.keys)) : x.Quiet a :=
  fun _ _ _ _ h => ⟨h.frame ha.apart, notes_aside (Program.Always.of_runs ha h).1⟩

theorem quiet_ask (x : Indexer) (c : IndexerCall) (h : Aside x.keys c) :
    x.Quiet (Action.ask c) :=
  quiet_aside (Action.calls_ask h)

/-- After a quiet part the operation has failed, or goes on as if it had begun there. -/
theorem Quiet.runs_bind {a : Action α} {f : α → Action β} {r : Except IndexError β}
    (ha : x.Quiet a) (h : x.Runs (a >>= f) t es r t') :
    (∃ e, r = .error e) ∧ t' = t ∨
      ∃ v es', notes es = notes es' ∧ x.Runs (f v) t es' r t' := by
  rcases runs_bind_except.mp h with ⟨e, h₁, rfl⟩ | ⟨v, t₁, es₁, es₂, rfl, h₁, h₂⟩
  · exact .inl ⟨⟨e, rfl⟩, (ha h₁).1⟩
  · obtain ⟨rfl, hn⟩ := ha h₁
    exact .inr ⟨v, es₂, by rw [notes_append, hn, List.nil_append], h₂⟩

/-- The operation fails and keeps the state record, or leaves a certain record and no notes. -/
def Saves (x : Indexer) (a : Action Unit) (text : String) : Prop :=
  ∀ ⦃t es r t'⦄, x.Runs a t es r t' →
    (∃ e, r = .error e) ∧ t' = t ∨ r = .ok () ∧ notes es = [] ∧ t' = some text

theorem Saves.runs_bind_pure {a : Action Unit} {text : String} {v : β}
    {r : Except IndexError β} (ha : x.Saves a text)
    (h : x.Runs (a >>= fun _ => pure v) t es r t') :
    (∃ e, r = .error e) ∧ t' = t ∨ r = .ok v ∧ notes es = [] ∧ t' = some text := by
  rcases runs_bind_except.mp h with ⟨e, h₁, rfl⟩ | ⟨u, t₁, es₁, es₂, rfl, h₁, h₂⟩
  · rcases ha h₁ with ⟨-, rfl⟩ | ⟨he, -, -⟩
    · exact .inl ⟨⟨e, rfl⟩, rfl⟩
    · cases he
  · obtain ⟨rfl, rfl, rfl⟩ := runs_pure_iff.mp h₂
    rcases ha h₁ with ⟨⟨e, he⟩, -⟩ | ⟨-, hn, rfl⟩
    · cases he
    · exact .inr ⟨rfl, by rw [notes_append, hn]; rfl, rfl⟩

theorem runs_ask {c : IndexerCall} {r : Except IndexError (surroundings.Answer c)}
    (h : x.Runs (Action.ask c) t es r t') :
    ∃ a, es = [⟨c, a⟩] ∧ r = .ok a ∧ recorded x.keys.state t ⟨c, a⟩ t' := by
  obtain ⟨a, t₁, es', rfl, he, h⟩ := runs_call_iff.mp h
  obtain ⟨rfl, rfl, rfl⟩ := runs_done_iff.mp h
  exact ⟨a, rfl, rfl, he⟩

theorem runs_listIds {p : Page} {r : Except IndexError (List UInt64)}
    (h : x.Runs (Action.listIds p) t es r t') :
    t' = t ∧ ∀ ids, r = .ok ids → notes es = [.listed p (.ok ids)] := by
  obtain ⟨a, t₁, es', rfl, he, h⟩ := runs_call_iff.mp h
  obtain ⟨rfl, rfl, rfl⟩ := runs_done_iff.mp h
  refine ⟨he, fun ids hids => ?_⟩
  cases a with
  | error e => cases hids
  | ok l => cases hids; rfl

theorem runs_prepare {id : UInt64} {r : Except IndexError (Except ContentError (Option Document))}
    (h : x.Runs (Action.prepare id) t es r t') : notes es = [.prepared id] := by
  obtain ⟨a, rfl, rfl, he⟩ := runs_ask h
  rfl

end Indexer

/-! ## The state record -/

namespace IndexState

/-- The text of a state record. -/
def text (s : IndexState) : String := s.toJson.render

/-- What a state record says. Without one no rebuild has begun, and reads are on. -/
def ofRecord? : Option String → Except StoreError IndexState
  | none => .ok {}
  | some text => StoreAction.decode read text

@[simp] theorem ofRecord?_text (s : IndexState) : ofRecord? (some s.text) = .ok s :=
  decode_render s

theorem eq_of_ofRecord?_text {s s' : IndexState} (h : ofRecord? (some s.text) = .ok s') :
    s' = s :=
  Except.ok.inj (h.symm.trans (ofRecord?_text s))

/-- What a state record says, without reading it letter by letter if it is the text of one of some
records. -/
def ofRecordAmong (known : List IndexState) : Option String → Except StoreError IndexState
  | none => .ok {}
  | some text =>
    match known.find? (·.text = text) with
    | some s => .ok s
    | none => StoreAction.decode read text

theorem ofRecordAmong_eq (known : List IndexState) : ofRecordAmong known = ofRecord? := by
  funext t
  cases t with
  | none => rfl
  | some text =>
    rw [ofRecordAmong]
    cases h : known.find? (·.text = text) with
    | none => rfl
    | some s =>
      have hs : s.text = text := by simpa using List.find?_some h
      rw [← hs, ofRecord?_text]

end IndexState

/-- The first call has found a state record that names this position, or none. -/
def Found (keys : RecordKeys) (es : List (Event surroundings)) (c? : Option Cursor) : Prop :=
  ∃ text rest s, es = ⟨.store (.get keys.state), .ok text⟩ :: rest ∧
    IndexState.ofRecord? text = .ok s ∧ s.cursor? = c?

theorem Found.append {keys : RecordKeys} {es : List (Event surroundings)} {c? : Option Cursor}
    (h : Found keys es c?) (es' : List (Event surroundings)) : Found keys (es ++ es') c? := by
  obtain ⟨text, rest, s, rfl, hs, hc⟩ := h
  exact ⟨text, rest ++ es', s, rfl, hs, hc⟩

namespace Indexer

variable {x : Indexer} {t t' : Option String} {es : List (Event surroundings)}

/-- The result of loading the state record, from the answer of the store. -/
def loaded : Except StoreError (Option String) → Except IndexError IndexState
  | .ok text => (IndexState.ofRecord? text).mapError .store
  | .error e => .error (.store e)

theorem loaded_eq_ok {a : Except StoreError (Option String)} {s : IndexState}
    (h : loaded a = .ok s) : ∃ text, a = .ok text ∧ IndexState.ofRecord? text = .ok s := by
  cases a with
  | error e => cases h
  | ok text =>
    refine ⟨text, rfl, ?_⟩
    cases hd : IndexState.ofRecord? text with
    | error e => rw [loaded, hd] at h; cases h
    | ok s' => rw [loaded, hd] at h; cases h; rfl

theorem loadState_run (x : Indexer) :
    x.loadState.run = .call (.store (.get x.keys.state)) fun a => .done (loaded a) := by
  refine congrArg (Program.call (I := surroundings) _) (funext fun a => ?_)
  cases a with
  | error e => rfl
  | ok text =>
    cases text with
    | none => rfl
    | some text =>
      have last (d : Except StoreError IndexState) :
          (Action.stored (((ExceptT.mk (pure d) : StoreAction IndexState) >>= fun s =>
            pure (some s)) >>= fun s => pure (s.getD {}))).run = .done (d.mapError .store) := by
        cases d <;> rfl
      exact last _

/-- Loading the state record, where the texts of some records are known. In a run on a fixed input
this spares reading back what was written before. -/
def loadAmong (x : Indexer) (known : List IndexState) : Action IndexState :=
  ExceptT.mk <| .call (.store (.get x.keys.state)) fun a => .done <|
    match a with
    | .ok text => (IndexState.ofRecordAmong known text).mapError .store
    | .error e => .error (.store e)

theorem loadState_eq_loadAmong (x : Indexer) (known : List IndexState) :
    x.loadState = x.loadAmong known := by
  refine x.loadState_run.trans ?_
  rw [loadAmong, IndexState.ofRecordAmong_eq]
  refine congrArg (Program.call (I := surroundings) _) (funext fun a => ?_)
  cases a <;> rfl

/-- What an operation does after it has loaded the state record. -/
def afterLoad {α : Type} (f : IndexState → Action α) :
    Except IndexError IndexState → Program surroundings (Except IndexError α)
  | .ok s => (f s).run
  | .error e => .done (.error e)

theorem loadState_bind_run {α : Type} (x : Indexer) (f : IndexState → Action α) :
    (x.loadState >>= f).run =
      .call (.store (.get x.keys.state)) fun a => afterLoad f (loaded a) := by
  have goes_on (r : Except IndexError IndexState) :
      ((ExceptT.mk (.done r) : Action IndexState) >>= f).run = afterLoad f r := by
    cases r <;> rfl
  rw [ExceptT.run_bind, loadState_run]
  exact congrArg (Program.call (I := surroundings) _) (funext fun a => goes_on (loaded a))

/-- After a first look at the state record the operation has failed, or goes on with what the
record says. -/
theorem runs_loadState_bind {σ α : Type} {E : Effect surroundings σ} {s s' : σ}
    {f : IndexState → Action α} {r : Except IndexError α}
    (h : Program.Runs E (x.loadState >>= f).run s es r s') :
    (∃ e, r = .error e) ∧ (∃ a, es = [⟨.store (.get x.keys.state), a⟩]) ∨
      ∃ text rest st s₁, es = ⟨.store (.get x.keys.state), .ok text⟩ :: rest ∧
        IndexState.ofRecord? text = .ok st ∧
        E s ⟨.store (.get x.keys.state), .ok text⟩ s₁ ∧ Program.Runs E (f st).run s₁ rest r s' := by
  rw [loadState_bind_run] at h
  obtain ⟨a, s₁, rest, rfl, he, hrest⟩ := runs_call_iff.mp h
  cases hl : loaded a with
  | error e =>
    rw [hl] at hrest
    obtain ⟨rfl, rfl, -⟩ := runs_done_iff.mp hrest
    exact .inl ⟨⟨e, rfl⟩, a, rfl⟩
  | ok st =>
    rw [hl] at hrest
    obtain ⟨text, rfl, hst⟩ := loaded_eq_ok hl
    exact .inr ⟨text, rest, st, s₁, rfl, hst, he, hrest⟩

/-- Where nobody interferes, the first look finds what is stored. -/
theorem found_of_runs {α : Type} {f : IndexState → Action α} {v : α}
    (h : x.Runs (x.loadState >>= f) t es (.ok v) t') :
    ∃ s, IndexState.ofRecord? t = .ok s ∧ Found x.keys es s.cursor? := by
  rcases runs_loadState_bind h with ⟨⟨e, he⟩, -⟩ | ⟨text, rest, s, t₁, rfl, hs, he, -⟩
  · cases he
  · exact ⟨s, he.2 rfl ▸ hs, text, rest, s, rfl, hs, rfl⟩

theorem saveState_run (x : Indexer) (s : IndexState) :
    (x.saveState s).run =
      .call (.store (.set x.keys.state s.text)) fun a => .done (a.mapError .store) :=
  rfl

section

variable {P : IndexerCall → Prop} (x : Indexer) (get : P (.store (.get x.keys.state)))

include get

theorem calls_loadState : x.loadState.Calls P := by
  rw [Action.Calls, Action.Gives, loadState_run]
  exact ⟨get, fun _ _ _ => trivial⟩

theorem calls_requireRun (run : RunId) : (x.requireRun run).Calls P :=
  (calls_loadState x get).bind fun _ => Action.calls_require _ _

omit get in
theorem calls_saveState {s : IndexState} (set : P (.store (.set x.keys.state s.text))) :
    (x.saveState s).Calls P := by
  rw [Action.Calls, Action.Gives, saveState_run]
  exact ⟨set, fun _ _ _ => trivial⟩

theorem calls_persist {c : Cursor}
    (set : P (.store (.set x.keys.state (IndexState.running c).text))) : (x.persist c).Calls P :=
  (calls_requireRun x get c.run).bind fun _ => calls_saveState x set

end

/-- A state record that was loaded is the one that is stored. -/
theorem runs_loadState {r : Except IndexError IndexState} (h : x.Runs x.loadState t es r t') :
    t' = t ∧ notes es = [] ∧ ∀ s, r = .ok s → IndexState.ofRecord? t = .ok s := by
  unfold Runs at h
  rw [loadState_run] at h
  obtain ⟨a, t₁, es', rfl, he, h⟩ := runs_call_iff.mp h
  obtain ⟨rfl, rfl, rfl⟩ := runs_done_iff.mp h
  cases a with
  | error e => exact ⟨he, rfl, fun s hs => by cases hs⟩
  | ok text =>
    obtain ⟨ht, htext⟩ := he
    refine ⟨ht, rfl, fun s hs => ?_⟩
    obtain ⟨text', ha, hs⟩ := loaded_eq_ok hs
    cases ha
    rwa [← htext rfl]

/-- A save that succeeds leaves its record, and one that fails leaves what there was. -/
theorem saves_saveState (x : Indexer) (s : IndexState) : x.Saves (x.saveState s) s.text := by
  intro t es r t' h
  obtain ⟨a, t₁, es', rfl, he, h⟩ := runs_call_iff.mp h
  obtain ⟨rfl, rfl, rfl⟩ := runs_done_iff.mp h
  cases a with
  | error e => exact .inl ⟨⟨_, rfl⟩, he⟩
  | ok u => exact .inr ⟨rfl, rfl, Eq.trans he (if_pos rfl)⟩

theorem quiet_requireRun (x : Indexer) (run : RunId) : x.Quiet (x.requireRun run) := by
  intro t es r t' h
  rcases runs_bind_except.mp h with ⟨e, h₁, rfl⟩ | ⟨s, t₁, es₁, es₂, rfl, h₁, h₂⟩
  · exact ⟨(runs_loadState h₁).1, (runs_loadState h₁).2.1⟩
  · obtain ⟨rfl, hn, -⟩ := runs_loadState h₁
    obtain ⟨ht, hn₂⟩ := quiet_aside (Action.calls_require _ _) h₂
    exact ⟨ht, by rw [notes_append, hn, hn₂, List.append_nil]⟩

/-- The position of a run is saved after a look whether the run is still named. -/
theorem saves_persist (x : Indexer) (c : Cursor) :
    x.Saves (x.persist c) (IndexState.running c).text := by
  intro t es r t' h
  rcases (quiet_requireRun x c.run).runs_bind h with ⟨he, rfl⟩ | ⟨u, es', hn, h⟩
  · exact .inl ⟨he, rfl⟩
  · rcases saves_saveState x _ h with h | ⟨rfl, hn', rfl⟩
    · exact .inl h
    · exact .inr ⟨rfl, hn.trans hn', rfl⟩

end Indexer
end ContentIndex
