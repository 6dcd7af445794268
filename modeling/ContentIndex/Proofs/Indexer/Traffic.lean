import ContentIndex.Proofs.Indexer.Calls

/-
  What an operation exchanges with the engine and fetches from the content store, in order. Calls
  of other kinds (pauses, measurements, the clock and so on) are no traffic: an operation that
  makes one goes on as if it had begun behind it, as long as only store calls matter to the state
  (`Idle`). So the rules here hold for every effect that looks at the store alone.
-/

namespace ContentIndex

open Program (runs_bind_except runs_call_iff runs_done_iff)

/-- A request and the answer to it. -/
structure Exchange where
  request : Engine.Request
  answer : Except Engine.TransportError Engine.Response

/-- An item that was asked for, and what the content store gave. -/
structure Fetch where
  id : UInt64
  answer : Except ContentError (Option Document)

namespace Event

def exchange? : Event surroundings → Option Exchange
  | ⟨.engine r, a⟩ => some ⟨r, a⟩
  | _ => none

def fetch? : Event surroundings → Option Fetch
  | ⟨.content (.prepare id), a⟩ => some ⟨id, a⟩
  | _ => none

/-- What the host was told of failures. -/
def report? : Event surroundings → Option FailureReport
  | ⟨.notify r, _⟩ => some r
  | _ => none

def isStore : Event surroundings → Bool
  | ⟨.store _, _⟩ => true
  | _ => false

/-- A call that the store did not carry out. -/
def isFault : Event surroundings → Bool
  | ⟨.store (.get _), .error _⟩ | ⟨.store (.set _ _), .error _⟩
  | ⟨.store (.delete _), .error _⟩ => true
  | _ => false

end Event

def exchanges (es : List (Event surroundings)) : List Exchange :=
  es.filterMap Event.exchange?

def fetches (es : List (Event surroundings)) : List Fetch :=
  es.filterMap Event.fetch?

/-- A call that goes to the store, to the engine or after an item. -/
def Event.isTraffic (e : Event surroundings) : Bool :=
  e.isStore || e.exchange?.isSome || e.fetch?.isSome

def traffic (es : List (Event surroundings)) : List (Event surroundings) :=
  es.filter Event.isTraffic

variable {σ : Type} {E : Effect surroundings σ} {s s' : σ} {es es' : List (Event surroundings)}

/-! ## Traffic -/

@[simp] theorem exchanges_nil : exchanges [] = [] := rfl
@[simp] theorem fetches_nil : fetches [] = [] := rfl
@[simp] theorem traffic_nil : traffic [] = [] := rfl

@[simp] theorem exchanges_append : exchanges (es ++ es') = exchanges es ++ exchanges es' :=
  List.filterMap_append

@[simp] theorem fetches_append : fetches (es ++ es') = fetches es ++ fetches es' :=
  List.filterMap_append

@[simp] theorem traffic_append : traffic (es ++ es') = traffic es ++ traffic es' :=
  List.filter_append _ _

/-- What is read off the traffic alone is read off it as off all events. -/
theorem filterMap_traffic {α : Type} {f : Event surroundings → Option α}
    (hf : ∀ e, (f e).isSome = true → e.isTraffic = true) (es : List (Event surroundings)) :
    (traffic es).filterMap f = es.filterMap f := by
  unfold traffic
  rw [List.filterMap_filter]
  congr 1
  funext e
  cases h : f e with
  | none => simp
  | some a => rw [hf e (by rw [h]; rfl), if_pos rfl]

theorem exchanges_traffic (es : List (Event surroundings)) :
    exchanges (traffic es) = exchanges es := by
  refine filterMap_traffic (fun e he => ?_) es
  unfold Event.isTraffic
  rw [he, Bool.or_true, Bool.true_or]

theorem fetches_traffic (es : List (Event surroundings)) : fetches (traffic es) = fetches es := by
  refine filterMap_traffic (fun e he => ?_) es
  unfold Event.isTraffic
  rw [he, Bool.or_true]

/-- The same traffic has the same exchanges. -/
theorem exchanges_congr (h : traffic es = traffic es') : exchanges es = exchanges es' := by
  rw [← exchanges_traffic, h, exchanges_traffic]

theorem fetches_congr (h : traffic es = traffic es') : fetches es = fetches es' := by
  rw [← fetches_traffic, h, fetches_traffic]

theorem Event.isTraffic_of_isFault {e : Event surroundings} (h : e.isFault = true) :
    e.isTraffic = true := by
  obtain ⟨c, a⟩ := e
  cases c with
  | store c => rfl
  | _ => cases h

theorem mem_of_mem_traffic {e : Event surroundings} (h : e ∈ traffic es) : e ∈ es :=
  (List.mem_filter.mp h).1

/-- What makes no exchange adds none. -/
theorem exchanges_eq_nil (h : ∀ e ∈ es, e.exchange? = none) : exchanges es = [] :=
  List.filterMap_eq_nil_iff.mpr h

theorem fetches_eq_nil (h : ∀ e ∈ es, e.fetch? = none) : fetches es = [] :=
  List.filterMap_eq_nil_iff.mpr h

/-! ## Effects on the store alone -/

/-- Only calls of the store change the state. -/
def Idle (E : Effect surroundings σ) : Prop :=
  ∀ ⦃s e s'⦄, E s e s' → e.isStore = false → s' = s

theorem idle_anyAnswer : Idle (Program.anyAnswer surroundings) := fun _ _ _ _ _ => rfl

/-- A call that is no traffic. -/
def Silent : IndexerCall → Prop
  | .store _ | .engine _ | .content (.prepare _) => False
  | _ => True

theorem Silent.isTraffic {e : Event surroundings} (h : Silent e.call) : e.isTraffic = false := by
  obtain ⟨c, a⟩ := e
  cases c with
  | store c => exact h.elim
  | engine r => exact h.elim
  | content c =>
    cases c with
    | prepare id => exact h.elim
    | _ => rfl
  | _ => rfl

theorem Silent.isStore {e : Event surroundings} (h : Silent e.call) : e.isStore = false := by
  have ht := h.isTraffic
  unfold Event.isTraffic at ht
  simp only [Bool.or_eq_false_iff] at ht
  exact ht.1.1

/-! ## Ways to run -/

section

variable {α β : Type} {r : Except IndexError β}

/-- An operation that is run for its effect alone yields its value unless it fails. -/
theorem runs_bind_pure {a : Action α} {v : β}
    (h : Program.Runs E (a >>= fun _ => (pure v : Action β)).run s es r s') :
    ∃ u, Program.Runs E a.run s es u s' ∧ r = u.map fun _ => v := by
  rcases runs_bind_except.mp h with ⟨e, h₁, rfl⟩ | ⟨u, s₁, es₁, es₂, rfl, h₁, h₂⟩
  · exact ⟨.error e, h₁, rfl⟩
  · obtain ⟨rfl, rfl, rfl⟩ := runs_done_iff.mp h₂
    exact ⟨.ok u, by rwa [List.append_nil], rfl⟩

theorem runs_ask_bind {c : IndexerCall} {f : surroundings.Answer c → Action β}
    (h : Program.Runs E (Action.ask c >>= f).run s es r s') :
    ∃ a s₁ es', es = ⟨c, a⟩ :: es' ∧ E s ⟨c, a⟩ s₁ ∧ Program.Runs E (f a).run s₁ es' r s' :=
  runs_call_iff.mp h

theorem runs_silent_ask_bind (hE : Idle E) {c : IndexerCall} (hc : Silent c)
    {f : surroundings.Answer c → Action β}
    (h : Program.Runs E (Action.ask c >>= f).run s es r s') :
    ∃ a es', traffic es = traffic es' ∧ Program.Runs E (f a).run s es' r s' := by
  obtain ⟨a, s₁, es', rfl, he, h⟩ := runs_ask_bind h
  have hs : s₁ = s := hE he (Silent.isStore hc)
  rw [hs] at h
  refine ⟨a, es', ?_, h⟩
  unfold traffic
  rw [List.filter_cons_of_neg]
  rw [Silent.isTraffic hc]
  exact Bool.false_ne_true

theorem runs_measure_bind (hE : Idle E) {m : Measurement} {f : Unit → Action β}
    (h : Program.Runs E (Action.measure m >>= f).run s es r s') :
    ∃ es', traffic es = traffic es' ∧ Program.Runs E (f ()).run s es' r s' := by
  obtain ⟨_, es', ht, h⟩ := runs_silent_ask_bind hE (c := .measure m) trivial h
  exact ⟨es', ht, h⟩

theorem runs_pause_bind (hE : Idle E) {n : Nat} {f : Unit → Action β}
    (h : Program.Runs E (Action.pause n >>= f).run s es r s') :
    ∃ es', traffic es = traffic es' ∧ Program.Runs E (f ()).run s es' r s' := by
  cases n with
  | zero => exact ⟨es, rfl, h⟩
  | succ n =>
    obtain ⟨_, es', ht, h⟩ := runs_silent_ask_bind hE (c := .wait (n + 1)) trivial h
    exact ⟨es', ht, h⟩

/-- An exchange that does not end the operation whatever its answer is. -/
theorem runs_send_bind (hE : Idle E) {q : Engine.Request}
    {f : Except Engine.TransportError Engine.Response → Action β}
    (h : Program.Runs E (Action.send q >>= f).run s es r s') :
    ∃ a es', traffic es = ⟨.engine q, a⟩ :: traffic es' ∧ Program.Runs E (f a).run s es' r s' := by
  obtain ⟨a, s₁, es', rfl, he, h⟩ := runs_ask_bind (c := .engine q) h
  have hs : s₁ = s := hE he rfl
  rw [hs] at h
  exact ⟨a, es', rfl, h⟩

/-- An operation that yields a value does so at once. -/
theorem runs_value_iff {v : β} :
    Program.Runs E (pure v : Action β).run s es r s' ↔ es = [] ∧ r = .ok v ∧ s' = s :=
  runs_done_iff

end
end ContentIndex
