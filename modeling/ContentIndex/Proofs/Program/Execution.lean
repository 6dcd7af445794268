import ContentIndex.Program

/-
  Executions of programs, one call after another. An `Effect` says which answers a state allows
  to a call and what the state is afterwards; `Moves` takes a program from one point to another
  by a list of events, and `Runs` takes it to its end. Both split at a bind (`moves_bind_iff`,
  `runs_bind_iff`), and `runs_bind_except` does so for programs that may end in an error.

  `Always` is the other view: whatever the answers are, all calls satisfy one predicate and all
  results another. `Always.of_moves` carries it to every execution, and `moves_frame` says that
  calls which leave something alone leave it alone all together. A handler of the calls gives one
  execution, its `trace`.
-/

namespace ContentIndex

/-- A call and the answer to it. -/
structure Event (I : Interface) where
  call : I.Call
  answer : I.Answer call

/-- The states before and after an event. -/
abbrev Effect (I : Interface) (σ : Type) := σ → Event I → σ → Prop

namespace Program

variable {I : Interface} {σ α β ε : Type} {E : Effect I σ}

/-- From one point of a program to another, by the events in between. -/
inductive Moves (E : Effect I σ) : Program I α → σ → List (Event I) → Program I α → σ → Prop
  | refl (p : Program I α) (s : σ) : Moves E p s [] p s
  | call {c : I.Call} {next : I.Answer c → Program I α} {r : I.Answer c} {s s₁ s' : σ}
      {es : List (Event I)} {q : Program I α} :
      E s ⟨c, r⟩ s₁ → Moves E (next r) s₁ es q s' → Moves E (call c next) s (⟨c, r⟩ :: es) q s'

/-- To the end of a program. -/
def Runs (E : Effect I σ) (p : Program I α) (s : σ) (es : List (Event I)) (a : α) (s' : σ) :
    Prop :=
  Moves E p s es (done a) s'

/-! ## Points of a program -/

theorem Moves.append {p q t : Program I α} {s s₁ s' : σ} {es es' : List (Event I)}
    (h : Moves E p s es q s₁) (h' : Moves E q s₁ es' t s') : Moves E p s (es ++ es') t s' := by
  induction h with
  | refl => exact h'
  | call e _ ih => exact .call e (ih h')

theorem moves_done {a : α} {q : Program I α} {s s' : σ} {es : List (Event I)}
    (h : Moves E (done a) s es q s') : es = [] ∧ q = done a ∧ s' = s := by
  cases h
  exact ⟨rfl, rfl, rfl⟩

theorem runs_done_iff {a b : α} {s s' : σ} {es : List (Event I)} :
    Runs E (done a) s es b s' ↔ es = [] ∧ b = a ∧ s' = s := by
  constructor
  · intro h
    obtain ⟨he, hq, hs⟩ := moves_done h
    exact ⟨he, by cases hq; rfl, hs⟩
  · rintro ⟨rfl, rfl, rfl⟩
    exact .refl _ _

theorem runs_call_iff {c : I.Call} {next : I.Answer c → Program I α} {a : α} {s s' : σ}
    {es : List (Event I)} :
    Runs E (call c next) s es a s' ↔
      ∃ r s₁ es', es = ⟨c, r⟩ :: es' ∧ E s ⟨c, r⟩ s₁ ∧ Runs E (next r) s₁ es' a s' := by
  constructor
  · intro h
    cases h with
    | call he h => exact ⟨_, _, _, rfl, he, h⟩
  · rintro ⟨r, s₁, es', rfl, he, h⟩
    exact .call he h

theorem Moves.bind {p q : Program I α} {s s' : σ} {es : List (Event I)} (f : α → Program I β)
    (h : Moves E p s es q s') : Moves E (p >>= f) s es (q >>= f) s' := by
  induction h with
  | refl => exact .refl _ _
  | call e _ ih => exact .call e ih

/-- What happens by one effect happens by another one, to the part of the state that it is about. -/
theorem Moves.map {τ : Type} {F : Effect I τ} (part : σ → τ)
    (hF : ∀ s e s', E s e s' → F (part s) e (part s')) {p q : Program I α} {s s' : σ}
    {es : List (Event I)} (h : Moves E p s es q s') : Moves F p (part s) es q (part s') := by
  induction h with
  | refl => exact .refl _ _
  | call e _ ih => exact .call (hF _ _ _ e) ih

/-- Any answer to any call. -/
def anyAnswer (I : Interface) : Effect I Unit := fun _ _ _ => True

/-- An execution, whatever it does to the state. -/
theorem Runs.forget {p : Program I α} {a : α} {s s' : σ} {es : List (Event I)}
    (h : Runs E p s es a s') : Runs (anyAnswer I) p () es a () :=
  Moves.map (fun _ => ()) (fun _ _ _ _ => trivial) h

/-- A point of a program in two parts lies in the first part or in the second. -/
theorem moves_bind_iff {p : Program I α} {f : α → Program I β} {q : Program I β} {s s' : σ}
    {es : List (Event I)} :
    Moves E (p >>= f) s es q s' ↔
      (∃ p', Moves E p s es p' s' ∧ q = p' >>= f) ∨
      ∃ a s₁ es₁ es₂, es = es₁ ++ es₂ ∧ Runs E p s es₁ a s₁ ∧ Moves E (f a) s₁ es₂ q s' := by
  constructor
  · intro h
    induction p generalizing s es with
    | done a => exact .inr ⟨a, s, [], es, rfl, .refl _ _, h⟩
    | call c next ih =>
      rw [bind_call] at h
      cases h with
      | refl => exact .inl ⟨_, .refl _ _, rfl⟩
      | call he h =>
        rcases ih _ h with ⟨p', hp, hq⟩ | ⟨a, s₁, es₁, es₂, rfl, h₁, h₂⟩
        · exact .inl ⟨p', .call he hp, hq⟩
        · exact .inr ⟨a, s₁, _ :: es₁, es₂, rfl, .call he h₁, h₂⟩
  · rintro (⟨p', hp, rfl⟩ | ⟨a, s₁, es₁, es₂, rfl, h₁, h₂⟩)
    · exact hp.bind f
    · exact Moves.append (h₁.bind f) h₂

theorem bind_eq_done {p : Program I α} {f : α → Program I β} {b : β} (h : p >>= f = done b) :
    ∃ a, p = done a ∧ f a = done b := by
  cases p with
  | done a => exact ⟨a, rfl, h⟩
  | call c next => cases h

/-- A program in two parts runs part by part. -/
theorem runs_bind_iff {p : Program I α} {f : α → Program I β} {b : β} {s s' : σ}
    {es : List (Event I)} :
    Runs E (p >>= f) s es b s' ↔
      ∃ a s₁ es₁ es₂, es = es₁ ++ es₂ ∧ Runs E p s es₁ a s₁ ∧ Runs E (f a) s₁ es₂ b s' := by
  constructor
  · intro h
    rcases moves_bind_iff.mp h with ⟨p', hp, hq⟩ | h
    · obtain ⟨a, rfl, ha⟩ := bind_eq_done hq.symm
      exact ⟨a, s', es, [], (List.append_nil es).symm, hp, ha ▸ .refl _ _⟩
    · exact h
  · intro h
    exact moves_bind_iff.mpr (.inr h)

/-- The first part of a program that may end in an error does so, or hands its value on. -/
theorem runs_bind_except {a : ExceptT ε (Program I) α} {f : α → ExceptT ε (Program I) β}
    {r : Except ε β} {s s' : σ} {es : List (Event I)} :
    Runs E (a >>= f).run s es r s' ↔
      (∃ e, Runs E a.run s es (.error e) s' ∧ r = .error e) ∨
      ∃ v s₁ es₁ es₂, es = es₁ ++ es₂ ∧ Runs E a.run s es₁ (.ok v) s₁ ∧
        Runs E (f v).run s₁ es₂ r s' := by
  rw [ExceptT.run_bind, runs_bind_iff]
  constructor
  · rintro ⟨x, s₁, es₁, es₂, rfl, h₁, h₂⟩
    cases x with
    | error e =>
      obtain ⟨rfl, rfl, rfl⟩ := runs_done_iff.mp h₂
      exact .inl ⟨e, by rwa [List.append_nil], rfl⟩
    | ok v => exact .inr ⟨v, s₁, es₁, es₂, rfl, h₁, h₂⟩
  · rintro (⟨e, h, rfl⟩ | ⟨v, s₁, es₁, es₂, rfl, h₁, h₂⟩)
    · exact ⟨.error e, s', es, [], (List.append_nil es).symm, h, .refl _ _⟩
    · exact ⟨.ok v, s₁, es₁, es₂, rfl, h₁, h₂⟩

/-- A value is yielded part by part. -/
theorem runs_bind_ok {a : ExceptT ε (Program I) α} {f : α → ExceptT ε (Program I) β} {w : β}
    {s s' : σ} {es : List (Event I)} (h : Runs E (a >>= f).run s es (.ok w) s') :
    ∃ v s₁ es₁ es₂, es = es₁ ++ es₂ ∧ Runs E a.run s es₁ (.ok v) s₁ ∧
      Runs E (f v).run s₁ es₂ (.ok w) s' := by
  rcases runs_bind_except.mp h with ⟨e, -, he⟩ | h
  · cases he
  · exact h

/-- One call is one event. -/
theorem runs_perform_iff {c : I.Call} {a : I.Answer c} {s s' : σ} {es : List (Event I)} :
    Runs E (perform c) s es a s' ↔ es = [⟨c, a⟩] ∧ E s ⟨c, a⟩ s' := by
  unfold perform
  rw [runs_call_iff]
  constructor
  · rintro ⟨r, s₁, es', rfl, he, h⟩
    obtain ⟨rfl, rfl, rfl⟩ := runs_done_iff.mp h
    exact ⟨rfl, he⟩
  · rintro ⟨rfl, he⟩
    exact ⟨a, s', [], rfl, he, .refl _ _⟩

/-- A value that is computed from that of a program, unless the program ends in an error. -/
theorem runs_map_except {a : ExceptT ε (Program I) α} {f : α → β} {r : Except ε β} {s s' : σ}
    {es : List (Event I)} (h : Runs E (a >>= fun v => pure (f v)).run s es r s') :
    ∃ x, Runs E a.run s es x s' ∧ r = x.map f := by
  rcases runs_bind_except.mp h with ⟨e, h₁, rfl⟩ | ⟨v, s₁, es₁, es₂, rfl, h₁, h₂⟩
  · exact ⟨.error e, h₁, rfl⟩
  · obtain ⟨rfl, rfl, rfl⟩ := runs_done_iff.mp h₂
    exact ⟨.ok v, by rwa [List.append_nil], rfl⟩

/-! ## All executions -/

/-- Whatever the answers, each call satisfies `P` and the result satisfies `Q`. -/
def Always (P : I.Call → Prop) (Q : α → Prop) : Program I α → Prop
  | done a => Q a
  | call c next => P c ∧ ∀ r, (next r).Always P Q

variable {P P' : I.Call → Prop} {Q Q' : α → Prop} {R : β → Prop}

theorem Always.mono {p : Program I α} (h : p.Always P Q) (hP : ∀ c, P c → P' c)
    (hQ : ∀ a, Q a → Q' a) : p.Always P' Q' := by
  induction p with
  | done a => exact hQ a h
  | call c next ih => exact ⟨hP c h.1, fun r => ih r (h.2 r)⟩

theorem Always.bind {p : Program I α} {f : α → Program I β} (h : p.Always P Q)
    (hf : ∀ a, Q a → (f a).Always P R) : (p >>= f).Always P R := by
  induction p with
  | done a => exact hf a h
  | call c next ih => exact ⟨h.1, fun r => ih r (h.2 r)⟩

theorem Always.bind_except {Q : Except ε α → Prop} {R : Except ε β → Prop}
    {a : ExceptT ε (Program I) α} {f : α → ExceptT ε (Program I) β}
    (h : a.run.Always P Q) (hf : ∀ v, Q (.ok v) → (f v).run.Always P R)
    (he : ∀ e, Q (.error e) → R (.error e)) : (a >>= f).run.Always P R := by
  rw [ExceptT.run_bind]
  refine Always.bind h fun x hx => ?_
  cases x with
  | error e => exact he e hx
  | ok v => exact hf v hx

/-- What holds of all executions holds of one up to any point of it, and from there on. -/
theorem Always.of_moves {p q : Program I α} {s s' : σ} {es : List (Event I)}
    (h : p.Always P Q) (hm : Moves E p s es q s') :
    (∀ e ∈ es, P e.call) ∧ q.Always P Q := by
  induction hm with
  | refl => exact ⟨by simp, h⟩
  | call _ _ ih =>
    obtain ⟨hes, hq⟩ := ih (h.2 _)
    exact ⟨by simpa using ⟨h.1, hes⟩, hq⟩

theorem Always.of_runs {p : Program I α} {a : α} {s s' : σ} {es : List (Event I)}
    (h : p.Always P Q) (hr : Runs E p s es a s') : (∀ e ∈ es, P e.call) ∧ Q a :=
  h.of_moves hr

/-- What every call keeps is kept on the way from one point to another. -/
theorem moves_frame {p q : Program I α} {s s' : σ} {es : List (Event I)} (Inv : σ → Prop)
    (keep : ∀ s e s', P e.call → E s e s' → Inv s → Inv s')
    (hm : Moves E p s es q s') (h : ∀ e ∈ es, P e.call) (hs : Inv s) : Inv s' := by
  induction hm with
  | refl => exact hs
  | call he _ ih =>
    have h₁ := keep _ _ _ (h _ List.mem_cons_self) he hs
    exact ih (fun e he => h e (List.mem_cons_of_mem _ he)) h₁

/-! ## Executions whose answers are of one kind -/

/-- If all answers satisfy `S`, the result satisfies `Q`. -/
def Yields (S : Event I → Prop) (Q : α → Prop) : Program I α → Prop
  | done a => Q a
  | call c next => ∀ r, S ⟨c, r⟩ → (next r).Yields S Q

variable {S : Event I → Prop}

theorem Yields.bind {p : Program I α} {f : α → Program I β} (h : p.Yields S Q)
    (hf : ∀ a, Q a → (f a).Yields S R) : (p >>= f).Yields S R := by
  induction p with
  | done a => exact hf a h
  | call c next ih => exact fun r hr => ih r (h r hr)

theorem Yields.of_runs {p : Program I α} {a : α} {s s' : σ} {es : List (Event I)}
    (h : p.Yields S Q) (hr : Runs E p s es a s') (hes : ∀ e ∈ es, S e) : Q a := by
  induction p generalizing s es with
  | done b =>
    obtain ⟨-, rfl, -⟩ := runs_done_iff.mp hr
    exact h
  | call c next ih =>
    obtain ⟨r, s₁, es', rfl, -, hr⟩ := runs_call_iff.mp hr
    have first : S ⟨c, r⟩ := hes _ List.mem_cons_self
    exact ih r (h r first) hr fun e he => hes e (List.mem_cons_of_mem _ he)

/-- If all answers satisfy `S`, there is a value, and it satisfies `Q`. -/
def Succeeds (S : Event I → Prop) (Q : α → Prop) (a : ExceptT ε (Program I) α) : Prop :=
  a.run.Yields S fun r => ∃ v, r = .ok v ∧ Q v

theorem succeeds_pure {v : α} (h : Q v) : Succeeds S Q (pure v : ExceptT ε (Program I) α) :=
  ⟨v, rfl, h⟩

theorem Succeeds.bind {a : ExceptT ε (Program I) α} {f : α → ExceptT ε (Program I) β}
    (h : Succeeds S Q a) (hf : ∀ v, Q v → Succeeds S R (f v)) : Succeeds S R (a >>= f) := by
  rw [Succeeds, ExceptT.run_bind]
  refine Yields.bind h fun r hr => ?_
  obtain ⟨v, rfl, hv⟩ := hr
  exact hf v hv

/-- When a part that succeeds has run, the rest is to run. -/
theorem Succeeds.runs_bind {a : ExceptT ε (Program I) α} {f : α → ExceptT ε (Program I) β}
    {r : Except ε β} {s s' : σ} {es : List (Event I)} (h : Succeeds S Q a)
    (hr : Runs E (a >>= f).run s es r s') (hes : ∀ e ∈ es, S e) :
    ∃ v s₁ es₁ es₂, es = es₁ ++ es₂ ∧ Q v ∧ Runs E a.run s es₁ (.ok v) s₁ ∧
      Runs E (f v).run s₁ es₂ r s' := by
  rcases runs_bind_except.mp hr with ⟨e, h₁, rfl⟩ | ⟨v, s₁, es₁, es₂, rfl, h₁, h₂⟩
  · obtain ⟨v, hv, -⟩ := Yields.of_runs h h₁ hes
    cases hv
  · obtain ⟨w, hw, hQ⟩ := Yields.of_runs h h₁ fun e he => hes e (List.mem_append_left _ he)
    cases hw
    exact ⟨v, s₁, es₁, es₂, rfl, hQ, h₁, h₂⟩

/-! ## Handlers -/

/-- The events when a handler answers all calls, the value in the end, and the state then. -/
def trace (handle : (c : I.Call) → σ → I.Answer c × σ) :
    Program I α → σ → List (Event I) × α × σ
  | done a, s => ([], a, s)
  | call c next, s =>
    let (es, a, s') := (next (handle c s).1).trace handle (handle c s).2
    (⟨c, (handle c s).1⟩ :: es, a, s')

/-- A program in two parts is answered part by part. -/
theorem trace_bind (handle : (c : I.Call) → σ → I.Answer c × σ) (p : Program I α)
    (f : α → Program I β) (s : σ) :
    ((p >>= f).trace handle s).2 =
      ((f (p.trace handle s).2.1).trace handle (p.trace handle s).2.2).2 := by
  induction p generalizing s with
  | done a => rfl
  | call c next ih => exact ih _ _

variable {τ : Type} {F : Effect I τ} {handle : (c : I.Call) → σ → I.Answer c × σ}

/-- With a handler that does to a part of its state what the effect says, programs run. -/
theorem runs_trace (part : σ → τ)
    (h : ∀ c s, F (part s) ⟨c, (handle c s).1⟩ (part (handle c s).2)) (p : Program I α) (s : σ) :
    Runs F p (part s) (p.trace handle s).1 (p.trace handle s).2.1
      (part (p.trace handle s).2.2) := by
  induction p generalizing s with
  | done a => exact .refl _ _
  | call c next ih => exact .call (h c s) (ih _ _)

/-- What a handler keeps, and what its answers show as long as it is kept, all events show. -/
theorem forall_trace (P : Event I → Prop) (Inv : σ → Prop)
    (h : ∀ c s, Inv s → P ⟨c, (handle c s).1⟩ ∧ Inv (handle c s).2) (p : Program I α) {s : σ}
    (hs : Inv s) : ∀ e ∈ (p.trace handle s).1, P e := by
  induction p generalizing s with
  | done a =>
    intro e he
    cases he
  | call c next ih =>
    obtain ⟨hP, hs'⟩ := h c s hs
    intro e he
    rcases List.mem_cons.mp he with rfl | he
    · exact hP
    · exact ih _ hs' e he

/-- What a handler does to a program is what it yields when it is run. -/
theorem run_eq_trace (p : Program I α) (s : σ) :
    p.run (m := StateM σ) (fun c s => pure (handle c s)) s = (p.trace handle s).2 := by
  induction p generalizing s with
  | done a => rfl
  | call c next ih => exact ih _ _

end Program
end ContentIndex
