/-
  Programs that call their surroundings. An `Interface` lists the calls and the type of each answer;
  a program either is done or makes a call and goes on with the answer. What a program does is
  thus a value: it can be run by any handler of its calls, and it can be taken step by step
  between the calls of other programs.
-/

namespace ContentIndex

/-- The calls that a program may make, and the answers to them. -/
structure Interface where
  Call : Type
  Answer : Call → Type

/-- A program that yields an `α`. -/
inductive Program (I : Interface) (α : Type) where
  | done (a : α)
  | call (c : I.Call) (next : I.Answer c → Program I α)

namespace Program

variable {I : Interface} {α β γ : Type}

/-- Goes on with another program. -/
def andThen (p : Program I α) (f : α → Program I β) : Program I β :=
  match p with
  | done a => f a
  | call c next => call c fun r => (next r).andThen f

instance : Monad (Program I) where
  pure := done
  bind := andThen

/-- One call. -/
def perform (c : I.Call) : Program I (I.Answer c) :=
  call c done

/-- Runs a program with a handler of its calls. -/
def run {m : Type → Type} [Monad m] (handle : (c : I.Call) → m (I.Answer c)) :
    Program I α → m α
  | done a => pure a
  | call c next => do
    let r ← handle c
    run handle (next r)

/-! ## Laws -/

@[simp] theorem pure_eq (a : α) : (pure a : Program I α) = done a := rfl

@[simp] theorem bind_done (a : α) (f : α → Program I β) : (done a : Program I α) >>= f = f a := rfl

@[simp] theorem bind_call (c : I.Call) (next : I.Answer c → Program I α) (f : α → Program I β) :
    call c next >>= f = call c fun r => next r >>= f := rfl

theorem bind_pure_self (p : Program I α) : p >>= done = p := by
  induction p with
  | done a => rfl
  | call c next ih =>
    rw [bind_call]
    exact congrArg _ (funext ih)

theorem bind_bind (p : Program I α) (f : α → Program I β) (g : β → Program I γ) :
    p >>= f >>= g = p >>= fun a => f a >>= g := by
  induction p with
  | done a => rfl
  | call c next ih =>
    rw [bind_call, bind_call, bind_call]
    exact congrArg _ (funext ih)

instance : LawfulMonad (Program I) :=
  LawfulMonad.mk' (Program I) bind_pure_self (fun _ _ => rfl) bind_bind

/-- A program in two parts is run part by part. -/
theorem run_bind {m : Type → Type} [Monad m] [LawfulMonad m]
    (handle : (c : I.Call) → m (I.Answer c)) (p : Program I α) (f : α → Program I β) :
    (p >>= f).run handle = p.run handle >>= fun a => (f a).run handle := by
  induction p with
  | done a => simp [run]
  | call c next ih => simp [run, ih]

end Program
end ContentIndex
