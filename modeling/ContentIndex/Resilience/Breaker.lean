import ContentIndex.Metrics
import ContentIndex.Number.Single

/-
  Circuit breakers. A closed breaker lets every call through and watches the share of failures among
  the last results; an open one rejects calls until its wait is over, and then a half-open one
  tries a few. A share counts only once its window has been filled before. Moments are given by
  the caller.
-/

namespace ContentIndex

open Number (Single)

structure BreakerConfig where
  errorRate : Single := .ofRatio 1 2
  closedWindow : Nat := 5
  halfOpenWindow : Nat := 2
  /-- How long an open breaker rejects calls, in nanoseconds. -/
  openWait : Nat := 30000000000
deriving DecidableEq

/-- The last results, newest first, and how many of them are kept. -/
structure Window where
  size : Nat
  results : List Bool := []
deriving DecidableEq, Repr

/-- Adds a result, and gives the share of failures if the window was full before. -/
def Window.record (w : Window) (success : Bool) : Window × Option Single :=
  let results := (success :: w.results).take w.size
  let rate := Single.ofRatio (results.countP (· == false)) w.size
  (⟨w.size, results⟩, if w.size ≤ w.results.length then some rate else none)

inductive Breaker where
  | closed (window : Window)
  | opened (deadline : Nat)
  | halfOpen (window : Window)
deriving DecidableEq, Repr

namespace Breaker

def fresh (c : BreakerConfig) : Breaker :=
  .closed ⟨c.closedWindow, []⟩

/-- The breaker as it lets a call through; none if it rejects it. -/
def pass? (c : BreakerConfig) (now : Nat) : Breaker → Option Breaker
  | .opened u => if u < now then some (.halfOpen ⟨c.halfOpenWindow, []⟩) else none
  | b => some b

/-- The breaker after the result of a call that it let through. -/
def record (c : BreakerConfig) (now : Nat) (success : Bool) : Breaker → Breaker
  | .closed w =>
    let (w, rate) := w.record success
    match rate with
    | some r => if c.errorRate.le r then .opened (now + c.openWait) else .closed w
    | none => .closed w
  | .halfOpen w =>
    let (w, rate) := w.record success
    match rate with
    | some r =>
      if success then if r.le c.errorRate then fresh c else .halfOpen w
      else if c.errorRate.le r then .opened (now + c.openWait)
      else .halfOpen w
    | none => .halfOpen w
  | b => b

end Breaker

/-! ## One breaker for each host -/

/-- A kind of breaker. It is asked for each call whether it lets the call through, and told of the
result if it does. -/
structure BreakerKind where
  State : Type
  fresh : BreakerConfig → State
  ask : BreakerConfig → (now : Nat) → State → State × Bool
  tell : BreakerConfig → (now : Nat) → (success : Bool) → State → State

/-- The breakers above. -/
abbrev Breaker.kind : BreakerKind where
  State := Breaker
  fresh := Breaker.fresh
  ask c now b :=
    match b.pass? c now with
    | some b => (b, true)
    | none => (b, false)
  tell := Breaker.record

/-- A host's breaker, and how many of its calls were rejected. -/
structure HostCircuit (State : Type) where
  breaker : State
  rejected : UInt64 := 0
deriving DecidableEq, Repr

/-- The breakers of the hosts that were called. -/
structure HostCircuits (k : BreakerKind := Breaker.kind) where
  config : BreakerConfig := {}
  circuits : SortedMap (HostCircuit k.State) := ∅

/-- What became of a call. -/
inductive CallOutcome where
  | success
  | failure
  | rejected
deriving DecidableEq, Repr

def CallOutcome.label : CallOutcome → String
  | .success => "success"
  | .failure => "failure"
  | .rejected => "rejected"

/-- Why a call has no value: its breaker rejected it, or its operation failed. -/
inductive CircuitError (ε : Type) where
  | rejected
  | inner (e : ε)
deriving DecidableEq, Repr

def CallOutcome.of {ε α : Type} : Except (CircuitError ε) α → CallOutcome
  | .ok _ => .success
  | .error (.inner _) => .failure
  | .error .rejected => .rejected

/-- What a rejected caller is told. -/
def rejectionMessage : String := "circuit open, call not attempted"

namespace HostCircuits

variable {k : BreakerKind}

/-- The circuit of a host; a new host has a fresh one. -/
def forHost (cs : HostCircuits k) (host : String) : HostCircuit k.State :=
  (cs.circuits.find? host).getD ⟨k.fresh cs.config, 0⟩

def set (cs : HostCircuits k) (host : String) (c : HostCircuit k.State) : HostCircuits k :=
  { cs with circuits := cs.circuits.insert host c }

/-- The number of breakers. -/
def size (cs : HostCircuits k) : Nat :=
  cs.circuits.entries.length

/-- The circuits after a host's breaker was asked for a call at some moment, and whether it lets
the call through. -/
def pass (cs : HostCircuits k) (host : String) (now : Nat) : HostCircuits k × Bool :=
  let c := cs.forHost host
  match k.ask cs.config now c.breaker with
  | (b, true) => (cs.set host { c with breaker := b }, true)
  | (b, false) => (cs.set host ⟨b, c.rejected + 1⟩, false)

/-- The circuits after the result of a call that was let through. -/
def record (cs : HostCircuits k) (host : String) (now : Nat) (success : Bool) : HostCircuits k :=
  let c := cs.forHost host
  cs.set host { c with breaker := k.tell cs.config now success c.breaker }

/-- A call at a host. If the breaker lets it through, the operation is run; it gives its result and
the moment at which it has ended. -/
def call {m : Type → Type} [Monad m] {ε α : Type} (cs : HostCircuits k) (host : String)
    (start : Nat) (operation : m (Except ε α × Nat)) :
    m (HostCircuits k × Except (CircuitError ε) α) := do
  let (cs, passed) := cs.pass host start
  if passed then
    let (result, finish) ← operation
    pure (cs.record host finish result.isOk, result.mapError .inner)
  else pure (cs, .error .rejected)

end HostCircuits
end ContentIndex
