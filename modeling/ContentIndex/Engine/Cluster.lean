import ContentIndex.Config
import ContentIndex.Engine.Request
import ContentIndex.Program
import ContentIndex.Resilience.Breaker

/-
  The hosts of the engine, each behind its circuit breaker. A request goes to the hosts in turn
  until one of them answers with a status below 500 or the attempts are used up. An attempt at a
  host whose breaker rejects it sends nothing, but it counts. A request with a header that cannot
  be written is not sent either, and counts as a failure of the host.
-/

namespace ContentIndex.Engine

/-- What is sent to one host. -/
structure HostRequest where
  host : String
  method : Method
  url : String
  headers : List (String × String)
  body : Option String
  timeoutMs : UInt64
deriving DecidableEq, Repr

/-- Whether all headers can be written. -/
def HostRequest.isWritable (r : HostRequest) : Bool :=
  r.headers.all fun (name, value) => isHeaderName name && isHeaderValue value

/-- Why a host gave no answer. -/
inductive NetworkError where
  | timeout
  | failed (reason : String)
deriving DecidableEq, Repr

/-- The calls of a cluster: the network, the clock in nanoseconds, and the metrics. -/
inductive NetworkCall where
  | send (request : HostRequest)
  | now
  | measure (m : Measurement)

def network : Interface where
  Call := NetworkCall
  Answer
    | .send _ => Except NetworkError Response
    | .now => Nat
    | .measure _ => Unit

/-- The hosts of the engine and how they are called. -/
structure Cluster where
  hosts : List String
  attempts : Nat
  timeoutMs : UInt64
  authorization : Option String
  hosts_ne_nil : hosts ≠ []
deriving DecidableEq

namespace Cluster

/-- The address of a host without slashes at its end. -/
def trimHost (s : String) : String :=
  String.ofList (s.toList.reverse.dropWhile (· == '/')).reverse

/-- The cluster of some settings, which must name a host. There is at least one attempt. -/
def ofConfig (c : Config) : Except TransportError Cluster :=
  if h : c.hosts.map trimHost ≠ [] then
    .ok ⟨c.hosts.map trimHost, max 1 c.maxHostAttempts.toNat, c.requestTimeoutMs,
      c.authorization, h⟩
  else .error (.setup "no hosts configured")

/-- The host of an attempt; attempts count from zero. -/
def hostAt (c : Cluster) (attempt : Nat) : String :=
  c.hosts.get ⟨attempt % c.hosts.length, Nat.mod_lt _ (List.length_pos_iff.mpr c.hosts_ne_nil)⟩

/-- A request as one host gets it. -/
def hostRequest (c : Cluster) (host : String) (r : Request) : HostRequest where
  host := host
  method := r.method
  url := host ++ "/" ++ String.ofList (r.path.toList.dropWhile (· == '/'))
  headers := r.headers ++ (c.authorization.toList.map ("Authorization", ·))
  body := r.body
  timeoutMs := r.timeoutMs.getD c.timeoutMs

/-- What the answer of a host means; a status from 500 on is a failure of the host. -/
def judge (host : String) : Except NetworkError Response → Except TransportError Response
  | .ok r => if 500 ≤ r.status then .error (.status r.status r.body) else .ok r
  | .error .timeout => .error (.timeout host)
  | .error (.failed reason) => .error (.connect host reason)

def measure (m : Measurement) : Program network Unit :=
  .perform (I := network) (.measure m)

def clock : Program network Nat :=
  .perform (I := network) .now

/-- Sends a request to a host, if it can be written. -/
def sendTo (r : HostRequest) : Program network (Except NetworkError Response) :=
  if r.isWritable then .perform (I := network) (.send r)
  else pure (.error (.failed "builder error"))

variable {k : BreakerKind}

/-- One attempt at a host through its breaker. -/
def attempt (c : Cluster) (circuits : HostCircuits k) (host : String) (r : Request) :
    Program network (HostCircuits k × Except TransportError Response) := do
  let (circuits, answer) ← circuits.call host (← clock) do
    let result := judge host (← sendTo (c.hostRequest host r))
    pure (result, ← clock)
  measure (.circuitCall host (CallOutcome.of answer).label)
  pure (circuits, answer.mapError fun
    | .rejected => .circuitOpen host
    | .inner e => e)

/-- Goes on with an attempt while some are left; `last` tells how the one before failed. -/
def requestFrom (c : Cluster) (r : Request) (circuits : HostCircuits k) (index : Nat)
    (last : String) : (left : Nat) →
    Program network (HostCircuits k × Except TransportError Response)
  | 0 => do
    measure (.request r.service "error")
    pure (circuits, .error (.exhausted (.ofNat c.attempts) last))
  | left + 1 => do
    let host := c.hostAt index
    let (circuits, result) ← c.attempt circuits host r
    match result with
    | .ok answer =>
      measure (.request r.service "success")
      pure (circuits, .ok answer)
    | .error e =>
      measure (.failover host)
      requestFrom c r circuits (index + 1) e.message left

/-- Sends a request, and gives the circuits as they are afterwards. -/
def request (c : Cluster) (circuits : HostCircuits k) (r : Request) :
    Program network (HostCircuits k × Except TransportError Response) :=
  c.requestFrom r circuits 0 "" c.attempts

end Cluster
end ContentIndex.Engine
