import ContentIndex.Proofs.Engine.Failover

/-
  What it means that all hosts failed. A host whose breaker is open is skipped without a call, yet
  the skip is one of the attempts of the request: the calls that were sent and failed and the skips
  add up to the number of attempts (`FailsOver.failures_add_skips`). So with a skip among them
  fewer calls were sent than are allowed, and a host that would have been called may have been left
  out (`exhausted_unjustified`). `exhausted_justified_iff` says when the verdict is right.

  No host is left out if there are at least as many attempts as hosts (`every_host_has_its_turn`).
-/

namespace ContentIndex.Engine

variable {k : BreakerKind} {σ : Type} {c : Cluster} {r : Request} {circuits : HostCircuits k}
  {ts : List Trial} {result : Except TransportError Response}

/-! ## Failures and skips -/

/-- The requests that were handed to the network without an answer below 500. -/
def failures (es : List (Event network)) : List HostRequest :=
  es.filterMap fun e =>
    match e with
    | ⟨.send q, answer⟩ => if (Cluster.judge q.host answer).isOk then none else some q
    | _ => none

/-- The hosts that were skipped, as their breakers report it. -/
def skips (es : List (Event network)) : List String :=
  es.filterMap fun e =>
    match e.call with
    | .measure (.circuitCall host outcome) =>
      if outcome = CallOutcome.rejected.label then some host else none
    | _ => none

/-- Whether a request can be written. All hosts get the same headers. -/
def Cluster.canWrite (c : Cluster) (r : Request) : Bool :=
  (c.hostRequest (c.hostAt 0) r).isWritable

theorem Cluster.isWritable_hostRequest (c : Cluster) (host : String) (r : Request) :
    (c.hostRequest host r).isWritable = c.canWrite r :=
  rfl

theorem failures_append (es es' : List (Event network)) :
    failures (es ++ es') = failures es ++ failures es' :=
  List.filterMap_append

theorem skips_append (es es' : List (Event network)) : skips (es ++ es') = skips es ++ skips es' :=
  List.filterMap_append

theorem failures_sent {q : HostRequest} {answer : Except NetworkError Response}
    (h : (Cluster.judge q.host answer).isOk = false) :
    failures (sent q answer) = if q.isWritable then [q] else [] := by
  rw [sent]
  split
  · simp [failures, h]
  · rfl

/-- An attempt that fails is a call that failed, if it was let through and could be written. -/
theorem failures_events {t : Trial} (h : t.Fails) :
    failures (t.events c r) =
      if t.passed && c.canWrite r then [c.hostRequest t.host r] else [] := by
  rw [failures, Trial.filterMap_events (fun _ => rfl) (fun _ => rfl)]
  cases t with
  | rejected host asked => rfl
  | tried host asked answer told =>
    obtain ⟨e, he⟩ := Trial.fails_iff.mp h
    have failed : (Cluster.judge host answer).isOk = false := by
      rw [show Cluster.judge host answer = .error e from he]
      rfl
    refine (List.append_nil _).trans ?_
    rw [← c.isWritable_hostRequest host]
    exact failures_sent (q := c.hostRequest host r) failed

theorem skips_events (c : Cluster) (r : Request) (t : Trial) :
    skips (t.events c r) = if t.passed then [] else [t.host] := by
  rw [skips, Trial.filterMap_events (fun _ => rfl) (fun _ => rfl)]
  cases t with
  | rejected host asked => rfl
  | tried host asked answer told =>
    have sending : skips (sent (c.hostRequest host r) answer) = [] := by
      rw [sent]
      split <;> rfl
    refine (congrArg (· ++ _) sending).trans ?_
    cases (Cluster.judge host answer).isOk <;> rfl

theorem failures_trials (h : ∀ t ∈ ts, t.Fails) :
    failures (ts.flatMap (Trial.events c r)) =
      if c.canWrite r then (ts.filter Trial.passed).map fun t => c.hostRequest t.host r
      else [] := by
  induction ts with
  | nil => cases c.canWrite r <;> rfl
  | cons t ts ih =>
    obtain ⟨ht, hts⟩ := List.forall_mem_cons.mp h
    rw [List.flatMap_cons, failures_append, failures_events ht, ih hts, List.filter_cons]
    cases t.passed <;> cases c.canWrite r <;> rfl

theorem skips_trials (c : Cluster) (r : Request) (ts : List Trial) :
    skips (ts.flatMap (Trial.events c r)) = (ts.filter (! ·.passed)).map Trial.host := by
  induction ts with
  | nil => rfl
  | cons t ts ih =>
    rw [List.flatMap_cons, skips_append, skips_events, ih, List.filter_cons]
    cases t.passed <;> rfl

/-! ## Requests that end without an answer -/

namespace FailsOver

variable {config : Config} {es : List (Event network)} {attempts : UInt64} {message : String}

/-- A request that fails at all hosts has used all its attempts, and each has failed. -/
theorem of_exhausted
    (h : FailsOver config c r circuits ts es (.error (.exhausted attempts message))) :
    ts.length = max 1 config.maxHostAttempts.toNat ∧ ∀ t ∈ ts, t.Fails := by
  rcases h.ends with ⟨_, _, _, _, _, _, _, hresult⟩ | ⟨hlength, hall, -⟩
  · cases hresult
  · exact ⟨hlength, hall⟩

theorem failures_eq
    (h : FailsOver config c r circuits ts es (.error (.exhausted attempts message))) :
    failures es =
      if c.canWrite r then (ts.filter Trial.passed).map fun t => c.hostRequest t.host r
      else [] := by
  rw [h.calls, failures_append, failures_trials h.of_exhausted.2]
  exact List.append_nil _

theorem skips_eq (h : FailsOver config c r circuits ts es result) :
    skips es = (ts.filter (! ·.passed)).map Trial.host := by
  rw [h.calls, skips_append, skips_trials]
  exact List.append_nil _

/-- Each attempt is a call that failed or a skip. -/
theorem failures_add_skips
    (h : FailsOver config c r circuits ts es (.error (.exhausted attempts message)))
    (hw : c.canWrite r = true) :
    (failures es).length + (skips es).length = max 1 config.maxHostAttempts.toNat := by
  rw [h.failures_eq, if_pos hw, h.skips_eq, List.length_map, List.length_map,
    ← List.countP_eq_length_filter, ← List.countP_eq_length_filter, ← h.of_exhausted.1]
  simpa using (List.length_eq_countP_add_countP Trial.passed (l := ts)).symm

end FailsOver

/-- The verdict that all hosts failed is right if so many calls were sent and failed as there are
attempts, or if the breaker of every host rejects calls. -/
def Justified (config : Config) (es : List (Event network)) (circuits : HostCircuits k)
    (now : Nat) : Prop :=
  (failures es).length = max 1 config.maxHostAttempts.toNat ∨
    ∀ host ∈ config.hosts, (circuits.pass (Cluster.trimHost host) now).2 = false

/-- When all hosts have failed, each attempt that a breaker has rejected is a call less that was
sent. So the verdict is right exactly if no host was skipped and the request could be written, or
if the breaker of every host rejects calls. -/
theorem exhausted_justified_iff (config : Config) (hosts : config.hosts ≠ [])
    (handle : (x : NetworkCall) → σ → network.Answer x × σ) (s : σ) (circuits : HostCircuits k)
    (r : Request) (now : Nat) :
    ∃ c, Cluster.ofConfig config = .ok c ∧
      let run := (c.request circuits r).trace handle s
      ∀ attempts message, run.2.1.2 = .error (.exhausted attempts message) →
        (∃ ts, FailsOver config c r circuits ts run.1 run.2.1.2 ∧
          skips run.1 = (ts.filter (! ·.passed)).map Trial.host) ∧
        (failures run.1).length =
          (if c.canWrite r then max 1 config.maxHostAttempts.toNat - (skips run.1).length else 0) ∧
        (Justified config run.1 run.2.1.1 now ↔
          skips run.1 = [] ∧ c.canWrite r = true ∨
          ∀ host ∈ config.hosts, (run.2.1.1.pass (Cluster.trimHost host) now).2 = false) := by
  obtain ⟨c, hc, hhosts, hattempts⟩ := Cluster.ofConfig_eq_ok hosts
  refine ⟨c, hc, ?_⟩
  intro run attempts message hresult
  obtain ⟨ts, course, hes, -⟩ := c.request_trace handle s circuits r
  have failover : FailsOver config c r circuits ts run.1 run.2.1.2 :=
    course.failsOver hhosts hattempts hes
  refine ⟨⟨ts, failover, failover.skips_eq⟩, ?_⟩
  rw [hresult] at failover
  cases hw : c.canWrite r with
  | false =>
    have unsent : failures run.1 = [] := by
      rw [failover.failures_eq, hw]
      rfl
    refine ⟨by simp [unsent], or_congr_left ?_⟩
    simp only [unsent, List.length_nil, Bool.false_eq_true, and_false, iff_false]
    omega
  | true =>
    have total := failover.failures_add_skips hw
    refine ⟨by rw [if_pos rfl]; omega, or_congr_left ?_⟩
    rw [← List.length_eq_zero_iff]
    simp only [and_true]
    omega

/-- Nobody answers, and nobody is skipped: all five attempts were sent. -/
theorem exhausted_justified_unreachable :
    twoHosts.hosts ≠ [] ∧
    ∃ c, Cluster.ofConfig twoHosts = .ok c ∧
      let circuits : HostCircuits := {}
      let run := (c.request circuits (.get "content/_search")).trace (onlyAt "http://c") ()
      run.2.1.2 = .error (.exhausted 5 "connection to http://a failed: refused") ∧
      (failures run.1).length = 5 ∧ Justified twoHosts run.1 run.2.1.1 0 := by
  refine ⟨by decide, ?_⟩
  obtain ⟨c, hc, h⟩ := exhausted_justified_iff twoHosts (by decide) (onlyAt "http://c") ()
    ({} : HostCircuits) (.get "content/_search") 0
  refine ⟨c, hc, ?_⟩
  cases hc
  obtain ⟨-, -, justified⟩ := h 5 _ rfl
  exact ⟨rfl, by decide +kernel, justified.mpr (.inl ⟨by decide +kernel, by decide +kernel⟩)⟩

def oneAttempt : Config := { hosts := ["http://a", "http://b"], maxHostAttempts := 1 }

/-- Two failures open the breaker of the first host. The third request is told that all hosts have
failed, though nothing was sent and the breaker of the second host lets calls through. -/
theorem exhausted_unjustified :
    ∃ c, Cluster.ofConfig oneAttempt = .ok c ∧
      let request := fun circuits : HostCircuits =>
        (c.request circuits (.get "content/_search")).trace (onlyAt "http://b") ()
      let first := request { config := { closedWindow := 1 } }
      let second := request first.2.1.1
      let third := request second.2.1.1
      third.2.1.2 = .error (.exhausted 1 "circuit open for http://a") ∧
      ∀ now, ¬ Justified oneAttempt third.1 third.2.1.1 now := by
  refine ⟨_, rfl, rfl, ?_⟩
  intro now h
  rcases h with sent | rejecting
  · revert sent
    decide +kernel
  · -- The second host was never called, and its fresh breaker rejects nothing.
    cases rejecting "http://b" (by decide)

/-! ## Hosts that are left out -/

/-- With at least as many attempts as hosts, no host is left out when all have failed: each was
sent the request and failed, or was skipped. -/
theorem every_host_has_its_turn (config : Config) (hosts : config.hosts ≠ [])
    (enough : config.hosts.length ≤ max 1 config.maxHostAttempts.toNat)
    (handle : (x : NetworkCall) → σ → network.Answer x × σ) (s : σ) (circuits : HostCircuits k)
    (r : Request) :
    ∃ c, Cluster.ofConfig config = .ok c ∧
      let run := (c.request circuits r).trace handle s
      ∀ attempts message, run.2.1.2 = .error (.exhausted attempts message) →
        c.canWrite r = true → ∀ host ∈ config.hosts,
          c.hostRequest (Cluster.trimHost host) r ∈ failures run.1 ∨
          Cluster.trimHost host ∈ skips run.1 := by
  obtain ⟨c, hc, hhosts, hattempts⟩ := Cluster.ofConfig_eq_ok hosts
  refine ⟨c, hc, ?_⟩
  intro run attempts message hresult hw host hhost
  obtain ⟨ts, course, hes, -⟩ := c.request_trace handle s circuits r
  have failover : FailsOver config c r circuits ts run.1 run.2.1.2 :=
    course.failsOver hhosts hattempts hes
  rw [hresult] at failover
  obtain ⟨i, hi, rfl⟩ := List.mem_iff_getElem.mp hhost
  have reached : i < ts.length := by
    have := failover.of_exhausted.1
    omega
  have hname : Cluster.trimHost config.hosts[i] = ts[i].host := by
    have turn := failover.turn i ts[i] (List.getElem?_eq_getElem reached)
    rw [Nat.mod_eq_of_lt hi, List.getElem?_eq_getElem hi] at turn
    exact Option.some.inj turn
  rw [failover.failures_eq, failover.skips_eq, if_pos hw, hname]
  cases hpassed : ts[i].passed with
  | true =>
    exact .inl (List.mem_map.mpr ⟨ts[i], List.mem_filter.mpr ⟨List.getElem_mem _, hpassed⟩, rfl⟩)
  | false =>
    refine .inr (List.mem_map.mpr ⟨ts[i], List.mem_filter.mpr ⟨List.getElem_mem _, ?_⟩, rfl⟩)
    rw [hpassed]
    rfl

end ContentIndex.Engine
