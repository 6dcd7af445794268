import ContentIndex.Resilience.Breaker
import Mathlib.Data.Finset.Card

/-
  The breakers of different hosts know nothing of each other. Calls are made one after the other,
  at any hosts and moments and with any results, through breakers of any kind: all that is asked of
  a breaker is that it decides on the calls of its own host. A call changes the circuit of its own
  host only (`Sets`), so each host is served as by a breaker that is alone (`BreakerKind.serve`),
  and the counts of rejected calls and of breakers can be read off the calls (`Accounted`).

  The operation of a call writes itself down when it is run, so that the record shows which were.
-/

namespace ContentIndex

variable {k : BreakerKind} {ε α : Type}

/-! ## Calls and their answers -/

/-- A call at a host from some moment on, and what its operation gives at which moment, if it is
run. -/
structure HostCall (ε α : Type) where
  host : String
  start : Nat
  result : Except ε α
  finish : Nat

/-- The operation of a call. -/
def HostCall.operation (c : HostCall ε α) : StateM (List (HostCall ε α)) (Except ε α × Nat) := do
  modify (· ++ [c])
  pure (c.result, c.finish)

/-- Whether a breaker has rejected a call. -/
def isRejection (answer : Except (CircuitError ε) α) : Bool :=
  CallOutcome.of answer = .rejected

/-- The answer of a breaker to a call, and the breaker afterwards. -/
def BreakerKind.answer (k : BreakerKind) (config : BreakerConfig) (s : k.State)
    (c : HostCall ε α) : k.State × Except (CircuitError ε) α :=
  match k.ask config c.start s with
  | (s, true) => (k.tell config c.finish c.result.isOk s, c.result.mapError .inner)
  | (s, false) => (s, .error .rejected)

/-- Calls with the answers of a breaker that sees no others. -/
def BreakerKind.serve (k : BreakerKind) (config : BreakerConfig) :
    k.State → List (HostCall ε α) → List (HostCall ε α × Except (CircuitError ε) α)
  | _, [] => []
  | s, c :: calls =>
    (c, (k.answer config s c).2) :: k.serve config (k.answer config s c).1 calls

namespace HostCircuits

/-- Calls one after the other, with their answers. -/
def callAll (cs : HostCircuits k) : List (HostCall ε α) →
    StateM (List (HostCall ε α)) (HostCircuits k × List (HostCall ε α × Except (CircuitError ε) α))
  | [] => pure (cs, [])
  | c :: calls => do
    let (cs, answer) ← cs.call c.host c.start c.operation
    let (cs, answers) ← callAll cs calls
    pure (cs, (c, answer) :: answers)

/-- The hosts that have a breaker. -/
def hosts (cs : HostCircuits k) : List String :=
  cs.circuits.entries.map (·.1)

/-! ## What a call changes -/

/-- The circuit of one host has been put in place, and nothing else has changed. -/
structure Sets (host : String) (circuit : HostCircuit k.State) (cs cs' : HostCircuits k) :
    Prop where
  config_eq : cs'.config = cs.config
  self : cs'.forHost host = circuit
  other : ∀ other, host ≠ other → cs'.forHost other = cs.forHost other
  hosts_iff : ∀ name, name ∈ cs'.hosts ↔ name = host ∨ name ∈ cs.hosts

theorem Sets.trans {host : String} {a b : HostCircuit k.State} {cs cs' cs'' : HostCircuits k}
    (h : Sets host a cs cs') (h' : Sets host b cs' cs'') : Sets host b cs cs'' where
  config_eq := h'.config_eq.trans h.config_eq
  self := h'.self
  other other hne := (h'.other other hne).trans (h.other other hne)
  hosts_iff name := by
    rw [h'.hosts_iff, h.hosts_iff, ← or_assoc, or_self]

theorem sets_set (cs : HostCircuits k) (host : String) (circuit : HostCircuit k.State) :
    Sets host circuit cs (cs.set host circuit) where
  config_eq := rfl
  self := by rw [forHost, set, SortedMap.find?_insert_self, Option.getD_some]
  other other hne := by rw [forHost, set, SortedMap.find?_insert_ne _ hne, forHost]
  hosts_iff name := Entries.mem_names_insert

/-- The circuit of a host after a call at it: the breaker has answered, and a rejected call is
counted. -/
def after (cs : HostCircuits k) (c : HostCall ε α) : HostCircuit k.State :=
  let (s, answer) := k.answer cs.config (cs.forHost c.host).breaker c
  let rejected := (cs.forHost c.host).rejected
  ⟨s, if isRejection answer then rejected + 1 else rejected⟩

/-- A call is answered by the breaker of its host alone, and its operation is run unless it is
rejected. -/
theorem run_call (cs : HostCircuits k) (c : HostCall ε α) (log : List (HostCall ε α)) :
    let answer := (k.answer cs.config (cs.forHost c.host).breaker c).2
    ∃ cs', (cs.call c.host c.start c.operation).run log =
        ((cs', answer), log ++ if isRejection answer then [] else [c]) ∧
      Sets c.host (cs.after c) cs cs' := by
  cases hask : k.ask cs.config c.start (cs.forHost c.host).breaker with
  | mk s passed =>
    cases passed with
    | true =>
      have hpass : cs.pass c.host c.start =
          (cs.set c.host { cs.forHost c.host with breaker := s }, true) := by
        simp only [pass, hask]
      have hanswer : k.answer cs.config (cs.forHost c.host).breaker c =
          (k.tell cs.config c.finish c.result.isOk s, c.result.mapError .inner) := by
        simp only [BreakerKind.answer, hask]
      have hpassed : isRejection (c.result.mapError (CircuitError.inner (ε := ε))) = false := by
        cases c.result <;> rfl
      have hasked := sets_set cs c.host { cs.forHost c.host with breaker := s }
      have hset : Sets c.host (cs.after c) cs
          ((cs.set c.host { cs.forHost c.host with breaker := s }).record c.host c.finish
            c.result.isOk) := by
        rw [after, hanswer, record, hasked.self]
        dsimp only
        rw [hpassed]
        exact hasked.trans (sets_set _ c.host _)
      rw [call, hpass, hanswer]
      dsimp only
      rw [hpassed]
      exact ⟨_, rfl, hset⟩
    | false =>
      have hpass : cs.pass c.host c.start =
          (cs.set c.host ⟨s, (cs.forHost c.host).rejected + 1⟩, false) := by
        simp only [pass, hask]
      have hanswer : k.answer cs.config (cs.forHost c.host).breaker c =
          (s, .error .rejected) := by
        simp only [BreakerKind.answer, hask]
      have hset : Sets c.host (cs.after c) cs
          (cs.set c.host ⟨s, (cs.forHost c.host).rejected + 1⟩) := by
        rw [after, hanswer]
        exact sets_set cs c.host _
      rw [call, hpass, hanswer]
      exact ⟨_, congrArg (Prod.mk _) (List.append_nil log).symm, hset⟩

/-! ## Any number of calls -/

/-- What can be said of calls through some circuits, with their answers, the circuits in the end
and the operations that were run. -/
structure Accounted (cs : HostCircuits k) (calls : List (HostCall ε α)) (cs' : HostCircuits k)
    (answers : List (HostCall ε α × Except (CircuitError ε) α)) (run : List (HostCall ε α)) :
    Prop where
  /-- Each call has an answer. -/
  answered : answers.map (·.1) = calls
  /-- A host's calls have the answers of its breaker. -/
  alone : ∀ host, answers.filter (·.1.host = host) =
    k.serve cs.config (cs.forHost host).breaker (calls.filter (·.host = host))
  /-- The operations of the calls that were not rejected are run. -/
  ran : run = (answers.filter (! isRejection ·.2)).map (·.1)
  rejected_eq : ∀ host, (cs'.forHost host).rejected = (cs.forHost host).rejected +
    .ofNat ((answers.filter (·.1.host = host)).countP (isRejection ·.2))
  hosts_iff : ∀ name, name ∈ cs'.hosts ↔ name ∈ cs.hosts ∨ name ∈ calls.map (·.host)

namespace Accounted

theorem nil (cs : HostCircuits k) :
    Accounted cs ([] : List (HostCall ε α)) cs [] [] where
  answered := rfl
  alone _ := rfl
  ran := rfl
  rejected_eq _ := (UInt64.add_zero _).symm
  hosts_iff name := by simp

/-- One more call in front. -/
theorem cons {cs cs₁ cs' : HostCircuits k} {c : HostCall ε α} {calls : List (HostCall ε α)}
    {answers : List (HostCall ε α × Except (CircuitError ε) α)} {run : List (HostCall ε α)}
    (hset : Sets c.host (cs.after c) cs cs₁) (h : Accounted cs₁ calls cs' answers run) :
    let answer := (k.answer cs.config (cs.forHost c.host).breaker c).2
    Accounted cs (c :: calls) cs' ((c, answer) :: answers)
      ((if isRejection answer then [] else [c]) ++ run) := by
  intro answer
  constructor
  case answered => rw [List.map_cons, h.answered]
  case alone =>
    intro host
    by_cases hhost : c.host = host
    · subst hhost
      have hbreaker : (cs₁.forHost c.host).breaker =
          (k.answer cs.config (cs.forHost c.host).breaker c).1 := by
        rw [hset.self, after]
      rw [List.filter_cons_of_pos (by simp), List.filter_cons_of_pos (by simp), h.alone,
        BreakerKind.serve, hset.config_eq, hbreaker]
    · rw [List.filter_cons_of_neg (by simpa using hhost),
        List.filter_cons_of_neg (by simpa using hhost), h.alone, hset.config_eq,
        hset.other host hhost]
  case ran =>
    rw [h.ran, List.filter_cons]
    cases isRejection answer <;> rfl
  case rejected_eq =>
    intro host
    rw [h.rejected_eq]
    by_cases hhost : c.host = host
    · subst hhost
      have hcounted : (cs₁.forHost c.host).rejected =
          if isRejection answer then (cs.forHost c.host).rejected + 1
          else (cs.forHost c.host).rejected := by
        rw [hset.self, after]
      rw [List.filter_cons_of_pos (by simp), List.countP_cons, hcounted]
      cases isRejection answer with
      | true =>
        rw [if_pos rfl, if_pos rfl, UInt64.ofNat_add, UInt64.add_assoc, UInt64.add_comm 1]
        rfl
      | false => rfl
    · rw [List.filter_cons_of_neg (by simpa using hhost), hset.other host hhost]
  case hosts_iff =>
    intro name
    rw [h.hosts_iff, hset.hosts_iff, List.map_cons, List.mem_cons, or_assoc, or_left_comm]

end Accounted

theorem run_callAll_cons (cs : HostCircuits k) (c : HostCall ε α)
    (calls log : List (HostCall ε α)) :
    (cs.callAll (c :: calls)).run log =
      (let ((cs, answer), log) := (cs.call c.host c.start c.operation).run log
       let ((cs, answers), log) := (cs.callAll calls).run log
       ((cs, (c, answer) :: answers), log)) :=
  rfl

/-- By induction on the calls: a call that comes first changes the circuit of its host only. -/
theorem callAll_accounted (cs : HostCircuits k) (calls : List (HostCall ε α))
    (log : List (HostCall ε α)) :
    ∃ cs' answers run, (cs.callAll calls).run log = ((cs', answers), log ++ run) ∧
      Accounted cs calls cs' answers run := by
  induction calls generalizing cs log with
  | nil => exact ⟨cs, [], [], congrArg (Prod.mk _) (List.append_nil log).symm, .nil cs⟩
  | cons c calls ih =>
    obtain ⟨cs₁, hcall, hset⟩ := cs.run_call c log
    let answer := (k.answer cs.config (cs.forHost c.host).breaker c).2
    let ran := if isRejection answer then [] else [c]
    obtain ⟨cs', answers, run, hrest, haccounted⟩ := ih cs₁ (log ++ ran)
    refine ⟨cs', (c, answer) :: answers, ran ++ run, ?_, .cons hset haccounted⟩
    calc ((cs.callAll (c :: calls)).run log)
        = ((cs', (c, answer) :: answers), log ++ ran ++ run) := by
          rw [run_callAll_cons, hcall]
          dsimp only
          rw [hrest]
      _ = ((cs', (c, answer) :: answers), log ++ (ran ++ run)) := by rw [List.append_assoc]

/-- There are as many breakers as hosts that have one. -/
theorem size_eq (cs : HostCircuits k) : cs.size = cs.hosts.toFinset.card := by
  have hnodup : cs.hosts.Nodup := cs.circuits.sorted.nodup_names
  rw [List.toFinset_card_of_nodup hnodup, hosts, List.length_map, size]

/-- Each host's calls are answered by its own breaker, as if there were no other hosts. The
operation of a call is run exactly if the call is not rejected, each host counts its rejected calls
in 64 bits, and there is one breaker for each name of a host. -/
theorem breakers_are_independent (k : BreakerKind) (config : BreakerConfig)
    (calls : List (HostCall ε α)) :
    let ((cs, answers), run) := (({ config } : HostCircuits k).callAll calls).run []
    answers.map (·.1) = calls ∧
      (∀ host, answers.filter (·.1.host = host) =
        k.serve config (k.fresh config) (calls.filter (·.host = host))) ∧
      run = (answers.filter (! isRejection ·.2)).map (·.1) ∧
      (∀ host, (cs.forHost host).rejected.toNat =
        (answers.filter (·.1.host = host)).countP (isRejection ·.2) % 2 ^ 64) ∧
      cs.size = (calls.map (·.host)).toFinset.card := by
  obtain ⟨cs, answers, run, hrun, h⟩ :=
    callAll_accounted ({ config } : HostCircuits k) calls []
  rw [hrun, List.nil_append]
  refine ⟨h.answered, h.alone, h.ran, fun host => ?_, ?_⟩
  · rw [h.rejected_eq host, show (({ config } : HostCircuits k).forHost host).rejected = 0 from rfl,
      UInt64.zero_add, UInt64.toNat_ofNat']
  rw [size_eq]
  congr 1
  ext name
  rw [List.mem_toFinset, List.mem_toFinset, h.hosts_iff]
  exact or_iff_right List.not_mem_nil

end HostCircuits
end ContentIndex
