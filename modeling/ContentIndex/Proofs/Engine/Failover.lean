import ContentIndex.Engine.Cluster
import ContentIndex.Proofs.Program.Execution

/-
  How a request goes from host to host. An attempt is followed as a `Trial`: the breaker of its host
  was asked at some moment, and either it rejected the attempt or the host had its say. A request
  is a `Course` of such trials: each is at the next host in turn, the first with an answer below
  500 ends it, and when no attempt is left it fails with the message of the last one. All that a
  request calls for is read off its trials (`runs_requestFrom`). `FailsOver` says which these are in
  terms of the settings, and `request_fails_over` that they are so for every list of hosts, any
  number of attempts, breakers of any kind and whatever the network does.

  What an attempt hands to the network is the request as its host gets it, if that can be written;
  one with a header that cannot be written fails like a connection, without being sent.
-/

namespace ContentIndex.Engine

open Program (Runs runs_call_iff runs_done_iff runs_bind_iff runs_perform_iff)

variable {k : BreakerKind}

/-- What became of an attempt at a host: its breaker rejected it, or it had an answer. Given are
the moments at which the breaker was asked, and at which it was told of the answer. -/
inductive Trial where
  | rejected (host : String) (asked : Nat)
  | tried (host : String) (asked : Nat) (answer : Except NetworkError Response) (told : Nat)

namespace Trial

def host : Trial → String
  | .rejected host _ => host
  | .tried host _ _ _ => host

def asked : Trial → Nat
  | .rejected _ asked => asked
  | .tried _ asked _ _ => asked

/-- Whether the breaker let the attempt through. -/
def passed : Trial → Bool
  | .rejected _ _ => false
  | .tried _ _ _ _ => true

def result : Trial → Except TransportError Response
  | .rejected host _ => .error (.circuitOpen host)
  | .tried host _ answer _ => Cluster.judge host answer

/-- The circuits after an attempt. -/
def after (circuits : HostCircuits k) (t : Trial) : HostCircuits k :=
  let circuits := (circuits.pass t.host t.asked).1
  match t with
  | .rejected _ _ => circuits
  | .tried host _ answer told => circuits.record host told (Cluster.judge host answer).isOk

/-- What the host answered, if anything. -/
def response? : Trial → Option Response
  | .tried _ _ (.ok a) _ => some a
  | _ => none

theorem result_eq_ok_iff {t : Trial} {a : Response} :
    t.result = .ok a ↔ t.response? = some a ∧ a.status < 500 := by
  rcases t with ⟨host, asked⟩ | ⟨host, asked, (_ | reason) | b, told⟩
  · simp [result, response?]
  · simp [result, response?, Cluster.judge]
  · simp [result, response?, Cluster.judge]
  · by_cases hb : 500 ≤ b.status
    · have failed : result (.tried host asked (.ok b) told) = .error (.status b.status b.body) :=
        if_pos hb
      simp only [failed, response?, Option.some.injEq, reduceCtorEq, false_iff]
      rintro ⟨rfl, hlow⟩
      exact UInt16.not_lt.mpr hb hlow
    · have answered : result (.tried host asked (.ok b) told) = .ok b := if_neg hb
      simp only [answered, response?, Except.ok.injEq, Option.some.injEq]
      constructor
      · rintro rfl
        exact ⟨rfl, UInt16.not_le.mp hb⟩
      · exact And.left

/-- There was no answer with a status below 500. -/
def Fails (t : Trial) : Prop :=
  ∀ a, t.response? = some a → 500 ≤ a.status

theorem fails_iff {t : Trial} : t.Fails ↔ ∃ e, t.result = .error e := by
  constructor
  · intro h
    cases hr : t.result with
    | ok a =>
      obtain ⟨ha, hlow⟩ := result_eq_ok_iff.mp hr
      exact absurd hlow (UInt16.not_lt.mpr (h a ha))
    | error e => exact ⟨e, rfl⟩
  · rintro ⟨e, he⟩ a ha
    rw [← UInt16.not_lt]
    intro hlow
    rw [result_eq_ok_iff.mpr ⟨ha, hlow⟩] at he
    cases he

/-- How an attempt failed, in words. -/
def message (t : Trial) : String :=
  match t.result with
  | .ok _ => ""
  | .error e => e.message

theorem message_eq {t : Trial} {e : TransportError} (h : t.result = .error e) :
    t.message = e.message := by
  rw [message, h]

end Trial

/-! ## The calls of an attempt -/

/-- What is sent to a host, with the answer; nothing if it cannot be written. -/
def sent (q : HostRequest) (answer : Except NetworkError Response) : List (Event network) :=
  if q.isWritable then [⟨.send q, answer⟩] else []

/-- A report, to which there is no answer. -/
def reported (m : Measurement) : Event network :=
  ⟨.measure m, ()⟩

/-- A look at the clock. -/
def looked (now : Nat) : Event network :=
  ⟨.now, now⟩

/-- The calls of an attempt, with their answers. -/
def Trial.calls (c : Cluster) (r : Request) : Trial → List (Event network)
  | .rejected host asked =>
    [looked asked, reported (.circuitCall host CallOutcome.rejected.label)]
  | .tried host asked answer told =>
    let outcome : CallOutcome :=
      if (Cluster.judge host answer).isOk then .success else .failure
    looked asked :: sent (c.hostRequest host r) answer
      ++ [looked told, reported (.circuitCall host outcome.label)]

/-- The breaker of the host decides whether an attempt is let through. An attempt with a request
that cannot be written fails like a connection. -/
structure Trial.Fits (c : Cluster) (r : Request) (circuits : HostCircuits k) (t : Trial) :
    Prop where
  passed_eq : t.passed = (circuits.pass t.host t.asked).2
  unwritten : ∀ host asked answer told, t = .tried host asked answer told →
    (c.hostRequest host r).isWritable = false → answer = .error (.failed "builder error")

theorem Trial.Fits.result_eq {c : Cluster} {r : Request} {circuits : HostCircuits k} {t : Trial}
    (h : t.Fits c r circuits) (hpassed : t.passed = true)
    (hw : (c.hostRequest t.host r).isWritable = false) :
    t.result = .error (.connect t.host "builder error") := by
  cases t with
  | rejected host asked => cases hpassed
  | tried host asked answer told =>
    obtain rfl := h.unwritten host asked answer told rfl hw
    rfl

variable {σ : Type} {E : Effect network σ} {s s' : σ} {es : List (Event network)}
  {c : Cluster} {r : Request} {circuits circuits' : HostCircuits k}
  {result : Except TransportError Response}

theorem runs_clock_bind {β : Type} {f : Nat → Program network β} {b : β}
    (h : Runs E (Cluster.clock >>= f) s es b s') :
    ∃ t s₁ es', es = looked t :: es' ∧ Runs E (f t) s₁ es' b s' := by
  obtain ⟨t, s₁, es', rfl, -, h⟩ := runs_call_iff.mp h
  exact ⟨t, s₁, es', rfl, h⟩

theorem runs_measure_bind {β : Type} {m : Measurement} {f : Unit → Program network β} {b : β}
    (h : Runs E (Cluster.measure m >>= f) s es b s') :
    ∃ s₁ es', es = reported m :: es' ∧ Runs E (f ()) s₁ es' b s' := by
  obtain ⟨u, s₁, es', rfl, -, h⟩ := runs_call_iff.mp h
  exact ⟨s₁, es', rfl, h⟩

theorem runs_sendTo {q : HostRequest} {answer : Except NetworkError Response}
    (h : Runs E (Cluster.sendTo q) s es answer s') :
    es = sent q answer ∧ (q.isWritable = false → answer = .error (.failed "builder error")) := by
  by_cases hw : q.isWritable = true
  · have hsend : Cluster.sendTo q = Program.perform (I := network) (.send q) := if_pos hw
    rw [hsend] at h
    obtain ⟨hes, -⟩ := runs_perform_iff.mp h
    exact ⟨hes.trans (if_pos hw).symm, fun hf => absurd hw (by simp [hf])⟩
  · have hsend : Cluster.sendTo q = .done (.error (.failed "builder error")) := if_neg hw
    rw [hsend] at h
    obtain ⟨hes, hanswer, -⟩ := runs_done_iff.mp h
    exact ⟨hes.trans (if_neg hw).symm, fun _ => hanswer⟩

/-- An attempt asks the breaker first, and goes on as it says. -/
theorem Cluster.attempt_eq (c : Cluster) (circuits : HostCircuits k) (host : String)
    (r : Request) :
    c.attempt circuits host r = (do
      let asked ← clock
      let rest := (circuits.pass host asked).1
      if (circuits.pass host asked).2 then
        let answer ← sendTo (c.hostRequest host r)
        let told ← clock
        let outcome : CallOutcome := if (judge host answer).isOk then .success else .failure
        measure (.circuitCall host outcome.label)
        pure (rest.record host told (judge host answer).isOk, judge host answer)
      else
        measure (.circuitCall host CallOutcome.rejected.label)
        pure (rest, .error (.circuitOpen host))) := by
  refine bind_congr fun asked => ?_
  rw [HostCircuits.call]
  obtain ⟨rest, passed⟩ := circuits.pass host asked
  cases passed with
  | false => rfl
  | true =>
    simp only [if_true, bind_assoc, pure_bind]
    refine bind_congr fun answer => bind_congr fun told => ?_
    cases judge host answer <;> rfl

/-- An attempt is a trial at its host, and its breaker decides which. -/
theorem runs_attempt {host : String}
    (h : Runs E (c.attempt circuits host r) s es (circuits', result) s') :
    ∃ t : Trial, t.host = host ∧ t.Fits c r circuits ∧ es = t.calls c r ∧
      circuits' = t.after circuits ∧ result = t.result := by
  rw [Cluster.attempt_eq] at h
  obtain ⟨asked, s₁, es₁, rfl, h₁⟩ := runs_clock_bind h
  dsimp only at h₁
  split at h₁
  next hpass =>
    obtain ⟨answer, s₂, es₂, es₃, rfl, hsend, h₂⟩ := runs_bind_iff.mp h₁
    obtain ⟨rfl, unwritten⟩ := runs_sendTo hsend
    obtain ⟨told, s₃, es₄, rfl, h₃⟩ := runs_clock_bind h₂
    obtain ⟨s₄, es₅, rfl, h₄⟩ := runs_measure_bind h₃
    obtain ⟨rfl, hdone, -⟩ := runs_done_iff.mp h₄
    cases hdone
    refine ⟨.tried host asked answer told, rfl, ⟨hpass.symm, ?_⟩, rfl, rfl, rfl⟩
    rintro _ _ _ _ ⟨⟩
    exact unwritten
  next hpass =>
    obtain ⟨s₂, es₂, rfl, h₂⟩ := runs_measure_bind h₁
    obtain ⟨rfl, hdone, -⟩ := runs_done_iff.mp h₂
    cases hdone
    exact ⟨.rejected host asked, rfl, ⟨(Bool.not_eq_true _ ▸ hpass).symm, nofun⟩, rfl, rfl, rfl⟩

/-! ## The course of a request -/

/-- The trials of a request and its result, from some attempt on and with so many left; `last` is
the message of the attempt before. -/
inductive Course (c : Cluster) (r : Request) : HostCircuits k → (index left : Nat) →
    (last : String) → List Trial → Except TransportError Response → Prop
  | exhausted {circuits : HostCircuits k} {index : Nat} {last : String} :
    Course c r circuits index 0 last [] (.error (.exhausted (.ofNat c.attempts) last))
  | answered {circuits : HostCircuits k} {index left : Nat} {last : String} {t : Trial}
      {a : Response} :
    t.host = c.hostAt index → t.Fits c r circuits → t.result = .ok a →
      Course c r circuits index (left + 1) last [t] (.ok a)
  | failed {circuits : HostCircuits k} {index left : Nat} {last : String} {t : Trial}
      {e : TransportError} {ts : List Trial} {result : Except TransportError Response} :
    t.host = c.hostAt index → t.Fits c r circuits → t.result = .error e →
      Course c r (t.after circuits) (index + 1) left e.message ts result →
      Course c r circuits index (left + 1) last (t :: ts) result

/-- The calls of a trial within a request. -/
def Trial.events (c : Cluster) (r : Request) (t : Trial) : List (Event network) :=
  t.calls c r ++ if t.result.isOk then [] else [reported (.failover t.host)]

/-- The last call of a request tells how it ended. -/
def closing (r : Request) (result : Except TransportError Response) : Event network :=
  reported (.request r.service (if result.isOk then "success" else "error"))

/-- A view of the calls that looks at neither the clock nor the failovers sees what an attempt sends
and what becomes of its breaker. -/
theorem Trial.filterMap_events {β : Type} {f : Event network → Option β}
    (clock : ∀ now, f (looked now) = none) (failover : ∀ host, f (reported (.failover host)) = none)
    (c : Cluster) (r : Request) (t : Trial) :
    (t.events c r).filterMap f =
      match t with
      | .rejected host _ => (f (reported (.circuitCall host CallOutcome.rejected.label))).toList
      | .tried host _ answer _ =>
        let outcome : CallOutcome :=
          if (Cluster.judge host answer).isOk then .success else .failure
        (sent (c.hostRequest host r) answer).filterMap f ++
          (f (reported (.circuitCall host outcome.label))).toList := by
  have silent : (if t.result.isOk then [] else [reported (.failover t.host)]).filterMap f = [] := by
    split
    · rfl
    · simp [failover]
  have single (e : Event network) : [e].filterMap f = (f e).toList := by
    rw [List.filterMap_cons]
    cases f e <;> rfl
  rw [events, List.filterMap_append, silent, List.append_nil]
  cases t with
  | rejected host asked => rw [calls, List.filterMap_cons_none (clock asked), single]
  | tried host asked answer told =>
    rw [calls, List.cons_append, List.filterMap_cons_none (clock asked), List.filterMap_append,
      List.filterMap_cons_none (clock told), single]

theorem Cluster.requestFrom_succ (c : Cluster) (r : Request) (circuits : HostCircuits k)
    (index : Nat) (last : String) (left : Nat) :
    c.requestFrom r circuits index last (left + 1) = (do
      let x ← c.attempt circuits (c.hostAt index) r
      match x.2 with
      | .ok answer =>
        measure (.request r.service "success")
        pure (x.1, .ok answer)
      | .error e =>
        measure (.failover (c.hostAt index))
        c.requestFrom r x.1 (index + 1) e.message left) :=
  rfl

/-- A request runs a course, and its calls are those of its trials. -/
theorem runs_requestFrom {index left : Nat} {last : String}
    (h : Runs E (c.requestFrom r circuits index last left) s es (circuits', result) s') :
    ∃ ts, Course c r circuits index left last ts result ∧
      es = ts.flatMap (Trial.events c r) ++ [closing r result] ∧
      circuits' = ts.foldl Trial.after circuits := by
  -- By the attempts that are left; from one to the next the breakers, the turn and the message of
  -- the last failure change.
  induction left generalizing circuits index last s es with
  | zero =>
    obtain ⟨s₁, es₁, rfl, h₁⟩ := runs_measure_bind h
    obtain ⟨rfl, hdone, -⟩ := runs_done_iff.mp h₁
    cases hdone
    exact ⟨[], .exhausted, rfl, rfl⟩
  | succ left ih =>
    rw [Cluster.requestFrom_succ] at h
    obtain ⟨⟨circuits₁, result₁⟩, s₁, es₁, es₂, rfl, hattempt, h₁⟩ := runs_bind_iff.mp h
    obtain ⟨t, hhost, hfits, rfl, rfl, rfl⟩ := runs_attempt hattempt
    cases hr : t.result with
    | ok a =>
      rw [hr] at h₁
      obtain ⟨s₂, es₃, rfl, h₂⟩ := runs_measure_bind h₁
      obtain ⟨rfl, hdone, -⟩ := runs_done_iff.mp h₂
      cases hdone
      refine ⟨[t], .answered hhost hfits hr, ?_, rfl⟩
      simp [Trial.events, closing, hr, Except.isOk, Except.toBool]
    | error e =>
      rw [hr] at h₁
      obtain ⟨s₂, es₃, rfl, h₂⟩ := runs_measure_bind h₁
      obtain ⟨ts, hcourse, rfl, rfl⟩ := ih h₂
      refine ⟨t :: ts, .failed hhost hfits hr hcourse, ?_, rfl⟩
      simp [Trial.events, hr, hhost, Except.isOk, Except.toBool]

/-! ## What a course says -/

namespace Course

variable {index left : Nat} {last : String} {ts : List Trial}

theorem length_le (h : Course c r circuits index left last ts result) : ts.length ≤ left := by
  induction h with
  | exhausted => exact Nat.le_refl 0
  | answered _ _ _ => exact Nat.succ_le_succ (Nat.zero_le _)
  | failed _ _ _ _ ih => exact Nat.succ_le_succ ih

/-- Each attempt is at the host whose turn it is, and the breakers are then as the attempts before
have left them. -/
theorem getElem? (h : Course c r circuits index left last ts result) {i : Nat} {t : Trial}
    (ht : ts[i]? = some t) :
    t.host = c.hostAt (index + i) ∧ t.Fits c r ((ts.take i).foldl Trial.after circuits) := by
  induction h generalizing i with
  | exhausted => cases ht
  | answered hhost hfits _ =>
    cases i with
    | zero =>
      cases ht
      exact ⟨hhost, hfits⟩
    | succ i => cases ht
  | failed hhost hfits _ _ ih =>
    cases i with
    | zero =>
      cases ht
      exact ⟨hhost, hfits⟩
    | succ i =>
      obtain ⟨hnext, hrest⟩ := ih ht
      rw [Nat.add_assoc, Nat.add_comm 1] at hnext
      exact ⟨hnext, hrest⟩

/-- A course ends with the first answer below 500, or after the last attempt. -/
theorem ends (h : Course c r circuits index left last ts result) :
    (∃ front t a, ts = front ++ [t] ∧ (∀ t' ∈ front, t'.Fails) ∧ t.result = .ok a ∧
      result = .ok a) ∨
    (ts.length = left ∧ (∀ t ∈ ts, t.Fails) ∧
      result = .error (.exhausted (.ofNat c.attempts) ((ts.getLast?.map Trial.message).getD last)))
    := by
  induction h with
  | exhausted => exact .inr ⟨rfl, by simp, rfl⟩
  | answered _ _ hok => exact .inl ⟨[], _, _, rfl, by simp, hok, rfl⟩
  | @failed _ _ _ _ t e ts _ _ _ herr _ ih =>
    have hfails : t.Fails := Trial.fails_iff.mpr ⟨e, herr⟩
    rcases ih with ⟨front, t', a, rfl, hfront, hok, hresult⟩ | ⟨hlength, hall, hresult⟩
    · exact .inl ⟨t :: front, t', a, rfl, List.forall_mem_cons.mpr ⟨hfails, hfront⟩, hok, hresult⟩
    · refine .inr ⟨by rw [List.length_cons, hlength], List.forall_mem_cons.mpr ⟨hfails, hall⟩, ?_⟩
      rw [hresult, List.getLast?_cons, ← Trial.message_eq herr]
      simp [Option.getD_map]

end Course

/-! ## What is sent -/

/-- The requests that were handed to the network, in order. -/
def sendings (es : List (Event network)) : List HostRequest :=
  es.filterMap fun e =>
    match e.call with
    | .send q => some q
    | _ => none

theorem sendings_sent (q : HostRequest) (answer : Except NetworkError Response) :
    sendings (sent q answer) = if q.isWritable then [q] else [] := by
  rw [sent]
  split <;> rfl

/-- An attempt that is let through sends the request, if it can be written. -/
theorem sendings_events (c : Cluster) (r : Request) (t : Trial) :
    sendings (t.events c r) =
      if t.passed && (c.hostRequest t.host r).isWritable then [c.hostRequest t.host r] else [] := by
  rw [sendings, Trial.filterMap_events (fun _ => rfl) (fun _ => rfl)]
  cases t with
  | rejected host asked => rfl
  | tried host asked answer told =>
    refine (List.append_nil _).trans ?_
    exact sendings_sent (c.hostRequest host r) answer

/-! ## The hosts of some settings -/

theorem Cluster.ofConfig_eq_ok {config : Config} (h : config.hosts ≠ []) :
    ∃ c, Cluster.ofConfig config = .ok c ∧ c.hosts = config.hosts.map Cluster.trimHost ∧
      c.attempts = max 1 config.maxHostAttempts.toNat := by
  have named : config.hosts.map Cluster.trimHost ≠ [] := by simpa using h
  exact ⟨_, dif_pos named, rfl, rfl⟩

theorem Cluster.hosts_getElem? (c : Cluster) (i : Nat) :
    c.hosts[i % c.hosts.length]? = some (c.hostAt i) :=
  List.getElem?_eq_getElem _

/-- Whatever the network does, a request runs a course from the first host on. -/
theorem Cluster.request_trace (c : Cluster)
    (handle : (x : NetworkCall) → σ → network.Answer x × σ) (s : σ) (circuits : HostCircuits k)
    (r : Request) :
    let run := (c.request circuits r).trace handle s
    ∃ ts, Course c r circuits 0 c.attempts "" ts run.2.1.2 ∧
      run.1 = ts.flatMap (Trial.events c r) ++ [closing r run.2.1.2] ∧
      run.2.1.1 = ts.foldl Trial.after circuits := by
  intro run
  have h : Runs (fun (_ : Unit) _ _ => True) (c.request circuits r) () run.1 run.2.1 () :=
    Program.runs_trace (fun _ => ()) (fun _ _ => trivial) _ _
  exact runs_requestFrom h

/-- How a request goes to the hosts of some settings, attempt by attempt: which host each is at,
whether it is let through and what it sends, and how the last of them ends the request. -/
structure FailsOver (config : Config) (c : Cluster) (r : Request) (circuits : HostCircuits k)
    (ts : List Trial) (es : List (Event network)) (result : Except TransportError Response) :
    Prop where
  calls : es = ts.flatMap (Trial.events c r) ++ [closing r result]
  length_le : ts.length ≤ max 1 config.maxHostAttempts.toNat
  turn : ∀ (i : Nat) (t : Trial), ts[i]? = some t →
    config.hosts[i % config.hosts.length]?.map Cluster.trimHost = some t.host
  /-- The breakers are those which the attempts before have left. -/
  passed_eq : ∀ (i : Nat) (t : Trial), ts[i]? = some t →
    t.passed = (((ts.take i).foldl Trial.after circuits).pass t.host t.asked).2
  sends : ∀ (i : Nat) (t : Trial), ts[i]? = some t → sendings (t.events c r) =
    if t.passed && (c.hostRequest t.host r).isWritable then [c.hostRequest t.host r] else []
  /-- A request that cannot be written is a connection that failed. -/
  unsent : ∀ (i : Nat) (t : Trial), ts[i]? = some t → t.passed = true →
    (c.hostRequest t.host r).isWritable = false →
    t.result = .error (.connect t.host "builder error")
  ends :
    (∃ front t a, ts = front ++ [t] ∧ (∀ t' ∈ front, t'.Fails) ∧
      t.response? = some a ∧ a.status < 500 ∧ result = .ok a) ∨
    (ts.length = max 1 config.maxHostAttempts.toNat ∧ (∀ t ∈ ts, t.Fails) ∧
      ∃ t e attempts, ts.getLast? = some t ∧ t.result = .error e ∧
        attempts.toNat = max 1 config.maxHostAttempts.toNat ∧
        result = .error (.exhausted attempts e.message))

/-- What a course of the cluster of some settings says in terms of these. -/
theorem Course.failsOver {config : Config} {ts : List Trial}
    (h : Course c r circuits 0 c.attempts "" ts result)
    (hhosts : c.hosts = config.hosts.map Cluster.trimHost)
    (hattempts : c.attempts = max 1 config.maxHostAttempts.toNat)
    (hes : es = ts.flatMap (Trial.events c r) ++ [closing r result]) :
    FailsOver config c r circuits ts es result where
  calls := hes
  length_le := hattempts ▸ h.length_le
  turn i t ht := by
    have turn := c.hosts_getElem? i
    rw [hhosts, List.length_map, List.getElem?_map] at turn
    rw [turn, (h.getElem? ht).1, Nat.zero_add]
  passed_eq _ _ ht := (h.getElem? ht).2.passed_eq
  sends _ t _ := sendings_events c r t
  unsent _ _ ht := (h.getElem? ht).2.result_eq
  ends := by
    rcases h.ends with ⟨front, t, a, hts, hfront, hok, hresult⟩ | ⟨hlength, hall, hresult⟩
    · obtain ⟨ha, hlow⟩ := Trial.result_eq_ok_iff.mp hok
      exact .inl ⟨front, t, a, hts, hfront, ha, hlow, hresult⟩
    · rw [hattempts] at hlength hresult
      -- There is at least one attempt, and so a last one.
      have hne : ts ≠ [] := List.ne_nil_of_length_pos (by omega)
      obtain ⟨t, ht⟩ := Option.isSome_iff_exists.mp (List.getLast?_isSome.mpr hne)
      obtain ⟨e, he⟩ := Trial.fails_iff.mp (hall t (List.mem_of_getLast? ht))
      have fits : max 1 config.maxHostAttempts.toNat < 2 ^ 64 := by
        have := config.maxHostAttempts.toNat_lt
        omega
      refine .inr ⟨hlength, hall, t, e, _, ht, he, UInt64.toNat_ofNat_of_lt' fits, ?_⟩
      rw [hresult, ht, ← Trial.message_eq he]
      rfl

/-- A network without a clock in which only one host answers. -/
def onlyAt (host : String) : (x : NetworkCall) → Unit → network.Answer x × Unit
  | .send q, _ => (if q.host = host then .ok ⟨404, "no index"⟩ else .error (.failed "refused"), ())
  | .now, _ => ((0 : Nat), ())
  | .measure _, _ => ((), ())

def twoHosts : Config := { hosts := ["http://a/", "http://b"], maxHostAttempts := 5 }

end ContentIndex.Engine
