import ContentIndex.Proofs.Resilience.Pacing
import Mathlib.Data.Nat.Find
import Mathlib.Order.Bounds.Basic

/-
  How often an operation is tried. Its calls and the pauses between them are written down in the
  order in which they come. They take a `course`: a call, and then a pause and a call as often as
  the operation fails and attempts are left. So there are as many calls as the budget has, or as it
  takes up to the first success, and the result is that of the last call (`retry_budget`). A delay
  that cannot be computed ends the course behind the call that failed.
-/

namespace ContentIndex

variable {ε α : Type}

/-! ## Calls and pauses -/

/-- What is done while an operation is tried. -/
inductive RetryStep where
  | called
  | waited (nanos : Nat)
deriving DecidableEq, Repr

/-- An operation whose calls have these results, counted from one. -/
def numbered (results : Nat → Except ε α) : StateM (List RetryStep) (Except ε α) := do
  let steps ← get
  set (steps ++ [.called])
  pure (results (steps.count .called + 1))

def pausing (nanos : Nat) : StateM (List RetryStep) Unit :=
  modify (· ++ [.waited nanos])

/-- So many calls, and in front of each but the first the delay of its number. -/
def course (delay : Nat → Nat) (calls : Nat) : List RetryStep :=
  .called :: (List.range' 2 (calls - 1)).flatMap fun i => [.waited (delay i), .called]

theorem course_succ (delay : Nat → Nat) {k : Nat} (hk : 1 ≤ k) :
    course delay (k + 1) = course delay k ++ [.waited (delay (k + 1)), .called] := by
  obtain ⟨j, rfl⟩ := Nat.exists_eq_add_of_le' hk
  rw [course, course, Nat.add_sub_cancel, Nat.add_sub_cancel, List.range'_1_concat,
    List.flatMap_append, List.flatMap_singleton, List.cons_append, Nat.add_comm 2 j]

theorem count_course (delay : Nat → Nat) {k : Nat} (hk : 1 ≤ k) :
    (course delay k).count .called = k := by
  induction k, hk using Nat.le_induction with
  | base => rfl
  | succ k hk ih =>
    rw [course_succ delay hk, List.count_append, ih]
    rfl

/-- A course tells its delays. -/
theorem course_eq_iff {delay delay' : Nat → Nat} {k : Nat} (hk : 1 ≤ k) :
    course delay k = course delay' k ↔ ∀ i, 2 ≤ i → i ≤ k → delay i = delay' i := by
  induction k, hk using Nat.le_induction with
  | base => exact iff_of_true rfl fun i hi hle => by omega
  | succ k hk ih =>
    rw [course_succ delay hk, course_succ delay' hk]
    constructor
    · intro h i hi hle
      obtain ⟨hfront, hback⟩ := List.append_inj' h rfl
      rcases Nat.lt_or_eq_of_le hle with hlt | rfl
      · exact ih.mp hfront i hi (Nat.lt_succ_iff.mp hlt)
      · simpa using hback
    · intro h
      rw [ih.mpr fun i hi hle => h i hi (by omega), h (k + 1) (by omega) (Nat.le_refl _)]

theorem run_numbered (results : Nat → Except ε α) {delay : Nat → Nat} {k : Nat} (hk : 1 ≤ k)
    {steps : List RetryStep} (h : steps ++ [.called] = course delay k) :
    (numbered results).run steps = (results k, course delay k) := by
  have hcount : steps.count .called + 1 = k := by
    have hcount := congrArg (List.count .called) h
    rwa [List.count_append, count_course delay hk] at hcount
  rw [← h, ← hcount]
  rfl

/-! ## From attempt to attempt -/

section

variable {m : Type → Type} [Monad m] [LawfulMonad m] {operation : m (Except ε α)}

/-- An attempt with others left is the last one if it succeeds. -/
theorem run_retryFrom_succ {pause : Nat → OptionT m Unit} {attempt left : Nat} :
    (retryFrom pause (OptionT.lift operation) attempt (left + 1)).run =
      operation >>= fun result =>
        match result with
        | .ok a => pure (some (.ok a))
        | .error _ =>
          (do pause (attempt + 1)
              retryFrom pause (OptionT.lift operation) (attempt + 1) left).run := by
  rw [retryFrom, OptionT.run_bind, OptionT.run_lift, Option.elimM, bind_assoc]
  refine bind_congr fun result => ?_
  rw [pure_bind]
  cases result <;> rfl

/-- A pause comes before what is next. If its delay cannot be computed, nothing is next. -/
theorem run_pause_bind (p : RetryPolicy) (wait : Nat → m Unit) (attempt : Nat)
    (next : OptionT m (Except ε α)) :
    (do p.pause wait attempt
        next).run =
      match p.delayFor? attempt with
      | some nanos => wait nanos >>= fun _ => next.run
      | none => pure none := by
  rw [RetryPolicy.pause, bind_assoc, OptionT.run_bind, OptionT.run_mk, Option.elimM, pure_bind]
  cases p.delayFor? attempt with
  | none => rfl
  | some nanos =>
    simp only [Option.elim_some, OptionT.run_bind, OptionT.run_lift, Option.elimM, bind_assoc,
      pure_bind]

/-- If all delays can be computed, there is a result. -/
theorem run_retryFrom_of_isSome (p : RetryPolicy) (wait : Nat → m Unit) {attempt left : Nat}
    (h : ∀ i ≤ attempt + left, (p.delayFor? i).isSome = true) :
    (retryFrom (p.pause wait) (OptionT.lift operation) attempt left).run =
      some <$> retryFrom (fun i => wait (p.delayFor i)) operation attempt left := by
  induction left generalizing attempt with
  | zero =>
    rw [retryFrom, retryFrom, OptionT.run_lift, bind_pure_comp]
  | succ left ih =>
    rw [run_retryFrom_succ, retryFrom, map_bind]
    refine bind_congr fun result => ?_
    cases result with
    | ok a => exact (map_pure some (Except.ok a)).symm
    | error e =>
      obtain ⟨nanos, hnanos⟩ := Option.isSome_iff_exists.mp (h (attempt + 1) (by omega))
      have hdelay : p.delayFor (attempt + 1) = nanos := by
        rw [RetryPolicy.delayFor, hnanos, Option.getD_some]
      dsimp only
      rw [run_pause_bind, hnanos, map_bind, hdelay]
      dsimp only
      rw [ih fun i hi => h i (by omega)]

/-- The delays of the policy for whole indices can be computed, so an operation that is repeated
under it is retried. -/
theorem run_retry_admin (wait : Nat → m Unit) (operation : m (Except ε α)) :
    (retry wait .admin operation).run =
      some <$> RetryPolicy.admin.repeated (fun i => wait (RetryPolicy.admin.delayFor i))
        operation :=
  run_retryFrom_of_isSome .admin wait (by decide +kernel)

end

/-! ## The course of the attempts -/

/-- The least number from some number on, if that has the property itself. -/
theorem eq_of_isLeast {P : Nat → Prop} {first k : Nat} (hk : IsLeast {i | first ≤ i ∧ P i} k)
    (h : P first) : first = k :=
  Nat.le_antisymm hk.1.1 (hk.2 ⟨Nat.le_refl first, h⟩)

/-- It is looked for behind a number that has not. -/
theorem isLeast_succ {P : Nat → Prop} {first k : Nat} (hk : IsLeast {i | first ≤ i ∧ P i} k)
    (h : ¬ P first) : IsLeast {i | first + 1 ≤ i ∧ P i} k := by
  have hne : first ≠ k := by
    rintro rfl
    exact h hk.1.2
  exact ⟨⟨Nat.lt_of_le_of_ne hk.1.1 hne, hk.1.2⟩,
    fun i hi => hk.2 ⟨Nat.le_of_succ_le hi.1, hi.2⟩⟩

namespace RetryPolicy

/-- The attempts from some number on, with so many left if it fails. -/
def tries (p : RetryPolicy) (results : Nat → Except ε α) (attempt left : Nat)
    (steps : List RetryStep) : Option (Except ε α) × List RetryStep :=
  (retryFrom (p.pause pausing) (OptionT.lift (numbered results)) attempt left).run.run steps

variable {p : RetryPolicy} {results : Nat → Except ε α} {k left : Nat} {steps : List RetryStep}

/-- An attempt that succeeds, or is the last one. -/
theorem tries_ended (hk : 1 ≤ k) (h : steps ++ [.called] = course p.delayFor k)
    (hend : (results k).isOk = true ∨ left = 0) :
    p.tries results k left steps = (some (results k), course p.delayFor k) := by
  have hrun := run_numbered results hk h
  cases left with
  | zero =>
    rw [tries, retryFrom, OptionT.run_lift, StateT.run_bind, hrun]
    rfl
  | succ left =>
    cases hresult : results k with
    | ok a =>
      rw [tries, run_retryFrom_succ, StateT.run_bind, hrun, hresult]
      rfl
    | error e => simp [hresult, Except.isOk, Except.toBool] at hend

/-- An attempt that fails, with others left. -/
theorem tries_failed (hk : 1 ≤ k) (h : steps ++ [.called] = course p.delayFor k)
    (hfailed : (results k).isOk = false) :
    p.tries results k (left + 1) steps =
      match p.delayFor? (k + 1) with
      | some nanos => p.tries results (k + 1) left (course p.delayFor k ++ [.waited nanos])
      | none => (none, course p.delayFor k) := by
  have hrun := run_numbered results hk h
  cases hresult : results k with
  | ok a => simp [hresult, Except.isOk, Except.toBool] at hfailed
  | error e =>
    rw [tries, run_retryFrom_succ, StateT.run_bind, hrun, hresult]
    refine (congrArg (StateT.run · (course p.delayFor k)) (run_pause_bind ..)).trans ?_
    cases p.delayFor? (k + 1) <;> rfl

/-- The attempts end at the first that succeeds or the last, if they get so far. By induction on the
attempts that are left: one that fails hands over to the next, behind its pause. -/
theorem tries_course {attempt last : Nat} (hattempt : 1 ≤ attempt) (hlast : attempt + left = last)
    (h : steps ++ [.called] = course p.delayFor attempt)
    (hk : IsLeast {i | attempt ≤ i ∧ ((results i).isOk = true ∨ i = last)} k) :
    ((p.delayFor? k).isSome = true →
      p.tries results attempt left steps = (some (results k), course p.delayFor k)) ∧
    ∀ i, attempt ≤ i → i < k → (p.delayFor? i).isSome = true → p.delayFor? (i + 1) = none →
      p.tries results attempt left steps = (none, course p.delayFor i) := by
  induction left generalizing attempt steps with
  | zero =>
    obtain rfl := eq_of_isLeast hk (.inr hlast)
    exact ⟨fun _ => tries_ended hattempt h (.inr rfl), fun i hi hlt => by omega⟩
  | succ left ih =>
    cases hresult : (results attempt).isOk with
    | true =>
      obtain rfl := eq_of_isLeast hk (.inl hresult)
      exact ⟨fun _ => tries_ended hattempt h (.inl hresult), fun i hi hlt => by omega⟩
    | false =>
      have hfailed : ¬ ((results attempt).isOk = true ∨ attempt = last) := by
        rw [hresult, Bool.false_eq_true, false_or]
        omega
      have hnext := isLeast_succ hk hfailed
      have hlater : attempt + 1 ≤ k := hnext.1.1
      rw [tries_failed hattempt h hresult]
      cases hdelay : p.delayFor? (attempt + 1) with
      | none =>
        have hmissing (i : Nat) (hi : attempt + 1 ≤ i) (hsome : (p.delayFor? i).isSome = true) :
            False := by
          have hsome' := p.isSome_delayFor?_of_le hi hsome
          rw [hdelay] at hsome'
          cases hsome'
        refine ⟨fun hsome => (hmissing k hlater hsome).elim, fun i hi hlt hsome _ => ?_⟩
        obtain rfl : i = attempt := by
          by_contra hne
          exact hmissing i (by omega) hsome
        rfl
      | some nanos =>
        have hnanos : p.delayFor (attempt + 1) = nanos := by
          rw [delayFor, hdelay, Option.getD_some]
        have hcourse : course p.delayFor attempt ++ [.waited nanos] ++ [.called] =
            course p.delayFor (attempt + 1) := by
          rw [course_succ _ hattempt, hnanos, List.append_assoc]
          rfl
        obtain ⟨hreached, hstopped⟩ := ih (Nat.le_add_left 1 attempt) (by omega) hcourse hnext
        refine ⟨hreached, fun i hi hlt hsome hnone => ?_⟩
        have hne : i ≠ attempt := by
          rintro rfl
          rw [hdelay] at hnone
          cases hnone
        exact hstopped i (by omega) hlt hsome hnone

/-- All pauses of a course are the same exactly if its delays are. -/
theorem course_constant_iff (p : RetryPolicy) (delay : Nat) (hk : 1 ≤ k) :
    (p.delayFor? k).isSome = true ∧ course p.delayFor k = course (fun _ => delay) k ↔
      ∀ i, 2 ≤ i → i ≤ k → p.delayFor? i = some delay := by
  rw [course_eq_iff hk]
  constructor
  · rintro ⟨hsome, hdelays⟩ i hi hle
    obtain ⟨nanos, hnanos⟩ := Option.isSome_iff_exists.mp (p.isSome_delayFor?_of_le hle hsome)
    have hdelay : p.delayFor i = delay := hdelays i hi hle
    rw [delayFor, hnanos, Option.getD_some] at hdelay
    rw [hnanos, hdelay]
  · intro h
    constructor
    · rcases Nat.lt_or_eq_of_le hk with hlt | rfl
      · rw [h k hlt (Nat.le_refl k)]
        rfl
      · rfl
    · intro i hi hle
      rw [delayFor, h i hi hle, Option.getD_some]

end RetryPolicy

/-- An operation is called as often as the budget allows, or up to its first success, and the result
is that of the last call; in front of each call but the first there is a pause of its delay. This
is so exactly if these delays can be computed; else the first that cannot ends the attempts.
Under a bulk policy all pauses are the delay it was given exactly if there is at most one, or the
delay stays the same when it is counted anew, and below 2 ^ 23 seconds it does. -/
theorem retry_budget (p : RetryPolicy) (results : Nat → Except ε α) :
    let outcome := (retry pausing p (numbered results)).run.run []
    ∃ k, IsLeast {i | 1 ≤ i ∧ ((results i).isOk = true ∨ i = max 1 p.attempts.toNat)} k ∧
      (outcome = (some (results k), course p.delayFor k) ↔ (p.delayFor? k).isSome = true) ∧
      (∀ i, 1 ≤ i → i < k → (p.delayFor? i).isSome = true → p.delayFor? (i + 1) = none →
        outcome = (none, course p.delayFor i)) ∧
      ∀ attempts delay, p = .bulk attempts delay →
        (outcome = (some (results k), course (fun _ => delay) k) ↔
          k ≤ 2 ∨ p.nextDelay? delay = some delay) ∧
        (delay < 2 ^ 23 * nanosPerSecond → p.nextDelay? delay = some delay) := by
  intro outcome
  have hbudget : 1 + (p.attempts.toNat - 1) = max 1 p.attempts.toNat := by omega
  obtain ⟨k, hk⟩ : ∃ k, IsLeast
      {i | 1 ≤ i ∧ ((results i).isOk = true ∨ i = max 1 p.attempts.toNat)} k := by
    classical
    exact ⟨_, Nat.isLeast_find (⟨_, Nat.le_max_left 1 _, .inr rfl⟩ :
      ∃ i, 1 ≤ i ∧ ((results i).isOk = true ∨ i = max 1 p.attempts.toNat))⟩
  have hk' : 1 ≤ k := hk.1.1
  obtain ⟨hreached, hstopped⟩ : ((p.delayFor? k).isSome = true →
      outcome = (some (results k), course p.delayFor k)) ∧
      ∀ i, 1 ≤ i → i < k → (p.delayFor? i).isSome = true → p.delayFor? (i + 1) = none →
        outcome = (none, course p.delayFor i) :=
    RetryPolicy.tries_course (Nat.le_refl 1) hbudget rfl hk
  have hresult (o : Except ε α) (steps : List RetryStep) (h : outcome = (some o, steps)) :
      (p.delayFor? k).isSome = true := by
    rw [← Option.ne_none_iff_isSome]
    intro hnone
    obtain ⟨i, hi, hlt, hsome, hmissing⟩ := RetryPolicy.exists_missing hk' hnone
    rw [hstopped i hi hlt hsome hmissing] at h
    cases h
  refine ⟨k, hk, ⟨hresult _ _, hreached⟩, hstopped, ?_⟩
  rintro attempts delay rfl
  refine ⟨?_, RetryPolicy.bulk_nextDelay? attempts⟩
  rw [← RetryPolicy.bulk_delays_iff attempts delay hk', ← RetryPolicy.course_constant_iff _ _ hk']
  constructor
  · intro h
    have hsome := hresult _ _ h
    exact ⟨hsome, congrArg Prod.snd ((hreached hsome).symm.trans h)⟩
  · rintro ⟨hsome, hcourse⟩
    exact (hreached hsome).trans (congrArg (Prod.mk _) hcourse)

/-- A bulk policy with a delay of 2 ^ 23 seconds and six milliseconds. The second pause lacks a
nanosecond. -/
theorem retry_bulk_uneven :
    (retry pausing (.bulk 3 8388608006000000)
      (numbered fun _ => (.error "a" : Except String Nat))).run.run [] =
      (some (.error "a"),
        [.called, .waited 8388608006000000, .called, .waited 8388608005999999, .called]) := by
  change @Eq (Option (Except String Nat) × List RetryStep) _ _
  decide +kernel

end ContentIndex
