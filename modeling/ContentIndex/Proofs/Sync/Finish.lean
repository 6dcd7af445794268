import ContentIndex.Proofs.Bulk.Tally
import ContentIndex.Proofs.Indexer.Conservation
import ContentIndex.Proofs.Indexer.Trace
import ContentIndex.Sync.Session

/-
  What the end of a session does with its queue, whatever the content store, the store of records
  and the engine do. The items that wait are written first (`Written`), the highest id first; then
  each id that waits for its removal gets one request, again the highest first. The removals come
  after an error of the write as after its success, and only then is the error handed on
  (`finish_applies`). One removal is one exchange (`runs_deleteOne`), and all of them are as many
  (`runs_removeAll`).
-/

namespace ContentIndex

open Program (Runs runs_bind_except runs_bind_iff runs_done_iff)

variable {σ : Type} {E : Effect surroundings σ} {s s' : σ} {es : List (Event surroundings)}

/-! ## Exchanges as events -/

/-- The event of an exchange. -/
def Exchange.event (t : Exchange) : Event surroundings := ⟨.engine t.request, t.answer⟩

theorem exchanges_events (ts : List Exchange) : exchanges (ts.map Exchange.event) = ts := by
  induction ts with
  | nil => rfl
  | cons t ts ih => exact congrArg (t :: ·) ih

/-- What an operation ends with is a value, be it of an error. -/
theorem runs_result {α : Type} {a : Action α} {r : Except IndexError (Except IndexError α)}
    (h : Runs E a.result.run s es r s') : ∃ v, r = .ok v ∧ Runs E a.run s es v s' := by
  obtain ⟨v, s₁, es₁, es₂, rfl, h₁, h₂⟩ := runs_bind_iff.mp h
  obtain ⟨rfl, rfl, rfl⟩ := runs_done_iff.mp h₂
  exact ⟨v, rfl, by rwa [List.append_nil]⟩

/-! ## Items of a bulk write -/

namespace Indexer

variable {x : Indexer} {paths : Engine.Paths} {offset : Option UInt64}

/-- What a queue wants written is written: nothing at all if it is empty, and else all of it in one
bulk write, which fetches the items in order and posts what is to be written. -/
structure Written (x : Indexer) (E : Effect surroundings σ) (ids : List UInt64) (s : σ)
    (es : List (Event surroundings)) (r : Except IndexError BulkOutcome) (s' : σ) : Prop where
  nothing : ids = [] → es = [] ∧ r = .ok {} ∧ s' = s
  runs : ids ≠ [] → Program.Runs E (x.bulkIndex ids).run s es r s'
  fetched : (fetches es).map (·.id) <+: ids
  posted : ∀ t ∈ exchanges es, t.request.method = .post
  /-- A write that ends with an outcome has fetched all items, and the outcome counts what became
  of them. -/
  counted : ∀ o, r = .ok o → (fetches es).map (·.id) = ids ∧
    ∃ ds, Tally x x.paths (fetches es) (exchanges es) [] ds o

theorem posts_bulkInto {ids : List UInt64} {r : Except IndexError BulkOutcome}
    (h : Program.Runs E (x.bulkInto paths offset ids).run s es r s') {t : Exchange}
    (ht : t ∈ exchanges es) : t.request.method = .post := by
  obtain ⟨⟨c, a⟩, he, hx⟩ := List.mem_filterMap.mp ht
  have hc := (Program.Always.of_runs (fills_bulkInto (x := x) ids) h).1 _ he
  cases c with
  | engine q =>
    cases hx
    exact hc
  | _ => cases hx

theorem written_bulkIndex {ids : List UInt64} {r : Except IndexError BulkOutcome}
    (hids : ids ≠ []) (h : Program.Runs E (x.bulkIndex ids).run s es r s') :
    Written x E ids s es r s' := by
  refine ⟨fun hn => absurd hn hids, fun _ => h, fetches_bulkInto h, fun t => posts_bulkInto h, ?_⟩
  rintro o rfl
  -- The tally asks nothing of the state, so that the effect may be forgotten.
  obtain ⟨fetched, tally, -⟩ :=
    runs_bulkInto_tally idle_anyAnswer (Follow.trivial _ x none) h.forget
  exact ⟨fetched, tally⟩

theorem written_nil (x : Indexer) (E : Effect surroundings σ) (s : σ) :
    Written x E [] s [] (.ok {}) s := by
  refine ⟨fun _ => ⟨rfl, rfl, rfl⟩, fun h => absurd rfl h, List.nil_prefix, ?_, ?_⟩
  · intro t ht
    cases ht
  · intro o ho
    cases ho
    exact ⟨rfl, [], .nil x x.paths⟩

/-! ## Removals -/

/-- The request that removes a document. -/
def removal (x : Indexer) (id : UInt64) : Engine.Request :=
  (Engine.Request.delete (x.paths.document id)).withTimeout x.config.requestTimeoutMs

/-- Removing a document is one exchange, and never an error. -/
theorem runs_deleteOne {id : UInt64} {r : Except IndexError Bool}
    (h : Program.Runs E (x.deleteOne id).run s es r s') :
    ∃ a, es = [⟨.engine (x.removal id), a⟩] ∧ r = .ok (isRemoved a) := by
  obtain ⟨a, s₁, es', rfl, -, h⟩ := runs_ask_bind (c := .engine (x.removal id)) h
  obtain ⟨rfl, rfl, -⟩ := runs_done_iff.mp h
  exact ⟨a, rfl, rfl⟩

end Indexer

/-- The engine has answered with a success, or that there is no such document. -/
def Exchange.Gone (t : Exchange) : Prop :=
  ∃ r, t.answer = .ok r ∧ (200 ≤ r.status ∧ r.status < 300 ∨ r.status = 404)

theorem Exchange.gone_iff {t : Exchange} : t.Gone ↔ Indexer.isRemoved t.answer = true := by
  unfold Gone Indexer.isRemoved
  cases t.answer with
  | error e => simp
  | ok r => simp [Engine.Response.isSuccess]

instance : DecidablePred Exchange.Gone := fun _ => decidable_of_iff' _ Exchange.gone_iff

namespace Sync

/-- Removes one of several documents, and counts it. -/
def removeNext (x : Indexer) (n : Nat × Nat) (id : UInt64) : Action (Nat × Nat) := do
  if ← x.deleteOne id then pure (n.1 + 1, n.2) else pure (n.1, n.2 + 1)

theorem runs_removeNext {x : Indexer} {n : Nat × Nat} {id : UInt64}
    {r : Except IndexError (Nat × Nat)}
    (h : Program.Runs E (removeNext x n id).run s es r s') :
    ∃ t : Exchange, es = [t.event] ∧ t.request = x.removal id ∧
      r = .ok (if t.Gone then (n.1 + 1, n.2) else (n.1, n.2 + 1)) := by
  rcases runs_bind_except.mp h with ⟨e, h₁, -⟩ | ⟨removed, s₁, es₁, es₂, rfl, h₁, h₂⟩
  · obtain ⟨a, -, he⟩ := Indexer.runs_deleteOne h₁
    cases he
  · obtain ⟨a, rfl, hr⟩ := Indexer.runs_deleteOne h₁
    cases hr
    have ends : es₂ = [] ∧ r = .ok (if Indexer.isRemoved a then (n.1 + 1, n.2)
        else (n.1, n.2 + 1)) := by
      cases hg : Indexer.isRemoved a <;> rw [hg] at h₂
      all_goals
        obtain ⟨rfl, rfl, -⟩ := runs_done_iff.mp h₂
        exact ⟨rfl, rfl⟩
    refine ⟨⟨x.removal id, a⟩, by rw [ends.1]; rfl, rfl, ?_⟩
    rw [ends.2]
    simp only [Exchange.gone_iff]

/-- The removals of a session are one exchange each, in order, and each is counted. -/
theorem runs_removals {x : Indexer} {ids : List UInt64} {n : Nat × Nat}
    {r : Except IndexError (Nat × Nat)}
    (h : Program.Runs E (ids.foldlM (removeNext x) n).run s es r s') :
    ∃ ts : List Exchange, es = ts.map Exchange.event ∧ ts.map (·.request) = ids.map x.removal ∧
      r = .ok (n.1 + ts.countP (·.Gone), n.2 + ts.countP (¬ ·.Gone)) := by
  induction ids generalizing n s es with
  | nil =>
    obtain ⟨rfl, rfl, -⟩ := runs_done_iff.mp h
    exact ⟨[], rfl, rfl, rfl⟩
  | cons id ids ih =>
    rw [List.foldlM_cons] at h
    rcases runs_bind_except.mp h with ⟨e, h₁, -⟩ | ⟨n₁, s₁, es₁, es₂, rfl, h₁, h₂⟩
    · obtain ⟨t, -, -, he⟩ := runs_removeNext h₁
      cases he
    · obtain ⟨t, rfl, ht, hn⟩ := runs_removeNext h₁
      obtain ⟨ts, rfl, hts, rfl⟩ := ih h₂
      refine ⟨t :: ts, rfl, by rw [List.map_cons, List.map_cons, ht, hts], ?_⟩
      cases hn
      by_cases hg : t.Gone <;> simp [hg, Nat.add_assoc, Nat.add_comm 1]

/-- Writes the items that wait, if there are any. -/
def write (x : Indexer) (ids : List UInt64) : Action (Except IndexError BulkOutcome) :=
  if ids.isEmpty then pure (.ok {}) else (x.bulkIndex ids).result

/-- The end of a session in its two halves. -/
theorem finish_eq (x : Indexer) (q : Queue) :
    finish x q = (do
      Action.measure (.drained q.pending.size q.removals.size)
      let written ← write x q.pending.descending
      let n ← q.removals.descending.foldlM (removeNext x) (0, 0)
      Action.ofExcept id (written.map fun o => ⟨o, n.1, n.2⟩)) := by
  unfold finish write
  rw [← IdSet.length_descending, ← IdSet.length_descending]
  refine congrArg (_ >>= ·) (funext fun _ => ?_)
  simp only
  split <;> rfl

theorem runs_write {x : Indexer} {ids : List UInt64}
    {r : Except IndexError (Except IndexError BulkOutcome)}
    (h : Program.Runs E (write x ids).run s es r s') :
    ∃ written, r = .ok written ∧ x.Written E ids s es written s' := by
  unfold write at h
  split at h
  · rename_i hn
    obtain ⟨rfl, rfl, rfl⟩ := runs_done_iff.mp h
    rw [List.isEmpty_iff.mp hn]
    exact ⟨_, rfl, x.written_nil E s'⟩
  · rename_i hn
    obtain ⟨written, rfl, h₁⟩ := runs_result h
    exact ⟨written, rfl, Indexer.written_bulkIndex (by rwa [List.isEmpty_iff] at hn) h₁⟩

/-- An end of a session, with what became of the write and the exchanges of the removals. -/
structure Ended (x : Indexer) (E : Effect surroundings σ) (q : Queue)
    (es : List (Event surroundings)) (r : Except IndexError Report)
    (written : Except IndexError BulkOutcome) (ts : List Exchange) : Prop where
  /-- What waits is written first, the highest id first; the removals come behind that. -/
  events : ∃ (es₁ : List (Event surroundings)) (s₁ s₂ : σ),
    es = ⟨.measure (.drained q.pending.size q.removals.size), ()⟩ ::
      (es₁ ++ ts.map Exchange.event) ∧
    x.Written E q.pending.descending s₁ es₁ written s₂
  /-- Each id that waits for its removal has one request, the highest first, whatever became of the
  write. -/
  requests : ts.map (·.request) = q.removals.descending.map x.removal
  /-- No other request removes anything. -/
  deletes : (exchanges es).filter (·.request.method = .delete) = ts
  /-- The session fails as the write does, and not otherwise. -/
  fails : ∀ e, r = .error e ↔ written = .error e
  /-- The outcome of the write is passed on, and each removal is counted by its answer. -/
  reports : ∀ report, r = .ok report → written = .ok report.indexed ∧
    report.removed = ts.countP (·.Gone) ∧
    report.removed + report.removalFailures = q.removals.size

theorem exchanges_measured {m : Measurement} {a : surroundings.Answer (.measure m)}
    {ts : List Exchange} :
    exchanges (⟨.measure m, a⟩ :: (es ++ ts.map Exchange.event)) = exchanges es ++ ts := by
  change exchanges (es ++ ts.map Exchange.event) = _
  rw [exchanges_append, exchanges_events]

/-- The requests that remove something are those of the removals. -/
theorem filter_deletes {x : Indexer} {ids : List UInt64} {ts₁ ts : List Exchange}
    (posted : ∀ t ∈ ts₁, t.request.method = .post)
    (requests : ts.map (·.request) = ids.map x.removal) :
    (ts₁ ++ ts).filter (·.request.method = .delete) = ts := by
  have posts : ts₁.filter (·.request.method = .delete) = [] := by
    refine List.filter_eq_nil_iff.mpr fun t ht => ?_
    rw [posted t ht]
    decide
  have deletes : ts.filter (·.request.method = .delete) = ts := by
    refine List.filter_eq_self.mpr fun t ht => ?_
    obtain ⟨id, -, hid⟩ := List.mem_map.mp (requests ▸ List.mem_map_of_mem ht)
    rw [← hid]
    rfl
  rw [List.filter_append, posts, deletes, List.nil_append]

/-- A session ends, whatever its queue holds and whatever the content store, the store of records
and the engine do. Its removals are applied, all of them, also behind a write that fails; and with
an empty queue it sends nothing. -/
theorem finish_applies {x : Indexer} {q : Queue} {r : Except IndexError Report}
    (h : Program.Runs E (finish x q).run s es r s') :
    (∃ written ts, Ended x E q es r written ts) ∧
      (q.isEmpty = true → exchanges es = [] ∧ r = .ok {}) := by
  rw [finish_eq] at h
  obtain ⟨_, s₁, es', rfl, -, h⟩ := runs_ask_bind h
  rcases runs_bind_except.mp h with ⟨e, h₁, -⟩ | ⟨written, s₂, es₁, es₂, rfl, h₁, h₂⟩
  · obtain ⟨_, he, -⟩ := runs_write h₁
    cases he
  obtain ⟨_, hw, W⟩ := runs_write h₁
  cases hw
  rcases runs_bind_except.mp h₂ with ⟨e, h₃, -⟩ | ⟨n, s₃, es₃, es₄, rfl, h₃, h₄⟩
  · obtain ⟨_, -, -, he⟩ := runs_removals h₃
    cases he
  obtain ⟨ts, rfl, requests, hn⟩ := runs_removals h₃
  cases hn
  obtain ⟨rfl, rfl, -⟩ := runs_done_iff.mp h₄
  have size : ts.length = q.removals.size := by
    rw [← List.length_map (·.request), requests, List.length_map, IdSet.length_descending]
  rw [List.append_nil]
  refine ⟨⟨written, ts, ⟨es₁, s₁, s₂, rfl, W⟩, requests, ?_, fun e => ?_, fun report hr => ?_⟩,
    fun hq => ?_⟩
  · rw [exchanges_measured]
    exact filter_deletes W.posted requests
  · cases written with
    | error e' => simp [Except.mapError, Except.map]
    | ok o => simp [Except.mapError, Except.map]
  · cases written with
    | error e' => cases hr
    | ok o =>
      cases hr
      refine ⟨rfl, Nat.zero_add _, ?_⟩
      rw [← size, ts.length_eq_countP_add_countP (·.Gone)]
      simp
  · obtain ⟨hp, hr⟩ := (Bool.and_eq_true _ _).to_iff.mp hq
    rw [IdSet.descending_of_isEmpty hp] at W
    rw [IdSet.descending_of_isEmpty hr] at requests
    obtain ⟨rfl, rfl, -⟩ := W.nothing rfl
    obtain rfl := List.map_eq_nil_iff.mp requests
    exact ⟨exchanges_measured, rfl⟩

/-- A queue with an item that waits, and one that is to be removed. -/
def oneOfEach : Queue := ⟨.ofList [5], .ofList [7]⟩

/-- A world whose item cannot be prepared, and whose store of records cannot be reached. -/
def oneBrokenOffline : World Unit :=
  { engine := (), catalogue := { broken := IdSet.ofList [5] }, memory := { offline := true } }

/-- The write fails since the broken item cannot be noted, and the removal is sent all the same. -/
theorem finish_applies_offline :
    ∃ es e w' ts, Program.Runs (World.answering World.accepting)
        (finish World.plain oneOfEach).run oneBrokenOffline es (.error e) w' ∧
      Ended World.plain (World.answering World.accepting) oneOfEach es (.error e) (.error e) ts ∧
      ts.map (·.request) = [World.plain.removal 7] := by
  have fails : (oneBrokenOffline.perform World.accepting (finish World.plain oneOfEach)).1 =
      .error (.store (.backend "in-memory store offline")) := by
    decide +kernel
  have run : Program.Runs (World.answering World.accepting) (finish World.plain oneOfEach).run
      oneBrokenOffline _ _ _ := World.runs_events _ _
  rw [fails] at run
  obtain ⟨⟨written, ts, ended⟩, -⟩ := finish_applies run
  obtain rfl := (ended.fails _).mp rfl
  exact ⟨_, _, _, ts, run, ended, ended.requests⟩

end Sync
end ContentIndex
