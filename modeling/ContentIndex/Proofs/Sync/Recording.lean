import ContentIndex.Proofs.Program.Execution
import ContentIndex.Proofs.Sync.QueueHistory
import ContentIndex.Sync.Capture
import Mathlib.Data.List.Basic

/-
  What a session has queued. A session is a sequence of turns: changes that are recorded, each in
  circumstances of its own, and ids that are asked for directly. `Judged` is the table of what a
  change leads to, read off the settings and the answer of the content store alone; every turn
  obeys it (`runs_evaluate`). From the empty queue a session ends with the ids whose last turn that
  asked for something asked for that (`session_queues`): a session is a history of the queue in
  which each turn is one operation or none.
-/

namespace ContentIndex.Sync

open Program (Runs runs_bind_except runs_bind_iff runs_call_iff runs_done_iff runs_perform_iff)

variable {σ : Type} {E : Effect content σ} {s s' : σ} {es : List (Event content)} {c : Config}
  {context : Context} {m : Mutation} {answer : Except ContentError Outcome} {q q' : Queue}

/-! ## What a change leads to -/

/-- The settings let items of a type with a status into the index. -/
def StatusListed (c : Config) (type status : String) : Prop :=
  status ∈ c.indexableStatuses ∨ type ∈ c.attachmentTypes ∧ status ∈ c.statusExceptions

/-- The settings let a document into the index. -/
def DocumentListed (c : Config) (d : Document) : Prop :=
  d.type ∈ c.indexableTypes ∧ StatusListed c d.type d.status

theorem typeIndexable_iff {type : String} :
    typeIndexable c type = true ↔ type ∈ c.indexableTypes :=
  List.contains_iff_mem

theorem statusIndexable_iff {type status : String} :
    statusIndexable c type status = true ↔ StatusListed c type status := by
  simp only [statusIndexable, StatusListed, Bool.or_eq_true, Bool.and_eq_true,
    List.contains_iff_mem]

theorem documentIndexable_iff {d : Document} :
    documentIndexable c d = true ↔ DocumentListed c d := by
  rw [documentIndexable, Bool.and_eq_true, typeIndexable_iff, statusIndexable_iff]
  rfl

/-- A change is passed over in transient circumstances, and in others `P` holds. -/
def UnlessTransient (context : Context) (es : List (Event content))
    (answer : Except ContentError Outcome) (P : Prop) : Prop :=
  (context.isTransient = true → es = [] ∧ answer = .ok (.skipped .transient)) ∧
    (context.isTransient = false → P)

/-- What a change may lead to, and the calls of the content store on the way. -/
def Judged (c : Config) (context : Context) (es : List (Event content))
    (answer : Except ContentError Outcome) : Mutation → Prop
  | .deleted _ => es = [] ∧ answer = .ok .queuedRemoval
  | .saved _ status type isRevision =>
    UnlessTransient context es answer <|
      es = [] ∧ ∃ o, answer = .ok o ∧
        (o = .queued ↔
          isRevision = false ∧ type ∈ c.indexableTypes ∧ StatusListed c type status) ∧
        (o = .queuedRemoval ↔
          isRevision = false ∧ type ∈ c.indexableTypes ∧ ¬ StatusListed c type status)
  | .metaChanged id key =>
    UnlessTransient context es answer <|
      ∃ a, es = [⟨.prepare id, a⟩] ∧ (∀ e, answer = .error e ↔ a = .error e) ∧
        (answer = .ok .queued ↔
          ∃ d, a = .ok (some d) ∧ d.hasMeta key = true ∧ DocumentListed c d) ∧
        answer ≠ .ok .queuedRemoval
  | .termsChanged id =>
    UnlessTransient context es answer <|
      ∃ a, es = [⟨.isEligible id, a⟩] ∧ (∀ e, answer = .error e ↔ a = .error e) ∧
        (answer = .ok .queued ↔ a = .ok true) ∧ answer ≠ .ok .queuedRemoval

/-! ### Items that are saved -/

theorem judgeSaved_queued {status type : String} {isRevision : Bool} :
    judgeSaved c status type isRevision = .queued ↔
      isRevision = false ∧ type ∈ c.indexableTypes ∧ StatusListed c type status := by
  rw [← typeIndexable_iff, ← statusIndexable_iff]
  unfold judgeSaved
  cases isRevision <;> cases typeIndexable c type <;> cases statusIndexable c type status <;> simp

theorem judgeSaved_queuedRemoval {status type : String} {isRevision : Bool} :
    judgeSaved c status type isRevision = .queuedRemoval ↔
      isRevision = false ∧ type ∈ c.indexableTypes ∧ ¬ StatusListed c type status := by
  rw [← typeIndexable_iff, ← statusIndexable_iff]
  unfold judgeSaved
  cases isRevision <;> cases typeIndexable c type <;> cases statusIndexable c type status <;> simp

/-! ### Custom fields -/

theorem judgeMeta_queued {key : String} {d? : Option Document} :
    judgeMeta c key d? = .queued ↔
      ∃ d, d? = some d ∧ d.hasMeta key = true ∧ DocumentListed c d := by
  cases d? with
  | none => simp [judgeMeta]
  | some d =>
    simp only [judgeMeta, Option.some.injEq, exists_eq_left', ← documentIndexable_iff]
    cases d.hasMeta key <;> cases documentIndexable c d <;> simp

theorem judgeMeta_ne_queuedRemoval {key : String} {d? : Option Document} :
    judgeMeta c key d? ≠ .queuedRemoval := by
  cases d? with
  | none => simp [judgeMeta]
  | some d =>
    simp only [judgeMeta]
    cases d.hasMeta key <;> cases documentIndexable c d <;> simp

/-! ### All changes -/

theorem unlessTransient {P : Prop}
    (h : context.isTransient = true → Runs E (pure (.skipped .transient) :
      ExceptT ContentError (Program content) Outcome).run s es answer s')
    (hP : context.isTransient = false → P) : UnlessTransient context es answer P := by
  refine ⟨fun ht => ?_, hP⟩
  obtain ⟨rfl, rfl, -⟩ := runs_done_iff.mp (h ht)
  exact ⟨rfl, rfl⟩

theorem map_eq_error_iff {α β ε : Type} {a : Except ε α} {f : α → β} {e : ε} :
    a.map f = .error e ↔ a = .error e := by
  cases a <;> simp [Except.map]

theorem map_eq_ok_iff {α β ε : Type} {a : Except ε α} {f : α → β} {b : β} :
    a.map f = .ok b ↔ ∃ v, a = .ok v ∧ f v = b := by
  cases a <;> simp [Except.map]

/-- What a change leads to is what the table says. -/
theorem runs_evaluate (h : Runs E (evaluate c context m).run s es answer s') :
    Judged c context es answer m := by
  cases m with
  | deleted id =>
    obtain ⟨rfl, rfl, -⟩ := runs_done_iff.mp h
    exact ⟨rfl, rfl⟩
  | saved id status type isRevision =>
    refine unlessTransient (fun ht => by rw [evaluate, if_pos ht] at h; exact h) fun ht => ?_
    simp only [evaluate, ht, Bool.false_eq_true, if_false] at h
    obtain ⟨rfl, rfl, -⟩ := runs_done_iff.mp h
    exact ⟨rfl, _, rfl, judgeSaved_queued, judgeSaved_queuedRemoval⟩
  | metaChanged id key =>
    refine unlessTransient (fun ht => by rw [evaluate, if_pos ht] at h; exact h) fun ht => ?_
    simp only [evaluate, ht, Bool.false_eq_true, if_false] at h
    obtain ⟨a, h₁, rfl⟩ := Program.runs_map_except h
    obtain ⟨rfl, -⟩ := runs_perform_iff.mp h₁
    refine ⟨a, rfl, fun e => map_eq_error_iff, ?_, ?_⟩
    · simp only [map_eq_ok_iff, judgeMeta_queued]
      constructor
      · rintro ⟨d?, rfl, d, rfl, hd⟩
        exact ⟨d, rfl, hd⟩
      · rintro ⟨d, rfl, hd⟩
        exact ⟨_, rfl, d, rfl, hd⟩
    · rw [ne_eq, map_eq_ok_iff]
      rintro ⟨d?, -, hd⟩
      exact judgeMeta_ne_queuedRemoval hd
  | termsChanged id =>
    refine unlessTransient (fun ht => by rw [evaluate, if_pos ht] at h; exact h) fun ht => ?_
    simp only [evaluate, ht, Bool.false_eq_true, if_false] at h
    obtain ⟨a, h₁, rfl⟩ := Program.runs_map_except h
    obtain ⟨rfl, -⟩ := runs_perform_iff.mp h₁
    refine ⟨a, rfl, fun e => map_eq_error_iff, ?_, ?_⟩
    · rw [map_eq_ok_iff]
      constructor
      · rintro ⟨eligible, rfl, he⟩
        cases eligible with
        | true => rfl
        | false => cases he
      · rintro rfl
        exact ⟨true, rfl, rfl⟩
    · rw [ne_eq, map_eq_ok_iff]
      rintro ⟨eligible, -, he⟩
      cases eligible <;> cases he

/-! ## Sessions -/

/-- The queue after a change was recorded with some answer. -/
def Queue.answered (q : Queue) (id : UInt64) : Except ContentError Outcome → Queue
  | .ok o => o.apply q id
  | .error _ => q

/-- A change is judged, whatever the queue holds, and then the queue follows the answer. -/
theorem runs_record (h : Runs E (record c context q m) s es (answer, q') s') :
    Runs E (evaluate c context m).run s es answer s' ∧ q' = q.answered m.id answer := by
  obtain ⟨a, s₁, es₁, es₂, rfl, h₁, h₂⟩ := runs_bind_iff.mp h
  obtain ⟨b, h₃, rfl⟩ := Program.runs_map_except h₁
  cases b with
  | error e =>
    obtain ⟨rfl, hr, rfl⟩ := runs_done_iff.mp h₂
    cases hr
    exact ⟨by rwa [List.append_nil], rfl⟩
  | ok o =>
    obtain ⟨rfl, hr, rfl⟩ := runs_done_iff.mp h₂
    cases hr
    exact ⟨by rwa [List.append_nil], rfl⟩

/-- One turn of a session: a change that is recorded, with the calls of the content store and what
was answered, or an id that is asked for directly. -/
inductive Turn where
  | recorded (context : Context) (m : Mutation) (es : List (Event content))
    (answer : Except ContentError Outcome)
  | enqueued (id : UInt64)

namespace Turn

/-- What a turn asks for, if it asks for something. -/
def asks? : Turn → Option (Purpose × UInt64)
  | recorded _ m _ (.ok .queued) => some (.indexing, m.id)
  | recorded _ m _ (.ok .queuedRemoval) => some (.removal, m.id)
  | recorded _ _ _ (.ok (.skipped _)) | recorded _ _ _ (.error _) => none
  | enqueued id => some (.indexing, id)

/-- What the host asked for in a turn. -/
def request : Turn → Context × Mutation ⊕ UInt64
  | recorded context m _ _ => .inl (context, m)
  | enqueued id => .inr id

/-- The operation of a turn on the queue. -/
def operation? (t : Turn) : Option Queue.Operation :=
  t.asks?.map fun a => .ask a.1 a.2

theorem operation?_eq_some {t : Turn} {p : Purpose} {id : UInt64} :
    t.operation? = some (.ask p id) ↔ t.asks? = some (p, id) := by
  rw [operation?, Option.map_eq_some_iff]
  constructor
  · rintro ⟨⟨r, x⟩, h, hop⟩
    cases hop
    exact h
  · exact fun h => ⟨(p, id), h, rfl⟩

end Turn

/-- A session of some turns. The content store answers as the effect allows it, and takes its state
from turn to turn. -/
inductive Session (c : Config) (E : Effect content σ) : σ → Queue → List Turn → σ → Queue → Prop
  | nil (s : σ) (q : Queue) : Session c E s q [] s q
  | recorded {context : Context} {m : Mutation} {es : List (Event content)}
      {answer : Except ContentError Outcome} {turns : List Turn} {s s₁ s' : σ} {q q₁ q' : Queue} :
      Runs E (record c context q m) s es (answer, q₁) s₁ → Session c E s₁ q₁ turns s' q' →
      Session c E s q (.recorded context m es answer :: turns) s' q'
  | enqueued {id : UInt64} {turns : List Turn} {s s' : σ} {q q' : Queue} :
      Session c E s (q.enqueue id).2 turns s' q' →
      Session c E s q (.enqueued id :: turns) s' q'

/-- The last turn that asks for something for an id asks for this. -/
def AskedLastBy (turns : List Turn) (p : Purpose) (id : UInt64) : Prop :=
  ∃ earlier t later, turns = earlier ++ t :: later ∧ t.asks? = some (p, id) ∧
    ∀ u ∈ later, ∀ r, u.asks? ≠ some (r, id)

namespace Session

variable {turns earlier later : List Turn} {t : Turn}

/-- An answer does to the queue what the operation of its turn does, if there is one. -/
theorem answered_eq (q : Queue) (context : Context) (m : Mutation) (es : List (Event content))
    (answer : Except ContentError Outcome) :
    q.answered m.id answer =
      (Turn.recorded context m es answer).operation?.toList.foldl Queue.next q := by
  cases answer with
  | error e => rfl
  | ok o => cases o <;> rfl

/-- A session makes of the queue what the operations of its turns make of it. -/
theorem queue_eq (h : Session c E s q turns s' q') :
    q' = (turns.filterMap Turn.operation?).foldl Queue.next q := by
  rw [List.filterMap_eq_flatMap_toList]
  induction h with
  | nil => rfl
  | recorded hr _ ih =>
    obtain ⟨-, rfl⟩ := runs_record hr
    rw [ih, List.flatMap_cons, List.foldl_append, answered_eq]
  | enqueued _ ih => exact ih

/-- Each recorded change is judged by the table. -/
theorem judged (h : Session c E s q turns s' q')
    (hm : .recorded context m es answer ∈ turns) : Judged c context es answer m := by
  induction h with
  | nil => cases hm
  | recorded hr _ ih =>
    rcases List.mem_cons.mp hm with he | hm
    · cases he
      exact runs_evaluate (runs_record hr).1
    · exact ih hm
  | enqueued _ ih =>
    rcases List.mem_cons.mp hm with he | hm
    · cases he
    · exact ih hm

/-- A session can be cut before any turn. -/
theorem split (h : Session c E s q (earlier ++ later) s' q') :
    ∃ s₁ q₁, Session c E s q earlier s₁ q₁ ∧ Session c E s₁ q₁ later s' q' := by
  induction earlier generalizing s q with
  | nil => exact ⟨s, q, .nil s q, h⟩
  | cons t earlier ih =>
    cases h with
    | recorded hr h =>
      obtain ⟨s₁, q₁, h₁, h₂⟩ := ih h
      exact ⟨s₁, q₁, .recorded hr h₁, h₂⟩
    | enqueued h =>
      obtain ⟨s₁, q₁, h₁, h₂⟩ := ih h
      exact ⟨s₁, q₁, .enqueued h₁, h₂⟩

/-- Whatever is to be recorded or asked for, and however the content store answers: there is a
session of just that. -/
theorem exists_session (c : Config) (handle : (call : ContentCall) → σ → content.Answer call × σ)
    (requests : List (Context × Mutation ⊕ UInt64)) (s : σ) (q : Queue) :
    ∃ turns s' q', turns.map Turn.request = requests ∧
      Session c (fun s e s' => handle e.call s = (e.answer, s')) s q turns s' q' := by
  induction requests generalizing s q with
  | nil => exact ⟨[], s, q, rfl, .nil s q⟩
  | cons r requests ih =>
    cases r with
    | inl r =>
      have run := Program.runs_trace (F := fun s e s' => handle e.call s = (e.answer, s')) id
        (fun _ _ => rfl) (record c r.1 q r.2) s
      obtain ⟨turns, s', q', hr, h⟩ := ih _ _
      exact ⟨.recorded r.1 r.2 _ _ :: turns, s', q', by rw [List.map_cons, hr]; rfl, .recorded run h⟩
    | inr id =>
      obtain ⟨turns, s', q', hr, h⟩ := ih s (q.enqueue id).2
      exact ⟨.enqueued id :: turns, s', q', by rw [List.map_cons, hr]; rfl, .enqueued h⟩

/-- A turn that asks for nothing leaves the queue as it was. -/
theorem queue_eq_of_asks_none (h : Session c E s q [t] s' q') (ht : t.asks? = none) : q' = q := by
  have none : t.operation? = none := by rw [Turn.operation?, ht, Option.map_none]
  rw [h.queue_eq, List.filterMap_cons_none none]
  rfl

end Session

/-- Which turn asked last is seen from the operations alone. -/
theorem askedLast_operations {turns : List Turn} {p : Purpose} {id : UInt64} :
    Queue.AskedLast (turns.filterMap Turn.operation?) p id ↔ AskedLastBy turns p id := by
  constructor
  · rintro ⟨ops₁, ops₂, h, hlater⟩
    obtain ⟨earlier, rest, rfl, -, hrest⟩ := List.filterMap_eq_append_iff.mp h
    obtain ⟨quiet, t, later, rfl, -, ht, rfl⟩ := List.filterMap_eq_cons_iff.mp hrest
    refine ⟨earlier ++ quiet, t, later, by rw [List.append_assoc], Turn.operation?_eq_some.mp ht,
      fun u hu r hr => ?_⟩
    have hop := List.mem_filterMap.mpr ⟨u, hu, Turn.operation?_eq_some.mpr hr⟩
    exact hlater _ hop rfl
  · rintro ⟨earlier, t, later, rfl, ht, hlater⟩
    refine ⟨earlier.filterMap Turn.operation?, later.filterMap Turn.operation?, ?_, ?_⟩
    · rw [List.filterMap_append, List.filterMap_cons_some (Turn.operation?_eq_some.mpr ht)]
    · intro op hop
      obtain ⟨u, hu, hop⟩ := List.mem_filterMap.mp hop
      obtain ⟨⟨r, x⟩, hr, rfl⟩ := Option.map_eq_some_iff.mp hop
      rintro (rfl : x = id)
      exact hlater u hu r hr

/-- A session that starts with an empty queue. In the end an id waits for that which the last turn
that asked something for it has asked for; a turn that asks for nothing, since its change was passed
over or the content store had no answer for it, leaves the queue as it was; and every change leads
to what the table says of it, in the circumstances in which it was recorded. -/
theorem session_queues {turns : List Turn} (h : Session c E s {} turns s' q) :
    (∀ id, (id ∈ q.pending ↔ AskedLastBy turns .indexing id) ∧
      (id ∈ q.removals ↔ AskedLastBy turns .removal id)) ∧
    (∀ earlier t later, turns = earlier ++ t :: later → ∃ s₁ q₁ s₂ q₂,
      Session c E s {} earlier s₁ q₁ ∧ Session c E s₁ q₁ [t] s₂ q₂ ∧
        Session c E s₂ q₂ later s' q ∧ (t.asks? = none → q₂ = q₁)) ∧
    ∀ context m es answer, .recorded context m es answer ∈ turns →
      Judged c context es answer m := by
  have hq : q = Queue.after (turns.filterMap Turn.operation?) := h.queue_eq
  have waits (p : Purpose) (id : UInt64) : id ∈ q.waiting p ↔ AskedLastBy turns p id := by
    rw [hq, Queue.mem_waiting_after, askedLast_operations]
  refine ⟨fun id => ⟨waits .indexing id, waits .removal id⟩, ?_, fun _ _ _ _ => h.judged⟩
  rintro earlier t later rfl
  obtain ⟨s₁, q₁, h₁, h⟩ := h.split
  have rest : Session c E s₁ q₁ ([t] ++ later) s' q := h
  obtain ⟨s₂, q₂, h₂, h⟩ := rest.split
  exact ⟨s₁, q₁, s₂, q₂, h₁, h₂, h, h₂.queue_eq_of_asks_none⟩

/-- Three turns: a deletion during an import, a change of a custom field that the content store has
no answer for, and a direct request. -/
def importTurns : List Turn := [
  .recorded { importing := true } (.deleted 7) [] (.ok .queuedRemoval),
  .recorded {} (.metaChanged 7 "k") [⟨.prepare 7, .error ⟨"down"⟩⟩] (.error ⟨"down"⟩),
  .enqueued 9]

/-- The deleted item waits for its removal, and the other one for indexing. -/
theorem session_queues_import :
    Session {} (fun (_ : Unit) _ _ => True) () {} importTurns ()
        ⟨.ofList [9], .ofList [7]⟩ ∧
      AskedLastBy importTurns .removal 7 ∧ AskedLastBy importTurns .indexing 9 ∧
      ¬ AskedLastBy importTurns .indexing 7 := by
  have run : Session {} (fun (_ : Unit) _ _ => True) () {} importTurns ()
      ⟨.ofList [9], .ofList [7]⟩ := by
    refine .recorded (.refl _ ()) (.recorded (.call trivial (.refl _ ())) (.enqueued ?_))
    exact .nil () _
  obtain ⟨queued, -, -⟩ := session_queues run
  refine ⟨run, (queued 7).2.mp (by decide), (queued 9).1.mp (by decide), fun h => ?_⟩
  have hp := (queued 7).1.mpr h
  revert hp
  decide

end ContentIndex.Sync
