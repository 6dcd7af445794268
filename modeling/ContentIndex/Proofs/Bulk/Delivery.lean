import Mathlib.Data.List.Chain
import ContentIndex.Indexer.Bulk

/-
  The requests that one batch takes. An answer accepts an id if some item mentions it and none of
  those items is a failure; an answer that cannot be read accepts nothing. Each request but the
  first carries what the one before it left (`Follows`), so an accepted entry is not sent again
  (`Retried.never_again`), and what is left in the end are the entries that no answer accepted
  (`Delivery.pending_eq`).
-/

namespace ContentIndex.Bulk

/-! ## Answers -/

/-- Whether an entry was accepted. -/
def Answer.accepts (a : Answer) (id : UInt64) : Bool :=
  a.mentions id && a.items.all fun i => i.id != id || !i.isFailure

theorem Answer.mem_failed {a : Answer} {id : UInt64} :
    id ∈ a.failed ↔ ∃ i ∈ a.items, i.id = id ∧ i.isFailure = true := by
  unfold Answer.failed
  rw [IdSet.mem_ofList, List.mem_map]
  constructor
  · rintro ⟨i, hi, rfl⟩
    obtain ⟨hi, hf⟩ := List.mem_filter.mp hi
    exact ⟨i, hi, rfl, hf⟩
  · rintro ⟨i, hi, rfl, hf⟩
    exact ⟨i, List.mem_filter.mpr ⟨hi, hf⟩, rfl⟩

/-- An entry was not accepted if it was not mentioned or if it failed. -/
theorem Answer.accepts_eq_false {a : Answer} {id : UInt64} :
    a.accepts id = false ↔ id ∈ a.failed ∨ a.mentions id = false := by
  unfold Answer.accepts
  rw [Bool.and_eq_false_iff, List.all_eq_false, mem_failed, or_comm]
  refine or_congr (exists_congr fun i => and_congr_right fun _ => ?_) Iff.rfl
  simp only [Bool.not_eq_true, Bool.or_eq_false_iff, bne_eq_false_iff_eq, Bool.not_eq_false']

/-- The entries that were submitted are either accepted or rejected. -/
theorem Answer.contains_rejected (a : Answer) {ids : List UInt64} {id : UInt64} (h : id ∈ ids) :
    (a.rejected ids).contains id = !a.accepts id := by
  rw [Bool.eq_iff_iff, IdSet.contains_iff, Bool.not_eq_true', accepts_eq_false]
  unfold Answer.rejected
  rw [IdSet.mem_union, List.mem_filter, Bool.not_eq_true']
  simp only [h, true_and]

/-! ## Requests -/

/-- A bulk request: its entries, and what the engine answered. -/
structure Attempt where
  entries : List Entry
  answer : Except Engine.TransportError Engine.Response

namespace Attempt

/-- What the engine said of the entries; nothing if the request failed as a whole. -/
def read? (t : Attempt) : Option Answer :=
  match t.answer with
  | .error _ => none
  | .ok r => if r.isSuccess then r.json.toOption.bind Answer.read? else none

/-- Whether the request failed as a whole. -/
def isUnread (t : Attempt) : Bool := t.read?.isNone

def accepts (t : Attempt) (id : UInt64) : Bool := t.read?.any (·.accepts id)

/-- The entries that were not accepted. -/
def left (t : Attempt) : List Entry := t.entries.filter fun e => !t.accepts e.id

theorem accepts_of_unread {t : Attempt} (h : t.isUnread = true) (id : UInt64) :
    t.accepts id = false := by
  unfold isUnread at h
  rw [Option.isNone_iff_eq_none] at h
  unfold accepts
  rw [h]
  rfl

/-- A request that failed as a whole leaves all its entries. -/
theorem left_of_unread {t : Attempt} (h : t.isUnread = true) : t.left = t.entries := by
  unfold left
  rw [List.filter_eq_self]
  intro e _
  rw [accepts_of_unread h]
  rfl

theorem rejectedBy_of_read {t : Attempt} {a : Answer} (h : t.read? = some a) :
    Indexer.rejectedBy t.entries t.answer = .ok (a.rejected (t.entries.map (·.id))) := by
  unfold read? at h
  unfold Indexer.rejectedBy
  cases ha : t.answer with
  | error e => rw [ha] at h; cases h
  | ok r =>
    simp only [ha] at h
    cases hs : r.isSuccess with
    | false => rw [hs] at h; cases h
    | true =>
      have hc : r.checked = .ok r := by rw [Engine.Response.checked, hs, if_pos rfl]
      rw [hs, if_pos rfl] at h
      cases hj : r.json with
      | error e => rw [hj] at h; cases h
      | ok v =>
        rw [hj] at h
        change Answer.read? v = some a at h
        simp [Except.bind, hc, hj, h, bind, Except.mapError]

theorem rejectedBy_of_unread {t : Attempt} (h : t.isUnread = true) :
    ∃ e, Indexer.rejectedBy t.entries t.answer = .error e := by
  unfold isUnread at h
  rw [Option.isNone_iff_eq_none] at h
  unfold read? at h
  unfold Indexer.rejectedBy
  cases ha : t.answer with
  | error e => exact ⟨_, rfl⟩
  | ok r =>
    simp only [ha] at h
    cases hs : r.isSuccess with
    | false =>
      have hc : r.checked = .error (.status r.status r.body) := by
        rw [Engine.Response.checked, hs, if_neg Bool.false_ne_true]
      simp [Except.bind, hc, bind, Except.mapError]
    | true =>
      have hc : r.checked = .ok r := by rw [Engine.Response.checked, hs, if_pos rfl]
      rw [hs, if_pos rfl] at h
      cases hj : r.json with
      | error e => simp [Except.bind, hc, hj, bind, Except.mapError]
      | ok v =>
        rw [hj] at h
        change Answer.read? v = none at h
        simp [Except.bind, hc, hj, h, bind, Except.mapError]

theorem unread_of_error {t : Attempt} {e : IndexError}
    (h : Indexer.rejectedBy t.entries t.answer = .error e) : t.isUnread = true := by
  unfold isUnread
  cases hr : t.read? with
  | none => rfl
  | some a =>
    rw [rejectedBy_of_read hr] at h
    cases h

/-- What an attempt rejects are the entries that it leaves. -/
theorem filter_rejected {t : Attempt} {rejected : IdSet}
    (h : Indexer.rejectedBy t.entries t.answer = .ok rejected) :
    t.isUnread = false ∧ (t.entries.filter fun e => rejected.contains e.id) = t.left := by
  cases hr : t.read? with
  | none =>
    obtain ⟨e, he⟩ := rejectedBy_of_unread (t := t) (by rw [isUnread, hr]; rfl)
    rw [he] at h
    cases h
  | some a =>
    rw [rejectedBy_of_read hr] at h
    cases h
    refine ⟨by rw [isUnread, hr]; rfl, List.filter_congr fun e he => ?_⟩
    rw [a.contains_rejected (List.mem_map_of_mem he)]
    unfold accepts
    rw [hr]
    rfl

end Attempt

/-! ## Attempts at one batch -/

/-- The engine has said what is left, and that is sent next. -/
structure Follows (s t : Attempt) : Prop where
  read : s.isUnread = false
  remains : s.left ≠ []
  entries : t.entries = s.left

/-- Whether a batch is not sent again after an attempt, however many attempts remain. -/
def Attempt.ends (t : Attempt) : Bool := t.isUnread || t.left.isEmpty

/-- The attempts at a batch. -/
structure Retried (limit : Nat) (entries : List Entry) (attempts : List Attempt) : Prop where
  /-- The first one carries all entries. -/
  first : ∃ t, attempts.head? = some t ∧ t.entries = entries
  /-- Each later one carries what the one before it has left. -/
  next : attempts.IsChain Follows
  count : attempts.length ≤ limit
  /-- They stop when nothing is left, when a request fails as a whole, or at the limit. -/
  stops : ∀ t, attempts.getLast? = some t → t.ends = true ∨ attempts.length = limit

namespace Retried

variable {limit : Nat} {entries : List Entry} {attempts : List Attempt}

theorem ne_nil (h : Retried limit entries attempts) : attempts ≠ [] := by
  obtain ⟨t, ht, -⟩ := h.first
  intro hn
  rw [hn] at ht
  cases ht

/-- One attempt, after which nothing has to be sent or may be sent. -/
theorem single {t : Attempt} (ht : t.ends = true ∨ limit = 0) :
    Retried (limit + 1) t.entries [t] := by
  refine ⟨⟨t, rfl, rfl⟩, List.isChain_singleton t, Nat.succ_le_succ (Nat.zero_le _), ?_⟩
  intro u hu
  cases Option.some.inj hu
  rcases ht with ht | rfl
  · exact .inl ht
  · exact .inr rfl

/-- One more attempt in front. -/
theorem cons {t : Attempt} (ht : t.ends = false) (h : Retried limit t.left attempts) :
    Retried (limit + 1) t.entries (t :: attempts) := by
  obtain ⟨u, hu, he⟩ := h.first
  unfold Attempt.ends at ht
  rw [Bool.or_eq_false_iff] at ht
  obtain ⟨s, l, hl⟩ := List.exists_cons_of_ne_nil h.ne_nil
  refine ⟨⟨t, rfl, rfl⟩, ?_, Nat.succ_le_succ h.count, ?_⟩
  · have hc := h.next
    rw [hl] at hc hu ⊢
    cases Option.some.inj hu
    refine List.isChain_cons_cons.mpr ⟨⟨ht.1, ?_, he⟩, hc⟩
    intro hn
    rw [hn] at ht
    cases ht.2
  · intro v hv
    rw [hl, List.getLast?_cons_cons, ← hl] at hv
    rcases h.stops v hv with hs | hs
    · exact .inl hs
    · exact .inr (by rw [List.length_cons, hs])

/-- Each attempt carries a part of what every attempt before it has left. -/
theorem shrinks (h : Retried limit entries attempts) :
    attempts.Pairwise fun s t => t.entries.Sublist s.left := by
  have next : attempts.IsChain fun s t => t.entries.Sublist s.left := by
    refine h.next.imp fun s t hst => ?_
    rw [hst.entries]
  have transitive : Trans (fun s t : Attempt => t.entries.Sublist s.left)
      (fun s t : Attempt => t.entries.Sublist s.left)
      (fun s t : Attempt => t.entries.Sublist s.left) :=
    ⟨fun hst htu => (htu.trans List.filter_sublist).trans hst⟩
  exact next.pairwise

/-- An entry that was accepted is not sent again. -/
theorem never_again (h : Retried limit entries attempts) :
    attempts.Pairwise fun s t => ∀ e ∈ t.entries, s.accepts e.id = false := by
  refine h.shrinks.imp fun hst e he => ?_
  have hl := (List.mem_filter.mp (hst.subset he)).2
  simpa using hl

end Retried

/-- What is left by the last of some attempts that follow each other. -/
theorem left_getLast {t : Attempt} {ts : List Attempt} (h : (t :: ts).IsChain Follows) :
    ((t :: ts).getLast (List.cons_ne_nil t ts)).left =
      t.entries.filter fun e => (t :: ts).all fun u => !u.accepts e.id := by
  induction ts generalizing t with
  | nil =>
    rw [List.getLast_singleton]
    unfold Attempt.left
    simp only [List.all_cons, List.all_nil, Bool.and_true]
  | cons u ts ih =>
    obtain ⟨hf, hc⟩ := List.isChain_cons_cons.mp h
    rw [List.getLast_cons (List.cons_ne_nil u ts), ih hc, hf.entries]
    unfold Attempt.left
    rw [List.filter_filter]
    refine List.filter_congr fun e _ => ?_
    rw [List.all_cons (a := t), Bool.and_comm]

/-- Attempts that follow each other carry something if the first one does. -/
theorem entries_getLast {t : Attempt} {ts : List Attempt} (h : (t :: ts).IsChain Follows)
    (ht : t.entries ≠ []) : ((t :: ts).getLast (List.cons_ne_nil t ts)).entries ≠ [] := by
  induction ts generalizing t with
  | nil => rwa [List.getLast_singleton]
  | cons u ts ih =>
    obtain ⟨hf, hc⟩ := List.isChain_cons_cons.mp h
    rw [List.getLast_cons (List.cons_ne_nil u ts)]
    refine ih hc ?_
    rw [hf.entries]
    exact hf.remains

/-! ## Deliveries -/

/-- A batch with the attempts at it. -/
structure Delivery (limit : Nat) where
  entries : List Entry
  attempts : List Attempt
  retried : Retried limit entries attempts

namespace Delivery

variable {limit : Nat} (d : Delivery limit)

def last : Attempt := d.attempts.getLast d.retried.ne_nil

/-- The entries that have failed. -/
def pending : List Entry := d.last.left

/-- The entries that the engine has accepted. -/
def accepted : List Entry :=
  d.entries.filter fun e => d.attempts.any fun t => t.accepts e.id

/-- The entries that have failed are those that no answer accepted. -/
theorem pending_eq :
    d.pending = d.entries.filter fun e => !d.attempts.any fun t => t.accepts e.id := by
  obtain ⟨entries, attempts, h⟩ := d
  obtain ⟨t, ts, rfl⟩ := List.exists_cons_of_ne_nil h.ne_nil
  obtain ⟨u, hu, he⟩ := h.first
  cases Option.some.inj hu
  subst he
  refine (left_getLast h.next).trans (List.filter_congr fun e _ => ?_)
  rw [List.all_eq_not_any_not]
  simp only [Bool.not_not]

/-- An attempt carries entries of the batch. -/
theorem entries_of_attempt {t : Attempt} (ht : t ∈ d.attempts) {e : Entry} (he : e ∈ t.entries) :
    e ∈ d.entries := by
  obtain ⟨entries, attempts, h⟩ := d
  obtain ⟨u, ts, rfl⟩ := List.exists_cons_of_ne_nil h.ne_nil
  obtain ⟨v, hv, hu⟩ := h.first
  cases Option.some.inj hv
  subst hu
  rcases List.mem_cons.mp ht with rfl | ht
  · exact he
  · exact (List.mem_filter.mp ((List.pairwise_cons.mp h.shrinks).1 t ht |>.subset he)).1

theorem last_entries (hd : d.entries ≠ []) : d.last.entries ≠ [] := by
  obtain ⟨entries, attempts, h⟩ := d
  obtain ⟨t, ts, rfl⟩ := List.exists_cons_of_ne_nil h.ne_nil
  obtain ⟨u, hu, he⟩ := h.first
  cases Option.some.inj hu
  subst he
  exact entries_getLast h.next hd

/-- Each entry was accepted or has failed. -/
theorem length_accepted_add : d.accepted.length + d.pending.length = d.entries.length := by
  rw [pending_eq]
  unfold accepted
  exact (List.length_eq_length_filter_add _).symm

/-- One attempt, after which nothing has to be sent or may be sent. -/
def single (t : Attempt) (ht : t.ends = true ∨ limit = 0) : Delivery (limit + 1) :=
  ⟨t.entries, [t], .single ht⟩

/-- One more attempt in front. -/
def again (t : Attempt) (ht : t.ends = false) (h : d.entries = t.left) : Delivery (limit + 1) :=
  ⟨t.entries, t :: d.attempts, (h ▸ d.retried : Retried limit t.left d.attempts).cons ht⟩

theorem last_again (t : Attempt) (ht : t.ends = false) (h : d.entries = t.left) :
    (d.again t ht h).last = d.last :=
  List.getLast_cons d.retried.ne_nil

theorem one_le_length : 1 ≤ d.attempts.length :=
  List.length_pos_iff.mpr d.retried.ne_nil

/-- What has failed is nothing, or all of the last request if that failed as a whole. -/
theorem pending_of_unread (h : d.last.isUnread = true) : d.pending = d.last.entries :=
  d.last.left_of_unread h

end Delivery
end ContentIndex.Bulk
