import ContentIndex.Proofs.Query.DateTree
import ContentIndex.Query.Compiler

/-
  What the clock has to do with the filter of a request. Only a text that names a moment relative to
  the present makes a bound hang on the clock, and a text that writes a date of its own is never
  read that way. A query on dates is timeless if none of its bounds is of that kind, whatever depth
  it stands at. The clauses of a timeless query are the same at every moment
  (`DateQuery.clauses_of_timeless`), and so is all that it asks for.
-/

namespace ContentIndex

namespace Calendar

/-- Whether a text names a moment relative to the present, by one of four words or by an amount
of a unit. The amount may be too large for the calendar. -/
def isRelative (s : String) : Bool :=
  let cs := (Text.trimChars s.toList).map Char.toLower
  ["now", "today", "yesterday", "tomorrow"].contains (String.ofList cs)
    || (readAmount? (splitDirection cs).2).isSome

theorem Moment.relative?_eq_none {s : String} (h : isRelative s = false) (now : Moment) :
    Moment.relative? s now = none := by
  rw [isRelative, Bool.or_eq_false_iff] at h
  obtain ⟨hword, hamount⟩ := h
  have hnone := Option.isSome_eq_false_iff.mp hamount
  unfold Moment.relative?
  dsimp only
  split
  · next heq => simp [heq] at hword
  · next heq => simp [heq] at hword
  · next heq => simp [heq] at hword
  · next heq => simp [heq] at hword
  · rw [Option.isNone_iff_eq_none.mp hnone]
    rfl

end Calendar

namespace Query

open Calendar (Moment)

variable {now now' : Moment}

/-! ## Bounds and entries -/

/-- Whether the moment of a bound has nothing to do with the clock. -/
def DateBound.isTimeless : DateBound → Bool
  | .text s => (Moment.read? s).isSome || !Calendar.isRelative s
  | .parts _ _ _ => true

def DatePredicate.isTimeless (p : DatePredicate) : Bool :=
  p.after.all DateBound.isTimeless && p.before.all DateBound.isTimeless

theorem DateBound.moment?_of_timeless {b : DateBound} (h : b.isTimeless = true) (last : Bool) :
    b.moment? now last = b.moment? now' last := by
  cases b with
  | parts y m d => rfl
  | text s =>
    rw [isTimeless, Bool.or_eq_true, Bool.not_eq_true'] at h
    rw [moment?, moment?]
    rcases h with hread | hrelative
    · obtain ⟨t, ht⟩ := Option.isSome_iff_exists.mp hread
      rw [ht, Option.some_or, Option.some_or]
    · rw [Moment.relative?_eq_none hrelative, Moment.relative?_eq_none hrelative]

theorem DateBound.bind_value?_of_timeless {b : Option DateBound}
    (h : b.all DateBound.isTimeless = true) (last : Bool) :
    b.bind (DateBound.value? now last) = b.bind (DateBound.value? now' last) := by
  cases b with
  | none => rfl
  | some b =>
    rw [Option.all_some] at h
    rw [Option.bind_some, Option.bind_some, value?, value?, moment?_of_timeless h]

theorem DatePredicate.clauses_of_timeless {p : DatePredicate} (h : p.isTimeless = true)
    (outer : String) : p.clauses now outer = p.clauses now' outer := by
  rw [isTimeless, Bool.and_eq_true] at h
  have hrange (column : String) : p.range? now column = p.range? now' column := by
    have value (b : Option DateBound) (hb : b.all DateBound.isTimeless = true) (last : Bool) :
        b.bind (DateBound.value? now last) = b.bind (DateBound.value? now' last) :=
      DateBound.bind_value?_of_timeless hb last
    rw [range?, range?, value _ h.1, value _ h.2]
  rw [clauses, clauses, hrange]

/-! ## Trees -/

namespace DateItem

mutual
/-- Whether no bound inside an item hangs on the clock. -/
def isTimeless : DateItem → Bool
  | .predicate p => p.isTimeless
  | .group _ _ _ items => allTimeless items
termination_by structural i => i

def allTimeless : List DateItem → Bool
  | [] => true
  | i :: is => isTimeless i && allTimeless is
termination_by structural is => is
end

variable {limit : Nat}

mutual
theorem clauses_of_timeless : (outer : String) → (depth : Nat) → (i : DateItem) →
    i.isTimeless = true → i.clauses now limit outer depth = i.clauses now' limit outer depth
  | outer, _, .predicate p, h => by
    rw [clauses, clauses, DatePredicate.clauses_of_timeless h]
  | outer, d, .group _ column _ items, h => by
    rw [clauses, clauses,
      clauseLists_of_timeless (resolveColumn column outer) (d + 1) items h]

theorem clauseLists_of_timeless : (outer : String) → (depth : Nat) → (is : List DateItem) →
    allTimeless is = true →
    clauseLists now limit outer depth is = clauseLists now' limit outer depth is
  | _, _, [], _ => rfl
  | outer, d, i :: is, h => by
    rw [allTimeless, Bool.and_eq_true] at h
    rw [clauseLists, clauseLists, clauses_of_timeless outer d i h.1,
      clauseLists_of_timeless outer d is h.2]
end

end DateItem

def DateQuery.isTimeless (q : DateQuery) : Bool :=
  DateItem.allTimeless q.items

/-- The clauses of a timeless query are the same at every moment. -/
theorem DateQuery.clauses_of_timeless {q : DateQuery} (h : q.isTimeless = true) (limit : Nat) :
    q.clauses now limit = q.clauses now' limit := by
  have hlists (outer : String) : DateItem.clauseLists now limit outer 0 q.items =
      DateItem.clauseLists now' limit outer 0 q.items :=
    DateItem.clauseLists_of_timeless outer 0 q.items h
  rw [clauses, clauses, hlists]

/-- Whether no bound of a request hangs on the clock. -/
def Request.isTimeless (r : Request) : Bool :=
  r.dateQuery.all DateQuery.isTimeless

/-- A timeless request has one filter for all moments. -/
theorem Request.membership_of_timeless {r : Request} (h : r.isTimeless = true) (c : Config)
    (privileged : Bool) : r.membership c privileged now = r.membership c privileged now' := by
  have dates : (r.dateQuery.map fun q => orDropped [] (q.clauses now c.maxQueryDepth.toNat)) =
      r.dateQuery.map fun q => orDropped [] (q.clauses now' c.maxQueryDepth.toNat) := by
    rw [isTimeless] at h
    cases hq : r.dateQuery with
    | none => rfl
    | some q =>
      rw [hq, Option.all_some] at h
      rw [Option.map_some, Option.map_some, DateQuery.clauses_of_timeless h]
  dsimp only [membership]
  rw [dates]

/-- Without hooks, the filter of a request is all that restricts its items, if anything does. -/
theorem compile_postFilter (c : Config) (r : Request) (privileged : Bool) (now : Moment) :
    (compile c [] r privileged now).postFilter =
      if (r.membership c privileged now).isEmpty then none
      else some (.bool (r.membership c privileged now)) :=
  rfl

end Query
end ContentIndex
