import Mathlib
import ContentIndex.Proofs.Rebuild.Step

/-
  The pages of a rebuild. A listing gives the ids of each scope; a rebuild has to write them in
  chunks of the page size, scope by scope. `pendingPages` are the pages that a cursor has still
  before it, and `stepsLeft` counts the steps to the end: one for each of these pages, and one
  for the end of each scope. Each end of a step takes its part from the front of them.
-/

namespace ContentIndex

/-! ## Chunks -/

/-- A list in consecutive parts of one size; the last may be shorter. -/
def chunks {α : Type} (size : Nat) (l : List α) : List (List α) :=
  (List.range ((l.length + size - 1) / size)).map fun i => (l.drop (i * size)).take size

section

variable {α : Type} {size : Nat}

@[simp] theorem chunks_nil (h : 0 < size) : chunks size ([] : List α) = [] := by
  have hn : (0 + size - 1) / size = 0 := Nat.div_eq_of_lt (by omega)
  rw [chunks, List.length_nil, hn, List.range_zero, List.map_nil]

/-- The first chunk, and the chunks of what is behind it. -/
theorem chunks_eq_cons (h : 0 < size) {l : List α} (hl : l ≠ []) :
    chunks size l = l.take size :: chunks size (l.drop size) := by
  have pos : 0 < l.length := List.length_pos_iff.mpr hl
  have count : (l.length + size - 1) / size = ((l.drop size).length + size - 1) / size + 1 := by
    rw [List.length_drop]
    by_cases hle : size ≤ l.length
    · rw [show l.length + size - 1 = (l.length - size + size - 1) + size by omega,
        Nat.add_div_right _ h]
    · rw [show l.length - size + size - 1 = size - 1 by omega,
        show l.length + size - 1 = (l.length - 1) + size by omega, Nat.add_div_right _ h,
        Nat.div_eq_of_lt (show l.length - 1 < size by omega),
        Nat.div_eq_of_lt (show size - 1 < size by omega)]
  have behind : ∀ i, (l.drop ((i + 1) * size)).take size =
      ((l.drop size).drop (i * size)).take size := by
    intro i
    rw [List.drop_drop, Nat.add_mul, Nat.one_mul, Nat.add_comm]
  rw [chunks, count, List.range_succ_eq_map, List.map_cons, List.map_map, Nat.zero_mul,
    List.drop_zero]
  exact congrArg (l.take size :: ·) (List.map_congr_left fun i _ => behind i)

/-- The chunks of a list hold its items, in order. -/
theorem flatten_chunks (h : 0 < size) (l : List α) : (chunks size l).flatten = l := by
  induction hn : l.length using Nat.strongRecOn generalizing l with
  | ind n ih =>
    by_cases hl : l = []
    · rw [hl, chunks_nil h, List.flatten_nil]
    · have shorter : (l.drop size).length < n := by
        have := List.length_pos_iff.mpr hl
        rw [List.length_drop]
        omega
      rw [chunks_eq_cons h hl, List.flatten_cons, ih _ shorter _ rfl, List.take_append_drop]

theorem sum_length_chunks (h : 0 < size) (l : List α) :
    ((chunks size l).map List.length).sum = l.length := by
  rw [← List.length_flatten, flatten_chunks h]

end

/-! ## Listings -/

/-- The ids of the items of each scope. -/
abbrev Listing := Option String → List UInt64

/-- Ids that were written together, and the scope that they were listed for. -/
abbrev WrittenPage := Option String × List UInt64

/-- The scopes that a rebuild goes through; without any it is the base index alone. -/
def targets (scopes : List String) : List (Option String) :=
  if scopes.isEmpty then [none] else scopes.map some

namespace Listing

variable (L : Listing) (size : Nat)

/-- The pages of a scope from an offset on. -/
def pagesFrom (s : Option String) (offset : Nat) : List WrittenPage :=
  (chunks size ((L s).drop offset)).map (s, ·)

/-- The pages of some scopes, one scope after another. -/
def pages (ss : List (Option String)) : List WrittenPage :=
  ss.flatMap fun s => (chunks size (L s)).map (s, ·)

/-- The steps of a rebuild of some scopes: the pages, and the end of each scope. -/
def steps (ss : List (Option String)) : Nat :=
  (ss.map fun s => (chunks size (L s)).length + 1).sum

/-- How many ids some scopes have together. -/
def total (ss : List (Option String)) : Nat :=
  (ss.map fun s => (L s).length).sum

/-- What a cursor has still before it. -/
def pendingPages (c : Cursor) : List WrittenPage :=
  L.pagesFrom size c.scope c.offset.toNat ++ L.pages size (c.scopes.tail.map some)

/-- How many steps a cursor has still before it. -/
def stepsLeft (c : Cursor) : Nat :=
  (L.pagesFrom size c.scope c.offset.toNat).length + 1 + L.steps size (c.scopes.tail.map some)

variable {L size}

theorem pages_cons (s : Option String) (ss : List (Option String)) :
    L.pages size (s :: ss) = L.pagesFrom size s 0 ++ L.pages size ss :=
  rfl

theorem steps_cons (s : Option String) (ss : List (Option String)) :
    L.steps size (s :: ss) = (L.pagesFrom size s 0).length + 1 + L.steps size ss := by
  simp [steps, pagesFrom]

/-- The pages of some scopes hold all their ids. -/
theorem sum_length_pages (h : 0 < size) (ss : List (Option String)) :
    ((L.pages size ss).map fun p => p.2.length).sum = L.total ss := by
  induction ss with
  | nil => rfl
  | cons s ss ih =>
    have first : ((L.pagesFrom size s 0).map fun p => p.2.length).sum = (L s).length := by
      rw [pagesFrom, List.map_map, List.drop_zero, ← sum_length_chunks h (L s)]
      rfl
    rw [pages_cons, List.map_append, List.sum_append, first, ih]
    rfl

/-! ## Cursors -/

theorem pendingPages_start (run : RunId) (now : Calendar.Moment) (scopes : List String)
    (total : UInt64) :
    L.pendingPages size (.start run now scopes total) = L.pages size (targets scopes) := by
  cases scopes with
  | nil => rfl
  | cons s ss => rfl

theorem stepsLeft_start (run : RunId) (now : Calendar.Moment) (scopes : List String)
    (total : UInt64) :
    L.stepsLeft size (.start run now scopes total) = L.steps size (targets scopes) := by
  cases scopes with
  | nil => exact (steps_cons none []).symm
  | cons s ss => exact (steps_cons (some s) (ss.map some)).symm

theorem tail_of_second {c : Cursor} {s : String} (h : c.scopes[1]? = some s) :
    c.scopes.tail = s :: c.scopes.tail.tail := by
  cases hl : c.scopes with
  | nil => rw [hl] at h; cases h
  | cons a l =>
    cases l with
    | nil => rw [hl] at h; cases h
    | cons b l => rw [hl] at h; cases h; rfl

theorem tail_of_last {c : Cursor} (h : c.scopes[1]? = none) : c.scopes.tail = [] := by
  cases hl : c.scopes with
  | nil => rfl
  | cons a l =>
    cases l with
    | nil => rfl
    | cons b l => rw [hl] at h; cases h

/-- Past a scope without ids the cursor has the same pages before it, and one step less. -/
theorem pendingPages_nextScope (h : 0 < size) {c : Cursor} {s : String} (total : UInt64)
    (hl : (L c.scope).drop c.offset.toNat = []) (hs : c.scopes[1]? = some s) :
    L.pendingPages size c = L.pendingPages size (c.nextScope total) ∧
      L.stepsLeft size c = L.stepsLeft size (c.nextScope total) + 1 := by
  have none_left : L.pagesFrom size c.scope c.offset.toNat = [] := by
    rw [pagesFrom, hl, chunks_nil h, List.map_nil]
  have scope_eq : (c.nextScope total).scope = some s := by
    show c.scopes.tail.head? = some s
    rw [tail_of_second hs, List.head?_cons]
  rw [pendingPages, stepsLeft, none_left, tail_of_second hs, List.map_cons, pages_cons, steps_cons]
  rw [pendingPages, stepsLeft, scope_eq]
  refine ⟨rfl, ?_⟩
  show [].length + 1 + ((L.pagesFrom size (some s) 0).length + 1 + _) =
    (L.pagesFrom size (some s) 0).length + 1 + _ + 1
  simp only [List.length_nil, Cursor.nextScope]
  omega

/-- At the end of the last scope no page is left, and one step. -/
theorem pendingPages_last (h : 0 < size) {c : Cursor}
    (hl : (L c.scope).drop c.offset.toNat = []) (hs : c.scopes[1]? = none) :
    L.pendingPages size c = [] ∧ L.stepsLeft size c = 1 := by
  have none_left : L.pagesFrom size c.scope c.offset.toNat = [] := by
    rw [pagesFrom, hl, chunks_nil h, List.map_nil]
  rw [pendingPages, stepsLeft, none_left, tail_of_last hs]
  exact ⟨rfl, rfl⟩

theorem saturatingAdd_toNat (a b : UInt64) :
    (saturatingAdd a b).toNat = min (a.toNat + b.toNat) (2 ^ 64 - 1) := by
  have ha := a.toNat_lt
  unfold saturatingAdd
  split
  · rename_i h
    rw [UInt64.toNat_add, Nat.mod_eq_of_lt h]
    omega
  · show (2 ^ 64 - 1) = _
    omega

/-- The offset stops at the largest one, which no listing reaches. -/
theorem drop_saturatingAdd {l : List UInt64} (hl : l.length < 2 ^ 64) (a b : UInt64) :
    l.drop (saturatingAdd a b).toNat = (l.drop a.toNat).drop b.toNat := by
  rw [List.drop_drop, saturatingAdd_toNat]
  by_cases h : a.toNat + b.toNat ≤ 2 ^ 64 - 1
  · rw [Nat.min_eq_left h]
  · rw [Nat.min_eq_right (by omega), List.drop_of_length_le (by omega),
      List.drop_of_length_le (by omega)]

/-- A page that was written is the first of those that the cursor had before it. -/
theorem pendingPages_advance {c : Cursor} {size : UInt64} (h : 0 < size.toNat) (i f : UInt64)
    (hL : (L c.scope).length < 2 ^ 64)
    (hl : (L c.scope).drop c.offset.toNat ≠ []) :
    L.pendingPages size.toNat c =
        (c.scope, ((L c.scope).drop c.offset.toNat).take size.toNat) ::
          L.pendingPages size.toNat (c.advance size i f) ∧
      L.stepsLeft size.toNat c = L.stepsLeft size.toNat (c.advance size i f) + 1 := by
  have first : L.pagesFrom size.toNat c.scope c.offset.toNat =
      (c.scope, ((L c.scope).drop c.offset.toNat).take size.toNat) ::
        L.pagesFrom size.toNat c.scope (c.advance size i f).offset.toNat := by
    rw [pagesFrom, chunks_eq_cons h hl, List.map_cons, ← drop_saturatingAdd hL]
    rfl
  rw [pendingPages, stepsLeft, first]
  refine ⟨rfl, ?_⟩
  show (_ :: L.pagesFrom _ c.scope _).length + 1 + _ = (L.pagesFrom _ c.scope _).length + 1 + _ + 1
  rw [List.length_cons]
  simp only [Cursor.advance]
  omega

end Listing
end ContentIndex
