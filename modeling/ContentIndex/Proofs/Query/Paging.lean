import ContentIndex.Proofs.Query.IdLists
import Mathlib.Data.UInt

/-
  Pages of a result. Where a page starts is its number times the size of a page, counted from the
  first page, and cut at the largest word (`Request.toNat_start`). The size is bounded by the window
  of the engine before any start is computed from it. So each page starts where the one before
  ends, and as far as no start is cut, every position of the result is on one page and on no other
  (`Tiling`).

  `pages_tile` says this of requests as they are compiled, and of the arguments of a host, where
  the page and the number of items are signed words.
-/

namespace ContentIndex.Query

open Json (Value Members)
open Calendar (Moment)

/-! ## Windows -/

/-- The largest number that a page can start at. -/
def largestStart : Nat := 2 ^ 64 - 1

/-- The position is on the page. -/
def CompiledQuery.Shows (q : CompiledQuery) (i : Nat) : Prop :=
  q.start.toNat ≤ i ∧ i < q.start.toNat + q.size.toNat

/-- Pages with numbers up to `last` have one size, and each starts where the one before ends. As long
as no start is cut, they are adjacent, disjoint and without gaps. -/
structure Tiling (last size : Nat) (page : Nat → CompiledQuery) : Prop where
  size_eq (p : Nat) : p ≤ last → (page p).size.toNat = size
  front (p : Nat) : p ≤ last → p ≤ 1 → (page p).start = 0
  next (p : Nat) : 1 ≤ p → p + 1 ≤ last →
    (page (p + 1)).start.toNat = min ((page p).start.toNat + size) largestStart
  adjacent (p : Nat) : 1 ≤ p → p + 1 ≤ last → (page p).start.toNat + size ≤ largestStart →
    (page (p + 1)).start.toNat = (page p).start.toNat + size
  disjoint (p q : Nat) : 1 ≤ p → p < q → q ≤ last → (q - 1) * size ≤ largestStart →
    ∀ i, (page p).Shows i → ¬(page q).Shows i
  covers (n : Nat) : n ≤ last → (n - 1) * size ≤ largestStart →
    ∀ i < n * size, ∃ p, 1 ≤ p ∧ p ≤ n ∧ (page p).Shows i

/-- The items up to a page are those in front of it and its own. -/
theorem pages_upTo {p : Nat} (hp : 1 ≤ p) (size : Nat) : p * size = (p - 1) * size + size := by
  rw [← Nat.succ_mul, Nat.succ_eq_add_one, Nat.sub_add_cancel hp]

section Starts

variable {last size : Nat} {page : Nat → CompiledQuery}
  (hsize : ∀ p ≤ last, (page p).size.toNat = size)
  (hstart : ∀ p ≤ last, (page p).start.toNat = min ((p - 1) * size) largestStart)

include hstart

theorem start_succ_eq {p : Nat} (hp : 1 ≤ p) (hlast : p + 1 ≤ last) :
    (page (p + 1)).start.toNat = min ((page p).start.toNat + size) largestStart := by
  rw [hstart (p + 1) hlast, hstart p (Nat.le_of_succ_le hlast), Nat.add_sub_cancel,
    pages_upTo hp size]
  omega

include hsize

/-- What is on a page whose start is not cut. -/
theorem shows_iff {p : Nat} (hp : 1 ≤ p) (hlast : p ≤ last)
    (huncut : (p - 1) * size ≤ largestStart) (i : Nat) :
    (page p).Shows i ↔ (p - 1) * size ≤ i ∧ i < p * size := by
  rw [CompiledQuery.Shows, hstart p hlast, Nat.min_eq_left huncut, hsize p hlast,
    pages_upTo hp size]

/-- Pages that start at their number times the size, counted from the first, are a tiling. -/
theorem tiling_of_starts : Tiling last size page where
  size_eq := hsize
  front p hlast hp := by
    rw [← UInt64.toNat_inj, hstart p hlast, Nat.sub_eq_zero_of_le hp, Nat.zero_mul]
    rfl
  next p hp hlast := start_succ_eq hstart hp hlast
  adjacent p hp hlast hend := by
    rw [start_succ_eq hstart hp hlast, Nat.min_eq_left hend]
  disjoint p q hp hpq hlast huncut i hi := by
    have hends : p * size ≤ (q - 1) * size := Nat.mul_le_mul_right size (Nat.le_sub_one_of_lt hpq)
    have hstarts : (p - 1) * size ≤ p * size := Nat.mul_le_mul_right size (Nat.sub_le p 1)
    rw [shows_iff hsize hstart hp (by omega) (by omega)] at hi
    rw [shows_iff hsize hstart (by omega) hlast huncut]
    omega
  covers n hlast huncut i hi := by
    have hpos : 0 < size := Nat.pos_of_ne_zero fun hzero => by simp [hzero] at hi
    have hpage : i / size + 1 ≤ n := (Nat.div_lt_iff_lt_mul hpos).mpr hi
    have hstarts : i / size * size ≤ (n - 1) * size :=
      Nat.mul_le_mul_right size (Nat.le_sub_one_of_lt hpage)
    have hfirst : 1 ≤ i / size + 1 := Nat.le_add_left 1 _
    refine ⟨i / size + 1, hfirst, hpage, ?_⟩
    rw [shows_iff hsize hstart hfirst (Nat.le_trans hpage hlast) (Nat.le_trans hstarts huncut)]
    exact ⟨Nat.div_mul_le_self i size, (Nat.div_lt_iff_lt_mul hpos).mp (Nat.lt_succ_self _)⟩

end Starts

/-! ## Requests -/

variable {c : Config} {privileged : Bool} {now : Moment}

/-- The number of items on a page: the limit or, without one, the window, and never more than
that. -/
def pageLength (c : Config) : PageSize → Nat
  | .limit n => min n.toNat c.maxResultsWindow.toNat
  | .unbounded => c.maxResultsWindow.toNat

theorem pageLength_le (c : Config) (n : PageSize) :
    pageLength c n ≤ c.maxResultsWindow.toNat := by
  cases n with
  | limit n => exact Nat.min_le_right _ _
  | unbounded => exact Nat.le_refl _

theorem Request.toNat_size (r : Request) (c : Config) :
    (r.size c).toNat = pageLength c r.pageSize := by
  rw [Request.size]
  cases r.pageSize with
  | limit n => exact UInt64.toNat_min n c.maxResultsWindow
  | unbounded => rfl

/-- The product of words is taken as a number, and what is beyond the words is cut. -/
theorem Request.toNat_start {r : Request} {p : Nat} (hoffset : r.offset = none)
    (hpage : r.page = some (.ofNat p)) (hp : p < 2 ^ 64) (size : UInt64) :
    (r.start size).toNat = min ((p - 1) * size.toNat) largestStart := by
  have hword : (UInt64.ofNat p).toNat = p := UInt64.toNat_ofNat_of_lt' hp
  have hfirst : 1 < UInt64.ofNat p ↔ 1 < p := by
    rw [UInt64.lt_iff_toNat_lt, hword]
    rfl
  simp only [Request.start, hoffset, hpage, hfirst, hword]
  split
  next =>
    refine UInt64.toNat_ofNat_of_lt' ?_
    exact Nat.lt_of_le_of_lt (Nat.min_le_right _ _) (by decide)
  next h =>
    rw [Nat.sub_eq_zero_of_le (by omega), Nat.zero_mul]
    rfl

/-- Requests without an offset for the pages of one size. -/
theorem tiling_compile {last : Nat} (hlast : last < 2 ^ 64) (request : Nat → Request)
    (pageSize : PageSize) (hoffset : ∀ p ≤ last, (request p).offset = none)
    (hpage : ∀ p ≤ last, (request p).page = some (.ofNat p))
    (hsize : ∀ p ≤ last, (request p).pageSize = pageSize) :
    Tiling last (pageLength c pageSize) fun p => compile c [] (request p) privileged now := by
  have hlength (p : Nat) (hp : p ≤ last) : ((request p).size c).toNat = pageLength c pageSize := by
    rw [Request.toNat_size, hsize p hp]
  refine tiling_of_starts hlength fun p hp => ?_
  have hword : p < 2 ^ 64 := Nat.lt_of_le_of_lt hp hlast
  rw [← hlength p hp]
  exact Request.toNat_start (hoffset p hp) (hpage p hp) hword _

/-! ## Arguments -/

theorem asInt64?_ofInt64 (n : Int64) : (Value.ofInt64 n).asInt64? = some n := by
  have hword : Number.int64OfInt? n.toInt = some n := by
    rw [Number.int64OfInt?, if_pos ⟨n.le_toInt, n.toInt_lt⟩, Int64.ofInt_toInt]
  show some ((Number.int64OfInt? n.toInt).getD _) = _
  rw [hword, Option.getD_some]

/-- A number that is not negative is the number that it is, and others are none. -/
theorem asNatural?_ofInt64 (n : Int64) :
    (Value.ofInt64 n).asNatural? = if 0 ≤ n then some (UInt64.ofNat n.toInt.toNat) else none := by
  rw [Value.asNatural?, asInt64?_ofInt64, Option.bind_some]

theorem asNatural?_ofInt64_ofNat {p : Nat} (hp : p < 2 ^ 63) :
    (Value.ofInt64 (.ofNat p)).asNatural? = some (.ofNat p) := by
  have hword : (Int64.ofNat p).toInt = p := Int64.toInt_ofNat_of_lt hp
  have hpos : 0 ≤ Int64.ofNat p := by
    rw [Int64.le_iff_toInt_le, hword]
    exact Int.natCast_nonneg p
  rw [asNatural?_ofInt64, if_pos hpos, hword, Int.toNat_natCast]

/-- The arguments with a page. -/
def onPage (n : Int64) (ms : Members) : Members :=
  Entries.insert "paged" (.ofInt64 n) ms

section Arguments

variable (ms : Members) (n : Int64)

theorem page_read_onPage :
    (Request.read (.object (onPage n ms))).page = (Value.ofInt64 n).asNatural? := by
  show (Entries.find? "paged" (onPage n ms)).bind Value.asNatural? = _
  rw [onPage, Entries.find?_insert_self, Option.bind_some]

theorem offset_read_onPage :
    (Request.read (.object (onPage n ms))).offset = (Request.read (.object ms)).offset := by
  show (Entries.find? "offset" (onPage n ms)).bind Value.asNatural? = _
  rw [onPage, Entries.find?_insert_ne (by decide)]
  rfl

theorem pageSize_read_onPage :
    (Request.read (.object (onPage n ms))).pageSize = (Request.read (.object ms)).pageSize := by
  show (if ((Entries.find? "nopaging" (onPage n ms)).map Value.isOn).getD false = true then _
    else PageSize.read (Entries.find? "posts_per_page" (onPage n ms))) = _
  rw [onPage, Entries.find?_insert_ne (by decide), Entries.find?_insert_ne (by decide)]
  rfl

end Arguments

/-- How many items a limit allows; a limit that is not positive is the default. -/
def allowedItems : Option Int64 → Nat
  | some n => if 0 < n then n.toInt.toNat else 10
  | none => 10

/-- Minus one stands for no limit at all. -/
theorem pageLength_limit (c : Config) (limit : Option Int64) :
    pageLength c (.read (limit.map .ofInt64)) =
      if limit = some (-1) then c.maxResultsWindow.toNat
      else min (allowedItems limit) c.maxResultsWindow.toNat := by
  cases limit with
  | none => rfl
  | some n =>
    have hread : PageSize.read (some (.ofInt64 n)) =
        if n = -1 then .unbounded
        else if 0 < n then .limit (UInt64.ofNat n.toInt.toNat) else .limit 10 := by
      rw [PageSize.read, Option.bind_some, asInt64?_ofInt64]
    rw [Option.map_some, hread]
    by_cases hunbounded : n = -1
    · subst hunbounded
      rfl
    rw [if_neg hunbounded, if_neg (mt Option.some.inj hunbounded), allowedItems]
    split
    · have hword : (UInt64.ofNat n.toInt.toNat).toNat = n.toInt.toNat := by
        have := n.toInt_lt
        exact UInt64.toNat_ofNat_of_lt' (show _ < 2 ^ 64 by omega)
      rw [pageLength, hword]
    · rfl

/-- Paging that is switched off leaves no limit either. -/
theorem pageLength_read {ms : Members} {limit : Option Int64}
    (h : Entries.find? "posts_per_page" ms = limit.map .ofInt64) (c : Config) :
    pageLength c (Request.read (.object ms)).pageSize =
      if ((Entries.find? "nopaging" ms).map Value.isOn).getD false = true ∨ limit = some (-1) then
        c.maxResultsWindow.toNat
      else min (allowedItems limit) c.maxResultsWindow.toNat := by
  have hread : (Request.read (.object ms)).pageSize =
      if ((Entries.find? "nopaging" ms).map Value.isOn).getD false = true then .unbounded
      else .read (limit.map .ofInt64) := by
    rw [← h]
    rfl
  rw [hread]
  by_cases hnopaging : ((Entries.find? "nopaging" ms).map Value.isOn).getD false = true
  · rw [if_pos hnopaging, if_pos (.inl hnopaging)]
    rfl
  · rw [if_neg hnopaging, pageLength_limit]
    simp only [hnopaging, Bool.false_eq_true, false_or]

/-- Arguments without an offset for the pages of one size. -/
theorem tiling_read {ms : Members} (hoffset : (Request.read (.object ms)).offset = none) :
    Tiling (2 ^ 63 - 1) (pageLength c (Request.read (.object ms)).pageSize) fun p =>
      compile c [] (.read (.object (onPage (.ofNat p) ms))) privileged now := by
  refine tiling_compile (by decide) _ _ (fun p _ => ?_) (fun p hp => ?_) (fun p _ => ?_)
  · rw [offset_read_onPage, hoffset]
  · rw [page_read_onPage]
    exact asNatural?_ofInt64_ofNat (Nat.lt_of_le_of_lt hp (by decide))
  · exact pageSize_read_onPage ms _

theorem start_of_offset {r : Request} {o : UInt64} (h : r.offset = some o) (size : UInt64) :
    r.start size = o := by
  rw [Request.start, h]

theorem start_of_no_page {r : Request} (hoffset : r.offset = none) (hpage : r.page = none)
    (size : UInt64) : r.start size = 0 := by
  rw [Request.start, hoffset, hpage]

/-- The pages of a request without an offset are a tiling by its page size, which the window bounds;
without a page the result starts at its front. An offset is where every page starts. The same
holds of a host's arguments whose page and limit are signed words. There a negative page is
none, the limit is absent if it is minus one or if paging is switched off, and any other limit
that is not positive is the default of ten. -/
theorem pages_tile (c : Config) (privileged : Bool) (now : Moment) :
    (∀ r : Request,
      let compiled (page : Option UInt64) := compile c [] { r with page } privileged now
      (∀ page, (compiled page).size.toNat = pageLength c r.pageSize ∧
        (compiled page).size ≤ c.maxResultsWindow) ∧
      (∀ o, r.offset = some o → ∀ page, (compiled page).start = o) ∧
      (r.offset = none → (compiled none).start = 0 ∧
        Tiling (2 ^ 64 - 1) (pageLength c r.pageSize) fun p => compiled (some (.ofNat p)))) ∧
    ∀ ms : Members,
      let r := Request.read (.object ms)
      let compiled (n : Int64) := compile c [] (.read (.object (onPage n ms))) privileged now
      (∀ o, r.offset = some o → ∀ n, (compiled n).start = o) ∧
      (r.offset = none → (∀ n < 0, (compiled n).start = 0) ∧
        (Entries.find? "paged" ms = none → (compile c [] r privileged now).start = 0) ∧
        ∀ limit : Option Int64, Entries.find? "posts_per_page" ms = limit.map .ofInt64 →
          let nopaging := ((Entries.find? "nopaging" ms).map Value.isOn).getD false
          let size :=
            if nopaging = true ∨ limit = some (-1) then c.maxResultsWindow.toNat
            else min (allowedItems limit) c.maxResultsWindow.toNat
          Tiling (2 ^ 63 - 1) size fun p => compiled (.ofNat p)) := by
  constructor
  · intro r compiled
    refine ⟨fun page => ⟨Request.toNat_size _ c, ?_⟩, fun o ho page => ?_, fun hoffset => ⟨?_, ?_⟩⟩
    · rw [UInt64.le_iff_toNat_le]
      exact Nat.le_trans (Nat.le_of_eq (Request.toNat_size _ c)) (pageLength_le c r.pageSize)
    · exact start_of_offset (r := { r with page }) ho _
    · exact start_of_no_page (r := { r with page := none }) hoffset rfl _
    · exact tiling_compile (by decide) _ _ (fun _ _ => hoffset) (fun _ _ => rfl) (fun _ _ => rfl)
  · intro ms r compiled
    refine ⟨fun o ho n => ?_, fun hoffset => ⟨fun n hn => ?_, fun hpaged => ?_,
      fun limit hlimit => ?_⟩⟩
    · exact start_of_offset (by rw [offset_read_onPage, ho]) _
    · refine start_of_no_page (by rw [offset_read_onPage, hoffset]) ?_ _
      rw [page_read_onPage, asNatural?_ofInt64, if_neg (Int64.not_le.mpr hn)]
    · refine start_of_no_page hoffset ?_ _
      show (Entries.find? "paged" ms).bind Value.asNatural? = none
      rw [hpaged, Option.bind_none]
    · intro nopaging size
      have hsize : size = pageLength c r.pageSize := (pageLength_read hlimit c).symm
      rw [hsize]
      exact tiling_read hoffset

/-- What the third page of twenty-five items shows. -/
theorem pages_tile_third :
    let ms : Members := [("posts_per_page", .ofInt64 25)]
    let third := compile {} [] (.read (.object (onPage (.ofNat 3) ms))) false .epoch
    (Request.read (.object ms)).offset = none ∧
      Entries.find? "posts_per_page" ms = some (.ofInt64 25) ∧
      third.start.toNat = 50 ∧ third.size.toNat = 25 := by
  intro ms third
  have hoffset : (Request.read (.object ms)).offset = none := rfl
  have hlimit : Entries.find? "posts_per_page" ms = some (.ofInt64 25) :=
    Entries.find?_cons_self _ _ _
  obtain ⟨-, -, htiling⟩ := ((pages_tile {} false .epoch).2 ms).2 hoffset
  have h := htiling (some 25) hlimit
  refine ⟨hoffset, hlimit, ?_, h.size_eq 3 (by decide)⟩
  rw [h.next 2 (by decide) (by decide), h.next 1 (by decide) (by decide),
    h.front 1 (by decide) (by decide)]
  rfl

end ContentIndex.Query
