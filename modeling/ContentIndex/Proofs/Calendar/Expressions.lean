import ContentIndex.Calendar.Relative
import ContentIndex.Proofs.Calendar.ReadBack
import ContentIndex.Proofs.Calendar.Shifting

/-
  Expressions that move the present by an amount of a unit, as they may be written: with `ago`
  behind them or a sign in front, the unit in the singular or the plural, letters in either case,
  and blanks of any kind around the expression and between the number and the unit. All of them are
  read (`Expression.relative?_text`). What is read is the moment that so many spans lie away from
  the present, and nothing is read exactly if the calendar does not reach that far
  (`relative?_expression`). A number beyond 64 bits is no exception: no span is so short that the
  calendar would reach there.
-/

namespace ContentIndex

open Text (isBlank trimChars trimStart trimEndWhile wordChars)

/-! ## Blanks and letters -/

namespace Text

/-- No blank is a letter of either case. -/
theorem isBlank_of_letter {c : Char} (h : 65 ≤ c.toNat ∧ c.toNat ≤ 122) : isBlank c = false := by
  have all : ∀ n < 123, 65 ≤ n → blanks.contains n = false := by decide
  exact all c.toNat (Nat.lt_succ_of_le h.2) h.1

theorem isBlank_toLower (c : Char) : isBlank c.toLower = isBlank c := by
  unfold Char.toLower
  split
  next h =>
    have hlow : 65 ≤ c.toNat := h.1
    have hhigh : c.toNat ≤ 90 := h.2
    have hval : (c.val + 32).toNat = c.toNat + 32 := by
      have hc : c.val.toNat ≤ 90 := hhigh
      rw [UInt32.toNat_add]
      exact Nat.mod_eq_of_lt (by simp; omega)
    rw [isBlank_of_letter (c := c) ⟨hlow, by omega⟩]
    refine isBlank_of_letter ?_
    change 65 ≤ (c.val + 32).toNat ∧ (c.val + 32).toNat ≤ 122
    omega
  · rfl

/-- What ends with a word ends with no blank, if there is none in the word. -/
theorem getLast?_append_not_blank {front word : List Char} (hne : word ≠ [])
    (h : ∀ c ∈ word.map Char.toLower, isBlank c = false) :
    ∀ c ∈ (front ++ word).getLast?, isBlank c = false := by
  intro c hc
  rw [List.getLast?_append, List.getLast?_eq_some_getLast hne, Option.some_or] at hc
  cases hc
  rw [← isBlank_toLower]
  exact h _ (List.mem_map_of_mem (List.getLast_mem hne))

/-- What ends otherwise does not end with `tail`. -/
theorem dropEnd?_eq_none {tail cs : List Char} (h : cs.getLast? ≠ tail.getLast?)
    (hne : tail ≠ []) : Calendar.dropEnd? tail cs = none := by
  unfold Calendar.dropEnd?
  rw [Option.map_eq_none_iff, Option.eq_none_iff_forall_not_mem]
  intro r hr
  have hcs := congrArg List.reverse (eq_append_of_dropLead? (Option.mem_def.mp hr))
  rw [List.reverse_reverse, List.reverse_append, List.reverse_reverse] at hcs
  exact h (by simp [hcs, List.getLast?_append, List.getLast?_eq_some_getLast hne])

theorem dropEnd?_append (cs tail : List Char) : Calendar.dropEnd? tail (cs ++ tail) = some cs := by
  rw [Calendar.dropEnd?, List.reverse_append, dropLead?_append, Option.map_some,
    List.reverse_reverse]

end Text

namespace Calendar

open Number (readInt readNat natChars int64OfInt? natChars_eq_cons readInt_natChars)
open Text (digitChar_ne_sign toLower_digitChar)

/-! ## Spans -/

/-- A moment lies so many spans away from another one. Months keep the time of day, and the day of
the month unless the new month is too short for it. -/
def Span.Moved (n : Int) (t u : Moment) : Span → Prop
  | .seconds k => u.instant = t.instant + n * k ∧ u.nano = t.nano
  | .months k => u.date.monthIndex = t.date.monthIndex + n * k ∧
      u.date.day = min t.date.day (daysInMonth u.date.year u.date.month) ∧
      u.second = t.second ∧ u.nano = t.nano

/-- The calendar reaches so many spans away from a moment. -/
def Span.Reached (n : Int) (t : Moment) : Span → Prop
  | .seconds k => Moment.firstInstant ≤ t.instant + n * k ∧ t.instant + n * k ≤ Moment.lastInstant
  | .months k => Date.first.monthIndex ≤ t.date.monthIndex + n * k ∧
      t.date.monthIndex + n * k ≤ Date.last.monthIndex

theorem Moment.shift?_eq_some_iff {t u : Moment} (h : t.isLeap = false) {n : Int} {span : Span} :
    t.shift? n span = some u ↔ span.Moved n t u := by
  cases span with
  | seconds k => exact addSeconds?_eq_some_iff h
  | months k => exact addMonths?_eq_some_iff

/-- Where the calendar reaches there is a moment. -/
theorem Span.exists_moved_iff {t : Moment} (h : t.isLeap = false) {n : Int} {span : Span} :
    (∃ u, span.Moved n t u) ↔ span.Reached n t := by
  cases span with
  | seconds k =>
    have hnano : t.nano < 1000000000 := by simpa [Moment.isLeap] using h
    exact Moment.exists_instant_eq_iff hnano
  | months k =>
    refine Iff.trans ?_ (Date.exists_addMonths?_iff (d := t.date) (n := n * k))
    constructor
    · rintro ⟨u, hu⟩
      exact ⟨u.date, Date.addMonths?_eq_some_iff.mpr ⟨hu.1, hu.2.1⟩⟩
    · rintro ⟨d, hd⟩
      obtain ⟨hindex, hday⟩ := Date.addMonths?_eq_some_iff.mp hd
      exact ⟨{ t with date := d }, hindex, hday, rfl, rfl⟩

/-- The calendar is shorter than 2 ^ 63 seconds, let alone months. -/
theorem Span.not_reached_of_large {t : Moment} {n : Int} (hn : 2 ^ 63 ≤ n.natAbs) {k : Nat}
    (hk : 0 < k) {span : Span} (hspan : span = .seconds k ∨ span = .months k) :
    ¬ span.Reached n t := by
  have large : n.natAbs ≤ (n * k).natAbs := by
    rw [Int.natAbs_mul, Int.natAbs_natCast]
    exact Nat.le_mul_of_pos_right _ hk
  rcases hspan with rfl | rfl
  · have hfirst : Moment.firstInstant = -8334601228800 := by decide
    have hlast : Moment.lastInstant = 8210266876799 := by decide
    have ht := t.instant_range
    rw [Reached]
    omega
  · have hy := t.date.year_range
    have hm := t.date.month_range
    simp only [Reached, Date.monthIndex, Date.first, Date.last, firstYear, lastYear] at hy ⊢
    omega

/-! ## Expressions -/

/-- The names of the units. -/
def unitNames : List (String × Span) :=
  [("second", .seconds 1), ("sec", .seconds 1), ("minute", .seconds 60), ("min", .seconds 60),
    ("hour", .seconds 3600), ("day", .seconds 86400), ("week", .seconds 604800),
    ("month", .months 1), ("year", .months 12)]

/-- How the direction of an expression is written. -/
inductive Direction where
  /-- The word "ago" behind it, in any case. -/
  | ago (word : List Char) (named : word.map Char.toLower = "ago".toList)
  | minus
  | plus
  | unsigned

namespace Direction

def sign : Direction → Int
  | .ago _ _ | .minus => -1
  | .plus | .unsigned => 1

/-- Writes the direction around an amount of a unit. -/
def around (cs : List Char) : Direction → List Char
  | .ago word _ => cs ++ ' ' :: word
  | .minus => '-' :: cs
  | .plus => '+' :: cs
  | .unsigned => cs

end Direction

/-- An amount of a unit in some direction, as it is written. -/
structure Expression where
  direction : Direction
  amount : Nat
  name : String
  span : Span
  named : (name, span) ∈ unitNames
  /-- The name as it is written, in any case, with an s behind it or not. -/
  word : List Char
  word_eq : word.map Char.toLower = name.toList ∨ word.map Char.toLower = name.toList ++ ['s']
  /-- The blanks between the amount and the unit. -/
  gap : List Char
  gap_blank : ∀ c ∈ gap, isBlank c = true
  gap_ne : gap ≠ []
  front : List Char
  front_blank : ∀ c ∈ front, isBlank c = true
  back : List Char
  back_blank : ∀ c ∈ back, isBlank c = true

namespace Expression

/-- The number, the blanks and the unit. -/
def inner (e : Expression) : List Char :=
  natChars e.amount ++ e.gap ++ e.word

/-- The expression without the blanks around it. -/
def core (e : Expression) : List Char :=
  e.direction.around e.inner

def text (e : Expression) : String :=
  String.ofList (e.front ++ e.core ++ e.back)

/-- By how many spans the expression moves a moment. -/
def shift (e : Expression) : Int :=
  e.direction.sign * e.amount

/-- The unit in small letters. -/
def lowerWord (e : Expression) : List Char :=
  e.word.map Char.toLower

/-- The number, the blanks and the unit in small letters. -/
def lowerInner (e : Expression) : List Char :=
  natChars e.amount ++ (e.gap.map Char.toLower ++ e.lowerWord)

end Expression

/-- Each name of a unit is understood, with an s behind it too. Neither has an o at its end. -/
theorem unitNames_named : ∀ p ∈ unitNames, ∀ w ∈ [p.1.toList, p.1.toList ++ ['s']],
    Span.named? (String.ofList (trimEndWhile (· == 's') w)) = some p.2 ∧
      w ≠ [] ∧ w.all (!isBlank ·) = true ∧ w.getLast? ≠ some 'o' := by
  decide

/-- No unit is of no length. -/
theorem unitNames_pos : ∀ p ∈ unitNames, ∃ k, 0 < k ∧ (p.2 = .seconds k ∨ p.2 = .months k) := by
  simp [unitNames]

namespace Expression

variable (e : Expression)

theorem natAbs_shift : e.shift.natAbs = e.amount := by
  rw [shift, Int.natAbs_mul, Int.natAbs_natCast]
  cases e.direction <;> exact Nat.one_mul _

theorem lowerWord_named :
    Span.named? (String.ofList (trimEndWhile (· == 's') e.lowerWord)) = some e.span ∧
      e.lowerWord ≠ [] ∧ (∀ c ∈ e.lowerWord, isBlank c = false) ∧
      e.lowerWord.getLast? ≠ some 'o' := by
  have written : e.lowerWord ∈ [e.name.toList, e.name.toList ++ ['s']] := by
    rw [lowerWord]
    simpa using e.word_eq
  obtain ⟨hnamed, hne, hblank, hlast⟩ := unitNames_named _ e.named _ written
  exact ⟨hnamed, hne, by simpa using hblank, hlast⟩

theorem readAmount?_lowerInner : readAmount? e.lowerInner =
    (int64OfInt? e.amount).map fun n => (n.toInt, e.span) := by
  obtain ⟨d, r, hcons, -, hdigits, -⟩ := natChars_eq_cons e.amount
  obtain ⟨hnamed, hne, hword, -⟩ := e.lowerWord_named
  have hgap : ∀ c ∈ e.gap.map Char.toLower, isBlank c = true := by
    intro c hc
    obtain ⟨b, hb, rfl⟩ := List.mem_map.mp hc
    rw [Text.isBlank_toLower, e.gap_blank b hb]
  have hwords : wordChars e.lowerInner = [natChars e.amount, e.lowerWord] := by
    have hstop : ∀ c ∈ (e.gap.map Char.toLower ++ e.lowerWord).head?, isBlank c = true := by
      obtain ⟨b, gap, hcons⟩ := List.exists_cons_of_ne_nil e.gap_ne
      intro c hc
      rw [hcons] at hc hgap
      cases hc
      exact hgap _ List.mem_cons_self
    have hlast := Text.wordChars_append (r := []) hne hword (by simp)
    rw [List.append_nil] at hlast
    rw [lowerInner, Text.wordChars_append (by simp [hcons]) hdigits hstop,
      Text.wordChars_blanks_append hgap, hlast]
    rfl
  unfold readAmount?
  rw [hwords]
  dsimp only
  rw [readInt_natChars, hnamed, Option.bind_some]
  cases int64OfInt? e.amount <;> rfl

theorem inner_ne_nil : e.inner ≠ [] := by
  obtain ⟨d, r, hcons, -⟩ := natChars_eq_cons e.amount
  simp [inner, hcons]

theorem map_toLower_inner : e.inner.map Char.toLower = e.lowerInner := by
  obtain ⟨-, -, -, -, -, hlower⟩ := natChars_eq_cons e.amount
  rw [inner, List.map_append, List.map_append, hlower, List.append_assoc]
  rfl

theorem getLast?_lowerInner : e.lowerInner.getLast? ≠ some 'o' := by
  obtain ⟨-, hne, -, hlast⟩ := e.lowerWord_named
  rw [lowerInner, ← List.append_assoc]
  simpa [List.getLast?_append, List.getLast?_eq_some_getLast hne] using hlast

theorem splitDirection_core :
    splitDirection (e.core.map Char.toLower) = (e.direction.sign, e.lowerInner) := by
  have signed (c : Char) : dropEnd? [' ', 'a', 'g', 'o'] (c :: e.lowerInner) = none := by
    refine Text.dropEnd?_eq_none ?_ (by simp)
    have hne : e.lowerInner ≠ [] := by
      rw [← e.map_toLower_inner]
      exact mt List.map_eq_nil_iff.mp e.inner_ne_nil
    have hlast := e.getLast?_lowerInner
    rwa [List.getLast?_cons_of_ne_nil hne]
  rw [core]
  cases e.direction with
  | ago word named =>
    rw [Direction.around, List.map_append, List.map_cons, named, map_toLower_inner]
    unfold splitDirection
    rw [show (Char.toLower ' ' :: "ago".toList) = [' ', 'a', 'g', 'o'] by decide,
      Text.dropEnd?_append]
    rfl
  | minus | plus =>
    rw [Direction.around, List.map_cons, map_toLower_inner]
    unfold splitDirection
    rw [signed]
    rfl
  | unsigned =>
    rw [Direction.around, map_toLower_inner]
    unfold splitDirection
    rw [Text.dropEnd?_eq_none e.getLast?_lowerInner (by simp)]
    obtain ⟨d, r, hcons, small, -⟩ := natChars_eq_cons e.amount
    rw [lowerInner, hcons, List.cons_append]
    dsimp only
    split
    next h => exact absurd (List.cons.inj h).1 (digitChar_ne_sign small).1
    next h => exact absurd (List.cons.inj h).1 (digitChar_ne_sign small).2
    next => rfl

theorem inner_head : ∀ c ∈ e.inner.head?, isBlank c = false := by
  obtain ⟨d, r, hcons, small, -⟩ := natChars_eq_cons e.amount
  rw [inner, hcons]
  rintro _ ⟨⟩
  exact Text.isBlank_digitChar small

theorem inner_last : ∀ c ∈ e.inner.getLast?, isBlank c = false := by
  obtain ⟨-, hne, hblank, -⟩ := e.lowerWord_named
  exact Text.getLast?_append_not_blank (by simpa [lowerWord] using hne) hblank

theorem trimChars_text : trimChars e.text.toList = e.core := by
  have hne := e.inner_ne_nil
  have hlast := e.inner_last
  rw [text, String.toList_ofList]
  refine Text.trimChars_blanks_append e.front_blank e.back_blank ?_ ?_ ?_
  · rw [core]
    cases e.direction <;> simp [Direction.around, hne]
  · have hhead := e.inner_head
    obtain ⟨c, r, hcons⟩ := List.exists_cons_of_ne_nil hne
    rw [core]
    rw [hcons] at hhead ⊢
    cases e.direction with
    | ago word named => exact hhead
    | minus | plus => rintro _ ⟨⟩; decide
    | unsigned => exact hhead
  · rw [core]
    cases e.direction with
    | ago word named =>
      have hword : word ≠ [] := by
        rintro rfl
        cases named
      have hblank : (word.map Char.toLower).all (!isBlank ·) = true := by
        rw [named]
        decide
      rw [Direction.around, List.append_cons]
      exact Text.getLast?_append_not_blank hword (by simpa using hblank)
    | minus | plus => rwa [Direction.around, List.getLast?_cons_of_ne_nil hne]
    | unsigned => exact hlast

/-- An expression has a number, so it is none of the words of letters. -/
theorem ofList_core_ne {word : String} (letters : word.toList.all Char.isAlpha = true) :
    String.ofList (e.core.map Char.toLower) ≠ word := by
  obtain ⟨d, r, hcons, small, -⟩ := natChars_eq_cons e.amount
  have hinner : d.digitChar ∈ e.inner := by simp [inner, hcons]
  have hcore : d.digitChar ∈ e.core := by
    rw [core]
    cases e.direction <;> simp [Direction.around, hinner]
  have hlower : d.digitChar ∈ e.core.map Char.toLower := by
    rw [← toLower_digitChar small]
    exact List.mem_map_of_mem hcore
  have digit : ∀ d < 10, d.digitChar.isAlpha = false := by decide
  rintro rfl
  rw [String.toList_ofList] at letters
  exact Bool.false_ne_true ((digit d small).symm.trans (List.all_eq_true.mp letters _ hlower))

/-- Every way to write an expression is read as the same shift. A number beyond 64 bits is none. -/
theorem relative?_text (now : Moment) : Moment.relative? e.text now =
    if e.amount < 2 ^ 63 then now.shift? e.shift e.span else none := by
  unfold Moment.relative?
  dsimp only
  rw [e.trimChars_text]
  split
  next h => exact absurd h (e.ofList_core_ne (by decide))
  next h => exact absurd h (e.ofList_core_ne (by decide))
  next h => exact absurd h (e.ofList_core_ne (by decide))
  next h => exact absurd h (e.ofList_core_ne (by decide))
  next =>
    rw [e.splitDirection_core]
    dsimp only
    rw [e.readAmount?_lowerInner, int64OfInt?]
    split
    next hword =>
      have hvalue : (Int64.ofInt e.amount).toInt = e.amount :=
        Int64.toInt_ofInt_of_le (by omega) (by omega)
      rw [if_pos (by omega), Option.map_some, Option.bind_some, hvalue]
      rfl
    next hlarge =>
      rw [if_neg (by omega)]
      rfl

/-- A shift that is not read is one that the calendar does not reach. -/
theorem relative?_text_eq_shift? (now : Moment) (h : now.isLeap = false) :
    Moment.relative? e.text now = now.shift? e.shift e.span := by
  rw [e.relative?_text]
  split
  next => rfl
  next hlarge =>
    obtain ⟨k, hk, hspan⟩ := unitNames_pos _ e.named
    have hshift : 2 ^ 63 ≤ e.shift.natAbs := by
      rw [e.natAbs_shift]
      exact Nat.le_of_not_lt hlarge
    have hnone := Span.not_reached_of_large (t := now) hshift hk hspan
    rw [← Span.exists_moved_iff h] at hnone
    symm
    rw [Option.eq_none_iff_forall_not_mem]
    intro u hu
    exact hnone ⟨u, (Moment.shift?_eq_some_iff h).mp hu⟩

end Expression

/-- Outside leap seconds, an expression gives the moment that lies so many spans away, and none
exactly if the calendar does not reach that far. Spans of seconds can be taken back by the
expression of the other direction. -/
theorem relative?_expression (e : Expression) (now : Moment) (h : now.isLeap = false) :
    (∀ t, Moment.relative? e.text now = some t ↔ e.span.Moved e.shift now t) ∧
      (Moment.relative? e.text now = none ↔ ¬ e.span.Reached e.shift now) ∧
      ∀ (e' : Expression) (k : Nat) (t : Moment), e.span = .seconds k → e'.span = e.span →
        e'.shift = -e.shift → Moment.relative? e.text now = some t →
        Moment.relative? e'.text t = some now := by
  have hread (t : Moment) : Moment.relative? e.text now = some t ↔ e.span.Moved e.shift now t := by
    rw [e.relative?_text_eq_shift? now h, Moment.shift?_eq_some_iff h]
  refine ⟨hread, ?_, ?_⟩
  · rw [← Span.exists_moved_iff h, Option.eq_none_iff_forall_not_mem, not_exists]
    exact forall_congr' fun t => not_congr (hread t)
  · intro e' k t hspan hspan' hshift ht
    have hmoved := (hread t).mp ht
    rw [hspan] at hmoved
    obtain ⟨hinstant, hnano⟩ := hmoved
    have hleap : t.isLeap = false := by
      unfold Moment.isLeap at h ⊢
      rw [hnano]
      exact h
    have hback : (Span.seconds k).Moved (-e.shift) t now := by
      have hinv : now.instant = t.instant + -e.shift * k := by
        rw [hinstant, Int.neg_mul, Int.add_neg_cancel_right]
      exact ⟨hinv, hnano.symm⟩
    rw [e'.relative?_text_eq_shift? t hleap, Moment.shift?_eq_some_iff hleap, hspan', hspan, hshift]
    exact hback

/-- A month back from the end of March is the end of February, at the same time of day. -/
theorem relative?_expression_end_of_march :
    let e : Expression :=
      { direction := .ago "AGO".toList (by decide)
        amount := 1
        name := "month"
        span := .months 1
        named := by decide
        word := "Months".toList
        word_eq := by decide
        gap := ['\t', ' ']
        gap_blank := List.all_eq_true.mp (by decide)
        gap_ne := by decide
        front := ['\n']
        front_blank := List.all_eq_true.mp (by decide)
        back := []
        back_blank := List.all_eq_true.mp (by decide) }
    let day (month dayOfMonth : Nat) (hm : 1 ≤ month ∧ month ≤ 12)
        (hd : 1 ≤ dayOfMonth ∧ dayOfMonth ≤ daysInMonth 2024 month) : Moment :=
      ⟨⟨2024, month, dayOfMonth, by decide, hm, hd⟩, 45296, 7, by decide, by decide, by decide⟩
    let march := day 3 31 (by decide) (by decide)
    march.isLeap = false ∧ e.text = "\n1\t Months AGO" ∧
      Moment.relative? e.text march = some (day 2 29 (by decide) (by decide)) := by
  intro e day march
  have hleap : march.isLeap = false := by decide
  refine ⟨hleap, by decide, ?_⟩
  rw [(relative?_expression e march hleap).1]
  exact ⟨by decide, by decide, rfl, rfl⟩

end Calendar
end ContentIndex
