import ContentIndex.Proofs.Calendar.Counting
import ContentIndex.Proofs.Calendar.ReadBack

/-
  Moments that are read, written and read again. The engine's text keeps all of a moment but the
  fraction of its second, and from then on nothing changes any more (`Moment.text_reads_back`). A
  fraction is read from one place only, behind a point. What a scan leaves is the end of what it
  was given (`Scan.Advances`), so a text without a point gives a whole second
  (`Moment.nano_of_read?`), and this very moment is read back.
-/

namespace ContentIndex

theorem Text.mem_of_mem_trimChars {c : Char} {cs : List Char} (h : c ∈ trimChars cs) : c ∈ cs := by
  have back : c ∈ (trimStart cs).reverse :=
    (List.dropWhile_sublist _).subset (List.mem_reverse.mp h)
  exact (List.dropWhile_sublist _).subset (List.mem_reverse.mp back)

namespace Calendar

namespace Scan

variable {α β : Type} {cs r : List Char}

/-! ## What scans leave -/

theorem bind_eq_some {s : Scan α} {f : α → Scan β} {b : β} (h : (s >>= f) cs = some (b, r)) :
    ∃ a r', s cs = some (a, r') ∧ f a r' = some (b, r) := by
  obtain ⟨⟨a, r'⟩, hs, hf⟩ := Option.bind_eq_some_iff.mp h
  exact ⟨a, r', hs, hf⟩

theorem eq_some_of_whole {s : Scan α} {a : α} (h : s.whole cs = some a) :
    s cs = some (a, []) := by
  unfold whole at h
  split at h
  next hb =>
    cases h
    exact hb
  next => cases h

theorem ofOption_eq_some {o : Option α} {a : α} (h : ofOption o cs = some (a, r)) :
    o = some a := by
  obtain ⟨b, hb, e⟩ := Option.map_eq_some_iff.mp h
  cases e
  exact hb

/-- A scan reads from the front: it leaves an end of what it was given. -/
def Advances (s : Scan α) : Prop :=
  ∀ cs a r, s cs = some (a, r) → r <:+ cs

theorem advances_char (c : Char) : Advances (char c) := by
  intro cs u r h
  cases cs with
  | nil => cases h
  | cons d rest =>
    have hd : (if d = c then some ((), rest) else none) = some (u, r) := h
    split at hd
    · cases hd
      exact List.suffix_cons d _
    · cases hd

theorem splitDigits_suffix (most : Nat) (cs : List Char) : (splitDigits most cs).2 <:+ cs := by
  induction most generalizing cs with
  | zero => exact List.suffix_refl cs
  | succ n ih =>
    cases cs with
    | nil => exact List.suffix_refl []
    | cons c cs =>
      unfold splitDigits
      split
      · exact (ih cs).trans (List.suffix_cons c cs)
      · exact List.suffix_refl _

theorem advances_number (least most : Nat) : Advances (number least most) := by
  intro cs n r h
  have hn : (if (splitDigits most cs).1.length < least then none
      else some (Text.ofDigits (splitDigits most cs).1, (splitDigits most cs).2)) = some (n, r) := h
  split at hn
  · cases hn
  · cases hn
    exact splitDigits_suffix most cs

theorem advances_dateEnd : Advances dateEnd := by
  intro cs u r h
  obtain ⟨c, r', hpeek, hskip⟩ := bind_eq_some h
  cases hpeek
  have skipped : skip cs = some (u, r) := by
    revert hskip
    generalize cs.head? = c
    intro hskip
    split at hskip <;> first | exact hskip | cases hskip
  cases skipped
  exact List.drop_suffix 1 cs

/-- If there is no point in front of a scan, there is none behind it. -/
theorem Advances.no_point {s : Scan α} {f : α → Scan β} {b : β} (hs : Advances s)
    (hp : '.' ∉ cs) (h : (s >>= f) cs = some (b, r)) :
    ∃ a r', '.' ∉ r' ∧ f a r' = some (b, r) := by
  obtain ⟨a, r', ha, hf⟩ := bind_eq_some h
  exact ⟨a, r', fun hr => hp ((hs _ _ _ ha).mem hr), hf⟩

theorem fraction_eq_zero {n : Nat} (hp : '.' ∉ cs) (h : fraction cs = some (n, r)) : n = 0 := by
  obtain ⟨c, r', hpeek, hn⟩ := bind_eq_some h
  cases hpeek
  have hpoint : cs.head? ≠ some '.' := fun hc => hp (List.mem_of_mem_head? hc)
  generalize cs.head? = c at hpoint hn
  split at hn
  next => exact absurd rfl hpoint
  next =>
    cases hn
    rfl

end Scan

/-! ## Fractions of a second -/

namespace Moment

open Scan

variable {cs r : List Char} {t : Moment}

theorem nano_of_ofParts? {d : Date} {h m s n : Nat} (ht : ofParts? d h m s n = some t) :
    t.nano % 1000000000 = n := by
  unfold ofParts? at ht
  split at ht
  next =>
    cases ht
    dsimp only
    split <;> omega
  next => cases ht

/-- A date and a time give a whole second. -/
theorem nano_of_moment {separator : Scan Unit} (h : Scan.moment separator cs = some (t, r)) :
    t.nano % 1000000000 = 0 := by
  obtain ⟨d, r₁, -, h⟩ := bind_eq_some h
  obtain ⟨u, r₂, -, h⟩ := bind_eq_some h
  obtain ⟨⟨hour, minute, second⟩, r₃, -, h⟩ := bind_eq_some h
  exact nano_of_ofParts? (ofOption_eq_some h)

theorem nano_of_fromZone {u : Moment} {offset : Int} (h : fromZone u offset cs = some (t, r)) :
    t.nano = u.nano := by
  have hu : (if offset.natAbs < 86400 then ofOption (ofInstant? (u.instant - offset) u.nano) cs
      else reject cs) = some (t, r) := by
    rw [← h, fromZone]
    split <;> rfl
  split at hu
  · exact (ofInstant?_eq_some_iff.mp (ofOption_eq_some hu)).2
  · cases hu

/-- A moment of a zone has the fraction that stands behind its point, if it has one. -/
theorem nano_of_zonedMoment (hp : '.' ∉ cs) (h : zonedMoment cs = some (t, r)) :
    t.nano % 1000000000 = 0 := by
  have numbers := advances_number
  have hyphen := advances_char '-'
  have colon := advances_char ':'
  obtain ⟨year, r, hp, h⟩ := (numbers 4 4).no_point hp h
  obtain ⟨-, r, hp, h⟩ := hyphen.no_point hp h
  obtain ⟨month, r, hp, h⟩ := (numbers 2 2).no_point hp h
  obtain ⟨-, r, hp, h⟩ := hyphen.no_point hp h
  obtain ⟨day, r, hp, h⟩ := (numbers 2 2).no_point hp h
  obtain ⟨-, r, hp, h⟩ := advances_dateEnd.no_point hp h
  obtain ⟨hour, r, hp, h⟩ := (numbers 2 2).no_point hp h
  obtain ⟨-, r, hp, h⟩ := colon.no_point hp h
  obtain ⟨minute, r, hp, h⟩ := (numbers 2 2).no_point hp h
  obtain ⟨-, r, hp, h⟩ := colon.no_point hp h
  obtain ⟨second, r, hp, h⟩ := (numbers 2 2).no_point hp h
  obtain ⟨n, r, hn, h⟩ := bind_eq_some h
  obtain ⟨offset, r, -, h⟩ := bind_eq_some h
  obtain ⟨date, r, -, h⟩ := bind_eq_some h
  obtain ⟨u, r, hu, h⟩ := bind_eq_some h
  rw [nano_of_fromZone h, nano_of_ofParts? (ofOption_eq_some hu), fraction_eq_zero hp hn]

theorem nano_of_ofSecondsText? (h : ofSecondsText? cs = some t) : t.nano = 0 := by
  obtain ⟨n, -, h⟩ := Option.bind_eq_some_iff.mp h
  obtain ⟨i, -, h⟩ := Option.bind_eq_some_iff.mp h
  exact (ofInstant?_eq_some_iff.mp h).2

theorem nano_of_ofChars? (hp : '.' ∉ cs) (h : ofChars? cs = some t) :
    t.nano % 1000000000 = 0 := by
  unfold ofChars? at h
  split at h
  · rw [nano_of_ofSecondsText? h]
  · simp only [Option.orElse_eq_orElse, Option.orElse_eq_or, Option.or_eq_some_iff] at h
    rcases h with spaced | ⟨-, lettered | ⟨-, zoned | ⟨-, date⟩⟩⟩
    · exact nano_of_moment (eq_some_of_whole spaced)
    · exact nano_of_moment (eq_some_of_whole lettered)
    · exact nano_of_zonedMoment hp (eq_some_of_whole zoned)
    · obtain ⟨d, -, rfl⟩ := Option.map_eq_some_iff.mp date
      rfl

/-- A text without a point gives a whole second. -/
theorem nano_of_read? {s : String} (hp : '.' ∉ s.toList) (h : read? s = some t) :
    t.nano % 1000000000 = 0 :=
  nano_of_ofChars? (fun hc => hp (Text.mem_of_mem_trimChars hc)) h

theorem wholeSecond_eq_self (h : t.nano % 1000000000 = 0) : t.wholeSecond = t := by
  refine Moment.ext rfl rfl ?_
  have hn := t.nano_lt
  simp only [wholeSecond, isLeap, decide_eq_true_eq]
  split <;> omega

/-! ## Writing and reading again -/

/-- The engine's text of a moment is read as its whole second. So what was read from a text is read
again from the text that it is written as, up to a fraction, which only a point can give; and
what is read then is written and read as it is. -/
theorem text_reads_back (t : Moment) :
    read? t.text = some t.wholeSecond ∧
      ∀ s, read? s = some t →
        (t.wholeSecond = t ∨ '.' ∈ s.toList) ∧
        t.wholeSecond.text = t.text ∧ read? t.wholeSecond.text = some t.wholeSecond := by
  refine ⟨t.read?_text, fun s hs => ⟨?_, t.text_wholeSecond, ?_⟩⟩
  · by_cases hp : '.' ∈ s.toList
    · exact .inr hp
    · exact .inl (wholeSecond_eq_self (nano_of_read? hp hs))
  · rw [read?_text, wholeSecond_wholeSecond]

/-- A leap second with a fraction, given in another zone, is written as second 60 of the minute and
read from that as the whole leap second. -/
theorem text_reads_back_leap :
    ∃ t, read? "2016-12-31T18:59:60.25-05:00" = some t ∧ t.text = "2016-12-31 23:59:60" ∧
      t.nano = 1250000000 ∧ read? t.text = some t.wholeSecond ∧
      t.wholeSecond.text = "2016-12-31 23:59:60" := by
  have given : (read? "2016-12-31T18:59:60.25-05:00").map (fun t => (t.text, t.nano)) =
      some ("2016-12-31 23:59:60", 1250000000) := by decide +kernel
  obtain ⟨t, ht, written⟩ := Option.map_eq_some_iff.mp given
  obtain ⟨text, nano⟩ := Prod.mk.inj written
  obtain ⟨back, again⟩ := t.text_reads_back
  obtain ⟨-, same, -⟩ := again _ ht
  exact ⟨t, ht, text, nano, back, same.trans text⟩

end Moment
end Calendar
end ContentIndex
