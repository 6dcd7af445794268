import ContentIndex.Proofs.Query.DateColumns

/-
  An entry of a query on dates in its two forms. An entry of units alone is a group: each unit is to
  be a number, and values that write none are skipped. An entry with a bound or a comparator keeps
  whatever values its units have, and a list means one of its items.

  So a bound that is added to an entry of units takes no unit away, but it may bring some in: those
  whose value is not null and yet writes no number (`constrained_units`). Which units the clauses
  of any query are on can be read off its tree (`DateQuery.constrains_iff`).
-/

namespace ContentIndex.Query

open Calendar (Moment)
open Json (Value Members)

/-! ## Constrained units -/

/-- Some leaf of the clauses is on the unit. -/
def Constrains (cs : List Clause) (u : DateUnit) : Prop :=
  ∃ c ∈ Clause.leavesOf cs, c.field? = some (unitPath u)

theorem unitPath_inj {u w : DateUnit} : unitPath u = unitPath w ↔ u = w := by
  constructor
  · intro h
    have hfield : u.field = w.field := by simpa [unitPath] using h
    have hnamed := congrArg DateUnit.named? hfield
    rwa [DateUnit.named?_field, DateUnit.named?_field, Option.some_inj] at hnamed
  · rintro rfl
    rfl

theorem unitPath_not_mem_dateColumns (u : DateUnit) : unitPath u ∉ dateColumns := by
  cases u <;> decide

namespace Origin

/-- The unit that an origin constrains, if it does. -/
def unit? : Origin → Option DateUnit
  | .bounds _ _ => none
  | .comparison u compare v => (unitClause? u compare v).map fun _ => u
  | .equality u _ => some u

theorem exists_leaf_iff (o : Origin) (now : Moment) (u : DateUnit) :
    (∃ c ∈ o.leaves now, c.field? = some (unitPath u)) ↔ o.unit? = some u := by
  cases o with
  | bounds p columns =>
    have elsewhere : ¬ ∃ c ∈ (Origin.bounds p columns).leaves now,
        c.field? = some (unitPath u) := by
      rintro ⟨c, hc, hfield⟩
      obtain ⟨b, rfl⟩ := p.range_of_range? (Option.mem_toList.mp hc)
      refine unitPath_not_mem_dateColumns u ?_
      rw [← Option.some_inj.mp hfield]
      exact nearestColumn_mem columns
    simpa [unit?] using elsewhere
  | comparison w compare v =>
    rw [leaves, unit?]
    cases hunit : unitClause? w compare v with
    | none => simp [Clause.leavesOf]
    | some d =>
      obtain ⟨leaf, hleaf, hfield⟩ := leaves_of_unitClause? hunit
      simp [Clause.leavesOf_singleton, hleaf, hfield, unitPath_inj]
  | equality w n => simp [leaves, unit?, Clause.field?, unitPath_inj]

end Origin

/-- The clauses of a query constrain the units of its origins. -/
theorem DateQuery.constrains_iff {q : DateQuery} {now : Moment} {limit : Nat} {cs : List Clause}
    (h : q.clauses now limit = .ok cs) (u : DateUnit) :
    Constrains cs u ↔ ∃ o ∈ q.origins, o.unit? = some u := by
  have hdepth : q.depth ≤ limit := by
    refine Nat.le_of_not_lt fun hdeep => ?_
    rw [q.clauses_too_deep now hdeep] at h
    cases h
  obtain ⟨cs', hcs', hleaves⟩ := q.leavesOf_clauses now hdepth
  rw [h] at hcs'
  cases hcs'
  have hleaf (o : Origin) := o.exists_leaf_iff now u
  simp only [Constrains, hleaves, List.mem_flatMap, ← hleaf]
  grind

/-! ## Entries of units -/

/-- All members name units. -/
def OnlyUnits (ms : Members) : Prop :=
  ∀ m ∈ ms, (DateUnit.named? m.1).isSome = true

/-- The query of a list with one entry. -/
def DateQuery.ofEntry (ms : Members) : DateQuery :=
  .read (.array [.object ms])

theorem DateQuery.ofEntry_eq (ms : Members) :
    DateQuery.ofEntry ms = { items := (DateItem.read? (.object ms)).toList } := by
  rw [ofEntry, read, DateItem.readList, DateItem.readList, List.append_nil]

theorem mem_readUnits {ms : Members} {u : DateUnit} {n : Int64} : (u, n) ∈ readUnits ms ↔
    ∃ m ∈ ms, DateUnit.named? m.1 = some u ∧ m.2.asInt64? = some n := by
  simp only [readUnits, List.mem_filterMap]
  refine exists_congr fun m => and_congr_right fun _ => ?_
  cases DateUnit.named? m.1 <;> cases m.2.asInt64? <;> simp

namespace OnlyUnits

variable {ms front back : Members}

theorem find?_eq_none (h : OnlyUnits ms) (name : String) (hname : DateUnit.named? name = none) :
    Entries.find? name ms = none := by
  induction ms with
  | nil => rfl
  | cons m ms ih =>
    obtain ⟨hm, hms⟩ := List.forall_mem_cons.mp h
    have hne : m.1 ≠ name := by
      intro heq
      rw [heq, hname] at hm
      cases hm
    rw [Entries.find?, if_neg hne, ih hms]

/-! ### Without a bound -/

theorem readMembers_eq_nil (h : OnlyUnits ms) : DateItem.readMembers ms = [] := by
  induction ms with
  | nil => rfl
  | cons m ms ih =>
    obtain ⟨hm, hms⟩ := List.forall_mem_cons.mp h
    rw [DateItem.readMembers, if_pos hm, ih hms]

/-- Units alone are a group without items. -/
theorem exists_group (h : OnlyUnits ms) : ∃ relation column,
    DateItem.read? (.object ms) = DateItem.group? relation column (readUnits ms) [] := by
  have hplain : isDatePredicate ms = false := by
    simp [isDatePredicate, h.find?_eq_none "after" rfl, h.find?_eq_none "before" rfl,
      h.find?_eq_none "compare" rfl]
  refine ⟨readRelation ms, (Entries.find? "column" ms).bind Value.string?, ?_⟩
  rw [DateItem.read?, hplain, if_neg Bool.false_ne_true, h.readMembers_eq_nil]

theorem depth_ofEntry_le (h : OnlyUnits ms) : (DateQuery.ofEntry ms).depth ≤ 1 := by
  obtain ⟨relation, column, hread⟩ := h.exists_group
  rw [DateQuery.ofEntry_eq, hread, DateItem.group?]
  split <;> simp [DateQuery.depth, DateItem.depthOf, DateItem.depth]

theorem origins_ofEntry (h : OnlyUnits ms) :
    (DateQuery.ofEntry ms).origins = (readUnits ms).map fun (u, n) => .equality u n := by
  obtain ⟨relation, column, hread⟩ := h.exists_group
  rw [DateQuery.ofEntry_eq, hread, DateItem.group?]
  cases readUnits ms <;> simp [DateQuery.origins, DateItem.originsOf, DateItem.origins]

/-- Without a bound the units are constrained that have a number. -/
theorem constrains_ofEntry_iff (h : OnlyUnits ms) {now : Moment} {limit : Nat} {cs : List Clause}
    (hcs : (DateQuery.ofEntry ms).clauses now limit = .ok cs) (u : DateUnit) :
    Constrains cs u ↔
      ∃ m ∈ ms, DateUnit.named? m.1 = some u ∧ m.2.asInt64?.isSome = true := by
  rw [DateQuery.constrains_iff hcs, h.origins_ofEntry]
  constructor
  · rintro ⟨o, ho, hu⟩
    obtain ⟨⟨w, n⟩, hread, rfl⟩ := List.mem_map.mp ho
    cases hu
    obtain ⟨m, hm, hnamed, hn⟩ := mem_readUnits.mp hread
    exact ⟨m, hm, hnamed, Option.isSome_of_eq_some hn⟩
  · rintro ⟨m, hm, hnamed, hn⟩
    obtain ⟨n, hn⟩ := Option.isSome_iff_exists.mp hn
    have hread := mem_readUnits.mpr ⟨m, hm, hnamed, hn⟩
    exact ⟨_, List.mem_map.mpr ⟨_, hread, rfl⟩, rfl⟩

/-! ### With a bound -/

/-- A bound is no unit, so the units are those of the other members. -/
theorem exists_predicate (h : OnlyUnits (front ++ back)) (bound : Value) :
    ∃ p : DatePredicate, DateItem.read? (.object (front ++ ("after", bound) :: back)) =
        some (.predicate p) ∧ p.compare = none ∧
      ∀ u v, (u, v) ∈ p.units ↔ ∃ m ∈ front ++ back, DateUnit.named? m.1 = some u ∧ m.2 = v := by
  have hfound : isDatePredicate (front ++ ("after", bound) :: back) = true := by
    simp [isDatePredicate, Entries.find?_append, Entries.find?]
  have hcompare : Entries.find? "compare" (front ++ ("after", bound) :: back) = none := by
    rw [← h.find?_eq_none "compare" rfl]
    simp [Entries.find?_append, Entries.find?]
  refine ⟨.read (front ++ ("after", bound) :: back), ?_, ?_, ?_⟩
  · rw [DateItem.read?, hfound, if_pos rfl]
  · rw [DatePredicate.read, hcompare]
    rfl
  · intro u v
    simp only [DatePredicate.read, List.mem_filterMap]
    constructor
    · rintro ⟨m, hm, hread⟩
      obtain ⟨w, hnamed, hpair⟩ := Option.map_eq_some_iff.mp hread
      cases hpair
      rcases List.mem_append.mp hm with hm | hm
      · exact ⟨m, List.mem_append_left _ hm, hnamed, rfl⟩
      · rcases List.mem_cons.mp hm with rfl | hm
        · cases hnamed
        · exact ⟨m, List.mem_append_right _ hm, hnamed, rfl⟩
    · rintro ⟨m, hm, hnamed, rfl⟩
      refine ⟨m, ?_, Option.map_eq_some_iff.mpr ⟨u, hnamed, rfl⟩⟩
      exact List.mem_append.mpr ((List.mem_append.mp hm).imp_right (List.mem_cons_of_mem _))

/-- Without a comparator only null constrains nothing. -/
theorem unitClause?_isSome_iff (u : DateUnit) (v : Value) :
    (unitClause? u none v).isSome = true ↔ v ≠ .null := by
  cases v <;> simp [unitClause?, Value.isArray]

/-- With a bound the units are constrained that have a value. -/
theorem constrains_ofEntry_after_iff (h : OnlyUnits (front ++ back)) (bound : Value) (now : Moment)
    (limit : Nat) :
    ∃ cs, (DateQuery.ofEntry (front ++ ("after", bound) :: back)).clauses now limit = .ok cs ∧
      ∀ u, Constrains cs u ↔
        ∃ m ∈ front ++ back, DateUnit.named? m.1 = some u ∧ m.2 ≠ .null := by
  obtain ⟨p, hread, hcompare, hunits⟩ := h.exists_predicate bound
  have hdepth : (DateQuery.ofEntry (front ++ ("after", bound) :: back)).depth ≤ limit := by
    simp [DateQuery.ofEntry_eq, hread, DateQuery.depth, DateItem.depthOf, DateItem.depth]
  obtain ⟨cs, hcs, -⟩ := DateQuery.leavesOf_clauses _ now hdepth
  refine ⟨cs, hcs, fun u => ?_⟩
  have horigins : (DateQuery.ofEntry (front ++ ("after", bound) :: back)).origins =
      (DateItem.predicate p).origins [] := by
    simp [DateQuery.ofEntry_eq, hread, DateQuery.origins, DateItem.originsOf]
  rw [DateQuery.constrains_iff hcs, horigins, DateItem.origins, hcompare]
  constructor
  · rintro ⟨o, ho, hu⟩
    rcases List.mem_cons.mp ho with rfl | ho
    · cases hu
    · obtain ⟨⟨w, v⟩, hread, rfl⟩ := List.mem_map.mp ho
      obtain ⟨m, hm, hnamed, rfl⟩ := (hunits w v).mp hread
      obtain ⟨c, hc, hu⟩ := Option.map_eq_some_iff.mp hu
      cases hu
      exact ⟨m, hm, hnamed, (unitClause?_isSome_iff _ _).mp (Option.isSome_of_eq_some hc)⟩
  · rintro ⟨m, hm, hnamed, hvalue⟩
    obtain ⟨c, hc⟩ := Option.isSome_iff_exists.mp ((unitClause?_isSome_iff u m.2).mpr hvalue)
    have hunit := (hunits u m.2).mpr ⟨m, hm, hnamed, rfl⟩
    refine ⟨_, List.mem_cons_of_mem _ (List.mem_map.mpr ⟨_, hunit, rfl⟩), ?_⟩
    rw [Origin.unit?, hc]
    rfl

end OnlyUnits

/-- An entry of units in its two forms. Without a bound the units are constrained that have a
number, and with one those that have a value other than null. So the bound takes no unit away, and
it brings none in exactly if each unit that has such a value also has a number. -/
theorem constrained_units (front back : Members) (bound : Value) (now : Moment) (limit : Nat)
    (h : OnlyUnits (front ++ back)) :
    ∃ bounded,
      (DateQuery.ofEntry (front ++ ("after", bound) :: back)).clauses now limit = .ok bounded ∧
      (∀ u, Constrains bounded u ↔
        ∃ m ∈ front ++ back, DateUnit.named? m.1 = some u ∧ m.2 ≠ .null) ∧
      (1 ≤ limit → ∃ plain, (DateQuery.ofEntry (front ++ back)).clauses now limit = .ok plain) ∧
      ∀ plain, (DateQuery.ofEntry (front ++ back)).clauses now limit = .ok plain →
        (∀ u, Constrains plain u ↔
          ∃ m ∈ front ++ back, DateUnit.named? m.1 = some u ∧ m.2.asInt64?.isSome = true) ∧
        (∀ u, Constrains plain u → Constrains bounded u) ∧
        ((∀ u, Constrains plain u ↔ Constrains bounded u) ↔
          ∀ m ∈ front ++ back, m.2 ≠ .null →
            ∃ m' ∈ front ++ back, DateUnit.named? m'.1 = DateUnit.named? m.1 ∧
              m'.2.asInt64?.isSome = true) := by
  obtain ⟨bounded, hbounded, hvalues⟩ := h.constrains_ofEntry_after_iff bound now limit
  refine ⟨bounded, hbounded, hvalues, fun hlimit => ?_, fun plain hplain => ?_⟩
  · obtain ⟨plain, hplain, -⟩ :=
      DateQuery.leavesOf_clauses _ now (Nat.le_trans h.depth_ofEntry_le hlimit)
    exact ⟨plain, hplain⟩
  have hnumbers := h.constrains_ofEntry_iff hplain
  have hkept (u : DateUnit) (hu : Constrains plain u) : Constrains bounded u := by
    obtain ⟨m, hm, hnamed, hn⟩ := (hnumbers u).mp hu
    refine (hvalues u).mpr ⟨m, hm, hnamed, fun hnull => ?_⟩
    rw [hnull] at hn
    cases hn
  refine ⟨hnumbers, hkept, fun hsame m hm hvalue => ?_, fun hsame u => ⟨hkept u, fun hu => ?_⟩⟩
  · obtain ⟨u, hnamed⟩ := Option.isSome_iff_exists.mp (h m hm)
    rw [hnamed]
    exact (hnumbers u).mp ((hsame u).mpr ((hvalues u).mpr ⟨m, hm, hnamed, hvalue⟩))
  · obtain ⟨m, hm, hnamed, hvalue⟩ := (hvalues u).mp hu
    obtain ⟨m', hm', hnamed', hn⟩ := hsame m hm hvalue
    exact (hnumbers u).mpr ⟨m', hm', hnamed'.trans hnamed, hn⟩

/-- A number, a text that writes one, and null: a bound changes nothing. -/
theorem constrained_units_numbers :
    let front : Members := [("day", .null), ("month", .string " 3 ")]
    let back : Members := [("year", .ofInt64 2024)]
    OnlyUnits (front ++ back) ∧
      ∃ plain bounded,
        (DateQuery.ofEntry (front ++ back)).clauses .epoch 1 = .ok plain ∧
        (DateQuery.ofEntry (front ++ ("after", .string "yesterday") :: back)).clauses .epoch 1 =
          .ok bounded ∧
        ∀ u, Constrains plain u ↔ Constrains bounded u := by
  intro front back
  have h : OnlyUnits (front ++ back) := by simp [OnlyUnits, front, back, DateUnit.named?]
  obtain ⟨bounded, hbounded, -, hplain, hsame⟩ :=
    constrained_units front back (.string "yesterday") .epoch 1 h
  obtain ⟨plain, hplain⟩ := hplain (Nat.le_refl 1)
  refine ⟨h, plain, bounded, hplain, hbounded, (hsame plain hplain).2.2.mpr ?_⟩
  intro m hm hvalue
  refine ⟨m, hm, rfl, ?_⟩
  simp only [front, back, List.cons_append, List.nil_append, List.mem_cons, List.not_mem_nil,
    or_false] at hm
  rcases hm with rfl | rfl | rfl
  · exact absurd rfl hvalue
  · decide +kernel
  · decide +kernel

/-- Two years in a list are no number, so only the bound brings their constraint in. -/
theorem constrained_units_list :
    let years : Members := [("year", .array [.ofInt64 2023, .ofInt64 2024])]
    let bound : Value := .string "2024-01-01"
    ∃ bounded, (DateQuery.ofEntry years).clauses .epoch 5 = .ok [] ∧
      (DateQuery.ofEntry (("after", bound) :: years)).clauses .epoch 5 = .ok bounded ∧
      bounded = [.range "post_date" { above := some (.string "2024-01-01 00:00:00") },
        .terms "date_terms.year" [.ofInt64 2023, .ofInt64 2024]] ∧
      ¬ ∀ u, Constrains [] u ↔ Constrains bounded u := by
  intro years bound
  refine ⟨_, rfl, ?_, rfl, ?_⟩
  · rfl
  · intro hsame
    obtain ⟨c, hc, -⟩ := (hsame .year).mpr ⟨_, List.mem_cons_of_mem _ List.mem_cons_self, rfl⟩
    cases hc

end ContentIndex.Query
