import ContentIndex.Progress.State
import ContentIndex.Proofs.Calendar.Timestamp
import ContentIndex.Proofs.Json.ReadBack
import ContentIndex.Proofs.Json.Records

/-
  State records are read back as they were written (`decode_render`): each member is, its moment by
  its timestamp, and the name of a phase is found again among the members.
-/

namespace ContentIndex

open Calendar (Moment)
open Json (Reader ReadsAs Tree Value read_ofUInt64)

/-! ## Members -/

theorem read_strings (l : List String) :
    Reader.list Reader.string (Tree.ofValue (.strings l)) = .ok l :=
  (ReadsAs.list fun s _ => .string s).written

theorem read_ofOption_string (s : Option String) :
    Reader.nullable Reader.string (Tree.ofValue (.ofOption .string s)) = .ok s := by
  cases s <;> rfl

theorem read_runId (r : RunId) : RunId.read (Tree.ofValue r.toJson) = .ok r := by
  simp [RunId.read, RunId.toJson, Tree.ofValue, Reader.string, Reader.ofOption, bind, Except.bind,
    RunId.read?_text]

theorem readMoment_timestamp (t : Moment) :
    Cursor.readMoment (Tree.ofValue (.string t.timestampText)) = .ok t := by
  change Reader.ofOption (Moment.readTimestamp? t.timestampText) = .ok t
  rw [Moment.readTimestamp?_timestampText]
  rfl

theorem integralItems_strings (l : List String) :
    Value.IntegralItems (l.map Value.string) := by
  induction l with
  | nil => trivial
  | cons s l ih => exact ⟨trivial, ih⟩

theorem integral_ofOption_string (s : Option String) :
    (Value.ofOption Value.string s).Integral := by
  cases s <;> trivial

theorem toValues?_strings (d : Nat) (l : List String) :
    (Tree.toValues? d (Tree.ofValues (l.map Value.string))).isSome = true := by
  induction l with
  | nil => rfl
  | cons s l ih =>
    obtain ⟨vs, h⟩ := Option.isSome_iff_exists.mp ih
    simp [Tree.ofValues, Tree.ofValue, Tree.toValues?, Tree.toValue?, h]

/-! ## Cursors -/

namespace Cursor

theorem integral_members (c : Cursor) : Value.IntegralMembers c.members :=
  ⟨trivial, trivial, trivial, trivial, integralItems_strings c.scopes,
    integral_ofOption_string c.scope, trivial, trivial, trivial⟩

theorem read_members (c : Cursor) : read (.object (Tree.ofMembers c.members)) = .ok c := by
  simp [read, Reader.record, members, Tree.ofMembers, Json.Field.readMember, fields,
    Json.Field.named, Json.Field.of, Json.Field.optional, Reader.ofOption, read_ofUInt64,
    read_strings, read_ofOption_string, read_runId, readMoment_timestamp, bind, Except.bind,
    Except.map, pure, Except.pure]

end Cursor

/-! ## Phases -/

namespace Phase

theorem integral_toJson (p : Phase) : p.toJson.Integral := by
  cases p with
  | notStarted => exact ⟨trivial, trivial⟩
  | running c => exact ⟨trivial, c.integral_members⟩
  | completed t n => exact ⟨trivial, trivial, trivial, trivial⟩

/-- A written phase is a value, so it is not refused for its depth. -/
theorem toValue?_toJson (p : Phase) :
    ((Tree.ofValue p.toJson).toValue? depthLimit).isNone = false := by
  cases p with
  | notStarted => rfl
  | completed t n => rfl
  | running c =>
    obtain ⟨vs, h⟩ := Option.isSome_iff_exists.mp (toValues?_strings 124 c.scopes)
    obtain ⟨v, hv⟩ : ∃ v, (Tree.ofValue (.ofOption .string c.scope)).toValue? 125 = some v := by
      cases c.scope <;> exact ⟨_, rfl⟩
    simp [toJson, Tree.ofValue, Cursor.members, Tree.ofMembers, Tree.toValue?, Tree.toMembers?,
      depthLimit, Json.depthLimit, Value.ofUInt64, Value.strings, h, hv, RunId.toJson]

/-- The name of a phase is taken from among its members. -/
theorem read_named (name : String) (ms : Json.Members)
    (hd : ((Tree.ofValue (.object (("status", .string name) :: ms))).toValue?
      depthLimit).isNone = false)
    (hms : ∀ m ∈ ms, m.1 ≠ "status") :
    read (Tree.ofValue (.object (("status", .string name) :: ms))) =
      ofName name (.object (Tree.ofMembers ms)) := by
  have others : (Tree.ofMembers ms).filter (·.1 == some "status") = [] ∧
      (Tree.ofMembers ms).filter (·.1 != some "status") = Tree.ofMembers ms := by
    clear hd
    induction ms with
    | nil => exact ⟨rfl, rfl⟩
    | cons m ms ih =>
      obtain ⟨k, v⟩ := m
      obtain ⟨h₁, h₂⟩ := ih fun m hm => hms m (List.mem_cons_of_mem _ hm)
      have hk : k ≠ "status" := hms (k, v) List.mem_cons_self
      simp [Tree.ofMembers, hk, h₁, h₂]
  simp only [Tree.ofValue, Tree.ofMembers] at hd ⊢
  rw [read, hd]
  simp [others.1, others.2, Reader.string, Reader.ofOption, bind, Except.bind]

theorem readCompleted_members (t : Moment) (n : UInt64) :
    readCompleted (.object (Tree.ofMembers
      [("at", .string t.timestampText), ("synced", .ofUInt64 n)])) = .ok (t, n) := by
  simp [readCompleted, Reader.record, Tree.ofMembers, Json.Field.readMember, Json.Field.named,
    Json.Field.of, Reader.ofOption, read_ofUInt64, readMoment_timestamp, bind, Except.bind,
    Except.map, pure, Except.pure]

/-- A written phase is read back. -/
theorem read_toJson (p : Phase) : read (Tree.ofValue p.toJson) = .ok p := by
  have hd := p.toValue?_toJson
  cases p with
  | notStarted =>
    rw [toJson, read_named _ _ hd (by simp)]
    rfl
  | running c =>
    rw [toJson, read_named _ _ hd (by simp [Cursor.members])]
    simp only [name, ofName, c.read_members]
    rfl
  | completed t n =>
    rw [toJson, read_named _ _ hd (by simp)]
    simp only [name, ofName, readCompleted_members]
    rfl

end Phase

/-! ## State records -/

namespace IndexState

theorem read_toJson (s : IndexState) : read (Tree.ofValue s.toJson) = .ok s := by
  simp [read, toJson, Reader.record, Tree.ofValue, Tree.ofMembers, Json.Field.readMember,
    Json.Field.named, Json.Field.of, Reader.ofOption, Reader.bool, Phase.read_toJson, bind,
    Except.bind, Except.map, pure, Except.pure]

/-- A written record is read back. -/
theorem decode_render (s : IndexState) : StoreAction.decode read s.toJson.render = .ok s := by
  have hv : s.toJson.Integral := ⟨s.phase.integral_toJson, trivial, trivial⟩
  rw [StoreAction.decode, Tree.ofText?_render _ hv]
  simp only [s.read_toJson]
  rfl

end IndexState
end ContentIndex
