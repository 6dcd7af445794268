import ContentIndex.Json.Record
import Mathlib.Data.List.Pairwise
import Mathlib.Data.List.Perm.Basic

/-
  Reading what was written, part by part. A reader `ReadsAs` a value what it was written for, and
  does so in whatever order the members stand: as they were written, or sorted by their names, as
  they are in every value that went through a map of members. There is one law for each way to
  build a reader. For records a `Slot` is a field with the value that it is written with and with
  what reading this value does to the record; if no two fields get in each other's way, a record
  is read from any order of its members as from that of its fields (`readsAs_record`).
-/

namespace ContentIndex

/-! ## Sorting -/

namespace Entries

variable {α : Type}

theorem insert_perm {name : String} (v : α) {es : Entries α} (h : name ∉ es.map (·.1)) :
    (insert name v es).Perm ((name, v) :: es) := by
  induction es with
  | nil => exact .refl _
  | cons e es ih =>
    obtain ⟨k, w⟩ := e
    rw [List.map_cons, List.mem_cons, not_or] at h
    simp only [insert]
    split
    · exact .refl _
    · rw [if_neg (Ne.symm h.1)]
      exact ((ih h.2).cons _).trans (.swap _ _ _)

/-- Sorting keeps the entries if no two have one name. -/
theorem sort_perm {es : Entries α} (h : (es.map (·.1)).Nodup) : (sort es).Perm es := by
  have main : ∀ es acc : Entries α, ((acc ++ es).map (·.1)).Nodup →
      (es.foldl (fun acc e => insert e.1 e.2 acc) acc).Perm (acc ++ es) := by
    intro es
    induction es with
    | nil =>
      intro acc _
      rw [List.append_nil]
      exact .refl acc
    | cons e es ih =>
      intro acc hn
      have moved : (acc ++ e :: es).Perm (e :: (acc ++ es)) := List.perm_middle
      have apart := (moved.map (·.1)).nodup_iff.mp hn
      have fresh : e.1 ∉ acc.map (·.1) := by
        have := (List.nodup_cons.mp apart).1
        rw [List.map_append, List.mem_append, not_or] at this
        exact this.1
      have step := (insert_perm e.2 fresh).append_right es
      exact (ih _ ((step.map (·.1)).nodup_iff.mpr apart)).trans (step.trans moved.symm)
  exact main es [] h

end Entries

namespace Json

open ContentIndex.Number

/-! ## Parts of a value -/

theorem Tree.ofValues_eq_map (vs : List Value) : Tree.ofValues vs = vs.map Tree.ofValue := by
  induction vs with
  | nil => rfl
  | cons v vs ih => rw [Tree.ofValues, ih, List.map_cons]

theorem Tree.ofMembers_eq_map (ms : Members) :
    Tree.ofMembers ms = ms.map fun m => (some m.1, Tree.ofValue m.2) := by
  induction ms with
  | nil => rfl
  | cons m ms ih => rw [Tree.ofMembers, ih, List.map_cons]

theorem Value.canonicalItems_eq_map (vs : List Value) :
    Value.canonicalItems vs = vs.map Value.canonical := by
  induction vs with
  | nil => rfl
  | cons v vs ih => rw [Value.canonicalItems, ih, List.map_cons]

theorem Value.canonicalMembers_eq_map (ms : Members) :
    Value.canonicalMembers ms = ms.map fun m => (m.1, m.2.canonical) := by
  induction ms with
  | nil => rfl
  | cons m ms ih => rw [Value.canonicalMembers, ih, List.map_cons]

variable {α β : Type}

/-! ## Values and lists -/

theorem read_ofUInt64 (n : UInt64) : Reader.uint64 (Tree.ofValue (.ofUInt64 n)) = .ok n := by
  simp [Reader.uint64, Reader.int, Reader.number, Reader.ofOption, Value.ofUInt64, Tree.ofValue,
    Number.ofUInt64, bind, Except.bind]

/-- A reader reads a value as what it was written for, with the members of its objects as they were
written and with all of them sorted. -/
structure ReadsAs (r : Reader α) (v : Value) (x : α) : Prop where
  written : r (Tree.ofValue v) = .ok x
  sorted : r (Tree.ofValue v.canonical) = .ok x

namespace ReadsAs

theorem string (s : String) : ReadsAs Reader.string (.string s) s := ⟨rfl, rfl⟩

theorem bool (b : Bool) : ReadsAs Reader.bool (.bool b) b := ⟨rfl, rfl⟩

/-- A number has no members. -/
theorem number {r : Reader α} {n : Number} {x : α} (h : r (.number (some n)) = .ok x) :
    ReadsAs r (.number n) x := ⟨h, h⟩

theorem uint64 (n : UInt64) : ReadsAs Reader.uint64 (.ofUInt64 n) n :=
  number (read_ofUInt64 n)

theorem int64 (n : Int64) : ReadsAs Reader.int64 (.ofInt64 n) n := by
  have within : int64OfInt? n.toInt = some n := by
    rw [int64OfInt?, if_pos ⟨n.le_toInt, n.toInt_lt⟩, Int64.ofInt_toInt]
  refine number ?_
  simp only [Reader.int64, Reader.int, Reader.number, Reader.ofOption, Number.ofInt64, bind,
    Except.bind, within]

/-- An integer in the range of JSON numbers is written as it is. -/
theorem int {i : Int} (h : -2 ^ 63 ≤ i ∧ i < 2 ^ 64) : ReadsAs Reader.int (.ofInt i) i := by
  have written : Value.ofInt i = .number (.integer i h) := by
    rw [Value.ofInt, Number.ofInt?, dif_pos h]
  rw [written]
  exact number rfl

theorem uint32 (n : UInt32) : ReadsAs Reader.uint32 (.ofNat n.toNat) n := by
  have small := n.toNat_lt
  have of_int {t : Tree} (h : Reader.int t = .ok (n.toNat : Int)) : Reader.uint32 t = .ok n := by
    simp only [Reader.uint32, h, bind, Except.bind]
    rw [if_pos (by omega), Int.toNat_natCast, UInt32.ofNat_toNat]
  have whole := int (i := n.toNat) (by omega)
  exact ⟨of_int whole.written, of_int whole.sorted⟩

theorem int32 (n : Int32) : ReadsAs Reader.int32 (.ofInt n.toInt) n := by
  have low := n.le_toInt
  have high := n.toInt_lt
  have of_int {t : Tree} (h : Reader.int t = .ok n.toInt) : Reader.int32 t = .ok n := by
    simp only [Reader.int32, h, bind, Except.bind]
    rw [if_pos ⟨low, high⟩, Int32.ofInt_toInt]
  have whole := int (i := n.toInt) (by omega)
  exact ⟨of_int whole.written, of_int whole.sorted⟩

/-- A finite real number is written as it is. -/
theorem double {x : Double} (h : x.isFinite = true) : ReadsAs Reader.double (.ofDouble x) x := by
  have written : Value.ofDouble x = .number (.real x h) := by
    simp only [Value.ofDouble, Number.ofDouble?, dif_pos h]
  rw [written]
  exact number rfl

/-- A reader that refuses null still reads all that it has read when null is allowed. -/
theorem nullable {r : Reader α} {v : Value} {x : α} (h0 : r .null = .error .mismatch)
    (h : ReadsAs r v x) : ReadsAs (Reader.nullable r) v (some x) := by
  have some_of {t : Tree} (hr : r t = .ok x) : Reader.nullable r t = .ok (some x) := by
    cases t with
    | null =>
      rw [h0] at hr
      cases hr
    | _ => exact congrArg (Except.map some) hr
  exact ⟨some_of h.written, some_of h.sorted⟩

/-- A list is read item by item. -/
theorem list {r : Reader α} {f : α → Value} {l : List α} (h : ∀ x ∈ l, ReadsAs r (f x) x) :
    ReadsAs (Reader.list r) (.array (l.map f)) l := by
  have items {g : α → Tree} (hg : ∀ x ∈ l, r (g x) = .ok x) : (l.map g).mapM r = .ok l := by
    clear h
    induction l with
    | nil => rfl
    | cons x l ih =>
      rw [List.map_cons, List.mapM_cons, hg x List.mem_cons_self,
        ih fun y hy => hg y (List.mem_cons_of_mem x hy)]
      rfl
  constructor
  · show (Tree.ofValues (l.map f)).mapM r = .ok l
    rw [Tree.ofValues_eq_map, List.map_map]
    exact items fun x hx => (h x hx).written
  · show (Tree.ofValues (Value.canonicalItems (l.map f))).mapM r = .ok l
    rw [Tree.ofValues_eq_map, Value.canonicalItems_eq_map, List.map_map, List.map_map]
    exact items fun x hx => (h x hx).sorted

/-- A map is read entry by entry; its entries stand in order already. -/
theorem members {r : Reader α} {f : α → Value} {m : SortedMap α}
    (h : ∀ e ∈ m.entries, ReadsAs r (f e.2) e.2) :
    ReadsAs (Reader.members r) (.object (m.entries.map fun e => (e.1, f e.2))) m.entries := by
  have entries {g : α → Tree} {es : Entries α} (hg : ∀ e ∈ es, r (g e.2) = .ok e.2) :
      Reader.members r (.object (es.map fun e => (some e.1, g e.2))) = .ok es := by
    unfold Reader.members
    induction es with
    | nil => rfl
    | cons e es ih =>
      simp only at ih ⊢
      rw [List.map_cons, List.mapM_cons, hg e List.mem_cons_self,
        ih fun y hy => hg y (List.mem_cons_of_mem e hy)]
      rfl
  constructor
  · show Reader.members r (.object (Tree.ofMembers _)) = .ok m.entries
    rw [Tree.ofMembers_eq_map, List.map_map]
    exact entries (g := fun x => Tree.ofValue (f x)) fun e he => (h e he).written
  · have sorted : Entries.Sorted (m.entries.map fun e => (e.1, (f e.2).canonical)) :=
      List.pairwise_map.mpr m.sorted
    show Reader.members r (.object (Tree.ofMembers (Entries.sort (Value.canonicalMembers _)))) = _
    rw [Value.canonicalMembers_eq_map, List.map_map, Tree.ofMembers_eq_map]
    change Reader.members r (.object ((Entries.sort (m.entries.map fun e =>
      (e.1, (f e.2).canonical))).map _)) = _
    rw [Entries.sort_eq_self sorted, List.map_map]
    exact entries (g := fun x => Tree.ofValue (f x).canonical) fun e he => (h e he).sorted

end ReadsAs

/-! ## Records -/

/-- A field of a record, the value that it is written with, if it is written, and what reading this
value does to the record. -/
structure Slot (α : Type) where
  field : Field α
  value? : Option Value
  copy : α → α

namespace Slot

variable {slots : List (Slot α)} {fields : List (Field α)}

/-- Reading the value copies; what is not written may be missing, and there is nothing to copy. -/
structure Sound (s : Slot α) : Prop where
  present : ∀ v, s.value? = some v → ∀ a, ReadsAs (fun t => s.field.read t a) v (s.copy a)
  absent : s.value? = none → s.field.required = false ∧ s.copy = id

/-- The fields of a table, each with what is written of it and with what reading that copies. -/
def table (fields : List (Field α)) (cells : List (Option Value × (α → α))) : List (Slot α) :=
  fields.zipWith (fun f c => ⟨f, c.1, c.2⟩) cells

/-- A field that sets a part to what its reader reads. -/
theorem Sound.of {name : String} {r : Reader β} {set : β → α → α} {v : Value} {x : β}
    (h : ReadsAs r v x) : Sound ⟨Field.of name r set, some v, set x⟩ where
  present w hw a := by
    cases hw
    exact ⟨congrArg (Except.map (set · a)) h.written, congrArg (Except.map (set · a)) h.sorted⟩
  absent h := nomatch h

theorem Sound.optional {f : Field α} {v : Value} {copy : α → α}
    (h : Sound ⟨f, some v, copy⟩) : Sound ⟨f.optional, some v, copy⟩ :=
  ⟨h.present, nofun⟩

theorem Sound.spelled {f : Field α} {other : String} {v : Value} {copy : α → α}
    (h : Sound ⟨f, some v, copy⟩) : Sound ⟨f.spelled other, some v, copy⟩ :=
  ⟨h.present, nofun⟩

/-- A field that is written if there is something to write, and that keeps its part otherwise. -/
theorem Sound.nullable {name : String} {r : Reader β} {set : Option β → α → α}
    {get : α → Option β} {g : β → Value} {o : Option β} (h0 : r .null = .error .mismatch)
    (h : ∀ x ∈ o, ReadsAs r (g x) x) (keeps : ∀ a, set (get a) a = a) :
    Sound ⟨(Field.of name (.nullable r) set).optional, o.map g, fun a => set (o.or (get a)) a⟩ := by
  cases o with
  | none => exact ⟨nofun, fun _ => ⟨rfl, funext keeps⟩⟩
  | some x => exact (Sound.of ((h x rfl).nullable h0)).optional

/-- The member of a field, if it is written. -/
def member? (s : Slot α) : Option (String × Value) :=
  s.value?.map fun v => (s.field.name, v)

/-- The members of a record, in the order of its fields. -/
def members (slots : List (Slot α)) : Members := slots.filterMap member?

@[simp] theorem members_nil : members ([] : List (Slot α)) = [] := rfl

theorem members_cons (s : Slot α) (slots : List (Slot α)) :
    members (s :: slots) = s.member?.toList ++ members slots := by
  rw [members, List.filterMap_cons]
  cases s.member? <;> rfl

/-- No field goes by the name of another one. -/
def Apart (fields : List (Field α)) : Prop :=
  (fields.map fun f => (f.name, f.otherName)).Pairwise fun f g =>
    f.1 ≠ g.1 ∧ f.2 ≠ some g.1 ∧ g.2 ≠ some f.1

instance (fields : List (Field α)) : Decidable (Apart fields) :=
  inferInstanceAs (Decidable (List.Pairwise _ _))

/-- A field is found by its name. -/
theorem find?_name (h : Apart fields) {f : Field α} (hf : f ∈ fields) :
    fields.find? (·.named f.name) = some f := by
  unfold Apart at h
  induction fields with
  | nil => cases hf
  | cons g fields ih =>
    rw [List.map_cons, List.pairwise_cons] at h
    rcases List.mem_cons.mp hf with rfl | hf
    · exact List.find?_cons_of_pos (by simp [Field.named])
    · obtain ⟨hne, hother, -⟩ := h.1 (f.name, f.otherName) (List.mem_map.mpr ⟨f, hf, rfl⟩)
      rw [List.find?_cons_of_neg (by simpa [Field.named] using ⟨hne, hother⟩)]
      exact ih h.2 hf

theorem nodup_names (h : Apart fields) : (fields.map (·.name)).Nodup := by
  have names := List.pairwise_map.mp h
  exact List.pairwise_map.mpr (names.imp fun hfg => hfg.1)

/-- The slots that are written. -/
def written (slots : List (Slot α)) : List (Slot α) := slots.filter (·.value?.isSome)

theorem members_eq_map (slots : List (Slot α)) :
    members slots = (written slots).map fun s => (s.field.name, s.value?.getD .null) := by
  induction slots with
  | nil => rfl
  | cons s slots ih =>
    unfold members written at ih ⊢
    rw [List.filterMap_cons, List.filter_cons, member?]
    cases hv : s.value? with
    | none => exact ih
    | some v =>
      simp only [Option.map_some, Option.isSome_some, if_true, List.map_cons, hv, ih]
      rfl

/-- The members of some slots are read one after another. -/
theorem foldlM_readMember (h : Apart fields) (tree : Slot α → Tree) {l : List (Slot α)}
    (seen : List String) (a : α) (hf : ∀ s ∈ l, s.field ∈ fields)
    (hr : ∀ s ∈ l, ∀ a, s.field.read (tree s) a = .ok (s.copy a))
    (hn : (l.map (·.field.name)).Nodup) (hs : ∀ s ∈ l, s.field.name ∉ seen) :
    (l.map fun s => (some s.field.name, tree s)).foldlM
        (fun s m => Field.readMember fields m.1 m.2 s) (seen, a) =
      .ok ((l.map (·.field.name)).reverse ++ seen, l.foldl (fun a s => s.copy a) a) := by
  induction l generalizing seen a with
  | nil => rfl
  | cons s l ih =>
    rw [List.map_cons, List.nodup_cons] at hn
    have first : Field.readMember fields (some s.field.name) (tree s) (seen, a) =
        .ok (s.field.name :: seen, s.copy a) := by
      have fresh : seen.contains s.field.name = false := by
        simpa using hs s List.mem_cons_self
      simp only [Field.readMember, Reader.ofOption, bind, Except.bind,
        find?_name h (hf s List.mem_cons_self), fresh, hr s List.mem_cons_self a,
        Bool.false_eq_true, if_false]
    rw [List.map_cons, List.foldlM_cons, first]
    have unseen : ∀ u ∈ l, u.field.name ∉ s.field.name :: seen := by
      intro u hu hm
      rcases List.mem_cons.mp hm with same | old
      · exact hn.1 (same ▸ List.mem_map_of_mem hu)
      · exact hs u (List.mem_cons_of_mem s hu) old
    have rest := ih (s.field.name :: seen) (s.copy a)
      (fun u hu => hf u (List.mem_cons_of_mem s hu))
      (fun u hu => hr u (List.mem_cons_of_mem s hu)) hn.2 unseen
    rw [List.map_cons, List.reverse_cons, List.append_assoc]
    exact rest

theorem nodup_written (hf : slots.map (·.field) = fields) (h : Apart fields) :
    ((written slots).map (·.field.name)).Nodup := by
  have names := nodup_names h
  rw [← hf, List.map_map] at names
  exact names.sublist (List.filter_sublist.map _)

/-- There is nothing to copy for the fields that are not written. -/
theorem foldl_copy_written (sound : ∀ s ∈ slots, s.Sound) (a : α) :
    (written slots).foldl (fun a s => s.copy a) a = slots.foldl (fun a s => s.copy a) a := by
  induction slots generalizing a with
  | nil => rfl
  | cons s slots ih =>
    have rest := ih fun u hu => sound u (List.mem_cons_of_mem s hu)
    unfold written at rest ⊢
    rw [List.filter_cons]
    cases hv : s.value? with
    | some v => exact rest (s.copy a)
    | none =>
      have nothing : s.copy a = a := congrFun ((sound s List.mem_cons_self).absent hv).2 a
      rw [List.foldl_cons, nothing]
      exact rest a

/-- The fields do not get in each other's way. -/
def Independent (slots : List (Slot α)) : Prop :=
  slots.Pairwise fun s t => ∀ a, s.copy (t.copy a) = t.copy (s.copy a)

/-- The order of the written fields does not matter. -/
theorem foldl_copy_perm (h : Independent slots) (sound : ∀ s ∈ slots, s.Sound)
    {l : List (Slot α)} (hl : l.Perm (written slots)) (a : α) :
    l.foldl (fun a s => s.copy a) a = slots.foldl (fun a s => s.copy a) a := by
  have symm : Std.Symm fun s t : Slot α => ∀ a, s.copy (t.copy a) = t.copy (s.copy a) :=
    ⟨fun s t hst a => (hst a).symm⟩
  have commute := h.forall_of_forall (fun s _ a => rfl)
  have among {s : Slot α} (hs : s ∈ l) : s ∈ slots := List.mem_of_mem_filter (hl.mem_iff.mp hs)
  rw [← foldl_copy_written sound]
  exact hl.foldl_eq' (fun s hs t ht a => commute (among ht) (among hs) a) a

/-- A record is read from any order of its members. -/
theorem record_of_perm {blank : α} (hf : slots.map (·.field) = fields) (apart : Apart fields)
    (sound : ∀ s ∈ slots, s.Sound) (indep : Independent slots) (tree : Slot α → Tree)
    {l : List (Slot α)} (hl : l.Perm (written slots))
    (hr : ∀ s ∈ written slots, ∀ a, s.field.read (tree s) a = .ok (s.copy a)) :
    Reader.record fields blank (.object (l.map fun s => (some s.field.name, tree s))) =
      .ok (slots.foldl (fun a s => s.copy a) blank) := by
  have fieldOf {s : Slot α} (hs : s ∈ l) : s.field ∈ fields :=
    hf ▸ List.mem_map_of_mem (List.mem_of_mem_filter (hl.mem_iff.mp hs))
  have read := foldlM_readMember apart tree [] blank (fun s hs => fieldOf hs)
    (fun s hs => hr s (hl.mem_iff.mp hs))
    ((hl.map (·.field.name)).nodup_iff.mpr (nodup_written hf apart)) (by simp)
  rw [foldl_copy_perm indep sound hl, List.append_nil] at read
  have complete : fields.all (fun f =>
      !f.required || (l.map (·.field.name)).reverse.contains f.name) = true := by
    rw [List.all_eq_true]
    intro f hfm
    obtain ⟨s, hs, rfl⟩ := List.mem_map.mp (hf ▸ hfm)
    cases hv : s.value? with
    | none => simp [((sound s hs).absent hv).1]
    | some v =>
      have here : s ∈ l := hl.mem_iff.mpr (List.mem_filter.mpr ⟨hs, by simp [hv]⟩)
      have seen : s.field.name ∈ (l.map (·.field.name)).reverse :=
        List.mem_reverse.mpr (List.mem_map_of_mem here)
      simp [seen]
  unfold Reader.record
  simp only [read, bind, Except.bind, complete, if_true]

/-- A record is read from its members as they were written, and from its members in order. -/
theorem readsAs_record {blank : α} (hf : slots.map (·.field) = fields) (apart : Apart fields)
    (sound : ∀ s ∈ slots, s.Sound) (indep : Independent slots) :
    ReadsAs (Reader.record fields blank) (.object (members slots))
      (slots.foldl (fun a s => s.copy a) blank) := by
  have value {s : Slot α} (hs : s ∈ written slots) (a : α) :
      ReadsAs (fun t => s.field.read t a) (s.value?.getD .null) (s.copy a) := by
    obtain ⟨hs, hv⟩ := List.mem_filter.mp hs
    obtain ⟨v, hv⟩ := Option.isSome_iff_exists.mp hv
    rw [hv]
    exact (sound s hs).present v hv a
  constructor
  · show Reader.record fields blank (.object (Tree.ofMembers (members slots))) = _
    rw [Tree.ofMembers_eq_map, members_eq_map, List.map_map]
    exact record_of_perm hf apart sound indep (fun s => Tree.ofValue (s.value?.getD .null))
      (.refl _) fun s hs a => (value hs a).written
  · let member (s : Slot α) : String × Value :=
      (s.field.name, (s.value?.getD .null).canonical)
    have canonical : Value.canonicalMembers (members slots) = (written slots).map member := by
      rw [Value.canonicalMembers_eq_map, members_eq_map, List.map_map]
      rfl
    have names : (((written slots).map member).map (·.1)).Nodup := by
      rw [List.map_map]
      exact nodup_written hf apart
    obtain ⟨l, sorted, hl⟩ : ∃ l : List (Slot α),
        Entries.sort ((written slots).map member) = l.map member ∧ l.Perm (written slots) :=
      (congrFun₂ (List.eq_map_comp_perm member) _ _).mpr (Entries.sort_perm names)
    show Reader.record fields blank (.object (Tree.ofMembers (Entries.sort
      (Value.canonicalMembers (members slots))))) = _
    rw [canonical, sorted, Tree.ofMembers_eq_map, List.map_map]
    exact record_of_perm hf apart sound indep
      (fun s => Tree.ofValue (s.value?.getD .null).canonical) hl fun s hs a => (value hs a).sorted

end Slot

end Json
end ContentIndex
