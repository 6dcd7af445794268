import ContentIndex.Json.Tree
import ContentIndex.Proofs.Json.Records

/-
  Values whose objects all have their members in the order of their names. They are the values
  that sorting leaves as they are, and those that are read from text (`canonical_of_parse?`);
  every part of one is one again.
-/

namespace ContentIndex

/-- Sorting adds no entry. -/
theorem Entries.mem_of_mem_sort {α : Type} {es : Entries α} {e : String × α}
    (h : e ∈ Entries.sort es) : e ∈ es := by
  have main : ∀ (es acc : Entries α),
      e ∈ es.foldl (fun acc e => Entries.insert e.1 e.2 acc) acc → e ∈ acc ∨ e ∈ es := by
    intro es
    induction es with
    | nil => exact fun acc h => .inl h
    | cons f es ih =>
      intro acc h
      rcases ih _ h with h | h
      · rcases Entries.mem_insert h with rfl | h
        · exact .inr List.mem_cons_self
        · exact .inl h
      · exact .inr (List.mem_cons_of_mem f h)
  exact (main es [] h).resolve_left List.not_mem_nil

namespace Json.Value

/-- All members are sorted by name. -/
def Canonical (v : Value) : Prop := v.canonical = v

instance (v : Value) : Decidable v.Canonical := inferInstanceAs (Decidable (_ = _))

variable {v w : Value} {vs : List Value} {ms : Members}

/-! ## Parts of a value -/

theorem canonical_array (h : ∀ v ∈ vs, v.Canonical) : (array vs).Canonical := by
  show array (canonicalItems vs) = array vs
  rw [canonicalItems_eq_map, List.map_congr_left h, List.map_id']

theorem canonical_object (sorted : Entries.Sorted ms) (h : ∀ m ∈ ms, m.2.Canonical) :
    (object ms).Canonical := by
  have same : canonicalMembers ms = ms := by
    have each : ∀ m ∈ ms, (m.1, m.2.canonical) = m := by
      intro m hm
      rw [show m.2.canonical = m.2 from h m hm]
    rw [canonicalMembers_eq_map, List.map_congr_left each, List.map_id']
  show object (Entries.sort (canonicalMembers ms)) = object ms
  rw [same, Entries.sort_eq_self sorted]

mutual
/-- What was sorted is sorted. -/
theorem canonical_canonical (v : Value) : v.canonical.Canonical := by
  cases v with
  | array vs => exact canonical_array (canonical_canonicalItems vs)
  | object ms =>
    exact canonical_object (Entries.sort_sorted _) fun m hm =>
      canonical_canonicalMembers ms m (Entries.mem_of_mem_sort hm)
  | _ => rfl

theorem canonical_canonicalItems (vs : List Value) : ∀ v ∈ canonicalItems vs, v.Canonical := by
  cases vs with
  | nil => exact fun v hv => (List.not_mem_nil hv).elim
  | cons v vs =>
    exact List.forall_mem_cons.mpr ⟨canonical_canonical v, canonical_canonicalItems vs⟩

theorem canonical_canonicalMembers (ms : List (String × Value)) :
    ∀ m ∈ canonicalMembers ms, m.2.Canonical := by
  cases ms with
  | nil => exact fun m hm => (List.not_mem_nil hm).elim
  | cons m ms =>
    obtain ⟨k, v⟩ := m
    exact List.forall_mem_cons.mpr ⟨canonical_canonical v, canonical_canonicalMembers ms⟩
end

/-- The items of a sorted value are sorted. -/
theorem Canonical.of_mem_array (h : (array vs).Canonical) (hv : v ∈ vs) : v.Canonical := by
  have same : canonicalItems vs = vs := array.inj h
  rw [← same] at hv
  exact canonical_canonicalItems vs v hv

theorem Canonical.sorted (h : (object ms).Canonical) : Entries.Sorted ms := by
  have same : Entries.sort (canonicalMembers ms) = ms := object.inj h
  rw [← same]
  exact Entries.sort_sorted _

theorem Canonical.of_mem_object (h : (object ms).Canonical) {m : String × Value} (hm : m ∈ ms) :
    m.2.Canonical := by
  have same : Entries.sort (canonicalMembers ms) = ms := object.inj h
  rw [← same] at hm
  exact canonical_canonicalMembers ms m (Entries.mem_of_mem_sort hm)

theorem Canonical.get? (h : v.Canonical) {name : String} (hw : v.get? name = some w) :
    w.Canonical := by
  cases v with
  | object ms =>
    obtain ⟨k, hm⟩ := Entries.exists_mem_of_find? hw
    exact h.of_mem_object hm
  | _ => cases hw

/-! ## Values of texts -/

mutual
theorem canonical_of_toValue? (t : Tree) : ∀ {depth : Nat} {v : Value},
    t.toValue? depth = some v → v.Canonical := by
  intro depth v h
  cases t with
  | null =>
    cases h
    rfl
  | bool b =>
    cases h
    rfl
  | number n =>
    obtain ⟨n, -, rfl⟩ := Option.map_eq_some_iff.mp h
    rfl
  | string s =>
    obtain ⟨s, -, rfl⟩ := Option.map_eq_some_iff.mp h
    rfl
  | array ts =>
    cases depth with
    | zero => cases h
    | succ depth =>
      obtain ⟨vs, hvs, rfl⟩ := Option.map_eq_some_iff.mp h
      exact canonical_array (canonical_of_toValues? ts hvs)
  | object ms =>
    cases depth with
    | zero => cases h
    | succ depth =>
      obtain ⟨l, hl, rfl⟩ := Option.map_eq_some_iff.mp h
      exact canonical_object (Entries.sort_sorted l) fun m hm =>
        canonical_of_toMembers? ms hl m (Entries.mem_of_mem_sort hm)

theorem canonical_of_toValues? (ts : List Tree) : ∀ {depth : Nat} {vs : List Value},
    Tree.toValues? depth ts = some vs → ∀ v ∈ vs, v.Canonical := by
  intro depth vs h
  cases ts with
  | nil =>
    cases h
    exact fun v hv => (List.not_mem_nil hv).elim
  | cons t ts =>
    unfold Tree.toValues? at h
    split at h
    · rename_i v vs hv hvs
      cases h
      exact List.forall_mem_cons.mpr ⟨canonical_of_toValue? t hv, canonical_of_toValues? ts hvs⟩
    · cases h

theorem canonical_of_toMembers? (ms : List (Option String × Tree)) :
    ∀ {depth : Nat} {l : List (String × Value)},
      Tree.toMembers? depth ms = some l → ∀ m ∈ l, m.2.Canonical := by
  intro depth l h
  cases ms with
  | nil =>
    cases h
    exact fun m hm => (List.not_mem_nil hm).elim
  | cons m ms =>
    obtain ⟨k, t⟩ := m
    unfold Tree.toMembers? at h
    split at h
    · rename_i k v l hv hl
      cases h
      exact List.forall_mem_cons.mpr ⟨canonical_of_toValue? t hv, canonical_of_toMembers? ms hl⟩
    · cases h
end

/-- What is read from a text is sorted. -/
theorem canonical_of_parse? {s : String} (h : parse? s = some v) : v.Canonical := by
  obtain ⟨t, -, ht⟩ := Option.bind_eq_some_iff.mp h
  exact canonical_of_toValue? t ht

end Json.Value
end ContentIndex
