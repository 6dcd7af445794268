import ContentIndex.Proofs.Json.Canonical
import ContentIndex.Proofs.Query.MetaTree

/-
  Reading a query on custom fields loses nothing. `Reaches` says which parts of a value are looked
  at: the items of lists, and the members of objects that name no key, except for their relations.
  `walk` lists these parts with the paths that lead to them, each once and in the order of the
  paths. `read_walk` says that the predicates of the query that is read, from left to right, are the
  objects with a key in the order of the walk, and that its groups are the lists and objects
  in which such an object is met. No group is empty, and each has the relation of its object.

  The one thing that is not read is an object in whose members predicates may stand although it has
  a key that is no text (`hidesEntries`).
-/

namespace ContentIndex.Query

open Json (Value Members)

/-! ## The walk -/

/-- The key that an object names; a member that is no string, number or boolean names none. -/
def keyText? (ms : Members) : Option String :=
  (Entries.find? "key" ms).bind Value.scalarText?

/-- A step from a list to one of its items, or from an object to one of its members. -/
inductive Step where
  | item (i : Nat)
  | member (name : String)
deriving DecidableEq, Repr

/-- Items come in their order, and members in that of their names. -/
inductive Step.Before : Step → Step → Prop
  | item {i j : Nat} : i < j → Before (.item i) (.item j)
  | member {k l : String} : k < l → Before (.member k) (.member l)

/-- A path leads from a value to a part of it that is looked at. -/
inductive Reaches : Value → List Step → Value → Prop
  | here (v : Value) : Reaches v [] v
  | item {vs : List Value} {i : Nat} {v w : Value} {path : List Step} (hv : vs[i]? = some v) :
      Reaches v path w → Reaches (.array vs) (.item i :: path) w
  | member {ms : Members} {name : String} {v w : Value} {path : List Step}
      (hkey : keyText? ms = none) (hv : (name, v) ∈ ms) (hname : name ≠ "relation") :
      Reaches v path w → Reaches (.object ms) (.member name :: path) w

/-- A part of a value, and the path to it. -/
abbrev Visit := List Step × Value

/-- A path comes before another one if it does where they part, or if it is the shorter one. -/
def Visit.Precedes (a b : Visit) : Prop :=
  List.Lex Step.Before a.1 b.1

def Visit.behind (s : Step) (a : Visit) : Visit := (s :: a.1, a.2)

mutual
/-- The parts inside a value that are looked at. -/
def inside : Value → List Visit
  | .array vs => insideItems 0 vs
  | .object ms => if (keyText? ms).isSome then [] else insideMembers ms
  | _ => []
termination_by structural v => v

/-- The items of a list from an index on, and the parts inside them. -/
def insideItems : Nat → List Value → List Visit
  | _, [] => []
  | i, v :: vs => (([], v) :: inside v).map (Visit.behind (.item i)) ++ insideItems (i + 1) vs
termination_by structural _ vs => vs

/-- The members of an object, and the parts inside them. -/
def insideMembers : List (String × Value) → List Visit
  | [] => []
  | (name, v) :: ms =>
    if name = "relation" then insideMembers ms
    else (([], v) :: inside v).map (Visit.behind (.member name)) ++ insideMembers ms
termination_by structural ms => ms
end

/-- A value, and the parts inside it that are looked at. -/
def walk (v : Value) : List Visit := ([], v) :: inside v

/-! ## What is met -/

/-- Whether a value is an object with a key. -/
def isKeyed : Value → Bool
  | .object ms => (keyText? ms).isSome
  | _ => false

/-- The predicate that an object with a key writes. -/
def writtenPredicate? : Value → Option MetaPredicate
  | .object ms => readPredicate? ms
  | _ => none

/-- The predicates of the objects with a key that are met, in the order of the walk. -/
def met (v : Value) : List MetaPredicate :=
  (walk v).filterMap fun a => writtenPredicate? a.2

/-- The relation that an object names with a string. All parts of a list must hold, and so must all
of an object that names none. -/
def relationOf (v : Value) : Relation :=
  match v.get? "relation" with
  | some (.string s) => .named s
  | _ => .and

/-- A list, or an object without a key, in which some object with a key is met, with its relation
and what is met in it. -/
def gathers? (v : Value) : Option (Relation × List MetaPredicate) :=
  if isKeyed v || (met v).isEmpty then none else some (relationOf v, met v)

/-- Whether a value is an object with a key that is no text, and with other members in which
predicates may stand. -/
def hidesEntries : Value → Bool
  | .object ms =>
    (Entries.find? "key" ms).isSome && (keyText? ms).isNone &&
      ms.any fun m => m.2.isArray || m.2.isObject
  | _ => false

/-- No part that is looked at hides any entries. -/
def HidesNothing (v : Value) : Prop :=
  ∀ path w, Reaches v path w → hidesEntries w = false

/-! ## What is read -/

namespace MetaItem

mutual
/-- The groups of an item with their relations and items, each before those inside it. -/
def groups : MetaItem → List (Relation × List MetaItem)
  | .predicate _ => []
  | .group relation items => (relation, items) :: groupsOf items
termination_by structural i => i

def groupsOf : List MetaItem → List (Relation × List MetaItem)
  | [] => []
  | i :: is => groups i ++ groupsOf is
termination_by structural is => is
end

theorem predicatesOf_append (is js : List MetaItem) :
    predicatesOf (is ++ js) = predicatesOf is ++ predicatesOf js := by
  induction is with
  | nil => rfl
  | cons i is ih => rw [List.cons_append, predicatesOf, predicatesOf, ih, List.append_assoc]

theorem groupsOf_append (is js : List MetaItem) :
    groupsOf (is ++ js) = groupsOf is ++ groupsOf js := by
  induction is with
  | nil => rfl
  | cons i is ih => rw [List.cons_append, groupsOf, groupsOf, ih, List.append_assoc]

theorem predicatesOf_group (relation : Relation) (items : List MetaItem) :
    predicatesOf [.group relation items] = predicatesOf items :=
  List.append_nil _

theorem groupsOf_group (relation : Relation) (items : List MetaItem) :
    groupsOf [.group relation items] = (relation, items) :: groupsOf items :=
  List.append_nil _

/-- Items in which no group is empty hold a predicate. -/
theorem predicatesOf_ne_nil : (is : List MetaItem) → is ≠ [] →
    (∀ g ∈ groupsOf is, g.2 ≠ []) → predicatesOf is ≠ []
  | [], h, _ => absurd rfl h
  | .predicate p :: is, _, _ => by simp [predicatesOf, predicates]
  | .group relation items :: is, _, h => by
    rw [groupsOf, groups] at h
    have hitems : predicatesOf items ≠ [] :=
      predicatesOf_ne_nil items (h (relation, items) List.mem_cons_self) fun g hg =>
        h g (List.mem_append_left _ (List.mem_cons_of_mem _ hg))
    rw [predicatesOf, predicates]
    exact List.append_ne_nil_of_left_ne_nil hitems _
termination_by is => sizeOf is

end MetaItem

/-! ## The walk is exact -/

theorem mem_map_behind {s : Step} {l : List Visit} {path : List Step} {w : Value} :
    (path, w) ∈ l.map (Visit.behind s) ↔ ∃ tail, path = s :: tail ∧ (tail, w) ∈ l := by
  constructor
  · intro h
    obtain ⟨⟨tail, u⟩, hu, heq⟩ := List.mem_map.mp h
    cases heq
    exact ⟨tail, rfl, hu⟩
  · rintro ⟨tail, rfl, h⟩
    exact List.mem_map.mpr ⟨(tail, w), h, rfl⟩

theorem mem_insideItems {vs : List Value} {path : List Step} {w : Value} : ∀ {i : Nat},
    (path, w) ∈ insideItems i vs ↔
      ∃ j v tail, vs[j]? = some v ∧ path = .item (i + j) :: tail ∧ (tail, w) ∈ walk v := by
  induction vs with
  | nil => simp [insideItems]
  | cons v vs ih =>
    intro i
    rw [insideItems, List.mem_append, mem_map_behind, ih]
    constructor
    · rintro (⟨tail, rfl, h⟩ | ⟨j, u, tail, hu, rfl, h⟩)
      · exact ⟨0, v, tail, rfl, rfl, h⟩
      · exact ⟨j + 1, u, tail, hu, by rw [Nat.add_right_comm, Nat.add_assoc], h⟩
    · rintro ⟨j, u, tail, hu, rfl, h⟩
      cases j with
      | zero =>
        cases hu
        exact .inl ⟨tail, rfl, h⟩
      | succ j => exact .inr ⟨j, u, tail, hu, by rw [Nat.add_right_comm, Nat.add_assoc], h⟩

theorem mem_insideMembers {ms : List (String × Value)} {path : List Step} {w : Value} :
    (path, w) ∈ insideMembers ms ↔
      ∃ name v tail, (name, v) ∈ ms ∧ name ≠ "relation" ∧ path = .member name :: tail ∧
        (tail, w) ∈ walk v := by
  induction ms with
  | nil => simp [insideMembers]
  | cons m ms ih =>
    obtain ⟨name, v⟩ := m
    rw [insideMembers]
    split
    next hname =>
      rw [ih]
      constructor
      · rintro ⟨k, u, tail, hu, h⟩
        exact ⟨k, u, tail, List.mem_cons_of_mem _ hu, h⟩
      · rintro ⟨k, u, tail, hu, hk, h⟩
        rcases List.mem_cons.mp hu with heq | hu
        · cases heq
          exact absurd hname hk
        · exact ⟨k, u, tail, hu, hk, h⟩
    next hname =>
      rw [List.mem_append, mem_map_behind, ih]
      constructor
      · rintro (⟨tail, rfl, h⟩ | ⟨k, u, tail, hu, h⟩)
        · exact ⟨name, v, tail, List.mem_cons_self, hname, rfl, h⟩
        · exact ⟨k, u, tail, List.mem_cons_of_mem _ hu, h⟩
      · rintro ⟨k, u, tail, hu, hk, rfl, h⟩
        rcases List.mem_cons.mp hu with heq | hu
        · cases heq
          exact .inl ⟨tail, rfl, h⟩
        · exact .inr ⟨k, u, tail, hu, hk, rfl, h⟩

/-- The path to a part inside a value has a first step. -/
theorem exists_step_of_mem_inside {v w : Value} {path : List Step} (h : (path, w) ∈ inside v) :
    ∃ s tail, path = s :: tail := by
  cases v with
  | array vs =>
    obtain ⟨j, _, tail, -, rfl, -⟩ := mem_insideItems.mp h
    exact ⟨_, tail, rfl⟩
  | object ms =>
    rw [inside] at h
    split at h
    · exact absurd h List.not_mem_nil
    · obtain ⟨name, _, tail, -, -, rfl, -⟩ := mem_insideMembers.mp h
      exact ⟨_, tail, rfl⟩
  | _ => exact absurd h List.not_mem_nil

/-- The walk comes to the parts to which a path leads. -/
theorem mem_walk_iff {path : List Step} {v w : Value} : (path, w) ∈ walk v ↔ Reaches v path w := by
  -- The induction is on the path: its first step says which item or member to go on with.
  induction path generalizing v with
  | nil =>
    constructor
    · intro h
      rcases List.mem_cons.mp h with heq | h
      · cases heq
        exact .here _
      · obtain ⟨s, tail, heq⟩ := exists_step_of_mem_inside h
        cases heq
    · rintro ⟨⟩
      exact List.mem_cons_self
  | cons s path ih =>
    have hwalk : (s :: path, w) ∈ walk v ↔ (s :: path, w) ∈ inside v := by simp [walk]
    rw [hwalk]
    constructor
    · intro h
      cases v with
      | array vs =>
        obtain ⟨j, u, tail, hu, heq, h⟩ := mem_insideItems.mp h
        cases heq
        rw [Nat.zero_add]
        exact .item hu (ih.mp h)
      | object ms =>
        rw [inside] at h
        split at h
        · exact absurd h List.not_mem_nil
        next hkey =>
          obtain ⟨name, u, tail, hu, hname, heq, h⟩ := mem_insideMembers.mp h
          cases heq
          exact .member (Option.not_isSome_iff_eq_none.mp hkey) hu hname (ih.mp h)
      | _ => exact absurd h List.not_mem_nil
    · intro h
      cases h with
      | item hu h =>
        rw [inside]
        exact mem_insideItems.mpr ⟨_, _, path, hu, by rw [Nat.zero_add], ih.mpr h⟩
      | member hkey hu hname h =>
        rw [inside, hkey]
        exact mem_insideMembers.mpr ⟨_, _, path, hu, hname, rfl, ih.mpr h⟩

theorem hidesNothing_iff {v : Value} :
    HidesNothing v ↔ ∀ a ∈ walk v, hidesEntries a.2 = false := by
  constructor
  · rintro h ⟨path, w⟩ hw
    exact h path w (mem_walk_iff.mp hw)
  · intro h path w hw
    exact h (path, w) (mem_walk_iff.mpr hw)

instance (v : Value) : Decidable (HidesNothing v) := decidable_of_iff' _ hidesNothing_iff

/-! ## The walk is ordered -/

theorem pairwise_map_behind (s : Step) {l : List Visit} (h : l.Pairwise Visit.Precedes) :
    (l.map (Visit.behind s)).Pairwise Visit.Precedes :=
  List.pairwise_map.mpr (h.imp .cons)

/-- A value comes before the parts inside it. -/
theorem walk_pairwise_of_inside {v : Value} (h : (inside v).Pairwise Visit.Precedes) :
    (walk v).Pairwise Visit.Precedes := by
  refine List.pairwise_cons.mpr ⟨?_, h⟩
  rintro ⟨path, w⟩ hw
  obtain ⟨s, tail, rfl⟩ := exists_step_of_mem_inside hw
  exact .nil

mutual
/-- The parts inside a value are visited in the order of their paths. -/
theorem inside_pairwise : (v : Value) → v.Canonical → (inside v).Pairwise Visit.Precedes
  | .array vs, h => by
    rw [inside]
    exact insideItems_pairwise 0 vs fun v hv => h.of_mem_array hv
  | .object ms, h => by
    rw [inside]
    split
    · exact .nil
    · exact insideMembers_pairwise ms h.sorted fun m hm => h.of_mem_object hm
  | .null, _ | .bool _, _ | .number _, _ | .string _, _ => .nil
termination_by structural v => v

theorem insideItems_pairwise : (i : Nat) → (vs : List Value) → (∀ v ∈ vs, v.Canonical) →
    (insideItems i vs).Pairwise Visit.Precedes
  | _, [], _ => .nil
  | i, v :: vs, h => by
    obtain ⟨hv, hvs⟩ := List.forall_mem_cons.mp h
    rw [insideItems, List.pairwise_append]
    refine ⟨pairwise_map_behind _ (walk_pairwise_of_inside (inside_pairwise v hv)),
      insideItems_pairwise (i + 1) vs hvs, ?_⟩
    rintro ⟨path, w⟩ hw ⟨path', w'⟩ hw'
    obtain ⟨tail, rfl, -⟩ := mem_map_behind.mp hw
    obtain ⟨j, _, tail', -, rfl, -⟩ := mem_insideItems.mp hw'
    exact .rel (.item (by omega))
termination_by structural _ vs => vs

theorem insideMembers_pairwise : (ms : List (String × Value)) → Entries.Sorted ms →
    (∀ m ∈ ms, m.2.Canonical) → (insideMembers ms).Pairwise Visit.Precedes
  | [], _, _ => .nil
  | (name, v) :: ms, hsorted, h => by
    obtain ⟨hv, hms⟩ := List.forall_mem_cons.mp h
    obtain ⟨hfirst, hrest⟩ := List.pairwise_cons.mp hsorted
    have ih := insideMembers_pairwise ms hrest hms
    rw [insideMembers]
    split
    · exact ih
    · rw [List.pairwise_append]
      refine ⟨pairwise_map_behind _ (walk_pairwise_of_inside (inside_pairwise v hv)), ih, ?_⟩
      rintro ⟨path, w⟩ hw ⟨path', w'⟩ hw'
      obtain ⟨tail, rfl, -⟩ := mem_map_behind.mp hw
      obtain ⟨k, u, tail', hu, -, rfl, -⟩ := mem_insideMembers.mp hw'
      exact .rel (.member (hfirst (k, u) hu))
termination_by structural ms => ms
end

/-! ## Reading -/

theorem relationOf_object (ms : Members) : relationOf (.object ms) = readRelation ms := by
  rw [relationOf, readRelation, Value.get?]
  cases Entries.find? "relation" ms with
  | none => rfl
  | some v => cases v <;> rfl

theorem writtenPredicate?_isSome (v : Value) : (writtenPredicate? v).isSome = isKeyed v := by
  cases v with
  | object ms => exact Option.isSome_map
  | _ => rfl

theorem writtenPredicate?_eq_none {v : Value} (hkey : isKeyed v = false) :
    writtenPredicate? v = none := by
  rw [← Option.isNone_iff_eq_none, ← Option.not_isSome, writtenPredicate?_isSome, hkey]
  rfl

theorem gathers?_of_keyed {v : Value} (hkey : isKeyed v = true) : gathers? v = none := by
  rw [gathers?, hkey]
  rfl

theorem readMembers_eq_nil {ms : List (String × Value)}
    (h : ∀ m ∈ ms, m.2.isArray = false ∧ m.2.isObject = false) :
    MetaItem.readMembers ms = [] := by
  induction ms with
  | nil => rfl
  | cons m ms ih =>
    obtain ⟨name, v⟩ := m
    obtain ⟨⟨harray, hobject⟩, hms⟩ := List.forall_mem_cons.mp h
    have hv : MetaItem.read? v = none := by
      cases v with
      | array vs => cases harray
      | object ms => cases hobject
      | _ => rfl
    rw [MetaItem.readMembers, ih hms, hv]
    exact ite_self _

/-- Where a key is no text and nothing is hidden, there is nothing to read. -/
theorem readMembers_of_noText {ms : Members} (hsome : (Entries.find? "key" ms).isSome = true)
    (hkey : keyText? ms = none) (h : hidesEntries (.object ms) = false) :
    MetaItem.readMembers ms = [] := by
  refine readMembers_eq_nil ?_
  simpa [hidesEntries, hsome, hkey] using h

/-- An object without a key that hides nothing is read as a group of its members. -/
theorem read?_object {ms : Members} (hkey : keyText? ms = none)
    (h : hidesEntries (.object ms) = false) :
    MetaItem.read? (.object ms) = MetaItem.group? (readRelation ms) (MetaItem.readMembers ms) := by
  have hpredicate : readPredicate? ms = none := Option.map_eq_none_iff.mpr hkey
  rw [MetaItem.read?, hpredicate]
  dsimp only
  split
  next hsome =>
    rw [readMembers_of_noText hsome hkey h]
    rfl
  next => rfl

namespace HidesNothing

theorem of_item {vs : List Value} (h : HidesNothing (.array vs)) {v : Value} (hv : v ∈ vs) :
    HidesNothing v := by
  obtain ⟨i, hi⟩ := List.mem_iff_getElem?.mp hv
  exact fun path w hw => h _ w (.item hi hw)

theorem of_member {ms : Members} (h : HidesNothing (.object ms)) (hkey : keyText? ms = none)
    {m : String × Value} (hm : m ∈ ms) (hname : m.1 ≠ "relation") : HidesNothing m.2 :=
  fun _ w hw => h _ w (.member hkey hm hname hw)

end HidesNothing

/-- Items hold the predicates and the groups that are met on a part of a walk. -/
structure Mirrors (is : List MetaItem) (l : List Visit) : Prop where
  predicates : MetaItem.predicatesOf is = l.filterMap fun a => writtenPredicate? a.2
  groups : (MetaItem.groupsOf is).map (fun g => (g.1, MetaItem.predicatesOf g.2)) =
    l.filterMap fun a => gathers? a.2
  filled : ∀ g ∈ MetaItem.groupsOf is, g.2 ≠ []

namespace Mirrors

theorem nil : Mirrors [] [] := ⟨rfl, rfl, fun _ h => absurd h List.not_mem_nil⟩

theorem append {is js : List MetaItem} {l l' : List Visit} (h : Mirrors is l)
    (h' : Mirrors js l') : Mirrors (is ++ js) (l ++ l') where
  predicates := by
    rw [MetaItem.predicatesOf_append, List.filterMap_append, h.predicates, h'.predicates]
  groups := by
    rw [MetaItem.groupsOf_append, List.map_append, List.filterMap_append, h.groups, h'.groups]
  filled := by
    rw [MetaItem.groupsOf_append]
    exact List.forall_mem_append.mpr ⟨h.filled, h'.filled⟩

/-- Where a walk begins does not matter. -/
theorem behind {is : List MetaItem} {l : List Visit} (h : Mirrors is l) (s : Step) :
    Mirrors is (l.map (Visit.behind s)) where
  predicates := by
    rw [List.filterMap_map, h.predicates]
    rfl
  groups := by
    rw [List.filterMap_map, h.groups]
    rfl
  filled := h.filled

/-- A value that is no object with a key is a group of what is inside it, if that is anything. -/
theorem group (v : Value) {is : List MetaItem} (hkey : isKeyed v = false)
    (h : Mirrors is (inside v)) : Mirrors (MetaItem.group? (relationOf v) is).toList (walk v) := by
  have hwritten := writtenPredicate?_eq_none hkey
  have hmet : met v = MetaItem.predicatesOf is := by
    rw [met, walk, List.filterMap_cons, hwritten, h.predicates]
  cases is with
  | nil =>
    have hgathers : gathers? v = none := by
      rw [gathers?, hmet]
      simp [MetaItem.predicatesOf]
    refine ⟨?_, ?_, nil.filled⟩
    · rw [walk, List.filterMap_cons, hwritten]
      exact h.predicates
    · rw [walk, List.filterMap_cons, hgathers]
      exact h.groups
  | cons i is =>
    have hne : met v ≠ [] :=
      hmet ▸ MetaItem.predicatesOf_ne_nil (i :: is) (List.cons_ne_nil i is) h.filled
    have hgathers : gathers? v = some (relationOf v, MetaItem.predicatesOf (i :: is)) := by
      rw [gathers?, hkey, ← hmet]
      simp [hne]
    show Mirrors [.group (relationOf v) (i :: is)] (walk v)
    refine ⟨?_, ?_, ?_⟩
    · rw [MetaItem.predicatesOf_group, walk, List.filterMap_cons, hwritten, h.predicates]
    · rw [MetaItem.groupsOf_group, walk, List.filterMap_cons, hgathers, List.map_cons, h.groups]
    · rw [MetaItem.groupsOf_group]
      exact List.forall_mem_cons.mpr ⟨List.cons_ne_nil i is, h.filled⟩

end Mirrors

/-- An object with a key is read as its predicate. -/
theorem mirrors_keyed {ms : Members} {key : String} (hkey : keyText? ms = some key) :
    Mirrors (MetaItem.read? (.object ms)).toList (walk (.object ms)) := by
  obtain ⟨p, hp⟩ : ∃ p, readPredicate? ms = some p := by
    rw [← Option.isSome_iff_exists]
    exact Option.isSome_map.trans (Option.isSome_of_eq_some hkey)
  have hinside : inside (.object ms) = [] := by rw [inside, hkey]; rfl
  have hkeyed : isKeyed (.object ms) = true := Option.isSome_of_eq_some hkey
  have hread : MetaItem.read? (.object ms) = some (.predicate p) := by rw [MetaItem.read?, hp]
  rw [hread, walk, hinside]
  refine ⟨?_, ?_, fun g hg => absurd hg List.not_mem_nil⟩
  · rw [List.filterMap_cons, writtenPredicate?, hp]
    rfl
  · rw [List.filterMap_cons, gathers?_of_keyed hkeyed]
    rfl

mutual
/-- An entry is read as the predicates and groups that are met in it. -/
theorem mirrors_read? : (v : Value) → HidesNothing v →
    Mirrors (MetaItem.read? v).toList (walk v)
  | .array vs, h => by
    rw [MetaItem.read?]
    exact .group (.array vs) rfl (mirrors_readList 0 vs fun v hv => h.of_item hv)
  | .object ms, h => by
    cases hkey : keyText? ms with
    | some key => exact mirrors_keyed hkey
    | none =>
      have hkeyed : isKeyed (.object ms) = false := by rw [isKeyed, hkey]; rfl
      rw [read?_object hkey (h [] _ (.here _)), ← relationOf_object]
      refine .group (.object ms) hkeyed ?_
      rw [inside, hkey]
      exact mirrors_readMembers ms fun m hm hname => h.of_member hkey hm hname
  | .null, _ => .group .null rfl .nil
  | .bool b, _ => .group (.bool b) rfl .nil
  | .number n, _ => .group (.number n) rfl .nil
  | .string s, _ => .group (.string s) rfl .nil
termination_by structural v => v

theorem mirrors_readList : (i : Nat) → (vs : List Value) → (∀ v ∈ vs, HidesNothing v) →
    Mirrors (MetaItem.readList vs) (insideItems i vs)
  | _, [], _ => .nil
  | i, v :: vs, h => by
    obtain ⟨hv, hvs⟩ := List.forall_mem_cons.mp h
    rw [MetaItem.readList, insideItems]
    exact ((mirrors_read? v hv).behind _).append (mirrors_readList (i + 1) vs hvs)
termination_by structural _ vs => vs

theorem mirrors_readMembers : (ms : List (String × Value)) →
    (∀ m ∈ ms, m.1 ≠ "relation" → HidesNothing m.2) →
    Mirrors (MetaItem.readMembers ms) (insideMembers ms)
  | [], _ => .nil
  | (name, v) :: ms, h => by
    obtain ⟨hv, hms⟩ := List.forall_mem_cons.mp h
    rw [MetaItem.readMembers, insideMembers]
    split
    · exact mirrors_readMembers ms hms
    next hname => exact ((mirrors_read? v (hv hname)).behind _).append (mirrors_readMembers ms hms)
termination_by structural ms => ms
end

/-- What is inside a value that is no object with a key is read as the items of a query. -/
theorem mirrors_items {v : Value} (h : HidesNothing v) (hkey : isKeyed v = false) :
    Mirrors (MetaQuery.read v).items (inside v) := by
  cases v with
  | array vs => exact mirrors_readList 0 vs fun v hv => h.of_item hv
  | object ms =>
    have hnone : keyText? ms = none :=
      Option.isNone_iff_eq_none.mp (Option.isSome_eq_false_iff.mp hkey)
    have hshown := h [] _ (.here _)
    have hmembers : Mirrors (MetaItem.readMembers ms) (inside (.object ms)) := by
      rw [inside, hnone]
      exact mirrors_readMembers ms fun m hm hname => h.of_member hnone hm hname
    rw [MetaQuery.read]
    split
    next hsome =>
      rw [readMembers_of_noText hsome hnone hshown] at hmembers
      rw [read?_object hnone hshown, readMembers_of_noText hsome hnone hshown]
      exact hmembers
    next => exact hmembers
  | _ => exact .nil

/-- An object with a key is a query on its own, without groups. -/
theorem read_items_of_keyed {ms : Members} (hkey : isKeyed (.object ms) = true) :
    (MetaQuery.read (.object ms)).items = (MetaItem.read? (.object ms)).toList := by
  have hsome : (Entries.find? "key" ms).isSome = true := Option.isSome_of_isSome_bind hkey
  rw [MetaQuery.read, if_pos hsome]

theorem map_some_filterMap {α β : Type} (f : α → Option β) (l : List α) :
    (l.filterMap f).map some = (l.filter fun a => (f a).isSome).map f := by
  induction l with
  | nil => rfl
  | cons a l ih => cases h : f a <;> simp [h, ih]

/-- The walk over a value comes to each part to which a path leads, in the order of the paths. The
predicates of the query that is read, from left to right, are those of the objects with a key that
the walk comes to. No group of it is empty, and its groups are the lists and objects inside the
value in which such an object is met, each with their relation and with what is met in them. -/
theorem MetaQuery.read_walk (v : Value) (sorted : v.Canonical) (shown : HidesNothing v) :
    (∀ path w, (path, w) ∈ walk v ↔ Reaches v path w) ∧
      (walk v).Pairwise Visit.Precedes ∧
      (MetaItem.predicatesOf (read v).items).map some =
        ((walk v).filter fun a => isKeyed a.2).map (fun a => writtenPredicate? a.2) ∧
      (∀ g ∈ MetaItem.groupsOf (read v).items, g.2 ≠ []) ∧
      (MetaItem.groupsOf (read v).items).map (fun g => (g.1, MetaItem.predicatesOf g.2)) =
        (inside v).filterMap fun a => gathers? a.2 := by
  refine ⟨fun path w => mem_walk_iff, walk_pairwise_of_inside (inside_pairwise v sorted), ?_⟩
  simp only [← writtenPredicate?_isSome, ← map_some_filterMap]
  cases hkey : isKeyed v with
  | true =>
    cases v with
    | object ms =>
      obtain ⟨key, hkey'⟩ := Option.isSome_iff_exists.mp hkey
      obtain ⟨hpredicates, hgroups, hfilled⟩ := mirrors_keyed hkey'
      rw [read_items_of_keyed hkey, hpredicates, hgroups]
      refine ⟨rfl, hfilled, ?_⟩
      rw [walk, List.filterMap_cons, gathers?_of_keyed hkey]
    | _ => cases hkey
  | false =>
    obtain ⟨hpredicates, hgroups, hfilled⟩ := mirrors_items shown hkey
    rw [hpredicates, hgroups]
    refine ⟨?_, hfilled, rfl⟩
    rw [walk, List.filterMap_cons, writtenPredicate?_eq_none hkey]

/-- Of two entries in an object that says "or", one is a list of a predicate and of an object
without any; the group of the list keeps the predicate, and both stand in the order of their
names. -/
theorem MetaQuery.read_walk_nested :
    let colour : Value := .object [("key", "colour"), ("value", "red")]
    let size : Value := .object [("key", "size")]
    let v : Value := .object [("0", .array [size, .object [("value", "lost")]]),
      ("1", .object [("relation", "or"), ("x", colour)]), ("relation", "or")]
    let onSize : MetaPredicate := .present "size"
    let onColour : MetaPredicate := .equals "colour" "red"
    v.Canonical ∧ HidesNothing v ∧
      MetaItem.predicatesOf (read v).items = [onSize, onColour] ∧
      (MetaItem.groupsOf (read v).items).map (fun g => (g.1, MetaItem.predicatesOf g.2)) =
        [(.and, [onSize]), (.or, [onColour])] := by
  intro colour size v onSize onColour
  have sorted : v.Canonical := by decide
  have shown : HidesNothing v := by decide
  obtain ⟨-, -, hpredicates, -, hgroups⟩ := read_walk v sorted shown
  refine ⟨sorted, shown, ?_, hgroups.trans (by decide +kernel)⟩
  exact (List.map_inj_right fun _ _ => Option.some.inj).mp (hpredicates.trans (by decide))

end ContentIndex.Query
