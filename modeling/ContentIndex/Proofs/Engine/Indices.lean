import ContentIndex.Bulk.Answer
import ContentIndex.Engine.Paths
import ContentIndex.Proofs.Bulk.Framing
import ContentIndex.Proofs.Indexer.Traffic

/-
  What requests make of the indices of an engine. A removal drops an index and its creation makes
  it empty; a bulk request stores the source lines of the pairs that the answer accepts. What has
  failed, or was not answered by a success, changes nothing. Which pairs are accepted is for the
  engine to say; only the meaning of its answers is fixed.

  The body of a bulk request is read as lines (`submitted`), so that it is the text that was sent
  which counts. Calls on other indices leave an index alone (`after_of_not_on`), and after bulk
  requests it holds what was taken of them (`after_posts`).
-/

namespace ContentIndex.Engine

/-! ## Calls on an index -/

/-- Whether a request is a removal, a creation or a bulk request of an index. -/
def Request.isOn (typed : Bool) (index : String) (r : Request) : Bool :=
  match r.method with
  | .delete | .put => r.path == index
  | .post => r.path == (⟨index, typed⟩ : Paths).bulk
  | _ => false

/-- The indices of two paths for bulk requests are the same if the paths are. -/
theorem bulk_injective {typed : Bool} {a b : String}
    (h : (⟨a, typed⟩ : Paths).bulk = (⟨b, typed⟩ : Paths).bulk) : a = b := by
  unfold Paths.bulk Paths.endpoint at h
  have ht := congrArg String.toList h
  apply String.toList_inj.mp
  cases typed with
  | true => simpa [String.toList_append] using ht
  | false => simpa [String.toList_append] using ht

/-- A request on one index is on no other. -/
theorem Request.isOn_unique {typed : Bool} {a b : String} {r : Request}
    (ha : r.isOn typed a = true) (hb : r.isOn typed b = true) : a = b := by
  unfold isOn at ha hb
  cases hm : r.method with
  | get => rw [hm] at ha; cases ha
  | head => rw [hm] at ha; cases ha
  | delete =>
    rw [hm] at ha hb
    exact (beq_iff_eq.mp ha).symm.trans (beq_iff_eq.mp hb)
  | put =>
    rw [hm] at ha hb
    exact (beq_iff_eq.mp ha).symm.trans (beq_iff_eq.mp hb)
  | post =>
    rw [hm] at ha hb
    exact bulk_injective ((beq_iff_eq.mp ha).symm.trans (beq_iff_eq.mp hb))

end ContentIndex.Engine

namespace ContentIndex

open Engine (pairOf submitted)

/-! ## What the engine takes -/

/-- Whether a bulk answer has an item without failure for an id. -/
def Engine.Response.takes (r : Engine.Response) (id : UInt64) : Bool :=
  match r.json.toOption.bind Bulk.Answer.read? with
  | some a => a.items.any fun i => i.id == id && !i.isFailure
  | none => false

namespace Exchange

/-- The answer, if it is a success. -/
def success? (e : Exchange) : Option Engine.Response :=
  match e.answer with
  | .ok r => if r.isSuccess then some r else none
  | .error _ => none

/-- The ids and source lines that the request submits. -/
def submitted (e : Exchange) : List (UInt64 × String) :=
  Engine.submitted (e.request.body.getD "")

/-- Those that the engine takes. -/
def taken (e : Exchange) : List (UInt64 × String) :=
  match e.success? with
  | some r => e.submitted.filter fun p => r.takes p.1
  | none => []

end Exchange

/-- The source lines of the documents of an index. -/
abbrev Docs := UInt64 → Option String

/-- The documents of each index that exists. -/
abbrev Indices := String → Option Docs

/-- The documents with others stored one after another. -/
def Docs.store (docs : Docs) (ps : List (UInt64 × String)) : Docs :=
  ps.foldl (fun docs p id => if id = p.1 then some p.2 else docs id) docs

namespace Indices

/-- What a call that the engine has carried out makes of its index. -/
def carryOut (e : Exchange) (docs : Option Docs) : Option Docs :=
  match e.request.method with
  | .delete => none
  | .put => some fun _ => none
  | .post => some (Docs.store (docs.getD fun _ => none) e.taken)
  | _ => docs

/-- The indices after an exchange. Engines with mapping types have other paths. -/
def apply (typed : Bool) (I : Indices) (e : Exchange) : Indices := fun index =>
  if e.success?.isSome && e.request.isOn typed index then carryOut e (I index) else I index

def after (typed : Bool) (I : Indices) (xs : List Exchange) : Indices :=
  xs.foldl (apply typed) I

variable {typed : Bool} {I : Indices} {e : Exchange} {xs : List Exchange} {index : String}

theorem after_append (I : Indices) (xs ys : List Exchange) :
    I.after typed (xs ++ ys) = (I.after typed xs).after typed ys :=
  List.foldl_append

theorem apply_of_not_on (h : e.request.isOn typed index = false) :
    I.apply typed e index = I index := by
  unfold apply
  rw [h, Bool.and_false, if_neg Bool.false_ne_true]

/-- Calls on other indices leave an index alone. -/
theorem after_of_not_on (h : ∀ e ∈ xs, e.request.isOn typed index = false) :
    I.after typed xs index = I index := by
  induction xs generalizing I with
  | nil => rfl
  | cons e xs ih =>
    obtain ⟨he, hxs⟩ := List.forall_mem_cons.mp h
    exact (ih hxs).trans (apply_of_not_on he)

end Indices

/-! ## Stored documents -/

/-- The documents are those of some ids, each with its own source. -/
def Docs.Hold (docs : Docs) (source : UInt64 → String) (ids : UInt64 → Prop) : Prop :=
  ∀ id src, docs id = some src ↔ src = source id ∧ ids id

namespace Docs.Hold

variable {docs : Docs} {source : UInt64 → String} {ids ids' : UInt64 → Prop}

theorem congr (h : docs.Hold source ids) (hi : ∀ id, ids id ↔ ids' id) : docs.Hold source ids' :=
  fun id src => (h id src).trans (and_congr_right fun _ => hi id)

theorem empty (source : UInt64 → String) : Docs.Hold (fun _ => none) source fun _ => False := by
  intro id src
  constructor
  · intro h
    cases h
  · exact fun h => h.2.elim

/-- One document with its own source is stored. -/
theorem put (h : docs.Hold source ids) {p : UInt64 × String} (hp : p.2 = source p.1) :
    Docs.Hold (fun id => if id = p.1 then some p.2 else docs id) source
      fun id => ids id ∨ id = p.1 := by
  intro id src
  show (if id = p.1 then some p.2 else docs id) = some src ↔ src = source id ∧ (ids id ∨ id = p.1)
  by_cases hid : id = p.1
  · rw [if_pos hid, hp, hid]
    constructor
    · intro he
      exact ⟨(Option.some.inj he).symm, .inr rfl⟩
    · exact fun he => congrArg some he.1.symm
  · rw [if_neg hid]
    exact (h id src).trans (and_congr_right fun _ => (or_iff_left hid).symm)

theorem store {ps : List (UInt64 × String)} (h : docs.Hold source ids)
    (hps : ∀ p ∈ ps, p.2 = source p.1) :
    (docs.store ps).Hold source fun id => ids id ∨ id ∈ ps.map (·.1) := by
  induction ps generalizing docs ids with
  | nil => exact h.congr fun id => by simp
  | cons p ps ih =>
    obtain ⟨hp, hps⟩ := List.forall_mem_cons.mp hps
    refine (ih (h.put hp) hps).congr fun id => ?_
    rw [List.map_cons, List.mem_cons, or_assoc]

end Docs.Hold

theorem Exchange.submitted_of_taken {e : Exchange} {p : UInt64 × String} (h : p ∈ e.taken) :
    p ∈ e.submitted := by
  unfold taken at h
  cases hr : e.success? with
  | none => rw [hr] at h; cases h
  | some r =>
    rw [hr] at h
    exact (List.mem_filter.mp h).1

/-- A bulk request stores what the engine takes of it. -/
theorem Indices.apply_post {typed : Bool} {I : Indices} {index : String} {e : Exchange}
    {docs : Docs} (hI : I index = some docs) (hm : e.request.method = .post)
    (hon : e.request.isOn typed index = true) :
    I.apply typed e index = some (docs.store e.taken) := by
  unfold apply carryOut
  rw [hon, Bool.and_true, hI, hm]
  cases hr : e.success? with
  | some r => rfl
  | none =>
    have none_taken : e.taken = [] := by
      unfold Exchange.taken
      rw [hr]
    rw [none_taken]
    rfl

/-- After bulk requests an index holds what it held, and what was taken of them. -/
theorem Indices.after_posts {typed : Bool} {I : Indices} {index : String} {xs : List Exchange}
    {source : UInt64 → String} {ids : UInt64 → Prop} {docs : Docs} (hI : I index = some docs)
    (hd : docs.Hold source ids)
    (hxs : ∀ e ∈ xs, e.request.method = .post ∧ e.request.isOn typed index = true)
    (hs : ∀ e ∈ xs, ∀ p ∈ e.submitted, p.2 = source p.1) :
    ∃ docs', I.after typed xs index = some docs' ∧
      docs'.Hold source fun id => ids id ∨ ∃ e ∈ xs, id ∈ e.taken.map (·.1) := by
  induction xs generalizing I docs ids with
  | nil => exact ⟨docs, hI, hd.congr fun id => by simp⟩
  | cons e xs ih =>
    obtain ⟨⟨hm, hon⟩, hxs⟩ := List.forall_mem_cons.mp hxs
    obtain ⟨hse, hs⟩ := List.forall_mem_cons.mp hs
    have stored := hd.store fun p hp => hse p (Exchange.submitted_of_taken hp)
    obtain ⟨docs', hd', hold⟩ := ih (apply_post hI hm hon) stored hxs hs
    refine ⟨docs', hd', hold.congr fun id => ?_⟩
    rw [or_assoc]
    simp only [List.mem_cons, exists_eq_or_imp]

/-- A creation that the engine carries out leaves an empty index. -/
theorem Indices.apply_put {typed : Bool} {I : Indices} {index : String} {e : Exchange}
    (hm : e.request.method = .put) (hon : e.request.isOn typed index = true)
    (hr : e.success?.isSome = true) : I.apply typed e index = some fun _ => none := by
  unfold apply carryOut
  rw [hr, hon, hm]
  rfl

end ContentIndex
