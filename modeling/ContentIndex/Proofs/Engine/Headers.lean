import ContentIndex.Engine.Request

/-
  How requests are put together: a constructor, and then any number of changes. A change sets a
  header, the body or the time limit, and each of them leaves the others alone. No two headers
  have the same name, whatever the case of its letters (`Distinct`): a name that is set again
  loses its old header. So a header has the value that was set last (`set_build`), and the list
  that is sent says the same as the look-up (`Distinct.header?_of_mem`).
-/

namespace ContentIndex.Engine.Request

open Text (lower sameWord)

/-! ## Constructors and changes -/

/-- A constructor with its arguments. -/
inductive Start where
  | new (method : Method) (path : String)
  | get (path : String)
  | head (path : String)
  | put (path body : String)
  | post (path body : String)
  | delete (path : String)

namespace Start

def request : Start → Request
  | new method path => .new method path
  | get path => .get path
  | head path => .head path
  | put path body => .put path body
  | post path body => .post path body
  | delete path => .delete path

def method : Start → Method
  | new method _ => method
  | get _ => .get
  | head _ => .head
  | put _ _ => .put
  | post _ _ => .post
  | delete _ => .delete

def path : Start → String
  | new _ path | get path | head path | put path _ | post path _ | delete path => path

def body? : Start → Option String
  | put _ body | post _ body => some body
  | _ => none

end Start

/-- A change to a request. -/
inductive Change where
  | header (name value : String)
  | ndjson
  | body (text : String)
  | timeout (ms : UInt64)

namespace Change

def apply (r : Request) : Change → Request
  | header name value => r.withHeader name value
  | ndjson => r.ndjson
  | body text => r.withBody text
  | timeout ms => r.withTimeout ms

/-- The header that a change sets, and its value. -/
def header? : Change → Option (String × String)
  | header name value => some (name, value)
  | ndjson => some ("Content-Type", "application/x-ndjson")
  | _ => none

/-- The value that a change gives to a header, in any case of its name. -/
def valueOf? (name : String) (c : Change) : Option String :=
  (c.header?.filter fun h => sameWord h.1 name).map (·.2)

def body? : Change → Option String
  | body text => some text
  | _ => none

def timeout? : Change → Option UInt64
  | timeout ms => some ms
  | _ => none

end Change

/-- The request after some changes. -/
def build (r : Request) (changes : List Change) : Request :=
  changes.foldl Change.apply r

theorem build_cons (r : Request) (c : Change) (changes : List Change) :
    r.build (c :: changes) = (c.apply r).build changes :=
  rfl

/-- What the last change says that says anything. -/
def lastSaid {α : Type} (f : Change → Option α) (changes : List Change) : Option α :=
  changes.reverse.findSome? f

theorem lastSaid_cons {α : Type} (f : Change → Option α) (c : Change) (changes : List Change) :
    lastSaid f (c :: changes) = (lastSaid f changes).or (f c) := by
  rw [lastSaid, List.reverse_cons, List.findSome?_append, List.findSome?_singleton, lastSaid]

/-! ## One header for each name -/

theorem sameWord_iff {s t : String} : sameWord s t = true ↔ lower s = lower t :=
  beq_iff_eq

theorem sameWord_congr {s t : String} (h : sameWord s t = true) (u : String) :
    sameWord u s = sameWord u t := by
  rw [Bool.eq_iff_iff, sameWord_iff, sameWord_iff, sameWord_iff.mp h]

/-- No two headers have the same name. -/
def Distinct (r : Request) : Prop :=
  r.headers.Pairwise fun a b => sameWord a.1 b.1 = false

theorem Distinct.withHeader {r : Request} (h : r.Distinct) (name value : String) :
    (r.withHeader name value).Distinct := by
  refine List.pairwise_append.mpr ⟨h.filter _, List.pairwise_singleton _ _, ?_⟩
  intro a ha b hb
  obtain rfl := List.mem_singleton.mp hb
  simpa using (List.mem_filter.mp ha).2

/-- The look-up reads the headers as they stand in the list: no other header comes before. -/
theorem Distinct.header?_of_mem {r : Request} (h : r.Distinct) {name value : String}
    (hmem : (name, value) ∈ r.headers) : r.header? name = some value := by
  obtain ⟨before, after, heq⟩ := List.append_of_mem hmem
  have hbefore : ∀ a ∈ before, ¬ sameWord a.1 name = true := by
    intro a ha
    have hpair := h
    rw [Distinct, heq, List.pairwise_append] at hpair
    simp [hpair.2.2 a ha (name, value) List.mem_cons_self]
  have hself : sameWord name name = true := sameWord_iff.mpr rfl
  rw [header?, heq, List.find?_append, List.find?_eq_none.mpr hbefore, Option.none_or,
    List.find?_cons, hself]
  rfl

/-- A header that is set has this value from then on, and all others have the one they had. -/
theorem header?_withHeader (r : Request) (name value other : String) :
    (r.withHeader name value).header? other =
      if sameWord name other then some value else r.header? other := by
  rw [header?, withHeader, List.find?_append, List.find?_filter]
  split
  case isTrue hsame =>
    -- all headers that the look-up might find were dropped
    have hnone : (r.headers.find? fun h => !sameWord h.1 name && sameWord h.1 other) = none := by
      refine List.find?_eq_none.mpr fun h _ => ?_
      simp [sameWord_congr hsame]
    simp [hnone, hsame]
  case isFalse hother =>
    have hkept : (fun h : String × String => !sameWord h.1 name && sameWord h.1 other) =
        fun h => sameWord h.1 other := by
      funext h
      refine Bool.and_eq_right_iff_imp.mpr fun hsame => ?_
      rw [Bool.not_eq_true', Bool.eq_false_iff]
      intro hname
      exact hother (by rw [sameWord_iff] at *; exact hname.symm.trans hsame)
    simp [hkept, hother, header?]

/-! ## Any number of changes -/

/-- The content type that a request has from the start. -/
def firstValue? (name : String) : Option String :=
  if sameWord "Content-Type" name then some "application/json" else none

theorem Start.distinct (s : Start) : s.request.Distinct := by
  cases s <;> exact List.pairwise_singleton _ _

theorem Start.header? (s : Start) (name : String) :
    s.request.header? name = firstValue? name := by
  cases s <;>
    simp only [Start.request, Request.new, Request.get, Request.head, Request.put, Request.post,
      Request.delete, Request.header?, firstValue?, List.find?_singleton] <;>
    split <;> rfl

/-- A change keeps the names apart. -/
theorem Change.distinct_apply {r : Request} (h : r.Distinct) (c : Change) :
    (c.apply r).Distinct := by
  cases c with
  | header name value => exact h.withHeader name value
  | ndjson => exact h.withHeader _ _
  | body | timeout => exact h

/-- A header has the value that the change gives to it, and else the one it had. -/
theorem Change.header?_apply (r : Request) (c : Change) (name : String) :
    (c.apply r).header? name = (c.valueOf? name).or (r.header? name) := by
  have hset (n v : String) : (r.withHeader n v).header? name =
      ((header n v).valueOf? name).or (r.header? name) := by
    rw [header?_withHeader]
    simp only [valueOf?, Change.header?, Option.filter_some]
    split <;> rfl
  cases c with
  | header n v => exact hset n v
  | ndjson => exact hset "Content-Type" "application/x-ndjson"
  | body | timeout => rfl

theorem Change.method_apply (r : Request) (c : Change) : (c.apply r).method = r.method := by
  cases c <;> rfl

theorem Change.path_apply (r : Request) (c : Change) : (c.apply r).path = r.path := by
  cases c <;> rfl

theorem Change.body_apply (r : Request) (c : Change) :
    (c.apply r).body = c.body?.or r.body := by
  cases c <;> rfl

theorem Change.timeoutMs_apply (r : Request) (c : Change) :
    (c.apply r).timeoutMs = c.timeout?.or r.timeoutMs := by
  cases c <;> rfl

theorem distinct_build {r : Request} (h : r.Distinct) (changes : List Change) :
    (r.build changes).Distinct := by
  induction changes generalizing r with
  | nil => exact h
  | cons c changes ih => exact ih (c.distinct_apply h)

/-- What no change touches stays. -/
theorem kept_build {β : Type} (field : Request → β)
    (hstep : ∀ r c, field (Change.apply r c) = field r) (r : Request) (changes : List Change) :
    field (r.build changes) = field r := by
  induction changes generalizing r with
  | nil => rfl
  | cons c changes ih => rw [build_cons, ih, hstep]

/-- What some changes set is what the last of them set it to, or what it was if there is none. -/
theorem set_build {β : Type} (field : Request → Option β) {f : Change → Option β}
    (hstep : ∀ r c, field (Change.apply r c) = (f c).or (field r)) (r : Request)
    (changes : List Change) :
    field (r.build changes) = (lastSaid f changes).or (field r) := by
  induction changes generalizing r with
  | nil => rfl
  | cons c changes ih => rw [build_cons, ih, hstep, lastSaid_cons, Option.or_assoc]

/-- A request that was put together has one header for each name, which says what was set last,
and each change leaves all that is not its own as it was. -/
theorem one_header_per_name (s : Start) (changes : List Change) :
    let r := s.request.build changes
    r.Distinct ∧
      (∀ name, r.header? name =
        (lastSaid (Change.valueOf? name) changes).or (firstValue? name)) ∧
      (∀ name value, (name, value) ∈ r.headers → r.header? name = some value) ∧
      r.method = s.method ∧
      r.path = s.path ∧
      r.body = (lastSaid Change.body? changes).or s.body? ∧
      r.timeoutMs = lastSaid Change.timeout? changes := by
  intro r
  have hdistinct : r.Distinct := distinct_build s.distinct changes
  have hmethod : r.method = s.request.method :=
    kept_build method Change.method_apply s.request changes
  have hpath : r.path = s.request.path :=
    kept_build path Change.path_apply s.request changes
  have hbody : r.body = (lastSaid Change.body? changes).or s.request.body :=
    set_build body Change.body_apply s.request changes
  have htimeout : r.timeoutMs = (lastSaid Change.timeout? changes).or s.request.timeoutMs :=
    set_build timeoutMs Change.timeoutMs_apply s.request changes
  refine ⟨hdistinct, fun name => ?_, fun _ _ => hdistinct.header?_of_mem, ?_, ?_, ?_, ?_⟩
  · rw [← s.header?]
    exact set_build (·.header? name) (Change.header?_apply · · name) s.request changes
  · rw [hmethod]; cases s <;> rfl
  · rw [hpath]; cases s <;> rfl
  · rw [hbody]; cases s <;> rfl
  · rw [htimeout]; cases s <;> exact Option.or_none

end ContentIndex.Engine.Request
