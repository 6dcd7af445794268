import ContentIndex.Proofs.Calendar.ReadBack
import ContentIndex.Proofs.Json.Records
import ContentIndex.Query.Results

/-
  Documents survive the engine. Every record of a document has a table of slots beside its table of
  fields: what is written of each field, and what reading that copies. The slots are sound and do
  not get in each other's way, so each record is read back as what it was written for, however the
  engine orders the members (`readsAs`); only the fractions of the four timestamps are lost. A hit
  that carries such a source under the id of its document is read as that (`documents_survive`).
-/

namespace ContentIndex

open Calendar (Moment)
open Json (Value Reader Tree ReadsAs Slot)

/-! ## Authors and terms -/

namespace AuthorRef

def slots (a : AuthorRef) : List (Slot AuthorRef) :=
  Slot.table fields [
    (some (.ofUInt64 a.id), fun b => { b with id := a.id }),
    (some (.string a.login), fun b => { b with login := a.login })]

theorem sound (a : AuthorRef) : ∀ s ∈ a.slots, s.Sound := by
  simp only [slots, Slot.table, fields, List.zipWith, List.forall_mem_cons]
  exact ⟨.of (.uint64 a.id), .optional (.of (.string a.login)), List.forall_mem_nil _⟩

theorem independent (a : AuthorRef) : Slot.Independent a.slots := by
  simp [Slot.Independent, slots, Slot.table, fields]

theorem readsAs (a : AuthorRef) : ReadsAs read a.toJson a :=
  show ReadsAs (Reader.record fields {}) (.object (Slot.members a.slots)) _ from
    Slot.readsAs_record rfl (by decide) a.sound a.independent

end AuthorRef

namespace TermRef

def slots (t : TermRef) : List (Slot TermRef) :=
  Slot.table fields [
    (some (.ofUInt64 t.id), fun u => { u with id := t.id }),
    (some (.string t.slug), fun u => { u with slug := t.slug }),
    (some (.string t.name), fun u => { u with name := t.name }),
    (some (.ofUInt64 t.parent), fun u => { u with parent := t.parent })]

theorem sound (t : TermRef) : ∀ s ∈ t.slots, s.Sound := by
  simp only [slots, Slot.table, fields, List.zipWith, List.forall_mem_cons]
  exact ⟨.spelled (.of (.uint64 t.id)), .of (.string t.slug), .of (.string t.name),
    .optional (.of (.uint64 t.parent)), List.forall_mem_nil _⟩

theorem independent (t : TermRef) : Slot.Independent t.slots := by
  simp [Slot.Independent, slots, Slot.table, fields]

theorem readsAs (t : TermRef) : ReadsAs read t.toJson t :=
  show ReadsAs (Reader.record fields {}) (.object (Slot.members t.slots)) _ from
    Slot.readsAs_record rfl (by decide) t.sound t.independent

end TermRef

/-! ## Calendar units and custom values -/

namespace DateTerms

def slots (d : DateTerms) : List (Slot DateTerms) :=
  Slot.table fields [
    (some (.ofInt d.year.toInt), fun e => { e with year := d.year }),
    (some (.ofNat d.month.toNat), fun e => { e with month := d.month }),
    (some (.ofNat d.week.toNat), fun e => { e with week := d.week }),
    (some (.ofNat d.dayOfYear.toNat), fun e => { e with dayOfYear := d.dayOfYear }),
    (some (.ofNat d.day.toNat), fun e => { e with day := d.day }),
    (some (.ofNat d.dayOfWeek.toNat), fun e => { e with dayOfWeek := d.dayOfWeek }),
    (some (.ofNat d.isoDayOfWeek.toNat), fun e => { e with isoDayOfWeek := d.isoDayOfWeek }),
    (some (.ofNat d.hour.toNat), fun e => { e with hour := d.hour }),
    (some (.ofNat d.minute.toNat), fun e => { e with minute := d.minute }),
    (some (.ofNat d.second.toNat), fun e => { e with second := d.second }),
    (some (.ofNat d.yearMonth.toNat), fun e => { e with yearMonth := d.yearMonth })]

theorem sound (d : DateTerms) : ∀ s ∈ d.slots, s.Sound := by
  simp only [slots, Slot.table, fields, List.zipWith, List.forall_mem_cons]
  exact ⟨.of (.int32 d.year), .of (.uint32 d.month), .of (.uint32 d.week),
    .of (.uint32 d.dayOfYear), .of (.uint32 d.day), .of (.uint32 d.dayOfWeek),
    .of (.uint32 d.isoDayOfWeek), .of (.uint32 d.hour), .of (.uint32 d.minute),
    .of (.uint32 d.second), .of (.uint32 d.yearMonth), List.forall_mem_nil _⟩

theorem independent (d : DateTerms) : Slot.Independent d.slots := by
  simp [Slot.Independent, slots, Slot.table, fields]

theorem readsAs (d : DateTerms) : ReadsAs read d.toJson d :=
  show ReadsAs (Reader.record fields {}) (.object (Slot.members d.slots)) _ from
    Slot.readsAs_record rfl (by decide) d.sound d.independent

end DateTerms

namespace MetaValue

def slots (m : MetaValue) : List (Slot MetaValue) :=
  Slot.table fields [
    (some (.string m.value), fun n => { n with value := m.value }),
    (some (.string m.raw), fun n => { n with raw := m.raw }),
    (m.long.map .ofInt64, fun n => { n with long := m.long.or n.long }),
    (m.double.map .ofDouble, fun n => { n with double := m.double.or n.double }),
    (m.boolean.map .bool, fun n => { n with boolean := m.boolean.or n.boolean }),
    (m.date.map .string, fun n => { n with date := m.date.or n.date }),
    (m.datetime.map .string, fun n => { n with datetime := m.datetime.or n.datetime }),
    (m.time.map .string, fun n => { n with time := m.time.or n.time })]

theorem toJson_eq_members (m : MetaValue) : m.toJson = .object (Slot.members m.slots) := by
  simp only [toJson, slots, Slot.table, fields, List.zipWith, Slot.members_cons, Slot.member?,
    Slot.members_nil, Option.map_map, Option.toList_map, Option.map_some, Option.toList_some,
    List.append_assoc, List.append_nil]
  rfl

/-- The real number of a value, if it has one, is a number and not infinite. -/
def Finite (m : MetaValue) : Prop := ∀ x ∈ m.double, x.isFinite = true

instance (m : MetaValue) : Decidable m.Finite :=
  inferInstanceAs (Decidable (∀ x ∈ m.double, x.isFinite = true))

theorem sound {m : MetaValue} (h : m.Finite) : ∀ s ∈ m.slots, s.Sound := by
  simp only [slots, Slot.table, fields, List.zipWith, List.forall_mem_cons]
  exact ⟨.of (.string m.value), .of (.string m.raw),
    .nullable rfl (fun n _ => .int64 n) fun _ => rfl,
    .nullable rfl (fun x hx => .double (h x hx)) fun _ => rfl,
    .nullable rfl (fun b _ => .bool b) fun _ => rfl,
    .nullable rfl (fun s _ => .string s) fun _ => rfl,
    .nullable rfl (fun s _ => .string s) fun _ => rfl,
    .nullable rfl (fun s _ => .string s) fun _ => rfl, List.forall_mem_nil _⟩

theorem independent (m : MetaValue) : Slot.Independent m.slots := by
  simp [Slot.Independent, slots, Slot.table, fields]

theorem readsAs {m : MetaValue} (h : m.Finite) : ReadsAs read m.toJson m := by
  have copied : m.slots.foldl (fun n s => s.copy n) {} = m := by
    simp [slots, Slot.table, fields]
  have record : ReadsAs (Reader.record fields {}) (.object (Slot.members m.slots)) _ :=
    Slot.readsAs_record rfl (by decide) (sound h) m.independent
  rwa [copied, ← toJson_eq_members] at record

end MetaValue

/-! ## Documents -/

/-- A map of lists is read entry by entry, and each entry item by item. -/
theorem readsAs_map {α : Type} {r : Reader α} {f : α → Value} {m : SortedMap (List α)}
    (h : ∀ e ∈ m.entries, ∀ x ∈ e.2, ReadsAs r (f x) x) :
    ReadsAs (readMap (.list r)) (.object (m.entries.map fun (k, l) => (k, .array (l.map f)))) m := by
  have entries := ReadsAs.members (f := fun l : List α => .array (l.map f))
    fun e he => .list (h e he)
  have whole {t : Tree} (ht : Reader.members (.list r) t = .ok m.entries) :
      readMap (.list r) t = .ok m := by
    rw [readMap, ht]
    exact congrArg Except.ok m.ofList_entries
  exact ⟨whole entries.written, whole entries.sorted⟩

theorem readsAs_moment (t : Moment) : ReadsAs readMoment (.string t.text) t.wholeSecond := by
  have read : readMoment (.string (some t.text)) = .ok t.wholeSecond := by
    simp only [readMoment, Reader.string, Reader.ofOption, bind, Except.bind, Moment.read?_text]
  exact ⟨read, read⟩

namespace Document

/-- All real numbers among the custom values are finite. -/
def Finite (d : Document) : Prop := ∀ e ∈ d.custom.entries, ∀ m ∈ e.2, MetaValue.Finite m

instance (d : Document) : Decidable d.Finite :=
  inferInstanceAs (Decidable (∀ e ∈ d.custom.entries, ∀ m ∈ e.2, MetaValue.Finite m))

def slots (d : Document) : List (Slot Document) :=
  Slot.table fields [
    (some (.ofUInt64 d.id), fun e => { e with id := d.id }),
    (some (.string d.type), fun e => { e with type := d.type }),
    (some (.string d.status), fun e => { e with status := d.status }),
    (some (.string d.mimeType), fun e => { e with mimeType := d.mimeType }),
    (some (.ofUInt64 d.parent), fun e => { e with parent := d.parent }),
    (d.author.map AuthorRef.toJson, fun e => { e with author := d.author.or e.author }),
    (some (.string d.date.text), fun e => { e with date := d.date.wholeSecond }),
    (some (.string d.dateGmt.text), fun e => { e with dateGmt := d.dateGmt.wholeSecond }),
    (some (.string d.modified.text), fun e => { e with modified := d.modified.wholeSecond }),
    (some (.string d.modifiedGmt.text),
      fun e => { e with modifiedGmt := d.modifiedGmt.wholeSecond }),
    (some (.string d.title), fun e => { e with title := d.title }),
    (some (.string d.excerpt), fun e => { e with excerpt := d.excerpt }),
    (some (.string d.content), fun e => { e with content := d.content }),
    (some (.string d.name), fun e => { e with name := d.name }),
    (some (.ofInt64 d.menuOrder), fun e => { e with menuOrder := d.menuOrder }),
    (some (.object (d.terms.entries.map fun (k, ts) => (k, .array (ts.map TermRef.toJson)))),
      fun e => { e with terms := d.terms }),
    (some (.object (d.custom.entries.map fun (k, vs) => (k, .array (vs.map MetaValue.toJson)))),
      fun e => { e with custom := d.custom }),
    (some d.dateTerms.toJson, fun e => { e with dateTerms := d.dateTerms })]

theorem toJson_eq_members (d : Document) : d.toJson = .object (Slot.members d.slots) := by
  cases h : d.author <;> simp only [toJson, slots, h] <;> rfl

theorem sound {d : Document} (h : d.Finite) : ∀ s ∈ d.slots, s.Sound := by
  simp only [slots, Slot.table, fields, List.zipWith, List.forall_mem_cons]
  exact ⟨.of (.uint64 d.id), .of (.string d.type), .of (.string d.status),
    .optional (.of (.string d.mimeType)), .optional (.of (.uint64 d.parent)),
    .nullable rfl (fun a _ => a.readsAs) fun _ => rfl,
    .of (readsAs_moment d.date), .of (readsAs_moment d.dateGmt),
    .of (readsAs_moment d.modified), .of (readsAs_moment d.modifiedGmt),
    .optional (.of (.string d.title)), .optional (.of (.string d.excerpt)),
    .optional (.of (.string d.content)), .optional (.of (.string d.name)),
    .optional (.of (.int64 d.menuOrder)),
    .optional (.of (readsAs_map fun _ _ t _ => t.readsAs)),
    .optional (.of (readsAs_map fun e he m hm => MetaValue.readsAs (h e he m hm))),
    .optional (.of d.dateTerms.readsAs), List.forall_mem_nil _⟩

theorem independent (d : Document) : Slot.Independent d.slots := by
  simp [Slot.Independent, slots, Slot.table, fields]

/-- A document is read back with whole seconds in its timestamps. -/
theorem readsAs {d : Document} (h : d.Finite) : ReadsAs read d.toJson d.wholeSeconds := by
  have copied (blank : Document) (hb : blank.author = none) :
      d.slots.foldl (fun e s => s.copy e) blank = d.wholeSeconds := by
    simp [slots, Slot.table, fields, wholeSeconds, hb]
  have record (blank : Document) :
      ReadsAs (Reader.record fields blank) (.object (Slot.members d.slots)) _ :=
    Slot.readsAs_record rfl (by decide) (sound h) d.independent
  rw [toJson_eq_members, ← copied { new 0 "" Moment.epoch with status := "", dateTerms := {} } rfl]
  exact record _

/-- Fractions of seconds are not written. -/
theorem toJson_wholeSeconds (d : Document) : d.wholeSeconds.toJson = d.toJson := by
  simp only [toJson, wholeSeconds, Moment.text_wholeSecond]

end Document

/-! ## Hits -/

namespace Query

open Number (natText uint64?_natText)

/-- A hit with a document as its source, under the id of the document as a number or a text. -/
structure Carries (hit : Value) (d : Document) : Prop where
  source : hit.get? "_source" = some d.toJson.canonical
  named : hit.get? "_id" = some (.ofUInt64 d.id) ∨
    hit.get? "_id" = some (.string (natText d.id.toNat))

/-- Such a hit is read as its id and its document. -/
theorem Carries.read? {hit : Value} {d : Document} (h : Carries hit d) (finite : d.Finite) :
    ∃ found, SearchHit.read? hit = some found ∧ found.id = d.id ∧
      found.document = some d.wholeSeconds := by
  have id : (hit.get? "_id").bind readId? = some d.id := by
    rcases h.named with number | text
    · rw [number]
      exact Json.Number.uint64?_ofUInt64 d.id
    · rw [text]
      exact uint64?_natText d.id
  have document : (Document.read (Tree.ofValue d.toJson.canonical)).toOption =
      some d.wholeSeconds := by
    rw [(Document.readsAs finite).sorted]
    rfl
  simp only [SearchHit.read?, id, h.source, Option.some_or, Option.map_some, Option.bind_some,
    document]
  exact ⟨_, rfl, rfl, rfl⟩

/-- The hits of an answer are read one by one. -/
theorem hits_of_forall₂ {items : List Value} {ds : List Document}
    (h : List.Forall₂ Carries items ds) (finite : ∀ d ∈ ds, d.Finite) :
    (items.filterMap SearchHit.read?).map (fun found => (found.id, found.document)) =
      ds.map fun d => (d.id, some d.wholeSeconds) := by
  induction h with
  | nil => rfl
  | cons first _ ih =>
    obtain ⟨found, read, id, document⟩ := first.read? (finite _ List.mem_cons_self)
    rw [List.filterMap_cons_some read, List.map_cons, List.map_cons, id, document,
      ih fun d hd => finite d (List.mem_cons_of_mem _ hd)]

/-- Documents whose real numbers are finite. Each is read from what it is written as, in the order
of its fields or in that of their names, with whole seconds in its timestamps; what was read is
written just the same. An answer whose hits carry these documents is read as hits with their ids,
in this order, each with its document. -/
theorem documents_survive {ds : List Document} (finite : ∀ d ∈ ds, d.Finite) :
    (∀ d ∈ ds, Document.read (Tree.ofValue d.toJson) = .ok d.wholeSeconds ∧
      Document.read (Tree.ofValue d.toJson.canonical) = .ok d.wholeSeconds ∧
      d.wholeSeconds.toJson = d.toJson) ∧
    ∀ body items, (body.get? "hits").bind (·.get? "hits") = some (.array items) →
      List.Forall₂ Carries items ds →
      (SearchResults.read body).hits.map (fun found => (found.id, found.document)) =
        ds.map fun d => (d.id, some d.wholeSeconds) := by
  constructor
  · intro d hd
    have back := Document.readsAs (finite d hd)
    exact ⟨back.written, back.sorted, d.toJson_wholeSeconds⟩
  · intro body items hits carried
    have listed : (((body.get? "hits").bind (·.get? "hits")).bind Value.items?).getD [] =
        items := by
      rw [hits]
      rfl
    simp only [SearchResults.read, listed]
    exact hits_of_forall₂ carried finite

/-- A document of a leap second, in a year of five digits, with an author and a real number. -/
def farDocument : Document :=
  { Document.new 42 "post" ⟨⟨12016, 11, 30, by decide, by decide, by decide⟩, 86339, 1500000000,
      by decide, by decide, by decide⟩ with
    author := some ⟨3, "editor"⟩
    terms := .ofList [("category", [⟨7, "news", "News", 0⟩])]
    custom := .ofList [("price", [{ value := "0", raw := "0", double := some .zero }])] }

/-- The document and a second one, whose ids the answer gives as a text and as a number. -/
def farAnswer : Value :=
  .object [("hits", .object [("hits", .array [
    .object [("_id", .string "42"), ("_source", farDocument.toJson.canonical)],
    .object [("_id", .ofUInt64 7), ("_source", (Document.new 7 "page" .epoch).toJson.canonical)]])])]

theorem documents_survive_far :
    (SearchResults.read farAnswer).hits.map (fun found => (found.id, found.document)) =
      [(42, some farDocument.wholeSeconds), (7, some (Document.new 7 "page" .epoch))] := by
  have finite : ∀ d ∈ [farDocument, .new 7 "page" .epoch], d.Finite := by
    decide
  exact (documents_survive finite).2 farAnswer _ rfl
    (.cons ⟨rfl, .inr rfl⟩ (.cons ⟨rfl, .inl rfl⟩ .nil))

end Query
end ContentIndex
