import ContentIndex.Proofs.Rebuild.Sections

/-
  What a rebuild leaves in the indices. For each scope the index holds exactly the documents that
  the engine took of the items of the listing, each with the source of the prepared document;
  every other index is as it was before (`rebuild_fills`). The sections of the rebuild are on
  different indices, so each index depends on its own section alone, and there on the exchanges
  behind its creation.
-/

namespace ContentIndex

open Bulk (Attempt Delivery Entry)
open Engine (pairOf)

/-! ## The indices of the scopes -/

theorem Config.indexForScope_injective (c : Config) {a b : String}
    (h : c.indexForScope (some a) = c.indexForScope (some b)) : a = b := by
  have longer (s : String) : c.indexName ≠ c.indexName ++ "-" ++ s := by
    intro he
    have hl := congrArg String.length he
    simp only [String.length_append] at hl
    have : "-".length = 1 := rfl
    omega
  unfold indexForScope at h
  by_cases ha : a = "" <;> by_cases hb : b = ""
  · rw [ha, hb]
  · simp only [ha, hb, if_true, if_false] at h
    exact absurd h (longer b)
  · simp only [ha, hb, if_true, if_false] at h
    exact absurd h.symm (longer a)
  · simp only [ha, hb, if_false] at h
    have ht := congrArg String.toList h
    simp only [String.toList_append] at ht
    exact String.toList_inj.mp (List.append_cancel_left ht)

/-- Different scopes have different indices. -/
theorem indices_nodup (c : Config) {scopes : List String} (h : scopes.Nodup) :
    ((targets scopes).map c.indexForScope).Nodup := by
  unfold targets
  split
  · exact List.nodup_singleton _
  · rw [List.map_map]
    exact h.map fun a b he => c.indexForScope_injective he

/-! ## Documents of items -/

/-- Entries of documents with a property are the entries of a list of such documents. -/
theorem exists_documents {S : Document → Prop} {entries : List Entry}
    (h : ∀ e ∈ entries, ∃ d, Entry.ofDocument d = e ∧ S d) :
    ∃ ds : List Document, ds.map Entry.ofDocument = entries ∧ ∀ d ∈ ds, S d := by
  induction entries with
  | nil => exact ⟨[], rfl, fun d hd => (List.not_mem_nil hd).elim⟩
  | cons e entries ih =>
    obtain ⟨⟨d, hd, hs⟩, h⟩ := List.forall_mem_cons.mp h
    obtain ⟨ds, hds, hS⟩ := ih h
    exact ⟨d :: ds, by rw [List.map_cons, hd, hds], List.forall_mem_cons.mpr ⟨hs, hS⟩⟩

/-- The answers of a content store whose items do not change. -/
abbrev Items := UInt64 → Except ContentError (Option Document)

namespace Indexer

variable {x : Indexer} {L : Listing} {P : Items} {p : Section x}

/-- An item is to be in the index with a source: it has a document, and no hook leaves it out. -/
def Wants (x : Indexer) (P : Items) (id : UInt64) (src : String) : Prop :=
  ∃ d, P id = .ok (some d) ∧ x.hooks.skips d = false ∧ src = (x.hooks.prepare d).toJson.render

/-- The source of an item that is to be in the index. -/
def sourceOf (x : Indexer) (P : Items) (id : UInt64) : String :=
  match P id with
  | .ok (some d) => (x.hooks.prepare d).toJson.render
  | _ => ""

theorem Wants.source {id : UInt64} {src : String} (h : x.Wants P id src) :
    src = x.sourceOf P id := by
  obtain ⟨d, hd, -, rfl⟩ := h
  unfold sourceOf
  rw [hd]

/-- A bulk request on the index of a scope. -/
def IsBulk (x : Indexer) (s : Option String) (e : Exchange) : Prop :=
  e.request.method = .post ∧ e.request.path = (x.pathsFor s).bulk

theorem IsBulk.isOn {s : Option String} {e : Exchange} (h : x.IsBulk s e) :
    e.request.isOn x.config.usesMappingTypes (x.config.indexForScope s) = true := by
  unfold Engine.Request.isOn
  rw [h.1]
  exact beq_iff_eq.mpr h.2

theorem isBulk_exchange (s : Option String) (t : Attempt) :
    x.IsBulk s (x.exchange (x.pathsFor s) t) :=
  ⟨rfl, rfl⟩

/-! ## One section -/

/-- Items keep their ids, and the store answers for them as it always does. -/
structure Steady (x : Indexer) (P : Items) (fs : List Fetch) : Prop where
  items : ∀ f ∈ fs, f.answer = P f.id
  ids : ∀ id d, P id = .ok (some d) → (x.hooks.prepare d).id = id

/-- The documents of the entries that a section has delivered. -/
theorem document_of_entry (hc : p.Covers L []) (hP : x.Steady P p.fetched)
    {d : Delivery x.config.bulkMaxAttempts.toNat} (hd : d ∈ p.deliveries) {e : Entry}
    (he : e ∈ d.entries) :
    ∃ doc, Entry.ofDocument doc = e ∧ doc.id ∈ L p.scope ∧
      x.Wants P doc.id doc.toJson.render := by
  have hm : e ∈ p.deliveries.flatMap (·.entries) := List.mem_flatMap.mpr ⟨d, hd, he⟩
  rw [← hc.handed] at hm
  obtain ⟨f, hf, hfe⟩ := List.mem_filterMap.mp hm
  have answer := hP.items f hf
  unfold Fetch.handed? at hfe
  rw [answer] at hfe
  cases hp : P f.id with
  | error e => rw [hp] at hfe; cases hfe
  | ok o =>
    rw [hp] at hfe
    cases o with
    | none => cases hfe
    | some doc =>
      cases hs : x.hooks.skips doc with
      | true => simp only [hs, if_true] at hfe; cases hfe
      | false =>
        simp only [hs, Bool.false_eq_true, if_false] at hfe
        have hid := hP.ids f.id doc hp
        refine ⟨x.hooks.prepare doc, Option.some.inj hfe, ?_, doc, ?_, hs, rfl⟩
        · rw [hid]
          exact hc.listed f hf
        · rw [hid, hp]

/-- What the attempts at a delivery submit is to be in the index. -/
theorem wants_of_submitted (hc : p.Covers L []) (hP : x.Steady P p.fetched)
    {d : Delivery x.config.bulkMaxAttempts.toNat} (hd : d ∈ p.deliveries) {t : Attempt}
    (ht : t ∈ d.attempts) {q : UInt64 × String}
    (hq : q ∈ (x.exchange (x.pathsFor p.scope) t).submitted) :
    q.1 ∈ L p.scope ∧ x.Wants P q.1 q.2 := by
  have carried : ∀ e ∈ t.entries, ∃ doc, Entry.ofDocument doc = e ∧
      doc.id ∈ L p.scope ∧ x.Wants P doc.id doc.toJson.render := by
    intro e he
    exact document_of_entry hc hP hd (d.entries_of_attempt ht he)
  obtain ⟨docs, hdocs, hS⟩ := exists_documents carried
  change q ∈ Engine.submitted (Bulk.body t.entries) at hq
  rw [← hdocs, Engine.submitted_body] at hq
  obtain ⟨doc, hdoc, rfl⟩ := List.mem_map.mp hq
  exact hS doc hdoc

theorem mem_bulks {e : Exchange} : e ∈ p.bulks ↔
    ∃ d ∈ p.deliveries, ∃ t ∈ d.attempts, x.exchange (x.pathsFor p.scope) t = e := by
  unfold Section.bulks
  simp only [List.mem_flatMap, List.mem_map]

theorem isBulk_of_mem_bulks {e : Exchange} (he : e ∈ p.bulks) : x.IsBulk p.scope e := by
  obtain ⟨d, -, t, -, rfl⟩ := mem_bulks.mp he
  exact isBulk_exchange p.scope t

/-- All exchanges of a section are on the index of its scope. -/
theorem isOn_of_mem_exchanges (hc : p.Covers L []) {e : Exchange} (he : e ∈ p.exchanges) :
    e.request.isOn x.config.usesMappingTypes (x.config.indexForScope p.scope) = true := by
  rcases List.mem_append.mp he with he | he
  · exact hc.opens.on e he
  · exact (isBulk_of_mem_bulks he).isOn

/-- Among the exchanges of a section the bulk requests are those of its deliveries. -/
theorem mem_bulks_of_isBulk (hc : p.Covers L []) {e : Exchange} (he : e ∈ p.exchanges)
    (hb : x.IsBulk p.scope e) : e ∈ p.bulks := by
  rcases List.mem_append.mp he with he | he
  · exact absurd hb.1 (hc.opens.bulkless e he)
  · exact he

/-- After a section its index holds what the engine took of it. -/
theorem after_section (hc : p.Covers L []) (hP : x.Steady P p.fetched) (I : Indices) :
    ∃ docs, I.after x.config.usesMappingTypes p.exchanges (x.config.indexForScope p.scope) =
        some docs ∧
      docs.Hold (x.sourceOf P) fun id => ∃ e ∈ p.bulks, id ∈ e.taken.map (·.1) := by
  unfold Section.exchanges
  rw [Indices.after_append]
  have bulk : ∀ e ∈ p.bulks, e.request.method = .post ∧
      e.request.isOn x.config.usesMappingTypes (x.config.indexForScope p.scope) = true :=
    fun e he => ⟨(isBulk_of_mem_bulks he).1, (isBulk_of_mem_bulks he).isOn⟩
  have own : ∀ e ∈ p.bulks, ∀ q ∈ e.submitted, q.2 = x.sourceOf P q.1 := by
    intro e he q hq
    obtain ⟨d, hd, t, ht, rfl⟩ := mem_bulks.mp he
    exact (wants_of_submitted hc hP hd ht hq).2.source
  obtain ⟨docs, hd, hold⟩ :=
    Indices.after_posts (hc.opens.empty I) (Docs.Hold.empty (x.sourceOf P)) bulk own
  exact ⟨docs, hd, hold.congr fun id => or_iff_right not_false⟩

/-- Every item that is to be in the index is submitted. -/
theorem submitted_of_wants (hc : p.Covers L []) (hP : x.Steady P p.fetched) {id : UInt64}
    {src : String} (hid : id ∈ L p.scope) (hw : x.Wants P id src) :
    ∃ e ∈ p.bulks, (id, src) ∈ e.submitted := by
  have source := hw.source
  obtain ⟨d, hd, hs, -⟩ := hw
  obtain ⟨f, hf, rfl⟩ := List.mem_map.mp ((hc.covered id hid).resolve_right List.not_mem_nil)
  have entry : f.handed? x.hooks = some (.ofDocument (x.hooks.prepare d)) := by
    unfold Fetch.handed?
    rw [hP.items f hf, hd]
    simp only [hs, Bool.false_eq_true, if_false]
  have handed : Entry.ofDocument (x.hooks.prepare d) ∈ p.deliveries.flatMap (·.entries) := by
    rw [← hc.handed]
    exact List.mem_filterMap.mpr ⟨f, hf, entry⟩
  obtain ⟨b, hb, he⟩ := List.mem_flatMap.mp handed
  obtain ⟨t, ht, hte⟩ := b.retried.first
  have ht := List.mem_of_mem_head? ht
  refine ⟨_, mem_bulks.mpr ⟨b, hb, t, ht, rfl⟩, ?_⟩
  -- The first attempt carries the entry; its document is known by id and by source.
  obtain ⟨docs, hdocs, -⟩ := exists_documents (S := fun _ => True) fun e he' =>
    (document_of_entry hc hP hb (hte ▸ he' : e ∈ b.entries)).imp fun _ h => ⟨h.1, trivial⟩
  have submitted : (x.exchange (x.pathsFor p.scope) t).submitted = docs.map pairOf := by
    show Engine.submitted (Bulk.body t.entries) = _
    rw [← hdocs, Engine.submitted_body]
  rw [← hte, ← hdocs] at he
  obtain ⟨doc, hdoc, heq⟩ := List.mem_map.mp he
  have hm : pairOf doc ∈ (x.exchange (x.pathsFor p.scope) t).submitted := by
    rw [submitted]
    exact List.mem_map_of_mem hdoc
  have hid' : doc.id = f.id := by
    rw [← hP.ids f.id d hd]
    exact congrArg Entry.id heq
  have hsrc : doc.toJson.render = src := by
    rw [source, ← hid']
    exact (wants_of_submitted hc hP hb ht hm).2.source
  rw [← hid', ← hsrc]
  exact hm

/-! ## All sections -/

variable {scopes : List String} {qs : List (Section x)} {q r : Section x}

/-- The exchanges of a section are on no other index. -/
theorem isOn_elsewhere (hc : q.Covers L []) {index : String}
    (h : index ≠ x.config.indexForScope q.scope) {e : Exchange} (he : e ∈ q.exchanges) :
    e.request.isOn x.config.usesMappingTypes index = false := by
  cases ho : e.request.isOn x.config.usesMappingTypes index with
  | false => rfl
  | true => exact absurd (Engine.Request.isOn_unique ho (isOn_of_mem_exchanges hc he)) h

theorem indices_of_sections (whole : Whole L scopes qs) (distinct : scopes.Nodup) :
    (qs.map fun q => x.config.indexForScope q.scope).Nodup := by
  have h := indices_nodup x.config distinct
  rw [← whole.order, List.map_map] at h
  exact h

/-- An index of a scope depends on the section of the scope alone. -/
theorem after_sections (whole : Whole L scopes qs) (distinct : scopes.Nodup) (hq : q ∈ qs)
    (hP : x.Steady P q.fetched) (I : Indices) :
    ∃ docs, I.after x.config.usesMappingTypes (qs.flatMap Section.exchanges)
        (x.config.indexForScope q.scope) = some docs ∧
      docs.Hold (x.sourceOf P) fun id => ∃ e ∈ q.bulks, id ∈ e.taken.map (·.1) := by
  obtain ⟨as, bs, rfl⟩ := List.append_of_mem hq
  have nodup := indices_of_sections whole distinct
  rw [List.map_append, List.map_cons, List.nodup_append] at nodup
  obtain ⟨-, behind, -⟩ := nodup
  have later : ∀ e ∈ bs.flatMap Section.exchanges,
      e.request.isOn x.config.usesMappingTypes (x.config.indexForScope q.scope) = false := by
    intro e he
    obtain ⟨r, hr, he⟩ := List.mem_flatMap.mp he
    have hc := whole.complete r (List.mem_append_right _ (List.mem_cons_of_mem q hr))
    refine isOn_elsewhere hc (fun hi => ?_) he
    exact (List.nodup_cons.mp behind).1 (List.mem_map.mpr ⟨r, hr, hi.symm⟩)
  rw [List.flatMap_append, List.flatMap_cons, Indices.after_append, Indices.after_append,
    Indices.after_of_not_on later]
  exact after_section (whole.complete q hq) hP _

/-- What a rebuild that began anew leaves when it ends: the index of each scope holds exactly what
the engine took of the items that are to be in it, all of which were submitted; the other indices
are as they were. -/
theorem rebuild_fills (x : Indexer) (limit : Nat) {scopes : List String}
    (distinct : scopes.Nodup) (L : Listing) (P : Items) {t t' : Option String}
    {es : List (Event surroundings)} {sm : Summary} (fresh : IndexState.NoRun t)
    (run : x.Runs (x.rebuild limit scopes) t es (.ok (some sm)) t') (lists : L.Answers es)
    (steady : x.Steady P (fetches es)) (I : Indices) :
    (∀ s ∈ targets scopes, ∃ docs,
      I.after x.config.usesMappingTypes (exchanges es) (x.config.indexForScope s) = some docs ∧
      (∀ id src, docs id = some src ↔ id ∈ L s ∧ x.Wants P id src ∧
        ∃ e ∈ exchanges es, x.IsBulk s e ∧ (id, src) ∈ e.taken) ∧
      ∀ id ∈ L s, ∀ src, x.Wants P id src →
        ∃ e ∈ exchanges es, x.IsBulk s e ∧ (id, src) ∈ e.submitted) ∧
    ∀ index, (∀ s ∈ targets scopes, index ≠ x.config.indexForScope s) →
      I.after x.config.usesMappingTypes (exchanges es) index = I index := by
  obtain ⟨qs, whole, hx, hf⟩ := rebuild_sections fresh lists run
  rw [← hx]
  refine ⟨fun s hs => ?_, fun index hindex => ?_⟩
  · rw [← whole.order] at hs
    obtain ⟨q, hq, rfl⟩ := List.mem_map.mp hs
    have hc := whole.complete q hq
    have hP : x.Steady P q.fetched := by
      refine ⟨fun f hm => steady.items f ?_, steady.ids⟩
      rw [← hf]
      exact List.mem_flatMap.mpr ⟨q, hq, hm⟩
    have within {e : Exchange} (he : e ∈ q.bulks) : e ∈ qs.flatMap Section.exchanges :=
      List.mem_flatMap.mpr ⟨q, hq, List.mem_append_right _ he⟩
    obtain ⟨docs, hd, hold⟩ := after_sections whole distinct hq hP I
    refine ⟨docs, hd, fun id src => ?_, fun id hid src hw => ?_⟩
    · rw [hold id src]
      constructor
      · rintro ⟨rfl, e, he, hid⟩
        obtain ⟨⟨id', src⟩, hm, rfl⟩ := List.mem_map.mp hid
        obtain ⟨d, hd, t, ht, rfl⟩ := mem_bulks.mp he
        obtain ⟨hl, hw⟩ := wants_of_submitted hc hP hd ht (Exchange.submitted_of_taken hm)
        rw [← hw.source]
        exact ⟨hl, hw, _, within he, isBulk_of_mem_bulks he, hm⟩
      · rintro ⟨-, hw, e, he, hb, hm⟩
        obtain ⟨r, hr, he⟩ := List.mem_flatMap.mp he
        have same : r = q := by
          refine List.inj_on_of_nodup_map (indices_of_sections whole distinct) hr hq ?_
          exact Engine.Request.isOn_unique
            (isOn_of_mem_exchanges (whole.complete r hr) he) hb.isOn
        subst same
        exact ⟨hw.source, e, mem_bulks_of_isBulk hc he hb, List.mem_map_of_mem hm⟩
    · obtain ⟨e, he, hm⟩ := submitted_of_wants hc hP hid hw
      exact ⟨e, within he, isBulk_of_mem_bulks he, hm⟩
  · refine Indices.after_of_not_on fun e he => ?_
    obtain ⟨q, hq, he⟩ := List.mem_flatMap.mp he
    refine isOn_elsewhere (whole.complete q hq) (hindex q.scope ?_) he
    rw [← whole.order]
    exact List.mem_map_of_mem hq

end Indexer

/-! ## Worlds -/

/-- An item is found under its own id. -/
theorem Catalogue.id_of_find? {c : Catalogue} {id : UInt64} {d : Document}
    (h : c.find? id = .ok (some d)) : d.id = id := by
  unfold find? at h
  split at h
  · cases h
  · have found := List.find?_some (Except.ok.inj h)
    exact beq_iff_eq.mp found

namespace World

variable {E : Type} {engine : EngineModel E}

theorem answers_events {α : Type} (a : Action α) (w : World E)
    (h : ∀ r w, (engine r w).2.catalogue = w.catalogue) :
    Listing.Answers w.catalogue.listing (w.events engine a) :=
  lists_events a.run w h

/-- Items are fetched as the catalogue has them. -/
theorem fetches_events {α : Type} (a : Action α) (w : World E)
    (h : ∀ r w, (engine r w).2.catalogue = w.catalogue) :
    ∀ f ∈ fetches (w.events engine a), f.answer = w.catalogue.find? f.id := by
  have each (c : IndexerCall) (w' : World E) (hw : w'.catalogue = w.catalogue) :
      (∀ f, Event.fetch? ⟨c, (w'.handle engine c).1⟩ = some f →
        f.answer = w.catalogue.find? f.id) ∧ (w'.handle engine c).2.catalogue = w.catalogue := by
    refine ⟨fun f hf => ?_, (catalogue_handle h c w').trans hw⟩
    rw [← hw]
    cases c with
    | content c =>
      cases c with
      | prepare id => cases hf; rfl
      | _ => cases hf
    | _ => cases hf
  intro f hf
  obtain ⟨e, he, hf⟩ := List.mem_filterMap.mp hf
  exact Program.forall_trace (fun e => ∀ f, e.fetch? = some f → f.answer = w.catalogue.find? f.id)
    (fun w' : World E => w'.catalogue = w.catalogue) each a.run rfl e he f hf

/-- An engine that always gives one answer gives it in each exchange. -/
theorem exchanges_events {α : Type} (a : Action α) (w : World E)
    {answer : Except Engine.TransportError Engine.Response} (h : ∀ r w, (engine r w).1 = answer) :
    ∀ e ∈ exchanges (w.events engine a), e.answer = answer := by
  have each (c : IndexerCall) (w' : World E) (_ : True) :
      (∀ e, Event.exchange? ⟨c, (w'.handle engine c).1⟩ = some e → e.answer = answer) ∧ True := by
    refine ⟨fun e he => ?_, trivial⟩
    cases c with
    | engine r => cases he; exact h r _
    | _ => cases he
  intro e he
  obtain ⟨ev, hm, he⟩ := List.mem_filterMap.mp he
  exact Program.forall_trace (fun ev => ∀ e, ev.exchange? = some e → e.answer = answer)
    (fun _ : World E => True) each a.run trivial ev hm e he

/-- The answer of an engine that has stored item 5. -/
def stored : Engine.Response where
  status := 200
  body := "\x7b\"items\":[\x7b\"index\":\x7b\"_id\":\"5\",\"status\":201\x7d\x7d]\x7d"

/-- An engine that answers each request with that. -/
def storing : EngineModel Unit := fun _ w => (.ok stored, w)

def post : Document := .new 5 "post" Calendar.Moment.epoch

/-- A world with a scope of one item. -/
def onePost : World Unit :=
  { engine := (), catalogue := { documents := [post], scopes := SortedMap.insert ∅ "a" [5] } }

/-- The cursor before the page of the scope. -/
def postPage : Cursor := .start (runId 0) Calendar.Moment.epoch ["a"] 1

/-- The rebuild of the scope ends in the step after the one for its page. -/
theorem rebuild_onePost : (onePost.perform storing (plain.rebuild 1 ["a"])).1 =
    .ok (some ⟨runId 0, 1, 0⟩) := by
  have known (x : Indexer) :=
    x.loadState_eq_loadAmong [.running (postPage.advance 350 1 0), .running postPage]
  unfold Indexer.rebuild Indexer.rebuildFrom
  simp only [Indexer.rebuildStep, Indexer.continueRebuild, Indexer.advance,
    Indexer.completeScope, Indexer.persist, Indexer.requireRun, known]
  decide +kernel

end World

/-- A rebuild of the scope leaves the item in its index, and nothing of what was there. -/
theorem Indexer.rebuild_fills_one_post :
    ∃ docs, Indices.after World.plain.config.usesMappingTypes (fun _ => some fun _ => some "old")
        (exchanges (World.onePost.events World.storing (World.plain.rebuild 1 ["a"])))
        (World.plain.config.indexForScope (some "a")) = some docs ∧
      ∀ id src, docs id = some src ↔ id = 5 ∧ src = World.post.toJson.render := by
  have listing : World.onePost.catalogue.listing (some "a") = [5] := by decide +kernel
  have takes : World.stored.takes 5 = true := by decide +kernel
  have run := @World.perform_runs _ World.storing World.plain _ (World.plain.rebuild 1 ["a"])
    World.onePost fun _ _ => rfl
  rw [World.rebuild_onePost] at run
  have fresh : IndexState.NoRun (World.onePost.record World.plain.keys.state) := by
    intro s hs
    cases hs
    rfl
  have lists : Listing.Answers World.onePost.catalogue.listing
      (World.onePost.events World.storing (World.plain.rebuild 1 ["a"])) :=
    World.answers_events (World.plain.rebuild 1 ["a"]) World.onePost fun _ _ => rfl
  have steady : World.plain.Steady World.onePost.catalogue.find?
      (fetches (World.onePost.events World.storing (World.plain.rebuild 1 ["a"]))) :=
    ⟨World.fetches_events (World.plain.rebuild 1 ["a"]) World.onePost fun _ _ => rfl,
      fun _ _ => Catalogue.id_of_find?⟩
  obtain ⟨docs, hd, hold, sent⟩ := (rebuild_fills World.plain 1 (List.nodup_singleton "a")
    World.onePost.catalogue.listing World.onePost.catalogue.find? fresh run lists steady
    fun _ => some fun _ => some "old").1 (some "a") (List.mem_singleton_self _)
  rw [listing] at hold sent
  have wants : World.plain.Wants World.onePost.catalogue.find? 5 World.post.toJson.render :=
    ⟨World.post, rfl, rfl, rfl⟩
  refine ⟨docs, hd, fun id src => ?_⟩
  rw [hold id src]
  constructor
  · rintro ⟨hid, hw, -⟩
    rw [List.mem_singleton] at hid
    subst hid
    exact ⟨rfl, hw.source.trans wants.source.symm⟩
  · rintro ⟨rfl, rfl⟩
    obtain ⟨e, he, hb, hm⟩ := sent 5 (List.mem_singleton_self 5) _ wants
    refine ⟨List.mem_singleton_self 5, wants, e, he, hb, ?_⟩
    have answer : e.answer = .ok World.stored :=
      @World.exchanges_events _ World.storing _ (World.plain.rebuild 1 ["a"]) World.onePost _
        (fun _ _ => rfl) e he
    unfold Exchange.taken Exchange.success?
    rw [answer]
    exact List.mem_filter.mpr ⟨hm, takes⟩

end ContentIndex
