import ContentIndex.Proofs.Query.Clock

/-
  Which parts of a request have an influence on which parts of its search body. A request has two
  faces: how its results are scored, ordered and cut into pages, and which items belong to them.
  Two requests that agree on the first are compiled to the same query, order and page, whatever
  they filter by and whoever asks (`compile_congr`, first part). Two that agree on the second are
  compiled to the same filter for the same caller, whatever they search for and however they
  are sorted and paged (second part). There are no hooks here: a hook may change anything.
-/

namespace ContentIndex.Query

open Calendar (Moment)

/-- Two requests ask for the same relevance, order and page. -/
structure SameRanking (r r' : Request) : Prop where
  search : r.search = r'.search
  searchFields : r.searchFields = r'.searchFields
  matchAll : r.matchAll = r'.matchAll
  sortKeys : r.sortKeys = r'.sortKeys
  order : r.order = r'.order
  metaKey : r.metaKey = r'.metaKey
  pageSize : r.pageSize = r'.pageSize
  offset : r.offset = r'.offset
  page : r.page = r'.page

/-- Two requests ask for the same items. -/
structure SameItems (r r' : Request) : Prop where
  type : r.type = r'.type
  status : r.status = r'.status
  mimeType : r.mimeType = r'.mimeType
  taxQuery : r.taxQuery = r'.taxQuery
  categories : r.categories = r'.categories
  tags : r.tags = r'.tags
  metaQuery : r.metaQuery = r'.metaQuery
  dateQuery : r.dateQuery = r'.dateQuery
  ids : r.ids = r'.ids
  excludedIds : r.excludedIds = r'.excludedIds
  parent : r.parent = r'.parent
  authors : r.authors = r'.authors
  excludedAuthors : r.excludedAuthors = r'.excludedAuthors
  names : r.names = r'.names

variable {r r' : Request}

/-! ## Relevance, order and page -/

namespace SameRanking

theorem searchTerm?_eq (h : SameRanking r r') : r.searchTerm? = r'.searchTerm? := by
  rw [Request.searchTerm?, Request.searchTerm?, h.search]

theorem textQuery_eq (h : SameRanking r r') (c : Config) : textQuery c r = textQuery c r' := by
  rw [textQuery, textQuery, h.searchTerm?_eq, h.searchFields, h.matchAll]

theorem sortPlan_eq (h : SameRanking r r') : r.sortPlan = r'.sortPlan := by
  rw [Request.sortPlan, Request.sortPlan, h.searchTerm?_eq, h.sortKeys, h.order, h.metaKey]

theorem size_eq (h : SameRanking r r') (c : Config) : r.size c = r'.size c := by
  rw [Request.size, Request.size, h.pageSize]

theorem start_eq (h : SameRanking r r') (size : UInt64) : r.start size = r'.start size := by
  rw [Request.start, Request.start, h.offset, h.page]

end SameRanking

/-! ## The filter -/

/-- Requests for the same items have the same filter for the same caller. -/
theorem SameItems.membership_eq (h : SameItems r r') (c : Config) (privileged : Bool)
    (now : Moment) : r.membership c privileged now = r'.membership c privileged now := by
  dsimp only [Request.membership]
  rw [h.type, h.status, h.mimeType, h.taxQuery, h.categories, h.tags, h.metaQuery,
    h.dateQuery, h.ids, h.excludedIds, h.parent, h.authors, h.excludedAuthors, h.names]

/-- What a request filters by has no influence on the relevance, the order and the page of its
results, and these have none on the filter. -/
theorem compile_congr (c : Config) (r r' : Request) (privileged privileged' : Bool)
    (now now' : Moment) :
    let q := compile c [] r privileged now
    let q' := compile c [] r' privileged' now'
    (SameRanking r r' →
      q.query = q'.query ∧ q.sort = q'.sort ∧ q.start = q'.start ∧ q.size = q'.size) ∧
    (SameItems r r' → privileged = privileged' → r.isTimeless = true →
      q.postFilter = q'.postFilter) := by
  intro q q'
  constructor
  · intro h
    have hsize := h.size_eq c
    have hstart : q.start = q'.start := by
      show r.start (r.size c) = r'.start (r'.size c)
      rw [hsize, h.start_eq]
    have hscored : (q.query, q.sort) = (q'.query, q'.sort) := by
      simp only [q, q', compile, Hooks.adjust, List.foldl_nil, h.textQuery_eq, h.sortPlan_eq]
    rw [Prod.mk.injEq] at hscored
    exact ⟨hscored.1, hscored.2, hstart, hsize⟩
  · rintro h rfl timeless
    have hmembership : r.membership c privileged now = r'.membership c privileged now' := by
      rw [← h.membership_eq]
      exact Request.membership_of_timeless timeless c privileged
    rw [compile_postFilter, compile_postFilter, hmembership]

/-- A search for tea is scored alike for all callers and filters, and a filter on a date and an id
is the same in any order and on any page. -/
theorem compile_congr_tea :
    let c : Config := {}
    let later : Moment := .lastSecondOfDay Moment.epoch.date
    let since : DateQuery := { items := [.predicate { after := some (.text "2024-03-05") }] }
    let tea : Request := { search := some "tea", dateQuery := some since, ids := [7] }
    let other : Request := { search := some "tea", status := some .any, excludedIds := [9] }
    let shuffled : Request :=
      { tea with search := none, sortKeys := [⟨"rand", none⟩], page := some 3 }
    SameRanking tea other ∧ SameItems tea shuffled ∧ tea.isTimeless = true ∧
      (compile c [] tea false .epoch).query = (compile c [] other true later).query ∧
      (compile c [] tea false .epoch).postFilter =
        (compile c [] shuffled false later).postFilter := by
  intro c later since tea other shuffled
  have ranking : SameRanking tea other := ⟨rfl, rfl, rfl, rfl, rfl, rfl, rfl, rfl, rfl⟩
  have items : SameItems tea shuffled :=
    ⟨rfl, rfl, rfl, rfl, rfl, rfl, rfl, rfl, rfl, rfl, rfl, rfl, rfl, rfl⟩
  have timeless : tea.isTimeless = true := by decide
  obtain ⟨hquery, -⟩ := (compile_congr c tea other false true .epoch later).1 ranking
  have hfilter := (compile_congr c tea shuffled false false .epoch later).2 items rfl timeless
  exact ⟨ranking, items, timeless, hquery, hfilter⟩

end ContentIndex.Query
