import ContentIndex.Config
import ContentIndex.Hooks
import ContentIndex.Query.Request

/-
  Compiling requests into search bodies. Everything that decides which items belong to the result
  goes into the filter, so that it has no influence on relevance; text relevance is the sum of
  a phrase match, a match of all words and a fuzzy match. A group of predicates that is nested
  too deep is left out. Hooks see the body last.
-/

namespace ContentIndex.Query

open Json (Value)
open Calendar (Moment)

/-- The text to search for, if it is not blank. -/
def Request.searchTerm? (r : Request) : Option String :=
  (r.search.map Text.trim).filter (· ≠ "")

/-- The query for relevance. -/
def textQuery (c : Config) (r : Request) : Option Clause :=
  match r.searchTerm? with
  | none => if r.matchAll then some (.all (some (.ofNat 1))) else none
  | some term =>
    let fields := r.searchFields.getD c.searchFields
    let phrase : MultiMatch := { query := term, fields, kind := "phrase", boost := c.phraseBoost }
    let allWords : MultiMatch :=
      { query := term, fields, operator := "and", boost := c.andBoost, fuzziness := some 0 }
    let fuzzy : MultiMatch := { query := term, fields, fuzziness := c.fuzziness }
    some (.bool { should := [.multiMatch phrase, .multiMatch allWords, .multiMatch fuzzy] })

/-! ## Order -/

/-- The order of the results: by fields, or at random. -/
inductive SortPlan where
  | fields (fs : List SortField)
  | random
deriving DecidableEq, Repr

/-- The engine's field for a name to sort by; other names are fields themselves. -/
def sortField? (metaKey : Option String) (name : String) : Option String :=
  match Text.lower name with
  | "relevance" => some "_score"
  | "date" => some "post_date"
  | "modified" => some "post_modified"
  | "title" => some "post_title.sortable"
  | "name" => some "post_name.raw"
  | "id" => some "post_id"
  | "type" => some "post_type.raw"
  | "parent" => some "post_parent"
  | "menu_order" => some "menu_order"
  | "author" => some "post_author.id"
  | "none" => none
  | "meta_value" => metaKey.map fun k => "meta." ++ k ++ ".value"
  | "meta_value_num" => metaKey.map fun k => "meta." ++ k ++ ".long"
  | _ => some name

def Request.sortPlan (r : Request) : SortPlan :=
  let order := r.order.getD .descending
  if r.sortKeys.isEmpty then
    .fields [⟨if r.searchTerm?.isSome then "_score" else "post_date", order⟩]
  else if r.sortKeys.any fun k => Text.sameWord k.field "rand" then .random
  else
    .fields (r.sortKeys.filterMap fun k =>
      (sortField? r.metaKey k.field).map fun f => ⟨f, k.order.getD order⟩)

/-! ## Filters -/

def ValueFilter.clause? (field : String) : ValueFilter → Option Clause
  | .any => none
  | .one v => some (.term field (.string v))
  | .many vs => some (.terms field (vs.map .string))

/-- The statuses that a caller sees if the request names none. -/
def visibleStatuses (c : Config) (privileged : Bool) : ValueFilter :=
  match c.publicStatuses ++ if privileged then c.privateStatuses else [] with
  | [] => .any
  | [s] => .one s
  | l => .many l

/-- The characters that mean something in the engine's regular expressions. -/
def regexpMarks : List Char :=
  ['.', '?', '+', '*', '|', '\x7b', '\x7d', '[', ']', '(', ')', '"', '\\', '#', '@', '&', '<',
    '>', '~']

/-- A regular expression that only the text itself matches. -/
def literalPattern (s : String) : String :=
  String.ofList (s.toList.flatMap fun c => if regexpMarks.contains c then ['\\', c] else [c])

def MimeFilter.clause? : MimeFilter → Option Clause
  | .leading s => some (.regexp "post_mime_type" (literalPattern s ++ ".*"))
  | .oneOf [] => none
  | .oneOf ts => some (.terms "post_mime_type" (ts.map .string))

/-- A clause on a list of ids; none for the empty list. -/
def idClause? (field : String) (ids : List UInt64) : Option Clause :=
  if ids.isEmpty then none else some (.terms field (ids.map .ofUInt64))

/-- The result, or nothing if it is nested too deep. -/
def orDropped {α : Type} (blank : α) : Except TooDeep α → α
  | .ok a => a
  | .error _ => blank

/-- Everything that decides which items belong to the result. -/
def Request.membership (r : Request) (c : Config) (privileged : Bool) (now : Moment) :
    Compound Clause :=
  let depth := c.maxQueryDepth.toNat
  let tax := (r.taxQuery.map TaxQuery.compound).getD {}
  let metaClause := r.metaQuery.bind fun q => orDropped none (q.filter? depth)
  let dateClauses := (r.dateQuery.map fun q => orDropped [] (q.clauses now depth)).getD []
  let status := r.status.getD (visibleStatuses c privileged)
  let parent : Option Clause := match r.parent with
    | some (.id p) => some (.term "post_parent" (.ofUInt64 p))
    | _ => none
  let names : Option Clause :=
    if r.names.isEmpty then none else some (.terms "post_name.raw" (r.names.map .string))
  { must := (r.type.bind (ValueFilter.clause? "post_type.raw")).toList
      ++ (status.clause? "post_status").toList
      ++ tax.must
      ++ (slugClause? "category" r.categories).toList
      ++ (slugClause? "post_tag" r.tags).toList
      ++ (idClause? "post_id" r.ids).toList
      ++ (r.mimeType.bind MimeFilter.clause?).toList
      ++ metaClause.toList
      ++ dateClauses
      ++ parent.toList
      ++ (idClause? "post_author.id" r.authors).toList
      ++ names.toList
    mustNot := tax.mustNot
      ++ (idClause? "post_id" r.excludedIds).toList
      ++ (idClause? "post_author.id" r.excludedAuthors).toList }

/-! ## The body -/

/-- The number of items on a page, which the window bounds. -/
def Request.size (r : Request) (c : Config) : UInt64 :=
  match r.pageSize with
  | .limit n => min n c.maxResultsWindow
  | .unbounded => c.maxResultsWindow

/-- The first item of the page; an offset goes before a page number. -/
def Request.start (r : Request) (size : UInt64) : UInt64 :=
  match r.offset, r.page with
  | some o, _ => o
  | none, some p =>
    if 1 < p then UInt64.ofNat (min ((p.toNat - 1) * size.toNat) (2 ^ 64 - 1)) else 0
  | none, none => 0

/-- The aggregations, restricted to the results if that is asked for and there is a filter. -/
def Aggregation.toJson (a : Aggregation) (filter : Option Clause) : Value :=
  single (a.name.getD "aggregation_name") <|
    match filter with
    | some f =>
      if a.useFilter then .object [("aggs", a.body), ("filter", f.toJson)] else a.body
    | none => a.body

/-- The search body of a request, for a caller with or without privileges. Dates that are given
relative to the present are relative to `now`. -/
def compile (c : Config) (hooks : Hooks) (r : Request) (privileged : Bool) (now : Moment) :
    CompiledQuery :=
  let text := textQuery c r
  let (query, sort) := match r.sortPlan with
    | .random => (some (text.getD (.all none)).randomized, [])
    | .fields fs => (text, fs)
  let membership := r.membership c privileged now
  let postFilter := if membership.isEmpty then none else some (Clause.bool membership)
  let size := r.size c
  hooks.adjust {
    start := r.start size
    size
    sort
    query
    postFilter
    aggregations := r.aggregation.map fun a => a.toJson postFilter }

end ContentIndex.Query
