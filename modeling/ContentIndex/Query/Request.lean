import ContentIndex.Query.Date
import ContentIndex.Query.Taxonomy

/-
  Requests for a listing of items, and reading them from the arguments of a host. Readings are
  lenient: an argument that makes no sense counts as absent.
-/

namespace ContentIndex.Query

open Json (Value Members)

/-- A filter by the value of a field. -/
inductive ValueFilter where
  | any
  | one (value : String)
  | many (values : List String)
deriving DecidableEq, Repr

inductive MimeFilter where
  /-- Types that start with a text. -/
  | leading (text : String)
  | oneOf (types : List String)
deriving DecidableEq, Repr

inductive ParentFilter where
  | any
  | id (parent : UInt64)
deriving DecidableEq, Repr

/-- A field to sort by; without an order the one of the request applies. -/
structure SortKey where
  field : String
  order : Option SortOrder := none
deriving DecidableEq, Repr

inductive PageSize where
  | limit (n : UInt64)
  | unbounded
deriving DecidableEq, Repr

/-- What to count; it may be restricted to the items of the result. -/
structure Aggregation where
  name : Option String
  body : Value
  useFilter : Bool
deriving DecidableEq

structure Request where
  search : Option String := none
  searchFields : Option (List String) := none
  matchAll : Bool := false
  type : Option ValueFilter := none
  status : Option ValueFilter := none
  mimeType : Option MimeFilter := none
  taxQuery : Option TaxQuery := none
  /-- Slugs of categories. -/
  categories : List String := []
  /-- Slugs of tags. -/
  tags : List String := []
  metaQuery : Option MetaQuery := none
  dateQuery : Option DateQuery := none
  ids : List UInt64 := []
  excludedIds : List UInt64 := []
  parent : Option ParentFilter := none
  authors : List UInt64 := []
  excludedAuthors : List UInt64 := []
  names : List String := []
  sortKeys : List SortKey := []
  order : Option SortOrder := none
  metaKey : Option String := none
  offset : Option UInt64 := none
  page : Option UInt64 := none
  pageSize : PageSize := .limit 10
  aggregation : Option Aggregation := none

/-! ## Reading -/

/-- The word "any" asks for nothing; so does an empty text or list. -/
def ValueFilter.read? : Value → Option ValueFilter
  | .string s =>
    if Text.sameWord s "any" then some .any else if s = "" then none else some (.one s)
  | .array vs =>
    let values := vs.filterMap Value.scalarText?
    if values.any (Text.sameWord · "any") then some .any
    else if values.isEmpty then none
    else some (.many values)
  | _ => none

def MimeFilter.read? : Value → Option MimeFilter
  | .string s => if s = "" then none else some (.leading s)
  | .array vs =>
    let types := (Value.array vs).texts
    if types.isEmpty then none else some (.oneOf types)
  | _ => none

def ParentFilter.read? (v : Value) : Option ParentFilter :=
  match v with
  | .string s => if Text.sameWord s "any" then some .any else v.asNatural?.map .id
  | _ => v.asNatural?.map .id

/-- Names between blanks, a list of names, or an object with the order of each name. -/
def SortKey.readAll : Value → List SortKey
  | .string s => (Text.words s).map (⟨·, none⟩)
  | .array vs => (Value.array vs).texts.map (⟨·, none⟩)
  | .object ms => ms.map fun (k, v) => ⟨k, v.string?.map SortOrder.named⟩
  | _ => []

/-- Minus one is no limit at all; ten is the limit if none is given. -/
def PageSize.read (v : Option Value) : PageSize :=
  match v.bind Value.asInt64? with
  | some n =>
    if n = -1 then .unbounded
    else if 0 < n then .limit (UInt64.ofNat n.toInt.toNat)
    else .limit 10
  | none => .limit 10

def Aggregation.read? (v : Value) : Option Aggregation :=
  (v.get? "aggs").map fun body => {
    name := (v.get? "name").bind Value.string?
    body
    useFilter := (((v.get? "use-filter").or (v.get? "use_filter")).map Value.isOn).getD false }

/-- The date query of the arguments, with the units that stand among them; units that are zero
do not count. -/
def readDateArgs (ms : Members) : DateQuery :=
  let q := ((Entries.find? "date_query" ms).map DateQuery.read).getD {}
  { q with units := q.units ++ (readUnits ms).filter (·.2 ≠ 0) }

/-- The request of a host's arguments. -/
def Request.ofMembers (ms : Members) : Request :=
  let arg (name : String) : Option Value := Entries.find? name ms
  let text (name : String) := (arg name).bind Value.string?
  let isOn (name : String) := ((arg name).map Value.isOn).getD false
  let naturals (name : String) := ((arg name).map Value.naturals).getD []
  let natural (name : String) := (arg name).bind Value.asNatural?
  let nonempty {α : Type} (isEmpty : α → Bool) (a : α) := if isEmpty a then none else some a
  { search := ((text "s").map Text.trim).filter (· ≠ "")
    searchFields := ((arg "search_fields").map Value.texts).filter (! ·.isEmpty)
    matchAll := isOn "match_all"
    type := (arg "post_type").bind ValueFilter.read?
    status := (arg "post_status").bind ValueFilter.read?
    mimeType := (arg "post_mime_type").bind MimeFilter.read?
    taxQuery := ((arg "tax_query").map TaxQuery.read).filter (! ·.predicates.isEmpty)
    categories := ((arg "category_name").map Value.commaTexts).getD []
    tags := ((arg "tag").map Value.commaTexts).getD []
    metaQuery := ((arg "meta_query").map MetaQuery.read).filter (! ·.isEmpty)
    dateQuery := nonempty DateQuery.isEmpty (readDateArgs ms)
    ids := naturals "post__in"
    excludedIds := naturals "post__not_in"
    parent := (arg "post_parent").bind ParentFilter.read?
    authors := naturals "author__in" ++ (natural "author").toList
    excludedAuthors := naturals "author__not_in"
    names := ((arg "post_name__in").map Value.texts).getD []
    sortKeys := ((arg "orderby").map SortKey.readAll).getD []
    order := (text "order").map SortOrder.named
    metaKey := text "meta_key"
    offset := natural "offset"
    page := natural "paged"
    pageSize := if isOn "nopaging" then .unbounded else .read (arg "posts_per_page")
    aggregation := (arg "aggs").bind Aggregation.read? }

/-- The request of a host's arguments; arguments that are no object ask for nothing. -/
def Request.read : Value → Request
  | .object ms => .ofMembers ms
  | _ => {}

end ContentIndex.Query
