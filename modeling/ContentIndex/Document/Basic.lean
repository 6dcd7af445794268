import ContentIndex.Document.DateTerms
import ContentIndex.Document.MetaValue

/-
  Documents: what one content item looks like inside the index. Timestamps are written to the
  whole second. A document is read back from its JSON form, where the fields that have a blank
  value may be missing.
-/

namespace ContentIndex

open Calendar (Moment)
open Json (Value Reader ReadError Tree)

/-- The author of an item. -/
structure AuthorRef where
  id : UInt64 := 0
  login : String := ""
deriving DecidableEq, Repr

/-- A term of a taxonomy that is assigned to an item. -/
structure TermRef where
  id : UInt64 := 0
  slug : String := ""
  name : String := ""
  parent : UInt64 := 0
deriving DecidableEq, Repr

/-- One content item in the index. -/
structure Document where
  id : UInt64
  type : String
  status : String
  mimeType : String
  parent : UInt64
  author : Option AuthorRef
  date : Moment
  dateGmt : Moment
  modified : Moment
  modifiedGmt : Moment
  title : String
  excerpt : String
  content : String
  name : String
  menuOrder : Int64
  terms : SortedMap (List TermRef)
  /-- The values of the custom fields. -/
  custom : SortedMap (List MetaValue)
  dateTerms : DateTerms
deriving DecidableEq

namespace Document

/-- A published document whose four timestamps are one moment. -/
def new (id : UInt64) (type : String) (date : Moment) : Document where
  id
  type
  status := "publish"
  mimeType := ""
  parent := 0
  author := none
  date
  dateGmt := date
  modified := date
  modifiedGmt := date
  title := ""
  excerpt := ""
  content := ""
  name := ""
  menuOrder := 0
  terms := ∅
  custom := ∅
  dateTerms := .ofMoment date

/-- Gives a custom field its stored texts. -/
def withMeta (d : Document) (key : String) (values : List String) : Document :=
  { d with custom := d.custom.insert key (values.map MetaValue.project) }

def withTerms (d : Document) (taxonomy : String) (terms : List TermRef) : Document :=
  { d with terms := d.terms.insert taxonomy terms }

/-- Computes the calendar units from the date again. -/
def refreshDateTerms (d : Document) : Document :=
  { d with dateTerms := .ofMoment d.date }

def hasMeta (d : Document) (key : String) : Bool :=
  d.custom.contains key

/-- The document with whole seconds in its timestamps. -/
def wholeSeconds (d : Document) : Document :=
  { d with
    date := d.date.wholeSecond
    dateGmt := d.dateGmt.wholeSecond
    modified := d.modified.wholeSecond
    modifiedGmt := d.modifiedGmt.wholeSecond }

end Document

/-! ## JSON form -/

namespace AuthorRef

def toJson (a : AuthorRef) : Value :=
  .object [("id", .ofUInt64 a.id), ("login", .string a.login)]

def fields : List (Json.Field AuthorRef) := [
  .of "id" Reader.uint64 fun x a => { a with id := x },
  (Json.Field.of "login" Reader.string fun x a => { a with login := x }).optional]

def read : Reader AuthorRef :=
  Reader.record fields {}

end AuthorRef

namespace TermRef

def toJson (t : TermRef) : Value :=
  .object [("term_id", .ofUInt64 t.id), ("slug", .string t.slug), ("name", .string t.name),
    ("parent", .ofUInt64 t.parent)]

/-- The number of a term may also be spelled in the short way. -/
def fields : List (Json.Field TermRef) := [
  (Json.Field.of "term_id" Reader.uint64 fun x t => { t with id := x }).spelled "id",
  .of "slug" Reader.string fun x t => { t with slug := x },
  .of "name" Reader.string fun x t => { t with name := x },
  (Json.Field.of "parent" Reader.uint64 fun x t => { t with parent := x }).optional]

def read : Reader TermRef :=
  Reader.record fields {}

end TermRef

/-- Reads a map from names to values; of several with one name the last stays. -/
def readMap {α : Type} (r : Reader α) : Reader (SortedMap α) :=
  fun t => (Reader.members r t).map SortedMap.ofList

/-- Reads a string that writes a moment. -/
def readMoment : Reader Moment := fun t => do
  let s ← Reader.string t
  match Moment.read? s with
  | some m => .ok m
  | none => .error (.invalidDate s)

namespace Document

/-- The document with its members in the order in which they are written. -/
def toJson (d : Document) : Value :=
  .object ([
    ("post_id", .ofUInt64 d.id),
    ("post_type", .string d.type),
    ("post_status", .string d.status),
    ("post_mime_type", .string d.mimeType),
    ("post_parent", .ofUInt64 d.parent)]
    ++ (d.author.toList.map fun a => ("post_author", a.toJson))
    ++ [("post_date", .string d.date.text),
    ("post_date_gmt", .string d.dateGmt.text),
    ("post_modified", .string d.modified.text),
    ("post_modified_gmt", .string d.modifiedGmt.text),
    ("post_title", .string d.title),
    ("post_excerpt", .string d.excerpt),
    ("post_content", .string d.content),
    ("post_name", .string d.name),
    ("menu_order", .ofInt64 d.menuOrder),
    ("terms", .object (d.terms.entries.map fun (k, ts) => (k, .array (ts.map TermRef.toJson)))),
    ("meta", .object (d.custom.entries.map fun (k, vs) => (k, .array (vs.map MetaValue.toJson)))),
    ("date_terms", d.dateTerms.toJson)])

def fields : List (Json.Field Document) := [
  .of "post_id" Reader.uint64 fun x d => { d with id := x },
  .of "post_type" Reader.string fun x d => { d with type := x },
  .of "post_status" Reader.string fun x d => { d with status := x },
  (Json.Field.of "post_mime_type" Reader.string fun x d => { d with mimeType := x }).optional,
  (Json.Field.of "post_parent" Reader.uint64 fun x d => { d with parent := x }).optional,
  (Json.Field.of "post_author" (.nullable AuthorRef.read)
    fun x d => { d with author := x }).optional,
  .of "post_date" readMoment fun x d => { d with date := x },
  .of "post_date_gmt" readMoment fun x d => { d with dateGmt := x },
  .of "post_modified" readMoment fun x d => { d with modified := x },
  .of "post_modified_gmt" readMoment fun x d => { d with modifiedGmt := x },
  (Json.Field.of "post_title" Reader.string fun x d => { d with title := x }).optional,
  (Json.Field.of "post_excerpt" Reader.string fun x d => { d with excerpt := x }).optional,
  (Json.Field.of "post_content" Reader.string fun x d => { d with content := x }).optional,
  (Json.Field.of "post_name" Reader.string fun x d => { d with name := x }).optional,
  (Json.Field.of "menu_order" Reader.int64 fun x d => { d with menuOrder := x }).optional,
  (Json.Field.of "terms" (readMap (.list TermRef.read)) fun x d => { d with terms := x }).optional,
  (Json.Field.of "meta" (readMap (.list MetaValue.read))
    fun x d => { d with custom := x }).optional,
  (Json.Field.of "date_terms" DateTerms.read fun x d => { d with dateTerms := x }).optional]

/-- Reads a document; what is missing and may be missing stays empty. -/
def read : Reader Document :=
  Reader.record fields { new 0 "" Moment.epoch with status := "", dateTerms := {} }

end Document
end ContentIndex
