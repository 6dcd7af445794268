import ContentIndex.Engine.Paths

/-
  The settings and the mapping of a fresh index: every field that queries refer to, with its type.
  Custom fields and terms come from templates, since their names are not known beforehand.
-/

namespace ContentIndex.Engine

open Json (Value)

def typeOnly (name : String) : Value := .ofMembers [("type", name)]

/-- A keyword field that leaves out longer texts. -/
def rawKeyword : Json.Members := [("type", "keyword"), ("ignore_above", .ofNat 10922)]

def textWithRaw : Value :=
  .ofMembers [("type", "text"), ("fields", .ofMembers [("raw", Value.ofMembers rawKeyword)])]

def dateField (format : String) : Value :=
  .ofMembers [("type", "date"), ("format", format)]

def objectField (properties : Json.Members) : Value :=
  .ofMembers [("type", "object"), ("properties", Value.ofMembers properties)]

def dateFormat : String := "yyyy-MM-dd"
def timeFormat : String := "HH:mm:ss"
def dateTimeFormat : String := "yyyy-MM-dd HH:mm:ss"

/-- A template for the fields under a common name. -/
def fieldTemplate (name path : String) (properties : Json.Members) : Value :=
  .ofMembers [(name, .ofMembers [("path_match", path), ("mapping", objectField properties)])]

def customTemplate : Value :=
  fieldTemplate "template_meta" "meta.*" [
    ("value", textWithRaw),
    ("raw", typeOnly "keyword"),
    ("long", typeOnly "long"),
    ("double", typeOnly "double"),
    ("boolean", typeOnly "boolean"),
    ("date", dateField dateFormat),
    ("datetime", dateField dateTimeFormat),
    ("time", dateField timeFormat)]

def termTemplate : Value :=
  fieldTemplate "template_terms" "terms.*" [
    ("term_id", typeOnly "long"),
    ("slug", typeOnly "keyword"),
    ("name", textWithRaw),
    ("parent", typeOnly "long")]

/-- The names of the calendar units. -/
def dateUnits : List String :=
  ["year", "month", "week", "dayofyear", "day", "dayofweek", "dayofweek_iso", "hour", "minute",
    "second", "yearmonth"]

def properties : Value :=
  let date := dateField dateTimeFormat
  let sortable := Value.ofMembers (("normalizer", "lowerasciinormalizer") :: rawKeyword)
  .ofMembers [
    ("post_id", typeOnly "long"),
    ("post_author", objectField [("id", typeOnly "long"), ("login", typeOnly "keyword")]),
    ("post_date", date),
    ("post_date_gmt", date),
    ("post_modified", date),
    ("post_modified_gmt", date),
    ("post_title", .ofMembers [("type", "text"),
      ("fields", .ofMembers [("raw", Value.ofMembers rawKeyword), ("sortable", sortable)])]),
    ("post_excerpt", typeOnly "text"),
    ("post_content", typeOnly "text"),
    ("post_status", typeOnly "keyword"),
    ("post_name", textWithRaw),
    ("post_type", textWithRaw),
    ("post_mime_type", typeOnly "keyword"),
    ("post_parent", typeOnly "long"),
    ("menu_order", typeOnly "long"),
    ("date_terms", objectField (dateUnits.map fun u => (u, typeOnly "long")))]

/-- The body of a request for a fresh index. -/
def mapping (c : Config) : Value :=
  let body := .ofMembers [
    ("date_detection", false),
    ("dynamic_templates", .array [customTemplate, termTemplate]),
    ("properties", properties)]
  let folding := .strings ["lowercase", "asciifolding"]
  .ofMembers [
    ("settings", .ofMembers [
      ("index.max_result_window", .ofUInt64 c.maxResultsWindow),
      ("analysis", .ofMembers [
        ("analyzer", .ofMembers [
          ("default", .ofMembers [("tokenizer", "standard"), ("filter", folding)])]),
        ("normalizer", .ofMembers [
          ("lowerasciinormalizer", .ofMembers [("type", "custom"), ("filter", folding)])])])]),
    ("mappings", if c.usesMappingTypes then .ofMembers [(mappingType, body)] else body)]

end ContentIndex.Engine
