import ContentIndex.Document.Basic
import ContentIndex.Program

/-
  The content store, which holds the items that are indexed. It lists the ids of a scope page by
  page and makes documents of items; any of its answers may be an error.
-/

namespace ContentIndex

/-- Why the content store gave no answer. -/
structure ContentError where
  reason : String
deriving DecidableEq, Repr

def ContentError.message (e : ContentError) : String :=
  "content store error: " ++ e.reason

/-- A part of the listing of a scope. -/
structure Page where
  scope : Option String
  offset : UInt64
  limit : UInt64
deriving DecidableEq, Repr

/-- The calls of the content store. -/
inductive ContentCall where
  /-- The document of an item, if there is such an item. -/
  | prepare (id : UInt64)
  | isEligible (id : UInt64)
  | listIds (page : Page)
  | count (scope : Option String)
  | releaseCaches
deriving DecidableEq, Repr

def content : Interface where
  Call := ContentCall
  Answer
    | .prepare _ => Except ContentError (Option Document)
    | .isEligible _ => Except ContentError Bool
    | .listIds _ => Except ContentError (List UInt64)
    | .count _ => Except ContentError UInt64
    | .releaseCaches => Unit

end ContentIndex
