import ContentIndex.Content
import ContentIndex.IdSet

/-
  A content store in memory. Items are listed from the highest id down. Items may be marked as
  broken, and listings may be switched off; what is asked of them is then an error.
-/

namespace ContentIndex

/-- Documents, and the ids that the scopes list; a scope without ids of its own lists all. -/
structure Catalogue where
  documents : List Document := []
  scopes : SortedMap (List UInt64) := ∅
  broken : IdSet := ∅
  unlisted : Bool := false

namespace Catalogue

/-- Removes a document. -/
def erase (c : Catalogue) (id : UInt64) : Catalogue :=
  { c with documents := c.documents.filter (·.id != id) }

/-- Puts a document in the place of the one with its id. -/
def insert (c : Catalogue) (d : Document) : Catalogue :=
  { c with documents := d :: (c.erase d.id).documents }

def setScope (c : Catalogue) (scope : String) (ids : List UInt64) : Catalogue :=
  { c with scopes := c.scopes.insert scope ids }

/-- All ids of a scope, the highest first. -/
def listing (c : Catalogue) (scope : Option String) : List UInt64 :=
  (IdSet.ofList ((scope.bind c.scopes.find?).getD (c.documents.map (·.id)))).descending

/-- The document of an item that is not broken. -/
def find? (c : Catalogue) (id : UInt64) : Except ContentError (Option Document) :=
  if c.broken.contains id then .error ⟨"cannot load item " ++ Number.natText id.toNat⟩
  else .ok (c.documents.find? (·.id == id))

/-- The ids of a scope, if listings are not switched off. -/
def list (c : Catalogue) (scope : Option String) : Except ContentError (List UInt64) :=
  if c.unlisted then .error ⟨"listing failed"⟩ else .ok (c.listing scope)

/-- The answer to one call. An item is eligible if it is published. -/
def answer (c : Catalogue) : (call : ContentCall) → content.Answer call
  | .prepare id => c.find? id
  | .isEligible id => (c.find? id).map fun d => d.any (·.status == "publish")
  | .listIds p => (c.list p.scope).map fun ids => (ids.drop p.offset.toNat).take p.limit.toNat
  | .count scope => (c.list scope).map fun ids => .ofNat ids.length
  | .releaseCaches => ()

end Catalogue
end ContentIndex
