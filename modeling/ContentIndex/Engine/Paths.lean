import ContentIndex.Config
import ContentIndex.Number.Integer

/-
  Request paths of one index. Engines with mapping types put the type between the index and what
  follows it; later ones address documents under one fixed name.
-/

namespace ContentIndex.Engine

/-- The mapping type of engines that need one. -/
def mappingType : String := "post"

/-- The index that paths are for, and whether they name the mapping type. -/
structure Paths where
  index : String
  typed : Bool
deriving DecidableEq, Repr

namespace Paths

def ofConfig (c : Config) (scope : Option String) : Paths :=
  ⟨c.indexForScope scope, c.usesMappingTypes⟩

def document (p : Paths) (id : UInt64) : String :=
  p.index ++ "/" ++ (if p.typed then mappingType else "_doc") ++ "/" ++ Number.natText id.toNat

/-- The path of a service of the index. -/
def endpoint (p : Paths) (name : String) : String :=
  if p.typed then p.index ++ "/" ++ mappingType ++ "/" ++ name else p.index ++ "/" ++ name

def bulk (p : Paths) : String := p.endpoint "_bulk"
def search (p : Paths) : String := p.endpoint "_search"

end Paths
end ContentIndex.Engine
