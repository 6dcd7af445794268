import ContentIndex.Document.Basic
import ContentIndex.Query.Compiled

/-
  Extension points of the host: whether a document is left out of the index, last changes to a
  document, and last changes to a search body. Hooks act in the order in which they were
  registered.
-/

namespace ContentIndex

open Query (CompiledQuery)

/-- A function that the host registers. -/
inductive Hook where
  | skip (f : Document → Bool)
  | prepare (f : Document → Document)
  | adjust (f : CompiledQuery → CompiledQuery)

/-- The hooks, in the order in which they were registered. -/
abbrev Hooks := List Hook

namespace Hooks

/-- Whether some hook leaves the document out of the index. -/
def skips (hooks : Hooks) (d : Document) : Bool :=
  hooks.any fun
    | .skip f => f d
    | _ => false

/-- The document after all changes. -/
def prepare (hooks : Hooks) (d : Document) : Document :=
  hooks.foldl (fun d h => match h with | .prepare f => f d | _ => d) d

/-- The search body after all changes. -/
def adjust (hooks : Hooks) (q : CompiledQuery) : CompiledQuery :=
  hooks.foldl (fun q h => match h with | .adjust f => f q | _ => q) q

end Hooks
end ContentIndex
