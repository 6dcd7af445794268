import ContentIndex.Indexer.Basic
import ContentIndex.Text.Quoted

/-
  The text by which an indexer is shown to a developer: its index, the hosts and the scope.
-/

namespace ContentIndex.Indexer

open Text (shown)

/-- The text of a scope. -/
def describeScope : Option String → String
  | none => "None"
  | some s => "Some(" ++ shown s ++ ")"

/-- The text of an indexer. -/
def describe (x : Indexer) : String :=
  "Indexer \x7b index: " ++ shown x.paths.index
    ++ ", hosts: [" ++ ", ".intercalate (x.config.hosts.map shown)
    ++ "], scope: " ++ describeScope x.scope ++ " \x7d"

end ContentIndex.Indexer
