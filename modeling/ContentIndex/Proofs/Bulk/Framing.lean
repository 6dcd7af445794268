import ContentIndex.Bulk.Batch
import ContentIndex.Proofs.Json.Lines
import ContentIndex.Proofs.Json.ReadBack

/-
  The lines of a bulk request. No JSON text holds a line break, whatever stands in its strings and
  names, so that its line breaks are those that end the lines: two for each document, behind the
  action line with its id and behind its JSON text (`body_framed`). So the lines are found again
  by splitting the text, and ids and sources are read off them (`submitted_body`).
-/

namespace ContentIndex

open Json (OneLine Tree Value)

/-! ## Lines of a text -/

namespace Text

/-- Lines, each of them ended by a line break. -/
def endLines (ls : List (List Char)) : List Char :=
  ls.flatMap (· ++ ['\n'])

theorem endLines_cons (l : List Char) (ls : List (List Char)) :
    endLines (l :: ls) = l ++ '\n' :: endLines ls := by
  unfold endLines
  rw [List.flatMap_cons, List.append_assoc]
  rfl

theorem getLast?_endLines (ls : List (List Char)) :
    (endLines ls).getLast? = ls.getLast?.map fun _ => '\n' := by
  cases hl : ls.getLast? with
  | none =>
    rw [List.getLast?_eq_none_iff.mp hl]
    rfl
  | some l =>
    obtain ⟨ls, rfl⟩ := List.getLast?_eq_some_iff.mp hl
    unfold endLines
    rw [List.flatMap_append, List.flatMap_singleton, ← List.append_assoc, List.getLast?_concat]
    rfl

variable {ls : List (List Char)}

/-- There are as many line breaks as lines. -/
theorem count_endLines (h : ∀ l ∈ ls, OneLine l) : (endLines ls).count '\n' = ls.length := by
  induction ls with
  | nil => rfl
  | cons l ls ih =>
    obtain ⟨hl, h⟩ := List.forall_mem_cons.mp h
    have none : l.count '\n' = 0 := List.count_eq_zero.mpr hl
    rw [endLines_cons, List.count_append, none, List.count_cons_self, ih h, List.length_cons]
    omega

/-- The lines are the pieces between the line breaks, but for nothing behind the last one. -/
theorem splitAt_endLines (h : ∀ l ∈ ls, OneLine l) :
    splitAt '\n' (endLines ls) = ls ++ [[]] := by
  induction ls with
  | nil => rfl
  | cons l ls ih =>
    obtain ⟨hl, h⟩ := List.forall_mem_cons.mp h
    rw [endLines_cons, splitAt_append hl, ih h]
    rfl

end Text

namespace Bulk

/-! ## Lines of a body -/

/-- The two lines of a document. -/
def linesOf (d : Document) : List (List Char) :=
  [(Entry.action d.id).toList, d.toJson.render.toList]

theorem oneLine_render (v : Value) : OneLine v.render.toList := by
  unfold Value.render
  rw [String.toList_ofList]
  exact Json.oneLine_chars v

theorem oneLine_linesOf (ds : List Document) : ∀ l ∈ ds.flatMap linesOf, OneLine l := by
  intro l hl
  obtain ⟨d, -, hl⟩ := List.mem_flatMap.mp hl
  rcases List.mem_cons.mp hl with rfl | hl
  · exact oneLine_render _
  · rw [List.mem_singleton.mp hl]
    exact oneLine_render _

/-- A body consists of the lines of its documents. -/
theorem toList_body (ds : List Document) :
    (body (ds.map .ofDocument)).toList = Text.endLines (ds.flatMap linesOf) := by
  induction ds with
  | nil => rfl
  | cons d ds ih =>
    have first : (Entry.ofDocument d).lines.toList = Text.endLines (linesOf d) := by
      simp [Entry.ofDocument, Text.endLines, linesOf]
    unfold body at ih ⊢
    rw [List.map_cons, List.map_cons, String.toList_join, List.flatMap_cons, first,
      ← String.toList_join, ih, List.flatMap_cons]
    unfold Text.endLines
    rw [List.flatMap_append]

/-- An action line names its id in decimal. -/
theorem action_eq (id : UInt64) :
    Entry.action id =
      "\x7b\"index\":\x7b\"_id\":" ++ Number.natText id.toNat ++ "\x7d\x7d" := by
  have number : (Json.Number.ofUInt64 id).chars = Number.natChars id.toNat := by
    show Number.intChars (id.toNat : Int) = _
    unfold Number.intChars
    rw [if_neg (by omega), Int.natAbs_natCast]
  have index : Json.quoted "index" = "\"index\"".toList := by decide
  have key : Json.quoted "_id" = "\"_id\"".toList := by decide
  apply String.toList_inj.mp
  unfold Entry.action Value.render Value.ofUInt64 Number.natText
  simp only [String.toList_ofList, String.toList_append, Value.chars, Value.membersChars, index,
    key, number]
  simp

end Bulk

/-! ## Reading a body -/

namespace Engine

/-- Lines in twos: an action line, and the source line behind it. -/
def linePairs : List (List Char) → List (List Char × List Char)
  | a :: s :: ls => (a, s) :: linePairs ls
  | _ => []

/-- The id that an action line names. -/
def actionId? (line : List Char) : Option UInt64 :=
  (Value.parse? (String.ofList line)).bind fun v =>
    (v.get? "index").bind fun v => (v.get? "_id").bind Value.uint64?

/-- The ids and source lines in the body of a bulk request. -/
def submitted (body : String) : List (UInt64 × String) :=
  (linePairs (Text.splitAt '\n' body.toList)).filterMap fun p =>
    (actionId? p.1).map fun id => (id, String.ofList p.2)

theorem actionId?_action (id : UInt64) : actionId? (Bulk.Entry.action id).toList = some id := by
  have hv : (Value.object [("index", .object [("_id", .ofUInt64 id)])]).Integral :=
    ⟨⟨trivial, trivial⟩, trivial⟩
  unfold actionId? Bulk.Entry.action Value.parse?
  rw [String.ofList_toList, Tree.ofText?_render _ hv]
  exact Json.Number.uint64?_ofUInt64 id

/-- The id and the source line of a document. -/
def pairOf (d : Document) : UInt64 × String := (d.id, d.toJson.render)

/-- A bulk request submits the documents of its entries, in order. -/
theorem submitted_body (ds : List Document) :
    submitted (Bulk.body (ds.map .ofDocument)) = ds.map pairOf := by
  unfold submitted
  rw [Bulk.toList_body, Text.splitAt_endLines (Bulk.oneLine_linesOf ds)]
  induction ds with
  | nil => rfl
  | cons d ds ih =>
    rw [List.flatMap_cons, List.append_assoc, Bulk.linesOf, List.cons_append, List.cons_append,
      List.nil_append, linePairs, List.filterMap_cons, actionId?_action, ih, String.ofList_toList]
    rfl

end Engine

/-- The body of a bulk request is well framed: two line breaks for each document, the last one at
the end; between them, in order, the action line with the id of each document and its JSON text,
which are read back. -/
theorem Bulk.body_framed (ds : List Document) :
    (body (ds.map .ofDocument)).toList.count '\n' = 2 * ds.length ∧
      (body (ds.map .ofDocument)).toList.getLast? = ds.getLast?.map (fun _ => '\n') ∧
      Text.splitAt '\n' (body (ds.map .ofDocument)).toList =
        (ds.flatMap fun d =>
          [("\x7b\"index\":\x7b\"_id\":" ++ Number.natText d.id.toNat ++ "\x7d\x7d").toList,
            d.toJson.render.toList]) ++ [[]] ∧
      Engine.submitted (body (ds.map .ofDocument)) = ds.map fun d => (d.id, d.toJson.render) := by
  have length : (ds.flatMap linesOf).length = 2 * ds.length := by
    induction ds with
    | nil => rfl
    | cons d ds ih =>
      rw [List.flatMap_cons, List.length_append, ih, List.length_cons]
      show 2 + 2 * ds.length = 2 * (ds.length + 1)
      omega
  have last : (ds.flatMap linesOf).getLast?.map (fun _ => '\n') =
      ds.getLast?.map fun _ => '\n' := by
    cases hd : ds.getLast? with
    | none =>
      rw [List.getLast?_eq_none_iff.mp hd]
      rfl
    | some d =>
      obtain ⟨ds, rfl⟩ := List.getLast?_eq_some_iff.mp hd
      rw [List.flatMap_append, List.flatMap_singleton]
      unfold linesOf
      rw [List.getLast?_append]
      rfl
  refine ⟨?_, ?_, ?_, Engine.submitted_body ds⟩
  · rw [toList_body, Text.count_endLines (oneLine_linesOf ds), length]
  · rw [toList_body, Text.getLast?_endLines, last]
  · rw [toList_body, Text.splitAt_endLines (oneLine_linesOf ds)]
    unfold linesOf
    simp only [action_eq]

end ContentIndex
