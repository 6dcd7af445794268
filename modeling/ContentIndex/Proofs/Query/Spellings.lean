import ContentIndex.Proofs.Calendar.ReadBack
import ContentIndex.Query.Request
import Mathlib.Data.List.Forall2
import Mathlib.Data.Option.Basic

/-
  Numbers and texts in the arguments of a host. An integer may stand there as a number or as its
  decimal text with blanks around it, alone or as an item of a list of ids. Both are read as the
  same integer (`Stands.asInt64?_eq`), and no text that stands for an integer is the word that
  lifts the restriction to a parent.

  So two objects of arguments that differ in how they spell their integers ask for the same
  (`read_respelled`): an argument that takes integers is read only by what its value stands for,
  and all other arguments are the same in both.
-/

namespace ContentIndex.Query

open Json (Value Members)
open Number (Double intChars intText int64? int64OfInt?)
open Text (isBlank trim)

/-! ## Values that stand for integers -/

/-- A value stands for an integer: as a number, as a real number that has it as its integer part, or
as its decimal text between blanks. -/
inductive Stands (n : Int64) : Value → Prop
  | number : Stands n (.ofInt64 n)
  | real {x : Double} (finite : x.isFinite = true) (whole : x.truncate = n.toInt) :
      Stands n (.number (.real x finite))
  | text {front back : List Char} (front_blank : ∀ c ∈ front, isBlank c = true)
      (back_blank : ∀ c ∈ back, isBlank c = true) :
      Stands n (.string (String.ofList (front ++ intChars n.toInt ++ back)))

theorem int64OfInt?_toInt (n : Int64) : int64OfInt? n.toInt = some n := by
  have hlow := n.le_toInt
  have hhigh := n.toInt_lt
  rw [int64OfInt?, if_pos ⟨hlow, hhigh⟩, Int64.ofInt_toInt]

/-- The decimal text of an integer is trimmed to itself, whatever blanks are around it. -/
theorem trim_intText {front back : List Char} (front_blank : ∀ c ∈ front, isBlank c = true)
    (back_blank : ∀ c ∈ back, isBlank c = true) (i : Int) :
    trim (String.ofList (front ++ intChars i ++ back)) = intText i := by
  have hblank := Number.isBlank_intChars i
  rw [trim, String.toList_ofList, Text.trimChars_blanks_append front_blank back_blank
    (Number.intChars_ne_nil i) (fun c hc => hblank c (List.mem_of_mem_head? hc))
    (fun c hc => hblank c (List.mem_of_mem_getLast? hc)), intText]

theorem int64?_intText (n : Int64) : int64? (intText n.toInt) = some n := by
  rw [int64?, intText, String.toList_ofList, Number.readInt_intChars, Option.bind_some,
    int64OfInt?_toInt]

namespace Stands

variable {n : Int64} {v w : Value}

theorem asInt64?_eq (h : Stands n v) : v.asInt64? = some n := by
  cases h with
  | number =>
    show some (((int64OfInt? n.toInt)).getD _) = some n
    rw [int64OfInt?_toInt, Option.getD_some]
  | @real x finite whole =>
    have hlow := n.le_toInt
    have hhigh := n.toInt_lt
    show some x.toInt64 = some n
    rw [Double.toInt64, if_pos finite, whole, Int.min_eq_right (by omega),
      Int.max_eq_right (by omega), Int64.ofInt_toInt]
  | text front_blank back_blank =>
    show int64? (trim _) = some n
    rw [trim_intText front_blank back_blank, int64?_intText]

theorem asNatural?_eq (h : Stands n v) (h' : Stands n w) : v.asNatural? = w.asNatural? := by
  rw [Value.asNatural?, Value.asNatural?, h.asInt64?_eq, h'.asInt64?_eq]

/-- What stands for an integer is no list. -/
theorem naturals_eq (h : Stands n v) : v.naturals = v.asNatural?.toList := by
  cases h <;> rfl

/-- No text that stands for an integer is the word "any": it has a digit. -/
theorem parent?_eq (h : Stands n v) : ParentFilter.read? v = v.asNatural?.map .id := by
  cases h with
  | number | real => rfl
  | @text front back front_blank back_blank =>
    obtain ⟨d, small, hd⟩ := Number.exists_digit_mem_intChars n.toInt
    have letters : (Text.lower "any").toList.any Text.isDigit = false := by
      rw [Text.toList_lower]
      decide
    have hword : Text.sameWord (String.ofList (front ++ intChars n.toInt ++ back)) "any" = false :=
      beq_eq_false_iff_ne.mpr (Text.lower_ne_of_digit small (by simp [hd]) letters)
    rw [ParentFilter.read?, hword, if_neg Bool.false_ne_true]

end Stands

/-! ## Arguments -/

/-- The arguments that are one integer or a list of them. -/
def listArguments : List String :=
  ["post__in", "post__not_in", "author__in", "author__not_in"]

/-- The arguments that are one integer, but for the calendar units. -/
def singleArguments : List String :=
  ["author", "post_parent", "offset", "paged", "posts_per_page"]

/-- An argument that takes integers. -/
def TakesIntegers (name : String) : Prop :=
  name ∈ listArguments ∨ name ∈ singleArguments ∨ (DateUnit.named? name).isSome = true

instance (name : String) : Decidable (TakesIntegers name) :=
  inferInstanceAs (Decidable (_ ∨ _ ∨ _))

/-- Two items of a list that are equal or stand for the same integer. -/
def Alike (v w : Value) : Prop :=
  v = w ∨ ∃ n, Stands n v ∧ Stands n w

/-- Two values of an argument that are equal, or differ in how their integers are spelled. -/
inductive Respelled (name : String) : Value → Value → Prop
  | same (v : Value) : Respelled name v v
  | integer {n : Int64} {v w : Value} (takes : TakesIntegers name) (hv : Stands n v)
      (hw : Stands n w) : Respelled name v w
  | items {vs ws : List Value} (listed : name ∈ listArguments) (alike : List.Forall₂ Alike vs ws) :
      Respelled name (.array vs) (.array ws)

theorem Alike.asNatural?_eq {v w : Value} (h : Alike v w) : v.asNatural? = w.asNatural? := by
  obtain rfl | ⟨n, hv, hw⟩ := h
  · rfl
  · exact hv.asNatural?_eq hw

theorem filterMap_asNatural?_eq {vs ws : List Value} (h : List.Forall₂ Alike vs ws) :
    vs.filterMap Value.asNatural? = ws.filterMap Value.asNatural? := by
  induction h with
  | nil => rfl
  | cons head _ ih => rw [List.filterMap_cons, List.filterMap_cons, head.asNatural?_eq, ih]

namespace Respelled

variable {name : String} {v w : Value}

theorem eq_of_not_takes (h : Respelled name v w) (hname : ¬ TakesIntegers name) : v = w := by
  cases h with
  | same => rfl
  | integer takes => exact absurd takes hname
  | items listed => exact absurd (.inl listed) hname

theorem asInt64?_eq (h : Respelled name v w) : v.asInt64? = w.asInt64? := by
  cases h with
  | same => rfl
  | integer _ hv hw => rw [hv.asInt64?_eq, hw.asInt64?_eq]
  | items => rfl

theorem asNatural?_eq (h : Respelled name v w) : v.asNatural? = w.asNatural? := by
  rw [Value.asNatural?, Value.asNatural?, h.asInt64?_eq]

theorem naturals_eq (h : Respelled name v w) : v.naturals = w.naturals := by
  cases h with
  | same => rfl
  | integer _ hv hw => rw [hv.naturals_eq, hw.naturals_eq, hv.asNatural?_eq hw]
  | items _ alike => exact filterMap_asNatural?_eq alike

theorem parent?_eq (h : Respelled name v w) : ParentFilter.read? v = ParentFilter.read? w := by
  cases h with
  | same => rfl
  | integer _ hv hw => rw [hv.parent?_eq, hw.parent?_eq, hv.asNatural?_eq hw]
  | items => rfl

end Respelled

/-! ## Requests -/

/-- Two objects of arguments with the same names in the same order, whose values may differ in how
they spell integers. -/
def RespelledMembers : Members → Members → Prop :=
  List.Forall₂ fun m m' => m.1 = m'.1 ∧ Respelled m.1 m.2 m'.2

section Members

variable {ms ns : Members} (h : RespelledMembers ms ns)

include h

/-- What reads the values of an argument alike reads both objects alike. -/
theorem read_find?_eq {α : Type} (read : Option Value → α) (name : String)
    (alike : ∀ v w, Respelled name v w → read (some v) = read (some w)) :
    read (Entries.find? name ms) = read (Entries.find? name ns) := by
  induction h with
  | nil => rfl
  | cons head _ ih =>
    obtain ⟨hname, hvalue⟩ := head
    rw [Entries.find?, Entries.find?, ← hname]
    split
    next heq => exact alike _ _ (heq ▸ hvalue)
    next => exact ih

/-- An argument that takes no integers is the same in both. -/
theorem find?_eq (name : String) (hname : ¬ TakesIntegers name) :
    Entries.find? name ms = Entries.find? name ns :=
  read_find?_eq h id name fun _ _ hvalue => congrArg some (hvalue.eq_of_not_takes hname)

theorem readUnits_eq : readUnits ms = readUnits ns := by
  induction h with
  | nil => rfl
  | cons head _ ih =>
    obtain ⟨hname, hvalue⟩ := head
    simp only [readUnits, List.filterMap_cons, hname, hvalue.asInt64?_eq] at ih ⊢
    rw [ih]

theorem readDateArgs_eq : readDateArgs ms = readDateArgs ns := by
  rw [readDateArgs, readDateArgs, find?_eq h "date_query" (by decide), readUnits_eq h]

/-- Two objects of arguments that spell their integers differently ask for the same. No argument
that takes integers is a query on custom fields, so where the reading of such a query has no end
(`MetaItem.read?`) it has none in both. -/
theorem read_respelled : Request.read (.object ms) = .read (.object ns) := by
  have number (name : String) : (Entries.find? name ms).bind Value.asInt64? =
      (Entries.find? name ns).bind Value.asInt64? :=
    read_find?_eq h (·.bind Value.asInt64?) name fun _ _ hvalue => hvalue.asInt64?_eq
  have natural (name : String) : (Entries.find? name ms).bind Value.asNatural? =
      (Entries.find? name ns).bind Value.asNatural? :=
    read_find?_eq h (·.bind Value.asNatural?) name fun _ _ hvalue => hvalue.asNatural?_eq
  have naturals (name : String) : (Entries.find? name ms).map Value.naturals =
      (Entries.find? name ns).map Value.naturals :=
    read_find?_eq h (·.map Value.naturals) name fun _ _ hvalue => congrArg some hvalue.naturals_eq
  have parent (name : String) : (Entries.find? name ms).bind ParentFilter.read? =
      (Entries.find? name ns).bind ParentFilter.read? :=
    read_find?_eq h (·.bind ParentFilter.read?) name fun _ _ hvalue => hvalue.parent?_eq
  show Request.ofMembers ms = .ofMembers ns
  simp only [Request.ofMembers, PageSize.read, number, natural, naturals, parent,
    readDateArgs_eq h]
  simp (disch := decide) only [find?_eq h]

end Members

/-- Authors, a page and a year in either form. What writes no integer and what takes none stays. -/
theorem read_respelled_page :
    let ms : Members := [("author__in", .array [.ofInt64 5, .ofInt64 (-3), "x"]),
      ("offset", .ofInt64 20), ("posts_per_page", .ofInt64 (-1)), ("s", "tea"),
      ("year", .ofInt64 2024)]
    let ns : Members := [("author__in", .array ["\t5", .ofInt64 (-3), "x"]),
      ("offset", " 20 "), ("posts_per_page", "-1"), ("s", "tea"), ("year", "2024\n")]
    RespelledMembers ms ns ∧ Request.read (.object ms) = .read (.object ns) := by
  intro ms ns
  have text (n : Int64) (front back : List Char) (s : String)
      (hs : s = String.ofList (front ++ intChars n.toInt ++ back))
      (front_blank : front.all isBlank = true) (back_blank : back.all isBlank = true) :
      Stands n (.string s) :=
    hs ▸ .text (List.all_eq_true.mp front_blank) (List.all_eq_true.mp back_blank)
  have five := text 5 ['\t'] [] "\t5" (by decide) (by decide) (by decide)
  have twenty := text 20 [' '] [' '] " 20 " (by decide) (by decide) (by decide)
  have unlimited := text (-1) [] [] "-1" (by decide) (by decide) (by decide)
  have year := text 2024 [] ['\n'] "2024\n" (by decide) (by decide) (by decide)
  have respelled : RespelledMembers ms ns :=
    .cons ⟨rfl, .items (by decide)
      (.cons (.inr ⟨5, .number, five⟩) (.cons (.inl rfl) (.cons (.inl rfl) .nil)))⟩
    (.cons ⟨rfl, .integer (by decide) .number twenty⟩
    (.cons ⟨rfl, .integer (by decide) .number unlimited⟩
    (.cons ⟨rfl, .same _⟩
    (.cons ⟨rfl, .integer (by decide) .number year⟩ .nil))))
  exact ⟨respelled, read_respelled respelled⟩

end ContentIndex.Query
