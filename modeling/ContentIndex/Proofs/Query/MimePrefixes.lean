import ContentIndex.Proofs.Query.Callers

/-
  Prefixes of mime types. A request for the types that start with some text is compiled into a
  pattern in the engine's language of regular expressions. That language is read in two steps here.
  `Pattern.read?` goes through the characters with one bit of state: after a backslash the next
  character stands for itself, and otherwise the operators are no characters of the text
  (`Pattern.Piece`). `Pattern.parts?` then takes the pieces as characters, each with a quantifier or
  without; groups, alternatives and the other operators have no meaning here.

  The escaped form of a text reads back as its characters and leaves no backslash open, whatever
  stands behind it (`Pattern.read?_literalPattern_append`). So the pattern of a prefix matches what
  starts with it and nothing else, and no two prefixes share a pattern (`leading_matches`).
-/

namespace ContentIndex.Query

open Calendar (Moment)

/-! ## Patterns -/

namespace Pattern

/-- The characters that are operators where no backslash stands in front of them. -/
def isOperator : Char → Bool
  | '.' | '?' | '+' | '*' | '|' | '\x7b' | '\x7d' | '[' | ']' | '(' | ')' | '"' | '\\' | '#' | '@'
  | '&' | '<' | '>' | '~' => true
  | _ => false

/-- What a pattern is made of. -/
inductive Piece where
  /-- A character that stands for itself. -/
  | literal (c : Char)
  | operator (c : Char)
deriving DecidableEq, Repr

/-- The pieces of a pattern from left to right, given whether a backslash stands in front. A pattern
that ends in an open backslash is none. -/
def read? : (escaped : Bool) → List Char → Option (List Piece)
  | false, [] => some []
  | true, [] => none
  | true, c :: cs => (read? false cs).map (.literal c :: ·)
  | false, c :: cs =>
    if c = '\\' then read? true cs
    else (read? false cs).map ((if isOperator c then .operator c else .literal c) :: ·)

/-- What stands for one character of a text. -/
inductive Atom where
  | char (c : Char)
  | any
deriving DecidableEq, Repr

def Atom.Accepts : Atom → Char → Prop
  | .char c, d => d = c
  | .any, _ => True

instance (a : Atom) (c : Char) : Decidable (a.Accepts c) :=
  match a with
  | .char d => inferInstanceAs (Decidable (c = d))
  | .any => inferInstanceAs (Decidable True)

/-- How many characters in a row an atom stands for. -/
inductive Times where
  | once
  | optional
  | several
  | any
deriving DecidableEq, Repr

def Times.Allows : Times → Nat → Prop
  | .once, n => n = 1
  | .optional, n => n ≤ 1
  | .several, n => 1 ≤ n
  | .any, _ => True

instance (t : Times) (n : Nat) : Decidable (t.Allows n) :=
  match t with
  | .once => inferInstanceAs (Decidable (n = 1))
  | .optional => inferInstanceAs (Decidable (n ≤ 1))
  | .several => inferInstanceAs (Decidable (1 ≤ n))
  | .any => inferInstanceAs (Decidable True)

structure Part where
  atom : Atom
  times : Times
deriving DecidableEq, Repr

def Piece.atom? : Piece → Option Atom
  | .literal c => some (.char c)
  | .operator '.' => some .any
  | .operator _ => none

def Piece.times? : Piece → Option Times
  | .operator '?' => some .optional
  | .operator '+' => some .several
  | .operator '*' => some .any
  | _ => none

/-- The parts of a pattern; a quantifier belongs to the atom in front of it. -/
def parts? : List Piece → Option (List Part)
  | [] => some []
  | [p] => p.atom?.map fun a => [⟨a, .once⟩]
  | p :: q :: ps => do
    let a ← p.atom?
    match q.times? with
    | some t => (parts? ps).map (⟨a, t⟩ :: ·)
    | none => (parts? (q :: ps)).map (⟨a, .once⟩ :: ·)

/-- A text consists of stretches that the parts stand for, one after the other. -/
def Fits : List Part → List Char → Prop
  | [], cs => cs = []
  | p :: ps, cs => ∃ n ≤ cs.length,
      p.times.Allows n ∧ (∀ c ∈ cs.take n, p.atom.Accepts c) ∧ Fits ps (cs.drop n)

def decidableFits : (ps : List Part) → (cs : List Char) → Decidable (Fits ps cs)
  | [], cs => inferInstanceAs (Decidable (cs = []))
  | p :: ps, cs =>
    have (cs : List Char) : Decidable (Fits ps cs) := decidableFits ps cs
    -- Going through the list, not through all characters.
    have (cs : List Char) : Decidable (∀ c ∈ cs, p.atom.Accepts c) := List.decidableBAll _ cs
    inferInstanceAs (Decidable (∃ n ≤ cs.length,
      p.times.Allows n ∧ (∀ c ∈ cs.take n, p.atom.Accepts c) ∧ Fits ps (cs.drop n)))

instance (ps : List Part) (cs : List Char) : Decidable (Fits ps cs) :=
  decidableFits ps cs

/-- The whole text matches the pattern. -/
def Matches (pattern text : String) : Prop :=
  ∃ parts ∈ (read? false pattern.toList).bind parts?, Fits parts text.toList

instance (pattern text : String) : Decidable (Matches pattern text) :=
  inferInstanceAs (Decidable (∃ parts ∈ (read? false pattern.toList).bind parts?, _))

/-! ### Escaped texts -/

theorem isOperator_iff (c : Char) : isOperator c = regexpMarks.contains c := by
  unfold isOperator
  split <;> simp_all [regexpMarks]

/-- The characters of the escaped form of a text. -/
def escape (cs : List Char) : List Char :=
  cs.flatMap fun c => if isOperator c then ['\\', c] else [c]

theorem toList_literalPattern (s : String) : (literalPattern s).toList = escape s.toList := by
  simp only [literalPattern, String.toList_ofList, escape, isOperator_iff]

/-- Reading undoes escaping and begins anew behind it. The induction is on the text: each of its
characters takes the reader back to the state without a backslash. -/
theorem read?_escape_append (cs rest : List Char) :
    read? false (escape cs ++ rest) = (read? false rest).map (cs.map .literal ++ ·) := by
  induction cs with
  | nil => simp [escape]
  | cons c cs ih =>
    have hescape : escape (c :: cs) = (if isOperator c then ['\\', c] else [c]) ++ escape cs := by
      simp [escape]
    have hcons : (read? false (escape cs ++ rest)).map (.literal c :: ·) =
        (read? false rest).map ((c :: cs).map .literal ++ ·) := by
      rw [ih, Option.map_map]
      rfl
    rw [hescape, ← hcons]
    cases hc : isOperator c with
    | true => rfl
    | false =>
      have hne : c ≠ '\\' := by
        rintro rfl
        cases hc
      simp only [Bool.false_eq_true, if_false, List.cons_append, List.nil_append, read?, if_neg hne,
        hc]

theorem read?_literalPattern (s : String) :
    read? false (literalPattern s).toList = some (s.toList.map .literal) := by
  have h := read?_escape_append s.toList []
  rw [toList_literalPattern]
  simpa [read?] using h

/-- What stands behind an escaped text is read as if it stood alone. -/
theorem read?_literalPattern_append (s rest : String) :
    read? false (literalPattern s ++ rest).toList =
      (read? false rest.toList).map (s.toList.map .literal ++ ·) := by
  rw [String.toList_append, toList_literalPattern, read?_escape_append]

/-! ### Characters that stand for themselves -/

/-- Characters in front of something that is no quantifier stand for themselves once. -/
theorem parts?_literals_append (cs : List Char) {q : Piece} (hq : q.times? = none)
    (ps : List Piece) :
    parts? (cs.map .literal ++ q :: ps) =
      (parts? (q :: ps)).map (cs.map (⟨.char ·, .once⟩) ++ ·) := by
  induction cs with
  | nil => simp
  | cons c cs ih =>
    have hnext : ∃ q' ps', cs.map .literal ++ q :: ps = q' :: ps' ∧ q'.times? = none := by
      cases cs with
      | nil => exact ⟨q, ps, rfl, hq⟩
      | cons d cs => exact ⟨.literal d, _, rfl, rfl⟩
    obtain ⟨q', ps', hrest, hq'⟩ := hnext
    rw [hrest] at ih
    rw [List.map_cons, List.cons_append, hrest, parts?]
    simp only [Piece.atom?, hq', ih, Option.map_map]
    rfl

theorem fits_once_char (c : Char) (ps : List Part) (cs : List Char) :
    Fits (⟨.char c, .once⟩ :: ps) cs ↔ ∃ rest, cs = c :: rest ∧ Fits ps rest := by
  rw [Fits]
  constructor
  · rintro ⟨n, hn, rfl, haccepts, hrest⟩
    cases cs with
    | nil => cases hn
    | cons d rest =>
      have hd : d = c := haccepts d List.mem_cons_self
      exact ⟨rest, by rw [hd], hrest⟩
  · rintro ⟨rest, rfl, hrest⟩
    exact ⟨1, Nat.le_add_left 1 _, rfl, fun d hd => List.mem_singleton.mp hd, hrest⟩

/-- Characters that stand for themselves are the beginning of the text. -/
theorem fits_chars_append (cs : List Char) (ps : List Part) (text : List Char) :
    Fits (cs.map (⟨.char ·, .once⟩) ++ ps) text ↔ ∃ rest, text = cs ++ rest ∧ Fits ps rest := by
  induction cs generalizing text with
  | nil => simp
  | cons c cs ih =>
    rw [List.map_cons, List.cons_append, fits_once_char]
    constructor
    · rintro ⟨tail, rfl, htail⟩
      obtain ⟨rest, rfl, hrest⟩ := (ih tail).mp htail
      exact ⟨rest, rfl, hrest⟩
    · rintro ⟨rest, rfl, hrest⟩
      exact ⟨cs ++ rest, rfl, (ih _).mpr ⟨rest, rfl, hrest⟩⟩

/-- Any number of any characters is any text. -/
theorem fits_anything (cs : List Char) : Fits [⟨.any, .any⟩] cs :=
  ⟨cs.length, Nat.le_refl _, trivial, fun _ _ => trivial, List.drop_length⟩

/-- An escaped text and anything behind it. -/
def leading (s : String) : String := literalPattern s ++ ".*"

theorem matches_leading_iff (s text : String) :
    Matches (leading s) text ↔ s.toList <+: text.toList := by
  have hread : read? false (leading s).toList =
      some (s.toList.map .literal ++ [.operator '.', .operator '*']) := by
    rw [leading, read?_literalPattern_append]
    rfl
  have hparts : parts? (s.toList.map .literal ++ [.operator '.', .operator '*']) =
      some (s.toList.map (⟨.char ·, .once⟩) ++ [⟨.any, .any⟩]) := by
    rw [parts?_literals_append _ rfl]
    rfl
  have hfits : Matches (leading s) text ↔
      Fits (s.toList.map (⟨.char ·, .once⟩) ++ [⟨.any, .any⟩]) text.toList := by
    simp only [Matches, hread, Option.bind_some, hparts, Option.mem_some_iff, exists_eq_left']
  rw [hfits, fits_chars_append]
  constructor
  · rintro ⟨rest, htext, -⟩
    exact ⟨rest, htext.symm⟩
  · rintro ⟨rest, htext⟩
    exact ⟨rest, htext.symm, fits_anything rest⟩

/-- Without the backslash the plus is a quantifier. -/
example : Matches "xhtml+xml.*" "xhtmllxml" ∧ ¬Matches "xhtml\\+xml.*" "xhtmllxml" := by
  decide +kernel

theorem leading_inj {s other : String} : leading other = leading s ↔ other = s := by
  refine ⟨fun h => ?_, fun h => by rw [h]⟩
  have hescaped : literalPattern other = literalPattern s := by
    simpa [leading, ← String.toList_inj] using h
  have hread := read?_literalPattern other
  rw [hescaped, read?_literalPattern, Option.some.injEq] at hread
  exact String.toList_inj.mp ((List.map_inj_right fun _ _ => Piece.literal.inj).mp hread.symm)

end Pattern

/-! ## Requests -/

/-- The patterns that are asked of the mime type match as they do for a document that has this
one. -/
def HasMimeType (type : String) (leaf : Clause → Bool) : Prop :=
  ∀ pattern, leaf (.regexp "post_mime_type" pattern) = true ↔ Pattern.Matches pattern type

variable (r : Request) (c : Config) (privileged : Bool) (now : Moment)

/-- The pattern of a prefix is among the clauses that must match. -/
theorem regexp_mem_membership (s : String) :
    .regexp "post_mime_type" (Pattern.leading s) ∈
      ({ r with mimeType := some (.leading s) }.membership c privileged now).must := by
  simp [Request.membership, MimeFilter.clause?, Pattern.leading]

theorem Request.asks_mimeType (m : MimeFilter) (d : Dimension) :
    { r with mimeType := some m }.asks c privileged now d =
      if d = .mimeType then m.asks
      else { r with mimeType := none }.asks c privileged now d := by
  cases d <;> rfl

/-- A filter by mime type takes nothing away but the documents that it does not match. -/
theorem admits_mimeType_iff (m : MimeFilter) (leaf : Clause → Bool) :
    (compile c [] { r with mimeType := some m } privileged now).admits leaf = true ↔
      (compile c [] { r with mimeType := none } privileged now).admits leaf = true ∧
        ∀ f ∈ m.asks, f leaf = true := by
  have hnone : { r with mimeType := none }.asks c privileged now .mimeType = [] := rfl
  simp only [admits_compile_iff, r.asks_mimeType c privileged now m]
  constructor
  · intro h
    refine ⟨fun d f hf => h d f ?_, h .mimeType⟩
    by_cases hd : d = .mimeType
    · subst hd
      rw [hnone] at hf
      exact absurd hf List.not_mem_nil
    · rwa [if_neg hd]
  · rintro ⟨hrest, hmime⟩ d f hf
    split at hf
    · exact hmime f hf
    · exact hrest d f hf

/-- The escaped form of a text has no operator outside of the reach of a backslash and reads back as
the text. So the pattern that is compiled for a prefix matches exactly what starts with it, a
request for it gets exactly the documents whose mime type does, and other prefixes have other
patterns. -/
theorem leading_matches (s : String) :
    Pattern.read? false (literalPattern s).toList = some (s.toList.map .literal) ∧
      (∀ text, Pattern.Matches (Pattern.leading s) text ↔ s.toList <+: text.toList) ∧
      (∀ other, Pattern.leading other = Pattern.leading s ↔ other = s) ∧
      ∀ (r : Request) (c : Config) (privileged : Bool) (now : Moment),
        let q := compile c [] { r with mimeType := some (.leading s) } privileged now
        let unrestricted := compile c [] { r with mimeType := none } privileged now
        (∃ parts, q.postFilter = some (.bool parts) ∧
          .regexp "post_mime_type" (Pattern.leading s) ∈ parts.must) ∧
        ∀ type leaf, HasMimeType type leaf →
          (q.admits leaf = true ↔
            unrestricted.admits leaf = true ∧ s.toList <+: type.toList) := by
  refine ⟨Pattern.read?_literalPattern s, Pattern.matches_leading_iff s,
    fun _ => Pattern.leading_inj, fun r c privileged now => ⟨?_, fun type leaf htype => ?_⟩⟩
  · have hmem := regexp_mem_membership r c privileged now s
    refine ⟨_, ?_, hmem⟩
    rw [compile_postFilter, if_neg]
    intro hempty
    simp only [Compound.isEmpty, Bool.and_eq_true, List.isEmpty_iff] at hempty
    rw [hempty.1.1.1] at hmem
    cases hmem
  · rw [admits_mimeType_iff, ← Pattern.matches_leading_iff, ← htype]
    simp [MimeFilter.asks, Pattern.leading]

/-- All clauses on fields match, but the patterns for the mime type match as they do for a document
that has this one. -/
def matchingMimeType (type : String) : Clause → Bool
  | .regexp "post_mime_type" pattern => decide (Pattern.Matches pattern type)
  | _ => true

theorem hasMimeType_matchingMimeType (type : String) : HasMimeType type (matchingMimeType type) :=
  fun _ => decide_eq_true_iff

/-- The plus in the prefix is the character that it is. -/
theorem leading_matches_plus :
    let q := compile {} [] { mimeType := some (.leading "application/xhtml+xml") } false .epoch
    HasMimeType "application/xhtml+xml; q=1" (matchingMimeType "application/xhtml+xml; q=1") ∧
      q.admits (matchingMimeType "application/xhtml+xml; q=1") = true ∧
      q.admits (matchingMimeType "application/xhtmllxml") = false := by
  intro q
  have admits_iff (type : String) : q.admits (matchingMimeType type) = true ↔
      "application/xhtml+xml".toList <+: type.toList := by
    obtain ⟨-, -, -, hcompile⟩ := leading_matches "application/xhtml+xml"
    have hadmits := (hcompile {} {} false .epoch).2 type _ (hasMimeType_matchingMimeType type)
    have hunrestricted :
        (compile {} [] {} false .epoch).admits (matchingMimeType type) = true := rfl
    exact hadmits.trans (and_iff_right hunrestricted)
  refine ⟨hasMimeType_matchingMimeType _, (admits_iff _).mpr ?_, ?_⟩
  · decide +kernel
  · rw [← Bool.not_eq_true, admits_iff]
    decide +kernel

end ContentIndex.Query
