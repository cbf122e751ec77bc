import Asl.Proofs.Grammar

/-!
# The step is exact for the grammar

The step commits itself on the first character of a text and then follows
one handler. This module goes once through the handlers, in both
directions. A reading that stands before what follows it is what the step
reads there (`munch_of_before`), and whatever the step reads stands before
what it leaves (`before_munch`). Together they are `munch_eq_iff`.

Two sorts of loop need an argument. A run – of word characters, digits,
blanks or a comment – ends where its class does. The body of a string
literal is read in units, and a unit is never split by what comes after it:
the units of a body and the way it ends can be read off separately
(`StringBody.read_append`, `StringBody.read_loose`).
-/

namespace Asl

/-! ## Classes of characters and what they announce -/

namespace Lexicon

theorem isLetter_iff {c : Char} :
    isLetter c = true ↔ 97 ≤ c.toNat ∧ c.toNat ≤ 122 ∨ 65 ≤ c.toNat ∧ c.toNat ≤ 90 := by
  simp [isLetter, Char.le_def, UInt32.le_iff_toNat_le]

theorem isDigit_iff {c : Char} : isDigit c = true ↔ 48 ≤ c.toNat ∧ c.toNat ≤ 57 := by
  simp [isDigit, Char.le_def, UInt32.le_iff_toNat_le]

/-- No character is both a letter and a digit. -/
theorem isDigit_eq_false_of_isLetter {c : Char} (h : isLetter c = true) :
    isDigit c = false := by
  rw [isLetter_iff] at h
  rw [Bool.eq_false_iff, ne_eq, isDigit_iff]
  omega

/-- A word character is none of the characters that end a word. -/
theorem ne_of_isWordChar {c d : Char} (h : isWordChar c = true) (hd : isWordChar d = false) :
    c ≠ d := by
  rintro rfl
  rw [h] at hd
  exact Bool.noConfusion hd

theorem isSpace_eq_false_of_isWordChar {c : Char} (h : isWordChar c = true) :
    isSpace c = false := by
  simp only [isSpace, Bool.or_eq_false_iff, decide_eq_false_iff_not]
  exact ⟨⟨⟨ne_of_isWordChar h rfl, ne_of_isWordChar h rfl⟩, ne_of_isWordChar h rfl⟩,
    ne_of_isWordChar h rfl⟩

/-- A line ends with a carriage return or a line feed. -/
theorem isLineEnd_iff {c : Char} : isLineEnd c = true ↔ c = '\r' ∨ c = '\n' := by
  simp [isLineEnd]

/-- The kind of a reserved word is the one the table gives it. -/
theorem wordKind_of_mem {w : String} {kind : TokenKind} (h : (w, kind) ∈ keywords) :
    wordKind w.toList = kind := by
  have hall : ∀ k ∈ keywords, wordKind k.1.toList = k.2 := by decide
  exact hall _ h

/-- A word that spells none of the reserved ones is a name. -/
theorem wordKind_of_forall_ne {w : Text} (h : ∀ k ∈ keywords, k.1.toList ≠ w) :
    wordKind w = .ident := by
  unfold wordKind
  rw [List.find?_eq_none.2 (fun k hk => by simpa using h k hk)]

/-- Every reserved word is a word. -/
theorem exists_word_of_mem {w : String} {kind : TokenKind} (h : (w, kind) ∈ keywords) :
    ∃ c t, w.toList = c :: t ∧ isLetter c = true ∧ ∀ d ∈ t, isWordChar d = true := by
  have hall : ∀ k ∈ keywords, k.1.toList ≠ [] ∧ k.1.toList.all isLetter = true := by decide
  obtain ⟨hn, hl⟩ := hall _ h
  obtain ⟨c, t, ht⟩ := List.exists_cons_of_ne_nil hn
  rw [ht, List.all_cons, Bool.and_eq_true, List.all_eq_true] at hl
  refine ⟨c, t, ht, hl.1, fun d hd => ?_⟩
  rw [isWordChar, hl.2 d hd, Bool.true_or]

/-- An entry found in a table is in the table. -/
theorem mem_of_lookup {α β : Type} [BEq α] [LawfulBEq α] {l : List (α × β)} {a : α} {b : β}
    (h : l.lookup a = some b) : (a, b) ∈ l := by
  obtain ⟨l₁, l₂, rfl, -⟩ := List.lookup_eq_some_iff.1 h
  simp

end Lexicon

/-- The codes of the grammar are those of the table of escapes. -/
theorem Escape.isCode_iff {c : Char} : isCode c = true ↔ c ∈ Grammar.codes := by
  constructor
  · intro h
    have hall : ∀ k ∈ table, k.1 ∈ Grammar.codes := by decide
    obtain ⟨d, hd⟩ := Option.isSome_iff_exists.1 h
    exact hall _ (Lexicon.mem_of_lookup hd)
  · intro h
    have hall : Grammar.codes.all isCode = true := by decide
    exact List.all_eq_true.1 hall c h

namespace Lead

open Lexicon

/-- A word character announces a number or a word. -/
theorem of?_of_isWordChar {c : Char} (h : isWordChar c = true) :
    of? c = if isDigit c then some .digit else some .letter := by
  unfold of?
  rw [if_neg (ne_of_isWordChar h rfl), if_neg (ne_of_isWordChar h rfl),
    if_neg (ne_of_isWordChar h rfl), isSpace_eq_false_of_isWordChar h,
    if_neg Bool.false_ne_true]
  by_cases hd : isDigit c = true
  · rw [if_pos hd, if_pos hd]
  · rw [isWordChar, Bool.or_eq_true] at h
    rw [if_neg hd, if_neg hd, if_pos (h.resolve_right hd)]

theorem of?_of_isDigit {c : Char} (h : isDigit c = true) : of? c = some .digit := by
  rw [of?_of_isWordChar (by rw [isWordChar, h, Bool.or_true]), if_pos h]

theorem of?_of_isLetter {c : Char} (h : isLetter c = true) : of? c = some .letter := by
  rw [of?_of_isWordChar (by rw [isWordChar, h, Bool.true_or]),
    isDigit_eq_false_of_isLetter h, if_neg Bool.false_ne_true]

theorem of?_of_isSpace {c : Char} (h : isSpace c = true) : of? c = some .space := by
  unfold of?
  grind [isSpace]

/-- What a punctuation mark announces is its own kind. -/
theorem of?_of_mem_punctuation {c : Char} {kind : TokenKind} (h : (c, kind) ∈ punctuation) :
    of? c = some (.single kind) := by
  have hall : ∀ k ∈ punctuation, of? k.1 = some (.single k.2) := by decide
  exact hall _ h

theorem isLetter_of_letter {c : Char} (h : of? c = some .letter) : isLetter c = true := by
  unfold of? at h
  grind [Option.map_eq_some_iff]

theorem isDigit_of_digit {c : Char} (h : of? c = some .digit) : isDigit c = true := by
  unfold of? at h
  grind [Option.map_eq_some_iff]

theorem isSpace_of_space {c : Char} (h : of? c = some .space) : isSpace c = true := by
  unfold of? at h
  grind [Option.map_eq_some_iff]

theorem mem_punctuation_of_single {c : Char} {kind : TokenKind}
    (h : of? c = some (.single kind)) : (c, kind) ∈ punctuation := by
  unfold of? at h
  grind [Option.map_eq_some_iff, mem_of_lookup]

theorem mem_comparisons_of_comparison {c : Char} {alone : Option TokenKind}
    {withEquals : TokenKind} (h : of? c = some (.comparison alone withEquals)) :
    (c, (alone, withEquals)) ∈ comparisons := by
  unfold of? at h
  grind [Option.map_eq_some_iff, mem_of_lookup]

end Lead

/-! ## Runs -/

namespace Text

variable {p : Char → Bool} {w u : Text}

/-- A run ends before the first character outside its class. -/
theorem takeWhile_run (hw : ∀ d ∈ w, p d = true) (hu : ∀ d ∈ u.head?, p d = false) :
    (w ++ u).takeWhile p = w := by
  rw [List.takeWhile_append_of_pos hw]
  cases u with
  | nil => rw [List.takeWhile_nil, List.append_nil]
  | cons d u =>
    rw [List.takeWhile_cons_of_neg (by simp [hu d rfl]), List.append_nil]

theorem dropWhile_run (hw : ∀ d ∈ w, p d = true) (hu : ∀ d ∈ u.head?, p d = false) :
    (w ++ u).dropWhile p = u := by
  rw [List.dropWhile_append_of_pos hw]
  cases u with
  | nil => rfl
  | cons d u => rw [List.dropWhile_cons_of_neg (by simp [hu d rfl])]

/-- What stands after a run is outside its class. -/
theorem head?_dropWhile_eq_false (p : Char → Bool) (t : Text) :
    ∀ d ∈ (t.dropWhile p).head?, p d = false := by
  intro d hd
  have h := List.head?_dropWhile_not p t
  rw [Option.mem_def.1 hd] at h
  exact h

/-- A text divides into a run and what the run ends before. -/
theorem exists_run (p : Char → Bool) (t : Text) :
    ∃ v u, t = v ++ u ∧ (∀ d ∈ v, p d = true) ∧ ∀ d ∈ u.head?, p d = false :=
  ⟨t.takeWhile p, t.dropWhile p, List.takeWhile_append_dropWhile.symm,
    fun _ hd => List.mem_takeWhile_imp hd, head?_dropWhile_eq_false p t⟩

end Text

/-! ## Bodies of string literals -/

namespace BodyUnit

/-- A unit of a string literal is in particular a unit of a body. -/
theorem inBody_of_fits {u : BodyUnit} (h : u.Fits ['"', '\r', '\n']) : u.InBody := by
  cases u with
  | plain c =>
    obtain ⟨hb, hc⟩ := h
    simp only [List.mem_cons, List.not_mem_nil, or_false, not_or] at hc
    refine ⟨hb, hc.1, ?_⟩
    rw [Bool.eq_false_iff, ne_eq, Lexicon.isLineEnd_iff]
    exact not_or.2 hc.2
  | pair code =>
    have hall : Grammar.codes.any Lexicon.isLineEnd = false := by decide
    exact Bool.eq_false_iff.2 (List.any_eq_false.1 hall code h)

/-- A character of a body is a unit of a string literal. -/
theorem fits_of_inBody_plain {c : Char} (h : (plain c).InBody) :
    (plain c).Fits ['"', '\r', '\n'] := by
  obtain ⟨hb, hq, hl⟩ := h
  rw [Bool.eq_false_iff, ne_eq, Lexicon.isLineEnd_iff, not_or] at hl
  refine ⟨hb, ?_⟩
  simp only [List.mem_cons, List.not_mem_nil, or_false, not_or]
  exact ⟨hq, hl⟩

end BodyUnit

namespace StringBody

theorem text_append (us vs : List BodyUnit) : text (us ++ vs) = text us ++ text vs :=
  List.flatMap_append

theorem text_map_plain (w : Text) : text (w.map .plain) = w := by
  induction w with
  | nil => rfl
  | cons c w ih => rw [List.map_cons, text_cons, ih]; rfl

/-- A body is read one unit at a time, whatever follows. -/
theorem read_unit {u : BodyUnit} (hu : u.InBody) (t : Text) :
    read (u.text ++ t) = push u (read t) := by
  cases u with
  | plain c =>
    obtain ⟨hb, hq, hl⟩ := hu
    show read (c :: t) = _
    rw [read.eq_3 c t (fun _ _ he => absurd he hb), if_neg (by simp [hq, hl])]
  | pair code =>
    show read ('\\' :: code :: t) = _
    rw [read, if_neg (by rw [hu]; exact Bool.false_ne_true)]

/-- The units of a body are read off the front of it. -/
theorem read_append {us : List BodyUnit} (hu : ∀ u ∈ us, u.InBody) (t : Text) :
    read (text us ++ t) = (us ++ (read t).1, (read t).2) := by
  induction us with
  | nil => rfl
  | cons u us ih =>
    rw [text_cons, List.append_assoc, read_unit (hu u List.mem_cons_self),
      ih (fun v hv => hu v (List.mem_cons_of_mem u hv))]
    rfl

/-- A double quote ends a body. -/
theorem read_quote (t : Text) : read ('"' :: t) = ([], '"' :: t) := rfl

/-- A line end and the end of the text end a body, after a backslash too. -/
theorem read_loose {w u : Text} (hw : LooseEnd w) (hu : ∀ d ∈ u.head?, Lexicon.isLineEnd d = true) :
    read (w ++ u) = (w.map .plain, u) := by
  obtain rfl | rfl := hw
  · cases u with
    | nil => rfl
    | cons d u =>
      have hd := hu d rfl
      have hb : d ≠ '\\' := by rintro rfl; revert hd; decide
      show read (d :: u) = _
      rw [read.eq_3 d u (fun _ _ he => absurd he hb), if_pos (by simp [hd])]
      rfl
  · cases u with
    | nil => rfl
    | cons d u =>
      show read ('\\' :: d :: u) = _
      rw [read, if_pos (hu d rfl)]
      rfl

/-- A body that is closed. -/
theorem read_closed {us : List BodyUnit} (hu : ∀ u ∈ us, u.InBody) (t : Text) :
    read (text us ++ '"' :: t) = (us, '"' :: t) := by
  rw [read_append hu, read_quote, List.append_nil]

/-- A body that is not. -/
theorem read_open {us : List BodyUnit} (hu : ∀ u ∈ us, u.InBody) {w t : Text} (hw : LooseEnd w)
    (ht : ∀ d ∈ t.head?, Lexicon.isLineEnd d = true) :
    read (text us ++ (w ++ t)) = (us ++ w.map .plain, t) := by
  rw [read_append hu, read_loose hw ht]

/-- **What reading a body gives**: units, and the text from where the body
ends – a double quote, or a loose end. -/
def IsRead (r : List BodyUnit × Text) : Prop :=
  ∃ us, (∀ u ∈ us, u.InBody) ∧
    ((∃ v, r = (us, '"' :: v)) ∨
      ∃ w v, LooseEnd w ∧ (∀ d ∈ v.head?, Lexicon.isLineEnd d = true) ∧
        r = (us ++ w.map .plain, v))

theorem isRead_push {u : BodyUnit} (hu : u.InBody) {r : List BodyUnit × Text} (h : IsRead r) :
    IsRead (push u r) := by
  obtain ⟨us, hus, h⟩ := h
  refine ⟨u :: us, List.forall_mem_cons.2 ⟨hu, hus⟩, ?_⟩
  obtain ⟨v, rfl⟩ | ⟨w, v, hw, hv, rfl⟩ := h
  · exact .inl ⟨v, rfl⟩
  · exact .inr ⟨w, v, hw, hv, rfl⟩

theorem isRead_read (t : Text) : IsRead (read t) := by
  fun_induction read t with
  | case1 => exact ⟨[], by simp, .inr ⟨[], [], .inl rfl, by simp, rfl⟩⟩
  | case2 code t h =>
    exact ⟨[], by simp, .inr ⟨['\\'], code :: t, .inr rfl, by simpa using h, rfl⟩⟩
  | case3 code t h ih => exact isRead_push (by simpa [BodyUnit.InBody] using h) ih
  | case4 c t _ h =>
    rw [Bool.or_eq_true, decide_eq_true_eq] at h
    obtain rfl | h := h
    · exact ⟨[], by simp, .inl ⟨t, rfl⟩⟩
    · exact ⟨[], by simp, .inr ⟨[], c :: t, .inl rfl, by simpa using h, rfl⟩⟩
  | case5 c t hb h ih =>
    by_cases hc : c = '\\'
    · -- a backslash with nothing after it, or it would have paired
      subst hc
      cases t with
      | nil => exact ⟨[], by simp, .inr ⟨['\\'], [], .inr rfl, by simp, rfl⟩⟩
      | cons d t => exact absurd rfl (hb d t rfl)
    · refine isRead_push (u := .plain c) ⟨hc, ?_⟩ ih
      simpa using h

/-- Units whose codes are all known hold nothing to report. -/
theorem firstBad_append {us : List BodyUnit} {barred : List Char} (hu : ∀ u ∈ us, u.Fits barred)
    (vs : List BodyUnit) :
    firstBad (us ++ vs) = (firstBad vs).map fun r => (us ++ r.1, r.2) := by
  induction us with
  | nil => simp
  | cons u us ih =>
    rw [List.forall_mem_cons] at hu
    cases u with
    | plain c => simp [firstBad, ih hu.2, Function.comp_def]
    | pair code =>
      simp [firstBad, ih hu.2, Escape.isCode_iff.2 hu.1, Function.comp_def]

theorem firstBad_map_plain (w : Text) : firstBad (w.map .plain) = none := by
  induction w with
  | nil => rfl
  | cons c w ih => rw [List.map_cons, firstBad, ih]; rfl

/-- A pair whose code is unknown is reported, whatever follows it. -/
theorem firstBad_pair {code : Char} (hc : code ∉ Grammar.codes) (vs : List BodyUnit) :
    firstBad (.pair code :: vs) = some ([], code, vs) := by
  rw [firstBad, if_neg (by rwa [Escape.isCode_iff])]

/-- Units of a body either are all known, or divide at the first pair that is
not. -/
theorem forall_fits_or_exists {us : List BodyUnit} (hu : ∀ u ∈ us, u.InBody) :
    (∀ u ∈ us, u.Fits ['"', '\r', '\n']) ∨
      ∃ before code after, us = before ++ .pair code :: after ∧
        (∀ u ∈ before, u.Fits ['"', '\r', '\n']) ∧ code ∉ Grammar.codes := by
  induction us with
  | nil => exact .inl (by simp)
  | cons u us ih =>
    rw [List.forall_mem_cons] at hu
    by_cases hf : u.Fits ['"', '\r', '\n']
    · obtain h | ⟨before, code, after, rfl, hb, hc⟩ := ih hu.2
      · exact .inl (List.forall_mem_cons.2 ⟨hf, h⟩)
      · exact .inr ⟨u :: before, code, after, rfl, List.forall_mem_cons.2 ⟨hf, hb⟩, hc⟩
    · cases u with
      | plain c => exact absurd (BodyUnit.fits_of_inBody_plain hu.1) hf
      | pair code => exact .inr ⟨[], code, us, rfl, by simp, hf⟩

end StringBody

/-! ## What stands before the next character is read -/

namespace Step

variable {t u : Text}

/-- An operator that no equals sign follows, and that stands alone. -/
theorem comparison_alone {c : Char} {kind withEquals : TokenKind} (h : ∀ d ∈ t.head?, d ≠ '=') :
    comparison c (some kind) withEquals t = ofLexeme kind [c] t := by
  unfold comparison
  split
  · exact absurd rfl (h '=' rfl)
  · rfl

/-- An operator that no equals sign follows, and that does not. -/
theorem comparison_bare {c : Char} {withEquals : TokenKind} (h : ∀ d ∈ t.head?, d ≠ '=') :
    comparison c none withEquals t = ofFault (.bareOperator c) [c] t := by
  unfold comparison
  split
  · exact absurd rfl (h '=' rfl)
  · rfl

/-- A slash that no slash follows. -/
theorem slash_of_ne (h : ∀ d ∈ t.head?, d ≠ '/') : slash t = ofLexeme .div ['/'] t := by
  unfold slash
  rw [if_neg (show ¬ t.head? = some '/' from fun hd => h '/' hd rfl)]

/-- A comment goes on until the line ends. -/
theorem slash_comment {w : Text} (hw : ∀ d ∈ w, Lexicon.isLineEnd d = false)
    (hu : ∀ d ∈ u.head?, Lexicon.isLineEnd d = true) :
    slash ('/' :: w ++ u) = ofLexeme .comment ('/' :: '/' :: w) u := by
  have hrun : ∀ d ∈ '/' :: w, (!Lexicon.isLineEnd d) = true := by
    rw [List.forall_mem_cons]
    exact ⟨rfl, fun d hd => by rw [hw d hd]; rfl⟩
  have hstop : ∀ d ∈ u.head?, (!Lexicon.isLineEnd d) = false := fun d hd => by
    rw [hu d hd]; rfl
  unfold slash
  rw [if_pos (show ('/' :: w ++ u).head? = some '/' from rfl), Text.takeWhile_run hrun hstop,
    Text.dropWhile_run hrun hstop]

theorem word_run {c : Char} {w : Text} (hw : ∀ d ∈ w, Lexicon.isWordChar d = true)
    (hu : ∀ d ∈ u.head?, Lexicon.isWordChar d = false) :
    word c (w ++ u) = ofLexeme (Lexicon.wordKind (c :: w)) (c :: w) u := by
  unfold word
  rw [Text.takeWhile_run hw hu, Text.dropWhile_run hw hu]

theorem space_run {c : Char} {w : Text} (hw : ∀ d ∈ w, Lexicon.isSpace d = true)
    (hu : ∀ d ∈ u.head?, Lexicon.isSpace d = false) :
    space c (w ++ u) = ofLexeme .space (c :: w) u := by
  unfold space
  rw [Text.takeWhile_run hw hu, Text.dropWhile_run hw hu]

/-- Digits with no point after them. -/
theorem number_int {c : Char} {ds : Text} (hd : ∀ d ∈ ds, Lexicon.isDigit d = true)
    (hu : ∀ d ∈ u.head?, Lexicon.isDigit d = false ∧ d ≠ '.') :
    number c (ds ++ u) = ofLexeme .intval (c :: ds) u := by
  have hstop : ∀ d ∈ u.head?, Lexicon.isDigit d = false := fun d h => (hu d h).1
  unfold number
  rw [Text.takeWhile_run hd hstop, Text.dropWhile_run hd hstop]
  cases u with
  | nil => rfl
  | cons d u =>
    dsimp only
    split
    · next h => exact absurd (List.cons.inj h).1 (hu d rfl).2
    · rfl

/-- Digits and a point: what follows the point decides. -/
theorem number_point {c : Char} {ds : Text} (hd : ∀ d ∈ ds, Lexicon.isDigit d = true) :
    number c (ds ++ '.' :: u) = fraction (c :: ds) u := by
  have hstop : ∀ d ∈ ('.' :: u).head?, Lexicon.isDigit d = false := by
    rintro d ⟨⟩
    rfl
  unfold number
  rw [Text.takeWhile_run hd hstop, Text.dropWhile_run hd hstop]
  rfl

theorem fraction_run {digits es : Text} (hn : es ≠ [])
    (he : ∀ d ∈ es, Lexicon.isDigit d = true) (hu : ∀ d ∈ u.head?, Lexicon.isDigit d = false) :
    fraction digits (es ++ u) = ofLexeme .floatval (digits ++ '.' :: es) u := by
  unfold fraction
  rw [Text.takeWhile_run he hu, Text.dropWhile_run he hu]
  cases es with
  | nil => exact absurd rfl hn
  | cons e es => rfl

theorem fraction_missing {digits : Text} (hu : ∀ d ∈ u.head?, Lexicon.isDigit d = false) :
    fraction digits u = ofFault .missingFraction (digits ++ ['.']) u := by
  have h : u.takeWhile Lexicon.isDigit = [] :=
    Text.takeWhile_run (w := []) (by simp) hu
  unfold fraction
  rw [h]

/-- The payload of a character literal, and then its closing quote. -/
theorem charLiteral_unit {v : BodyUnit} (hv : v.Fits ['\'']) (t : Text) :
    charLiteral (v.text ++ t) = closeChar ('\'' :: v.text) t := by
  cases v with
  | plain c =>
    obtain ⟨hb, hq⟩ := hv
    rw [List.mem_singleton] at hq
    show charLiteral (c :: t) = _
    rw [charLiteral.eq_5 c t hq (fun he _ => hb he) (fun _ _ he => absurd he hb)]
    rfl
  | pair code =>
    show charLiteral ('\\' :: code :: t) = _
    rw [charLiteral, if_pos (Escape.isCode_iff.2 hv)]
    rfl

theorem closeChar_of_ne {opened : Text} (h : ∀ d ∈ t.head?, d ≠ '\'') :
    closeChar opened t = ofFault .unclosedChar opened t := by
  fun_cases closeChar with
  | case1 t => exact absurd rfl (h '\'' rfl)
  | case2 t _ => rfl

theorem closing_of_isLineEnd (h : ∀ d ∈ t.head?, Lexicon.isLineEnd d = true) :
    closing t = ([], t) := by
  fun_cases closing with
  | case1 t => exact absurd (h '"' rfl) (by decide)
  | case2 t _ => rfl

section StringLiteral

variable {us vs : List BodyUnit} {code : Char} {w : Text}
variable (hu : ∀ u ∈ us, u.Fits ['"', '\r', '\n'])
include hu

/-- A string literal with known escapes, closed. -/
theorem stringLiteral_closed :
    stringLiteral (StringBody.text us ++ '"' :: u)
      = ofLexeme .stringval ('"' :: StringBody.text us ++ ['"']) u := by
  have hb : StringBody.firstBad us = none := by
    have h := StringBody.firstBad_append hu []
    rwa [List.append_nil] at h
  unfold stringLiteral
  rw [StringBody.read_closed (fun v hv => BodyUnit.inBody_of_fits (hu v hv))]
  dsimp only
  rw [hb]
  rfl

/-- A string literal with known escapes that the line or the text ends. -/
theorem stringLiteral_open (hw : StringBody.LooseEnd w)
    (ht : ∀ d ∈ u.head?, Lexicon.isLineEnd d = true) :
    stringLiteral (StringBody.text us ++ (w ++ u))
      = ofFault .openString ('"' :: StringBody.text us ++ w) u := by
  have hb : StringBody.firstBad (us ++ w.map .plain) = none := by
    rw [StringBody.firstBad_append hu, StringBody.firstBad_map_plain]
    rfl
  unfold stringLiteral
  rw [StringBody.read_open (fun v hv => BodyUnit.inBody_of_fits (hu v hv)) hw ht]
  dsimp only
  rw [hb, closing_of_isLineEnd ht, StringBody.text_append, StringBody.text_map_plain]
  rfl

variable (hl : Lexicon.isLineEnd code = false) (hv : ∀ v ∈ vs, v.InBody)
include hl hv

/-- The units around a pair that is no escape are those of one body. -/
theorem inBody_around : ∀ v ∈ us ++ .pair code :: vs, v.InBody := by
  intro v hm
  rw [List.mem_append, List.mem_cons] at hm
  obtain hm | rfl | hm := hm
  · exact BodyUnit.inBody_of_fits (hu v hm)
  · exact hl
  · exact hv v hm

variable (hc : code ∉ Grammar.codes)
include hc

/-- A closed string literal with a pair that is no escape. -/
theorem stringLiteral_badClosed :
    stringLiteral (StringBody.text us ++ '\\' :: code :: (StringBody.text vs ++ '"' :: u))
      = ⟨.fault (.badEscape code) ('"' :: StringBody.text us) ['\\', code]
          (StringBody.text vs ++ ['"']), u⟩ := by
  have hr := StringBody.read_closed (inBody_around hu hl hv) u
  rw [StringBody.text_append, StringBody.text_cons] at hr
  simp only [BodyUnit.text, List.cons_append, List.nil_append, List.append_assoc] at hr
  unfold stringLiteral
  rw [hr]
  dsimp only
  rw [StringBody.firstBad_append hu, StringBody.firstBad_pair hc]
  simp [closing]

/-- A string literal with such a pair that the line or the text ends. -/
theorem stringLiteral_badOpen (hw : StringBody.LooseEnd w)
    (ht : ∀ d ∈ u.head?, Lexicon.isLineEnd d = true) :
    stringLiteral (StringBody.text us ++ '\\' :: code :: (StringBody.text vs ++ (w ++ u)))
      = ⟨.fault (.badEscape code) ('"' :: StringBody.text us) ['\\', code]
          (StringBody.text vs ++ w), u⟩ := by
  have hr := StringBody.read_open (inBody_around hu hl hv) hw ht
  rw [StringBody.text_append, StringBody.text_cons] at hr
  simp only [BodyUnit.text, List.cons_append, List.nil_append, List.append_assoc] at hr
  unfold stringLiteral
  rw [hr]
  dsimp only
  rw [StringBody.firstBad_append hu, StringBody.firstBad_pair hc, closing_of_isLineEnd ht]
  simp [StringBody.text_append, StringBody.text_map_plain]

end StringLiteral

end Step

/-- Only a character outside a word can follow a reserved word. -/
theorem Lexicon.endsBefore_of_mem {w : String} {kind : TokenKind} (h : (w, kind) ∈ keywords)
    (d : Char) : kind.endsBefore d = !isWordChar d := by
  have hall : ∀ k ∈ keywords, k.2.endsBefore d = !isWordChar d := by
    simp [keywords, TokenKind.endsBefore]
  exact hall _ h

/-- Every character can follow a punctuation mark. -/
theorem Lexicon.endsBefore_of_mem_punctuation {c : Char} {kind : TokenKind}
    (h : (c, kind) ∈ punctuation) (d : Char) : kind.endsBefore d = true := by
  have hall : ∀ k ∈ punctuation, k.2.endsBefore d = true := by
    simp [punctuation, TokenKind.endsBefore]
  exact hall _ h

/-- Words of every kind are read by one handler. -/
theorem munch_word {c : Char} {w u : Text} (hc : Lexicon.isLetter c = true)
    (hw : ∀ d ∈ w, Lexicon.isWordChar d = true)
    (hu : ∀ d ∈ u.head?, Lexicon.isWordChar d = false) :
    munch c (w ++ u) = .ofLexeme (Lexicon.wordKind (c :: w)) (c :: w) u := by
  unfold munch
  rw [Lead.of?_of_isLetter hc]
  exact Step.word_run hw hu

/-- So are numbers. -/
theorem munch_digit {c : Char} (hc : Lexicon.isDigit c = true) (t : Text) :
    munch c t = .number c t := by
  unfold munch
  rw [Lead.of?_of_isDigit hc]

/-- **A lexeme that the next character does not continue is read.** -/
theorem munch_of_lexes {kind : TokenKind} {value w u : Text} (h : Lexes kind value w)
    (hu : ∀ d ∈ u.head?, kind.endsBefore d = true) {c : Char} {t : Text}
    (hs : c :: t = w ++ u) : munch c t = ⟨.lexeme kind w, u⟩ := by
  cases h with
  | punctuation h =>
    obtain ⟨rfl, rfl⟩ := List.cons_eq_cons.1 hs
    unfold munch
    rw [Lead.of?_of_mem_punctuation h]
    rfl
  | operator h =>
    simp only [Grammar.operators, List.mem_cons, Prod.mk.injEq, List.not_mem_nil, or_false] at h
    obtain ⟨rfl, rfl⟩ | ⟨rfl, rfl⟩ | ⟨rfl, rfl⟩ | ⟨rfl, rfl⟩ | ⟨rfl, rfl⟩ | ⟨rfl, rfl⟩ |
      ⟨rfl, rfl⟩ | ⟨rfl, rfl⟩ := h <;>
    obtain ⟨rfl, rfl⟩ := List.cons_eq_cons.1 hs
    -- an operator of two characters is complete, one of a single character is not
    · exact Step.slash_of_ne (by simpa [TokenKind.endsBefore] using hu)
    · exact Step.comparison_alone (by simpa [TokenKind.endsBefore] using hu)
    · rfl
    · rfl
    · exact Step.comparison_alone (by simpa [TokenKind.endsBefore] using hu)
    · rfl
    · exact Step.comparison_alone (by simpa [TokenKind.endsBefore] using hu)
    · rfl
  | keyword h =>
    obtain ⟨d, v, hv, hd, hw⟩ := Lexicon.exists_word_of_mem h
    have hk := Lexicon.wordKind_of_mem h
    rw [hv] at hs hk ⊢
    rw [List.cons_append, List.cons_eq_cons] at hs
    obtain ⟨rfl, rfl⟩ := hs
    rw [munch_word hd hw (fun x hx => by simpa [Lexicon.endsBefore_of_mem h] using hu x hx), hk]
    rfl
  | name hc hw hk =>
    rw [List.cons_append, List.cons_eq_cons] at hs
    obtain ⟨rfl, rfl⟩ := hs
    rw [munch_word hc hw (fun x hx => by simpa [TokenKind.endsBefore] using hu x hx),
      Lexicon.wordKind_of_forall_ne hk]
    rfl
  | int hn hd =>
    obtain ⟨d, ds, rfl⟩ := List.exists_cons_of_ne_nil hn
    rw [List.cons_append, List.cons_eq_cons] at hs
    obtain ⟨rfl, rfl⟩ := hs
    rw [List.forall_mem_cons] at hd
    rw [munch_digit hd.1]
    exact Step.number_int hd.2 (by simpa [TokenKind.endsBefore] using hu)
  | float hn hd hm he =>
    obtain ⟨d, ds, rfl⟩ := List.exists_cons_of_ne_nil hn
    rw [List.cons_append, List.cons_append, List.append_assoc, List.cons_append,
      List.cons_eq_cons] at hs
    obtain ⟨rfl, rfl⟩ := hs
    rw [List.forall_mem_cons] at hd
    rw [munch_digit hd.1, Step.number_point hd.2]
    exact Step.fraction_run hm he (by simpa [TokenKind.endsBefore] using hu)
  | char hv =>
    rw [List.append_assoc, List.cons_append, List.cons_eq_cons] at hs
    obtain ⟨rfl, rfl⟩ := hs
    exact Step.charLiteral_unit hv _
  | string hv =>
    rw [List.append_assoc, List.cons_append, List.cons_eq_cons] at hs
    obtain ⟨rfl, rfl⟩ := hs
    exact Step.stringLiteral_closed hv
  | comment hw =>
    rw [List.cons_append, List.cons_eq_cons] at hs
    obtain ⟨rfl, rfl⟩ := hs
    exact Step.slash_comment hw hu
  | space hn hw =>
    obtain ⟨d, w, rfl⟩ := List.exists_cons_of_ne_nil hn
    rw [List.cons_append, List.cons_eq_cons] at hs
    obtain ⟨rfl, rfl⟩ := hs
    rw [List.forall_mem_cons] at hw
    unfold munch
    rw [Lead.of?_of_isSpace hw.1]
    exact Step.space_run hw.2 (by simpa [TokenKind.endsBefore] using hu)

/-- **What stands before the next character is read.** -/
theorem munch_of_before {r : Reading} {u : Text} (h : r.Before u.head?) {c : Char} {t : Text}
    (hs : c :: t = r.consumed ++ u) : munch c t = ⟨r, u⟩ := by
  generalize hx : u.head? = next at h
  cases h with
  | lexeme h hn => exact munch_of_lexes h (hx ▸ hn) hs
  | stray h =>
    obtain ⟨rfl, rfl⟩ := List.cons_eq_cons.1 hs
    unfold munch
    rw [h]
    rfl
  | bare hn =>
    obtain ⟨rfl, rfl⟩ := List.cons_eq_cons.1 hs
    exact Step.comparison_bare (hx ▸ hn)
  | missingFraction hm hd hn =>
    obtain ⟨d, ds, rfl⟩ := List.exists_cons_of_ne_nil hm
    simp only [Reading.consumed, List.nil_append, List.append_nil, List.append_assoc,
      List.cons_append, List.cons_eq_cons] at hs
    obtain ⟨rfl, rfl⟩ := hs
    rw [List.forall_mem_cons] at hd
    rw [munch_digit hd.1, Step.number_point hd.2]
    exact Step.fraction_missing (hx ▸ hn)
  | openQuote =>
    obtain rfl := List.head?_eq_none_iff.1 hx
    obtain ⟨rfl, rfl⟩ := List.cons_eq_cons.1 hs
    rfl
  | openEscape =>
    obtain rfl := List.head?_eq_none_iff.1 hx
    obtain ⟨rfl, rfl⟩ := List.cons_eq_cons.1 hs
    rfl
  | emptyChar =>
    obtain ⟨rfl, rfl⟩ := List.cons_eq_cons.1 hs
    rfl
  | @charEscape code _ hc =>
    obtain ⟨rfl, rfl⟩ := List.cons_eq_cons.1 hs
    show Step.charLiteral ('\\' :: code :: u) = _
    rw [Step.charLiteral, if_neg (by rwa [Escape.isCode_iff])]
  | unclosedChar hv hn =>
    simp only [Reading.consumed, List.nil_append, List.append_nil, List.cons_append,
      List.cons_eq_cons] at hs
    obtain ⟨rfl, rfl⟩ := hs
    show Step.charLiteral _ = _
    rw [Step.charLiteral_unit hv]
    exact Step.closeChar_of_ne (hx ▸ hn)
  | openString hv hw hn =>
    simp only [Reading.consumed, List.nil_append, List.append_nil, List.cons_append,
      List.append_assoc, List.cons_eq_cons] at hs
    obtain ⟨rfl, rfl⟩ := hs
    exact Step.stringLiteral_open hv hw (hx ▸ hn)
  | closedEscape hu hc hl hv =>
    simp only [Reading.consumed, List.nil_append, List.cons_append,
      List.append_assoc, List.cons_eq_cons] at hs
    obtain ⟨rfl, rfl⟩ := hs
    exact Step.stringLiteral_badClosed hu hl hv hc
  | openEscapes hu hc hl hv hw hn =>
    simp only [Reading.consumed, List.nil_append, List.cons_append,
      List.append_assoc, List.cons_eq_cons] at hs
    obtain ⟨rfl, rfl⟩ := hs
    exact Step.stringLiteral_badOpen hu hl hv hc hw (hx ▸ hn)

/-! ## What is read stands before what is left -/

namespace Step

/-- What a step reads stands before what it leaves. -/
def Stands (s : Step) : Prop := s.reading.Before s.rest.head?

theorem stands_ofLexeme {kind : TokenKind} {value w u : Text} (h : Lexes kind value w)
    (hn : ∀ d ∈ u.head?, kind.endsBefore d = true) : (ofLexeme kind w u).Stands :=
  .lexeme h hn

theorem stands_slash (t : Text) : (slash t).Stands := by
  unfold slash
  split
  · next h =>
    obtain ⟨u, rfl⟩ := List.head?_eq_some_iff.1 h
    refine .lexeme (.comment (w := u.takeWhile fun c => !Lexicon.isLineEnd c) ?_) ?_
    · intro d hd
      simpa using List.mem_takeWhile_imp hd
    · intro d hd
      simpa [TokenKind.endsBefore] using Text.head?_dropWhile_eq_false _ u d hd
  · next h =>
    refine .lexeme (.operator (by decide)) ?_
    rintro d hd
    have hne : d ≠ '/' := by rintro rfl; exact h hd
    simpa [TokenKind.endsBefore] using hne

theorem stands_word {c : Char} (hc : Lexicon.isLetter c = true) (t : Text) :
    (word c t).Stands := by
  have hstop := Text.head?_dropWhile_eq_false Lexicon.isWordChar t
  -- the word has been read to its end before the table is asked
  by_cases hk : ∀ k ∈ Lexicon.keywords, k.1.toList ≠ c :: t.takeWhile Lexicon.isWordChar
  · show Reading.Before (.lexeme (Lexicon.wordKind _) _) _
    rw [Lexicon.wordKind_of_forall_ne hk]
    refine .lexeme (.name hc (fun _ => List.mem_takeWhile_imp) hk) (fun d hd => ?_)
    rw [TokenKind.endsBefore]
    · simp [hstop d hd]
    all_goals simp
  · simp only [not_forall, ne_eq, not_not] at hk
    obtain ⟨⟨w, kind⟩, hm, hw⟩ := hk
    show Reading.Before (.lexeme (Lexicon.wordKind _) _) _
    rw [← hw, Lexicon.wordKind_of_mem hm]
    refine .lexeme (.keyword hm) (fun d hd => ?_)
    rw [Lexicon.endsBefore_of_mem hm, hstop d hd]
    rfl

/-- The operators of the grammar are those that an equals sign extends, with
it and, where they stand alone, without. -/
theorem stands_comparison {c : Char} {alone : Option TokenKind} {withEquals : TokenKind}
    (h : (c, (alone, withEquals)) ∈ Lexicon.comparisons) (t : Text) :
    (comparison c alone withEquals t).Stands := by
  simp only [Lexicon.comparisons, List.mem_cons, Prod.mk.injEq, List.not_mem_nil, or_false] at h
  by_cases ht : ∀ d ∈ t.head?, d ≠ '='
  · obtain ⟨rfl, rfl, rfl⟩ | ⟨rfl, rfl, rfl⟩ | ⟨rfl, rfl, rfl⟩ | ⟨rfl, rfl, rfl⟩ := h
    · rw [comparison_alone ht]
      exact stands_ofLexeme (.operator (by decide)) (by simpa [TokenKind.endsBefore] using ht)
    · rw [comparison_bare ht]
      exact .bare ht
    · rw [comparison_alone ht]
      exact stands_ofLexeme (.operator (by decide)) (by simpa [TokenKind.endsBefore] using ht)
    · rw [comparison_alone ht]
      exact stands_ofLexeme (.operator (by decide)) (by simpa [TokenKind.endsBefore] using ht)
  · simp only [not_forall, ne_eq, not_not] at ht
    obtain ⟨d, hd, rfl⟩ := ht
    obtain ⟨u, rfl⟩ := List.head?_eq_some_iff.1 hd
    obtain ⟨rfl, rfl, rfl⟩ | ⟨rfl, rfl, rfl⟩ | ⟨rfl, rfl, rfl⟩ | ⟨rfl, rfl, rfl⟩ := h <;>
    exact .lexeme (.operator (by decide)) (by simp [TokenKind.endsBefore])

theorem stands_number {c : Char} (hc : Lexicon.isDigit c = true) (t : Text) :
    (number c t).Stands := by
  have hds : ∀ d ∈ c :: t.takeWhile Lexicon.isDigit, Lexicon.isDigit d = true :=
    List.forall_mem_cons.2 ⟨hc, fun _ => List.mem_takeWhile_imp⟩
  have hstop := Text.head?_dropWhile_eq_false Lexicon.isDigit t
  unfold number
  dsimp only
  split
  · next u hu =>
    have hend := Text.head?_dropWhile_eq_false Lexicon.isDigit u
    unfold fraction
    split
    · next hes =>
      -- no digit was taken, so the text after the point is left as it was
      have hd := List.takeWhile_append_dropWhile (p := Lexicon.isDigit) (l := u)
      rw [hes, List.nil_append] at hd
      rw [hd] at hend
      exact .missingFraction (by simp) hds hend
    · next e es hes =>
      refine .lexeme (.float (by simp) hds (by simp) ?_) ?_
      · rw [← hes]
        exact fun _ => List.mem_takeWhile_imp
      · intro d hd
        simp [TokenKind.endsBefore, hend d hd]
  · next hu =>
    refine .lexeme (.int (by simp) hds) (fun d hd => ?_)
    have hne : d ≠ '.' := by
      rintro rfl
      obtain ⟨u, hu'⟩ := List.head?_eq_some_iff.1 hd
      exact hu u hu'
    simp [TokenKind.endsBefore, hstop d hd, hne]

theorem stands_closeChar {v : BodyUnit} (hv : v.Fits ['\'']) (t : Text) :
    (closeChar ('\'' :: v.text) t).Stands := by
  fun_cases closeChar with
  | case1 t => exact .lexeme (.char hv) (by simp [TokenKind.endsBefore])
  | case2 t ht =>
    refine .unclosedChar hv (fun d hd => ?_)
    rintro rfl
    obtain ⟨u, rfl⟩ := List.head?_eq_some_iff.1 hd
    exact ht u rfl

theorem stands_charLiteral (t : Text) : (charLiteral t).Stands := by
  fun_cases charLiteral with
  | case1 => exact .openQuote
  | case2 t => exact .emptyChar
  | case3 => exact .openEscape
  | case4 code t h => exact stands_closeChar (v := .pair code) (Escape.isCode_iff.1 h) t
  | case5 code t h => exact .charEscape (by rwa [Escape.isCode_iff] at h)
  | case6 c t hq hb hp =>
    -- a backslash here would have met one of the cases before
    refine stands_closeChar (v := .plain c) ⟨?_, by simpa using hq⟩ t
    rintro rfl
    cases t with
    | nil => exact hb rfl rfl
    | cons d t => exact hp d t rfl rfl

theorem stands_stringLiteral (t : Text) : (stringLiteral t).Stands := by
  obtain ⟨us, hus, hr⟩ := StringBody.isRead_read t
  have ht := StringBody.text_read t
  -- the body is closed or not, and its escapes are known or not
  obtain ⟨v, hr⟩ | ⟨w, v, hw, hv, hr⟩ := hr <;>
  obtain hf | ⟨before, code, after, rfl, hf, hc⟩ := StringBody.forall_fits_or_exists hus <;>
  rw [hr] at ht
  · rw [← ht, stringLiteral_closed hf]
    exact stands_ofLexeme (.string hf) (by simp [TokenKind.endsBefore])
  · rw [List.forall_mem_append, List.forall_mem_cons] at hus
    simp only [StringBody.text_append, StringBody.text_cons, BodyUnit.text, List.cons_append,
      List.nil_append, List.append_assoc] at ht
    rw [← ht, stringLiteral_badClosed hf hus.2.1 hus.2.2 hc]
    exact .closedEscape hf hc hus.2.1 hus.2.2
  · simp only [StringBody.text_append, StringBody.text_map_plain, List.append_assoc] at ht
    rw [← ht, stringLiteral_open hf hw hv]
    exact .openString hf hw hv
  · rw [List.forall_mem_append, List.forall_mem_cons] at hus
    simp only [StringBody.text_append, StringBody.text_cons, BodyUnit.text, List.cons_append,
      List.nil_append, List.append_assoc, StringBody.text_map_plain] at ht
    rw [← ht, stringLiteral_badOpen hf hus.2.1 hus.2.2 hc hw hv]
    exact .openEscapes hf hc hus.2.1 hus.2.2 hw hv

theorem stands_space {c : Char} (hc : Lexicon.isSpace c = true) (t : Text) :
    (space c t).Stands := by
  refine .lexeme (.space (by simp) (List.forall_mem_cons.2 ⟨hc, fun _ => List.mem_takeWhile_imp⟩)) ?_
  intro d hd
  simp [TokenKind.endsBefore, Text.head?_dropWhile_eq_false Lexicon.isSpace t d hd]

end Step

/-- **Whatever the step reads stands before what it leaves.** -/
theorem before_munch (c : Char) (t : Text) :
    (munch c t).reading.Before (munch c t).rest.head? := by
  show (munch c t).Stands
  fun_cases munch with
  | case1 h => exact .stray h
  | case2 kind h =>
    have hp := Lead.mem_punctuation_of_single h
    exact .lexeme (.punctuation hp) (fun d _ => Lexicon.endsBefore_of_mem_punctuation hp d)
  | case3 h => exact Step.stands_slash t
  | case4 alone withEquals h =>
    exact Step.stands_comparison (Lead.mem_comparisons_of_comparison h) t
  | case5 h => exact Step.stands_word (Lead.isLetter_of_letter h) t
  | case6 h => exact Step.stands_number (Lead.isDigit_of_digit h) t
  | case7 h => exact Step.stands_charLiteral t
  | case8 h => exact Step.stands_stringLiteral t
  | case9 h => exact Step.stands_space (Lead.isSpace_of_space h) t

/-- **The step is exact for the grammar**: it reads what stands before the
rest of the text, and nothing else. -/
theorem munch_eq_iff {c : Char} {t : Text} {r : Reading} {u : Text} :
    munch c t = ⟨r, u⟩ ↔ c :: t = r.consumed ++ u ∧ r.Before u.head? := by
  constructor
  · intro h
    have hs := splits_munch c t
    have hb := before_munch c t
    rw [h] at hs hb
    exact ⟨hs.symm, hb⟩
  · rintro ⟨hs, hb⟩
    exact munch_of_before hb hs

end Asl
