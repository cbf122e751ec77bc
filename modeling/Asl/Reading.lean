import Asl.LexError
import Asl.StringBody

/-!
# Readings

One step of the analysis looks at the text that remains and reads from its
front either a lexeme or a fault. It needs nothing else: neither where in
the source the text stands, nor what was read before. `munch` is that step,
by what the first character announces, and always takes the longest lexeme
that is there.

A fault says which part of what it consumed is the offending text. The two
differ only for a bad escape, which is reported alone while the rest of its
literal is passed over.
-/

namespace Asl

/-- What is read from the front of a text. -/
inductive Reading where
  /-- A lexeme of some kind. -/
  | lexeme (kind : TokenKind) (text : Text)
  /-- A fault: the offending text and what is consumed around it. -/
  | fault (cause : Fault) (before text after : Text)
deriving DecidableEq, Repr

/-- The characters a reading uses up. -/
def Reading.consumed : Reading → Text
  | lexeme _ text => text
  | fault _ before text after => before ++ text ++ after

/-- A reading and the text after it. -/
structure Step where
  /-- What is read. -/
  reading : Reading
  /-- What remains. -/
  rest : Text
deriving DecidableEq, Repr

namespace Step

/-- A lexeme is read. -/
def ofLexeme (kind : TokenKind) (text rest : Text) : Step := ⟨.lexeme kind text, rest⟩

/-- A fault is read, and all that is consumed is at fault. -/
def ofFault (cause : Fault) (text rest : Text) : Step := ⟨.fault cause [] text [], rest⟩

/-- An operator, extended by an equals sign if one follows. -/
def comparison (c : Char) (alone : Option TokenKind) (withEquals : TokenKind) : Text → Step
  | '=' :: t => ofLexeme withEquals [c, '='] t
  | t =>
    match alone with
    | some kind => ofLexeme kind [c] t
    | none => ofFault (.bareOperator c) [c] t

/-- A division, or a comment up to the end of the line. -/
def slash (t : Text) : Step :=
  if t.head? = some '/' then
    ofLexeme .comment ('/' :: t.takeWhile fun c => !Lexicon.isLineEnd c)
      (t.dropWhile fun c => !Lexicon.isLineEnd c)
  else ofLexeme .div ['/'] t

/-- A word: a reserved one or a name. -/
def word (c : Char) (t : Text) : Step :=
  let w := c :: t.takeWhile Lexicon.isWordChar
  ofLexeme (Lexicon.wordKind w) w (t.dropWhile Lexicon.isWordChar)

/-- The rest of a number, after the point that follows its first digits. -/
def fraction (digits t : Text) : Step :=
  match t.takeWhile Lexicon.isDigit with
  | [] => ofFault .missingFraction (digits ++ ['.']) t
  | d :: ds => ofLexeme .floatval (digits ++ '.' :: d :: ds) (t.dropWhile Lexicon.isDigit)

/-- A number: digits, or digits around a point. -/
def number (c : Char) (t : Text) : Step :=
  let digits := c :: t.takeWhile Lexicon.isDigit
  match t.dropWhile Lexicon.isDigit with
  | '.' :: u => fraction digits u
  | u => ofLexeme .intval digits u

/-- The end of a character literal, after its payload. -/
def closeChar (opened : Text) : Text → Step
  | '\'' :: t => ofLexeme .charval (opened ++ ['\'']) t
  | t => ofFault .unclosedChar opened t

/-- A character literal, after its opening quote. -/
def charLiteral : Text → Step
  | [] => ofFault .openChar ['\''] []
  | '\'' :: t => ofFault .emptyChar ['\'', '\''] t
  | ['\\'] => ofFault .openChar ['\'', '\\'] []
  | '\\' :: code :: t =>
    if Escape.isCode code then closeChar ['\'', '\\', code] t
    else ⟨.fault (.badEscape code) ['\''] ['\\', code] [], t⟩
  | c :: t => closeChar ['\'', c] t

/-- The closing quote at the front of a text, if there is one, and what
follows. -/
def closing : Text → Text × Text
  | '"' :: t => (['"'], t)
  | t => ([], t)

/-- A string literal, after its opening quote. -/
def stringLiteral (t : Text) : Step :=
  let body := StringBody.read t
  let close := closing body.2
  match StringBody.firstBad body.1 with
  | some (before, code, after) =>
    ⟨.fault (.badEscape code) ('"' :: StringBody.text before) ['\\', code]
      (StringBody.text after ++ close.1), close.2⟩
  | none =>
    match close.1 with
    | [] => ofFault .openString ('"' :: StringBody.text body.1) close.2
    | q => ofLexeme .stringval ('"' :: StringBody.text body.1 ++ q) close.2

/-- A run of blank space. -/
def space (c : Char) (t : Text) : Step :=
  ofLexeme .space (c :: t.takeWhile Lexicon.isSpace) (t.dropWhile Lexicon.isSpace)

end Step

/-- One step from the text `c :: t`. -/
def munch (c : Char) (t : Text) : Step :=
  match Lead.of? c with
  | none => .ofFault .strayCharacter [c] t
  | some (.single kind) => .ofLexeme kind [c] t
  | some .slash => .slash t
  | some (.comparison alone withEquals) => .comparison c alone withEquals t
  | some .letter => .word c t
  | some .digit => .number c t
  | some .quote => .charLiteral t
  | some .dquote => .stringLiteral t
  | some .space => .space c t

/-! ## A step loses nothing and makes progress -/

namespace Step

/-- A step splits a text in front of its rest. -/
def Splits (s : Step) (t : Text) : Prop := s.reading.consumed ++ s.rest = t

theorem splits_ofLexeme (kind : TokenKind) (text rest : Text) :
    (ofLexeme kind text rest).Splits (text ++ rest) := rfl

theorem splits_ofFault (cause : Fault) (text rest : Text) :
    (ofFault cause text rest).Splits (text ++ rest) := by
  simp [Splits, ofFault, Reading.consumed]

theorem splits_comparison (c : Char) (alone : Option TokenKind) (withEquals : TokenKind)
    (t : Text) : (comparison c alone withEquals t).Splits (c :: t) := by
  fun_cases comparison with
  | case1 t => rfl
  | case2 t _ kind => rfl
  | case3 t _ => rfl

theorem splits_slash (t : Text) : (slash t).Splits ('/' :: t) := by
  fun_cases slash with
  | case1 h => simp [Splits, ofLexeme, Reading.consumed, List.takeWhile_append_dropWhile]
  | case2 h => rfl

theorem splits_word (c : Char) (t : Text) : (word c t).Splits (c :: t) := by
  simp [Splits, word, ofLexeme, Reading.consumed, List.takeWhile_append_dropWhile]

theorem splits_fraction (digits t : Text) :
    (fraction digits t).Splits (digits ++ '.' :: t) := by
  fun_cases fraction with
  | case1 h => simp [Splits, ofFault, Reading.consumed]
  | case2 d ds h =>
    have e := List.takeWhile_append_dropWhile (p := Lexicon.isDigit) (l := t)
    rw [h] at e
    simpa [Splits, ofLexeme, Reading.consumed] using e

theorem splits_number (c : Char) (t : Text) : (number c t).Splits (c :: t) := by
  have e := List.takeWhile_append_dropWhile (p := Lexicon.isDigit) (l := t)
  fun_cases number with
  | case1 digits u h =>
    have s := splits_fraction digits u
    rw [← h] at s
    simpa [digits, e] using s
  | case2 digits _ =>
    simp [Splits, ofLexeme, Reading.consumed, digits, e]

theorem splits_closeChar (opened t : Text) : (closeChar opened t).Splits (opened ++ t) := by
  fun_cases closeChar with
  | case1 t => simp [Splits, ofLexeme, Reading.consumed]
  | case2 t _ => exact splits_ofFault _ _ _

theorem splits_charLiteral (t : Text) : (charLiteral t).Splits ('\'' :: t) := by
  fun_cases charLiteral with
  | case1 => rfl
  | case2 t => rfl
  | case3 => rfl
  | case4 code t h => exact splits_closeChar _ _
  | case5 code t h => rfl
  | case6 c t => exact splits_closeChar _ _

theorem closing_append (t : Text) : (closing t).1 ++ (closing t).2 = t := by
  fun_cases closing with
  | case1 t => rfl
  | case2 t _ => rfl

theorem splits_stringLiteral (t : Text) : (stringLiteral t).Splits ('"' :: t) := by
  have e := StringBody.text_read t
  rw [← closing_append (StringBody.read t).2] at e
  fun_cases stringLiteral with
  | case1 body close before code after h =>
    rw [StringBody.eq_of_firstBad h] at e
    simpa [Splits, Reading.consumed, StringBody.text, BodyUnit.text, close, body] using e
  | case2 body close h hc =>
    simpa [Splits, ofFault, Reading.consumed, close, body, hc] using e
  | case3 body close h hc =>
    simpa [Splits, ofLexeme, Reading.consumed, close, body] using e

theorem splits_space (c : Char) (t : Text) : (space c t).Splits (c :: t) := by
  simp [Splits, space, ofLexeme, Reading.consumed, List.takeWhile_append_dropWhile]

end Step

/-- What a step consumes, put before what it leaves, is the text it was
given. -/
theorem splits_munch (c : Char) (t : Text) : (munch c t).Splits (c :: t) := by
  fun_cases munch with
  | case1 h => exact Step.splits_ofFault _ _ _
  | case2 kind h => exact Step.splits_ofLexeme _ _ _
  | case3 h => exact Lead.eq_of_slash h ▸ Step.splits_slash t
  | case4 alone withEquals h => exact Step.splits_comparison _ _ _ _
  | case5 h => exact Step.splits_word _ _
  | case6 h => exact Step.splits_number _ _
  | case7 h => exact Lead.eq_of_quote h ▸ Step.splits_charLiteral t
  | case8 h => exact Lead.eq_of_dquote h ▸ Step.splits_stringLiteral t
  | case9 h => exact Step.splits_space _ _

namespace Step

theorem consumed_comparison_ne_nil (c : Char) (alone : Option TokenKind)
    (withEquals : TokenKind) (t : Text) :
    (comparison c alone withEquals t).reading.consumed ≠ [] := by
  fun_cases comparison <;> simp [ofLexeme, ofFault, Reading.consumed]

theorem consumed_slash_ne_nil (t : Text) : (slash t).reading.consumed ≠ [] := by
  fun_cases slash <;> simp [ofLexeme, Reading.consumed]

theorem consumed_number_ne_nil (c : Char) (t : Text) :
    (number c t).reading.consumed ≠ [] := by
  fun_cases number with
  | case1 digits u h =>
    fun_cases fraction <;> simp [ofLexeme, ofFault, Reading.consumed]
  | case2 digits _ => simp [ofLexeme, Reading.consumed, digits]

theorem consumed_closeChar_ne_nil {opened : Text} (h : opened ≠ []) (t : Text) :
    (closeChar opened t).reading.consumed ≠ [] := by
  fun_cases closeChar <;> simp [ofLexeme, ofFault, Reading.consumed, h]

theorem consumed_charLiteral_ne_nil (t : Text) : (charLiteral t).reading.consumed ≠ [] := by
  fun_cases charLiteral with
  | case4 code t h => exact consumed_closeChar_ne_nil (by simp) t
  | case6 c t => exact consumed_closeChar_ne_nil (by simp) t
  | _ => simp [ofFault, Reading.consumed]

theorem consumed_stringLiteral_ne_nil (t : Text) :
    (stringLiteral t).reading.consumed ≠ [] := by
  fun_cases stringLiteral <;> simp [ofLexeme, ofFault, Reading.consumed]

end Step

/-- A step consumes at least one character. -/
theorem consumed_munch_ne_nil (c : Char) (t : Text) :
    (munch c t).reading.consumed ≠ [] := by
  fun_cases munch with
  | case3 h => exact Step.consumed_slash_ne_nil t
  | case4 alone withEquals h => exact Step.consumed_comparison_ne_nil _ _ _ _
  | case6 h => exact Step.consumed_number_ne_nil _ _
  | case7 h => exact Step.consumed_charLiteral_ne_nil _
  | case8 h => exact Step.consumed_stringLiteral_ne_nil _
  | _ => simp [Step.ofLexeme, Step.ofFault, Step.word, Step.space, Reading.consumed]

/-- A step leaves less than it was given. -/
theorem length_rest_munch_lt (c : Char) (t : Text) :
    (munch c t).rest.length < (c :: t).length := by
  have hs := congrArg List.length (splits_munch c t)
  have hn := List.length_pos_iff.2 (consumed_munch_ne_nil c t)
  rw [List.length_append] at hs
  omega

end Asl
