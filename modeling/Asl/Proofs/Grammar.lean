import Asl.Reading
import Mathlib.Data.List.TakeWhile

/-!
# The lexical grammar

What the language takes for a lexeme, said rule by rule. A rule looks at a
whole text and at nothing around it: `Lexes kind value text` holds when
`text` is a lexeme of that kind, and `value` is what a parser reads of it.

A text that begins with a lexeme need not be read as that lexeme, since a
longer one may begin there too. What decides is the next character alone,
and a reading that stands before it is described by `Reading.Before`: a
lexeme stands before every character that does not continue it
(`TokenKind.endsBefore`), and each fault has its own rule. The end of the
text continues nothing, so every reading stands before it.

The step that reads a text is exact for this relation
(`munch_eq_iff`): it reads `r` from the front of a text and leaves `u` if
and only if the text is what `r` consumes followed by `u`, and `r` stands
before the first character of `u`. No handler of the step is looked into
after that.
-/

namespace Asl

/-! ## The rules -/

namespace Grammar

/-- The operators, by their spelling. -/
def operators : List (Text × TokenKind) :=
  [(['/'], .div), (['='], .assign), (['=', '='], .eq), (['!', '='], .neq), (['<'], .lt),
   (['<', '='], .le), (['>'], .gt), (['>', '='], .ge)]

/-- The characters that may follow a backslash in a literal. -/
def codes : List Char := ['n', 't', '\\', '\'', '"', 'r', 'f', 'b']

end Grammar

/-- **A unit of a literal**: a character that is neither a backslash nor one
of those barred, or a backslash and a code. -/
def BodyUnit.Fits (barred : List Char) : BodyUnit → Prop
  | plain c => c ≠ '\\' ∧ c ∉ barred
  | pair code => code ∈ Grammar.codes

/-- **The rules of the grammar**: the kind of a lexeme, its value and its
text. -/
inductive Lexes : TokenKind → Text → Text → Prop where
  /-- A punctuation mark. -/
  | punctuation {c : Char} {kind : TokenKind} (h : (c, kind) ∈ Lexicon.punctuation) :
      Lexes kind [c] [c]
  /-- An operator. -/
  | operator {w : Text} {kind : TokenKind} (h : (w, kind) ∈ Grammar.operators) :
      Lexes kind w w
  /-- A reserved word, spelled in full. -/
  | keyword {w : String} {kind : TokenKind} (h : (w, kind) ∈ Lexicon.keywords) :
      Lexes kind w.toList w.toList
  /-- A letter, then letters and digits, together no reserved word. -/
  | name {c : Char} {w : Text} (hc : Lexicon.isLetter c) (hw : ∀ d ∈ w, Lexicon.isWordChar d)
      (hk : ∀ k ∈ Lexicon.keywords, k.1.toList ≠ c :: w) : Lexes .ident (c :: w) (c :: w)
  /-- Digits. -/
  | int {ds : Text} (hn : ds ≠ []) (hd : ∀ d ∈ ds, Lexicon.isDigit d) :
      Lexes .intval ds ds
  /-- Digits around a point. -/
  | float {ds es : Text} (hn : ds ≠ []) (hd : ∀ d ∈ ds, Lexicon.isDigit d) (hm : es ≠ [])
      (he : ∀ d ∈ es, Lexicon.isDigit d) : Lexes .floatval (ds ++ '.' :: es) (ds ++ '.' :: es)
  /-- A quote, one unit, a quote. -/
  | char {u : BodyUnit} (hu : u.Fits ['\'']) :
      Lexes .charval u.text ('\'' :: u.text ++ ['\''])
  /-- A double quote, units, a double quote, all on one line. -/
  | string {us : List BodyUnit} (hu : ∀ u ∈ us, u.Fits ['"', '\r', '\n']) :
      Lexes .stringval (StringBody.text us) ('"' :: StringBody.text us ++ ['"'])
  /-- Two slashes, and text up to the end of the line. -/
  | comment {w : Text} (hw : ∀ d ∈ w, Lexicon.isLineEnd d = false) :
      Lexes .comment ('/' :: '/' :: w) ('/' :: '/' :: w)
  /-- Blank space. -/
  | space {w : Text} (hn : w ≠ []) (hw : ∀ d ∈ w, Lexicon.isSpace d) : Lexes .space w w

/-! ## What a reading can stand before -/

/-- Whether a character can stand right after a lexeme of some kind without
continuing it. -/
def TokenKind.endsBefore : TokenKind → Char → Bool
  | .div, d => d ≠ '/'
  | .assign, d | .gt, d | .lt, d => d ≠ '='
  | .intval, d => !Lexicon.isDigit d && d ≠ '.'
  | .floatval, d => !Lexicon.isDigit d
  | .comment, d => Lexicon.isLineEnd d
  | .space, d => !Lexicon.isSpace d
  | .lparen, _ | .rparen, _ | .colon, _ | .comma, _ | .lbrack, _ | .rbrack, _ | .semi, _ => true
  | .add, _ | .sub, _ | .mul, _ | .mod, _ | .eq, _ | .neq, _ | .ge, _ | .le, _ => true
  | .charval, _ | .stringval, _ => true
  -- a word of whatever kind goes on as long as letters and digits do
  | _, d => !Lexicon.isWordChar d

/-- A unit of a string body, whether its code is known or not. -/
def BodyUnit.InBody : BodyUnit → Prop
  | plain c => c ≠ '\\' ∧ c ≠ '"' ∧ Lexicon.isLineEnd c = false
  | pair code => Lexicon.isLineEnd code = false

/-- What can be left of a body that is not closed: nothing, or a backslash
with nothing to pair with. -/
def StringBody.LooseEnd (w : Text) : Prop := w = [] ∨ w = ['\\']

/-- **A reading stands before a character**, or before the end of the text:
this is what is read there. -/
inductive Reading.Before : Reading → Option Char → Prop where
  /-- A lexeme the next character does not continue. -/
  | lexeme {kind : TokenKind} {value w : Text} {next : Option Char} (h : Lexes kind value w)
      (hn : ∀ d ∈ next, kind.endsBefore d) : Before (.lexeme kind w) next
  /-- A character that starts no lexeme. -/
  | stray {c : Char} {next : Option Char} (h : Lead.of? c = none) :
      Before (.fault .strayCharacter [] [c] []) next
  /-- An exclamation mark without its equals sign. -/
  | bare {next : Option Char} (hn : ∀ d ∈ next, d ≠ '=') :
      Before (.fault (.bareOperator '!') [] ['!'] []) next
  /-- Digits and a point with no digit after it. -/
  | missingFraction {ds : Text} {next : Option Char} (hs : ds ≠ [])
      (hd : ∀ d ∈ ds, Lexicon.isDigit d) (hn : ∀ d ∈ next, Lexicon.isDigit d = false) :
      Before (.fault .missingFraction [] (ds ++ ['.']) []) next
  /-- A quote at the end of the text. -/
  | openQuote : Before (.fault .openChar [] ['\''] []) none
  /-- A quote and a backslash at the end of the text. -/
  | openEscape : Before (.fault .openChar [] ['\'', '\\'] []) none
  /-- Two quotes. -/
  | emptyChar {next : Option Char} : Before (.fault .emptyChar [] ['\'', '\''] []) next
  /-- A quote and a pair that is no escape. -/
  | charEscape {code : Char} {next : Option Char} (hc : code ∉ Grammar.codes) :
      Before (.fault (.badEscape code) ['\''] ['\\', code] []) next
  /-- A quote and a unit with no quote after it. -/
  | unclosedChar {u : BodyUnit} {next : Option Char} (hu : u.Fits ['\''])
      (hn : ∀ d ∈ next, d ≠ '\'') : Before (.fault .unclosedChar [] ('\'' :: u.text) []) next
  /-- A string literal that the line or the text ends. -/
  | openString {us : List BodyUnit} {w : Text} {next : Option Char}
      (hu : ∀ u ∈ us, u.Fits ['"', '\r', '\n']) (hw : StringBody.LooseEnd w)
      (hn : ∀ d ∈ next, Lexicon.isLineEnd d) :
      Before (.fault .openString [] ('"' :: StringBody.text us ++ w) []) next
  /-- A closed string literal with a pair that is no escape. -/
  | closedEscape {us vs : List BodyUnit} {code : Char} {next : Option Char}
      (hu : ∀ u ∈ us, u.Fits ['"', '\r', '\n']) (hc : code ∉ Grammar.codes)
      (hl : Lexicon.isLineEnd code = false) (hv : ∀ v ∈ vs, v.InBody) :
      Before (.fault (.badEscape code) ('"' :: StringBody.text us) ['\\', code]
        (StringBody.text vs ++ ['"'])) next
  /-- A string literal with such a pair that the line or the text ends. -/
  | openEscapes {us vs : List BodyUnit} {code : Char} {w : Text} {next : Option Char}
      (hu : ∀ u ∈ us, u.Fits ['"', '\r', '\n']) (hc : code ∉ Grammar.codes)
      (hl : Lexicon.isLineEnd code = false) (hv : ∀ v ∈ vs, v.InBody)
      (hw : StringBody.LooseEnd w) (hn : ∀ d ∈ next, Lexicon.isLineEnd d) :
      Before (.fault (.badEscape code) ('"' :: StringBody.text us) ['\\', code]
        (StringBody.text vs ++ w)) next

end Asl
