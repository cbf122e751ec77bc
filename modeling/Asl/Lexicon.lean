import Asl.Token

/-!
# The lexicon

The fixed vocabulary of the language: reserved words, punctuation, the
operators that an equals sign may extend, and the classes of characters.
What a lexeme can be is settled by its first character alone: `Lead.of?`
reads it, and a character it does not know starts no lexeme.
-/

namespace Asl

namespace Lexicon

/-- The reserved words. Only the whole spelling is reserved: a longer word
that begins with one is an ordinary name. -/
def keywords : List (String × TokenKind) :=
  [("of", .kwOf), ("and", .kwAnd), ("not", .kwNot), ("or", .kwOr), ("var", .kwVar),
   ("int", .kwInt), ("bool", .kwBool), ("float", .kwFloat), ("char", .kwChar),
   ("array", .kwArray), ("if", .kwIf), ("then", .kwThen), ("else", .kwElse),
   ("endif", .kwEndif), ("while", .kwWhile), ("do", .kwDo), ("endwhile", .kwEndwhile),
   ("func", .kwFunc), ("endfunc", .kwEndfunc), ("return", .kwReturn), ("read", .kwRead),
   ("write", .kwWrite), ("true", .boolval), ("false", .boolval)]

/-- The kind of a word: that of the reserved word it spells, else a name. -/
def wordKind (w : Text) : TokenKind :=
  match keywords.find? fun k => k.1.toList = w with
  | some k => k.2
  | none => .ident

/-- The characters that are a token by themselves, whatever follows. -/
def punctuation : List (Char × TokenKind) :=
  [('(', .lparen), (')', .rparen), (':', .colon), (',', .comma), ('[', .lbrack),
   (']', .rbrack), (';', .semi), ('+', .add), ('-', .sub), ('*', .mul), ('%', .mod)]

/-- The operators an equals sign may extend: the kind alone, where there is
one, and the kind with the equals sign. -/
def comparisons : List (Char × (Option TokenKind × TokenKind)) :=
  [('=', (some .assign, .eq)), ('!', (none, .neq)), ('>', (some .gt, .ge)),
   ('<', (some .lt, .le))]

/-- The letters of the language are those of ASCII. -/
def isLetter (c : Char) : Bool :=
  ('a' ≤ c && c ≤ 'z') || ('A' ≤ c && c ≤ 'Z')

/-- The digits of the language are those of ASCII. -/
def isDigit (c : Char) : Bool := '0' ≤ c && c ≤ '9'

/-- What may continue a word. -/
def isWordChar (c : Char) : Bool := isLetter c || isDigit c

/-- Blank space. -/
def isSpace (c : Char) : Bool := c = ' ' || c = '\t' || c = '\r' || c = '\n'

/-- What ends a comment and a string literal. -/
def isLineEnd (c : Char) : Bool := c = '\r' || c = '\n'

end Lexicon

/-- The classes of characters that can start a lexeme. -/
inductive CharClass where
  | single | slash | comparison | letter | digit | quote | dquote | space
deriving DecidableEq, Repr

namespace CharClass

/-- The name of a class. -/
def name : CharClass → Text
  | single => "SINGLE".toList
  | slash => "SLASH".toList
  | comparison => "COMPARISON".toList
  | letter => "LETTER".toList
  | digit => "DIGIT".toList
  | quote => "QUOTE".toList
  | dquote => "DQUOTE".toList
  | space => "SPACE".toList

/-- Every class, in numbering order. -/
def all : List CharClass :=
  [single, slash, comparison, letter, digit, quote, dquote, space]

/-- The number of a class: its place in the order, counted from one. -/
def number (k : CharClass) : Nat := all.idxOf k + 1

end CharClass

/-- What the first character of a lexeme announces. -/
inductive Lead where
  /-- A token of one character. -/
  | single (kind : TokenKind)
  /-- A division, or a comment if another slash follows. -/
  | slash
  /-- An operator an equals sign may extend. -/
  | comparison (alone : Option TokenKind) (withEquals : TokenKind)
  /-- A word. -/
  | letter
  /-- A number. -/
  | digit
  /-- A character literal. -/
  | quote
  /-- A string literal. -/
  | dquote
  /-- Blank space. -/
  | space
deriving DecidableEq, Repr

namespace Lead

/-- What a character announces, if anything starts with it. -/
def of? (c : Char) : Option Lead :=
  if c = '/' then some .slash
  else if c = '\'' then some .quote
  else if c = '"' then some .dquote
  else if Lexicon.isSpace c then some .space
  else if Lexicon.isDigit c then some .digit
  else if Lexicon.isLetter c then some .letter
  else
    match Lexicon.comparisons.lookup c with
    | some (alone, withEquals) => some (.comparison alone withEquals)
    | none => (Lexicon.punctuation.lookup c).map .single

/-- Only a slash announces a division or a comment. -/
theorem eq_of_slash {c : Char} (h : of? c = some .slash) : c = '/' := by
  unfold of? at h
  grind [Option.map_eq_some_iff]

/-- Only an apostrophe announces a character literal. -/
theorem eq_of_quote {c : Char} (h : of? c = some .quote) : c = '\'' := by
  unfold of? at h
  grind [Option.map_eq_some_iff]

/-- Only a double quote announces a string literal. -/
theorem eq_of_dquote {c : Char} (h : of? c = some .dquote) : c = '"' := by
  unfold of? at h
  grind [Option.map_eq_some_iff]

/-- The class of characters that announce the same sort of lexeme. -/
def charClass : Lead → CharClass
  | single _ => .single
  | slash => .slash
  | comparison _ _ => .comparison
  | letter => .letter
  | digit => .digit
  | quote => .quote
  | dquote => .dquote
  | space => .space

end Lead

namespace CharClass

/-- The class of a character, if a lexeme can start with it. -/
def of? (c : Char) : Option CharClass := (Lead.of? c).map Lead.charClass

/-- The class of a text of one character; any other text has none. -/
def ofText? : Text → Option CharClass
  | [c] => of? c
  | _ => none

/-- Whether a text is one character that may continue a word. -/
def continuesWord : Text → Bool
  | [c] => Lexicon.isWordChar c
  | _ => false

end CharClass

end Asl
