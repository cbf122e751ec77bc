import Asl.Position

/-!
# Tokens

The vocabulary of the language: the kinds of token in their fixed order,
the channel each kind travels on, and the token itself. Comments and blank
space are tokens too, on the hidden channel, so that the tokens of a source
put together are the source.
-/

namespace Asl

/-- The kind of a token. The order of the constructors is the order in
which the kinds are numbered. -/
inductive TokenKind where
  | lparen | rparen | colon | comma | lbrack | rbrack | semi
  | assign | add | sub | mul | div | mod | eq | neq | gt | ge | le | lt
  | kwOf | kwAnd | kwNot | kwOr | kwVar | kwInt | kwBool | kwFloat | kwChar | kwArray
  | kwIf | kwThen | kwElse | kwEndif | kwWhile | kwDo | kwEndwhile | kwFunc | kwEndfunc
  | kwReturn | kwRead | kwWrite
  | intval | boolval | floatval | charval | stringval | ident
  | comment | space | eof
deriving DecidableEq, Repr

namespace TokenKind

/-- The name of a kind in listings and messages. -/
def name : TokenKind → Text
  | lparen => "LPAREN".toList
  | rparen => "RPAREN".toList
  | colon => "COLON".toList
  | comma => "COMMA".toList
  | lbrack => "LBRACK".toList
  | rbrack => "RBRACK".toList
  | semi => "SEMI".toList
  | assign => "ASSIGN".toList
  | add => "ADD".toList
  | sub => "SUB".toList
  | mul => "MUL".toList
  | div => "DIV".toList
  | mod => "MOD".toList
  | eq => "EQ".toList
  | neq => "NEQ".toList
  | gt => "GT".toList
  | ge => "GE".toList
  | le => "LE".toList
  | lt => "LT".toList
  | kwOf => "OF".toList
  | kwAnd => "AND".toList
  | kwNot => "NOT".toList
  | kwOr => "OR".toList
  | kwVar => "VAR".toList
  | kwInt => "INT".toList
  | kwBool => "BOOL".toList
  | kwFloat => "FLOAT".toList
  | kwChar => "CHAR".toList
  | kwArray => "ARRAY".toList
  | kwIf => "IF".toList
  | kwThen => "THEN".toList
  | kwElse => "ELSE".toList
  | kwEndif => "ENDIF".toList
  | kwWhile => "WHILE".toList
  | kwDo => "DO".toList
  | kwEndwhile => "ENDWHILE".toList
  | kwFunc => "FUNC".toList
  | kwEndfunc => "ENDFUNC".toList
  | kwReturn => "RETURN".toList
  | kwRead => "READ".toList
  | kwWrite => "WRITE".toList
  | intval => "INTVAL".toList
  | boolval => "BOOLVAL".toList
  | floatval => "FLOATVAL".toList
  | charval => "CHARVAL".toList
  | stringval => "STRINGVAL".toList
  | ident => "ID".toList
  | comment => "COMMENT".toList
  | space => "WS".toList
  | eof => "EOF".toList

/-- Every kind, in numbering order. -/
def all : List TokenKind :=
  [lparen, rparen, colon, comma, lbrack, rbrack, semi,
   assign, add, sub, mul, div, mod, eq, neq, gt, ge, le, lt,
   kwOf, kwAnd, kwNot, kwOr, kwVar, kwInt, kwBool, kwFloat, kwChar, kwArray,
   kwIf, kwThen, kwElse, kwEndif, kwWhile, kwDo, kwEndwhile, kwFunc, kwEndfunc,
   kwReturn, kwRead, kwWrite,
   intval, boolval, floatval, charval, stringval, ident,
   comment, space, eof]

/-- The kind with a given name. -/
def ofName? (n : Text) : Option TokenKind := all.find? (·.name = n)

/-- The number of a kind: its place in the order, counted from one. -/
def number (k : TokenKind) : Nat := all.idxOf k + 1

end TokenKind

/-- The two channels a token can travel on. -/
inductive Channel where
  /-- What a parser reads. -/
  | default
  /-- Comments and blank space. -/
  | hidden
deriving DecidableEq, Repr

namespace Channel

/-- The name of a channel in listings. -/
def name : Channel → Text
  | default => "DEFAULT".toList
  | hidden => "HIDDEN".toList

/-- The number of a channel in listings. -/
def number : Channel → Nat
  | default => 0
  | hidden => 1

/-- Both channels, by number. -/
def all : List Channel := [default, hidden]

end Channel

/-- The channel a kind of token travels on. -/
def TokenKind.channel : TokenKind → Channel
  | comment => .hidden
  | space => .hidden
  | _ => .default

/-- A token: its kind, what it says, how it is written and where it
stands. -/
structure Token where
  /-- The kind. -/
  kind : TokenKind
  /-- What a parser reads: the lexeme, without its delimiters where it is a
  character or string literal. -/
  value : Text
  /-- The characters of the source the token stands for. -/
  lexeme : Text
  /-- Where the lexeme stands. -/
  span : Span
  /-- The channel. -/
  channel : Channel
deriving DecidableEq, Repr

namespace Token

/-- Whether a token travels on the hidden channel. -/
def isHidden (t : Token) : Bool := t.channel = .hidden

/-- The token that ends every complete list of tokens. -/
def eofAt (p : Position) : Token := ⟨.eof, [], [], ⟨p, p⟩, .default⟩

/-- The tokens a parser reads, in order. -/
def visible (ts : List Token) : List Token := ts.filter fun t => !t.isHidden

end Token

end Asl
