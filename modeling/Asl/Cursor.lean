import Asl.Scan

/-!
# The token cursor

A parser reads the visible tokens of a source through a cursor. The tokens
it stands on end with the end token, and it never moves past an end token,
so there is always a token under it. Both facts are part of the type.

Looking ahead past the last token gives the last token. Looking back counts
from the end once it goes before the first token, and fails where that
leaves the list too, or where the place is beyond every list.

A token that is not the one expected gives a `ParseError` at its span. The
tokens of a source always have spans that can be shown; tokens from elsewhere
may not, and then the failure is that of showing the error.
-/

namespace Asl

/-- A cursor over the visible tokens of a source. -/
structure Cursor where
  /-- The source the tokens are from. -/
  source : Source
  /-- The visible tokens. -/
  tokens : List Token
  /-- The number of tokens before the cursor. -/
  index : Nat
  /-- The tokens end with the end token. -/
  ends : tokens.getLast?.map Token.kind = some .eof
  /-- There is a token under the cursor. -/
  inside : index < tokens.length
deriving DecidableEq, Repr

namespace Cursor

/-- A list that ends with the end token has a first token. -/
theorem length_pos_of_ends {ts : List Token}
    (h : ts.getLast?.map Token.kind = some .eof) : 0 < ts.length := by
  cases ts with
  | nil => simp at h
  | cons t ts => simp

/-- A cursor before the first of the visible tokens, if these end with the
end token. -/
def ofTokens? (source : Source) (ts : List Token) : Option Cursor :=
  if h : (Token.visible ts).getLast?.map Token.kind = some .eof then
    some ⟨source, Token.visible ts, 0, h, length_pos_of_ends h⟩
  else none

/-- The wording for tokens that do not end with the end token. -/
def incompleteMessage : Text := "token stream must end with EOF".toList

/-- The number of tokens the cursor stands on. -/
def size (c : Cursor) : Nat := c.tokens.length

/-- The token under the cursor. -/
def current (c : Cursor) : Token := c.tokens.get ⟨c.index, c.inside⟩

/-- Why looking back fails. -/
inductive PeekError where
  /-- The place is before the first token, counted from the end too. -/
  | outOfRange
  /-- The place is not in the range of a word. -/
  | unwieldy
deriving DecidableEq, Repr

/-- The wording of a failure. -/
def PeekError.message : PeekError → Text
  | outOfRange => "list index out of range".toList
  | unwieldy => Extent.wordMessage

/-- The token at a place counted from the first token, or from the end for a
negative place; beyond the last token it is the last token. -/
def at? (c : Cursor) (place : Int) : Option Token :=
  if place < c.size then
    if 0 ≤ place then c.tokens[place.toNat]?
    else if 0 ≤ place + c.size then c.tokens[(place + c.size).toNat]?
    else none
  else c.tokens.getLast?

/-- The token a number of places ahead, or behind for a negative number. -/
def peek (c : Cursor) (offset : Int) : Except PeekError Token :=
  let place := c.index + offset
  match c.at? place with
  | some t => .ok t
  | none => if Extent.fitsWord place then .error .outOfRange else .error .unwieldy

/-- Whether the token under the cursor is of one of some kinds. -/
def isAt (c : Cursor) (kinds : List TokenKind) : Bool := kinds.contains c.current.kind

/-- Whether the token under the cursor is an end token. -/
def atEof (c : Cursor) : Bool := c.current.kind = .eof

/-- A token that is no end token has a token after it. -/
theorem index_succ_lt (c : Cursor) (h : c.current.kind ≠ .eof) :
    c.index + 1 < c.tokens.length := by
  have hi := c.inside
  rcases Nat.lt_or_ge (c.index + 1) c.tokens.length with hlt | hge
  · exact hlt
  · have he := c.ends
    have hlast : c.tokens.getLast? = some c.current := by
      rw [List.getLast?_eq_getElem?, show c.tokens.length - 1 = c.index by omega,
        List.getElem?_eq_getElem hi]
      rfl
    rw [hlast] at he
    simp only [Option.map_some, Option.some.injEq] at he
    exact absurd he h

/-- The token under the cursor, and the cursor after it; the cursor stays
on an end token. -/
def advance (c : Cursor) : Token × Cursor :=
  if h : c.current.kind = .eof then (c.current, c)
  else (c.current, { c with index := c.index + 1, inside := c.index_succ_lt h })

/-- Why an expectation fails. -/
inductive ExpectError where
  /-- Another token stands there. -/
  | unexpected (e : ParseError)
  /-- Another token stands there, at a span that cannot be shown. -/
  | unshowable (e : Extent.RunError)
deriving DecidableEq, Repr

/-- The complaint that the token under the cursor is not the one expected. -/
def complaint (c : Cursor) (message : Text) : ParseError := ⟨message, c.current.span, c.source⟩

/-- The token under the cursor if it is of the kind wanted, as in
`advance`; otherwise an error at that token. -/
def expect (c : Cursor) (kind : TokenKind) (message : Text) :
    Except ExpectError (Token × Cursor) :=
  if c.current.kind = kind then .ok c.advance
  else
    match (c.complaint message).check with
    | .ok _ => .error (.unexpected (c.complaint message))
    | .error e => .error (.unshowable e)

end Cursor

/-- A source whose tokens cannot be handed to a parser. -/
inductive CursorError where
  /-- The source has a lexical error. -/
  | lexical (e : LexError)
  /-- The tokens do not end with the end token. -/
  | incomplete
deriving DecidableEq, Repr

namespace Cursor

/-- A cursor over given tokens. -/
def ofTokens (source : Source) (ts : List Token) : Except CursorError Cursor :=
  match ofTokens? source ts with
  | some c => .ok c
  | none => .error .incomplete

/-- A cursor over the tokens of a source. -/
def ofSource (source : Source) : Except CursorError Cursor :=
  match source.tokens false with
  | .ok ts => ofTokens source ts
  | .error e => .error (.lexical e)

end Cursor

end Asl
