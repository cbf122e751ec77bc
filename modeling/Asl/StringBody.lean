import Asl.Escape
import Asl.Lexicon

/-!
# The body of a string literal

What follows an opening double quote is read in units: a backslash pairs
with the character after it, and any other character is a unit by itself.
The body ends before the first unpaired double quote, before a line end, or
with the text. A backslash just before a line end or the end of the text
pairs with nothing and is a unit by itself.

Reading goes on past a pair that is no escape, so that the extent of a
literal does not depend on whether its escapes are known. `firstBad` then
finds the pair to report.
-/

namespace Asl

/-- A unit of a string body. -/
inductive BodyUnit where
  /-- A character by itself. -/
  | plain (c : Char)
  /-- A backslash and the character it pairs with. -/
  | pair (code : Char)
deriving DecidableEq, Repr

/-- The characters of a unit. -/
def BodyUnit.text : BodyUnit → Text
  | plain c => [c]
  | pair code => ['\\', code]

namespace StringBody

/-- The characters of a sequence of units. -/
def text (us : List BodyUnit) : Text := us.flatMap BodyUnit.text

/-- A unit put in front of what was read. -/
def push (u : BodyUnit) (r : List BodyUnit × Text) : List BodyUnit × Text := (u :: r.1, r.2)

/-- The units of the body at the front of a text, and the text from where
the body ends. -/
def read : Text → List BodyUnit × Text
  | [] => ([], [])
  | '\\' :: code :: t =>
    if Lexicon.isLineEnd code then ([.plain '\\'], code :: t) else push (.pair code) (read t)
  | c :: t =>
    if c = '"' || Lexicon.isLineEnd c then ([], c :: t) else push (.plain c) (read t)

/-- The first pair that is no escape: the units before it, its code and the
units after it. -/
def firstBad : List BodyUnit → Option (List BodyUnit × Char × List BodyUnit)
  | [] => none
  | .pair code :: us =>
    if Escape.isCode code then (firstBad us).map fun r => (.pair code :: r.1, r.2)
    else some ([], code, us)
  | .plain c :: us => (firstBad us).map fun r => (.plain c :: r.1, r.2)

@[simp] theorem text_nil : text [] = [] := rfl

@[simp] theorem text_cons (u : BodyUnit) (us : List BodyUnit) :
    text (u :: us) = u.text ++ text us := rfl

/-- Reading a body loses nothing. -/
theorem text_read (t : Text) : text (read t).1 ++ (read t).2 = t := by
  fun_induction read t with
  | case1 => rfl
  | case2 code t h => rfl
  | case3 code t h ih => simpa [push, BodyUnit.text] using ih
  | case4 c t _ h => rfl
  | case5 c t _ h ih => simpa [push, BodyUnit.text] using ih

/-- The pair found and what stands around it are the units searched. -/
theorem eq_of_firstBad {us before after : List BodyUnit} {code : Char}
    (h : firstBad us = some (before, code, after)) :
    us = before ++ .pair code :: after := by
  fun_induction firstBad us generalizing before with
  | case1 => simp at h
  | case2 c us hc ih =>
    obtain ⟨⟨b, r⟩, hb, he⟩ := Option.map_eq_some_iff.1 h
    obtain ⟨rfl, rfl⟩ := Prod.mk.inj he
    simp [ih hb]
  | case3 c us hc =>
    simp only [Option.some.injEq, Prod.mk.injEq] at h
    obtain ⟨rfl, rfl, rfl⟩ := h
    rfl
  | case4 c us ih =>
    obtain ⟨⟨b, r⟩, hb, he⟩ := Option.map_eq_some_iff.1 h
    obtain ⟨rfl, rfl⟩ := Prod.mk.inj he
    simp [ih hb]

end StringBody

end Asl
