import Asl.Text

/-!
# Lines of a text

Three readings of where a line ends meet in this library. The language
itself counts line feeds only. The display of an error splits its source at
every character that breaks a line on a page (`lines`). A file is read with
all its line ends unified to line feeds (`unifyNewlines`), and a
configuration document with `CR LF` alone unified (`unifyCrLf`).
-/

namespace Asl.Text

/-- The characters at which a page breaks a line. `CR LF` counts as one
break. -/
def isLineBreak (c : Char) : Bool :=
  c = '\n' || c = '\r' || c = '\x0b' || c = '\x0c' || c = '\x1c' || c = '\x1d' || c = '\x1e'
    || c = '\u0085' || c = '\u2028' || c = '\u2029'

/-- A character put in front of the first of some lines. -/
def consLine (c : Char) : List Text → List Text
  | [] => [[c]]
  | l :: ls => (c :: l) :: ls

/-- The lines of a text, each with the break that ends it; a break at the
very end opens no further line. -/
def lines : Text → List Text
  | [] => []
  | '\r' :: '\n' :: t => ['\r', '\n'] :: lines t
  | c :: t => if isLineBreak c then [c] :: lines t else consLine c (lines t)

/-- The text without its trailing occurrences of `c`. -/
def dropTrailing (c : Char) (t : Text) : Text :=
  (t.reverse.dropWhile (· = c)).reverse

/-- The text up to its first line feed. -/
def firstLine (t : Text) : Text := t.takeWhile (· ≠ '\n')

/-- Every `CR LF` pair and every lone `CR` read as a line feed. -/
def unifyNewlines : Text → Text
  | [] => []
  | '\r' :: '\n' :: t => '\n' :: unifyNewlines t
  | c :: t => (if c = '\r' then '\n' else c) :: unifyNewlines t

/-- Every `CR LF` pair read as a line feed; a lone `CR` stays. -/
def unifyCrLf : Text → Text
  | [] => []
  | '\r' :: '\n' :: t => '\n' :: unifyCrLf t
  | c :: t => c :: unifyCrLf t

/-- A character in front of the first line is in front of the whole text. -/
theorem flatten_consLine (c : Char) (ls : List Text) :
    (consLine c ls).flatten = c :: ls.flatten := by
  cases ls <;> rfl

/-- Splitting into lines keeps every character. -/
theorem flatten_lines (t : Text) : (lines t).flatten = t := by
  fun_induction lines t with
  | case1 => rfl
  | case2 t ih => simp [ih]
  | case3 c t _ h ih => simp [ih]
  | case4 c t _ h ih => rw [flatten_consLine, ih]

end Asl.Text
