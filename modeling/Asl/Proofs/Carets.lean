import Asl.Proofs.CursorRuns
import Asl.Proofs.LineEnds
import Asl.Proofs.Ranges

/-!
# What the carets of a snippet stand under

A snippet draws its carets from two numbers, a column and a width, and cuts
them off where the line it shows ends. The column comes from the place of an
error. The width is the length of the offending text or, for a token that was
not expected, the distance between the two ends of its span; where the span
leaves its line it is the length of the whole source, which is more than any
line has. That carets stand under the text at fault and under nothing else is
therefore not a matter of the drawing, but of where such a text can stand.

The part of a text that is on a line is said here of each of its characters,
by its place (`Text.partOn`). A text at fault begins inside a line, with a
character that is neither a line feed nor a carriage return. So the line that
is shown, carriage returns at its end left out, reaches at least over its first
character (`Text.exists_shown`), and what is on the line is a beginning of the
text, as long as what the line has left (`Text.partOn_eq_take`). The carets are
as many, whether the text ends on the line or goes on over a line feed
(`Snippet.underlines_of_stands`).

This needs the line that is shown to be the line that is meant; the page may
have another for it.
-/

namespace Asl

/-! ## The part of a text on a line -/

namespace Text

/-- **The part of a text on a line.** The text begins at `p`. A character of it
is on the line if its place has the number of the line, and a column that the
line reaches. -/
def partOn (line length : Int) : Position → Text → Text
  | _, [] => []
  | p, c :: t =>
    if p.line = line ∧ p.column ≤ length then c :: partOn line length (p.advance c) t
    else partOn line length (p.advance c) t

/-- Beyond the end of a line nothing is on it any more. -/
theorem partOn_eq_nil {line length : Int} {p : Position}
    (h : line < p.line ∨ p.line = line ∧ length < p.column) (w : Text) :
    partOn line length p w = [] := by
  induction w generalizing p with
  | nil => rfl
  | cons c w ih =>
    rw [partOn, if_neg (by omega)]
    refine ih ?_
    unfold Position.advance
    split
    · exact .inl (show line < p.line + 1 by omega)
    · exact h.imp_right fun h => ⟨h.1, show length < p.column + 1 by omega⟩

/-- **What is on a line is a beginning of the text.** Of what stands on the line
from the place on, the line reaches over `D`. -/
theorem partOn_eq_take {D w z : Text} (hD : D <+: firstLine (w ++ z)) (p : Position) :
    partOn p.line (p.column - 1 + D.length) p w = w.take D.length := by
  induction w generalizing D p with
  | nil => rw [List.take_nil, partOn]
  | cons c w ih =>
    cases D with
    | nil =>
      refine partOn_eq_nil (.inr ⟨rfl, ?_⟩) _
      show p.column - 1 + 0 < p.column
      omega
    | cons d D =>
      have hc : c ≠ '\n' := by
        rintro rfl
        exact absurd (List.prefix_nil.1 hD) (List.cons_ne_nil d D)
      rw [List.cons_append, firstLine_cons hc, List.cons_prefix_cons] at hD
      have hnext := ih hD.2 (p.advance c)
      have hp : p.advance c = ⟨p.line, p.column + 1, p.offset + 1⟩ := if_neg hc
      have hlength : (p.advance c).column - 1 + D.length = p.column - 1 + (d :: D).length := by
        rw [hp, List.length_cons]
        push_cast
        omega
      have hline : (p.advance c).line = p.line := by rw [hp]
      rw [hlength, hline] at hnext
      rw [partOn, if_pos ⟨rfl, by rw [List.length_cons]; push_cast; omega⟩, hnext]
      rfl

/-- A text that holds a line feed has its first line to itself. -/
theorem firstLine_append_of_mem {w : Text} (h : '\n' ∈ w) (z : Text) :
    firstLine (w ++ z) = firstLine w := by
  unfold firstLine
  rw [List.takeWhile_append, if_neg fun hl => ?_]
  have hw : firstLine w = w := (List.takeWhile_prefix _).eq_of_length hl
  exact not_mem_firstLine w (by rwa [hw])

/-- Two beginnings of a text, each cut to the length of the other. -/
theorem take_length_comm {D w z : Text} (h : D <+: w ++ z) :
    D.take w.length = w.take D.length := by
  calc D.take w.length
      = ((w ++ z).take D.length).take w.length := by rw [← List.prefix_iff_eq_take.1 h]
    _ = ((w ++ z).take w.length).take D.length := by rw [List.take_take, List.take_take, min_comm]
    _ = w.take D.length := by rw [List.take_left]

/-- **The line shown for a text** that begins inside it: what leads to the text,
and more. -/
theorem exists_shown {w : Text} (hn : w ≠ []) (hw : ∀ d ∈ w.head?, Lexicon.isLineEnd d = false)
    (A z : Text) :
    ∃ D, D ≠ [] ∧ D <+: firstLine (w ++ z) ∧
      dropTrailing '\r' (A ++ firstLine (w ++ z)) = A ++ D := by
  obtain ⟨c, t, rfl⟩ := List.exists_cons_of_ne_nil hn
  have hc := hw c rfl
  have hf : firstLine (c :: t ++ z) = c :: firstLine (t ++ z) :=
    firstLine_cons (by rintro rfl; cases hc) _
  have hD : dropTrailing '\r' (firstLine (c :: t ++ z)) ≠ [] := by
    intro hnil
    -- only a line of carriage returns alone is left out as a whole
    have hm : c ∈ (firstLine (c :: t ++ z)).reverse := by
      rw [hf]
      exact List.mem_reverse.2 List.mem_cons_self
    have hall := List.dropWhile_eq_nil_iff.1 (List.reverse_eq_nil_iff.1 hnil) c hm
    rw [of_decide_eq_true hall] at hc
    cases hc
  refine ⟨_, hD, List.rdropWhile_prefix _ _, ?_⟩
  rw [dropTrailing_append, if_neg hD]

end Text

/-! ## The rows of a snippet -/

namespace Snippet

/-- The rows above the line that is shown. -/
def heading (d : Snippet) : Text :=
  Text.join ['\n']
    ["error: ".toList ++ d.message,
     d.blankGutter ++ "--> ".toList ++ d.name ++ [':'] ++ Text.ofInt d.line ++ [':']
       ++ Text.ofInt d.column,
     d.blankGutter ++ ['|']]

/-- The gutter of the line that is shown. -/
def lineGutter (d : Snippet) : Text := Text.ofInt d.line ++ " | ".toList

/-- The gutter of the carets. -/
def caretGutter (d : Snippet) : Text := d.blankGutter ++ "| ".toList

/-- The last two rows of a snippet are the line and the carets. -/
theorem render_eq (d : Snippet) :
    d.render = d.heading ++ '\n' :: (d.lineGutter ++ d.shownLine)
      ++ '\n' :: (d.caretGutter ++ d.caretRow) := by
  simp only [render, heading, lineGutter, caretGutter, Text.join, List.append_assoc,
    List.cons_append, List.nil_append]

/-- **Both gutters have one width**, whatever number the line has. -/
theorem length_caretGutter (d : Snippet) : d.caretGutter.length = d.lineGutter.length := by
  unfold caretGutter lineGutter blankGutter
  rw [List.length_append, List.length_append, List.length_replicate]
  rfl

/-- **The snippet shows the line it names**, as the language counts lines, with
carriage returns at its end left out. -/
def ShowsLine (d : Snippet) : Prop :=
  ∃ l, (d.source.splitOn '\n')[(d.line - 1).toNat]? = some l ∧
    d.shownLine = Text.dropTrailing '\r' l

/-- **The carets stand under a text** that begins at `p`: under all of it that
is on the line shown, and under nothing else. -/
structure Underlines (d : Snippet) (p : Position) (w : Text) : Prop where
  slice_eq : Text.slice d.shownLine (d.column - 1) (d.column - 1 + d.caretCount)
    = Text.partOn d.line d.shownLine.length p w
  count_eq : d.caretCount = (Text.partOn d.line d.shownLine.length p w).length

theorem caretCount_pos (d : Snippet) : 1 ≤ d.caretCount := Int.le_max_left _ _

section Shown

variable {d : Snippet} {A D : Text} (hshown : d.shownLine = A ++ D)
  (hcolumn : d.column - 1 = A.length)
include hshown hcolumn

/-- From the column on, the carets end with the width or with the line. -/
theorem caretCount_eq_min (hD : D ≠ []) (hwidth : 1 ≤ d.width) :
    d.caretCount = min d.width D.length := by
  have hpos := List.length_pos_iff.2 hD
  unfold caretCount
  rw [hshown, List.length_append]
  push_cast
  omega

theorem slice_shownLine (k : Nat) :
    Text.slice d.shownLine (d.column - 1) (d.column - 1 + k) = D.take k := by
  have hk : (A.length + k - A.length : Int) = k := by omega
  unfold Text.slice
  rw [hshown, hcolumn, Int.toNat_natCast, List.drop_left, hk, Int.toNat_natCast]

end Shown

section Stands

variable {d : Snippet} {a w z : Text} (ht : d.source = a ++ (w ++ z))
  (hline : d.line = (Position.start.after a).line)
  (hcolumn : d.column = (Position.start.after a).column) (hn : w ≠ [])
  (hw : ∀ c ∈ w.head?, Lexicon.isLineEnd c = false) (hd : d.ShowsLine)
include ht hline hcolumn hn hw hd

/-- The line shown for a text that stands in the source after `a`. -/
theorem exists_shownLine :
    ∃ A D, D ≠ [] ∧ D <+: Text.firstLine (w ++ z) ∧ d.shownLine = A ++ D ∧
      d.column - 1 = A.length := by
  obtain ⟨l, hl, hshown⟩ := hd
  obtain ⟨D, hne, hD, hdrop⟩ := Text.exists_shown hn hw (a.rtakeWhile (· ≠ '\n')) z
  have hindex : (d.line - 1).toNat = a.count '\n' := by
    rw [hline, Position.line_after]
    show (1 + (a.count '\n' : Int) - 1).toNat = _
    omega
  rw [hindex, ht, Text.splitOn_getElem?_count] at hl
  refine ⟨a.rtakeWhile (· ≠ '\n'), D, hne, hD, ?_, ?_⟩
  · rw [hshown, ← Option.some.inj hl, hdrop]
  · rw [hcolumn, Position.column_after_start]
    omega

/-- **Carets under a text that stands in the source**: it begins inside a line,
and it is as wide as the snippet says, or goes on over a line feed and the
snippet is wider than the source. -/
theorem underlines_of_stands
    (hwidth : d.width = w.length ∨ '\n' ∈ w ∧ (d.source.length : Int) ≤ d.width) :
    d.Underlines (Position.start.after a) w := by
  obtain ⟨A, D, hne, hD, hshown, hcol⟩ := exists_shownLine ht hline hcolumn hn hw hd
  have hDw : D <+: w ++ z := hD.trans (List.takeWhile_prefix _)
  have hlen : (w ++ z).length ≤ d.source.length := by
    rw [ht]
    exact (List.suffix_append a _).length_le
  have hpos := List.length_pos_iff.2 hn
  have hcount : d.caretCount = min d.width D.length := by
    refine caretCount_eq_min hshown hcol hne ?_
    rw [List.length_append] at hlen
    omega
  have hpart : Text.partOn d.line d.shownLine.length (Position.start.after a) w
      = w.take D.length := by
    rw [hline, ← Text.partOn_eq_take hD (Position.start.after a), hshown, List.length_append,
      ← hcolumn, hcol]
    push_cast
    rfl
  rcases hwidth with hwidth | ⟨hm, hwide⟩
  · have hk : d.caretCount = ((min w.length D.length : Nat) : Int) := by
      rw [hcount, hwidth]
      omega
    refine ⟨?_, ?_⟩
    · rw [hk, slice_shownLine hshown hcol, hpart, ← Text.take_length_comm hDw, ← List.take_take,
        List.take_length]
    · rw [hk, hpart, List.length_take, min_comm]
  · -- the text goes on over a line feed, and all that the line has left is of it
    rw [Text.firstLine_append_of_mem hm] at hD
    have htake := List.prefix_iff_eq_take.1 (hD.trans (List.takeWhile_prefix _))
    have hk : d.caretCount = (D.length : Int) := by
      have := hDw.length_le
      rw [hcount]
      omega
    refine ⟨?_, ?_⟩
    · rw [hk, slice_shownLine hshown hcol, hpart, List.take_length, ← htake]
    · rw [hk, hpart, ← htake]

end Stands

/-- The row of carets for a place inside a source: blanks up to its column, and
at least one caret. -/
theorem Of.exists_caretRow {s : Source} {d : Snippet} (h : d.Of s) :
    ∃ m k : Nat, (m : Int) = d.column - 1 ∧ (k : Int) = d.caretCount ∧ 1 ≤ k ∧
      d.caretRow = List.replicate m ' ' ++ List.replicate k '^' := by
  obtain ⟨-, p, hp, -, hcolumn⟩ := h.exists_place
  have hpos := hp.column_le.1
  have hcount := d.caretCount_pos
  exact ⟨(d.column - 1).toNat, d.caretCount.toNat, by omega, by omega, by omega, rfl⟩

end Snippet

/-! ## The errors of a source -/

/-- A lexeme that is not blank space does not begin with a line end. -/
theorem Lexes.isLineEnd_head? {kind : TokenKind} {value w : Text} (h : Lexes kind value w)
    (hk : kind ≠ .space) : ∀ d ∈ w.head?, Lexicon.isLineEnd d = false := by
  intro d hw
  by_contra hd
  rw [Bool.not_eq_false] at hd
  obtain hs | ⟨-, rfl⟩ := h.lineEnd_cases hd (List.mem_of_mem_head? hw)
  · exact hk hs
  · cases hw
    cases hd

/-- **Carets under a lexical error.** -/
theorem Source.underlines_of_mem_errors {s : Source} {e : LexError} (h : e ∈ s.survey.errors)
    {name : Text} (hd : (e.snippet name).ShowsLine) :
    (e.snippet name).Underlines e.position e.text := by
  obtain ⟨pre, cause, b, w, a, post, ht, hb, rfl⟩ := Source.exists_fault h
  exact Snippet.underlines_of_stands ht rfl rfl hb.text_ne_nil hb.isLineEnd_head? hd (.inl rfl)

/-- **The width of a complaint** about a lexeme in its place: its length, or
more than any line has, if it goes on over a line feed. -/
theorem ParseError.width_of_span {e : ParseError} {p : Position} {w : Text}
    (h : e.span = ⟨p, p.after w⟩) (hn : w ≠ []) :
    e.width = w.length ∨ '\n' ∈ w ∧ (e.source.text.length : Int) ≤ e.width := by
  unfold width
  by_cases hm : '\n' ∈ w
  · have hline : e.span.stop.line ≠ e.span.start.line := by
      have hcount := List.count_pos_iff.2 hm
      rw [h]
      show (p.after w).line ≠ p.line
      rw [Position.line_after]
      omega
    rw [if_neg hline]
    exact .inr ⟨hm, Int.le_refl _⟩
  · have hpos := List.length_pos_iff.2 hn
    rw [Position.after_of_not_mem hm] at h
    have hline : e.span.stop.line = e.span.start.line := by rw [h]
    have hcolumn : e.span.stop.column - e.span.start.column = w.length := by
      rw [h]
      show p.column + w.length - p.column = _
      omega
    have hone : (1 : Int) ≤ w.length := by omega
    rw [if_pos hline, hcolumn]
    exact .inl (Int.max_eq_right hone)

namespace Cursor.Reads

variable {s : Source} {c : Cursor} (hc : c.Reads s)
include hc

/-- **The token under a cursor that reads a source** is the end token, or a
lexeme in its place that is not blank space. -/
theorem current_cases :
    c.current = .eofAt (Position.start.after s.text) ∨
      ∃ pre kind value w post, s.text = pre ++ (w ++ post) ∧ Lexes kind value w ∧
        kind ≠ .space ∧ c.current.kind = kind ∧ c.current.lexeme = w ∧
        c.current.span = ⟨Position.start.after pre, (Position.start.after pre).after w⟩ := by
  have hmem : c.current ∈ c.tokens := List.get_mem _ _
  obtain he | ⟨pre, r, post, ht, hb, he⟩ := Source.exists_reading (hc.mem_events.2 _ hmem)
  · exact .inl (Event.token.inj he)
  · generalize post.head? = next at hb
    cases hb with
    | @lexeme kind value w _ hl _ =>
      have ht' := Event.token.inj he
      have hshown : c.current.isHidden = false := by
        rw [hc.tokens_eq.2] at hmem
        simpa using List.of_mem_filter hmem
      refine .inr ⟨pre, kind, value, w, post, ht, hl, ?_, ?_, ?_, ?_⟩
      · rintro rfl
        rw [ht'] at hshown
        cases hshown
      all_goals rw [ht']
    | _ => cases he

/-- **Carets under a token** that was not expected. -/
theorem underlines (hk : c.current.kind ≠ .eof) {message name : Text}
    (hd : ((c.complaint message).snippet name).ShowsLine) :
    ((c.complaint message).snippet name).Underlines c.current.span.start c.current.lexeme := by
  have hs := congrArg Source.text hc.mem_events.1
  obtain he | ⟨pre, kind, value, w, post, ht, hl, hspace, -, hw, hspan⟩ := hc.current_cases
  · rw [he] at hk
    exact absurd rfl hk
  · rw [hspan, hw]
    refine Snippet.underlines_of_stands (hs.trans ht) ?_ ?_ hl.ne_nil (hl.isLineEnd_head? hspace)
      hd (ParseError.width_of_span hspan hl.ne_nil)
    · exact congrArg (·.start.line) hspan
    · exact congrArg (·.start.column) hspan

/-- The end token has one caret. -/
theorem caretCount_eq_one (hk : c.current.kind = .eof) (message name : Text) :
    ((c.complaint message).snippet name).caretCount = 1 := by
  obtain he | ⟨pre, kind, value, w, post, -, hl, -, hkind, -⟩ := hc.current_cases
  · have hwidth : (c.complaint message).width = 1 := by
      have hspan : (c.complaint message).span.stop = (c.complaint message).span.start := by
        show c.current.span.stop = c.current.span.start
        rw [he]
        rfl
      unfold ParseError.width
      rw [hspan, if_pos rfl, Int.sub_self]
      rfl
    show max 1 (min (c.complaint message).width _) = 1
    rw [hwidth]
    omega
  · exact absurd (hkind.symm.trans hk) hl.kind_ne_eof

end Cursor.Reads

/-- **Carets stand under the text at fault.** The last two rows of a snippet
are the line it shows and its carets, behind gutters of one width, whatever
number the line has. For the errors of a source, the carets stand after as many
blanks as there are columns before the error, and there is at least one. If the
line shown is the line the error names, they stand under the offending text, or
under the token that was not expected: under all of it that is on the line, and
under nothing else. The end of the source has a single caret. -/
theorem carets_under_text (s : Source) :
    (∀ d : Snippet, d.caretGutter.length = d.lineGutter.length ∧
      d.render = d.heading ++ '\n' :: (d.lineGutter ++ d.shownLine)
        ++ '\n' :: (d.caretGutter ++ d.caretRow)) ∧
    (∀ d : Snippet, d.Of s → ∃ m k : Nat, (m : Int) = d.column - 1 ∧
      (k : Int) = d.caretCount ∧ 1 ≤ k ∧
        d.caretRow = List.replicate m ' ' ++ List.replicate k '^') ∧
    (∀ cs e name, .error e ∈ ((Scan.start s).run cs).1 → (e.snippet name).ShowsLine →
      (e.snippet name).Underlines e.position e.text) ∧
    ∀ c kind message e name, Cursor.Reads s c →
      c.expect kind message = .error (.unexpected e) →
      (c.current.kind ≠ .eof → (e.snippet name).ShowsLine →
        (e.snippet name).Underlines e.span.start c.current.lexeme) ∧
      (c.current.kind = .eof → (e.snippet name).caretCount = 1) := by
  refine ⟨fun d => ⟨d.length_caretGutter, d.render_eq⟩, fun d hd => hd.exists_caretRow,
    fun cs e name he hd => ?_, fun c kind message e name hc he => ?_⟩
  · have hm : e ∈ s.survey.errors := by
      rw [s.survey_errors_eq]
      exact List.mem_filterMap.2 ⟨_, Scan.mem_events_of_mem_run he, rfl⟩
    exact Source.underlines_of_mem_errors hm hd
  · obtain rfl := Cursor.eq_complaint he
    exact ⟨fun hk hd => hc.underlines hk hd, fun hk => hc.caretCount_eq_one hk message name⟩

/-- A quote whose payload is a carriage return: the return is no part of the
line that is shown, and only the quote is underlined. A quoted line feed where
something else was expected: its first quote is underlined. Then the end of the
source, which has a caret past the end of its line. -/
theorem carets_under_text_quotes :
    (let s : Source := ⟨Source.defaultName, "x\r\n  '\r\n".toList⟩
      ∃ e, .error e ∈ ((Scan.start s).run [.next, .next, .next]).1 ∧
        (e.snippet s.name).shownLine = "  '".toList ∧ (e.snippet s.name).caretRow = "  ^".toList ∧
        (e.snippet s.name).Underlines ⟨2, 3, 5⟩ ['\'', '\r']) ∧
    (let s : Source := ⟨Source.defaultName, " '\n'".toList⟩
      ∃ c e e', Cursor.ofSource s = .ok c ∧ c.expect .semi [] = .error (.unexpected e) ∧
        (e.snippet s.name).shownLine = " '".toList ∧ (e.snippet s.name).caretRow = " ^".toList ∧
        (e.snippet s.name).Underlines ⟨1, 2, 1⟩ ['\'', '\n', '\''] ∧
        c.advance.2.expect .semi [] = .error (.unexpected e') ∧
        (e'.snippet s.name).shownLine = ['\''] ∧ (e'.snippet s.name).caretRow = " ^".toList ∧
        (e'.snippet s.name).caretCount = 1) := by
  refine ⟨?_, ?_⟩
  · intro s
    let e : LexError :=
      ⟨.unterminatedChar, Fault.unclosedChar.message, ⟨2, 3, 5⟩, s, ['\'', '\r']⟩
    have he : .error e ∈ ((Scan.start s).run [.next, .next, .next]).1 := by decide +kernel
    have hd : (e.snippet s.name).ShowsLine := ⟨"  '\r".toList, by decide +kernel, by decide +kernel⟩
    exact ⟨e, he, by decide +kernel, by decide +kernel, (carets_under_text s).2.2.1 _ e _ he hd⟩
  · intro s
    let t : Token :=
      ⟨.charval, ['\n'], ['\'', '\n', '\''], ⟨⟨1, 2, 1⟩, ⟨2, 2, 4⟩⟩, .default⟩
    let c : Cursor := ⟨s, [t, .eofAt ⟨2, 2, 4⟩], 0, rfl, by decide⟩
    have hc : Cursor.ofSource s = .ok c := by decide +kernel
    have he : c.expect .semi [] = .error (.unexpected ⟨[], t.span, s⟩) := by decide +kernel
    have he' : c.advance.2.expect .semi []
        = .error (.unexpected ⟨[], ⟨⟨2, 2, 4⟩, ⟨2, 2, 4⟩⟩, s⟩) := by decide +kernel
    have hd : (ParseError.snippet ⟨[], t.span, s⟩ s.name).ShowsLine :=
      ⟨" '".toList, by decide +kernel, by decide +kernel⟩
    obtain ⟨hunder, -⟩ := (carets_under_text s).2.2.2 c _ _ _ s.name (.start hc) he
    obtain ⟨-, hone⟩ := (carets_under_text s).2.2.2 _ _ _ _ s.name (.advance (.start hc)) he'
    exact ⟨c, _, _, hc, he, by decide +kernel, by decide +kernel, hunder (by decide) hd, he',
      by decide +kernel, by decide +kernel, hone rfl⟩

end Asl
