import Asl.Proofs.EventStream
import Asl.Proofs.LineEnds
import Asl.Proofs.Tiling

/-!
# The range a diagnostic marks

A diagnostic marks a range of one line. Where it starts is computed from the
position of an error alone, and how wide it is from the text of the error
alone. That the two fit – that the range lies inside a line, is not empty, and
holds the offending text – is a matter of the source they both came from.

The line is taken as an editor takes it, from the document cut at its line
feeds. What leads to a place ends in the first part of its line, and what
follows begins with the rest of it (`Text.splitOn_getElem?_count`). An error
may go on over a line feed, in a character literal or in the escape of a line
feed; but it does not begin with one, so its first line is never empty, and
the range stops where that line does (`Diagnostic.stop_ofError`).

Ranges come in the order of the document because errors do: walking on from
where a range stops, a place only moves on
(`EditorPosition.ofPosition_le_after`).
-/

namespace Asl

/-! ## Lines and first lines -/

namespace Text

theorem not_mem_firstLine (t : Text) : '\n' ∉ firstLine t := by
  intro h
  simpa using List.mem_takeWhile_imp h

/-- The first line of a text begins the first line of what the text begins. -/
theorem exists_firstLine_append (t u : Text) : ∃ v, firstLine (t ++ u) = firstLine t ++ v := by
  unfold firstLine
  rw [List.takeWhile_append]
  split
  · next h =>
    rw [(List.takeWhile_prefix _).eq_of_length h]
    exact ⟨_, rfl⟩
  · exact ⟨[], (List.append_nil _).symm⟩

theorem exists_eq_firstLine_append (t : Text) : ∃ v, t = firstLine t ++ v :=
  ⟨_, List.takeWhile_append_dropWhile.symm⟩

theorem firstLine_cons {c : Char} (hc : c ≠ '\n') (t : Text) :
    firstLine (c :: t) = c :: firstLine t :=
  List.takeWhile_cons_of_pos (decide_eq_true hc)

theorem firstLine_ne_nil {t : Text} (hn : t ≠ []) (h : t.head? ≠ some '\n') :
    firstLine t ≠ [] := by
  obtain ⟨c, t, rfl⟩ := List.exists_cons_of_ne_nil hn
  have hc : c ≠ '\n' := fun hc => h (congrArg some hc)
  rw [firstLine_cons hc]
  exact List.cons_ne_nil _ _

/-- A text has one line more than it has line feeds. -/
theorem length_splitOn (t : Text) : (t.splitOn '\n').length = t.count '\n' + 1 := by
  induction t with
  | nil => rfl
  | cons c t ih =>
    rw [List.splitOn_cons_eq_if_modifyHead, List.count_cons]
    split
    · rw [List.length_cons, ih]
    · rw [List.length_modifyHead, ih, Nat.add_zero]

theorem splitOn_getElem?_zero (t : Text) : (t.splitOn '\n')[0]? = some (firstLine t) := by
  obtain ⟨l, rest, rfl, hl, hr⟩ := exists_run (· ≠ '\n') t
  have hn : '\n' ∉ l := fun h => by simpa using hl _ h
  have hf : firstLine (l ++ rest) = l := takeWhile_run hl hr
  rw [hf]
  cases rest with
  | nil => rw [List.append_nil, List.splitOn_eq_singleton hn]; rfl
  | cons d u =>
    obtain rfl : d = '\n' := by simpa using hr d rfl
    rw [List.splitOn_append_cons_self_of_not_mem hn]
    rfl

/-- **The line of a place**: what leads to the place ends in its first part,
and what follows begins with the rest. -/
theorem splitOn_getElem?_count (a v : Text) :
    ((a ++ v).splitOn '\n')[a.count '\n']? = some (a.rtakeWhile (· ≠ '\n') ++ firstLine v) := by
  -- from the end of `a`: the last character goes over to what follows, or cuts the text
  induction a using List.reverseRecOn generalizing v with
  | nil => exact splitOn_getElem?_zero v
  | append_singleton a c ih =>
    rw [List.append_assoc, List.count_append, List.rtakeWhile_concat]
    by_cases hc : c = '\n'
    · subst hc
      show ((a ++ '\n' :: v).splitOn '\n')[a.count '\n' + 1]? = _
      rw [List.splitOn_append_cons_self, ← length_splitOn, List.getElem?_append_right le_rfl,
        Nat.sub_self, splitOn_getElem?_zero, if_neg (by simp)]
      rfl
    · rw [List.count_singleton, if_neg (by simpa using hc), Nat.add_zero,
        if_pos (decide_eq_true hc), ih, List.singleton_append, firstLine_cons hc,
        List.append_assoc]
      rfl

end Text

/-! ## Places in the order of a document -/

/-- A text without line feeds leads on along the line. -/
theorem Position.after_of_not_mem {t : Text} (h : '\n' ∉ t) (p : Position) :
    p.after t = ⟨p.line, p.column + t.length, p.offset + t.length⟩ := by
  induction t generalizing p with
  | nil => simp
  | cons c t ih =>
    rw [List.mem_cons, not_or] at h
    rw [after_cons, ih h.2, advance, if_neg fun hc => h.1 hc.symm, List.length_cons,
      Position.mk.injEq]
    exact ⟨rfl, by push_cast; omega, by push_cast; omega⟩

namespace EditorPosition

/-- A place is before another if it is on an earlier line, or earlier on the
same line. -/
instance : LT EditorPosition :=
  ⟨fun p q => p.line < q.line ∨ p.line = q.line ∧ p.character < q.character⟩

/-- Before it, or the same. -/
instance : LE EditorPosition :=
  ⟨fun p q => p.line < q.line ∨ p.line = q.line ∧ p.character ≤ q.character⟩

variable {p q r : EditorPosition}

theorem lt_iff : p < q ↔ p.line < q.line ∨ p.line = q.line ∧ p.character < q.character := Iff.rfl

theorem le_iff : p ≤ q ↔ p.line < q.line ∨ p.line = q.line ∧ p.character ≤ q.character := Iff.rfl

theorem le_trans (h : p ≤ q) (h' : q ≤ r) : p ≤ r := by
  rw [le_iff] at *
  omega

theorem lt_of_lt_of_le (h : p < q) (h' : q ≤ r) : p < r := by
  rw [lt_iff] at *
  rw [le_iff] at h'
  omega

theorem check_eq_ok (hl : 0 ≤ p.line ∧ p.line ≤ CoordinateError.greatest)
    (hc : 0 ≤ p.character ∧ p.character ≤ CoordinateError.greatest) : p.check = .ok () := by
  have ht : ∀ {n : Int}, 0 ≤ n ∧ n ≤ CoordinateError.greatest → takes n = true := by
    intro n hn
    rw [takes, Bool.and_eq_true, decide_eq_true_eq, decide_eq_true_eq]
    exact hn
  rw [check, if_pos (ht hl), if_pos (ht hc)]

/-- **Text leads a place on**, and never back. -/
theorem ofPosition_le_after (p : Position) (t : Text) :
    ofPosition p ≤ ofPosition (p.after t) := by
  induction t generalizing p with
  | nil => exact .inr ⟨rfl, Int.le_refl _⟩
  | cons c t ih =>
    refine le_trans ?_ (ih (p.advance c))
    rw [le_iff]
    unfold ofPosition Position.advance
    split
    · exact .inl (Int.sub_lt_sub_right (Int.lt_succ _) _)
    · exact .inr ⟨rfl, Int.sub_le_sub_right (Int.le_of_lt (Int.lt_succ _)) _⟩

end EditorPosition

/-! ## The range of an error -/

/-- What begins with a line end is not at fault. -/
theorem Reading.Before.isLineEnd_head? {cause : Fault} {b w a : Text} {next : Option Char}
    (h : (Reading.fault cause b w a).Before next) :
    ∀ d ∈ w.head?, Lexicon.isLineEnd d = false := by
  intro d hw
  by_contra hd
  rw [Bool.not_eq_false] at hd
  have hm : d ∈ b ++ w ++ a :=
    List.mem_append_left a (List.mem_append_right b (List.mem_of_mem_head? hw))
  rcases h.fault_lineEnd_cases hd hm with he | he
  · cases he
    cases hw
    cases hd
  · cases he
    cases hw
    cases hd

namespace Diagnostic

/-- **A diagnostic covers an error of a text**: it marks part of one line of
the text, not empty, and what it marks is the offending text, up to its first
line feed. -/
structure Covers (text : Text) (e : LexError) (d : Diagnostic) : Prop where
  /-- It stays on its line. -/
  stop_line : d.stop.line = d.start.line
  /-- The line is one of the text. -/
  line_nonneg : 0 ≤ d.start.line
  exists_line : ∃ l, (text.splitOn '\n')[d.start.line.toNat]? = some l ∧
    0 ≤ d.start.character ∧ d.start.character < d.stop.character ∧
    d.stop.character ≤ l.length ∧
    Text.slice l d.start.character d.stop.character = Text.firstLine e.text

/-- One range stands before another, and stops before the other starts. -/
def Precedes (d e : Diagnostic) : Prop := d.start < e.start ∧ d.stop ≤ e.start

theorem start_ofError (e : LexError) :
    (ofError e).start = EditorPosition.ofPosition e.position := rfl

theorem width_eq {e : LexError} (h : Text.firstLine e.text ≠ []) :
    width e = (Text.firstLine e.text).length :=
  max_eq_right (List.length_pos_iff.2 h)

/-- **A range stops where the first line of the offending text does.** -/
theorem stop_ofError {e : LexError} (h : Text.firstLine e.text ≠ []) :
    (ofError e).stop
      = EditorPosition.ofPosition (e.position.after (Text.firstLine e.text)) := by
  rw [Position.after_of_not_mem (Text.not_mem_firstLine _)]
  refine congrArg (EditorPosition.mk (e.position.line - 1)) ?_
  show e.position.column - 1 + width e = e.position.column + (Text.firstLine e.text).length - 1
  rw [width_eq h]
  omega

end Diagnostic

/-- **An error that stands after some text**, at the place this leads to, and
does not begin with a line feed. -/
structure LexError.StandsAfter (text a : Text) (e : LexError) : Prop where
  exists_rest : ∃ z, text = a ++ (e.text ++ z)
  position_eq : e.position = Position.start.after a
  ne_nil : Text.firstLine e.text ≠ []

/-- The errors of a source stand in it. -/
theorem Source.exists_standsAfter {s : Source} {e : LexError} (h : e ∈ s.survey.errors) :
    ∃ a, e.StandsAfter s.text a := by
  obtain ⟨pre, cause, b, w, a, post, ht, hb, rfl⟩ := Source.exists_fault h
  have hw : w.head? ≠ some '\n' := fun hw => by cases hb.isLineEnd_head? _ hw
  exact ⟨pre ++ b, ⟨a ++ post, ht⟩, rfl, Text.firstLine_ne_nil hb.text_ne_nil hw⟩

namespace LexError.StandsAfter

open Diagnostic

variable {text a b : Text} {d e : LexError}

theorem start_line (h : e.StandsAfter text a) : (ofError e).start.line = a.count '\n' := by
  rw [start_ofError, h.position_eq]
  show (Position.start.after a).line - 1 = _
  rw [Position.line_after]
  show 1 + (a.count '\n' : Int) - 1 = _
  omega

theorem start_character (h : e.StandsAfter text a) :
    (ofError e).start.character = (a.rtakeWhile (· ≠ '\n')).length := by
  rw [start_ofError, h.position_eq]
  show (Position.start.after a).column - 1 = _
  rw [Position.column_after_start]
  omega

theorem stop_character (h : e.StandsAfter text a) :
    (ofError e).stop.character
      = (a.rtakeWhile (· ≠ '\n')).length + (Text.firstLine e.text).length := by
  rw [← h.start_character, ← width_eq h.ne_nil]
  rfl

/-- **The range of an error covers it.** -/
theorem covers (h : e.StandsAfter text a) : (ofError e).Covers text e := by
  obtain ⟨z, ht⟩ := h.exists_rest
  obtain ⟨v, hv⟩ := Text.exists_firstLine_append e.text z
  refine ⟨rfl, ?_, a.rtakeWhile (· ≠ '\n') ++ (Text.firstLine e.text ++ v), ?_, ?_, ?_, ?_, ?_⟩
  · rw [h.start_line]
    exact Int.natCast_nonneg _
  · rw [h.start_line, Int.toNat_natCast, ← hv, ht]
    exact Text.splitOn_getElem?_count a (e.text ++ z)
  · rw [h.start_character]
    exact Int.natCast_nonneg _
  · rw [h.start_character, h.stop_character]
    exact Int.lt_add_of_pos_right _ (Int.natCast_pos.2 (List.length_pos_iff.2 h.ne_nil))
  · rw [h.stop_character, List.length_append, List.length_append]
    omega
  · rw [h.start_character, h.stop_character]
    exact Text.slice_append _ _ v

/-- **Ranges come in the order of the errors.** -/
theorem precedes (hd : d.StandsAfter text a) (he : e.StandsAfter text b) (h : d.Precedes e) :
    (ofError d).Precedes (ofError e) := by
  obtain ⟨y, hy⟩ := hd.exists_rest
  obtain ⟨z, hz⟩ := he.exists_rest
  -- what leads to the later error begins with the earlier one
  have hlen : (a ++ d.text).length ≤ b.length := by
    have hle := h.2
    rw [hd.position_eq, he.position_eq, Position.offset_after_start,
      Position.offset_after_start] at hle
    rw [List.length_append]
    omega
  have hpre : a ++ d.text <+: b := by
    refine List.prefix_of_prefix_length_le ?_ ⟨_, hz.symm⟩ hlen
    exact ⟨y, by rw [hy, List.append_assoc]⟩
  obtain ⟨m, hm⟩ := hpre
  obtain ⟨r, hr⟩ := Text.exists_eq_firstLine_append d.text
  have hstop : (ofError d).stop ≤ (ofError e).start := by
    have hb : b = a ++ Text.firstLine d.text ++ (r ++ m) := by
      rw [← hm]
      conv_lhs => rw [hr]
      simp only [List.append_assoc]
    rw [stop_ofError hd.ne_nil, start_ofError, hd.position_eq, he.position_eq, hb,
      ← Position.after_append, Position.after_append _ (a ++ _)]
    exact EditorPosition.ofPosition_le_after _ _
  have hlt : (ofError d).start < (ofError d).stop := by
    obtain ⟨l, -, -, hlt, -⟩ := hd.covers.exists_line
    exact .inr ⟨rfl, hlt⟩
  exact ⟨EditorPosition.lt_of_lt_of_le hlt hstop, hstop⟩

/-- **An editor takes the range** of an error in a text that is not longer than
its greatest coordinate. -/
theorem check_eq_ok (h : e.StandsAfter text a) (hl : text.length ≤ CoordinateError.greatest) :
    (ofError e).check = .ok () := by
  obtain ⟨z, ht⟩ := h.exists_rest
  have hlen : a.length + e.text.length ≤ text.length := by
    rw [ht, List.length_append, List.length_append]
    omega
  have hcount : a.count '\n' ≤ a.length := List.count_le_length
  have htail : (a.rtakeWhile (· ≠ '\n')).length ≤ a.length :=
    (List.rtakeWhile_suffix _ a).length_le
  have hfirst : (Text.firstLine e.text).length ≤ e.text.length :=
    (List.takeWhile_prefix _).length_le
  have hline := h.start_line
  have hstart := h.start_character
  have hstop := h.stop_character
  have hs : (ofError e).start.check = .ok () :=
    EditorPosition.check_eq_ok ⟨by omega, by omega⟩ ⟨by omega, by omega⟩
  have ht : (ofError e).stop.check = .ok () := by
    refine EditorPosition.check_eq_ok ?_ ⟨by omega, by omega⟩
    rw [h.covers.stop_line]
    exact ⟨by omega, by omega⟩
  rw [Diagnostic.check, hs]
  exact ht

end LexError.StandsAfter

/-- **The diagnostics of a document cover its errors.** There is one for each
error, in order. It marks part of one line of the document, cut at its line
feeds; the part is not empty, and it is the offending text up to its first
line feed. Each range stops before the next one starts. An editor takes all
of them, if the document is not longer than its greatest coordinate. -/
theorem diagnostics_cover (uri text : Text) :
    let s : Source := ⟨Publication.documentName uri, text⟩
    let ds := (Publication.ofDocument uri text).diagnostics
    ds = s.survey.errors.map Diagnostic.ofError ∧
      (∀ e ∈ s.survey.errors, (Diagnostic.ofError e).Covers text e) ∧
      ds.Pairwise Diagnostic.Precedes ∧
      (text.length ≤ CoordinateError.greatest → ∀ d ∈ ds, d.check = .ok ()) := by
  intro s ds
  refine ⟨rfl, fun e he => ?_, ?_, fun hl d hd => ?_⟩
  · obtain ⟨a, ha⟩ := Source.exists_standsAfter he
    exact ha.covers
  · have hp : s.survey.errors.Pairwise LexError.Precedes := by
      rw [show s.survey.errors = _ from Scan.survey_errors (.start s)]
      exact (tiles_calls_ready s [] rfl).pairwise_errors
    refine List.pairwise_map.2 (hp.imp_of_mem fun {d e} hd he hde => ?_)
    obtain ⟨a, ha⟩ := Source.exists_standsAfter hd
    obtain ⟨b, hb⟩ := Source.exists_standsAfter he
    exact ha.precedes hb hde
  · obtain ⟨e, he, rfl⟩ := List.mem_map.1 hd
    obtain ⟨a, ha⟩ := Source.exists_standsAfter he
    exact ha.check_eq_ok hl

-- a quote whose payload is a line feed, and an escape in the middle of a string literal
example : (Publication.ofDocument [] "x '\n@ \"a\\qb\"".toList).diagnostics.map
    (fun d => (d.start, d.stop))
      = [(⟨0, 2⟩, ⟨0, 3⟩), (⟨1, 0⟩, ⟨1, 1⟩), (⟨1, 4⟩, ⟨1, 6⟩)] := by
  decide +kernel

end Asl
