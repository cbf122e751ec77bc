import Asl.Proofs.EntryPoints
import Asl.Proofs.EventStream
import Asl.Proofs.Places
import Asl.Proofs.ReportLines
import Mathlib.Data.List.GetD

/-!
# The line an error is shown with

An error names a line, and its snippet is to show that line. The two do not
count alike: the language ends a line at a line feed and nowhere else, while
a snippet takes its lines from the page, which breaks at ten characters more
and takes `CR LF` for one break. So a form feed in a comment moves all that
follows it down by one, and from there on an error is shown with a line that
stands above it (`shownLine_formFeed`).

What is shown is settled by the lines as the language counts them. Each of
them gives the page one line or more, since a line feed breaks a page too
(`Text.lines_line_append`). If every line above the one an error names gives
the page a single line (`Text.Unbroken`), the snippet takes the first line
that the named one gives, and that is all of it exactly if nothing breaks
the page before its end. If some line above gives more, the snippet takes
what it shows from above.
-/

namespace Asl

/-! ## Lines as the language counts them -/

namespace Text

/-- **A text up to one of its lines**: the lines before it with their line
feeds, then the line, then nothing or the line feed that ends it. -/
theorem exists_counted {t : Text} {k : Nat} (hk : k ≤ t.count '\n') :
    ∃ l rest, (t.splitOn '\n')[k]? = some l ∧ '\n' ∉ l ∧ (∀ d ∈ rest.head?, d = '\n') ∧
      t = ((t.splitOn '\n').take k).flatMap line ++ (l ++ rest) := by
  induction k generalizing t with
  | zero =>
    obtain ⟨l, rest, rfl, hl, hr⟩ := exists_run (· ≠ '\n') t
    have hn : '\n' ∉ l := fun h => by simpa using hl _ h
    cases rest with
    | nil =>
      refine ⟨l, [], ?_, hn, by simp, rfl⟩
      rw [List.append_nil, List.splitOn_eq_singleton hn]
      rfl
    | cons d u =>
      obtain rfl : d = '\n' := by simpa using hr d rfl
      refine ⟨l, '\n' :: u, ?_, hn, by simp, rfl⟩
      rw [List.splitOn_append_cons_self_of_not_mem hn]
      rfl
  | succ k ih =>
    obtain ⟨l, rest, rfl, hl, hr⟩ := exists_run (· ≠ '\n') t
    have hn : '\n' ∉ l := fun h => by simpa using hl _ h
    rw [List.count_append, List.count_eq_zero.2 hn, Nat.zero_add] at hk
    cases rest with
    | nil => exact absurd hk (Nat.not_succ_le_zero k)
    | cons d u =>
      obtain rfl : d = '\n' := by simpa using hr d rfl
      rw [List.count_cons_self] at hk
      obtain ⟨m, rest, hm, hnm, hrest, hu⟩ := ih (Nat.le_of_succ_le_succ hk)
      rw [List.splitOn_append_cons_self_of_not_mem hn]
      refine ⟨m, rest, hm, hnm, hrest, ?_⟩
      rw [List.take_succ_cons, List.flatMap_cons, List.append_assoc, ← hu, line, List.append_assoc]
      rfl

/-! ## Lines as a page breaks them -/

/-- What breaks no line goes to the first line of what follows. -/
theorem lines_append {a : Text} (ha : ∀ c ∈ a, isLineBreak c = false) (v : Text) :
    lines (a ++ v) = a.foldr consLine (lines v) := by
  induction a with
  | nil => rfl
  | cons c a ih =>
    rw [List.forall_mem_cons] at ha
    have hc : c = '\r' → (a ++ v).head? ≠ some '\n' := by
      rintro rfl
      cases ha.1
    rw [List.cons_append, lines_cons hc, ha.1, ih ha.2]
    rfl

theorem foldr_consLine_cons (a l : Text) (ls : List Text) :
    a.foldr consLine (l :: ls) = (a ++ l) :: ls := by
  induction a with
  | nil => rfl
  | cons c a ih => rw [List.foldr_cons, ih]; rfl

theorem headD_foldr_consLine (a : Text) (ls : List Text) :
    (a.foldr consLine ls).headD [] = a ++ ls.headD [] := by
  induction a with
  | nil => rfl
  | cons c a ih =>
    rw [List.foldr_cons, List.cons_append, ← ih]
    cases a.foldr consLine ls <;> rfl

/-- **A line that a page does not break**: nothing in it breaks the page but,
perhaps, a `CR` at its end, which is one break with the line feed. -/
def Unbroken (l : Text) : Prop :=
  ∃ a, (∀ c ∈ a, isLineBreak c = false) ∧ (l = a ∨ l = a ++ ['\r'])

/-- Such a line is what gives the page a single line. -/
theorem lines_line_eq_iff (l : Text) : lines (line l) = [line l] ↔ l.Unbroken := by
  constructor
  · intro h
    obtain ⟨a, v, rfl, ha, hv⟩ := exists_run (fun c => !isLineBreak c) l
    have ha' : ∀ c ∈ a, isLineBreak c = false := fun c hc => by simpa using ha c hc
    rw [line, List.append_assoc, lines_append ha'] at h
    cases v with
    | nil => exact ⟨a, ha', .inl (List.append_nil a)⟩
    | cons b w =>
      have hb : isLineBreak b = true := by simpa using hv b rfl
      by_cases hp : b = '\r' → (line w).head? ≠ some '\n'
      · -- the break is a line's end, and the line feed comes after it
        change a.foldr consLine (lines (b :: line w)) = _ at h
        rw [lines_cons hp, if_pos hb, foldr_consLine_cons] at h
        exact absurd (List.cons.inj h).2 (lines_ne_nil (line_ne_nil w))
      · obtain ⟨rfl, hw⟩ := Classical.not_imp.1 hp
        cases w with
        | nil => exact ⟨a, ha', .inr rfl⟩
        | cons d w =>
          obtain rfl : d = '\n' := by simpa [line] using hw
          change a.foldr consLine (lines ('\r' :: '\n' :: line w)) = _ at h
          rw [lines_crlf, foldr_consLine_cons] at h
          exact absurd (List.cons.inj h).2 (lines_ne_nil (line_ne_nil w))
  · rintro ⟨a, ha, rfl | rfl⟩
    · rw [line, lines_append ha]
      exact foldr_consLine_cons l ['\n'] []
    · rw [line, List.append_assoc, lines_append ha]
      exact foldr_consLine_cons a ['\r', '\n'] []

/-- The page breaks after each of some lines. -/
theorem lines_flatMap_line_append (ls : List Text) (u : Text) :
    lines (ls.flatMap line ++ u) = lines (ls.flatMap line) ++ lines u := by
  induction ls with
  | nil => rfl
  | cons l ls ih =>
    rw [List.flatMap_cons, List.append_assoc, lines_line_append, ih, lines_line_append,
      List.append_assoc]

/-- Lines of which the page breaks one are more lines on the page. -/
theorem length_lt_length_lines {ls : List Text} (h : ∃ l ∈ ls, ¬ l.Unbroken) :
    ls.length < (lines (ls.flatMap line)).length := by
  induction ls with
  | nil => simp at h
  | cons l ls ih =>
    have hpos := List.length_pos_iff.2 (lines_ne_nil (line_ne_nil l))
    have hle := length_le_length_lines ls
    rw [List.flatMap_cons, lines_line_append, List.length_append, List.length_cons]
    by_cases hl : l.Unbroken
    · have := ih (by simpa [hl] using h)
      omega
    · -- a single line on the page would be all of `l`
      have hne : (lines (line l)).length ≠ 1 := by
        intro h1
        obtain ⟨m, hm⟩ := List.length_eq_one_iff.1 h1
        have hf := flatten_lines (line l)
        rw [hm, List.flatten_singleton] at hf
        exact hl ((lines_line_eq_iff l).1 (hf ▸ hm))
      omega

/-! ## The end of a line -/

theorem dropTrailing_append (c : Char) (t u : Text) :
    dropTrailing c (t ++ u)
      = if dropTrailing c u = [] then dropTrailing c t else t ++ dropTrailing c u := by
  unfold dropTrailing
  rw [List.reverse_append, List.dropWhile_append]
  simp only [List.isEmpty_iff, List.reverse_eq_nil_iff]
  split
  · rfl
  · rw [List.reverse_append, List.reverse_reverse]

theorem dropTrailing_concat_self (c : Char) (t : Text) :
    dropTrailing c (t ++ [c]) = dropTrailing c t := by
  rw [dropTrailing_append, if_pos (by simp [dropTrailing])]

theorem dropTrailing_concat_of_ne {c d : Char} (h : d ≠ c) (t : Text) :
    dropTrailing c (t ++ [d]) = t ++ [d] := by
  have hd : dropTrailing c [d] = [d] := by simp [dropTrailing, h]
  rw [dropTrailing_append, hd, if_neg (List.cons_ne_nil d [])]

theorem dropTrailing_of_not_mem {c : Char} {t : Text} (h : c ∉ t) : dropTrailing c t = t := by
  obtain rfl | ⟨u, d, rfl⟩ := t.eq_nil_or_concat'
  · rfl
  · refine dropTrailing_concat_of_ne (fun hd => h ?_) u
    rw [hd]
    exact List.mem_append_right u List.mem_cons_self

/-- A line of the page without what ends it. -/
def unended (page : Text) : Text := dropTrailing '\r' (dropTrailing '\n' page)

/-- What breaks no line ends in neither of the two. -/
theorem unended_of_forall {a : Text} (ha : ∀ c ∈ a, isLineBreak c = false) : unended a = a := by
  have hn : ∀ {d : Char}, isLineBreak d = true → d ∉ a := by
    intro d hd hm
    rw [ha d hm] at hd
    cases hd
  rw [unended, dropTrailing_of_not_mem (hn rfl), dropTrailing_of_not_mem (hn rfl)]

/-- The first line that ends with a break: the break is one of the two that
are left out, or it stays. -/
theorem unended_head_of_break {a : Text} {b : Char} (hb : isLineBreak b = true) (hn : b ≠ '\n')
    (u : Text) : unended (a ++ (lines (b :: u)).headD []) = dropTrailing '\r' (a ++ [b]) := by
  by_cases hp : b = '\r' → u.head? ≠ some '\n'
  · rw [lines_cons hp, if_pos hb]
    show unended (a ++ [b]) = _
    rw [unended, dropTrailing_concat_of_ne hn]
  · obtain ⟨rfl, hu⟩ := Classical.not_imp.1 hp
    obtain ⟨w, rfl⟩ := List.head?_eq_some_iff.1 (not_not.1 hu)
    rw [lines_crlf]
    show unended (a ++ (['\r'] ++ ['\n'])) = _
    rw [unended, ← List.append_assoc, dropTrailing_concat_self, dropTrailing_concat_of_ne hn]

/-- **The first line that a line gives the page is all of it** exactly if
nothing breaks the page before its end. Carriage returns at the end do not
count. -/
theorem unended_head_iff {l rest : Text} (hl : '\n' ∉ l) (hr : ∀ d ∈ rest.head?, d = '\n') :
    unended ((lines (l ++ rest)).headD []) = dropTrailing '\r' l ↔
      ∀ c ∈ (dropTrailing '\r' l).dropLast, isLineBreak c = false := by
  obtain ⟨a, v, rfl, ha, hv⟩ := exists_run (fun c => !isLineBreak c) l
  have ha' : ∀ c ∈ a, isLineBreak c = false := fun c hc => by simpa using ha c hc
  have hcr : dropTrailing '\r' a = a := dropTrailing_of_not_mem fun h => by cases ha' _ h
  rw [List.append_assoc, lines_append ha', headD_foldr_consLine]
  cases v with
  | nil =>
    rw [List.append_nil, List.nil_append, hcr]
    refine iff_of_true ?_ (fun c hc => ha' c (List.dropLast_subset a hc))
    cases rest with
    | nil =>
      rw [show (lines []).headD [] = [] from rfl, List.append_nil]
      exact unended_of_forall ha'
    | cons d u =>
      obtain rfl := hr d rfl
      rw [lines_cons (fun h => by cases h)]
      show unended (a ++ ['\n']) = a
      rw [unended, dropTrailing_concat_self]
      exact unended_of_forall ha'
  | cons b w =>
    have hb : isLineBreak b = true := by simpa using hv b rfl
    have hn : b ≠ '\n' := by
      rintro rfl
      exact hl (List.mem_append_right a List.mem_cons_self)
    have hsplit : dropTrailing '\r' (a ++ b :: w) = if dropTrailing '\r' w = []
        then dropTrailing '\r' (a ++ [b]) else (a ++ [b]) ++ dropTrailing '\r' w := by
      rw [← dropTrailing_append, List.append_assoc]
      rfl
    rw [List.cons_append, unended_head_of_break hb hn, hsplit]
    split
    · -- the break is the end of the line, carriage returns apart
      refine iff_of_true rfl (fun c hc => ha' c ?_)
      by_cases hbr : b = '\r'
      · rw [hbr, dropTrailing_concat_self, hcr] at hc
        exact List.dropLast_subset a hc
      · rwa [dropTrailing_concat_of_ne hbr, List.dropLast_concat] at hc
    · next hw =>
      -- more follows, so the first line is too short, and the break is why
      refine iff_of_false (fun h => ?_) (fun h => ?_)
      · have hle : (dropTrailing '\r' (a ++ [b])).length ≤ (a ++ [b]).length := by
          simpa [dropTrailing] using
            (List.dropWhile_sublist (l := (a ++ [b]).reverse) (· = '\r')).length_le
        have hpos := List.length_pos_iff.2 hw
        rw [h, List.length_append] at hle
        omega
      · rw [List.dropLast_append_of_ne_nil hw] at h
        rw [h b (by simp)] at hb
        cases hb

end Text

/-! ## The line of a place -/

/-- **What is shown for a place in a text.** The place has a line that the
language counts. If the page breaks no line above it, that line is shown,
carriage returns at its end apart, exactly if nothing breaks the page before
its end. Otherwise what is shown stands above it. -/
theorem Snippet.lineOf_iff {t : Text} {p : Position} (h : p.In t) :
    let above := (t.splitOn '\n').take (p.line - 1).toNat
    ∃ l, (t.splitOn '\n')[(p.line - 1).toNat]? = some l ∧
      ((∀ m ∈ above, Text.Unbroken m) →
        (lineOf t p.line = Text.dropTrailing '\r' l ↔
          ∀ c ∈ (Text.dropTrailing '\r' l).dropLast, Text.isLineBreak c = false)) ∧
      ((∃ m ∈ above, ¬ Text.Unbroken m) →
        ∃ page ∈ Text.lines (above.flatMap Text.line), lineOf t p.line = Text.unended page) := by
  intro above
  have hcount : (p.line - 1).toNat = (t.take p.offset.toNat).count '\n' := by
    rw [h.line_eq]
    omega
  have hk : (p.line - 1).toNat ≤ t.count '\n' := by
    rw [hcount]
    exact (List.take_sublist _ t).count_le _
  obtain ⟨l, rest, hl, hn, hr, ht⟩ := Text.exists_counted hk
  have hlen : above.length = (p.line - 1).toNat := by
    rw [List.length_take]
    exact Nat.min_eq_left (List.getElem?_eq_some_iff.1 hl).1.le
  have hlines : Text.lines t = Text.lines (above.flatMap Text.line) ++ Text.lines (l ++ rest) := by
    conv_lhs => rw [ht]
    exact Text.lines_flatMap_line_append above (l ++ rest)
  have hshown : lineOf t p.line
      = Text.unended ((Text.lines (above.flatMap Text.line)
          ++ Text.lines (l ++ rest)).getD above.length []) := by
    rw [← hlines, hlen, lineOf, if_neg (by rw [h.line_eq]; omega)]
    rfl
  refine ⟨l, hl, fun hu => ?_, fun hu => ?_⟩
  · -- one line of the page for each line above, so the next one is the first of `l`
    have hone : Text.lines (above.flatMap Text.line) = above.map Text.line :=
      (Text.lines_flatMap_line_iff above).2 fun m hm => (Text.lines_line_eq_iff m).2 (hu m hm)
    have hhead : (above.map Text.line ++ Text.lines (l ++ rest)).getD above.length []
        = (Text.lines (l ++ rest)).headD [] := by
      rw [List.getD_append_right _ _ _ _ (by simp), List.length_map, Nat.sub_self]
      cases Text.lines (l ++ rest) <;> rfl
    rw [hshown, hone, hhead]
    exact Text.unended_head_iff hn hr
  · have hlt := Text.length_lt_length_lines hu
    rw [hshown, List.getD_append _ _ _ _ hlt, List.getD_eq_getElem _ _ hlt]
    exact ⟨_, List.getElem_mem hlt, rfl⟩

/-! ## The errors of a source -/

/-- **A cursor that reads a source**: the one the source is given, and any
that it comes to as tokens are taken. -/
inductive Cursor.Reads (s : Source) : Cursor → Prop where
  /-- Before the first token. -/
  | start {c : Cursor} (h : Cursor.ofSource s = .ok c) : Reads s c
  /-- After a token that was taken. -/
  | advance {c : Cursor} (h : Reads s c) : Reads s c.advance.2
  /-- After a token that was expected. -/
  | expect {c d : Cursor} {kind : TokenKind} {message : Text} {t : Token} (h : Reads s c)
      (hd : c.expect kind message = .ok (t, d)) : Reads s d

/-- **The snippets of a source**: an error is shown with one, under a name of
the source. The error is one that a scan of the source gives, or the
complaint of a cursor about a token it did not expect. -/
inductive Snippet.Of (s : Source) : Snippet → Prop where
  /-- A lexical error. -/
  | lexical {cs : List Command} {e : LexError} (h : .error e ∈ ((Scan.start s).run cs).1)
      (name : Text) : Of s (e.snippet name)
  /-- An unexpected token. -/
  | unexpected {c : Cursor} {kind : TokenKind} {message : Text} {e : ParseError}
      (hc : c.Reads s) (h : c.expect kind message = .error (.unexpected e)) (name : Text) :
      Of s (e.snippet name)

/-- Events are in place in their source, and errors name it. -/
theorem Source.inPlace_of_mem_events {s : Source} {v : Event} (h : v ∈ s.events) :
    v.InPlace s.text ∧ ∀ e ∈ v.error?, e.source = s := by
  obtain rfl | ⟨pre, r, post, ht, -, rfl⟩ := Source.exists_reading h
  · have hp := Position.in_after_start s.text []
    rw [List.append_nil] at hp
    exact ⟨⟨hp, hp⟩, by simp [Event.error?]⟩
  · refine ⟨Reading.inPlace_event ht, fun e he => ?_⟩
    cases r with
    | lexeme kind w => cases he
    | fault cause b w a => cases he; rfl

namespace Cursor

theorem advance_eq (c : Cursor) :
    c.advance.2.source = c.source ∧ c.advance.2.tokens = c.tokens := by
  unfold advance
  split <;> exact ⟨rfl, rfl⟩

/-- A source is given a cursor over its own tokens. -/
theorem ofSource_eq_ok {s : Source} {c : Cursor} (h : ofSource s = .ok c) :
    c.source = s ∧ c.tokens = Token.visible s.survey.tokens := by
  have hf : s.tokens false = (s.tokens true).map Token.visible := Scan.tokens_false (.start s)
  unfold ofSource at h
  rw [hf] at h
  cases ht : s.tokens true with
  | error e => rw [ht] at h; cases h
  | ok ts =>
    obtain ⟨-, rfl⟩ := Source.tokens_eq_ok_iff.1 ht
    rw [ht] at h
    change ofTokens s (Token.visible s.survey.tokens) = .ok c at h
    rw [ofTokens_visible, ofTokens, ofTokens?] at h
    split at h
    · next d hd =>
      split at hd
      · cases hd
        cases h
        exact ⟨rfl, rfl⟩
      · cases hd
    · cases h

/-- A cursor that reads a source stays over its tokens. -/
theorem Reads.tokens_eq {s : Source} {c : Cursor} (h : c.Reads s) :
    c.source = s ∧ c.tokens = Token.visible s.survey.tokens := by
  induction h with
  | start h => exact ofSource_eq_ok h
  | @advance c h ih => rwa [c.advance_eq.1, c.advance_eq.2]
  | @expect c d kind message t h hd ih =>
    unfold Cursor.expect at hd
    split at hd
    · have had : c.advance.2 = d := congrArg Prod.snd (Except.ok.inj hd)
      rwa [← had, c.advance_eq.1, c.advance_eq.2]
    · split at hd <;> cases hd

/-- The tokens under a cursor that reads a source are events of the source. -/
theorem Reads.mem_events {s : Source} {c : Cursor} (h : c.Reads s) :
    c.source = s ∧ ∀ t ∈ c.tokens, .token t ∈ s.events := by
  obtain ⟨hs, hts⟩ := h.tokens_eq
  refine ⟨hs, fun t ht => ?_⟩
  rw [hts, s.survey_tokens_eq] at ht
  obtain ⟨v, hv, he⟩ := List.mem_filterMap.1 (List.mem_of_mem_filter ht)
  exact Event.eq_token he ▸ hv

end Cursor

/-- A token that is not expected is complained about. -/
theorem Cursor.eq_complaint {c : Cursor} {kind : TokenKind} {message : Text} {e : ParseError}
    (h : c.expect kind message = .error (.unexpected e)) : e = c.complaint message := by
  unfold Cursor.expect at h
  split at h
  · cases h
  · split at h <;> cases h
    rfl

/-- The snippet of an error shows the source of the error, at a place in
it. -/
theorem Snippet.Of.exists_place {s : Source} {d : Snippet} (h : d.Of s) :
    d.source = s.text ∧
      ∃ p : Position, p.In s.text ∧ p.line = d.line ∧ p.column = d.column := by
  cases h with
  | @lexical cs e h name =>
    obtain ⟨hp, hs⟩ := Source.inPlace_of_mem_events (Scan.mem_events_of_mem_run h)
    exact ⟨congrArg Source.text (hs e rfl), e.position, hp, rfl, rfl⟩
  | @unexpected c kind message e hc h name =>
    obtain ⟨hs, ht⟩ := hc.mem_events
    obtain ⟨hp, -⟩ := Source.inPlace_of_mem_events (ht c.current (List.get_mem _ _))
    obtain rfl := Cursor.eq_complaint h
    exact ⟨congrArg Source.text hs, c.current.span.start, hp.1, rfl, rfl⟩

theorem Snippet.Of.exists_in {s : Source} {d : Snippet} (h : d.Of s) :
    d.source = s.text ∧ ∃ p : Position, p.In s.text ∧ p.line = d.line := by
  obtain ⟨hs, p, hp, hl, -⟩ := h.exists_place
  exact ⟨hs, p, hp, hl⟩

/-- **An error is shown with its line unless the page breaks before the end
of that line.** The line an error names is one that the language counts. If
the page breaks no line above it, then the snippet of the error shows that
line, without the carriage returns at its end, exactly if nothing breaks the
page before its end. If the page breaks a line above, then the snippet shows
a line of the page that stands above the one named. -/
theorem shownLine_eq_iff {s : Source} {d : Snippet} (h : d.Of s) :
    let above := (s.text.splitOn '\n').take (d.line - 1).toNat
    ∃ l, (s.text.splitOn '\n')[(d.line - 1).toNat]? = some l ∧
      ((∀ m ∈ above, Text.Unbroken m) →
        (d.shownLine = Text.dropTrailing '\r' l ↔
          ∀ c ∈ (Text.dropTrailing '\r' l).dropLast, Text.isLineBreak c = false)) ∧
      ((∃ m ∈ above, ¬ Text.Unbroken m) →
        ∃ page ∈ Text.lines (above.flatMap Text.line), d.shownLine = Text.unended page) := by
  obtain ⟨hs, p, hp, hl⟩ := h.exists_in
  unfold Snippet.shownLine
  rw [hs, ← hl]
  exact Snippet.lineOf_iff hp

/-- Below a line that ends in `CR LF`, a line that more carriage returns end
is shown without them. -/
theorem shownLine_eq_iff_returns :
    let s : Source := ⟨[], "x\r\n@ y\r\r\n".toList⟩
    let e : LexError := ⟨.unexpectedCharacter, "unexpected character".toList, ⟨2, 1, 3⟩, s, ['@']⟩
    .error e ∈ ((Scan.start s).run [.next, .next, .next]).1 ∧
      (e.snippet s.name).shownLine = "@ y".toList := by
  intro s e
  have he : .error e ∈ ((Scan.start s).run [.next, .next, .next]).1 := by decide +kernel
  refine ⟨he, ?_⟩
  obtain ⟨l, hl, hshown, -⟩ := shownLine_eq_iff (Snippet.Of.lexical he s.name)
  have hline : "@ y\r\r".toList = l := Option.some.inj (Eq.trans (by decide +kernel) hl)
  have habove : (s.text.splitOn '\n').take 1 = [['x'] ++ ['\r']] := by decide +kernel
  subst hline
  have hfree : (Text.dropTrailing '\r' "@ y\r\r".toList).dropLast.any Text.isLineBreak = false := by
    decide +kernel
  refine (hshown fun m hm => ?_).2 fun c hc => by simpa using List.any_eq_false.1 hfree c hc
  change m ∈ (s.text.splitOn '\n').take 1 at hm
  rw [habove, List.mem_singleton] at hm
  exact ⟨['x'], List.forall_mem_singleton.2 rfl, .inr hm⟩

/-- **After a form feed an error is shown with another line.** The comment of
this source holds one, and the error on the second line is shown with what
follows it in the comment. -/
theorem shownLine_formFeed :
    let s : Source := ⟨"input.asl".toList, "// a\x0cb\n@".toList⟩
    s.text.splitOn '\n' = ["// a\x0cb".toList, "@".toList] ∧
      s.survey.errors.map LexError.format
        = ["error: unexpected character\n  --> input.asl:2:1\n  |\n2 | b\n  | ^".toList] := by
  constructor <;> decide +kernel

end Asl
