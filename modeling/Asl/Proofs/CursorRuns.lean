import Asl.Proofs.ShownLines

/-!
# What a parser is given through a cursor

A parser asks a cursor in whatever order it likes: it looks ahead or behind,
asks for kinds, takes a token, or expects one. This module says what it is
given, for every list of tokens that ends with the end token – also one that
was made by hand, where an end token may stand in the middle as well – and
for requests of any number and order.

Looking leaves the cursor where it is. Tokens are only ever taken from under
it, and it does not go past an end token, so the tokens taken are the first of
the list up to its first end token, and then that end token again and again
(`Cursor.Walked`). The cursor is therefore found by counting what was taken.
One request keeps this (`Cursor.Walked.obey`), so any number of them do
(`Cursor.Walked.run`), and how the cursor answers the next request is read off
the list (`Cursor.Answers`).

A token that is not the one expected is complained about at its span, and the
complaint is shown with a row of blanks and carets. Spans that were made by
hand can ask for a row that cannot be had. Then there is no complaint, and
what comes out instead is the failure to make the row; this happens exactly if
the blanks or the carets are out of range (`ParseError.Showable`). The tokens
of a source do not lead there (`Cursor.Reads.showable`).
-/

namespace Asl

/-! ## Complaints that can be shown -/

theorem Extent.checkRun_eq_ok_iff {n : Int} :
    checkRun n = .ok () ↔ -0x8000000000000000 ≤ n ∧ n ≤ longestRun := by
  unfold checkRun fitsWord longestRun
  split
  · next h =>
    rw [Bool.and_eq_true, decide_eq_true_eq, decide_eq_true_eq] at h
    split
    · next hl => exact iff_of_true rfl ⟨h.1, hl⟩
    · next hl => exact iff_of_false (by simp) fun hn => hl hn.2
  · next h =>
    rw [Bool.and_eq_true, decide_eq_true_eq, decide_eq_true_eq] at h
    refine iff_of_false (by simp) fun hn => h ⟨hn.1, ?_⟩
    omega

namespace Snippet

variable {d : Snippet}

/-- The caret row can be had exactly if its blanks and its carets can. -/
theorem check_eq_ok_iff :
    d.check = .ok () ↔
      (-0x8000000000000000 ≤ d.column - 1 ∧ d.column - 1 ≤ Extent.longestRun) ∧
        d.caretCount ≤ Extent.longestRun := by
  have hcount : Extent.checkRun d.caretCount = .ok () ↔ d.caretCount ≤ Extent.longestRun := by
    have hpos : 1 ≤ d.caretCount := Int.le_max_left _ _
    rw [Extent.checkRun_eq_ok_iff]
    omega
  rw [← Extent.checkRun_eq_ok_iff, ← hcount, check]
  cases Extent.checkRun (d.column - 1) with
  | ok u => exact (and_iff_right rfl).symm
  | error e => exact iff_of_false (by rintro ⟨⟩) (by rintro ⟨⟨⟩, -⟩)

/-- A line that is shown is not longer than the text it is from. -/
theorem length_lineOf_le (t : Text) (n : Int) : (lineOf t n).length ≤ t.length := by
  have hdrop : ∀ (c : Char) (u : Text), (Text.dropTrailing c u).length ≤ u.length := by
    intro c u
    unfold Text.dropTrailing
    rw [List.length_reverse]
    exact Nat.le_trans (List.dropWhile_suffix _).length_le (Nat.le_of_eq List.length_reverse)
  have hline : ((Text.lines t).getD (n - 1).toNat []).length ≤ t.length := by
    rw [List.getD_eq_getElem?_getD]
    cases hl : (Text.lines t)[(n - 1).toNat]? with
    | none => exact Nat.zero_le _
    | some l =>
      have hsub := List.sublist_flatten_of_mem (List.mem_of_getElem? hl)
      rw [Text.flatten_lines] at hsub
      exact hsub.length_le
  unfold lineOf
  split
  · exact Nat.zero_le _
  · exact Nat.le_trans (hdrop _ _) (Nat.le_trans (hdrop _ _) hline)

end Snippet

/-- **A complaint that can be shown**: its blanks and its carets are in
range. -/
def ParseError.Showable (e : ParseError) : Prop :=
  (-0x8000000000000000 ≤ e.span.start.column - 1 ∧
      e.span.start.column - 1 ≤ Extent.longestRun) ∧
    (e.snippet e.source.name).caretCount ≤ Extent.longestRun

theorem ParseError.check_eq_ok_iff {e : ParseError} : e.check = .ok () ↔ e.Showable :=
  Snippet.check_eq_ok_iff

/-- In the memory there is, a column of a line has a row. -/
theorem ParseError.showable_of_column {e : ParseError} (hc : 1 ≤ e.span.start.column)
    (hl : e.span.start.column ≤ Extent.longestRun)
    (hs : e.source.text.length ≤ Extent.longestRun) : e.Showable := by
  have hlen := Snippet.length_lineOf_le e.source.text e.span.start.line
  refine ⟨⟨by omega, by omega⟩, ?_⟩
  show max 1 (min e.width ((Snippet.lineOf e.source.text e.span.start.line).length
    - e.span.start.column + 1)) ≤ _
  unfold Extent.longestRun at *
  omega

/-! ## Requests and replies -/

/-- The number of tokens before the first end token. -/
def Token.beforeEnd (ts : List Token) : Nat := ts.findIdx fun t => t.kind = .eof

namespace Cursor

/-- What is asked of a cursor. -/
inductive Request where
  /-- The token a number of places ahead. -/
  | peek (offset : Int)
  /-- Whether the token under it is of one of some kinds. -/
  | isAt (kinds : List TokenKind)
  /-- Whether it is an end token. -/
  | atEof
  /-- To take it. -/
  | advance
  /-- To take it if it is of a kind, and to complain otherwise. -/
  | expect (kind : TokenKind) (message : Text)
deriving DecidableEq, Repr

/-- What a cursor replies. -/
inductive Reply where
  /-- A token to look at. -/
  | seen (t : Token)
  /-- There is no token to look at. -/
  | unseen (e : PeekError)
  /-- Yes or no. -/
  | told (b : Bool)
  /-- A token that is taken. -/
  | taken (t : Token)
  /-- No token is taken. -/
  | refused (e : ExpectError)
deriving DecidableEq, Repr

/-- The token a reply hands over, if it is taken. -/
def Reply.taken? : Reply → Option Token
  | taken t => some t
  | _ => none

/-- The reply to a request, and the cursor after it. -/
def obey (c : Cursor) : Request → Reply × Cursor
  | .peek offset =>
    match c.peek offset with
    | .ok t => (.seen t, c)
    | .error e => (.unseen e, c)
  | .isAt kinds => (.told (c.isAt kinds), c)
  | .atEof => (.told c.atEof, c)
  | .advance => (.taken c.advance.1, c.advance.2)
  | .expect kind message =>
    match c.expect kind message with
    | .ok (t, d) => (.taken t, d)
    | .error e => (.refused e, c)

theorem obey_peek (c : Cursor) (offset : Int) :
    c.obey (.peek offset) = match c.peek offset with
      | .ok t => (.seen t, c)
      | .error e => (.unseen e, c) :=
  rfl

/-- What is said of a token that is not the one expected: the complaint, or
why it cannot be shown. -/
def refusal (c : Cursor) (message : Text) : ExpectError :=
  match (c.complaint message).check with
  | .ok _ => .unexpected (c.complaint message)
  | .error e => .unshowable e

theorem obey_expect (c : Cursor) (kind : TokenKind) (message : Text) :
    c.obey (.expect kind message) =
      if c.current.kind = kind then c.obey .advance else (.refused (c.refusal message), c) := by
  have he : c.expect kind message =
      if c.current.kind = kind then .ok c.advance else .error (c.refusal message) := by
    unfold expect refusal
    cases (c.complaint message).check <;> rfl
  by_cases hk : c.current.kind = kind
  · simp only [obey, he, if_pos hk]
  · simp only [obey, he, if_neg hk]

/-- The replies to requests made one after the other, and the cursor after
the last of them. -/
def run (c : Cursor) : List Request → List Reply × Cursor
  | [] => ([], c)
  | q :: qs => ((c.obey q).1 :: ((c.obey q).2.run qs).1, ((c.obey q).2.run qs).2)

/-! ## What is taken -/

section Taken

variable {c : Cursor}

theorem getElem?_index (c : Cursor) : c.tokens[c.index]? = some c.current :=
  List.getElem?_eq_getElem c.inside

/-- There is an end token to stop at. -/
theorem beforeEnd_lt (c : Cursor) : Token.beforeEnd c.tokens < c.tokens.length := by
  refine List.findIdx_lt_length_of_exists ?_
  obtain ⟨t, ht, hk⟩ := Option.map_eq_some_iff.1 c.ends
  exact ⟨t, List.mem_of_getLast? ht, decide_eq_true hk⟩

/-- A cursor that has not passed the first end token is on an end token
exactly if it has come to that one. -/
theorem current_kind_eq_eof_iff (h : c.index ≤ Token.beforeEnd c.tokens) :
    c.current.kind = .eof ↔ c.index = Token.beforeEnd c.tokens := by
  constructor
  · intro hk
    refine Nat.le_antisymm h (Nat.not_lt.1 fun hlt => ?_)
    exact of_decide_eq_false (List.not_of_lt_findIdx hlt) hk
  · intro hi
    have hlt := c.beforeEnd_lt
    have hend : (c.tokens[Token.beforeEnd c.tokens]).kind = .eof :=
      of_decide_eq_true (List.findIdx_getElem (w := hlt))
    have hcur := c.getElem?_index
    rw [hi, List.getElem?_eq_getElem hlt] at hcur
    exact Option.some.inj hcur ▸ hend

theorem advance_fst (c : Cursor) : c.advance.1 = c.current := by
  unfold advance
  split <;> rfl

/-- A cursor that has not passed the first end token is taken on by one, and
not past it. -/
theorem index_advance (h : c.index ≤ Token.beforeEnd c.tokens) :
    c.advance.2.index = min (c.index + 1) (Token.beforeEnd c.tokens) := by
  have hk := current_kind_eq_eof_iff h
  unfold advance
  split
  · next he =>
    rw [← hk.1 he]
    exact (Nat.min_eq_right (Nat.le_succ _)).symm
  · next he =>
    have hlt : c.index < Token.beforeEnd c.tokens := Nat.lt_of_le_of_ne h fun hi => he (hk.2 hi)
    exact (Nat.min_eq_left hlt).symm

end Taken

/-- **A cursor after some tokens were taken.** The tokens taken are the first
of the list, up to its first end token, and from there on that end token; and
the cursor stands after as many tokens as were taken, or on that end token. -/
structure Walked (s : Source) (ts taken : List Token) (c : Cursor) : Prop where
  source_eq : c.source = s
  tokens_eq : c.tokens = ts
  index_eq : c.index = min taken.length (Token.beforeEnd ts)
  taken_eq : ∀ i < taken.length, taken[i]? = ts[min i (Token.beforeEnd ts)]?

namespace Walked

variable {s : Source} {ts taken : List Token} {c : Cursor}

theorem index_le (h : c.Walked s ts taken) : c.index ≤ Token.beforeEnd c.tokens := by
  rw [h.tokens_eq, h.index_eq]
  exact Nat.min_le_right _ _

/-- Taking a token. -/
theorem advance (h : c.Walked s ts taken) :
    c.advance.2.Walked s ts (taken ++ [c.advance.1]) := by
  refine ⟨c.advance_eq.1.trans h.source_eq, c.advance_eq.2.trans h.tokens_eq, ?_, fun i hi => ?_⟩
  · rw [index_advance h.index_le, h.tokens_eq, h.index_eq, List.length_append,
      List.length_singleton]
    omega
  · rw [List.length_append, List.length_singleton] at hi
    rcases Nat.lt_or_eq_of_le (Nat.le_of_lt_succ hi) with hlt | rfl
    · rw [List.getElem?_append_left hlt]
      exact h.taken_eq i hlt
    · rw [List.getElem?_concat_length, ← h.index_eq, ← h.tokens_eq, c.getElem?_index,
        c.advance_fst]

/-- **One request.** -/
theorem obey (h : c.Walked s ts taken) (q : Request) :
    (c.obey q).2.Walked s ts (taken ++ (c.obey q).1.taken?.toList) := by
  have hsame : c.Walked s ts (taken ++ []) := (List.append_nil taken).symm ▸ h
  cases q with
  | peek offset =>
    rw [obey_peek]
    split <;> exact hsame
  | isAt kinds => exact hsame
  | atEof => exact hsame
  | advance => exact h.advance
  | expect kind message =>
    rw [obey_expect]
    split
    · exact h.advance
    · exact hsame

/-- **Any number of requests.** -/
theorem run (h : c.Walked s ts taken) (qs : List Request) :
    (c.run qs).2.Walked s ts (taken ++ (c.run qs).1.filterMap Reply.taken?) := by
  induction qs generalizing c taken with
  | nil => exact (List.append_nil taken).symm ▸ h
  | cons q qs ih =>
    have hrun := ih (h.obey q)
    rw [List.append_assoc] at hrun
    rw [Cursor.run, List.filterMap_cons]
    cases ht : (c.obey q).1.taken? with
    | none =>
      rw [ht] at hrun
      exact hrun
    | some t =>
      rw [ht] at hrun
      exact hrun

end Walked

/-! ## What is looked at -/

section Looking

variable {c : Cursor}

theorem peek_of_at? {k : Int} {u : Token} (h : c.at? (c.index + k) = some u) :
    c.peek k = .ok u := by
  rw [peek, h]

/-- Looking ahead does not go past the last token. -/
theorem peek_ahead (c : Cursor) (k : Nat) :
    ∃ u, c.tokens[min (c.index + k) (c.tokens.length - 1)]? = some u ∧ c.peek k = .ok u := by
  have hi := c.inside
  have hlt : min (c.index + k) (c.tokens.length - 1) < c.tokens.length := by omega
  refine ⟨_, List.getElem?_eq_getElem hlt, peek_of_at? ?_⟩
  rw [← List.getElem?_eq_getElem hlt, at?, size]
  split
  · next h =>
    rw [if_pos (by omega), Nat.min_eq_left (by omega)]
    congr 1
  · next h => rw [List.getLast?_eq_getElem?, Nat.min_eq_right (by omega)]

/-- Looking behind the first token goes on from the last. -/
theorem peek_behind {k : Int} (hk : k < 0) (h : -(c.tokens.length : Int) ≤ c.index + k) :
    ∃ u, c.tokens[((c.index + k) % c.tokens.length).toNat]? = some u ∧ c.peek k = .ok u := by
  have hi := c.inside
  have hlt : ((c.index + k) % c.tokens.length).toNat < c.tokens.length := by
    have := Int.emod_lt_of_pos (c.index + k) (b := c.tokens.length) (by omega)
    omega
  refine ⟨_, List.getElem?_eq_getElem hlt, peek_of_at? ?_⟩
  rw [← List.getElem?_eq_getElem hlt, at?, size, if_pos (by omega)]
  split
  · next h0 => rw [Int.emod_eq_of_lt h0 (by omega)]
  · next h0 =>
    rw [if_pos (by omega), ← Int.add_emod_right, Int.emod_eq_of_lt (by omega) (by omega)]

/-- Looking behind that too fails. -/
theorem peek_out {k : Int} (h : c.index + k < -(c.tokens.length : Int)) :
    ∃ e, c.peek k = .error e := by
  have hat : c.at? (c.index + k) = none := by
    rw [at?, size, if_pos (by omega), if_neg (by omega), if_neg (by omega)]
  by_cases hw : Extent.fitsWord (c.index + k) = true
  · exact ⟨.outOfRange, by simp only [peek, hat, if_pos hw]⟩
  · exact ⟨.unwieldy, by simp only [peek, hat, if_neg hw]⟩

end Looking

/-! ## What is refused -/

section Refusing

variable {c : Cursor} {message : Text}

theorem refusal_of_showable (h : (c.complaint message).Showable) :
    c.refusal message = .unexpected (c.complaint message) := by
  rw [refusal, ParseError.check_eq_ok_iff.2 h]

theorem exists_refusal (h : ¬ (c.complaint message).Showable) :
    ∃ e, c.refusal message = .unshowable e := by
  cases hc : (c.complaint message).check with
  | ok u => exact absurd (ParseError.check_eq_ok_iff.1 hc) h
  | error e => exact ⟨e, by rw [refusal, hc]⟩

end Refusing

/-! ## How a cursor replies -/

/-- **How a cursor on a token replies.** Only taking moves it. Looking ahead
stops at the last token of the list; looking back counts on from the end, once
round, and nothing else finds no token. A token that is not the one expected
is complained about at its span if that can be shown. -/
structure Answers (s : Source) (ts : List Token) (t : Token) (c : Cursor) : Prop where
  under : ts[c.index]? = some t
  ahead : ∀ k : Nat, ∃ u, ts[min (c.index + k) (ts.length - 1)]? = some u ∧
    c.obey (.peek k) = (.seen u, c)
  behind : ∀ k : Int, k < 0 → -(ts.length : Int) ≤ c.index + k →
    ∃ u, ts[((c.index + k) % ts.length).toNat]? = some u ∧ c.obey (.peek k) = (.seen u, c)
  out : ∀ k : Int, c.index + k < -(ts.length : Int) → ∃ e, c.obey (.peek k) = (.unseen e, c)
  isAt : ∀ kinds, c.obey (.isAt kinds) = (.told (decide (t.kind ∈ kinds)), c)
  atEof : c.obey .atEof = (.told (decide (t.kind = .eof)), c)
  advance : (c.obey .advance).1 = .taken t
  expected : ∀ message, c.obey (.expect t.kind message) = c.obey .advance
  unexpected : ∀ kind message, t.kind ≠ kind → (ParseError.mk message t.span s).Showable →
    c.obey (.expect kind message) = (.refused (.unexpected ⟨message, t.span, s⟩), c)
  unshowable : ∀ kind message, t.kind ≠ kind → ¬ (ParseError.mk message t.span s).Showable →
    ∃ e, c.obey (.expect kind message) = (.refused (.unshowable e), c)

/-- Every cursor replies so, as to its own source and tokens. -/
theorem answers (c : Cursor) : c.Answers c.source c.tokens c.current where
  under := c.getElem?_index
  ahead k := by
    obtain ⟨u, hu, hp⟩ := c.peek_ahead k
    exact ⟨u, hu, by rw [obey_peek, hp]⟩
  behind k hk hl := by
    obtain ⟨u, hu, hp⟩ := peek_behind hk hl
    exact ⟨u, hu, by rw [obey_peek, hp]⟩
  out k hk := by
    obtain ⟨e, hp⟩ := peek_out hk
    exact ⟨e, by rw [obey_peek, hp]⟩
  isAt kinds := by
    show (Reply.told (kinds.contains c.current.kind), c) = _
    rw [List.contains_eq_mem]
  atEof := rfl
  advance := congrArg Reply.taken c.advance_fst
  expected message := by rw [obey_expect, if_pos rfl]
  unexpected kind message hk hs := by
    rw [obey_expect, if_neg hk, refusal_of_showable hs]
    rfl
  unshowable kind message hk hs := by
    obtain ⟨e, he⟩ := exists_refusal hs
    exact ⟨e, by rw [obey_expect, if_neg hk, he]⟩

section OfTokens

variable {s : Source} {ts : List Token}

theorem ofTokens_eq_dite (s : Source) (ts : List Token) :
    ofTokens s ts =
      if h : (Token.visible ts).getLast?.map Token.kind = some .eof then
        .ok ⟨s, Token.visible ts, 0, h, length_pos_of_ends h⟩
      else .error .incomplete := by
  unfold ofTokens ofTokens?
  split_ifs <;> rfl

/-- The lists of tokens no cursor is had over. -/
theorem ofTokens_eq_error_iff {e : CursorError} :
    ofTokens s ts = .error e ↔ e = .incomplete ∧
      (Token.visible ts = [] ∨ ∃ t, (Token.visible ts).getLast? = some t ∧ t.kind ≠ .eof) := by
  have hends : (Token.visible ts = [] ∨
      ∃ t, (Token.visible ts).getLast? = some t ∧ t.kind ≠ .eof) ↔
        (Token.visible ts).getLast?.map Token.kind ≠ some .eof := by
    rw [← List.getLast?_eq_none_iff]
    cases (Token.visible ts).getLast? <;> simp
  rw [ofTokens_eq_dite, hends]
  split_ifs with h
  · exact iff_of_false (by rintro ⟨⟩) fun he => he.2 h
  · rw [Except.error.injEq, and_iff_left h]
    exact eq_comm

/-- A cursor starts before the first of the visible tokens. -/
theorem walked_ofTokens {c : Cursor} (h : ofTokens s ts = .ok c) :
    c.Walked s (Token.visible ts) [] := by
  rw [ofTokens_eq_dite] at h
  split_ifs at h with he
  cases h
  exact ⟨rfl, rfl, (Nat.zero_min _).symm, fun i hi => absurd hi (Nat.not_lt_zero i)⟩

end OfTokens

end Cursor

/-! ## The tokens of a source -/

/-- The column of a position in a text is not beyond its end. -/
theorem Position.In.column_le {text : Text} {p : Position} (h : p.In text) :
    1 ≤ p.column ∧ p.column ≤ text.length + 1 := by
  have hlen := (List.rtakeWhile_suffix (· ≠ '\n') (text.take p.offset.toNat)).length_le
  have htake := (List.take_sublist p.offset.toNat text).length_le
  rw [h.column_eq]
  omega

/-- **A cursor that reads a source can complain** about the token under it, in
the memory there is: only tokens from elsewhere have spans that cannot be
shown. -/
theorem Cursor.Reads.showable {s : Source} {c : Cursor} (h : c.Reads s)
    (hl : s.text.length < Extent.longestRun) (message : Text) :
    (c.complaint message).Showable := by
  obtain ⟨rfl, hts⟩ := h.mem_events
  have hin := (Source.inPlace_of_mem_events (hts c.current (List.get_mem _ _))).1.1
  obtain ⟨hpos, hle⟩ := hin.column_le
  exact ParseError.showable_of_column hpos (show c.current.span.start.column ≤ _ by omega)
    (show (c.source.text.length : Int) ≤ _ by omega)

end Asl
