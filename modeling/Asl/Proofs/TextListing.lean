import Asl.Listing
import Asl.Proofs.Numerals
import Mathlib.Data.List.Forall2

/-!
# The text listing tells its tokens apart

A line of the text listing shows the text of a token between quotes, and the
text may hold quotes itself, or commas and brackets, or all of another line. It
is not escaped against any of them. The line can be taken apart all the same,
because the text is the only field that is free: in front of it stand numbers,
which hold none of the marks that end them, and so their ends are the first of
these marks in the line; behind it stand the kind, the channel and numbers, and
their beginnings are the last. What is left between the two is the text.

A line feed is nowhere in a line, since it is escaped in the one field that
could hold it, so that the lines of a listing are as easily told apart.
-/

namespace Asl

/-! ## Marks -/

namespace Text

variable {c : Char} {a b x y : Text}

/-- A text is cut at the first of some mark in one way. -/
theorem append_cons_inj_first (ha : c ∉ a) (hb : c ∉ b) :
    a ++ c :: x = b ++ c :: y ↔ a = b ∧ x = y := by
  refine ⟨fun h => ?_, fun ⟨hab, hxy⟩ => by rw [hab, hxy]⟩
  induction a generalizing b with
  | nil =>
    cases b with
    | nil => exact ⟨rfl, (List.cons.inj h).2⟩
    | cons d b => exact absurd (List.mem_cons.2 (.inl (List.cons.inj h).1)) hb
  | cons d a ih =>
    rw [List.mem_cons, not_or] at ha
    cases b with
    | nil => exact absurd (List.cons.inj h).1.symm ha.1
    | cons e b =>
      obtain ⟨hde, htail⟩ := List.cons.inj h
      obtain ⟨hab, hxy⟩ := ih ha.2 (fun hm => hb (List.mem_cons_of_mem e hm)) htail
      exact ⟨by rw [hde, hab], hxy⟩

/-- And at the last of it. -/
theorem append_cons_inj_last (hx : c ∉ x) (hy : c ∉ y) :
    a ++ c :: x = b ++ c :: y ↔ a = b ∧ x = y := by
  rw [← List.reverse_inj, List.reverse_append, List.reverse_append, List.reverse_cons,
    List.reverse_cons, List.append_assoc, List.append_assoc, List.singleton_append,
    List.singleton_append,
    append_cons_inj_first (mt List.mem_reverse.1 hx) (mt List.mem_reverse.1 hy),
    List.reverse_inj, List.reverse_inj, and_comm]

/-- Numbers hold no marks. -/
theorem not_mem_ofInt (hd : Lexicon.isDigit c = false) (hc : c ≠ '-') (n : Int) : c ∉ ofInt n := by
  intro h
  rcases isDigit_of_mem_ofInt h with h | h
  · exact hc h
  · rw [hd] at h
    cases h

/-- **No line feed is left** where layout is escaped. -/
theorem lineFeed_not_mem_escapeLayout (t : Text) : '\n' ∉ escapeLayout t := by
  intro h
  obtain ⟨c, -, hc⟩ := List.mem_flatMap.1 h
  unfold layoutEscape? at hc
  split_ifs at hc with hn
  · exact absurd hc (by decide : '\n' ∉ ['\\', 'n'])
  · exact absurd hc (by decide : '\n' ∉ ['\\', 'r'])
  · exact absurd hc (by decide : '\n' ∉ ['\\', 't'])
  · exact hn (List.mem_singleton.1 hc).symm

end Text

namespace TokenKind

theorem ofName?_name (k : TokenKind) : ofName? k.name = some k := by cases k <;> rfl

theorem name_injective : Function.Injective name := by
  intro k l h
  rw [← Option.some.injEq, ← ofName?_name, ← ofName?_name, h]

/-- The name of a kind is a word. -/
theorem not_mem_name {c : Char} (h : Lexicon.isLetter c = false) (k : TokenKind) : c ∉ k.name := by
  have hall : k.name.all Lexicon.isLetter = true := by cases k <;> rfl
  intro hc
  rw [List.all_eq_true.1 hall c hc] at h
  cases h

end TokenKind

namespace Listing

/-! ## A line -/

/-- What a line says of the channel of a token. -/
def channelMark (t : Token) : Text :=
  if t.isHidden then ",channel=".toList ++ Text.ofNat t.channel.number else []

/-- The line with its numbers at either end and its text in the middle. -/
theorem textLine_eq (index : Int) (t : Token) :
    textLine index t
      = ("[@".toList ++ Text.ofInt index ++ [','])
        ++ (Text.ofInt t.span.start.offset ++ ':' ::
            (Text.ofInt (t.span.stop.offset - 1) ++ '=' :: '\'' ::
              (((((shownText t ++ ['\'', ',']) ++ '<' :: t.kind.name) ++ '>' :: channelMark t)
                  ++ ',' :: Text.ofInt t.span.start.line)
                ++ ':' :: (Text.ofInt (t.span.start.column - 1) ++ [']'])))) := by
  unfold textLine channelMark
  rw [show "='".toList = ['=', '\''] from rfl, show "',<".toList = ['\'', ',', '<'] from rfl]
  simp only [List.append_assoc, List.cons_append, List.nil_append]

theorem channelMark_inj {t u : Token} : channelMark t = channelMark u ↔ t.channel = u.channel := by
  unfold channelMark Token.isHidden
  cases t.channel <;> cases u.channel <;> decide

theorem not_mem_channelMark (t : Token) : '>' ∉ channelMark t := by
  unfold channelMark Token.isHidden
  cases t.channel <;> decide

/-- **Tokens of which a text listing says the same.** They can differ in no more
than what a listing does not show: whether layout or its escape stands in the
lexeme, the value, the line and column of the end, and the text of an end
token. -/
structure Alike (t u : Token) : Prop where
  kind_eq : t.kind = u.kind
  channel_eq : t.channel = u.channel
  start_offset_eq : t.span.start.offset = u.span.start.offset
  stop_offset_eq : t.span.stop.offset = u.span.stop.offset
  line_eq : t.span.start.line = u.span.start.line
  column_eq : t.span.start.column = u.span.start.column
  lexeme_eq : t.kind ≠ .eof → Text.escapeLayout t.lexeme = Text.escapeLayout u.lexeme

/-- Tokens of one kind show the same text if the text is shown. -/
theorem shownText_inj {t u : Token} (h : t.kind = u.kind) :
    shownText t = shownText u ↔
      (t.kind ≠ .eof → Text.escapeLayout t.lexeme = Text.escapeLayout u.lexeme) := by
  unfold shownText
  rw [← h]
  by_cases hk : t.kind = .eof
  · rw [if_pos hk, if_pos hk]
    exact iff_of_true rfl fun hn => absurd hk hn
  · rw [if_neg hk, if_neg hk]
    exact ⟨fun h _ => h, fun h => h hk⟩

/-- **A line is that of one token**, up to what it does not say. -/
theorem textLine_inj (index : Int) (t u : Token) :
    textLine index t = textLine index u ↔ Alike t u := by
  have hcolon : ∀ n, ':' ∉ Text.ofInt n := Text.not_mem_ofInt rfl (by decide)
  have hequals : ∀ n, '=' ∉ Text.ofInt n := Text.not_mem_ofInt rfl (by decide)
  have hcomma : ∀ n, ',' ∉ Text.ofInt n := Text.not_mem_ofInt rfl (by decide)
  have hcolumn : ∀ n : Int, ':' ∉ Text.ofInt n ++ [']'] := by
    intro n h
    rcases List.mem_append.1 h with h | h
    · exact hcolon n h
    · revert h
      decide
  have hname : ∀ k : TokenKind, '<' ∉ k.name := TokenKind.not_mem_name rfl
  -- from the front up to the text, then from the back down to it
  rw [textLine_eq, textLine_eq, List.append_cancel_left_eq,
    Text.append_cons_inj_first (hcolon _) (hcolon _),
    Text.append_cons_inj_first (hequals _) (hequals _),
    List.cons_inj_right,
    Text.append_cons_inj_last (hcolumn _) (hcolumn _),
    Text.append_cons_inj_last (hcomma _) (hcomma _),
    Text.append_cons_inj_last (not_mem_channelMark t) (not_mem_channelMark u),
    Text.append_cons_inj_last (hname _) (hname _), List.append_cancel_right_eq,
    List.append_cancel_right_eq, channelMark_inj, TokenKind.name_injective.eq_iff,
    Text.ofInt_injective.eq_iff, Text.ofInt_injective.eq_iff, Text.ofInt_injective.eq_iff,
    Text.ofInt_injective.eq_iff]
  constructor
  · rintro ⟨hstart, hstop, ⟨⟨⟨hshown, hkind⟩, hchannel⟩, hline⟩, hcolumn⟩
    exact ⟨hkind, hchannel, hstart, by omega, hline, by omega, (shownText_inj hkind).1 hshown⟩
  · rintro ⟨hkind, hchannel, hstart, hstop, hline, hcolumn, hlexeme⟩
    exact ⟨hstart, by omega, ⟨⟨⟨(shownText_inj hkind).2 hlexeme, hkind⟩, hchannel⟩, hline⟩,
      by omega⟩

/-- A token is one line, whatever it holds. -/
theorem lineFeed_not_mem_textLine (index : Int) (t : Token) : '\n' ∉ textLine index t := by
  have hnum : ∀ n, '\n' ∉ Text.ofInt n := Text.not_mem_ofInt rfl (by decide)
  have hname : '\n' ∉ t.kind.name := TokenKind.not_mem_name rfl t.kind
  have hshown : '\n' ∉ shownText t := Text.lineFeed_not_mem_escapeLayout _
  have hchannel : '\n' ∉ channelMark t := by
    unfold channelMark Token.isHidden
    cases t.channel <;> decide
  rw [textLine_eq]
  simp [hnum, hname, hshown, hchannel]

/-! ## A listing -/

/-- Two listings that begin with one number are the same if their tokens are
alike, one by one. -/
theorem textFrom_inj (index : Nat) (ts us : List Token) :
    textFrom index ts = textFrom index us ↔ List.Forall₂ Alike ts us := by
  induction ts generalizing index us with
  | nil =>
    cases us with
    | nil => exact iff_of_true rfl .nil
    | cons u us =>
      refine iff_of_false (fun h => ?_) fun h => by cases h
      cases List.append_eq_nil_iff.1 (List.append_eq_nil_iff.1 h.symm).1 |>.2
  | cons t ts ih =>
    cases us with
    | nil =>
      refine iff_of_false (fun h => ?_) fun h => by cases h
      cases List.append_eq_nil_iff.1 (List.append_eq_nil_iff.1 h).1 |>.2
    | cons u us =>
      rw [textFrom, textFrom, Text.line, Text.line, List.append_assoc, List.append_assoc,
        List.singleton_append, List.singleton_append,
        Text.append_cons_inj_first (lineFeed_not_mem_textLine _ t) (lineFeed_not_mem_textLine _ u),
        textLine_inj, ih, List.forall₂_cons]

/-- The lines of a listing, and nothing after the last of them. -/
theorem splitOn_textFrom (index : Nat) (ts : List Token) :
    (textFrom index ts).splitOn '\n'
      = (ts.zipIdx index).map (fun x => textLine x.2 x.1) ++ [[]] := by
  induction ts generalizing index with
  | nil => rfl
  | cons t ts ih =>
    rw [textFrom, Text.line, List.append_assoc, List.singleton_append,
      List.splitOn_append_cons_self_of_not_mem (lineFeed_not_mem_textLine _ t), ih]
    rfl

theorem count_textFrom (index : Nat) (ts : List Token) :
    (textFrom index ts).count '\n' = ts.length := by
  induction ts generalizing index with
  | nil => rfl
  | cons t ts ih =>
    rw [textFrom, Text.line, List.count_append, List.count_append,
      List.count_eq_zero_of_not_mem (lineFeed_not_mem_textLine _ t), ih, List.length_cons]
    show 0 + 1 + _ = _
    omega

/-- **No text of a token changes what a listing says of others, or of the
token.** Two listings are the same if and only if they have the same number of
tokens and these agree, one by one, in kind, channel, offsets, line and column,
and, where they are no end tokens, in their texts with layout escaped. A
listing has one line for each token, which a line feed ends and no other line
feed divides. -/
theorem textListing_inj (ts us : List Token) :
    (render .text ts = render .text us ↔ List.Forall₂ Alike ts us) ∧
    (render .text ts).count '\n' = ts.length ∧
    (render .text ts).splitOn '\n' = ts.zipIdx.map (fun x => textLine x.2 x.1) ++ [[]] :=
  ⟨textFrom_inj 0 ts us, count_textFrom 0 ts, splitOn_textFrom 0 ts⟩

end Listing

end Asl
