import Asl.Proofs.EntryPoints
import Asl.Proofs.LineLocality
import Asl.Proofs.MaximalMunch

/-!
# Layout does not matter

Between two words of a source a writer may put any blank space, break the
line, and add comments. None of this changes what a parser reads: if the
visible tokens of a source are written out again with other layout between
them, the visible tokens of the new source are the same, except for where
they stand.

Two things have to be seen. A separator is not heard, whatever stands
before it and after it; this is a matter of its blocks, each of which can
be passed over by itself (`Scan.heard_block`) although a scan takes a run
of blank space at once. And a visible lexeme ends where a separator begins:
no visible lexeme goes on with blank space (`TokenKind.endsBefore_of_isSpace`).
A separator has to begin with blank space for that. With a comment in front
a division would become part of the comment, and its slash would be lost.
-/

namespace Asl

/-! ## Separators and words -/

/-- **A block of layout**: a blank character, or a comment and the line end
that closes it. -/
inductive LayoutBlock : Text → Prop where
  /-- A blank character. -/
  | blank {c : Char} (hc : Lexicon.isSpace c) : LayoutBlock [c]
  /-- A comment and its line end. -/
  | comment {w : Text} {e : Char} (hw : ∀ d ∈ w, Lexicon.isLineEnd d = false)
      (he : Lexicon.isLineEnd e) : LayoutBlock ('/' :: '/' :: w ++ [e])

/-- **A separator**: blocks of layout one after the other, the first of them
blank if there is one. -/
structure IsSeparator (t : Text) : Prop where
  blocks : ∃ bs : List Text, (∀ b ∈ bs, LayoutBlock b) ∧ t = bs.flatten
  begins : ∀ d ∈ t.head?, Lexicon.isSpace d

namespace Token

/-- What a token is, wherever it stands: its kind, its value and its
lexeme. -/
def content (t : Token) : TokenKind × Text × Text := (t.kind, t.value, t.lexeme)

/-- The visible tokens before the end token. -/
def words (ts : List Token) : List Token := (visible ts).filter fun t => t.kind ≠ .eof

end Token

/-! ## A separator is not heard -/

namespace Scan

variable (s : Source) (p : Position)

/-- Blank space is not heard, also where it goes on. -/
theorem heard_spaces {v : Text} (hv : ∀ d ∈ v, Lexicon.isSpace d = true) (u : Text) :
    heard s p (v ++ u) = heard s (p.after v) u := by
  obtain ⟨x, y, rfl, hx, hy⟩ := Text.exists_run Lexicon.isSpace u
  rw [heard_blank s (p.after v) hx hy, ← Position.after_append, ← List.append_assoc]
  exact heard_blank s p (List.forall_mem_append.2 ⟨hv, hx⟩) hy

/-- A comment before a line end is not heard. -/
theorem heard_comment {w u : Text} (hw : ∀ d ∈ w, Lexicon.isLineEnd d = false)
    (hu : ∀ d ∈ u.head?, Lexicon.isLineEnd d = true) :
    heard s p ('/' :: '/' :: w ++ u) = heard s (p.after ('/' :: '/' :: w)) u := by
  have hm : munch '/' ('/' :: w ++ u) = ⟨.lexeme .comment ('/' :: '/' :: w), u⟩ :=
    munch_of_lexes (.comment hw) hu rfl
  show heard s p ('/' :: ('/' :: w ++ u)) = _
  rw [heard_cons, hm]
  rfl

theorem heard_block {b : Text} (hb : LayoutBlock b) (u : Text) :
    heard s p (b ++ u) = heard s (p.after b) u := by
  cases hb with
  | blank hc => exact heard_spaces s p (List.forall_mem_singleton.2 hc) u
  | @comment w e hw he =>
    have hs : ∀ d ∈ [e], Lexicon.isSpace d = true := by
      refine List.forall_mem_singleton.2 ?_
      obtain rfl | rfl := Lexicon.isLineEnd_iff.1 he <;> rfl
    -- the line end closes the comment, and is blank space after it
    rw [List.append_assoc, heard_comment s p hw (by simpa using he), heard_spaces s _ hs,
      ← Position.after_append]

/-- **A separator is not heard.** -/
theorem heard_separator {t : Text} (ht : IsSeparator t) (u : Text) :
    heard s p (t ++ u) = heard s (p.after t) u := by
  obtain ⟨bs, hbs, rfl⟩ := ht.blocks
  clear ht
  induction bs generalizing p with
  | nil => rfl
  | cons b bs ih =>
    rw [List.forall_mem_cons] at hbs
    rw [List.flatten_cons, List.append_assoc, heard_block s p hbs.1, ih _ hbs.2,
      Position.after_append]

end Scan

/-! ## A visible lexeme ends before blank space -/

/-- Nothing visible goes on with blank space. -/
theorem TokenKind.endsBefore_of_isSpace {kind : TokenKind} (hk : kind.channel = .default)
    {d : Char} (hd : Lexicon.isSpace d = true) : kind.endsBefore d = true := by
  simp only [Lexicon.isSpace, Bool.or_eq_true, decide_eq_true_eq] at hd
  obtain ((rfl | rfl) | rfl) | rfl := hd <;>
  cases kind <;> first | rfl | exact Channel.noConfusion hk

/-- **A visible lexeme before a separator, or at the end, is heard as it
is.** -/
theorem Scan.heard_word (s : Source) (p : Position) {kind : TokenKind} {value w u : Text}
    (h : Lexes kind value w) (hk : kind.channel = .default)
    (hu : ∀ d ∈ u.head?, Lexicon.isSpace d = true) :
    heard s p (w ++ u)
      = .token ⟨kind, value, w, ⟨p, p.after w⟩, .default⟩ :: heard s (p.after w) u := by
  obtain ⟨c, t, rfl⟩ := List.exists_cons_of_ne_nil h.ne_nil
  have hm : munch c (t ++ u) = ⟨.lexeme kind (c :: t), u⟩ :=
    munch_of_lexes h (fun d hd => TokenKind.endsBefore_of_isSpace hk (hu d hd)) rfl
  rw [List.cons_append, heard_cons, hm]
  simp only [Reading.event, Reading.consumed, h.valueOf_eq, hk]
  have hheard : Event.isHeard (.token ⟨kind, value, c :: t, ⟨p, p.after (c :: t)⟩, .default⟩)
      = true := by
    simp [Event.isHeard, Token.isHidden, h.kind_ne_eof]
  rw [List.filter_cons_of_pos hheard]
  rfl

/-! ## Words written out with separators -/

/-- Words, each with the separator that follows it. -/
def Layout.text (ps : List (Token × Text)) : Text := ps.flatMap fun x => x.1.lexeme ++ x.2

/-- **A word that can be written out**: a visible token that is a lexeme. -/
def Token.IsWord (t : Token) : Prop :=
  Lexes t.kind t.value t.lexeme ∧ t.kind.channel = .default

/-- What follows a word begins with blank space, or is nothing: only the last
separator may be empty. -/
theorem Layout.isSpace_of_head? {x : Token × Text} {ps : List (Token × Text)}
    (hx : IsSeparator x.2) (hne : ∀ y ∈ (x :: ps).dropLast, y.2 ≠ []) :
    ∀ d ∈ (x.2 ++ text ps).head?, Lexicon.isSpace d = true := by
  intro d hd
  cases ps with
  | nil =>
    rw [show text [] = [] from rfl, List.append_nil] at hd
    exact hx.begins d hd
  | cons y ps =>
    have hn : x.2 ≠ [] := hne x (by simp [List.dropLast])
    rw [List.head?_append_of_ne_nil _ hn] at hd
    exact hx.begins d hd

/-- **Words written out are heard, and nothing else is.** -/
theorem Scan.heard_layout (s : Source) (p : Position) {ps : List (Token × Text)}
    (hw : ∀ x ∈ ps, x.1.IsWord) (hs : ∀ x ∈ ps, IsSeparator x.2)
    (hne : ∀ x ∈ ps.dropLast, x.2 ≠ []) :
    ∃ ts : List Token, heard s p (Layout.text ps) = ts.map .token ∧
      ts.map Token.content = ps.map fun x => x.1.content := by
  induction ps generalizing p with
  | nil => exact ⟨[], heard_nil s p, rfl⟩
  | cons x ps ih =>
    have hu := Layout.isSpace_of_head? (hs x List.mem_cons_self) hne
    rw [List.forall_mem_cons] at hw hs
    have hrest : ∀ y ∈ ps.dropLast, y.2 ≠ [] := by
      intro y hy
      cases ps with
      | nil => cases hy
      | cons z ps => exact hne y (List.mem_cons_of_mem x hy)
    obtain ⟨ts, hts, hc⟩ := ih ((p.after x.1.lexeme).after x.2) hw.2 hs.2 hrest
    refine ⟨⟨x.1.kind, x.1.value, x.1.lexeme, ⟨p, p.after x.1.lexeme⟩, .default⟩ :: ts, ?_, ?_⟩
    · show heard s p (x.1.lexeme ++ x.2 ++ Layout.text ps) = _
      rw [List.append_assoc, heard_word s p hw.1.1 hw.1.2 hu, heard_separator s _ hs.1, hts]
      rfl
    · rw [List.map_cons, List.map_cons, hc]
      rfl

/-! ## The words of a source -/

/-- The words of a survey are the tokens heard. -/
theorem Scan.words_survey (s : Source) (p : Position) (t : Text) :
    Token.words (ready s p t).survey.tokens = (heard s p t).filterMap Event.token? := by
  have hw : ∀ k ∈ (heard s p t).filterMap Event.token?, decide (k.kind ≠ .eof) = true :=
    fun k hk => by simpa using kind_ne_eof_of_heard s p t k hk
  rw [Token.words, visible_survey_ready, List.filter_append, List.filter_eq_self.2 hw]
  exact List.append_nil _

/-- The tokens of a cut are tokens of its lexemes, and the end token. -/
theorem Lexeme.mem_tokens {t : Token} {p : Position} {ls : List Lexeme} (h : t ∈ tokens p ls) :
    t.kind = .eof ∨ ∃ (l : Lexeme) (q : Position), t = l.token q := by
  induction ls generalizing p with
  | nil =>
    obtain rfl := List.mem_singleton.1 h
    exact .inl rfl
  | cons l ls ih =>
    obtain rfl | h := List.mem_cons.1 h
    · exact .inr ⟨l, p, rfl⟩
    · exact ih h

/-- The words of a source can be written out. -/
theorem isWord_of_mem_words {s : Source} {ts : List Token} (h : s.tokens true = .ok ts) :
    ∀ t ∈ Token.words ts, t.IsWord := by
  intro t ht
  obtain ⟨hv, hk⟩ := List.mem_filter.1 ht
  obtain ⟨hm, hh⟩ := List.mem_filter.1 hv
  obtain ⟨ls, hls⟩ := exists_maximalMunch h
  have hts : s.tokens true = _ := tokens_ready_of_maximalMunch hls s .start
  rw [Except.ok.inj (h.symm.trans hts)] at hm
  obtain ⟨l, q, rfl⟩ := (Lexeme.mem_tokens hm).resolve_left (by simpa using hk)
  refine ⟨l.lexes, ?_⟩
  rw [Lexeme.token_eq] at hh ⊢
  cases hc : l.kind.channel with
  | default => rfl
  | hidden => simp [Token.isHidden, hc] at hh

/-- **Layout does not matter.** Take a source that has tokens, and write its
words out again, in order, with a separator after each and one in front.
Only the first and the last separator may be empty. The new source has
tokens too, and its words are the same: each has the kind, the value and the
lexeme it had. -/
theorem tokens_layout (s : Source) (ts : List Token) (h : s.tokens true = .ok ts)
    (name lead : Text) (ps : List (Token × Text)) (hps : ps.map Prod.fst = Token.words ts)
    (hlead : IsSeparator lead) (hs : ∀ x ∈ ps, IsSeparator x.2)
    (hne : ∀ x ∈ ps.dropLast, x.2 ≠ []) :
    ∃ us, (Source.mk name (lead ++ Layout.text ps)).tokens true = .ok us ∧
      (Token.words us).map Token.content = (Token.words ts).map Token.content := by
  have hw : ∀ x ∈ ps, x.1.IsWord := fun x hx =>
    isWord_of_mem_words h x.1 (hps ▸ List.mem_map_of_mem hx)
  generalize hn : Source.mk name (lead ++ Layout.text ps) = new
  obtain ⟨ks, hk, hc⟩ := Scan.heard_layout new (Position.start.after lead) hw hs hne
  have hheard : Scan.heard new .start new.text = ks.map .token := by
    rw [← hn, Scan.heard_separator _ _ hlead, hn, hk]
  have herrors : new.survey.errors = [] := by
    show (Scan.ready new .start new.text).survey.errors = []
    rw [Scan.survey_errors_ready, hheard, List.filterMap_map]
    exact List.filterMap_eq_nil_iff.2 fun _ _ => rfl
  refine ⟨new.survey.tokens, Source.tokens_eq_ok_iff.2 ⟨herrors, rfl⟩, ?_⟩
  have hwords : Token.words new.survey.tokens = ks := by
    show Token.words (Scan.ready new .start new.text).survey.tokens = ks
    rw [Scan.words_survey, hheard, List.filterMap_map]
    exact List.filterMap_some
  rw [hwords, hc, ← hps, List.map_map]
  rfl

/-- A division, an operator and a character literal that holds a line feed,
drawn apart by blank space and a comment. -/
theorem tokens_layout_division :
    let s : Source := ⟨[], "a/1.5!='\n'".toList⟩
    let ts := s.survey.tokens
    let seps : List Text := [['\n'], " //c\r".toList, ['\t'], [' '], []]
    let ps := (Token.words ts).zip seps
    (s.tokens true = .ok ts ∧ ps.map Prod.fst = Token.words ts ∧ IsSeparator [] ∧
      (∀ x ∈ ps, IsSeparator x.2) ∧ ∀ x ∈ ps.dropLast, x.2 ≠ []) ∧
    Layout.text ps = "a\n/ //c\r1.5\t!= '\n'".toList ∧
    ∃ us, (Source.mk [] (Layout.text ps)).tokens true = .ok us ∧
      (Token.words us).map Token.content = (Token.words ts).map Token.content := by
  intro s ts seps ps
  have hnil : IsSeparator [] := ⟨⟨[], by simp, rfl⟩, by simp⟩
  have hblank : ∀ {c : Char}, Lexicon.isSpace c = true → IsSeparator [c] := fun hc =>
    ⟨⟨[[_]], List.forall_mem_singleton.2 (.blank hc), rfl⟩, by simpa using hc⟩
  have hcomment : IsSeparator " //c\r".toList := by
    refine ⟨⟨[[' '], "//c\r".toList], ?_, rfl⟩, by rintro _ ⟨⟩; rfl⟩
    have hb : LayoutBlock ('/' :: '/' :: ['c'] ++ ['\r']) :=
      .comment (List.forall_mem_singleton.2 rfl) rfl
    exact List.forall_mem_cons.2 ⟨.blank rfl, List.forall_mem_singleton.2 hb⟩
  have hseps : ∀ t ∈ seps, IsSeparator t := by
    simp only [seps, List.forall_mem_cons]
    exact ⟨hblank rfl, hcomment, hblank rfl, hblank rfl, hnil, by simp⟩
  have h : s.tokens true = .ok ts := by decide +kernel
  have hps : ps.map Prod.fst = Token.words ts := by decide +kernel
  have hs : ∀ x ∈ ps, IsSeparator x.2 := fun x hx => hseps _ (List.of_mem_zip hx).2
  have hne : ∀ x ∈ ps.dropLast, x.2 ≠ [] := by decide +kernel
  exact ⟨⟨h, hps, hnil, hs, hne⟩, by decide +kernel, tokens_layout s ts h [] [] ps hps hnil hs hne⟩

end Asl
