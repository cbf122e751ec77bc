import Asl.Proofs.Calls

/-!
# Tokens are the maximal munch

The usual account of a lexical analysis mentions no machine: a text is cut
from left to right into lexemes, each the longest that begins where it
stands (`MaximalMunch`). A text has at most one such cut, and it may have
none.

That account is what the tokens of a source are. The tokens come out exactly
if the text can be cut, and they are the lexemes of the cut, in their
places, with the end token after them.

The step does not look for the longest lexeme. It commits itself on the
first character, so it has to be seen that the lexeme it finds is the
longest (`longest_of_munch`). The converse has one exception. After digits
and a point the step expects more digits, and gives up where there are
none, although the digits alone are a lexeme there. The cut does not
survive either: it would have to go on at the point, where no lexeme
begins.
-/

namespace Asl

/-! ## Lexemes and cuts -/

/-- **A lexeme**: a text that some rule of the grammar covers. -/
@[ext]
structure Lexeme where
  /-- The kind the rule gives it. -/
  kind : TokenKind
  /-- What a parser reads. -/
  value : Text
  /-- The characters. -/
  text : Text
  /-- The rule. -/
  lexes : Lexes kind value text

namespace Lexeme

/-- The token of a lexeme that begins at a place: comments and blank space
are hidden, and nothing else is. -/
def token (p : Position) (l : Lexeme) : Token where
  kind := l.kind
  value := l.value
  lexeme := l.text
  span := ⟨p, p.after l.text⟩
  channel := if l.kind = .comment ∨ l.kind = .space then .hidden else .default

/-- The tokens of lexemes that stand one after the other, and the end token
after the last of them. -/
def tokens : Position → List Lexeme → List Token
  | p, [] => [.eofAt p]
  | p, l :: ls => l.token p :: tokens (p.after l.text) ls

end Lexeme

/-- A lexeme is the longest of those a text begins with. -/
def Longest (t : Text) (l : Lexeme) : Prop :=
  l.text <+: t ∧ ∀ m : Lexeme, m.text <+: t → m.text.length ≤ l.text.length

/-- **The cut of a text into lexemes**, each the longest that begins where it
stands. -/
inductive MaximalMunch : Text → List Lexeme → Prop where
  | nil : MaximalMunch [] []
  | cons {l : Lexeme} {u : Text} {ls : List Lexeme} (hl : Longest (l.text ++ u) l)
      (hu : MaximalMunch u ls) : MaximalMunch (l.text ++ u) (l :: ls)

/-! ## The grammar is unambiguous -/

namespace Lexes

variable {kind : TokenKind} {value w : Text}

theorem ne_nil (h : Lexes kind value w) : w ≠ [] := by
  have hk : ∀ k ∈ Lexicon.keywords, k.1.toList ≠ [] := by decide
  have ho : ∀ k ∈ Grammar.operators, k.1 ≠ [] := by decide
  cases h with
  | operator h => exact ho _ h
  | keyword h => exact hk _ h
  | int hn _ => exact hn
  | space hn _ => exact hn
  | float hn _ _ _ => simp [hn]
  | _ => simp

/-- The value is the text, without the delimiters of a literal. -/
theorem valueOf_eq (h : Lexes kind value w) : kind.valueOf w = value := by
  -- of the kinds only two are delimited, and no table holds one of them
  have hv : ∀ (k : TokenKind) (t : Text), k ≠ .charval ∧ k ≠ .stringval → k.valueOf t = t := by
    intro k t hk
    cases k <;> first | rfl | exact absurd rfl hk.1 | exact absurd rfl hk.2
  have hp : ∀ k ∈ Lexicon.punctuation, k.2 ≠ .charval ∧ k.2 ≠ .stringval := by decide
  have ho : ∀ k ∈ Grammar.operators, k.2 ≠ .charval ∧ k.2 ≠ .stringval := by decide
  have hk : ∀ k ∈ Lexicon.keywords, k.2 ≠ .charval ∧ k.2 ≠ .stringval := by decide
  cases h with
  | punctuation h => exact hv _ _ (hp _ h)
  | operator h => exact hv _ _ (ho _ h)
  | keyword h => exact hv _ _ (hk _ h)
  | char hu => simp [TokenKind.valueOf]
  | string hu => simp [TokenKind.valueOf]
  | _ => rfl

/-- **A text is a lexeme in one way only.** The step reads it whole, and what
the step reads has one kind. -/
theorem unique {kind' : TokenKind} {value' : Text} (h : Lexes kind value w)
    (h' : Lexes kind' value' w) : kind = kind' ∧ value = value' := by
  obtain ⟨c, t, rfl⟩ := List.exists_cons_of_ne_nil h.ne_nil
  have hs : c :: t = c :: t ++ [] := (List.append_nil _).symm
  have he := (munch_of_lexes h (u := []) (by simp) hs).symm.trans
    (munch_of_lexes h' (u := []) (by simp) hs)
  simp only [Step.mk.injEq, Reading.lexeme.injEq, and_true] at he
  subst he
  exact ⟨rfl, h.valueOf_eq.symm.trans h'.valueOf_eq⟩

end Lexes

/-- The longest lexeme at the front of a text is determined by the text. -/
theorem Longest.unique {t : Text} {l m : Lexeme} (hl : Longest t l) (hm : Longest t m) :
    l = m := by
  have hlen := Nat.le_antisymm (hm.2 l hl.1) (hl.2 m hm.1)
  have htext : l.text = m.text :=
    (List.prefix_of_prefix_length_le hl.1 hm.1 hlen.le).eq_of_length hlen
  obtain ⟨hk, hv⟩ := l.lexes.unique (htext ▸ m.lexes)
  exact Lexeme.ext hk hv htext

/-! ## What the step finds is the longest -/

/-- What the step reads in front of a lexeme: a lexeme that is no shorter,
or digits and a point with nothing after it. -/
def Covers (w : Text) (r : Reading) : Prop :=
  (∃ kind v, r = .lexeme kind v ∧ w <+: v) ∨
    ∃ ds, (∀ d ∈ ds, Lexicon.isDigit d = true) ∧ w <+: ds ∧
      r = .fault .missingFraction [] (ds ++ ['.']) []

theorem covers_of_lexes {kind : TokenKind} {value v u w : Text} (h : Lexes kind value v)
    (hu : ∀ d ∈ u.head?, kind.endsBefore d = true) {c : Char} {t : Text}
    (hs : c :: t = v ++ u) (hw : w <+: v) : Covers w (munch c t).reading := by
  rw [munch_of_lexes h hu hs]
  exact .inl ⟨kind, v, rfl, hw⟩

/-- Digits are covered, whatever stands after them. -/
theorem covers_digits {ds u : Text} (hn : ds ≠ []) (hd : ∀ d ∈ ds, Lexicon.isDigit d = true)
    {c : Char} {t : Text} (hs : c :: t = ds ++ u) : Covers ds (munch c t).reading := by
  obtain ⟨es, v, rfl, he, hv⟩ := Text.exists_run Lexicon.isDigit u
  have hall : ∀ d ∈ ds ++ es, Lexicon.isDigit d = true := List.forall_mem_append.2 ⟨hd, he⟩
  have hne : ds ++ es ≠ [] := by simp [hn]
  -- after all the digits there is a point or not, and after the point a digit or not
  by_cases hp : v.head? = some '.'
  · obtain ⟨v, rfl⟩ := List.head?_eq_some_iff.1 hp
    obtain ⟨fs, x, rfl, hf, hx⟩ := Text.exists_run Lexicon.isDigit v
    by_cases hfs : fs = []
    · subst hfs
      refine .inr ⟨ds ++ es, hall, List.prefix_append _ _, ?_⟩
      rw [munch_of_before (.missingFraction hne hall hx) (by simpa [Reading.consumed] using hs)]
    · refine covers_of_lexes (.float hne hall hfs hf) ?_ (by simpa using hs) ?_
      · simpa [TokenKind.endsBefore] using hx
      · rw [List.append_assoc]
        exact List.prefix_append _ _
  · refine covers_of_lexes (.int hne hall) (fun d hd => ?_) (by simpa using hs)
      (List.prefix_append _ _)
    have hne : d ≠ '.' := by rintro rfl; exact hp hd
    simp [TokenKind.endsBefore, hv d hd, hne]

/-- A word is covered, whatever stands after it. -/
theorem covers_word {c : Char} {w : Text} (hc : Lexicon.isLetter c = true)
    (hw : ∀ d ∈ w, Lexicon.isWordChar d = true) (u : Text) :
    Covers (c :: w) (munch c (w ++ u)).reading := by
  obtain ⟨v, x, rfl, hv, hx⟩ := Text.exists_run Lexicon.isWordChar u
  rw [← List.append_assoc, munch_word hc (List.forall_mem_append.2 ⟨hw, hv⟩) hx]
  exact .inl ⟨_, _, rfl, List.prefix_append (c :: w) v⟩

/-- An operator is covered: a second character makes it another operator, or
the beginning of a comment. -/
theorem covers_operator {kind : TokenKind} {w : Text} (h : (w, kind) ∈ Grammar.operators)
    {u : Text} {c : Char} {t : Text} (hs : c :: t = w ++ u) : Covers w (munch c t).reading := by
  by_cases hu : ∀ d ∈ u.head?, kind.endsBefore d = true
  · exact covers_of_lexes (.operator h) hu hs (List.prefix_refl w)
  · simp only [not_forall] at hu
    obtain ⟨d, hd, hb⟩ := hu
    obtain ⟨u, rfl⟩ := List.head?_eq_some_iff.1 hd
    simp only [Grammar.operators, List.mem_cons, Prod.mk.injEq, List.not_mem_nil, or_false] at h
    obtain ⟨rfl, rfl⟩ | ⟨rfl, rfl⟩ | ⟨rfl, rfl⟩ | ⟨rfl, rfl⟩ | ⟨rfl, rfl⟩ | ⟨rfl, rfl⟩ |
      ⟨rfl, rfl⟩ | ⟨rfl, rfl⟩ := h <;>
    simp only [TokenKind.endsBefore, decide_not, Bool.not_eq_true', decide_eq_false_iff_not,
      not_not, not_true_eq_false] at hb
    -- four operators are continued, each by one character
    · subst hb
      obtain ⟨v, x, rfl, hv, hx⟩ := Text.exists_run (fun d => !Lexicon.isLineEnd d) u
      refine covers_of_lexes (.comment (w := v) (fun d hd => by simpa using hv d hd)) ?_ hs
        ⟨'/' :: v, rfl⟩
      simpa [TokenKind.endsBefore] using hx
    · subst hb
      have hop : (['=', '='], TokenKind.eq) ∈ Grammar.operators := by decide
      exact covers_of_lexes (.operator hop) (by simp [TokenKind.endsBefore]) hs ⟨['='], rfl⟩
    · subst hb
      have hop : (['<', '='], TokenKind.le) ∈ Grammar.operators := by decide
      exact covers_of_lexes (.operator hop) (by simp [TokenKind.endsBefore]) hs ⟨['='], rfl⟩
    · subst hb
      have hop : (['>', '='], TokenKind.ge) ∈ Grammar.operators := by decide
      exact covers_of_lexes (.operator hop) (by simp [TokenKind.endsBefore]) hs ⟨['='], rfl⟩

/-- **Whatever lexeme a text begins with, the step goes at least as far.** -/
theorem covers_munch {kind : TokenKind} {value w u : Text} (h : Lexes kind value w) {c : Char}
    {t : Text} (hs : c :: t = w ++ u) : Covers w (munch c t).reading := by
  cases h with
  | punctuation h =>
    exact covers_of_lexes (.punctuation h)
      (fun d _ => Lexicon.endsBefore_of_mem_punctuation h d) hs (List.prefix_refl _)
  | operator h => exact covers_operator h hs
  | keyword h =>
    obtain ⟨d, v, hv, hd, hw⟩ := Lexicon.exists_word_of_mem h
    rw [hv] at hs ⊢
    rw [List.cons_append, List.cons_eq_cons] at hs
    obtain ⟨rfl, rfl⟩ := hs
    exact covers_word hd hw u
  | name hc hw _ =>
    rw [List.cons_append, List.cons_eq_cons] at hs
    obtain ⟨rfl, rfl⟩ := hs
    exact covers_word hc hw u
  | int hn hd => exact covers_digits hn hd hs
  | @float ds es hn hd hm he =>
    obtain ⟨fs, x, rfl, hf, hx⟩ := Text.exists_run Lexicon.isDigit u
    have hall : ∀ d ∈ es ++ fs, Lexicon.isDigit d = true := List.forall_mem_append.2 ⟨he, hf⟩
    refine covers_of_lexes (.float hn hd (by simp [hm]) hall) ?_ (by simpa using hs) ⟨fs, by simp⟩
    simpa [TokenKind.endsBefore] using hx
  | char hu =>
    exact covers_of_lexes (.char hu) (by simp [TokenKind.endsBefore]) hs (List.prefix_refl _)
  | string hu =>
    exact covers_of_lexes (.string hu) (by simp [TokenKind.endsBefore]) hs (List.prefix_refl _)
  | @comment w hw =>
    obtain ⟨v, x, rfl, hv, hx⟩ := Text.exists_run (fun d => !Lexicon.isLineEnd d) u
    refine covers_of_lexes (.comment (w := w ++ v) ?_) ?_ (by simpa using hs) ⟨v, by simp⟩
    · exact List.forall_mem_append.2 ⟨hw, fun d hd => by simpa using hv d hd⟩
    · simpa [TokenKind.endsBefore] using hx
  | space hn hw =>
    obtain ⟨v, x, rfl, hv, hx⟩ := Text.exists_run Lexicon.isSpace u
    refine covers_of_lexes (.space (by simp [hn]) (List.forall_mem_append.2 ⟨hw, hv⟩)) ?_
      (by simpa using hs) (List.prefix_append _ v)
    simpa [TokenKind.endsBefore] using hx

/-- What the step reads as a lexeme is the longest there. -/
theorem longest_of_munch {l : Lexeme} {c : Char} {t u : Text}
    (h : munch c t = ⟨.lexeme l.kind l.text, u⟩) : Longest (c :: t) l := by
  have hs : c :: t = l.text ++ u := (munch_eq_iff.1 h).1
  refine ⟨⟨u, hs.symm⟩, fun m hm => ?_⟩
  obtain ⟨v, hv⟩ := hm
  have hc := covers_munch m.lexes hv.symm
  rw [h] at hc
  obtain ⟨kind, w, hr, hw⟩ | ⟨ds, -, -, hr⟩ := hc
  · obtain ⟨-, rfl⟩ := Reading.lexeme.inj hr
    exact hw.length_le
  · exact Reading.noConfusion hr

/-- The longest lexeme is what the step reads, unless a point follows. -/
theorem munch_of_longest {l : Lexeme} {c : Char} {t u : Text} (hs : c :: t = l.text ++ u)
    (h : Longest (c :: t) l) : munch c t = ⟨.lexeme l.kind l.text, u⟩ ∨ u.head? = some '.' := by
  have hc := covers_munch l.lexes hs
  obtain ⟨kind, w, hr, hw⟩ | ⟨ds, hds, hw, hr⟩ := hc
  · have hm : munch c t = ⟨.lexeme kind w, (munch c t).rest⟩ := by rw [← hr]
    obtain ⟨value, hx⟩ := exists_lexes_of_munch hm
    have hl := h.unique (longest_of_munch (l := ⟨kind, value, w, hx⟩) hm)
    subst hl
    refine .inl ?_
    rw [hm]
    have he := (munch_eq_iff.1 hm).1.symm.trans hs
    rw [List.append_cancel_left he]
  · have hm : munch c t = ⟨.fault .missingFraction [] (ds ++ ['.']) [], (munch c t).rest⟩ := by
      rw [← hr]
    have hd : c :: t = ds ++ '.' :: (munch c t).rest := by
      simpa [Reading.consumed] using (munch_eq_iff.1 hm).1
    -- those digits are a lexeme, so they are the longest one, and the point is left
    have hn : ds ≠ [] := fun h0 => l.lexes.ne_nil (List.prefix_nil.1 (h0 ▸ hw))
    have hle := h.2 ⟨.intval, ds, ds, .int hn hds⟩ ⟨_, hd.symm⟩
    have hwd : l.text = ds := hw.eq_of_length_le hle
    rw [hwd, hd] at hs
    rw [← List.append_cancel_left hs]
    exact .inr rfl

/-! ## Cuts and tokens -/

/-- No lexeme begins with a point. -/
theorem Lexes.head?_ne_point {kind : TokenKind} {value w : Text} (h : Lexes kind value w)
    (u : Text) : (w ++ u).head? ≠ some '.' := by
  intro hp
  obtain ⟨t, ht⟩ := List.head?_eq_some_iff.1 hp
  have hc := covers_munch h ht.symm
  have hm : (munch '.' t).reading = .fault .strayCharacter [] ['.'] [] := rfl
  rw [hm] at hc
  obtain ⟨_, _, hr, _⟩ | ⟨_, _, _, hr⟩ := hc
  · exact Reading.noConfusion hr
  · exact Fault.noConfusion (Reading.fault.inj hr).1

theorem MaximalMunch.head?_ne_point {t : Text} {ls : List Lexeme} (h : MaximalMunch t ls) :
    t.head? ≠ some '.' := by
  cases h with
  | nil => simp
  | @cons l u ls hl hu => exact l.lexes.head?_ne_point u

/-- The token the scan makes of a lexeme is the token of the lexeme. -/
theorem Lexeme.token_eq (l : Lexeme) (p : Position) :
    l.token p
      = ⟨l.kind, l.kind.valueOf l.text, l.text, ⟨p, p.after l.text⟩, l.kind.channel⟩ := by
  have hc : ∀ k : TokenKind,
      (if k = .comment ∨ k = .space then Channel.hidden else .default) = k.channel := by
    intro k
    cases k <;> rfl
  unfold token
  rw [l.lexes.valueOf_eq, hc]

/-- A text that can be cut gives the tokens of the cut. -/
theorem tokens_ready_of_maximalMunch {t : Text} {ls : List Lexeme} (h : MaximalMunch t ls)
    (s : Source) (p : Position) :
    (Scan.ready s p t).tokens true = .ok (Lexeme.tokens p ls) := by
  induction h generalizing p with
  | nil => exact Scan.tokens_ready_nil true
  | @cons l u ls hl hu ih =>
    obtain ⟨c, t, ht⟩ := List.exists_cons_of_ne_nil (List.append_ne_nil_of_left_ne_nil l.lexes.ne_nil u)
    rw [ht] at hl ⊢
    -- the rest of the cut begins with a lexeme, hence with no point
    have hm := (munch_of_longest ht.symm hl).resolve_right hu.head?_ne_point
    rw [Scan.tokens_ready_of_lexeme hm, ih, Lexeme.tokens, Lexeme.token_eq]
    rfl

/-- A text that gives tokens can be cut. -/
theorem exists_maximalMunch {s : Source} {p : Position} {t : Text} {ts : List Token}
    (h : (Scan.ready s p t).tokens true = .ok ts) : ∃ ls, MaximalMunch t ls := by
  induction t using munch_induction generalizing p ts with
  | nil => exact ⟨[], .nil⟩
  | cons c t ih =>
    rcases hm : munch c t with ⟨⟨kind, w⟩ | ⟨cause, b, w, a⟩, u⟩
    · obtain ⟨value, hx⟩ := exists_lexes_of_munch hm
      rw [Scan.tokens_ready_of_lexeme hm] at h
      cases hu : (Scan.ready s (p.after w) u).tokens true with
      | error e => rw [hu] at h; cases h
      | ok ts =>
        rw [hm] at ih
        obtain ⟨ls, hls⟩ := ih hu
        have hs : c :: t = w ++ u := (munch_eq_iff.1 hm).1
        have hl := longest_of_munch (l := ⟨kind, value, w, hx⟩) hm
        rw [hs] at hl ⊢
        exact ⟨⟨kind, value, w, hx⟩ :: ls, .cons hl hls⟩
    · rw [Scan.tokens_ready_of_fault hm] at h
      cases h

/-- A text can be cut in one way only. -/
theorem MaximalMunch.unique {t : Text} {ls ms : List Lexeme} (hl : MaximalMunch t ls)
    (hm : MaximalMunch t ms) : ls = ms := by
  induction hl generalizing ms with
  | nil =>
    generalize ht : ([] : Text) = t at hm
    cases hm with
    | nil => rfl
    | @cons m u ms _ _ => exact absurd ht.symm (List.append_ne_nil_of_left_ne_nil m.lexes.ne_nil u)
  | @cons l u ls hl hu ih =>
    generalize ht : l.text ++ u = t at hm hl
    cases hm with
    | nil => exact absurd ht (List.append_ne_nil_of_left_ne_nil l.lexes.ne_nil u)
    | @cons m v ms hm hv =>
      obtain rfl := hl.unique hm
      rw [List.append_cancel_left ht] at ih
      rw [ih hv]

/-- **The tokens of a source are its maximal munch.** They come out exactly
if the text can be cut into longest lexemes, they are then the tokens of
that cut with the end token after them, and there is no other cut. -/
theorem tokens_eq_ok_iff_maximalMunch (s : Source) :
    (∀ ts, s.tokens true = .ok ts ↔
      ∃ ls, MaximalMunch s.text ls ∧ ts = Lexeme.tokens .start ls) ∧
    ((∃ ts, s.tokens true = .ok ts) ↔ ∃! ls, MaximalMunch s.text ls) := by
  have hof : ∀ {ls}, MaximalMunch s.text ls → s.tokens true = .ok (Lexeme.tokens .start ls) :=
    fun h => tokens_ready_of_maximalMunch h s .start
  refine ⟨fun ts => ⟨fun h => ?_, ?_⟩, ?_, ?_⟩
  · obtain ⟨ls, hls⟩ := exists_maximalMunch h
    exact ⟨ls, hls, Except.ok.inj (h.symm.trans (hof hls))⟩
  · rintro ⟨ls, hls, rfl⟩
    exact hof hls
  · rintro ⟨ts, h⟩
    obtain ⟨ls, hls⟩ := exists_maximalMunch h
    exact ⟨ls, hls, fun ms hms => hms.unique hls⟩
  · rintro ⟨ls, hls, -⟩
    exact ⟨_, hof hls⟩

end Asl
