import Asl.Proofs.Places

/-!
# The calls of a survey tile the source

Each call of a survey moves the cursor from one offset to another, and what
lies between is what the call consumed. `Tiles` says that these stretches
follow one another without gap or overlap, that all but the last hold at
least one character, and that the last is empty, at the end of the text,
and gives the end token. It also says what an event has to do with its
stretch: a token is the whole of it; an error lies inside it, and is the
whole of it unless it is a bad escape, whose literal is passed over.

Everything else about the order and the number of events follows from that
alone.
-/

namespace Asl

/-- The characters of a text from one offset up to another. -/
def Text.slice (t : Text) (p q : Int) : Text := (t.drop p.toNat).take (q - p).toNat

/-- **A token that fills a stretch of a text.** -/
structure Token.Fills (text : Text) (p q : Int) (t : Token) : Prop where
  lexeme_eq : t.lexeme = text.slice p q
  start_eq : t.span.start.offset = p
  stop_eq : t.span.stop.offset = q

/-- **An error inside a stretch of a text.** Its offending text is not empty,
and only a bad escape leaves some of the stretch out. -/
structure LexError.Inside (text : Text) (p q : Int) (e : LexError) : Prop where
  ne_nil : e.text ≠ []
  text_eq : e.text = text.slice e.position.offset (e.position.offset + e.text.length)
  le_offset : p ≤ e.position.offset
  end_le : e.position.offset + e.text.length ≤ q
  whole : e.kind ≠ .invalidEscape → e.position.offset = p ∧ e.text = text.slice p q

/-- What an event has to do with the stretch its call consumed. -/
def Event.Lies (text : Text) (p q : Int) : Event → Prop
  | token t => t.Fills text p q
  | error e => e.Inside text p q

namespace Call

/-- The offset a call begins at. -/
def first (c : Call) : Int := c.before.position.offset

/-- The offset it leaves the scan at. -/
def stop (c : Call) : Int := c.after.position.offset

/-- Whether a call gives the end token. -/
def AtEnd (c : Call) : Prop := c.event = .token (.eofAt c.before.position)

end Call

/-- **Calls tile a text from an offset on**: they consume stretches that
follow one another, none of them empty but the last, which gives the end
token at the end of the text. -/
inductive Tiles (text : Text) : Int → List Call → Prop where
  | last {c : Call} {p : Int} (hp : c.first = p) (hq : c.stop = p) (hl : p = text.length)
      (he : c.AtEnd) : Tiles text p [c]
  | cons {c : Call} {cs : List Call} {p : Int} (hp : c.first = p) (hq : p < c.stop)
      (hn : ∀ t ∈ c.event.token?, t.kind ≠ .eof) (he : c.event.Lies text p c.stop)
      (hc : Tiles text c.stop cs) : Tiles text p (c :: cs)

/-- One token stands strictly before another, and ends before the other
begins. -/
def Token.Precedes (t u : Token) : Prop :=
  t.span.start.offset < u.span.start.offset ∧ t.span.stop.offset ≤ u.span.start.offset

/-- One error stands strictly before another, and so does all of its
text. -/
def LexError.Precedes (d e : LexError) : Prop :=
  d.position.offset < e.position.offset ∧
    d.position.offset + d.text.length ≤ e.position.offset

/-! ## The stretch of one call -/

namespace Text

theorem slice_append (pre w post : Text) :
    slice (pre ++ (w ++ post)) pre.length (pre.length + w.length) = w := by
  unfold slice
  rw [Int.toNat_natCast, List.drop_left, show (pre.length + w.length - pre.length : Int)
    = w.length from by omega, Int.toNat_natCast, List.take_left]

/-- A slice and what follows it. -/
theorem slice_append_drop (t : Text) {p q : Int} (hp : 0 ≤ p) (hq : p ≤ q) :
    t.slice p q ++ t.drop q.toNat = t.drop p.toNat := by
  unfold slice
  rw [show t.drop q.toNat = (t.drop p.toNat).drop (q - p).toNat from by
    rw [List.drop_drop]; congr 1; omega]
  exact List.take_append_drop _ _

end Text

/-- The offending text of a fault is not empty. -/
theorem Reading.Before.text_ne_nil {cause : Fault} {b w a : Text} {next : Option Char}
    (h : (Reading.fault cause b w a).Before next) : w ≠ [] := by
  cases h <;> simp

/-- Only a bad escape stands among other text that is consumed. -/
theorem Reading.Before.eq_nil {cause : Fault} {b w a : Text} {next : Option Char}
    (h : (Reading.fault cause b w a).Before next) (hk : cause.kind ≠ .invalidEscape) :
    b = [] ∧ a = [] := by
  cases h <;> first | exact ⟨rfl, rfl⟩ | exact absurd rfl hk

/-- What is read after a beginning of a source lies where it was read. -/
theorem Reading.lies_event {r : Reading} {s : Source} {pre post text : Text}
    (hb : r.Before post.head?) (ht : text = pre ++ (r.consumed ++ post)) :
    (r.event s (Position.start.after pre)).Lies text pre.length
      (pre.length + r.consumed.length) := by
  subst ht
  cases r with
  | lexeme kind w =>
    refine ⟨(Text.slice_append pre w post).symm, Position.offset_after_start pre, ?_⟩
    show ((Position.start.after pre).after w).offset = _
    rw [Position.offset_after, Position.offset_after_start]
    rfl
  | fault cause b w a =>
    have ho : ((Position.start.after pre).after b).offset = (pre ++ b).length := by
      rw [← Position.after_append, Position.offset_after_start]
    refine ⟨hb.text_ne_nil, ?_, ?_, ?_, fun hk => ?_⟩
    · show w = Text.slice (pre ++ (b ++ w ++ a ++ post)) ((Position.start.after pre).after b).offset
        (((Position.start.after pre).after b).offset + w.length)
      rw [ho, List.append_assoc, List.append_assoc, ← List.append_assoc, Text.slice_append]
    · show _ ≤ ((Position.start.after pre).after b).offset
      rw [ho, List.length_append]
      omega
    · show ((Position.start.after pre).after b).offset + _ ≤ _
      simp only [ho, Reading.consumed, List.length_append]
      push_cast
      omega
    · obtain ⟨rfl, rfl⟩ := hb.eq_nil hk
      refine ⟨Position.offset_after_start pre, ?_⟩
      simp only [Reading.consumed, List.nil_append, List.append_nil]
      exact (Text.slice_append pre w post).symm

/-! ## The calls of a survey -/

/-- The calls made after a beginning of a source tile the rest of it. -/
theorem tiles_calls_ready (s : Source) (pre : Text) {t : Text} (ht : s.text = pre ++ t) :
    Tiles s.text pre.length (Scan.ready s (Position.start.after pre) t).calls := by
  have hp := Position.offset_after_start pre
  induction t using munch_induction generalizing pre with
  | nil =>
    rw [Scan.calls_ready_nil]
    refine .last hp hp ?_ rfl
    rw [ht, List.append_nil]
  | cons c t ih =>
    have hsplit : s.text = pre ++ ((munch c t).reading.consumed ++ (munch c t).rest) := by
      rw [ht, splits_munch c t]
    have hq : ((Position.start.after pre).after (munch c t).reading.consumed).offset
        = pre.length + (munch c t).reading.consumed.length := by
      rw [Position.offset_after, hp]
    have hpos := List.length_pos_iff.2 (consumed_munch_ne_nil c t)
    rw [Scan.calls_ready_cons]
    refine .cons hp ?_ ?_ ?_ ?_
    · show _ < ((Position.start.after pre).after (munch c t).reading.consumed).offset
      rw [hq]
      omega
    · -- the end token is not read off any text
      intro k hk
      rcases hm : munch c t with ⟨⟨kind, w⟩ | ⟨cause, b, w, a⟩, u⟩ <;> rw [hm] at hk
      · obtain ⟨value, hl⟩ := exists_lexes_of_munch hm
        cases hk
        exact hl.kind_ne_eof
      · cases hk
    · show Event.Lies _ _
        ((Position.start.after pre).after (munch c t).reading.consumed).offset _
      rw [hq]
      exact Reading.lies_event (before_munch c t) hsplit
    · show Tiles _ ((Position.start.after pre).after (munch c t).reading.consumed).offset _
      rw [← List.append_assoc] at hsplit
      have hrest := ih _ hsplit (Position.offset_after_start _)
      rw [Position.after_append, List.length_append] at hrest
      rw [hq]
      exact_mod_cast hrest

/-! ## What a tiling gives -/

namespace Tiles

variable {text : Text} {p : Int} {cs : List Call}

/-- There are at most as many calls as characters, and one more. -/
theorem length_le (h : Tiles text p cs) : (cs.length : Int) ≤ text.length - p + 1 := by
  induction h with
  | last hp hq hl he => simp [hl]
  | cons hp hq hn he hc ih =>
    rw [List.length_cons]
    push_cast
    omega

theorem le_first (h : Tiles text p cs) : ∀ c ∈ cs, p ≤ c.first := by
  induction h with
  | last hp hq hl he => simp [hp]
  | cons hp hq hn he hc ih =>
    refine List.forall_mem_cons.2 ⟨by omega, fun d hd => ?_⟩
    have hd := ih d hd
    omega

/-- A call that is not the last one advances, up to where later ones
begin. -/
theorem pairwise (h : Tiles text p cs) :
    cs.Pairwise (fun c d => c.first < c.stop ∧ c.stop ≤ d.first) := by
  induction h with
  | last hp hq hl he => exact List.pairwise_singleton _ _
  | cons hp hq hn he hc ih =>
    refine List.pairwise_cons.2 ⟨fun d hd => ⟨?_, hc.le_first d hd⟩, ih⟩
    rw [hp]
    exact hq

theorem lies (h : Tiles text p cs) : ∀ c ∈ cs, c.event.Lies text c.first c.stop := by
  induction h with
  | @last c p hp hq hl he =>
    refine List.forall_mem_singleton.2 ?_
    rw [he]
    refine ⟨?_, rfl, hp.trans hq.symm⟩
    simp [Text.slice, hp, hq, Token.eofAt]
  | cons hp hq hn he hc ih =>
    refine List.forall_mem_cons.2 ⟨?_, ih⟩
    rw [hp]
    exact he

/-- The tokens stand in order, one after the other. -/
theorem pairwise_tokens (h : Tiles text p cs) :
    (cs.filterMap (·.event.token?)).Pairwise Token.Precedes := by
  refine List.pairwise_filterMap.2 (h.pairwise.imp_of_mem ?_)
  intro c d hc hd hcd t ht u hu
  have hft := h.lies c hc
  have hfu := h.lies d hd
  rw [Event.eq_token ht] at hft
  rw [Event.eq_token hu] at hfu
  unfold Token.Precedes
  rw [hft.start_eq, hft.stop_eq, hfu.start_eq]
  exact ⟨Int.lt_of_lt_of_le hcd.1 hcd.2, hcd.2⟩

/-- So do the errors. -/
theorem pairwise_errors (h : Tiles text p cs) :
    (cs.filterMap (·.event.error?)).Pairwise LexError.Precedes := by
  refine List.pairwise_filterMap.2 (h.pairwise.imp_of_mem ?_)
  intro b c hb hc hbc d hd e he
  have hid := h.lies b hb
  have hie := h.lies c hc
  rw [Event.eq_error hd] at hid
  rw [Event.eq_error he] at hie
  have hpos := List.length_pos_iff.2 hid.ne_nil
  have hend := hid.end_le
  have hle := hie.le_offset
  unfold LexError.Precedes
  omega

/-- Without errors nothing is lost: the lexemes are the text. -/
theorem flatMap_lexeme (h : Tiles text p cs) (hp : 0 ≤ p)
    (hn : cs.filterMap (·.event.error?) = []) :
    (cs.filterMap (·.event.token?)).flatMap Token.lexeme = text.drop p.toNat := by
  induction h with
  | @last c p _ _ hl he =>
    rw [List.filterMap_cons, he, hl, Int.toNat_natCast, List.drop_length]
    rfl
  | @cons c cs p hf hq _ he hc ih =>
    cases hv : c.event with
    | error e => simp [hv, Event.error?] at hn
    | token t =>
      rw [hv] at he
      have hcs : cs.filterMap (·.event.error?) = [] := by
        simpa [hv, Event.error?] using hn
      rw [List.filterMap_cons, hv]
      show t.lexeme ++ (cs.filterMap (·.event.token?)).flatMap Token.lexeme = _
      rw [ih (by omega) hcs, he.lexeme_eq]
      exact Text.slice_append_drop text hp (by omega)

end Tiles

/-- **A survey tiles its source.** Its calls give its tokens and its errors;
they consume the source from offset zero to its end, stretch after stretch;
there is at most one more of them than there are characters; tokens and
errors come in the order of the source; and where there is no error, the
lexemes together are the source. -/
theorem survey_tiles (s : Source) :
    s.survey.tokens = (Scan.start s).calls.filterMap (·.event.token?) ∧
    s.survey.errors = (Scan.start s).calls.filterMap (·.event.error?) ∧
    Tiles s.text 0 (Scan.start s).calls ∧
    (Scan.start s).calls.length ≤ s.text.length + 1 ∧
    s.survey.tokens.Pairwise Token.Precedes ∧
    s.survey.errors.Pairwise LexError.Precedes ∧
    (s.survey.errors = [] → s.survey.tokens.flatMap Token.lexeme = s.text) := by
  have ht : s.survey.tokens = _ := Scan.survey_tokens (Scan.start s)
  have he : s.survey.errors = _ := Scan.survey_errors (Scan.start s)
  have h : Tiles s.text 0 (Scan.start s).calls := tiles_calls_ready s [] rfl
  refine ⟨ht, he, h, ?_, ?_, ?_, fun hn => ?_⟩
  · have hl := h.length_le
    omega
  · rw [ht]
    exact h.pairwise_tokens
  · rw [he]
    exact h.pairwise_errors
  · rw [he] at hn
    rw [ht, h.flatMap_lexeme (Int.le_refl 0) hn]
    rfl

end Asl
