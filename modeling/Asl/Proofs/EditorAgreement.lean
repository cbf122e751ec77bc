import Asl.Proofs.LineEnds
import Asl.Proofs.RoundTrip
import Asl.Run

/-!
# What an editor and a command line are told

An editor is told of the errors of the text it sends; a command line of the
errors of a file, whose line ends are unified first. So the two are told of
the same errors where a text and the unified text have the same errors, up to
offsets.

The two texts are read side by side (`Scan.agreement`). What has been
read of the one is what has been read of the other, unified; the next reading
is the same, or differs in a line end it holds. Three things can then go
wrong, and each of them shows in an error of the text as it is. An error
after a lone `CR` stands on a later line of the file. A backslash before a
`CR` has a message that quotes its code, and the file has another code. And a
quote before `CR LF` and another quote is a character literal in the file, but
in the text there is one character too many between the quotes. An error to
which none of this happened is unaffected (`LexError.Unaffected`), and the two
are told the same exactly if all errors are (`diagnostics_eq_reports_iff`).
-/

namespace Asl

/-! ## Errors one after the other -/

/-- The error a reading gives, if it gives one. -/
def Reading.errors (s : Source) (p : Position) (r : Reading) : List LexError :=
  (r.event s p).error?.toList

namespace Scan

/-- The errors from a text on. -/
def faults (s : Source) (p : Position) (t : Text) : List LexError := (ready s p t).survey.errors

variable (s : Source) (p : Position)

theorem faults_nil : faults s p [] = [] := by
  unfold faults
  rw [survey_errors_ready, heard_nil]
  rfl

variable {s p}

/-- What is read comes first, then what follows it. -/
theorem faults_read {r : Reading} {u : Text} (h : r.Before u.head?) (hn : r.consumed ≠ []) :
    faults s p (r.consumed ++ u)
      = r.errors s p ++ faults s (p.after r.consumed) u := by
  unfold faults
  rw [survey_errors, calls_read h hn, survey_errors]
  cases r <;> rfl

/-- Blank space has no errors. -/
theorem faults_spaces {v : Text} (hv : ∀ d ∈ v, Lexicon.isSpace d = true) (u : Text) :
    faults s p (v ++ u) = faults s (p.after v) u := by
  unfold faults
  rw [survey_errors_ready, survey_errors_ready, heard_spaces s p hv u]

end Scan

/-- Errors stand no earlier than where the scan does. -/
theorem Scan.line_le_of_mem_faults (s : Source) {p : Position} {t : Text} :
    ∀ e ∈ faults s p t, p.line ≤ e.position.line := by
  have hle : ∀ (p : Position) (w : Text), p.line ≤ (p.after w).line := by
    intro p w
    rw [Position.line_after]
    omega
  induction t using reading_induction generalizing p with
  | nil =>
    rw [faults_nil]
    exact List.forall_mem_nil _
  | read r u hb hn ih =>
    have hu : u.length < (r.consumed ++ u).length := by
      rw [List.length_append]
      exact Nat.lt_add_of_pos_left (List.length_pos_iff.2 hn)
    rw [faults_read hb hn, List.forall_mem_append]
    refine ⟨?_, fun e he => Int.le_trans (hle p r.consumed) (ih u hu e he)⟩
    cases r with
    | lexeme kind w => exact List.forall_mem_nil _
    | fault cause b w a => exact List.forall_mem_singleton.2 (hle p b)

/-! ## Unaffected errors -/

/-- What is told of an error: its kind, its message, and where it stands, as
an editor counts. -/
def LexError.told (e : LexError) : FaultKind × Text × EditorPosition :=
  (e.kind, e.message, .ofPosition e.position)

/-- **An error that is told alike** of a text and of the unified text. -/
structure LexError.Unaffected (e : LexError) : Prop where
  /-- No `CR` before it stands alone. -/
  paired : Text.Paired (e.source.text.take e.position.offset.toNat)
  /-- It is not the escape of a `CR`. -/
  escape : e.text ≠ ['\\', '\r']
  /-- It is not a quote and a `CR` that a line feed and a quote follow. -/
  quote : e.text = ['\'', '\r'] →
    ¬ ['\n', '\''] <+: e.source.text.drop (e.position.offset.toNat + 2)

instance (e : LexError) : Decidable e.Unaffected :=
  decidable_of_iff (Text.Paired (e.source.text.take e.position.offset.toNat) ∧
      e.text ≠ ['\\', '\r'] ∧
      (e.text = ['\'', '\r'] →
        ¬ ['\n', '\''] <+: e.source.text.drop (e.position.offset.toNat + 2)))
    ⟨fun h => ⟨h.1, h.2.1, h.2.2⟩, fun h => ⟨h.paired, h.escape, h.quote⟩⟩

/-! ## Two texts side by side -/

/-- **A text and the unified text from here on**: they are told alike exactly
if the errors to come are unaffected. What was read before is `pre`. -/
def Scan.Agreement (s s' : Source) (pre t : Text) : Prop :=
  (faults s (Position.start.after pre) t).map LexError.told
      = (faults s' (Position.start.after (Text.unifyNewlines pre)) (Text.unifyNewlines t)).map
          LexError.told ↔
    ∀ e ∈ faults s (Position.start.after pre) t, e.Unaffected

section SideBySide

variable {s s' : Source} {pre : Text}

/-- As many errors on both sides, unaffected exactly if told alike, can be
passed. -/
theorem Scan.Agreement.step {w t u : Text} {xs ys : List LexError}
    (h : Agreement s s' (pre ++ w) u)
    (hx : faults s (Position.start.after pre) t
      = xs ++ faults s (Position.start.after (pre ++ w)) u)
    (hy : faults s' (Position.start.after (Text.unifyNewlines pre)) (Text.unifyNewlines t)
      = ys ++ faults s' (Position.start.after (Text.unifyNewlines (pre ++ w)))
          (Text.unifyNewlines u))
    (hl : xs.length = ys.length)
    (hxy : xs.map LexError.told = ys.map LexError.told ↔ ∀ e ∈ xs, e.Unaffected) :
    Agreement s s' pre t := by
  unfold Agreement at h ⊢
  rw [hx, hy, List.map_append, List.map_append, List.forall_mem_append, ← hxy, ← h]
  constructor
  · intro heq
    exact List.append_inj heq (by rw [List.length_map, List.length_map, hl])
  · rintro ⟨h₁, h₂⟩
    rw [h₁, h₂]

/-- The error of a fault that stands after some text. -/
def Fault.errorAfter (cause : Fault) (s : Source) (pre b w : Text) : LexError :=
  ⟨cause.kind, cause.message, (Position.start.after pre).after b, s, w⟩

/-- **Where an error stands decides whether it is told alike**, unless the
error itself is affected. -/
theorem Fault.told_errorAfter_iff {cause : Fault} {b w w' v : Text}
    (hs : s.text = pre ++ b ++ v) (hb : ∀ {d : Char}, Lexicon.isLineEnd d = true → d ∉ b)
    (he : w ≠ ['\\', '\r']) (hq : w = ['\'', '\r'] → ¬ ['\n', '\''] <+: v.drop 2) :
    (cause.errorAfter s pre b w).told
        = (cause.errorAfter s' (Text.unifyNewlines pre) b w').told ↔
      (cause.errorAfter s pre b w).Unaffected := by
  have hparted : Text.Parted pre b := by
    refine Text.parted_of_head? fun hh => hb (d := '\n') rfl ?_
    exact List.mem_of_mem_head? hh
  have hunify : Text.unifyNewlines (pre ++ b) = Text.unifyNewlines pre ++ b := by
    rw [Text.unifyNewlines_append hparted, Text.unifyNewlines_of_not_mem (hb rfl)]
  have hplace := EditorPosition.ofPosition_after_unify_iff (pre ++ b)
  rw [hunify, Position.after_append, Position.after_append] at hplace
  have hoffset : (cause.errorAfter s pre b w).position.offset.toNat = (pre ++ b).length := by
    show ((Position.start.after pre).after b).offset.toNat = _
    rw [← Position.after_append, Position.offset_after_start, Int.toNat_natCast]
  have htake : s.text.take (pre ++ b).length = pre ++ b := by rw [hs, List.take_left]
  have hdrop : s.text.drop ((pre ++ b).length + 2) = v.drop 2 := by
    rw [← List.drop_drop, hs, List.drop_left]
  constructor
  · intro h
    have hp := hplace.1 (congrArg (·.2.2) h)
    refine ⟨?_, he, ?_⟩
    · show Text.Paired (s.text.take _)
      rw [hoffset, htake]
      exact hp
    · show _ → ¬ _ <+: s.text.drop _
      rw [hoffset, hdrop]
      exact hq
  · intro h
    have hp : Text.Paired (s.text.take _) := h.paired
    rw [hoffset, htake] at hp
    exact congrArg (fun x => (cause.kind, cause.message, x)) (hplace.2 hp)

namespace Scan

/-- **One reading on each side** can be passed, if what is told of the two is
decided. -/
theorem Agreement.read {r r' : Reading} {u : Text} (h : Agreement s s' (pre ++ r.consumed) u)
    (hp : Text.Parted pre (r.consumed ++ u)) (hu : Text.Parted r.consumed u)
    (hn : r.consumed ≠ []) (hb : r.Before u.head?) (hb' : r'.Before (Text.unifyNewlines u).head?)
    (hc : r'.consumed = Text.unifyNewlines r.consumed)
    (hl : (r.errors s (Position.start.after pre)).length
      = (r'.errors s' (Position.start.after (Text.unifyNewlines pre))).length)
    (hxy : (r.errors s (Position.start.after pre)).map LexError.told
        = (r'.errors s' (Position.start.after (Text.unifyNewlines pre))).map LexError.told ↔
      ∀ e ∈ r.errors s (Position.start.after pre), e.Unaffected) :
    Agreement s s' pre (r.consumed ++ u) := by
  have hn' : r'.consumed ≠ [] := hc ▸ Text.unifyNewlines_ne_nil hn
  have hp' : Text.Parted pre r.consumed := by
    intro hr
    rw [← List.head?_append_of_ne_nil _ hn]
    exact hp hr
  refine h.step ?_ ?_ hl hxy
  · rw [faults_read hb hn, Position.after_append]
  · rw [Text.unifyNewlines_append hu, Text.unifyNewlines_append hp', ← hc, faults_read hb' hn',
      Position.after_append]

/-- A lexeme that is one on the other side too can be passed. -/
theorem Agreement.lexeme {kind : TokenKind} {w u : Text} (h : Agreement s s' (pre ++ w) u)
    (hp : Text.Parted pre (w ++ u)) (hu : Text.Parted w u) (hn : w ≠ [])
    (hb : (Reading.lexeme kind w).Before u.head?)
    (hb' : (Reading.lexeme kind (Text.unifyNewlines w)).Before (Text.unifyNewlines u).head?) :
    Agreement s s' pre (w ++ u) :=
  Agreement.read (r := .lexeme kind w) h hp hu hn hb hb' rfl rfl
    (iff_of_true rfl (List.forall_mem_nil _))

/-- **A reading without a `CR`** is read on both sides. -/
theorem Agreement.same {r : Reading} {u : Text} (h : Agreement s s' (pre ++ r.consumed) u)
    (hs : s.text = pre ++ (r.consumed ++ u)) (hp : Text.Parted pre (r.consumed ++ u))
    (hn : r.consumed ≠ []) (hb : r.Before u.head?) (hr : '\r' ∉ r.consumed) :
    Agreement s s' pre (r.consumed ++ u) := by
  have hu : Text.Parted r.consumed u :=
    Text.parted_of_getLast? fun hl => hr (List.mem_of_getLast? hl)
  refine h.read hp hu hn hb hb.unifyNewlines (Text.unifyNewlines_of_not_mem hr).symm ?_ ?_
  · cases r <;> rfl
  · cases r with
    | lexeme kind w => exact iff_of_true rfl (List.forall_mem_nil _)
    | fault cause b w a =>
      have hw : '\r' ∉ w := fun hw => hr (List.mem_append_left a (List.mem_append_right b hw))
      have hs' : s.text = pre ++ b ++ (w ++ a ++ u) := by
        rw [hs]
        simp only [Reading.consumed, List.append_assoc]
      show [_] = [_] ↔ ∀ e ∈ [_], _
      rw [List.singleton_inj, List.forall_mem_singleton]
      refine Fault.told_errorAfter_iff hs' (fun hd => hb.not_mem_before hd) ?_ ?_
      · rintro rfl
        simp at hw
      · rintro rfl
        simp at hw

/-- Blank space does not end within a pair. -/
theorem parted_of_space {w u : Text} (hb : (Reading.lexeme .space w).Before u.head?) :
    Text.Parted w u := by
  refine Text.parted_of_head? fun hh => ?_
  rw [hh] at hb
  cases hb with
  | lexeme _ hnext => cases hnext '\n' rfl

/-- Blank space is passed on both sides. -/
theorem Agreement.space {w u : Text} (h : Agreement s s' (pre ++ w) u)
    (hp : Text.Parted pre (w ++ u)) (hn : w ≠ []) (hw : ∀ c ∈ w, Lexicon.isSpace c = true)
    (hb : (Reading.lexeme .space w).Before u.head?) : Agreement s s' pre (w ++ u) := by
  have hw' : ∀ c ∈ Text.unifyNewlines w, Lexicon.isSpace c = true := by
    intro c hc
    rcases Text.mem_of_mem_unifyNewlines hc with hc | rfl
    · exact hw c hc
    · rfl
  refine h.lexeme hp (parted_of_space hb) hn hb ?_
  cases hb.unifyNewlines with
  | lexeme _ hnext => exact .lexeme (.space (Text.unifyNewlines_ne_nil hn) hw') hnext

/-- A `CR` between quotes is a line feed between quotes on the other side. -/
theorem Agreement.charval {u : Text} (h : Agreement s s' (pre ++ ['\'', '\r', '\'']) u)
    (hp : Text.Parted pre (['\'', '\r', '\''] ++ u))
    (hb : (Reading.lexeme .charval ['\'', '\r', '\'']).Before u.head?) :
    Agreement s s' pre (['\'', '\r', '\''] ++ u) := by
  have hfits : (BodyUnit.plain '\n').Fits ['\''] := ⟨by decide, by decide⟩
  refine h.lexeme hp (Text.parted_of_getLast? (by decide)) (by decide) hb ?_
  exact .lexeme (.char hfits) fun _ _ => rfl

/-! ### A quote and a `CR` that is not closed -/

section Unclosed

variable {u v : Text}

/-- The reading of a quote and a line end that no quote follows. -/
theorem before_unclosed {d : Char} (hd : Lexicon.isLineEnd d = true) {next : Option Char}
    (hn : ∀ c ∈ next, c ≠ '\'') : (Reading.fault .unclosedChar [] ['\'', d] []).Before next := by
  have hfits : (BodyUnit.plain d).Fits ['\''] := by
    obtain rfl | rfl := Lexicon.isLineEnd_iff.1 hd <;> exact ⟨by decide, by decide⟩
  exact .unclosedChar hfits hn

/-- A character literal that is not closed has no quote after it. -/
theorem ne_quote_of_unclosed {b w a : Text} {next : Option Char}
    (h : (Reading.fault .unclosedChar b w a).Before next) : ∀ c ∈ next, c ≠ '\'' := by
  generalize hr : Reading.fault .unclosedChar b w a = r at h
  cases h with
  | unclosedChar _ hn => exact hn
  | _ => cases hr

/-- A text that begins with no quote still begins with none. -/
theorem head?_unifyNewlines_ne_quote (h : ∀ c ∈ v.head?, c ≠ '\'') :
    ∀ c ∈ (Text.unifyNewlines v).head?, c ≠ '\'' := by
  intro c hc
  rw [Text.head?_unifyNewlines] at hc
  obtain ⟨d, hd, rfl⟩ := Option.map_eq_some_iff.1 hc
  unfold Text.unifyChar
  split
  · decide
  · exact h d hd

/-- The two errors are told alike if they stand alike. -/
theorem told_unclosed_iff {w : Text} (hs : s.text = pre ++ (['\'', '\r'] ++ u))
    (hu : ¬ ['\n', '\''] <+: u) :
    ((Reading.fault .unclosedChar [] ['\'', '\r'] []).errors s (Position.start.after pre)).map
          LexError.told
        = ((Reading.fault .unclosedChar [] w []).errors s'
            (Position.start.after (Text.unifyNewlines pre))).map LexError.told ↔
      ∀ e ∈ (Reading.fault .unclosedChar [] ['\'', '\r'] []).errors s (Position.start.after pre),
        e.Unaffected := by
  show [_] = [_] ↔ ∀ e ∈ [_], _
  rw [List.singleton_inj, List.forall_mem_singleton]
  refine Fault.told_errorAfter_iff (b := []) (v := ['\'', '\r'] ++ u) ?_ (fun _ => by simp)
    (by decide) fun _ => hu
  rw [hs, List.append_nil]

/-- A lone `CR` is the payload on both sides. -/
theorem Agreement.unclosed_lone (h : Agreement s s' (pre ++ ['\'', '\r']) u)
    (hs : s.text = pre ++ (['\'', '\r'] ++ u)) (hp : Text.Parted pre (['\'', '\r'] ++ u))
    (hu : u.head? ≠ some '\n') (hq : ∀ c ∈ u.head?, c ≠ '\'') :
    Agreement s s' pre (['\'', '\r'] ++ u) := by
  have hno : ¬ ['\n', '\''] <+: u := by
    rintro ⟨x, rfl⟩
    exact hu rfl
  have hb' : (Reading.fault .unclosedChar [] ['\'', '\n'] []).Before
      (Text.unifyNewlines u).head? := before_unclosed rfl (head?_unifyNewlines_ne_quote hq)
  exact Agreement.read (r := .fault .unclosedChar [] ['\'', '\r'] []) h hp
    (Text.parted_of_head? hu) (by decide) (before_unclosed rfl hq) hb' rfl rfl
    (told_unclosed_iff hs hno)

/-- Of a pair the line feed is blank space here, and all of the payload
there. -/
theorem Agreement.unclosed_pair (h : Agreement s s' (pre ++ ['\'', '\r', '\n']) v)
    (hs : s.text = pre ++ (['\'', '\r'] ++ '\n' :: v))
    (hp : Text.Parted pre (['\'', '\r'] ++ '\n' :: v)) (hq : ∀ c ∈ v.head?, c ≠ '\'') :
    Agreement s s' pre (['\'', '\r'] ++ '\n' :: v) := by
  have hno : ¬ ['\n', '\''] <+: '\n' :: v := by
    intro hpre
    obtain ⟨x, rfl⟩ := (List.cons_prefix_cons.1 hpre).2
    exact hq '\'' rfl rfl
  have hx : faults s (Position.start.after pre) (['\'', '\r'] ++ '\n' :: v)
      = (Reading.fault .unclosedChar [] ['\'', '\r'] []).errors s (Position.start.after pre)
        ++ faults s (Position.start.after (pre ++ ['\'', '\r', '\n'])) v := by
    rw [Position.after_append]
    refine (faults_read (before_unclosed rfl (by simp)) (by decide)).trans (congrArg _ ?_)
    exact faults_spaces (v := ['\n']) (List.forall_mem_singleton.2 rfl) v
  have hy : faults s' (Position.start.after (Text.unifyNewlines pre))
        (Text.unifyNewlines (['\'', '\r'] ++ '\n' :: v))
      = (Reading.fault .unclosedChar [] ['\'', '\n'] []).errors s'
          (Position.start.after (Text.unifyNewlines pre))
        ++ faults s' (Position.start.after (Text.unifyNewlines (pre ++ ['\'', '\r', '\n'])))
            (Text.unifyNewlines v) := by
    rw [Text.unifyNewlines_append (b := ['\'', '\r', '\n']) hp, Position.after_append]
    exact faults_read (before_unclosed rfl (head?_unifyNewlines_ne_quote hq)) (by decide)
  exact h.step hx hy rfl (told_unclosed_iff hs hno)

/-- **With a quote after the pair there is no error there.** -/
theorem Agreement.unclosed_quote (hs : s.text = pre ++ (['\'', '\r'] ++ '\n' :: '\'' :: v)) :
    Agreement s s' pre (['\'', '\r'] ++ '\n' :: '\'' :: v) := by
  let e : LexError := ⟨Fault.unclosedChar.kind, Fault.unclosedChar.message,
    Position.start.after pre, s, ['\'', '\r']⟩
  have he : e ∈ faults s (Position.start.after pre) (['\'', '\r'] ++ '\n' :: '\'' :: v) := by
    have hx := faults_read (s := s) (p := Position.start.after pre)
      (r := .fault .unclosedChar [] ['\'', '\r'] []) (u := '\n' :: '\'' :: v)
      (before_unclosed rfl (by simp)) (by decide)
    exact hx.symm ▸ List.mem_append_left _ List.mem_cons_self
  refine iff_of_false (fun heq => ?_) (fun h => (h e he).quote rfl ?_)
  · -- whatever comes later there stands on a later line
    have hy : faults s' (Position.start.after (Text.unifyNewlines pre))
          (Text.unifyNewlines (['\'', '\r'] ++ '\n' :: '\'' :: v))
        = faults s' ((Position.start.after (Text.unifyNewlines pre)).after ['\'', '\n', '\''])
            (Text.unifyNewlines v) := by
      have hfits : (BodyUnit.plain '\n').Fits ['\''] := ⟨by decide, by decide⟩
      exact faults_read (r := .lexeme .charval ['\'', '\n', '\''])
        (.lexeme (.char hfits) fun _ _ => rfl) (by decide)
    have hmem := List.mem_map_of_mem (f := LexError.told) he
    rw [heq, hy] at hmem
    obtain ⟨e', he', htold⟩ := List.mem_map.1 hmem
    have hline : e'.position.line = e.position.line :=
      (EditorPosition.ofPosition_eq_iff.1 (congrArg (·.2.2) htold)).1
    have hle := line_le_of_mem_faults s' e' he'
    have hcount := (Text.count_unifyNewlines pre).1
    have hpre : e.position.line = 1 + pre.count '\n' := Position.line_after .start pre
    rw [hline, hpre, Position.line_after, Position.line_after] at hle
    change 1 + ((Text.unifyNewlines pre).count '\n' : Int) + 1 ≤ 1 + (pre.count '\n' : Int) at hle
    omega
  · show _ <+: s.text.drop ((Position.start.after pre).offset.toNat + 2)
    rw [Position.offset_after_start, Int.toNat_natCast, ← List.drop_drop, hs, List.drop_left]
    exact ⟨v, rfl⟩

end Unclosed

/-- **The escape of a `CR` is another escape there.** -/
theorem Agreement.escape (s s' : Source) (pre u : Text) :
    Agreement s s' pre (['\'', '\\', '\r'] ++ u) := by
  have hx := faults_read (s := s) (p := Position.start.after pre)
    (r := .fault (.badEscape '\r') ['\''] ['\\', '\r'] []) (u := u) (.charEscape (by decide))
    (by decide)
  obtain ⟨w, hw⟩ := Text.exists_unifyNewlines_return u
  have hunify : Text.unifyNewlines (['\'', '\\', '\r'] ++ u) = ['\'', '\\', '\n'] ++ w :=
    congrArg (['\'', '\\'] ++ ·) hw
  have hy := faults_read (s := s') (p := Position.start.after (Text.unifyNewlines pre))
    (r := .fault (.badEscape '\n') ['\''] ['\\', '\n'] []) (u := w) (.charEscape (by decide))
    (by decide)
  refine iff_of_false (fun heq => ?_) (fun h => ?_)
  · rw [hunify] at heq
    have hcons := (congrArg (List.map LexError.told) hx).symm.trans
      (heq.trans (congrArg (List.map LexError.told) hy))
    have hm : Escape.invalidMessage '\r' = Escape.invalidMessage '\n' :=
      congrArg (·.2.1) (List.cons.inj hcons).1
    exact absurd hm (by decide)
  · have he := hx.symm ▸ List.mem_append_left _ List.mem_cons_self
    exact (h _ he).escape rfl

/-- **A text and the unified text are told alike exactly if the errors to come
are unaffected**, from every place on. -/
theorem agreement (s s' : Source) (pre t : Text) (hs : s.text = pre ++ t)
    (hp : Text.Parted pre t) : Agreement s s' pre t := by
  induction t using reading_induction generalizing pre with
  | nil =>
    unfold Agreement
    rw [faults_nil]
    exact iff_of_true (congrArg _ (faults_nil s' _).symm) (List.forall_mem_nil _)
  | read r u hb hn ih =>
    have hrest : ∀ {w v : Text}, r.consumed ++ u = w ++ v → w ≠ [] → Text.Parted w v →
        Agreement s s' (pre ++ w) v := by
      intro w v hwv hw hwv'
      refine ih v ?_ (pre ++ w) (by rw [hs, hwv, List.append_assoc]) (hwv'.append_left hw pre)
      rw [hwv, List.length_append]
      exact Nat.lt_add_of_pos_left (List.length_pos_iff.2 hw)
    by_cases hr : '\r' ∈ r.consumed
    · rcases hb.lineEnd_cases rfl hr with ⟨w, rfl, hw⟩ | rfl | rfl | rfl
      · exact (hrest rfl hn (parted_of_space hb)).space hp hn hw hb
      · exact (hrest rfl hn (Text.parted_of_getLast? (by decide))).charval hp hb
      · have hq := ne_quote_of_unclosed hb
        by_cases hu : u.head? = some '\n'
        · obtain ⟨v, rfl⟩ := List.head?_eq_some_iff.1 hu
          by_cases hv : v.head? = some '\''
          · obtain ⟨v, rfl⟩ := List.head?_eq_some_iff.1 hv
            exact .unclosed_quote hs
          · refine Agreement.unclosed_pair ?_ hs hp fun c hc hcq => hv (hcq ▸ hc)
            exact hrest rfl (by decide) (Text.parted_of_getLast? (by decide))
        · exact (hrest rfl hn (Text.parted_of_head? hu)).unclosed_lone hs hp hu hq
      · exact Agreement.escape s s' pre u
    · exact (hrest rfl hn (Text.parted_of_getLast? fun hl => hr (List.mem_of_getLast? hl))).same
        hs hp hn hb hr

end Scan

end SideBySide

/-! ## An editor and a command line -/

/-- What an editor is told: the kind, the message, and where it starts. -/
def Diagnostic.told (d : Diagnostic) : FaultKind × Text × EditorPosition :=
  (d.code, d.message, d.start)

/-- **An editor and a command line are told the same errors exactly if all of
them are unaffected.** Let a file hold the bytes of a text. Then the file is
read, and a run that goes on after errors finds in it as many errors as there
are diagnostics for the text, each with the kind and message of its diagnostic
and where that starts, if and only if no error of the text stands after a `CR`
that stands alone, is the escape of a `CR`, or is a quote and a `CR` that a
line feed and another quote follow. -/
theorem diagnostics_eq_reports_iff (uri t : Text) {o : Settings} (hk : o.keepGoing = true) :
    ∃ text, Settings.inputText (Utf8.encode t) = .ok text ∧
      ((Publication.ofDocument uri t).diagnostics.map Diagnostic.told
          = (o.analyse text).errors.map LexError.told ↔
        ∀ e ∈ (Source.mk (Publication.documentName uri) t).survey.errors, e.Unaffected) := by
  let s : Source := ⟨Publication.documentName uri, t⟩
  let s' : Source := ⟨o.input.toText, Text.unifyNewlines t⟩
  have hread : Settings.inputText (Utf8.encode t) = .ok (Text.unifyNewlines t) := by
    rw [Settings.inputText, Utf8.decode_encode]
    rfl
  have hreports : (o.analyse (Text.unifyNewlines t)).errors = s'.survey.errors := by
    rw [Settings.analyse, if_pos hk]
  have hdiagnostics : (Publication.ofDocument uri t).diagnostics.map Diagnostic.told
      = s.survey.errors.map LexError.told := List.map_map
  refine ⟨_, hread, ?_⟩
  rw [hreports, hdiagnostics]
  exact Scan.agreement s s' [] t rfl (Text.parted_of_getLast? (by decide))

/-- Three errors in three lines that `CR LF` ends: the text is told as the file
is. -/
theorem diagnostics_eq_reports_iff_pairs :
    let t := "a @\r\n'x\r\n\"s\r\n".toList
    let o : Settings := ⟨Path.ofText "a.asl".toList, none, none, false, true, false⟩
    ∃ text, Settings.inputText (Utf8.encode t) = .ok text ∧
      (Publication.ofDocument "file:///a.asl".toList t).diagnostics.map Diagnostic.told
        = (o.analyse text).errors.map LexError.told := by
  intro t o
  obtain ⟨text, hread, hiff⟩ :=
    diagnostics_eq_reports_iff "file:///a.asl".toList t (o := o) rfl
  exact ⟨text, hread, hiff.2 (by decide +kernel)⟩

/-- **A lone `CR` puts the two on different lines.** The one error of this text
is told at the third character of the first line, and that of the file at the
first character of the second. -/
theorem diagnostics_ne_reports_return :
    let t := "a\r@".toList
    let o : Settings := ⟨Path.ofText "a.asl".toList, none, none, false, true, false⟩
    (Publication.ofDocument "file:///a.asl".toList t).diagnostics.map Diagnostic.told
        = [(.unexpectedCharacter, "unexpected character".toList, ⟨0, 2⟩)] ∧
      (Settings.inputText (Utf8.encode t)).map
          (fun text => (o.analyse text).errors.map LexError.told)
        = .ok [(.unexpectedCharacter, "unexpected character".toList, ⟨1, 0⟩)] := by
  constructor <;> decide +kernel

-- a pair between quotes is one character of the file, and two of the text
example :
    let o : Settings := ⟨Path.ofText "a.asl".toList, none, none, false, true, false⟩
    (Publication.ofDocument [] "'\r\n'".toList).diagnostics.length = 2 ∧
      (Settings.inputText (Utf8.encode "'\r\n'".toList)).map (fun text => (o.analyse text).errors)
        = .ok [] := by
  constructor <;> decide +kernel

end Asl
