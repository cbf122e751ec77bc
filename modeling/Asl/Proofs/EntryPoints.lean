import Asl.Cursor
import Asl.Run
import Asl.Proofs.Calls

/-!
# The ways of reading a source agree

A source can be read in several ways: up to its first error or to its end,
with hidden tokens or without, as a list or through a cursor, and as the
file of a command line. They are different runs of the same scan, and this
module shows that they tell the same.

The argument is about two runs, the one that gives up at an error and the
one that resumes. They ask the same scan the same questions until the first
error, so they go in step up to there (`Scan.tokens_eq`). All other
readings leave something out of one of these two.
-/

namespace Asl

/-! ## Up to the first error and to the end -/

namespace Scan

/-- **The two runs go in step up to the first error**, and tell the same if
there is none. -/
theorem tokens_eq (x : Scan) :
    x.tokens true = match x.survey.errors with
      | [] => .ok x.survey.tokens
      | e :: _ => .error e := by
  fun_induction calls x with
  | case1 x e x' hn _ => rw [tokens_of_error true hn, survey_of_error hn]
  | case2 x t x' hn ht =>
    rw [tokens_of_eof true hn ht, survey_of_eof hn ht]
    rfl
  | case3 x t x' hn ht ih =>
    rw [tokens_of_token true hn ht, ih, survey_of_token hn ht]
    cases x'.survey.errors <;> rfl

/-- **Hidden tokens are left out of the tokens, and nothing else is.** -/
theorem tokens_false (x : Scan) : x.tokens false = (x.tokens true).map Token.visible := by
  fun_induction calls x with
  | case1 x e x' hn _ =>
    rw [tokens_of_error false hn, tokens_of_error true hn]
    rfl
  | case2 x t x' hn ht =>
    rw [tokens_of_eof false hn ht, tokens_of_eof true hn ht]
    cases hh : t.isHidden <;> simp [Except.map, Token.visible, hh]
  | case3 x t x' hn ht ih =>
    rw [tokens_of_token false hn ht, tokens_of_token true hn ht, ih]
    cases x'.tokens true with
    | error e => rfl
    | ok ts => cases hh : t.isHidden <;> simp [Except.map, Token.visible, hh]

/-- The tokens end with the end token. -/
theorem getLast?_tokens {x : Scan} {ts : List Token} (h : x.tokens true = .ok ts) :
    ∃ p, ts.getLast? = some (.eofAt p) := by
  fun_induction calls x generalizing ts with
  | case1 x e x' hn _ =>
    rw [tokens_of_error true hn] at h
    cases h
  | case2 x t x' hn ht =>
    rw [tokens_of_eof true hn ht] at h
    obtain ⟨rfl, -⟩ := eq_of_eof hn ht
    cases h
    exact ⟨x.position, rfl⟩
  | case3 x t x' hn ht ih =>
    rw [tokens_of_token true hn ht] at h
    cases hu : x'.tokens true with
    | error e => rw [hu] at h; cases h
    | ok us =>
      rw [hu] at h
      cases h
      obtain ⟨p, hp⟩ := ih hu
      refine ⟨p, ?_⟩
      show (t :: us).getLast? = _
      rw [List.getLast?_cons, hp]
      rfl

/-- A run that ends with an error was given tokens before it, and these are
the first the other run collects. -/
theorem run_next_of_error {x : Scan} {e : LexError} (h : x.tokens true = .error e) :
    ∃ ts, (x.run (List.replicate (ts.length + 1) .next)).1 = ts.map .token ++ [.error e] ∧
      ts <+: x.survey.tokens := by
  fun_induction calls x with
  | case1 x d x' hn _ =>
    rw [tokens_of_error true hn] at h
    cases h
    refine ⟨[], ?_, List.nil_prefix⟩
    show [x.next.1] ++ [] = _
    rw [hn]
    rfl
  | case2 x t x' hn ht =>
    rw [tokens_of_eof true hn ht] at h
    cases h
  | case3 x t x' hn ht ih =>
    rw [tokens_of_token true hn ht] at h
    cases hu : x'.tokens true with
    | ok us => rw [hu] at h; cases h
    | error d =>
      rw [hu] at h
      cases h
      obtain ⟨ts, hr, hp⟩ := ih hu
      refine ⟨t :: ts, ?_, ?_⟩
      · show [x.next.1] ++ (x.next.2.run (List.replicate (ts.length + 1) .next)).1 = _
        rw [hn, hr]
        rfl
      · rw [survey_of_token hn ht]
        exact List.cons_prefix_cons.2 ⟨rfl, hp⟩

end Scan

namespace Source

theorem tokens_eq (s : Source) :
    s.tokens true = match s.survey.errors with
      | [] => .ok s.survey.tokens
      | e :: _ => .error e :=
  Scan.tokens_eq (.start s)

variable {s : Source}

theorem tokens_eq_ok_iff {ts : List Token} :
    s.tokens true = .ok ts ↔ s.survey.errors = [] ∧ ts = s.survey.tokens := by
  rw [tokens_eq]
  cases s.survey.errors with
  | nil => simp [eq_comm]
  | cons e es => simp

theorem tokens_eq_error_iff {e : LexError} :
    s.tokens true = .error e ↔ s.survey.errors.head? = some e := by
  rw [tokens_eq]
  cases s.survey.errors with
  | nil => simp
  | cons d es => simp

end Source

/-! ## Through a cursor -/

theorem Token.visible_visible (ts : List Token) : visible (visible ts) = visible ts := by
  simp [visible]

/-- The visible tokens end with the end token if all of them do. -/
theorem Token.getLast?_visible {ts : List Token} {p : Position}
    (h : ts.getLast? = some (.eofAt p)) : (visible ts).getLast? = some (.eofAt p) := by
  obtain ⟨us, rfl⟩ := List.getLast?_eq_some_iff.1 h
  rw [visible, List.filter_append]
  exact List.getLast?_concat

namespace Cursor

/-- Tokens that end with the end token have a cursor, and it stands on the
visible ones. -/
theorem ofTokens_eq {ts : List Token} {p : Position} (s : Source)
    (h : (Token.visible ts).getLast? = some (.eofAt p)) :
    ∃ c, ofTokens s ts = .ok c ∧ c.tokens = Token.visible ts := by
  have he : (Token.visible ts).getLast?.map Token.kind = some .eof := by rw [h]; rfl
  refine ⟨⟨s, Token.visible ts, 0, he, length_pos_of_ends he⟩, ?_, rfl⟩
  rw [ofTokens, ofTokens?, dif_pos he]

/-- A cursor does not tell whether it was given the hidden tokens. -/
theorem ofTokens_visible (s : Source) (ts : List Token) :
    ofTokens s (Token.visible ts) = ofTokens s ts := by
  unfold ofTokens ofTokens?
  simp only [Token.visible_visible]

/-- **A cursor over a source stands on the tokens of the source.** It makes no
difference whether it is given all of them or the visible ones, and an error
of the source is the error of both. -/
theorem ofSource_eq (s : Source) :
    ofSource s = ((s.tokens true).mapError CursorError.lexical).bind (ofTokens s) ∧
      (ofSource s).map Cursor.tokens = (s.tokens false).mapError .lexical := by
  have hf : s.tokens false = (s.tokens true).map Token.visible := Scan.tokens_false (.start s)
  unfold ofSource
  rw [hf]
  cases ht : s.tokens true with
  | error e => exact ⟨rfl, rfl⟩
  | ok ts =>
    obtain ⟨p, hp⟩ := Scan.getLast?_tokens ht
    obtain ⟨c, hc, hct⟩ := ofTokens_eq s (Token.getLast?_visible hp)
    refine ⟨ofTokens_visible s ts, ?_⟩
    show (ofTokens s (Token.visible ts)).map Cursor.tokens = .ok (Token.visible ts)
    rw [ofTokens_visible, hc, ← hct]
    rfl

end Cursor

/-! ## As the file of a command line -/

namespace Settings

section Stops

variable {o : Settings} (hk : o.keepGoing = false) {text : Text}
include hk

theorem analyse_of_ok {ts : List Token} (h : (Source.mk o.input.toText text).tokens true = .ok ts) :
    o.analyse text = ⟨o.listed ts, [], [o.openingLog text]⟩ := by
  simp only [analyse, hk, Bool.false_eq_true, if_false, h]

theorem analyse_of_error {e : LexError}
    (h : (Source.mk o.input.toText text).tokens true = .error e) :
    o.analyse text = ⟨[], [e], [o.openingLog text]⟩ := by
  simp only [analyse, hk, Bool.false_eq_true, if_false, h]

end Stops

/-- **Going on after an error changes nothing where there is none.** Otherwise
the first error is the one that is told when the analysis does not go on. -/
theorem analyse_agrees (o : Settings) (text : Text) :
    let on := ({ o with keepGoing := true } : Settings).analyse text
    let off := ({ o with keepGoing := false } : Settings).analyse text
    (on.errors = [] → off.tokens = on.tokens ∧ off.errors = []) ∧
      ∀ e, on.errors.head? = some e → off.tokens = [] ∧ off.errors = [e] := by
  intro on off
  refine ⟨fun h => ?_, fun e h => ?_⟩
  · have hoff : off = _ := analyse_of_ok rfl (Source.tokens_eq_ok_iff.2 ⟨h, rfl⟩)
    rw [hoff]
    exact ⟨rfl, rfl⟩
  · have hoff : off = _ := analyse_of_error rfl (Source.tokens_eq_error_iff.2 h)
    rw [hoff]
    exact ⟨rfl, rfl⟩

end Settings

/-- **All readings of a source agree.** Its tokens come out exactly if its
survey has no error, and they are then those of the survey. Otherwise the
first error of the survey comes out, and the tokens that were given before it
are the first of the survey. The tokens without the hidden ones are the
visible tokens; a cursor over the source stands on them, whether or not the
hidden ones were left out first; and the error of one is the error of all.
A file is analysed alike whether or not the analysis goes on after an error,
if there is no error, and otherwise the error told is the first one. -/
theorem Source.readings_agree (s : Source) :
    (∀ ts, s.tokens true = .ok ts ↔ s.survey.errors = [] ∧ ts = s.survey.tokens) ∧
    (∀ e, s.tokens true = .error e ↔ s.survey.errors.head? = some e) ∧
    (∀ e, s.tokens true = .error e →
      ∃ ts, ((Scan.start s).run (List.replicate (ts.length + 1) .next)).1
          = ts.map .token ++ [.error e] ∧ ts <+: s.survey.tokens) ∧
    s.tokens false = (s.tokens true).map Token.visible ∧
    s.visibleTokens = s.tokens false ∧
    (Cursor.ofSource s).map Cursor.tokens = (s.tokens false).mapError .lexical ∧
    Cursor.ofSource s = ((s.tokens true).mapError .lexical).bind (Cursor.ofTokens s) ∧
    ∀ o : Settings,
      let on := ({ o with keepGoing := true } : Settings).analyse s.text
      let off := ({ o with keepGoing := false } : Settings).analyse s.text
      (on.errors = [] → off.tokens = on.tokens ∧ off.errors = []) ∧
        ∀ e, on.errors.head? = some e → off.tokens = [] ∧ off.errors = [e] := by
  refine ⟨fun ts => tokens_eq_ok_iff, fun e => tokens_eq_error_iff,
    fun e => Scan.run_next_of_error, Scan.tokens_false _, rfl, ?_, ?_, fun o => ?_⟩
  · exact (Cursor.ofSource_eq s).2
  · exact (Cursor.ofSource_eq s).1
  · exact o.analyse_agrees s.text

end Asl
