import Asl.Proofs.CursorRuns
import Asl.Proofs.Head
import Asl.Proofs.StringExtent

/-!
# A scan with a head has no lapse

The scan of the library and the scan with a head are one scan. Every head
that is reached stands after a beginning of its source (`Head.after`), and
then all it does can be said of the rest: the character under it is the first
of the rest, a step forward adds that character to the beginning, and a loop
adds a run. So each handler reads what the step of the library reads, and
comes to something in doing so (`Head.read_after`). A step forward that no
loop makes is preceded, on every path, by a look at the character it passes;
a loop makes none unless its condition has seen a character
(`Head.passWhile_after`).

The loop over a string literal is followed along the units of the literal
(`StringBody.Reaches`), one turn for each of them. A backslash that the line
leaves alone takes a turn without a second step forward. Of the bad escapes
the loop keeps the first, and that is the one the step reports
(`Head.badEscape?_cons`).

What holds of one call holds of any number: a scan with a head stays beside
the scan of the library (`HeadScan.Beside.run`).
-/

namespace Asl

/-! ## The head after a beginning of a source -/

namespace Head

/-- **The head after a beginning of a source.** -/
def after (s : Source) (pre : Text) : Head :=
  ⟨s, (Position.start.after pre).line, (Position.start.after pre).column, pre.length⟩

variable {s : Source} {pre t : Text}

theorem place_after (s : Source) (pre : Text) : (after s pre).place = Position.start.after pre := by
  unfold place after
  rw [← Position.offset_after_start]

theorem peek_after (h : s.text = pre ++ t) : (after s pre).peek = t.head? := by
  show s.text[pre.length]? = _
  rw [h, List.getElem?_append_right (Nat.le_refl _), Nat.sub_self, List.head?_eq_getElem?]

theorem isInside_after (h : s.text = pre ++ t) : (after s pre).isInside = !t.isEmpty := by
  show decide (pre.length < s.text.length) = _
  rw [h, List.length_append]
  cases t with
  | nil => simp
  | cons c t => simp

/-- A step forward is a character more of the beginning. -/
theorem advance_after {c : Char} (h : s.text = pre ++ c :: t) :
    (after s pre).advance = .ok (c, after s (pre ++ [c])) := by
  have hc : (after s pre).source.text[(after s pre).offset]? = some c := peek_after h
  unfold advance
  rw [hc]
  unfold after
  rw [Position.after_append, Position.after_cons, Position.after_nil, List.length_append]
  unfold Position.advance
  dsimp only
  split <;> rfl

/-- What has been passed since a beginning is what has been added to it. -/
theorem since_after {w : Text} (h : s.text = pre ++ (w ++ t)) :
    (after s (pre ++ w)).since (after s pre).place = w := by
  show s.text.slice pre.length (pre ++ w).length = w
  rw [h, List.length_append, Int.natCast_add]
  exact Text.slice_append pre w t

/-- A character that has been passed belongs to the beginning. -/
theorem passed {c : Char} (h : s.text = pre ++ c :: t) : s.text = pre ++ [c] ++ t := by
  rw [h, List.append_assoc, List.singleton_append]

theorem head?_ne {c : Char} (h : ∀ u, t = c :: u → False) : ¬ t.head? = some c :=
  fun hd => (List.head?_eq_some_iff.1 hd).elim h

/-! ## Loops -/

/-- **A loop passes a run** if its condition asks for the run to go on. -/
theorem passWhile_after {cond : Head → Bool} {p : Char → Bool}
    (hcond : ∀ pre t, s.text = pre ++ t → cond (after s pre) = t.head?.any p)
    (h : s.text = pre ++ t) :
    (after s pre).passWhile cond = .ok (after s (pre ++ t.takeWhile p)) := by
  induction t generalizing pre with
  | nil =>
    rw [passWhile_of_false (hcond pre [] h), List.takeWhile_nil, List.append_nil]
  | cons c t ih =>
    have hc := hcond pre (c :: t) h
    cases hp : p c with
    | false =>
      rw [passWhile_of_false (hc.trans hp), List.takeWhile_cons_of_neg (by simp [hp]),
        List.append_nil]
    | true =>
      rw [passWhile_of_advance (hc.trans hp) (advance_after h), ih (passed h),
        List.takeWhile_cons_of_pos hp, List.append_assoc]
      rfl

/-- A loop that is entered passes the first character. -/
theorem passWhile_cons {cond : Head → Bool} {p : Char → Bool} {c : Char}
    (hcond : ∀ pre t, s.text = pre ++ t → cond (after s pre) = t.head?.any p) (hc : p c = true)
    (h : s.text = pre ++ c :: t) :
    (after s pre).passWhile cond = .ok (after s (pre ++ c :: t.takeWhile p)) := by
  rw [passWhile_after hcond h, List.takeWhile_cons_of_pos hc]

theorem text_eq_run (p : Char → Bool) {c : Char} (h : s.text = pre ++ c :: t) :
    s.text = pre ++ (c :: t.takeWhile p ++ t.dropWhile p) := by
  rw [h, List.cons_append, List.takeWhile_append_dropWhile]

theorem inWord_after (pre t : Text) (h : s.text = pre ++ t) :
    (after s pre).inWord = t.head?.any Lexicon.isWordChar :=
  congrArg (Option.any _) (peek_after h)

theorem inNumber_after (pre t : Text) (h : s.text = pre ++ t) :
    (after s pre).inNumber = t.head?.any Lexicon.isDigit :=
  congrArg (Option.any _) (peek_after h)

theorem inSpace_after (pre t : Text) (h : s.text = pre ++ t) :
    (after s pre).inSpace = t.head?.any Lexicon.isSpace := by
  unfold inSpace
  rw [isInside_after h, peek_after h]
  cases t with
  | nil => rfl
  | cons c t => rfl

theorem inComment_after (pre t : Text) (h : s.text = pre ++ t) :
    (after s pre).inComment = t.head?.any fun c => !Lexicon.isLineEnd c := by
  unfold inComment
  rw [isInside_after h, peek_after h]
  cases t with
  | nil => rfl
  | cons c t => rfl

theorem isCut_after (pre t : Text) (h : s.text = pre ++ t) :
    (after s pre).isCut = t.head?.all Lexicon.isLineEnd :=
  congrArg (Option.all _) (peek_after h)

/-! ## Handlers -/

/-- **What a handler gives if it reads as the step does**, after a beginning of
a source. -/
def gives (s : Source) (pre : Text) (st : Step) : Except Lapse (Event × Head) :=
  .ok (st.reading.event s (Position.start.after pre), after s (pre ++ st.reading.consumed))

theorem ok_token (kind : TokenKind) {pre' w u : Text} (h : s.text = pre ++ (w ++ u))
    (hw : pre' = pre ++ w) :
    .ok ((after s pre').token kind (after s pre).place, after s pre')
      = gives s pre (.ofLexeme kind w u) := by
  subst hw
  unfold token gives
  rw [since_after h, place_after, place_after, Position.after_append]
  rfl

theorem complaint_after (cause : Fault) {w u : Text} (h : s.text = pre ++ (w ++ u)) :
    (after s (pre ++ w)).complaint cause (after s pre).place
      = ⟨cause.kind, cause.message, Position.start.after pre, s, w⟩ := by
  unfold complaint
  rw [since_after h, place_after]
  rfl

theorem ok_complaint (cause : Fault) {pre' w u : Text} (h : s.text = pre ++ (w ++ u))
    (hw : pre' = pre ++ w) :
    .ok (.error ((after s pre').complaint cause (after s pre).place), after s pre')
      = gives s pre (.ofFault cause w u) := by
  subst hw
  have hconsumed : (Step.ofFault cause w u).reading.consumed = w := List.append_nil w
  unfold gives
  rw [complaint_after cause h, hconsumed]
  rfl

theorem single_after {c : Char} {kind : TokenKind} (hk : Lexicon.punctuation.lookup c = some kind)
    (h : s.text = pre ++ c :: t) : (after s pre).single = gives s pre (.ofLexeme kind [c] t) := by
  simp only [single, advance_after h, Lapse.ok_bind, hk]
  exact ok_token kind h rfl

theorem comparison_after {c : Char} {alone : Option TokenKind} {withEquals : TokenKind}
    (hk : Lexicon.comparisons.lookup c = some (alone, withEquals)) (h : s.text = pre ++ c :: t) :
    (after s pre).comparison = gives s pre (.comparison c alone withEquals t) := by
  have hc := passed h
  simp only [comparison, advance_after h, Lapse.ok_bind, hk, peek_after hc]
  fun_cases Step.comparison with
  | case1 u =>
    rw [if_pos List.head?_cons, advance_after hc]
    exact ok_token withEquals (w := [c, '=']) h (List.append_assoc ..)
  | case2 t hne kind =>
    rw [if_neg (head?_ne hne)]
    exact ok_token kind h rfl
  | case3 t hne =>
    rw [if_neg (head?_ne hne)]
    exact ok_complaint (.bareOperator c) h rfl

theorem slash_after (h : s.text = pre ++ '/' :: t) :
    (after s pre).slash = gives s pre (.slash t) := by
  have hc := passed h
  simp only [slash, Step.slash, advance_after h, Lapse.ok_bind, peek_after hc]
  split
  · rw [passWhile_after inComment_after hc]
    exact ok_token .comment (text_eq_run _ h) (List.append_assoc ..)
  · exact ok_token .div h rfl

theorem word_after {c : Char} (hc : Lexicon.isWordChar c = true) (h : s.text = pre ++ c :: t) :
    (after s pre).word = gives s pre (.word c t) := by
  have hrun := text_eq_run Lexicon.isWordChar h
  simp only [word, passWhile_cons inWord_after hc h, Lapse.ok_bind, since_after hrun]
  exact ok_token _ hrun rfl

theorem space_after {c : Char} (hc : Lexicon.isSpace c = true) (h : s.text = pre ++ c :: t) :
    (after s pre).space = gives s pre (.space c t) := by
  simp only [space, passWhile_cons inSpace_after hc h, Lapse.ok_bind]
  exact ok_token .space (text_eq_run _ h) rfl

theorem fraction_after {digits : Text} (h : s.text = pre ++ (digits ++ '.' :: t)) :
    (after s (pre ++ digits ++ ['.'])).fraction (after s pre).place
      = gives s pre (.fraction digits t) := by
  obtain ⟨ds, u, rfl, hds, hu⟩ := Text.exists_run Lexicon.isDigit t
  have hpoint : s.text = pre ++ digits ++ ['.'] ++ (ds ++ u) := by
    rw [h]
    simp
  simp only [fraction, inNumber_after _ _ hpoint, passWhile_after inNumber_after hpoint,
    Lapse.ok_bind]
  cases ds with
  | nil =>
    have hnone : u.head?.any Lexicon.isDigit = false := by
      cases hd : u.head? with
      | none => rfl
      | some d => exact hu d hd
    rw [List.nil_append, if_neg (Bool.eq_false_iff.1 hnone), Step.fraction_missing hu]
    refine ok_complaint .missingFraction ?_ (List.append_assoc ..)
    rw [h, List.append_assoc]
    rfl
  | cons d ds =>
    have hsome : (d :: ds ++ u).head?.any Lexicon.isDigit = true := hds d List.mem_cons_self
    rw [if_pos hsome, Text.takeWhile_run hds hu, Step.fraction_run (List.cons_ne_nil d ds) hds hu]
    refine ok_token .floatval ?_ (by simp)
    rw [h, List.append_assoc]
    rfl

theorem number_after {c : Char} (hc : Lexicon.isDigit c = true) (h : s.text = pre ++ c :: t) :
    (after s pre).number = gives s pre (.number c t) := by
  have hrun := text_eq_run Lexicon.isDigit h
  have hend := hrun
  rw [← List.append_assoc] at hend
  simp only [number, passWhile_cons inNumber_after hc h, Lapse.ok_bind, peek_after hend]
  fun_cases Step.number with
  | case1 digits u hu =>
    rw [hu] at hrun hend ⊢
    rw [if_pos List.head?_cons, advance_after hend]
    exact fraction_after hrun
  | case2 digits hne =>
    rw [if_neg (head?_ne hne)]
    exact ok_token .intval hrun rfl

theorem closeChar_after {pre' w : Text} (h : s.text = pre ++ (w ++ t)) (hw : pre' = pre ++ w) :
    (after s pre').closeChar (after s pre).place = gives s pre (.closeChar w t) := by
  have hc : s.text = pre' ++ t := by rw [h, hw, List.append_assoc]
  simp only [closeChar, peek_after hc]
  fun_cases Step.closeChar with
  | case1 u =>
    rw [if_pos List.head?_cons, advance_after hc]
    refine ok_token .charval ?_ (by rw [hw, List.append_assoc])
    rw [h, List.append_assoc]
    rfl
  | case2 t hne =>
    rw [if_neg (head?_ne hne)]
    exact ok_complaint .unclosedChar h hw

theorem charLiteral_after (h : s.text = pre ++ '\'' :: t) :
    (after s pre).charLiteral = gives s pre (.charLiteral t) := by
  have hq := passed h
  simp only [charLiteral, advance_after h, Lapse.ok_bind, peek_after hq]
  fun_cases Step.charLiteral with
  | case1 => exact ok_complaint .openChar h rfl
  | case2 u =>
    simp only [List.head?_cons, advance_after hq, Lapse.ok_bind]
    exact ok_complaint .emptyChar (w := ['\'', '\'']) h (List.append_assoc ..)
  | case3 =>
    simp only [List.head?_cons, advance_after hq, Lapse.ok_bind, peek_after (passed hq)]
    exact ok_complaint .openChar (w := ['\'', '\\']) h (List.append_assoc ..)
  | case4 code u hcode =>
    have hb := passed hq
    simp only [List.head?_cons, advance_after hq, Lapse.ok_bind, peek_after hb, advance_after hb,
      if_pos hcode]
    exact closeChar_after (w := ['\'', '\\', code]) h (by simp)
  | case5 code u hcode =>
    have hb := passed hq
    simp only [List.head?_cons, advance_after hq, Lapse.ok_bind, peek_after hb, advance_after hb,
      if_neg hcode]
    rw [List.append_assoc (pre ++ _), complaint_after (.badEscape code) hq]
    unfold gives
    rw [Position.after_append, List.append_assoc]
    rfl
  | case6 c u hquote hlone hpair =>
    have hb : c ≠ '\\' := by
      rintro rfl
      cases u with
      | nil => exact hlone rfl rfl
      | cons d u => exact hpair d u rfl rfl
    simp only [List.head?_cons, advance_after hq, Lapse.ok_bind]
    exact closeChar_after (w := ['\'', c]) h (List.append_assoc ..)

/-! ## String literals -/

section StringLiteral

/-- The error about the first pair that is no escape, among units that follow a
beginning of a source. -/
def badEscape? (s : Source) (pre : Text) (us : List BodyUnit) : Option LexError :=
  (StringBody.firstBad us).map fun r =>
    ⟨.invalidEscape, (Fault.badEscape r.2.1).message,
      Position.start.after (pre ++ StringBody.text r.1), s, ['\\', r.2.1]⟩

/-- **The first of the errors is kept**: that of the first unit, else that of the
units behind it. -/
theorem badEscape?_cons (s : Source) (pre : Text) (u : BodyUnit) (us : List BodyUnit) :
    badEscape? s pre (u :: us) = (badEscape? s pre [u]).or (badEscape? s (pre ++ u.text) us) := by
  unfold badEscape?
  cases u with
  | plain c =>
    simp only [StringBody.firstBad, Option.map_none, Option.none_or, Option.map_map]
    refine congrArg (Option.map · _) (funext fun r => ?_)
    simp [BodyUnit.text]
  | pair code =>
    cases hc : Escape.isCode code with
    | true =>
      simp only [StringBody.firstBad, hc, if_true, Option.map_none, Option.none_or, Option.map_map]
      refine congrArg (Option.map · _) (funext fun r => ?_)
      simp [BodyUnit.text]
    | false =>
      simp only [StringBody.firstBad, hc, Bool.false_eq_true, if_false, Option.map_some,
        Option.some_or]

variable (p : Position) (bad : Option LexError)

theorem stringTurn_of_cut (h : s.text = pre ++ t) (ht : t.head?.all Lexicon.isLineEnd = true) :
    stringTurn p bad (after s pre)
      = .ok (.leave (bad.elim (.error ((after s pre).complaint .openString p)) .error)
          (after s pre)) := by
  simp only [stringTurn, isCut_after _ _ h, if_pos ht]
  rfl

theorem stringTurn_of_quote (h : s.text = pre ++ '"' :: t) :
    stringTurn p bad (after s pre)
      = .ok (.leave (bad.elim ((after s (pre ++ ['"'])).token .stringval p) .error)
          (after s (pre ++ ['"']))) := by
  simp only [stringTurn, isCut_after _ _ h, peek_after h, advance_after h, Lapse.ok_bind]
  rfl

theorem stringTurn_of_pair {code : Char} (hl : Lexicon.isLineEnd code = false)
    (h : s.text = pre ++ '\\' :: code :: t) :
    stringTurn p bad (after s pre)
      = .ok (.again (bad.or (badEscape? s pre [.pair code])) (after s (pre ++ ['\\', code]))) := by
  have hb := passed h
  have hslash : Lexicon.isLineEnd '\\' = false := rfl
  have hquote : ¬ some '\\' = some '"' := by decide
  simp only [stringTurn, isCut_after _ _ h, peek_after h, advance_after h, Lapse.ok_bind,
    isCut_after _ _ hb, advance_after hb, List.head?_cons, Option.all_some, hslash, hl, hquote,
    Bool.false_eq_true, if_false, if_true, List.append_assoc]
  rw [complaint_after (.badEscape code) h]
  unfold badEscape? StringBody.firstBad
  cases Escape.isCode code with
  | true => exact (congrArg (fun b => Except.ok (Turn.again b _)) Option.or_none).symm
  | false =>
    show Except.ok (Turn.again (bad.or (some ⟨_, _, Position.start.after pre, _, _⟩)) _)
      = .ok (.again (bad.or (some ⟨_, _, Position.start.after (pre ++ []), _, _⟩)) _)
    rw [List.append_nil]
    rfl

theorem stringTurn_of_plain {c : Char} (hq : c ≠ '"') (hl : Lexicon.isLineEnd c = false)
    (hb : c = '\\' → ∀ d ∈ t.head?, Lexicon.isLineEnd d = true) (h : s.text = pre ++ c :: t) :
    stringTurn p bad (after s pre) = .ok (.again bad (after s (pre ++ [c]))) := by
  simp only [stringTurn, isCut_after _ _ h, peek_after h, advance_after h, Lapse.ok_bind,
    isCut_after _ _ (passed h), List.head?_cons, Option.all_some, hl, Bool.false_eq_true,
    if_false, Option.some.injEq, hq]
  split
  · next hc =>
    have hend : t.head?.all Lexicon.isLineEnd = true := (Option.all_eq_true _ _).2 (hb hc)
    rw [if_pos hend]
    rfl
  · rfl

/-- **What the end of a string literal comes to**: its error if it has one, else
the literal or the complaint that it is open. -/
def stringEnd (s : Source) (pre rest : Text) : Event × Head :=
  let h := after s (pre ++ (Step.closing rest).1)
  (bad.elim (match (Step.closing rest).1 with
    | [] => .error (h.complaint .openString p)
    | _ => h.token .stringval p) .error, h)

/-- **The loop over a string literal passes its units**, and keeps the first of
its errors. -/
theorem stringRest_after {us : List BodyUnit} {rest : Text} (hr : StringBody.Reaches t us rest)
    (h : s.text = pre ++ t) :
    stringRest p bad (after s pre)
      = .ok (stringEnd p (bad.or (badEscape? s pre us)) s (pre ++ StringBody.text us) rest) := by
  induction hr generalizing pre bad with
  | @stop t ht =>
    have hbad : bad.or (badEscape? s pre []) = bad := Option.or_none
    rw [hbad, StringBody.text_nil, List.append_nil]
    by_cases hq : t.head? = some '"'
    · obtain ⟨v, rfl⟩ := List.head?_eq_some_iff.1 hq
      exact stringRest_of_leave (stringTurn_of_quote p bad h)
    · have hend : ∀ d ∈ t.head?, Lexicon.isLineEnd d = true := by
        intro d hd
        refine (ht d hd).resolve_left ?_
        rintro rfl
        exact hq hd
      unfold stringEnd
      rw [Step.closing_of_isLineEnd hend, List.append_nil]
      exact stringRest_of_leave (stringTurn_of_cut p bad h ((Option.all_eq_true _ _).2 hend))
  | @pair code t rest us hc _ ih =>
    have hnext : s.text = pre ++ ['\\', code] ++ t := by
      rw [h, List.append_assoc]
      rfl
    rw [stringRest_of_again (stringTurn_of_pair p bad hc h), ih _ hnext, Option.or_assoc,
      List.append_assoc, badEscape?_cons s pre (.pair code) us]
    rfl
  | @plain c t rest us hq hl hb _ ih =>
    rw [stringRest_of_again (stringTurn_of_plain p bad hq hl hb h), ih _ (passed h),
      List.append_assoc, badEscape?_cons]
    rfl

theorem stringLiteral_after (h : s.text = pre ++ '"' :: t) :
    (after s pre).stringLiteral = gives s pre (.stringLiteral t) := by
  obtain ⟨us, rest, hr⟩ : ∃ us rest, StringBody.Reaches t us rest :=
    ⟨_, _, StringBody.reaches_read t⟩
  obtain ⟨q, v, hc⟩ : ∃ q v, Step.closing rest = (q, v) := ⟨_, _, rfl⟩
  have hconsumed : (Step.stringLiteral t).reading.consumed = '"' :: StringBody.text us ++ q := by
    rw [Step.consumed_stringLiteral hr, hc]
  have hrest : (Step.stringLiteral t).rest = v := by
    rw [Step.rest_stringLiteral hr, hc]
  have hsplit : s.text = pre ++ ('"' :: StringBody.text us ++ q ++ v) := by
    rw [← hconsumed, ← hrest, Step.splits_stringLiteral t, h]
  have hhead : pre ++ ['"'] ++ StringBody.text us ++ q
      = pre ++ ('"' :: StringBody.text us ++ q) := by
    simp
  simp only [stringLiteral, advance_after h, Lapse.ok_bind, stringRest_after _ none hr (passed h),
    stringEnd, hc, hhead, Option.none_or]
  cases hb : StringBody.firstBad us with
  | some r =>
    obtain ⟨before, code, behind⟩ := r
    unfold gives badEscape?
    rw [hconsumed, Step.reading_stringLiteral hr hb, hb]
    show Except.ok (Event.error ⟨_, _, Position.start.after (pre ++ ['"'] ++ _), _, _⟩, _) = _
    rw [List.append_assoc, Position.after_append]
    rfl
  | none =>
    unfold badEscape? Step.stringLiteral
    rw [hb, hr.read_eq]
    simp only [hc, hb]
    cases q with
    | nil =>
      rw [List.append_nil] at hsplit ⊢
      exact ok_complaint .openString hsplit rfl
    | cons d q => exact ok_token .stringval hsplit rfl

end StringLiteral

/-! ## What stands under the head -/

theorem announced_after {c : Char} (h : s.text = pre ++ c :: t) :
    (after s pre).announced = CharClass.of? c := by
  unfold announced
  rw [peek_after h]
  exact Lexicon.lookup_classes c

/-- **The head reads as the step does.** -/
theorem read_after {c : Char} (h : s.text = pre ++ c :: t) :
    (after s pre).read = gives s pre (munch c t) := by
  unfold read munch
  rw [announced_after h, CharClass.of?]
  cases hl : Lead.of? c with
  | none =>
    simp only [Option.map_none, advance_after h, Lapse.ok_bind]
    exact ok_complaint .strayCharacter h rfl
  | some lead =>
    cases lead with
    | single kind => exact single_after (Lexicon.lookup_punctuation hl) h
    | slash =>
      obtain rfl := Lead.eq_of_slash hl
      exact slash_after h
    | comparison alone withEquals => exact comparison_after (Lexicon.lookup_comparisons hl) h
    | letter =>
      refine word_after ?_ h
      rw [Lexicon.isWordChar, Lead.isLetter_of_letter hl, Bool.true_or]
    | digit => exact number_after (Lead.isDigit_of_digit hl) h
    | quote =>
      obtain rfl := Lead.eq_of_quote hl
      exact charLiteral_after h
    | dquote =>
      obtain rfl := Lead.eq_of_dquote hl
      exact stringLiteral_after h
    | space => exact space_after (Lead.isSpace_of_space hl) h

/-- **A loop passes the first character**: what announces it is part of it. -/
theorem exists_passWhile {k : CharClass} {cond : Head → Bool} (h : s.text = pre ++ t)
    (hk : (after s pre).announced = some k) (hl : loop? k = some cond) :
    ∃ h', (after s pre).passWhile cond = .ok h' ∧ (after s pre).offset < h'.offset := by
  cases t with
  | nil =>
    rw [announced, peek_after h] at hk
    cases hk
  | cons c t =>
    rw [announced_after h, CharClass.of?, Option.map_eq_some_iff] at hk
    obtain ⟨lead, hlead, rfl⟩ := hk
    -- the loop asks for a class of characters that the announced class is part of
    obtain ⟨p, hcond, hp⟩ : ∃ p : Char → Bool,
        (∀ pre t, s.text = pre ++ t → cond (after s pre) = t.head?.any p) ∧ p c = true := by
      cases lead with
      | letter =>
        obtain rfl := Option.some.inj hl
        refine ⟨_, inWord_after, ?_⟩
        rw [Lexicon.isWordChar, Lead.isLetter_of_letter hlead, Bool.true_or]
      | digit =>
        obtain rfl := Option.some.inj hl
        exact ⟨_, inNumber_after, Lead.isDigit_of_digit hlead⟩
      | space =>
        obtain rfl := Option.some.inj hl
        exact ⟨_, inSpace_after, Lead.isSpace_of_space hlead⟩
      | _ => cases hl
    refine ⟨_, passWhile_cons hcond hp h, ?_⟩
    show pre.length < (pre ++ c :: t.takeWhile p).length
    rw [List.length_append, List.length_cons]
    omega

end Head

/-! ## Whole runs -/

namespace HeadScan

/-- **A scan with a head beside a scan**: the head stands after the text that
the scan has read, and both have stopped at the same error. -/
structure Beside (x : Scan) (w : HeadScan) : Prop where
  stands : ∃ pre, x.source.text = pre ++ x.rest ∧ x.position = Position.start.after pre ∧
    w.head = .after x.source pre
  pending_eq : w.pending = x.pending

variable {x : Scan} {w : HeadScan}

theorem beside_start (s : Source) : (start s).Beside (.start s) :=
  ⟨⟨[], rfl, rfl, rfl⟩, rfl⟩

theorem Beside.resume (h : w.Beside x) : w.resume.Beside x.resume :=
  ⟨h.stands, rfl⟩

/-- **Both give the same**, and the head without a lapse. -/
theorem Beside.next (h : w.Beside x) :
    ∃ w', w.next = .ok (x.next.1, w') ∧ w'.Beside x.next.2 := by
  obtain ⟨pre, ht, hx, hw⟩ := h.stands
  cases hp : x.pending with
  | some e =>
    refine ⟨w, ?_, ?_⟩
    · rw [HeadScan.next, h.pending_eq, hp, Scan.next_of_pending hp]
    · rwa [Scan.next_of_pending hp]
  | none =>
    cases hr : x.rest with
    | nil =>
      rw [hr] at ht
      refine ⟨w, ?_, ?_⟩
      · simp only [HeadScan.next, h.pending_eq, hp, hw, Head.isInside_after ht,
          Scan.next_of_nil hp hr, hx, Head.place_after]
        rfl
      · rwa [Scan.next_of_nil hp hr]
    | cons c t =>
      rw [hr] at ht
      rw [Scan.next_of_cons hp hr, hx]
      refine ⟨⟨.after x.source (pre ++ (munch c t).reading.consumed), _⟩, ?_, ⟨_, ?_, ?_, rfl⟩, rfl⟩
      · simp only [HeadScan.next, h.pending_eq, hp, hw, Head.isInside_after ht, Head.read_after ht,
          Head.gives, Lapse.ok_bind]
        rfl
      · rw [ht, List.append_assoc, splits_munch c t]
      · exact (Position.after_append ..).symm

/-- **Any number of commands keep them side by side.** -/
theorem Beside.run (h : w.Beside x) (cs : List Command) :
    ∃ w', w.run cs = .ok ((x.run cs).1, w') ∧ w'.Beside (x.run cs).2 := by
  induction cs generalizing x w with
  | nil => exact ⟨w, rfl, h⟩
  | cons c cs ih =>
    cases c with
    | next =>
      obtain ⟨w₁, hn, h₁⟩ := h.next
      obtain ⟨w₂, hr, h₂⟩ := ih h₁
      refine ⟨w₂, ?_, h₂⟩
      simp only [HeadScan.run, hn, Lapse.ok_bind, hr]
      rfl
    | resume => exact ih h.resume

end HeadScan

/-- **In the memory there is, an error in place can be shown.** -/
theorem LexError.check_eq_ok {e : LexError} (hp : e.position.In e.source.text)
    (hl : (e.source.text.length : Int) ≤ Extent.longestRun) : e.check = .ok () := by
  obtain ⟨hpos, hle⟩ := hp.column_le
  have hlen := Snippet.length_lineOf_le e.source.text e.position.line
  refine Snippet.check_eq_ok_iff.2 ⟨⟨?_, ?_⟩, ?_⟩
  · show _ ≤ e.position.column - 1
    omega
  · show e.position.column - 1 ≤ _
    omega
  · show max 1 (min (e.text.length : Int)
      ((Snippet.lineOf e.source.text e.position.line).length - e.position.column + 1)) ≤ _
    unfold Extent.longestRun at *
    omega

namespace HeadScan

/-- **A scan with a head never has a lapse.** Whatever commands a client gives,
each of them comes to something: no step forward is made at the end of the
source, no class is without a handler, and no character is missing from the
table it is looked up in. What the client is given is what the scan of the
library gives, and the head is left where that scan is left.

The tables agree whatever the source. The classes are those of the lexicon,
each of them has a handler, and the punctuation marks and the comparisons are
the characters of their classes. Where a word, a number or blank space is
announced, the loop over it passes at least the character that announces it.
Every error that is given can also be shown, in the memory there is. -/
theorem run_start_never_lapses (s : Source) (cs : List Command) :
    let answers := ((Scan.start s).run cs).1
    let x := ((Scan.start s).run cs).2
    (∃ w : HeadScan, (start s).run cs = .ok (answers, w) ∧
      w.head.source = s ∧ w.head.place = x.position ∧ w.pending = x.pending ∧
      ∀ k cond, w.head.announced = some k → Head.loop? k = some cond →
        ∃ h, w.head.passWhile cond = .ok h ∧ w.head.offset < h.offset) ∧
    (∀ h : Head, h.advance = .error .pastEnd ↔ h.source.text.length ≤ h.offset) ∧
    (∀ c, Lexicon.classes.lookup c = CharClass.of? c) ∧
    (∀ c k, Lexicon.classes.lookup c = some k → (Head.handlers.lookup k).isSome = true) ∧
    (∀ c, Lexicon.classes.lookup c = some .single →
      (Lexicon.punctuation.lookup c).isSome = true) ∧
    (∀ c, Lexicon.classes.lookup c = some .comparison →
      (Lexicon.comparisons.lookup c).isSome = true) ∧
    ((s.text.length : Int) ≤ Extent.longestRun →
      ∀ e, .error e ∈ answers → e.check = .ok ()) := by
  intro answers x
  have hsource : x.source = s := ((Scan.Marked.start s).run cs).1.source_eq
  obtain ⟨w, hrun, hw⟩ := (beside_start s).run cs
  obtain ⟨pre, ht, hx, hhead⟩ : ∃ pre, x.source.text = pre ++ x.rest ∧ _ := hw.stands
  rw [hsource] at ht hhead
  refine ⟨⟨w, hrun, ?_, ?_, hw.pending_eq, ?_⟩, fun h => ?_, Lexicon.lookup_classes,
    fun c k _ => ?_, fun c => Lexicon.isSome_punctuation, fun c => Lexicon.isSome_comparisons,
    fun hl e he => ?_⟩
  · rw [hhead]
    rfl
  · rw [hhead, Head.place_after, hx]
  · rw [hhead]
    exact fun k cond => Head.exists_passWhile ht
  · exact h.advance_eq_error_iff
  · cases k <;> rfl
  · obtain ⟨hp, hs⟩ := Source.inPlace_of_mem_events (Scan.mem_events_of_mem_run he)
    obtain rfl : e.source = s := hs e rfl
    exact LexError.check_eq_ok hp hl

-- a loop over a comment that did not ask where the head is would not end inside the source
example : ((Head.start ⟨[], ['/', '/']⟩).passWhile fun h => !h.peek.any Lexicon.isLineEnd)
    = .error .pastEnd := by
  decide +kernel

end HeadScan

end Asl
