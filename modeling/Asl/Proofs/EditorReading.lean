import Asl.Proofs.Ranges
import Asl.Proofs.Utf16

/-!
# Where an editor finds a diagnostic

A diagnostic is sent with two numbers for its start, a line and a character.
They are those of the language, less one: lines end at line feeds, and every
character counts once. The editor reads them by rules of its own. For it a
line ends at a line feed, at `CR LF` or at a lone `CR`, and along a line it
counts UTF-16 units, of which a character above `U+FFFF` has two
(`EditorPosition.offsetIn?`).

So the two may mean different places. Where the reading of a place leads can
be said without reading: it leads to the end of some text exactly if its line
is the number of line ends in that text, and its character the number of units
after the last of them (`Text.seek_eq_iff`). The language has the same number
of lines there exactly if every `CR` is the first half of a pair, and then it
has the same last line, with as many characters as units exactly if none of
them has two. A place is therefore found where it is meant under these two
conditions and no others (`LexError.StandsAfter.offsetIn?_start_iff`), and
neither is met by all documents.
-/

namespace Asl

namespace Text

/-! ## Reading a place -/

/-- The number of UTF-16 units of a character. -/
def unitsOf (c : Char) : Nat := (Utf16.encodeChar c).length

/-- The number of UTF-16 units of a text. -/
def units (t : Text) : Nat := (Utf16.encode t).length

/-- **The number of characters before a place in the first line**, given by
its units. Beyond the end of the line it is the end of the line. Between the
two units of a character there is no place. -/
def alongLine : Nat → Text → Option Nat
  | 0, _ => some 0
  | _ + 1, [] => some 0
  | k + 1, c :: t =>
    if Lexicon.isLineEnd c then some 0
    else if unitsOf c ≤ k + 1 then (alongLine (k + 1 - unitsOf c) t).map (· + 1)
    else none

/-- **The number of characters before a place**, given by its line and its
units in the line. A line ends at `CR LF`, at a lone `CR` or at a line feed. -/
def seek (character : Nat) : Nat → Text → Option Nat
  | 0, t => alongLine character t
  | _ + 1, [] => none
  | line + 1, '\r' :: '\n' :: t => (seek character line t).map (· + 2)
  | line + 1, c :: t =>
    if Lexicon.isLineEnd c then (seek character line t).map (· + 1)
    else (seek character (line + 1) t).map (· + 1)

theorem unitsOf_pos (c : Char) : 0 < unitsOf c := by
  rw [unitsOf, Utf16.length_encodeChar]
  split <;> decide

theorem units_cons (c : Char) (t : Text) : units (c :: t) = unitsOf c + units t :=
  List.length_append

/-- A text has a unit for each character exactly if none of them has two. -/
theorem units_eq_length_iff (t : Text) :
    units t = t.length ↔ ∀ c ∈ t, c.toNat < 0x10000 := by
  have hle : ∀ u : Text, u.length ≤ units u := by
    intro u
    induction u with
    | nil => exact Nat.le_refl 0
    | cons c u ih =>
      have hc := unitsOf_pos c
      rw [units_cons, List.length_cons]
      omega
  induction t with
  | nil => exact iff_of_true rfl (List.forall_mem_nil _)
  | cons c t ih =>
    have ht := hle t
    rw [units_cons, List.length_cons, List.forall_mem_cons, unitsOf, Utf16.length_encodeChar]
    split
    · next hc => exact ⟨fun h => ⟨hc, ih.1 (by omega)⟩, fun h => by have := ih.2 h.2; omega⟩
    · next hc => exact iff_of_false (by omega) fun h => hc h.1

theorem seek_pair (k l : Nat) (t : Text) :
    seek k (l + 1) ('\r' :: '\n' :: t) = (seek k l t).map (· + 2) := rfl

/-- A character that does not begin a pair is passed alone. -/
theorem seek_cons {c : Char} {t : Text} (h : c = '\r' → t.head? ≠ some '\n') (k l : Nat) :
    seek k (l + 1) (c :: t)
      = if Lexicon.isLineEnd c then (seek k l t).map (· + 1)
        else (seek k (l + 1) t).map (· + 1) := by
  refine seek.eq_4 k l c t fun u hc hu => h hc ?_
  rw [hu]
  rfl

/-! ## Where a place is found -/

theorem map_add_eq_some_iff {o : Option Nat} {a n : Nat} :
    o.map (· + a) = some (n + a) ↔ o = some n := by
  cases o <;> simp

/-- The last line of a text with a line feed does not begin where the text
does. -/
theorem rtakeWhile_cons_of_mem {c : Char} {v : Text} (h : '\n' ∈ c :: v) :
    (c :: v).rtakeWhile (· ≠ '\n') = v.rtakeWhile (· ≠ '\n') := by
  unfold List.rtakeWhile
  rw [List.reverse_cons, List.takeWhile_append]
  split
  · next hl =>
    -- no line feed is in `v`, so `c` is one
    have hv : v.reverse.takeWhile (· ≠ '\n') = v.reverse :=
      (List.takeWhile_prefix _).eq_of_length hl
    have hn : '\n' ∉ v := by
      intro hm
      rw [← List.mem_reverse, ← hv] at hm
      simpa using List.mem_takeWhile_imp hm
    obtain rfl := (List.mem_cons.1 h).resolve_right hn
    rw [hv, List.takeWhile_cons_of_neg (by simp), List.append_nil]
  · rfl

theorem rtakeWhile_of_not_mem {v : Text} (h : '\n' ∉ v) : v.rtakeWhile (· ≠ '\n') = v := by
  refine List.rtakeWhile_eq_self_iff.2 fun c hc => ?_
  rw [decide_eq_true_eq]
  rintro rfl
  exact h hc

/-- Along a line a character is passed with all its units. -/
theorem seek_zero_cons_iff {c : Char} (hc : Lexicon.isLineEnd c = false) {k n : Nat} {t : Text} :
    seek k 0 (c :: t) = some (n + 1) ↔ unitsOf c ≤ k ∧ seek (k - unitsOf c) 0 t = some n := by
  have hpos := unitsOf_pos c
  rw [seek.eq_1, seek.eq_1]
  cases k with
  | zero => exact iff_of_false (fun h => by cases h) fun h => by omega
  | succ k =>
    rw [alongLine, hc, if_neg Bool.false_ne_true]
    split
    · next hle => exact map_add_eq_some_iff.trans (and_iff_right hle).symm
    · next hle => exact iff_of_false (fun h => by cases h) fun h => hle h.1

/-- Only the first place is before the first character. -/
theorem seek_eq_zero_iff {c : Char} (hc : Lexicon.isLineEnd c = false) {k l : Nat} {t : Text} :
    seek k l (c :: t) = some 0 ↔ l = 0 ∧ k = 0 := by
  have hmap : ∀ o : Option Nat, o.map (· + 1) ≠ some 0 := by
    intro o ho
    cases o <;> cases ho
  cases l with
  | zero =>
    rw [seek.eq_1]
    cases k with
    | zero => exact iff_of_true rfl ⟨rfl, rfl⟩
    | succ k =>
      rw [alongLine, hc, if_neg Bool.false_ne_true]
      refine iff_of_false (fun h => ?_) fun h => by cases h.2
      split at h
      · exact hmap _ h
      · cases h
  | succ l =>
    have hr : c ≠ '\r' := by rintro rfl; cases hc
    rw [seek_cons fun h => absurd h hr, hc, if_neg Bool.false_ne_true]
    exact iff_of_false (hmap _) fun h => by cases h.1

/-- No place of the first line lies beyond the end of the line. -/
theorem seek_zero_lineEnd {c : Char} (hc : Lexicon.isLineEnd c = true) (k : Nat) (t : Text) :
    seek k 0 (c :: t) = some 0 := by
  rw [seek.eq_1]
  cases k with
  | zero => rfl
  | succ k => exact if_pos hc

/-- Past a line end, the place is looked for one line less far. -/
theorem seek_lineEnd_iff {c : Char} {t : Text} (hc : Lexicon.isLineEnd c = true)
    (h : c = '\r' → t.head? ≠ some '\n') {k l n : Nat} :
    seek k l (c :: t) = some (n + 1) ↔ ∃ m, l = m + 1 ∧ seek k m t = some n := by
  cases l with
  | zero =>
    rw [seek_zero_lineEnd hc]
    exact iff_of_false (fun h => by cases h) fun ⟨m, hm, _⟩ => by cases hm
  | succ l =>
    rw [seek_cons h, if_pos hc, map_add_eq_some_iff]
    exact ⟨fun h => ⟨l, rfl, h⟩, fun ⟨m, hm, h⟩ => Nat.succ.inj hm ▸ h⟩

theorem seek_pair_iff {t : Text} {k l n : Nat} :
    seek k l ('\r' :: '\n' :: t) = some (n + 2) ↔ ∃ m, l = m + 1 ∧ seek k m t = some n := by
  cases l with
  | zero =>
    rw [seek_zero_lineEnd rfl]
    exact iff_of_false (fun h => by cases h) fun ⟨m, hm, _⟩ => by cases hm
  | succ l =>
    rw [seek_pair, map_add_eq_some_iff]
    exact ⟨fun h => ⟨l, rfl, h⟩, fun ⟨m, hm, h⟩ => Nat.succ.inj hm ▸ h⟩

/-- **A place is found at the end of a text** that a character of a line
follows, exactly if its line is the number of line ends in the text, and its
character the number of units after the last of them. -/
theorem seek_eq_iff {x : Char} (hx : Lexicon.isLineEnd x = false) (u pre : Text) (k l : Nat) :
    seek k l (pre ++ x :: u) = some pre.length ↔
      l = (unifyNewlines pre).count '\n' ∧
        k = units ((unifyNewlines pre).rtakeWhile (· ≠ '\n')) := by
  -- a line end, whichever it is, counts for one line feed
  have hend : ∀ {v : Text} {k l : Nat},
      (∃ m, l = m + 1 ∧ m = v.count '\n' ∧ k = units (v.rtakeWhile (· ≠ '\n'))) ↔
        l = ('\n' :: v).count '\n' ∧ k = units (('\n' :: v).rtakeWhile (· ≠ '\n')) := by
    intro v k l
    rw [List.count_cons_self, rtakeWhile_cons_of_mem List.mem_cons_self]
    exact ⟨fun ⟨m, hl, hm, hk⟩ => ⟨hm ▸ hl, hk⟩, fun ⟨hl, hk⟩ => ⟨_, hl, rfl, hk⟩⟩
  have hhead : ∀ {pre : Text}, pre.head? ≠ some '\n' → (pre ++ x :: u).head? ≠ some '\n' := by
    intro pre hp
    cases pre with
    | nil => rintro ⟨⟩; cases hx
    | cons c pre => exact hp
  induction pre using lineEnd_induction generalizing k l with
  | nil =>
    exact seek_eq_zero_iff hx
  | pair pre ih =>
    show seek k l ('\r' :: '\n' :: (pre ++ x :: u)) = some (pre.length + 2) ↔ _
    rw [seek_pair_iff]
    simp only [ih]
    exact hend
  | lone pre hpre ih =>
    rw [unifyNewlines_lone hpre, ← hend]
    simp only [← ih]
    exact seek_lineEnd_iff rfl fun _ => hhead hpre
  | char c pre hc ih =>
    rw [unifyNewlines_char hc]
    by_cases hn : c = '\n'
    · subst hn
      rw [← hend]
      simp only [← ih]
      exact seek_lineEnd_iff rfl fun h => absurd h hc
    · have hcl : Lexicon.isLineEnd c = false := by simp [Lexicon.isLineEnd, hc, hn]
      rw [List.count_cons_of_ne hn, List.cons_append, List.length_cons]
      cases l with
      | zero =>
        simp only [seek_zero_cons_iff hcl, ih]
        by_cases hm : '\n' ∈ unifyNewlines pre
        · -- what is on another line is not reached along the first one
          have hpos := List.count_pos_iff.2 hm
          exact iff_of_false (fun h => by omega) fun h => by omega
        · have hcm : '\n' ∉ c :: unifyNewlines pre :=
            fun h => hm ((List.mem_cons.1 h).resolve_left fun h => hn h.symm)
          rw [rtakeWhile_of_not_mem hm, rtakeWhile_of_not_mem hcm, units_cons]
          omega
      | succ l =>
        rw [seek_cons fun h => absurd h hc, hcl, if_neg Bool.false_ne_true, map_add_eq_some_iff]
        refine (ih k (l + 1)).trans (and_congr_right fun hl => ?_)
        have hm : '\n' ∈ unifyNewlines pre := List.count_pos_iff.1 (by omega)
        rw [rtakeWhile_cons_of_mem (List.mem_cons_of_mem c hm)]

/-! ## Where it is meant -/

/-- **Pairs leave the last line as it is.** -/
theorem rtakeWhile_unifyNewlines {t : Text} (h : t.Paired) :
    (unifyNewlines t).rtakeWhile (· ≠ '\n') = t.rtakeWhile (· ≠ '\n') := by
  induction t using lineEnd_induction with
  | nil => rfl
  | pair t ih =>
    have ht : t.Paired := (paired_cons_iff.1 (paired_cons_iff.1 h).2).2
    show ('\n' :: unifyNewlines t).rtakeWhile _ = _
    rw [rtakeWhile_cons_of_mem List.mem_cons_self, ih ht,
      rtakeWhile_cons_of_mem (List.mem_cons_of_mem _ List.mem_cons_self),
      rtakeWhile_cons_of_mem List.mem_cons_self]
  | lone t hn _ => exact absurd ((paired_cons_iff.1 h).1 rfl) hn
  | char c t hc ih =>
    have ht : t.Paired := (paired_cons_iff.1 h).2
    have hmem : '\n' ∈ unifyNewlines t ↔ '\n' ∈ t := by
      rw [← List.count_pos_iff, ← List.count_pos_iff, (count_unifyNewlines t).2.2 ht]
    rw [unifyNewlines_char hc]
    by_cases hm : '\n' ∈ c :: t
    · rw [rtakeWhile_cons_of_mem hm, ← ih ht]
      refine rtakeWhile_cons_of_mem ?_
      rwa [List.mem_cons, hmem, ← List.mem_cons]
    · have hm' : '\n' ∉ c :: unifyNewlines t := by rwa [List.mem_cons, hmem, ← List.mem_cons]
      have hi := ih ht
      rw [rtakeWhile_of_not_mem fun hn => hm' (List.mem_cons_of_mem c hn),
        rtakeWhile_of_not_mem fun hn => hm (List.mem_cons_of_mem c hn)] at hi
      rw [rtakeWhile_of_not_mem hm', rtakeWhile_of_not_mem hm, hi]

/-- **The line and column of the language are those of an editor** after a text
exactly if every `CR` in it is the first half of a pair, and no character of
its last line has two units. -/
theorem place_eq_iff (t : Text) :
    (t.count '\n' = (unifyNewlines t).count '\n' ∧
        (t.rtakeWhile (· ≠ '\n')).length
          = units ((unifyNewlines t).rtakeWhile (· ≠ '\n'))) ↔
      t.Paired ∧ ∀ c ∈ t.rtakeWhile (· ≠ '\n'), c.toNat < 0x10000 := by
  rw [eq_comm, (count_unifyNewlines t).2]
  refine and_congr_right fun ht => ?_
  rw [rtakeWhile_unifyNewlines ht, eq_comm, units_eq_length_iff]

end Text

/-- **Where an editor finds a place of a document**: the number of characters
before it, if it is one. -/
def EditorPosition.offsetIn? (text : Text) (p : EditorPosition) : Option Nat :=
  if 0 ≤ p.line ∧ 0 ≤ p.character then Text.seek p.character.toNat p.line.toNat text else none

/-- **An editor finds an error where it stands** exactly if every `CR` before it
is the first half of a pair, and no character before it on its line has two
units. -/
theorem LexError.StandsAfter.offsetIn?_start_iff {text a : Text} {e : LexError}
    (h : e.StandsAfter text a) (hl : ∀ d ∈ e.text.head?, Lexicon.isLineEnd d = false) :
    (Diagnostic.ofError e).start.offsetIn? text = some a.length ↔
      a.Paired ∧ ∀ c ∈ a.rtakeWhile (· ≠ '\n'), c.toNat < 0x10000 := by
  obtain ⟨z, hz⟩ := h.exists_rest
  have hn : e.text ≠ [] := fun he => h.ne_nil (by rw [he]; rfl)
  obtain ⟨x, w, hw⟩ := List.exists_cons_of_ne_nil hn
  have hx : Lexicon.isLineEnd x = false := hl x (by rw [hw]; rfl)
  have ht : text = a ++ x :: (w ++ z) := by rw [hz, hw]; rfl
  have hline := h.start_line
  have hcharacter := h.start_character
  rw [EditorPosition.offsetIn?, if_pos ⟨by omega, by omega⟩, hline, hcharacter,
    Int.toNat_natCast, Int.toNat_natCast, ht, Text.seek_eq_iff hx, Text.place_eq_iff]

/-- **Where an editor finds the diagnostics of a document.** There is one for
each error, in order. The error stands after some text, with at least one
character, and the diagnostic ends on the line it starts on. An editor, which
ends a line at `CR LF`, a lone `CR` or a line feed and counts UTF-16 units along
it, finds the start of the diagnostic at the first character of the error if and
only if every `CR` before the error is the first half of a pair and no character
before it on its line has two units. -/
theorem diagnostic_start_iff (uri text : Text) :
    let s : Source := ⟨Publication.documentName uri, text⟩
    (Publication.ofDocument uri text).diagnostics = s.survey.errors.map Diagnostic.ofError ∧
    ∀ e ∈ s.survey.errors, ∃ a z, text = a ++ (e.text ++ z) ∧ e.text ≠ [] ∧
      e.position.offset = a.length ∧
      (Diagnostic.ofError e).stop.line = (Diagnostic.ofError e).start.line ∧
      ((Diagnostic.ofError e).start.offsetIn? text = some a.length ↔
        a.Paired ∧ ∀ c ∈ a.rtakeWhile (· ≠ '\n'), c.toNat < 0x10000) := by
  intro s
  refine ⟨rfl, fun e he => ?_⟩
  obtain ⟨a, ha⟩ := Source.exists_standsAfter he
  obtain ⟨z, hz⟩ := ha.exists_rest
  obtain ⟨pre, cause, b, w, c, post, -, hb, hew⟩ := Source.exists_fault he
  have hl : ∀ d ∈ e.text.head?, Lexicon.isLineEnd d = false := by
    rw [hew]
    exact hb.isLineEnd_head?
  refine ⟨a, z, hz, fun hn => ha.ne_nil (by rw [hn]; rfl), ?_, rfl, ha.offsetIn?_start_iff hl⟩
  rw [ha.position_eq, Position.offset_after_start]

/-- Below a line that holds a character of two units and that `CR LF` ends, a
stray character is found where it stands. -/
theorem diagnostic_start_iff_pairs :
    let text := "\"😀\"\r\n é @".toList
    let e : LexError :=
      ⟨.unexpectedCharacter, "unexpected character".toList, ⟨2, 4, 8⟩, ⟨[], text⟩, ['@']⟩
    e ∈ (Source.mk [] text).survey.errors ∧
      (Diagnostic.ofError e).start.offsetIn? text = some 8 := by
  intro text e
  have he : e ∈ (Source.mk [] text).survey.errors := by decide +kernel
  refine ⟨he, ?_⟩
  obtain ⟨a, z, hz, -, ho, -, hfound⟩ := (diagnostic_start_iff [] text).2 e he
  have hlen : a.length = 8 := (Int.ofNat.inj ho).symm
  have ha : a = text.take 8 := by rw [hz, ← hlen, List.take_left]
  rw [hlen, ha] at hfound
  have hall : ((text.take 8).rtakeWhile (· ≠ '\n')).all (·.toNat < 0x10000) = true := by
    decide +kernel
  exact hfound.2 ⟨by decide +kernel, fun c hc => by simpa using List.all_eq_true.1 hall c hc⟩

/-- **After a character of two units an editor finds another place**, and so it
does after a lone `CR`. The error of the first text is its fifth character, and
an editor takes the diagnostic for the blank before it. The error of the second
text stands on the second line, and is found at the end of the first. -/
theorem diagnostic_start_elsewhere :
    let starts := fun text => (Publication.ofDocument [] text).diagnostics.map (·.start)
    let offsets := fun text => (Source.mk [] text).survey.errors.map (·.position.offset)
    let wide := "\"😀\" @".toList
    let lone := "a\r@".toList
    (starts wide = [⟨0, 4⟩] ∧ offsets wide = [4] ∧
      EditorPosition.offsetIn? wide ⟨0, 4⟩ = some 3 ∧
      EditorPosition.offsetIn? wide ⟨0, 5⟩ = some 4) ∧
    starts lone = [⟨0, 2⟩] ∧ offsets lone = [2] ∧
      EditorPosition.offsetIn? lone ⟨0, 2⟩ = some 1 ∧
      EditorPosition.offsetIn? lone ⟨1, 0⟩ = some 2 := by
  decide +kernel

end Asl
