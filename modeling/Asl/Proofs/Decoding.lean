import Asl.Proofs.Munch
import Mathlib.Data.List.Forall2

/-!
# Decoding goes unit by unit

The decoder reads the body of a literal on its own, with its own loop, and
knows nothing of how the body was found. It is brought together with the
units of a body here. A unit stands for one character
(`BodyUnit.Denotes`), and what a sequence of units is decoded to are the
characters they stand for (`Escape.decode_text`).

The loop goes on by one character or by two, so where it stands depends on
all that came before: of a run of backslashes every other one begins a unit.
But a beginning made of units can be taken off whole, whatever follows it
(`Escape.decodeUnits_text_append`). A body is made of units up to its end, or
up to a first place where none begins (`Escape.exists_units_append`). In the
first case it is decoded, and in the second it is refused for that place
(`Escape.decode_eq_ok_iff`, `Escape.decode_eq_error_iff`).

That a body has fewer characters once it is decoded is due to its pairs
alone, and these can be counted without decoding anything
(`Escape.pairs`).
-/

namespace Asl

/-- **What a unit stands for**: a character for itself, unless it is a
backslash, and a pair for what its code says. -/
def BodyUnit.Denotes : BodyUnit → Char → Prop
  | plain c, d => c ≠ '\\' ∧ d = c
  | pair code, d => Escape.charOf? code = some d

/-- A unit of a literal stands for a character. -/
theorem BodyUnit.Fits.exists_denotes {barred : List Char} {u : BodyUnit} (h : u.Fits barred) :
    ∃ c, u.Denotes c := by
  cases u with
  | plain c => exact ⟨c, h.1, rfl⟩
  | pair code => exact Option.isSome_iff_exists.1 (Escape.isCode_iff.2 h)

/-- A unit that stands for a character is one of a literal. -/
theorem BodyUnit.Denotes.fits {u : BodyUnit} {c : Char} (h : u.Denotes c) : u.Fits [] := by
  cases u with
  | plain d => exact ⟨h.1, List.not_mem_nil⟩
  | pair code => exact Escape.isCode_iff.1 (Option.isSome_iff_exists.2 ⟨c, h⟩)

namespace Escape

/-- The number of pairs in a text, each a backslash and the character after
it, from left to right. -/
def pairs : Text → Nat
  | [] => 0
  | '\\' :: _ :: t => pairs t + 1
  | _ :: t => pairs t

/-- A unit is decoded to what it stands for, whatever follows. -/
theorem decodeUnits_unit {u : BodyUnit} {c : Char} (h : u.Denotes c) (t : Text) :
    decodeUnits (u.text ++ t) = (decodeUnits t).map (c :: ·) := by
  cases u with
  | plain d =>
    obtain ⟨hd, rfl⟩ := h
    show decodeUnits (c :: t) = _
    rw [decodeUnits.eq_4 c t (fun he _ => hd he) (fun _ _ he => absurd he hd)]
  | pair code =>
    show decodeUnits ('\\' :: code :: t) = _
    rw [decodeUnits]
    unfold BodyUnit.Denotes at h
    rw [h]

/-- A body without a backslash is decoded to itself, so the shortcut makes no
difference. -/
theorem decode_eq_decodeUnits (t : Text) : decode t = decodeUnits t := by
  unfold decode
  split
  · rfl
  · next h =>
    induction t with
    | nil => rfl
    | cons c t ih =>
      rw [List.mem_cons, not_or] at h
      have hc : (BodyUnit.plain c).Denotes c := ⟨fun he => h.1 he.symm, rfl⟩
      show _ = decodeUnits ((BodyUnit.plain c).text ++ t)
      rw [decodeUnits_unit hc, ← ih h.2]
      rfl

/-- **A beginning made of units is decoded by itself**, whatever follows. -/
theorem decodeUnits_text_append {us : List BodyUnit} {cs : Text}
    (h : List.Forall₂ BodyUnit.Denotes us cs) (t : Text) :
    decodeUnits (StringBody.text us ++ t) = (decodeUnits t).map (cs ++ ·) := by
  induction h with
  | nil =>
    show decodeUnits t = (decodeUnits t).map id
    cases decodeUnits t <;> rfl
  | cons hu _ ih =>
    rw [StringBody.text_cons, List.append_assoc, decodeUnits_unit hu, ih]
    cases decodeUnits t <;> rfl

/-- **Units are decoded to the characters they stand for.** -/
theorem decode_text {us : List BodyUnit} {cs : Text} (h : List.Forall₂ BodyUnit.Denotes us cs) :
    decode (StringBody.text us) = .ok cs := by
  have hd := decodeUnits_text_append h []
  rw [List.append_nil] at hd
  rw [decode_eq_decodeUnits, hd]
  exact congrArg Except.ok (List.append_nil cs)

theorem exists_decode_text {barred : List Char} {us : List BodyUnit}
    (h : ∀ u ∈ us, u.Fits barred) :
    ∃ cs, decode (StringBody.text us) = .ok cs ∧ cs.length = us.length := by
  have hall : ∃ cs, List.Forall₂ BodyUnit.Denotes us cs := by
    induction us with
    | nil => exact ⟨[], .nil⟩
    | cons u us ih =>
      rw [List.forall_mem_cons] at h
      obtain ⟨c, hc⟩ := h.1.exists_denotes
      obtain ⟨cs, hcs⟩ := ih h.2
      exact ⟨c :: cs, .cons hc hcs⟩
  obtain ⟨cs, hcs⟩ := hall
  exact ⟨cs, decode_text hcs, hcs.length_eq.symm⟩

/-- **A place where no unit begins**, and what a body is refused for there: a
backslash that ends the body, or a backslash before a character that is no
code. -/
inductive Stops : Text → EscapeError → Prop where
  /-- Nothing follows the backslash. -/
  | trailing : Stops ['\\'] .trailingBackslash
  /-- What follows the backslash is no code. -/
  | unknown {code : Char} (h : charOf? code = none) (t : Text) :
      Stops ('\\' :: code :: t) (.unknownCode code)

theorem Stops.decodeUnits_eq {t : Text} {e : EscapeError} (h : Stops t e) :
    decodeUnits t = .error e := by
  cases h with
  | trailing => rfl
  | unknown h t =>
    rw [decodeUnits]
    rw [h]

/-- **Every body begins with units**, up to its end or to a place where none
begins. -/
theorem exists_units_append (t : Text) :
    ∃ us cs rest, t = StringBody.text us ++ rest ∧ List.Forall₂ BodyUnit.Denotes us cs ∧
      (rest = [] ∨ ∃ e, Stops rest e) := by
  fun_induction decodeUnits t with
  | case1 => exact ⟨[], [], [], rfl, .nil, .inl rfl⟩
  | case2 => exact ⟨[], [], ['\\'], rfl, .nil, .inr ⟨_, .trailing⟩⟩
  | case3 code t hc => exact ⟨[], [], '\\' :: code :: t, rfl, .nil, .inr ⟨_, .unknown hc t⟩⟩
  | case4 code t c hc ih =>
    obtain ⟨us, cs, rest, rfl, hus, hr⟩ := ih
    exact ⟨.pair code :: us, c :: cs, rest, rfl, .cons hc hus, hr⟩
  | case5 c t hb hp ih =>
    -- a backslash here would have met one of the cases before
    have hc : c ≠ '\\' := by
      rintro rfl
      cases t with
      | nil => exact hb rfl rfl
      | cons code t => exact hp code t rfl rfl
    obtain ⟨us, cs, rest, rfl, hus, hr⟩ := ih
    exact ⟨.plain c :: us, c :: cs, rest, rfl, .cons ⟨hc, rfl⟩ hus, hr⟩

/-- **A body is decoded exactly if it is made of units**, and to the
characters these stand for. -/
theorem decode_eq_ok_iff {t cs : Text} :
    decode t = .ok cs ↔ ∃ us, t = StringBody.text us ∧ List.Forall₂ BodyUnit.Denotes us cs := by
  constructor
  · intro h
    obtain ⟨us, ds, rest, rfl, hus, hr⟩ := exists_units_append t
    rw [decode_eq_decodeUnits, decodeUnits_text_append hus] at h
    obtain rfl | ⟨e, he⟩ := hr
    · have hds : ds ++ [] = cs := Except.ok.inj h
      rw [List.append_nil] at hds ⊢
      exact ⟨us, rfl, hds ▸ hus⟩
    · rw [he.decodeUnits_eq] at h
      cases h
  · rintro ⟨us, rfl, hus⟩
    exact decode_text hus

/-- **A body is refused for the first place where no unit begins.** -/
theorem decode_eq_error_iff {t : Text} {e : EscapeError} :
    decode t = .error e ↔ ∃ us cs rest, t = StringBody.text us ++ rest ∧
      List.Forall₂ BodyUnit.Denotes us cs ∧ Stops rest e := by
  rw [decode_eq_decodeUnits]
  constructor
  · intro h
    obtain ⟨us, cs, rest, rfl, hus, hr⟩ := exists_units_append t
    refine ⟨us, cs, rest, rfl, hus, ?_⟩
    rw [decodeUnits_text_append hus] at h
    obtain rfl | ⟨d, hd⟩ := hr
    · cases h
    · rw [hd.decodeUnits_eq] at h
      cases h
      exact hd
  · rintro ⟨us, cs, rest, rfl, hus, hs⟩
    rw [decodeUnits_text_append hus, hs.decodeUnits_eq]
    rfl

/-- What is said of a place where no unit begins. -/
theorem stops_iff_message {t : Text} {m : Text} :
    (∃ e, Stops t e ∧ e.message = m) ↔
      t = ['\\'] ∧ m = "trailing backslash in literal".toList ∨
        ∃ code u, t = '\\' :: code :: u ∧ charOf? code = none ∧
          m = "invalid escape sequence '\\".toList ++ [code, '\''] := by
  constructor
  · rintro ⟨e, he, rfl⟩
    cases he with
    | trailing => exact .inl ⟨rfl, rfl⟩
    | unknown h u => exact .inr ⟨_, u, rfl, h, rfl⟩
  · rintro (⟨rfl, rfl⟩ | ⟨code, u, rfl, h, rfl⟩)
    · exact ⟨_, .trailing, rfl⟩
    · exact ⟨_, .unknown h u, rfl⟩

/-- So it can be decoded at all exactly if all its characters are units and
all its pairs are known. -/
theorem exists_decode_iff {t : Text} :
    (∃ cs, decode t = .ok cs) ↔ ∃ us, (∀ u ∈ us, BodyUnit.Fits [] u) ∧ t = StringBody.text us := by
  constructor
  · rintro ⟨cs, h⟩
    obtain ⟨us, ht, hus⟩ := decode_eq_ok_iff.1 h
    exact ⟨us, ((List.forall₂_and_left us cs).1 (hus.imp fun _ _ hd => ⟨hd.fits, hd⟩)).1, ht⟩
  · rintro ⟨us, hu, rfl⟩
    obtain ⟨cs, h, -⟩ := exists_decode_text hu
    exact ⟨cs, h⟩

/-- A text of units has one character for each of them, and one more for each
pair. -/
theorem length_text {barred : List Char} {us : List BodyUnit} (h : ∀ u ∈ us, u.Fits barred) :
    (StringBody.text us).length = us.length + pairs (StringBody.text us) := by
  induction us with
  | nil => rfl
  | cons u us ih =>
    rw [List.forall_mem_cons] at h
    have hl := ih h.2
    rw [StringBody.text_cons, List.length_append, hl, List.length_cons]
    cases u with
    | plain c =>
      have hp : pairs (c :: StringBody.text us) = pairs (StringBody.text us) :=
        pairs.eq_3 c _ (fun _ _ he => absurd he h.1.1)
      show 1 + _ = _ + pairs (c :: StringBody.text us)
      rw [hp]
      omega
    | pair code =>
      show 2 + _ = _ + (pairs (StringBody.text us) + 1)
      omega

/-- **Decoding is unit by unit.** A body is decoded exactly if it is made of
units, each a character other than a backslash or a backslash and a code, and
to the characters the units stand for. It is refused for the first place where
no unit begins: with one message if that is a backslash that ends the body,
and with another, which names the character after the backslash, if there is
one. What follows a body that can be decoded is decoded as if it stood alone.
A body without a backslash, which is not looked at unit by unit, is decoded as
if it were. -/
theorem decode_unitwise (t : Text) :
    (∀ cs, decode t = .ok cs ↔
      ∃ us, t = StringBody.text us ∧ List.Forall₂ BodyUnit.Denotes us cs) ∧
    (∀ m, (∃ e, decode t = .error e ∧ e.message = m) ↔
      ∃ us cs rest, t = StringBody.text us ++ rest ∧ List.Forall₂ BodyUnit.Denotes us cs ∧
        (rest = ['\\'] ∧ m = "trailing backslash in literal".toList ∨
          ∃ code u, rest = '\\' :: code :: u ∧ charOf? code = none ∧
            m = "invalid escape sequence '\\".toList ++ [code, '\''])) ∧
    (∀ cs, decode t = .ok cs → ∀ u, decode (t ++ u) = (decode u).map (cs ++ ·)) ∧
    decode t = decodeUnits t := by
  refine ⟨fun cs => decode_eq_ok_iff, fun m => ?_, fun cs h u => ?_, decode_eq_decodeUnits t⟩
  · simp only [decode_eq_error_iff, ← stops_iff_message]
    constructor
    · rintro ⟨e, ⟨us, cs, rest, ht, hus, hs⟩, hm⟩
      exact ⟨us, cs, rest, ht, hus, e, hs, hm⟩
    · rintro ⟨us, cs, rest, ht, hus, e, hs, hm⟩
      exact ⟨e, ⟨us, cs, rest, ht, hus, hs⟩, hm⟩
  · obtain ⟨us, rfl, hus⟩ := decode_eq_ok_iff.1 h
    rw [decode_eq_decodeUnits, decode_eq_decodeUnits, decodeUnits_text_append hus]

/-- Of three backslashes before a letter the first two are a unit, and the
letter is refused as if it stood after one backslash alone. -/
theorem decode_unitwise_backslashes :
    decode ['\\', '\\'] = .ok ['\\'] ∧
      decode (['\\', '\\'] ++ ['\\', 'q']) = .error (.unknownCode 'q') := by
  have h : decode ['\\', '\\'] = .ok ['\\'] := by decide
  exact ⟨h, (decode_unitwise _).2.2.1 _ h ['\\', 'q']⟩

end Escape

end Asl
