import Asl.Lexicon
import Asl.Literal
import Mathlib.Logic.Function.Basic

/-!
# Spelled numbers

Listings spell integers in base ten and characters in base sixteen. Either
spelling can be read back: the digits of a natural number have it as their
value, and begin with a zero for no other number than zero, which a strict
reader asks of them; a minus sign is no digit; and four hexadecimal digits
hold every number below `0x10000`.
-/

namespace Asl.Text

/-! ## Base ten -/

theorem isDigit_of_mem_ofNat {n : Nat} {c : Char} (h : c ∈ ofNat n) :
    Lexicon.isDigit c = true :=
  Nat.isDigit_of_mem_toDigits (by decide) (by decide) h

theorem ofNat_ne_nil (n : Nat) : ofNat n ≠ [] := Nat.toDigits_ne_nil

/-- **The digits of a number have it as their value.** -/
theorem decimal_ofNat (n : Nat) : Literal.decimal (ofNat n) = n :=
  Nat.ofDigitChars_eq_foldl.symm.trans Nat.ofDigitChars_ten_toDigits

/-- Only zero begins with a zero. -/
theorem head?_ofNat {n : Nat} (h : n ≠ 0) : (ofNat n).head? ≠ some '0' := by
  induction n using Nat.strongRecOn with
  | ind n ih =>
    unfold ofNat
    rw [Nat.toDigits_eq_if (by decide)]
    split
    · simpa using h
    · have hlt : n / 10 < n := Nat.div_lt_self (by omega) (by decide)
      obtain ⟨d, ds, hd⟩ := List.exists_cons_of_ne_nil (ofNat_ne_nil (n / 10))
      have hn := ih (n / 10) hlt (by omega)
      rw [hd] at hn
      rw [show Nat.toDigits 10 (n / 10) = d :: ds from hd]
      exact hn

/-- The characters of a spelled integer are digits, but for its sign. -/
theorem isDigit_of_mem_ofInt {n : Int} {c : Char} (h : c ∈ ofInt n) :
    c = '-' ∨ Lexicon.isDigit c = true := by
  cases n with
  | ofNat n => exact .inr (isDigit_of_mem_ofNat h)
  | negSucc n => exact (List.mem_cons.1 h).imp_right isDigit_of_mem_ofNat

theorem ofNat_injective : Function.Injective ofNat :=
  Function.LeftInverse.injective decimal_ofNat

/-- **An integer is told by its spelling.** -/
theorem ofInt_injective : Function.Injective ofInt := by
  -- a minus sign is no digit
  have hsign : ∀ m n, ofNat m ≠ '-' :: ofNat n := by
    intro m n h
    have hd : '-' ∈ ofNat m := by rw [h]; exact List.mem_cons_self
    cases isDigit_of_mem_ofNat hd
  intro m n h
  cases m with
  | ofNat m =>
    cases n with
    | ofNat n => exact congrArg Int.ofNat (ofNat_injective h)
    | negSucc n => exact absurd h (hsign m (n + 1))
  | negSucc m =>
    cases n with
    | ofNat n => exact absurd h.symm (hsign n (m + 1))
    | negSucc n =>
      have hmn : m + 1 = n + 1 := ofNat_injective (List.cons.inj h).2
      exact congrArg Int.negSucc (Nat.succ.inj hmn)

/-! ## Base sixteen -/

/-- The last of several hexadecimal digits. -/
theorem hex_add_two (w n : Nat) :
    hex (w + 2) n = hex (w + 1) (n / 16) ++ [Nat.digitChar (n % 16)] := by
  unfold hex
  dsimp only
  rw [Nat.toDigits_eq_if (by decide) (n := n)]
  split
  · next hn =>
    rw [Nat.div_eq_of_lt hn, Nat.mod_eq_of_lt hn, Nat.toDigits_zero]
    show List.replicate (w + 1) '0' ++ _ = List.replicate w '0' ++ ['0'] ++ _
    rw [List.replicate_succ']
  · rw [List.length_append, List.length_singleton, List.append_assoc]
    show List.replicate (w + 1 + 1 - (_ + 1)) '0' ++ _ = _
    rw [Nat.add_sub_add_right]

/-- **Four hexadecimal digits** of a number below `0x10000`. -/
theorem hex_four {n : Nat} (h : n < 0x10000) :
    hex 4 n = [Nat.digitChar (n / 16 / 16 / 16), Nat.digitChar (n / 16 / 16 % 16),
      Nat.digitChar (n / 16 % 16), Nat.digitChar (n % 16)] := by
  have hone : hex 1 (n / 16 / 16 / 16) = [Nat.digitChar (n / 16 / 16 / 16)] := by
    unfold hex
    rw [Nat.toDigits_of_lt_base (by omega)]
    rfl
  rw [hex_add_two, hex_add_two, hex_add_two, hone]
  rfl

end Asl.Text
