import Asl.Listing
import Asl.Proofs.Munch
import Asl.Proofs.Numerals
import Asl.Proofs.Utf16
import Mathlib.Data.List.Forall2

/-!
# Reading JSON

To say that a JSON listing loses nothing one has to say what reads it. This is
a reader of JSON, all of it and no more: blank space between any two parts,
every escape of a string, numbers with fraction and exponent and without
leading zeros, objects with their members in the order they are written.

Each part of it takes a text and gives a value and what is left of the text. It
is inverse to what writes that part in front of any text that cannot continue
it (`Json.ReadsAs`). Only a number can be continued, and only by what a listing
never writes after one, so a comma, a blank or the end of the text will do for
everything. From the parts the whole is put together the way it is written:
strings and numbers, members, items with commas between them, objects and
arrays.
-/

namespace Asl

/-- **A JSON value.** A number is given by its digits and the power of ten
they are multiplied by. -/
inductive Json where
  | null
  | bool (b : Bool)
  | number (digits exponent : Int)
  | string (t : Text)
  | array (items : List Json)
  | object (members : List (Text × Json))

namespace Json

/-! ## The reader -/

/-- What is left of a text after blank space. -/
def skip (t : Text) : Text := t.dropWhile Lexicon.isSpace

/-- The value of a hexadecimal digit. -/
def hexDigit? (c : Char) : Option Nat :=
  if '0' ≤ c ∧ c ≤ '9' then some (c.toNat - '0'.toNat)
  else if 'a' ≤ c ∧ c ≤ 'f' then some (c.toNat - 'a'.toNat + 10)
  else if 'A' ≤ c ∧ c ≤ 'F' then some (c.toNat - 'A'.toNat + 10)
  else none

/-- The number of four hexadecimal digits. -/
def unit? (a b c d : Char) : Option Nat := do
  let a ← hexDigit? a
  let b ← hexDigit? b
  let c ← hexDigit? c
  let d ← hexDigit? d
  some (((a * 16 + b) * 16 + c) * 16 + d)

/-- The characters the short escapes stand for. -/
def shortEscapes : List (Char × Char) :=
  [('"', '"'), ('\\', '\\'), ('/', '/'), ('b', '\x08'), ('f', '\x0c'), ('n', '\n'), ('r', '\r'),
   ('t', '\t')]

/-- Some units in front of those that have been read. -/
def push (us : List Nat) (read : List Nat × Text) : List Nat × Text := (us ++ read.1, read.2)

/-- The UTF-16 units of a string, up to the quote that closes it. -/
def body? : Text → Option (List Nat × Text)
  | [] => none
  | '"' :: t => some ([], t)
  | '\\' :: 'u' :: a :: b :: c :: d :: t =>
    (unit? a b c d).bind fun n => (body? t).map (push [n])
  | '\\' :: c :: t =>
    (shortEscapes.lookup c).bind fun c => (body? t).map (push (Utf16.encodeChar c))
  | c :: t =>
    if c = '\\' ∨ c.toNat < 0x20 then none else (body? t).map (push (Utf16.encodeChar c))

/-- The string that a quote has opened. -/
def string? (t : Text) : Option (Text × Text) :=
  (body? t).bind fun read => (Utf16.decode? read.1).map (·, read.2)

/-- Digits, at least one of them. -/
def digits? (t : Text) : Option (Text × Text) :=
  if t.takeWhile Lexicon.isDigit = [] then none
  else some (t.takeWhile Lexicon.isDigit, t.dropWhile Lexicon.isDigit)

/-- The digits of a number before its point: none of them is a zero too
many. -/
def whole? (t : Text) : Option (Text × Text) :=
  (digits? t).filter fun read => read.1 = ['0'] ∨ read.1.head? ≠ some '0'

/-- The digits after the point, if there is one. -/
def fraction? : Text → Option (Text × Text)
  | '.' :: t => digits? t
  | t => some ([], t)

/-- The number after the sign of an exponent. -/
def power? : Text → Option (Int × Text)
  | '-' :: t => (digits? t).map fun read => (-Literal.decimal read.1, read.2)
  | '+' :: t => (digits? t).map fun read => (Literal.decimal read.1, read.2)
  | t => (digits? t).map fun read => (Literal.decimal read.1, read.2)

/-- The exponent, if there is one. -/
def exponent? : Text → Option (Int × Text)
  | [] => some (0, [])
  | c :: t => if c = 'e' ∨ c = 'E' then power? t else some (0, c :: t)

/-- A number without its sign. -/
def magnitude? (t : Text) : Option ((Int × Int) × Text) := do
  let (whole, t) ← whole? t
  let (fraction, t) ← fraction? t
  let (power, t) ← exponent? t
  some ((Literal.decimal (whole ++ fraction), power - fraction.length), t)

/-- A number. -/
def number? : Text → Option (Json × Text)
  | '-' :: t => (magnitude? t).map fun read => (number (-read.1.1) read.1.2, read.2)
  | t => (magnitude? t).map fun read => (number read.1.1 read.1.2, read.2)

/-- A value that no bracket and no quote opens. -/
def plain? : Text → Option (Json × Text)
  | 'n' :: 'u' :: 'l' :: 'l' :: t => some (null, t)
  | 't' :: 'r' :: 'u' :: 'e' :: t => some (bool true, t)
  | 'f' :: 'a' :: 'l' :: 's' :: 'e' :: t => some (bool false, t)
  | t => number? t

section

variable {α : Type}

/-- Items with commas between them, at least one and at most so many, up to
the bracket that closes them. -/
def more? (read : Text → Option (α × Text)) (close : Char) : Nat → Text → Option (List α × Text)
  | 0, _ => none
  | n + 1, t =>
    (read t).bind fun first =>
      match skip first.2 with
      | [] => none
      | c :: t =>
        if c = close then some ([first.1], t)
        else if c = ',' then (more? read close n t).map (Prod.map (first.1 :: ·) id)
        else none

/-- Items up to a bracket, perhaps none. -/
def items? (read : Text → Option (α × Text)) (close : Char) (t : Text) :
    Option (List α × Text) :=
  more? read close t.length t <|>
    match skip t with
    | [] => none
    | c :: t => if c = close then some ([], t) else none

end

/-- A member of an object: its name and its value. -/
def member? (read : Text → Option (Json × Text)) (t : Text) : Option ((Text × Json) × Text) :=
  match skip t with
  | '"' :: t =>
    (string? t).bind fun name =>
      match skip name.2 with
      | ':' :: t => (read t).map (Prod.map (name.1, ·) id)
      | _ => none
  | _ => none

/-- A value with fewer than so many brackets one inside the other. -/
def value? : Nat → Text → Option (Json × Text)
  | 0, _ => none
  | depth + 1, t =>
    match skip t with
    | '"' :: t => (string? t).map (Prod.map string id)
    | '[' :: t => (items? (value? depth) ']' t).map (Prod.map array id)
    | '\x7b' :: t => (items? (member? (value? depth)) '\x7d' t).map (Prod.map object id)
    | t => plain? t

/-- **The value a JSON text stands for**, if it is one. No text has as many
brackets one inside the other as it has characters. -/
def decode (t : Text) : Option Json :=
  (value? t.length t).bind fun read => if skip read.2 = [] then some read.1 else none

/-! ## Strings -/

theorem body?_unit {n : Nat} (h : n < 0x10000) (t : Text) :
    body? (Listing.jsonUnit n ++ t) = (body? t).map (push [n]) := by
  have hdigit : ∀ d < 16, hexDigit? (Nat.digitChar d) = some d := by decide
  have hunit : unit? (Nat.digitChar (n / 16 / 16 / 16)) (Nat.digitChar (n / 16 / 16 % 16))
      (Nat.digitChar (n / 16 % 16)) (Nat.digitChar (n % 16)) = some n := by
    unfold unit?
    rw [hdigit _ (by omega), hdigit _ (by omega), hdigit _ (by omega), hdigit _ (by omega)]
    show some _ = some n
    congr 1
    omega
  unfold Listing.jsonUnit
  rw [Text.hex_four h]
  show body? ('\\' :: 'u' :: _ :: _ :: _ :: _ :: t) = _
  rw [body?, hunit]
  rfl

/-- **Units are read in front of anything.** -/
theorem body?_units {us : List Nat} (h : ∀ n ∈ us, n < 0x10000) (t : Text) :
    body? (us.flatMap Listing.jsonUnit ++ t) = (body? t).map (push us) := by
  induction us with
  | nil => exact Option.map_id'.symm
  | cons n us ih =>
    rw [List.forall_mem_cons] at h
    rw [List.flatMap_cons, List.append_assoc, body?_unit h.1, ih h.2, Option.map_map]
    rfl

theorem body?_short {c d : Char} (h : shortEscapes.lookup c = some d) (t : Text) :
    body? ('\\' :: c :: t) = (body? t).map (push (Utf16.encodeChar d)) := by
  have hu : c ≠ 'u' := by
    rintro rfl
    cases h
  rw [body?.eq_4 c t fun _ _ _ _ _ hc _ => hu hc, h]
  rfl

theorem body?_plain {c : Char} (hq : c ≠ '"') (hb : c ≠ '\\') (hn : ¬ c.toNat < 0x20) (t : Text) :
    body? (c :: t) = (body? t).map (push (Utf16.encodeChar c)) := by
  rw [body?.eq_5 c t hq (fun _ _ _ _ _ hc _ => hb hc) fun _ _ hc _ => hb hc,
    if_neg (not_or.2 ⟨hb, hn⟩)]

/-- **How a character is written** inside a string: by a short escape, as it is,
or by its units. -/
theorem jsonChar_cases (c : Char) :
    (∃ d, shortEscapes.lookup d = some c ∧ d.toNat < 0x80 ∧ Listing.jsonChar c = ['\\', d]) ∨
    (c ≠ '"' ∧ c ≠ '\\' ∧ 0x20 ≤ c.toNat ∧ c.toNat < 0x80 ∧ Listing.jsonChar c = [c]) ∨
    Listing.jsonChar c = (Utf16.encodeChar c).flatMap Listing.jsonUnit := by
  unfold Listing.jsonChar
  dsimp only
  split_ifs with hq hb hn hr ht hf hs hp hw
  · exact .inl ⟨'"', by rw [hq]; rfl, by decide, rfl⟩
  · exact .inl ⟨'\\', by rw [hb]; rfl, by decide, rfl⟩
  · exact .inl ⟨'n', by rw [hn]; rfl, by decide, rfl⟩
  · exact .inl ⟨'r', by rw [hr]; rfl, by decide, rfl⟩
  · exact .inl ⟨'t', by rw [ht]; rfl, by decide, rfl⟩
  · exact .inl ⟨'f', by rw [hf]; rfl, by decide, rfl⟩
  · exact .inl ⟨'b', by rw [hs]; rfl, by decide, rfl⟩
  · exact .inr (.inl ⟨hq, hb, hp.1, by omega, rfl⟩)
  · refine .inr (.inr ?_)
    rw [Utf16.encodeChar, if_pos hw, List.flatMap_singleton]
  · refine .inr (.inr ?_)
    rw [Utf16.encodeChar, if_neg hw, List.flatMap_cons, List.flatMap_singleton]

theorem body?_jsonChar (c : Char) (t : Text) :
    body? (Listing.jsonChar c ++ t) = (body? t).map (push (Utf16.encodeChar c)) := by
  rcases jsonChar_cases c with ⟨d, hd, -, hc⟩ | ⟨hq, hb, hn, -, hc⟩ | hc
  · rw [hc]
    exact body?_short hd t
  · rw [hc]
    exact body?_plain hq hb (Nat.not_lt.2 hn) t
  · rw [hc]
    exact body?_units (fun _ => Utf16.lt_of_mem_encodeChar) t

/-- **A string is read up to the quote that closes it.** -/
theorem string?_flatMap_jsonChar (s t : Text) :
    string? (s.flatMap Listing.jsonChar ++ '"' :: t) = some (s, t) := by
  have hbody : body? (s.flatMap Listing.jsonChar ++ '"' :: t) = some (Utf16.encode s, t) := by
    induction s with
    | nil => rfl
    | cons c s ih =>
      rw [List.flatMap_cons, List.append_assoc, body?_jsonChar, ih]
      rfl
  rw [string?, hbody]
  show (Utf16.decode? (Utf16.encode s)).map _ = _
  rw [Utf16.decode?_encode]
  rfl

/-! ## Reading in front of other text -/

/-- Blank space. -/
def Blank (t : Text) : Prop := ∀ c ∈ t, Lexicon.isSpace c = true

/-- What may follow a value: nothing, a comma or a blank. -/
def Follows (t : Text) : Prop := ∀ c ∈ t.head?, c = ',' ∨ Lexicon.isSpace c = true

/-- **A text is read as a value** in front of whatever may follow one. -/
def ReadsAs {α : Type} (read : Text → Option (α × Text)) (w : Text) (a : α) : Prop :=
  ∀ t, Follows t → read (w ++ t) = some (a, t)

theorem skip_append {gap : Text} (h : Blank gap) (t : Text) : skip (gap ++ t) = skip t :=
  List.dropWhile_append_of_pos h

theorem skip_cons {c : Char} (h : Lexicon.isSpace c = false) (t : Text) : skip (c :: t) = c :: t :=
  List.dropWhile_cons_of_neg (by rw [h]; decide)

theorem follows_append {gap : Text} (h : Blank gap) (hn : gap ≠ []) (t : Text) :
    Follows (gap ++ t) := by
  obtain ⟨c, gap, rfl⟩ := List.exists_cons_of_ne_nil hn
  rintro d hd
  cases hd
  exact .inr (h c List.mem_cons_self)

/-- Blank space in front of a value is passed over. -/
theorem ReadsAs.blank {d : Nat} {w : Text} {v : Json} (h : ReadsAs (value? d) w v) (gap : Text)
    (hg : Blank gap) : ReadsAs (value? d) (gap ++ w) v := by
  intro t ht
  rw [← h t ht, List.append_assoc]
  cases d with
  | zero => rfl
  | succ d => rw [value?, value?, skip_append hg]

theorem jsonString_append (s t : Text) :
    Listing.jsonString s ++ t = '"' :: (s.flatMap Listing.jsonChar ++ '"' :: t) := by
  unfold Listing.jsonString
  rw [List.cons_append, List.cons_append, List.append_assoc, List.singleton_append]

theorem readsAs_string (d : Nat) (s : Text) :
    ReadsAs (value? (d + 1)) (Listing.jsonString s) (string s) := by
  intro t _
  rw [jsonString_append, value?, skip_cons rfl]
  show (string? _).map _ = _
  rw [string?_flatMap_jsonChar]
  rfl

/-! ## Numbers -/

/-- Digits are read up to what may follow them. -/
theorem whole?_ofNat (n : Nat) {t : Text} (ht : Follows t) :
    whole? (Text.ofNat n ++ t) = some (Text.ofNat n, t) := by
  have hdigit : ∀ c ∈ t.head?, Lexicon.isDigit c = false := by
    intro c hc
    rcases ht c hc with rfl | h
    · rfl
    · simp only [Lexicon.isSpace, Bool.or_eq_true, decide_eq_true_eq] at h
      rcases h with ((rfl | rfl) | rfl) | rfl <;> rfl
  have hzero : Text.ofNat n = ['0'] ∨ (Text.ofNat n).head? ≠ some '0' := by
    by_cases h : n = 0
    · exact .inl (by rw [h]; rfl)
    · exact .inr (Text.head?_ofNat h)
  unfold whole? digits?
  rw [Text.takeWhile_run (fun _ => Text.isDigit_of_mem_ofNat) hdigit,
    Text.dropWhile_run (fun _ => Text.isDigit_of_mem_ofNat) hdigit,
    if_neg (Text.ofNat_ne_nil n)]
  exact Option.filter_some_pos (decide_eq_true hzero)

theorem fraction?_of_follows {t : Text} (ht : Follows t) : fraction? t = some ([], t) := by
  refine fraction?.eq_2 t fun u hu => ?_
  rcases ht '.' (by rw [hu]; rfl) with h | h <;> cases h

theorem exponent?_of_follows {t : Text} (ht : Follows t) : exponent? t = some (0, t) := by
  cases t with
  | nil => rfl
  | cons c t =>
    refine if_neg fun hc => ?_
    rcases hc with rfl | rfl <;> rcases ht _ rfl with h | h <;> cases h

theorem magnitude?_ofNat (n : Nat) {t : Text} (ht : Follows t) :
    magnitude? (Text.ofNat n ++ t) = some (((n : Int), (0 : Int)), t) := by
  unfold magnitude?
  rw [whole?_ofNat n ht]
  show (fraction? t).bind _ = _
  rw [fraction?_of_follows ht]
  show (exponent? t).bind _ = _
  rw [exponent?_of_follows ht]
  show some (((Literal.decimal (Text.ofNat n ++ []) : Int), (0 : Int)), t) = _
  rw [List.append_nil, Text.decimal_ofNat]

/-- What begins with a sign or a digit is read as a number. -/
theorem value?_eq_number? {c : Char} (hc : c = '-' ∨ Lexicon.isDigit c = true) (d : Nat)
    (t : Text) : value? (d + 1) (c :: t) = number? (c :: t) := by
  have hs : Lexicon.isSpace c = false := by
    rcases hc with rfl | hc
    · rfl
    · exact Lexicon.isSpace_eq_false_of_isWordChar (by rw [Lexicon.isWordChar, hc, Bool.or_true])
  have hx : ∀ {x : Char} {u : Text}, c :: t = x :: u → x = '-' ∨ Lexicon.isDigit x = true :=
    fun h => (List.cons.inj h).1 ▸ hc
  rw [value?, skip_cons hs]
  split
  · next h => exact absurd (hx h) (by decide)
  · next h => exact absurd (hx h) (by decide)
  · next h => exact absurd (hx h) (by decide)
  · unfold plain?
    split
    · next h => exact absurd (hx h) (by decide)
    · next h => exact absurd (hx h) (by decide)
    · next h => exact absurd (hx h) (by decide)
    · rfl

theorem readsAs_number (d : Nat) (n : Int) :
    ReadsAs (value? (d + 1)) (Text.ofInt n) (number n 0) := by
  intro t ht
  cases n with
  | ofNat n =>
    obtain ⟨c, ds, hds⟩ := List.exists_cons_of_ne_nil (Text.ofNat_ne_nil n)
    have hc : Lexicon.isDigit c = true :=
      Text.isDigit_of_mem_ofNat (n := n) (by rw [hds]; exact List.mem_cons_self)
    have hm := magnitude?_ofNat n ht
    show value? (d + 1) (Text.ofNat n ++ t) = _
    rw [hds, List.cons_append] at hm ⊢
    rw [value?_eq_number? (.inr hc), number?.eq_2 _ fun u hu => ?_, hm]
    · rfl
    · rw [(List.cons.inj hu).1] at hc
      cases hc
  | negSucc n =>
    show value? (d + 1) ('-' :: (Text.ofNat (n + 1) ++ t)) = _
    rw [value?_eq_number? (.inl rfl), number?, magnitude?_ofNat _ ht]
    rfl

/-! ## Objects and arrays -/

theorem ReadsAs.member {read : Text → Option (Json × Text)} {w : Text} {v : Json}
    (h : ReadsAs read w v) (gap : Text) (hg : Blank gap) (name : Text) :
    ReadsAs (member? read) (gap ++ (Listing.jsonString name ++ ':' :: w)) (name, v) := by
  intro t ht
  rw [List.append_assoc, List.append_assoc, jsonString_append, member?, skip_append hg,
    skip_cons rfl]
  show (string? _).bind _ = _
  rw [string?_flatMap_jsonChar, Option.bind_some, List.cons_append, skip_cons rfl]
  show (read (w ++ t)).map _ = _
  rw [h t ht]
  rfl

section

variable {α : Type} {read : Text → Option (α × Text)} {ws : List Text} {as : List α}

/-- A list has no more items than its text has characters, and one more. -/
theorem length_le_length_join (ws : List Text) :
    ws.length ≤ (Text.join [','] ws).length + 1 := by
  induction ws with
  | nil => exact Nat.zero_le _
  | cons w ws ih =>
    cases ws with
    | nil => exact Nat.le_add_left _ _
    | cons u us =>
      rw [Text.join, List.length_append, List.length_append, List.length_cons,
        List.length_singleton]
      omega

/-- **Items are read one after the other** up to the bracket that closes them. -/
theorem more?_join (h : List.Forall₂ (ReadsAs read) ws as) (hn : ws ≠ []) {close : Char}
    (hc : close ≠ ',') (hs : Lexicon.isSpace close = false) {gap : Text} (hg : Blank gap)
    (hgn : gap ≠ []) {n : Nat} (hw : ws.length ≤ n) (t : Text) :
    more? read close n (Text.join [','] ws ++ (gap ++ close :: t)) = some (as, t) := by
  induction h generalizing n with
  | nil => exact absurd rfl hn
  | @cons w a ws as hfirst hrest ih =>
    obtain ⟨n, rfl⟩ : ∃ m, n = m + 1 := Nat.exists_eq_add_of_le' (Nat.le_of_add_left_le hw)
    cases hrest with
    | nil =>
      rw [Text.join, more?, hfirst _ (follows_append hg hgn _), Option.bind_some, skip_append hg,
        skip_cons hs]
      exact if_pos rfl
    | @cons u b us bs hu hus =>
      have hcomma : ∀ v, Follows (',' :: v) := fun v c hc => .inl (Option.some.inj hc).symm
      rw [Text.join, more?, List.append_assoc, List.append_assoc, List.singleton_append,
        hfirst _ (hcomma _), Option.bind_some, skip_cons rfl]
      dsimp only
      rw [if_neg hc.symm, if_pos rfl, ih (List.cons_ne_nil _ _) (Nat.le_of_succ_le_succ hw)]
      rfl

theorem items?_join (h : List.Forall₂ (ReadsAs read) ws as) (hn : ws ≠ []) {close : Char}
    (hc : close ≠ ',') (hs : Lexicon.isSpace close = false) {gap : Text} (hg : Blank gap)
    (hgn : gap ≠ []) (t : Text) :
    items? read close (Text.join [','] ws ++ (gap ++ [close]) ++ t) = some (as, t) := by
  have hw := length_le_length_join ws
  rw [List.append_assoc, List.append_assoc, List.singleton_append, items?,
    more?_join h hn hc hs hg hgn]
  · rfl
  · rw [List.length_append, List.length_append, List.length_cons]
    omega

end

theorem readsAs_object {d : Nat} {ws : List Text} {ms : List (Text × Json)}
    (h : List.Forall₂ (ReadsAs (member? (value? d))) ws ms) (hn : ws ≠ []) (gap : Text)
    (hg : Blank gap) (hgn : gap ≠ []) :
    ReadsAs (value? (d + 1)) ('\x7b' :: (Text.join [','] ws ++ (gap ++ ['\x7d']))) (object ms) := by
  intro t _
  rw [List.cons_append, value?, skip_cons rfl]
  show (items? _ _ _).map _ = _
  rw [items?_join h hn (by decide) rfl hg hgn]
  rfl

theorem readsAs_array {d : Nat} {ws : List Text} {vs : List Json}
    (h : List.Forall₂ (ReadsAs (value? d)) ws vs) (hn : ws ≠ []) (gap : Text)
    (hg : Blank gap) (hgn : gap ≠ []) :
    ReadsAs (value? (d + 1)) ('[' :: (Text.join [','] ws ++ (gap ++ [']']))) (array vs) := by
  intro t _
  rw [List.cons_append, value?, skip_cons rfl]
  show (items? _ _ _).map _ = _
  rw [items?_join h hn (by decide) rfl hg hgn]
  rfl

/-- **A line that is read as a value stands for it.** -/
theorem decode_line {w : Text} {v : Json} (h : ReadsAs (value? (Text.line w).length) w v) :
    decode (Text.line w) = some v := by
  have hr : value? (Text.line w).length (Text.line w) = some (v, ['\n']) := by
    refine h ['\n'] fun c hc => ?_
    cases hc
    exact .inr rfl
  rw [decode, hr]
  rfl

end Json

end Asl
