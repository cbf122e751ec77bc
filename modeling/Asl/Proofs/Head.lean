import Asl.Proofs.Calls
import Asl.Proofs.Tiling

/-!
# Reading with a head

The step of the library takes a text apart, and a text cannot be taken apart
beyond its end. A scan can also be written the way a machine would do it, with
a head that moves over the source one character at a time. Such a scan asks
before it knows: it steps forward where there may be no character, looks a
class up among the handlers and a character up in a table, and each of these
can come to nothing. What comes to nothing is a `Lapse`, and everything here
that can have one says so in its type.

The classes of characters are a table too. It is filled set by set, and a
later set overwrites an earlier one (`Lexicon.classes`). Nothing in the way it
is filled says that the marks of class `single` have a kind, or that a
character of class `letter` continues a word.

Each loop ends since a step forward leaves less of the source. Whether the
step can be made is not settled by that: the loops over a comment and over
blank space ask first whether the head is inside the source, those over a word
and a number rely on the end of the source being neither letter nor digit.
-/

namespace Asl

/-- **What can go wrong in a scan itself**, whatever is wrong with its
source. -/
inductive Lapse where
  /-- A step forward with no character left. -/
  | pastEnd
  /-- A class of characters that has no handler. -/
  | unhandled (k : CharClass)
  /-- A character asked for among the punctuation marks that is none. -/
  | notPunctuation (c : Char)
  /-- A character asked for among the comparisons that is none. -/
  | notComparison (c : Char)
deriving DecidableEq, Repr

theorem Lapse.ok_bind {α β : Type} (a : α) (f : α → Except Lapse β) :
    (Except.ok a >>= f) = f a :=
  rfl

/-- What came to something did so step by step. -/
theorem Lapse.exists_of_bind {α β : Type} {x : Except Lapse α} {f : α → Except Lapse β} {b : β}
    (h : x >>= f = .ok b) : ∃ a, x = .ok a ∧ f a = .ok b := by
  cases x with
  | error l => cases h
  | ok a => exact ⟨a, rfl, h⟩

/-! ## The table of classes -/

namespace Lexicon

/-- The letters, one by one. -/
def letters : List Char := "abcdefghijklmnopqrstuvwxyzABCDEFGHIJKLMNOPQRSTUVWXYZ".toList

/-- The digits, one by one. -/
def digits : List Char := "0123456789".toList

/-- The blank characters, one by one. -/
def blanks : List Char := " \t\r\n".toList

/-- A table after some characters have been given a class. The entry made last
stands first, so it is the one that is found. -/
def assign (k : CharClass) (cs : List Char) (table : List (Char × CharClass)) :
    List (Char × CharClass) :=
  cs.foldl (fun entries c => (c, k) :: entries) table

/-- **The classes of the characters that start a lexeme.** -/
def classes : List (Char × CharClass) :=
  [] |> assign .single (punctuation.map Prod.fst)
    |> assign .comparison (comparisons.map Prod.fst)
    |> assign .letter letters
    |> assign .digit digits
    |> assign .space blanks
    |> assign .slash ['/']
    |> assign .quote ['\'']
    |> assign .dquote ['"']

/-- What is found after an assignment: the class just given, or what was found
before. -/
theorem lookup_assign (k : CharClass) (cs : List Char) (table : List (Char × CharClass))
    (c : Char) :
    (assign k cs table).lookup c = if c ∈ cs then some k else table.lookup c := by
  induction cs generalizing table with
  | nil => rfl
  | cons d cs ih =>
    show (assign k cs ((d, k) :: table)).lookup c = _
    rw [ih, List.lookup_cons]
    by_cases hd : c = d
    · simp [hd]
    · rw [beq_false_of_ne hd]
      simp [hd]

theorem mem_letters_iff {c : Char} : c ∈ letters ↔ isLetter c = true := by
  constructor
  · intro h
    have hall : letters.all isLetter = true := by decide
    exact List.all_eq_true.1 hall c h
  · intro h
    have hlower : ∀ n < 123, 97 ≤ n → Char.ofNat n ∈ letters := by decide
    have hupper : ∀ n < 91, 65 ≤ n → Char.ofNat n ∈ letters := by decide
    rw [← Char.ofNat_toNat c]
    obtain ⟨hl, hu⟩ | ⟨hl, hu⟩ := isLetter_iff.1 h
    · exact hlower _ (Nat.lt_succ_of_le hu) hl
    · exact hupper _ (Nat.lt_succ_of_le hu) hl

theorem mem_digits_iff {c : Char} : c ∈ digits ↔ isDigit c = true := by
  constructor
  · intro h
    have hall : digits.all isDigit = true := by decide
    exact List.all_eq_true.1 hall c h
  · intro h
    have hall : ∀ n < 58, 48 ≤ n → Char.ofNat n ∈ digits := by decide
    obtain ⟨hl, hu⟩ := isDigit_iff.1 h
    rw [← Char.ofNat_toNat c]
    exact hall _ (Nat.lt_succ_of_le hu) hl

theorem mem_blanks_iff {c : Char} : c ∈ blanks ↔ isSpace c = true := by
  simp [blanks, isSpace, or_assoc]

/-- A table has an entry for the characters it lists. -/
theorem mem_map_fst_iff {α : Type} {table : List (Char × α)} {c : Char} :
    c ∈ table.map Prod.fst ↔ (table.lookup c).isSome = true := by
  rw [← Option.ne_none_iff_isSome, ne_eq, List.lookup_eq_none_iff, List.mem_map]
  simp only [bne_iff_ne, ne_eq, not_forall, not_not, exists_prop]
  exact exists_congr fun e => and_congr_right fun _ => eq_comm

/-- **The table gives each character the class the lexicon gives it.** What was
overwritten is what the lexicon asks about last. -/
theorem lookup_classes (c : Char) : classes.lookup c = CharClass.of? c := by
  unfold classes CharClass.of? Lead.of?
  simp only [lookup_assign, mem_letters_iff, mem_digits_iff, mem_blanks_iff, List.mem_singleton,
    mem_map_fst_iff, List.lookup_nil]
  -- the three delimiters are told apart in another order
  by_cases hs : c = '/'
  · subst hs
    rfl
  by_cases hq : c = '\''
  · subst hq
    rfl
  by_cases hd : c = '"'
  · subst hd
    rfl
  rw [if_neg hs, if_neg hq, if_neg hd, if_neg hs, if_neg hq, if_neg hd]
  rcases comparisons.lookup c with _ | ⟨alone, withEquals⟩
  · cases punctuation.lookup c <;> (split_ifs <;> first | rfl | contradiction)
  · split_ifs <;> first | rfl | contradiction

/-- What announces a punctuation mark is in the table of them. -/
theorem lookup_punctuation {c : Char} {kind : TokenKind} (h : Lead.of? c = some (.single kind)) :
    punctuation.lookup c = some kind := by
  have hall : ∀ e ∈ punctuation, punctuation.lookup e.1 = some e.2 := by decide
  exact hall _ (Lead.mem_punctuation_of_single h)

/-- What announces a comparison is in the table of them. -/
theorem lookup_comparisons {c : Char} {alone : Option TokenKind} {withEquals : TokenKind}
    (h : Lead.of? c = some (.comparison alone withEquals)) :
    comparisons.lookup c = some (alone, withEquals) := by
  have hall : ∀ e ∈ comparisons, comparisons.lookup e.1 = some e.2 := by decide
  exact hall _ (Lead.mem_comparisons_of_comparison h)

/-- The characters of a class that is looked up further are in the table they
are looked up in. -/
theorem isSome_punctuation {c : Char} (h : classes.lookup c = some .single) :
    (punctuation.lookup c).isSome = true := by
  rw [lookup_classes, CharClass.of?, Option.map_eq_some_iff] at h
  obtain ⟨lead, hl, hk⟩ := h
  cases lead with
  | single kind =>
    rw [lookup_punctuation hl]
    rfl
  | _ => cases hk

theorem isSome_comparisons {c : Char} (h : classes.lookup c = some .comparison) :
    (comparisons.lookup c).isSome = true := by
  rw [lookup_classes, CharClass.of?, Option.map_eq_some_iff] at h
  obtain ⟨lead, hl, hk⟩ := h
  cases lead with
  | comparison alone withEquals =>
    rw [lookup_comparisons hl]
    rfl
  | _ => cases hk

end Lexicon

/-! ## The head -/

/-- **A head over a source.** -/
structure Head where
  /-- The source. -/
  source : Source
  /-- The line the head is on, counted from one. -/
  line : Int
  /-- The column it is in, counted from one. -/
  column : Int
  /-- The number of characters before it. -/
  offset : Nat
deriving DecidableEq, Repr

namespace Head

/-- The head before the first character of a source. -/
def start (s : Source) : Head := ⟨s, 1, 1, 0⟩

/-- Where the head is. -/
def place (h : Head) : Position := ⟨h.line, h.column, h.offset⟩

/-- Whether the head is before a character. -/
def isInside (h : Head) : Bool := h.offset < h.source.text.length

/-- The character under the head, if there is one. -/
def peek (h : Head) : Option Char := h.source.text[h.offset]?

/-- The character under the head, and the head after it. -/
def advance (h : Head) : Except Lapse (Char × Head) :=
  match h.source.text[h.offset]? with
  | none => .error .pastEnd
  | some c =>
    .ok (c,
      if c = '\n' then { h with line := h.line + 1, column := 1, offset := h.offset + 1 }
      else { h with column := h.column + 1, offset := h.offset + 1 })

/-- There is no step forward exactly at the end of the source. -/
theorem advance_eq_error_iff (h : Head) :
    h.advance = .error .pastEnd ↔ h.source.text.length ≤ h.offset := by
  rw [← List.getElem?_eq_none_iff]
  unfold advance
  cases h.source.text[h.offset]? with
  | none => exact iff_of_true rfl rfl
  | some c => exact iff_of_false (fun he => by cases he) (fun he => by cases he)

/-- The number of characters the head has not passed. -/
def left (h : Head) : Nat := h.source.text.length - h.offset

/-- A step forward is made from inside the source, and leaves less of it. -/
theorem left_lt_of_advance {h h' : Head} {c : Char} (ha : h.advance = .ok (c, h')) :
    h'.left < h.left := by
  unfold advance at ha
  split at ha
  · cases ha
  · next d hd =>
    have hlt := (List.getElem?_eq_some_iff.1 hd).1
    obtain ⟨rfl, rfl⟩ := Prod.mk.inj (Except.ok.inj ha)
    unfold left
    split <;> (dsimp only; omega)

/-- The head after it has stepped forward as long as a condition holds. -/
def passWhile (cond : Head → Bool) (h : Head) : Except Lapse Head :=
  if cond h then
    match _ha : h.advance with
    | .error l => .error l
    | .ok (_, h') => h'.passWhile cond
  else .ok h
termination_by h.left
decreasing_by exact left_lt_of_advance _ha

theorem passWhile_of_false {cond : Head → Bool} {h : Head} (hc : cond h = false) :
    h.passWhile cond = .ok h := by
  rw [passWhile, hc]
  rfl

theorem passWhile_of_advance {cond : Head → Bool} {h h' : Head} {c : Char} (hc : cond h = true)
    (ha : h.advance = .ok (c, h')) : h.passWhile cond = h'.passWhile cond := by
  rw [passWhile, if_pos hc]
  split <;> simp_all

/-- What the head has passed since it was at a place. -/
def since (h : Head) (p : Position) : Text := h.source.text.slice p.offset h.offset

/-- What has been passed since a place, as a token. -/
def token (h : Head) (kind : TokenKind) (p : Position) : Event :=
  .token ⟨kind, kind.valueOf (h.since p), h.since p, ⟨p, h.place⟩, kind.channel⟩

/-- What has been passed since a place, as the text of an error. -/
def complaint (h : Head) (cause : Fault) (p : Position) : LexError :=
  ⟨cause.kind, cause.message, p, h.source, h.since p⟩

/-! ## The conditions of the loops -/

/-- Whether a word goes on. -/
def inWord (h : Head) : Bool := h.peek.any Lexicon.isWordChar

/-- Whether a number goes on. -/
def inNumber (h : Head) : Bool := h.peek.any Lexicon.isDigit

/-- Whether blank space goes on. -/
def inSpace (h : Head) : Bool := h.isInside && h.peek.any Lexicon.isSpace

/-- Whether a comment goes on. The end of the source is no line end. -/
def inComment (h : Head) : Bool := h.isInside && !h.peek.any Lexicon.isLineEnd

/-- Whether a string literal is cut short: by a line end, or by the end of the
source. -/
def isCut (h : Head) : Bool := h.peek.all Lexicon.isLineEnd

/-! ## The handlers -/

/-- What is done about a lexeme, from its first character on: the event, and
the head after it. -/
abbrev Handler := Head → Except Lapse (Event × Head)

/-- A punctuation mark. -/
def single : Handler := fun h => do
  let (c, h₁) ← h.advance
  match Lexicon.punctuation.lookup c with
  | some kind => return (h₁.token kind h.place, h₁)
  | none => throw (.notPunctuation c)

/-- An operator an equals sign may extend. -/
def comparison : Handler := fun h => do
  let (c, h₁) ← h.advance
  match Lexicon.comparisons.lookup c with
  | none => throw (.notComparison c)
  | some (alone, withEquals) =>
    if h₁.peek = some '=' then
      let (_, h₂) ← h₁.advance
      return (h₂.token withEquals h.place, h₂)
    else
      match alone with
      | some kind => return (h₁.token kind h.place, h₁)
      | none => return (.error (h₁.complaint (.bareOperator c) h.place), h₁)

/-- A division or a comment. -/
def slash : Handler := fun h => do
  let (_, h₁) ← h.advance
  if h₁.peek = some '/' then
    let h₂ ← h₁.passWhile inComment
    return (h₂.token .comment h.place, h₂)
  else return (h₁.token .div h.place, h₁)

/-- A word. -/
def word : Handler := fun h => do
  let h₁ ← h.passWhile inWord
  return (h₁.token (Lexicon.wordKind (h₁.since h.place)) h.place, h₁)

/-- What follows the point of a number that begins at a place. -/
def fraction (p : Position) : Handler := fun h => do
  if h.inNumber then
    let h₁ ← h.passWhile inNumber
    return (h₁.token .floatval p, h₁)
  else return (.error (h.complaint .missingFraction p), h)

/-- A number. -/
def number : Handler := fun h => do
  let h₁ ← h.passWhile inNumber
  if h₁.peek = some '.' then
    let (_, h₂) ← h₁.advance
    h₂.fraction h.place
  else return (h₁.token .intval h.place, h₁)

/-- The end of a character literal that begins at a place. -/
def closeChar (p : Position) : Handler := fun h => do
  if h.peek = some '\'' then
    let (_, h₁) ← h.advance
    return (h₁.token .charval p, h₁)
  else return (.error (h.complaint .unclosedChar p), h)

/-- A character literal. -/
def charLiteral : Handler := fun h => do
  let (_, h₁) ← h.advance
  match h₁.peek with
  | none => return (.error (h₁.complaint .openChar h.place), h₁)
  | some '\'' =>
    let (_, h₂) ← h₁.advance
    return (.error (h₂.complaint .emptyChar h.place), h₂)
  | some '\\' =>
    let (_, h₂) ← h₁.advance
    match h₂.peek with
    | none => return (.error (h₂.complaint .openChar h.place), h₂)
    | some code =>
      let (_, h₃) ← h₂.advance
      if Escape.isCode code then h₃.closeChar h.place
      else return (.error (h₃.complaint (.badEscape code) h₁.place), h₃)
  | some _ =>
    let (_, h₂) ← h₁.advance
    h₂.closeChar h.place

/-- What one turn of the loop over a string literal comes to. -/
inductive Turn where
  /-- The loop is left, with an event. -/
  | leave (event : Event) (h : Head)
  /-- The loop goes on. -/
  | again (bad : Option LexError) (h : Head)

/-- One turn of the loop over a string literal that begins at a place. The
first bad escape is kept and the loop goes on, so that the head comes to the
end of the literal. -/
def stringTurn (p : Position) (bad : Option LexError) (h : Head) : Except Lapse Turn := do
  if h.isCut then return .leave (bad.elim (.error (h.complaint .openString p)) .error) h
  else if h.peek = some '"' then
    let (_, h₁) ← h.advance
    return .leave (bad.elim (h₁.token .stringval p) .error) h₁
  else if h.peek = some '\\' then
    let (_, h₁) ← h.advance
    if h₁.isCut then return .again bad h₁
    else
      let (code, h₂) ← h₁.advance
      if Escape.isCode code then return .again bad h₂
      else return .again (bad.or (some (h₂.complaint (.badEscape code) h.place))) h₂
  else
    let (_, h₁) ← h.advance
    return .again bad h₁

/-- A turn after which the loop goes on has stepped forward. -/
theorem left_lt_of_stringTurn {p : Position} {bad bad' : Option LexError} {h h' : Head}
    (ht : stringTurn p bad h = .ok (.again bad' h')) : h'.left < h.left := by
  unfold stringTurn at ht
  split at ht
  · cases ht
  · split at ht
    · obtain ⟨⟨c, h₁⟩, -, ht⟩ := Lapse.exists_of_bind ht
      cases ht
    · split at ht
      · obtain ⟨⟨c, h₁⟩, ha, ht⟩ := Lapse.exists_of_bind ht
        have hlt := left_lt_of_advance ha
        dsimp only at ht
        split at ht
        · cases ht
          exact hlt
        · obtain ⟨⟨code, h₂⟩, hb, ht⟩ := Lapse.exists_of_bind ht
          have hlt' := left_lt_of_advance hb
          dsimp only at ht
          split at ht <;> (cases ht; omega)
      · obtain ⟨⟨c, h₁⟩, ha, ht⟩ := Lapse.exists_of_bind ht
        cases ht
        exact left_lt_of_advance ha

/-- The rest of a string literal that begins at a place. -/
def stringRest (p : Position) (bad : Option LexError) (h : Head) : Except Lapse (Event × Head) :=
  match _ht : stringTurn p bad h with
  | .error l => .error l
  | .ok (.leave event h') => .ok (event, h')
  | .ok (.again bad' h') => stringRest p bad' h'
termination_by h.left
decreasing_by exact left_lt_of_stringTurn _ht

theorem stringRest_of_leave {p : Position} {bad : Option LexError} {h h' : Head} {event : Event}
    (ht : stringTurn p bad h = .ok (.leave event h')) : stringRest p bad h = .ok (event, h') := by
  rw [stringRest]
  split <;> simp_all

theorem stringRest_of_again {p : Position} {bad bad' : Option LexError} {h h' : Head}
    (ht : stringTurn p bad h = .ok (.again bad' h')) :
    stringRest p bad h = stringRest p bad' h' := by
  rw [stringRest]
  split <;> simp_all

/-- A string literal. -/
def stringLiteral : Handler := fun h => do
  let (_, h₁) ← h.advance
  stringRest h.place none h₁

/-- Blank space. -/
def space : Handler := fun h => do
  let h₁ ← h.passWhile inSpace
  return (h₁.token .space h.place, h₁)

/-- **The handler of each class.** -/
def handlers : List (CharClass × Handler) :=
  [(.single, single), (.slash, slash), (.comparison, comparison), (.letter, word),
   (.digit, number), (.quote, charLiteral), (.dquote, stringLiteral), (.space, space)]

/-- The loop the handler of a class begins with, if it begins with one. -/
def loop? : CharClass → Option (Head → Bool)
  | .letter => some inWord
  | .digit => some inNumber
  | .space => some inSpace
  | _ => none

/-- The class of the character under the head. -/
def announced (h : Head) : Option CharClass := h.peek.bind fun c => Lexicon.classes.lookup c

/-- What stands under the head. -/
def read : Handler := fun h =>
  match h.announced with
  | none => do
    let (_, h₁) ← h.advance
    return (.error (h₁.complaint .strayCharacter h.place), h₁)
  | some k =>
    match handlers.lookup k with
    | none => throw (.unhandled k)
    | some handler => handler h

end Head

/-! ## The scan a head makes -/

/-- **A scan with a head**: the head, and the error it has stopped at. -/
structure HeadScan where
  /-- The head. -/
  head : Head
  /-- The error, if any. -/
  pending : Option LexError
deriving DecidableEq, Repr

namespace HeadScan

/-- The scan before the first character of a source. -/
def start (s : Source) : HeadScan := ⟨.start s, none⟩

/-- The next event, and the scan after it. -/
def next (w : HeadScan) : Except Lapse (Event × HeadScan) :=
  match w.pending with
  | some e => .ok (.error e, w)
  | none =>
    if w.head.isInside then do
      let (event, h) ← w.head.read
      return (event, ⟨h, event.error?⟩)
    else .ok (.token (.eofAt w.head.place), w)

/-- The scan with its pending error forgotten. -/
def resume (w : HeadScan) : HeadScan := { w with pending := none }

/-- The answers to commands given one after the other, and the scan after the
last of them. -/
def run (w : HeadScan) : List Command → Except Lapse (List Event × HeadScan)
  | [] => .ok ([], w)
  | .next :: cs => do
    let (event, w₁) ← w.next
    let (events, w₂) ← w₁.run cs
    return (event :: events, w₂)
  | .resume :: cs => w.resume.run cs

end HeadScan

end Asl
