import Asl.Proofs.EventStream
import Asl.Proofs.Json
import Asl.Proofs.TextListing
import Asl.Proofs.Tiling

/-!
# The JSON listing loses nothing

A JSON listing is read back as the list of its entries, each of them an object
with the seven fields of a token (`Listing.decode_jsonArray`), so two listings
are the same for no other reason than that their entries are. It is written in
ASCII: what is outside it is written by its UTF-16 units, and these in
hexadecimal.

What an entry leaves out is where its token ends. For tokens of a source that
is no loss, since such a token ends where its lexeme leads to from where it
begins, over however many lines (`Listing.Entry.token_ofToken`). And where
there is no error nothing of a source is outside its tokens.
-/

namespace Asl

theorem Channel.name_injective : Function.Injective Channel.name := by
  intro c d h
  cases c <;> cases d <;> first | rfl | cases h

namespace Listing

open Json (ReadsAs Blank value? member?)

/-! ## Reading it back -/

/-- The fields of an entry by name, in order. -/
def Entry.members (e : Entry) : List (Text × Json) :=
  [("type".toList, .string e.kind.name),
   ("value".toList, .string e.value),
   ("raw".toList, .string e.lexeme),
   ("channel".toList, .string e.channel.name),
   ("line".toList, .number e.start.line 0),
   ("column".toList, .number e.start.column 0),
   ("offset".toList, .number e.start.offset 0)]

/-- **What an entry says**, as a JSON value. -/
def Entry.json (e : Entry) : Json := .object e.members

theorem blank_of_all {gap : Text} (h : gap.all Lexicon.isSpace = true) : Blank gap :=
  List.all_eq_true.1 h

theorem readsAs_jsonField {d : Nat} {w : Text} {v : Json} (h : ReadsAs (value? d) w v)
    (name : Text) : ReadsAs (member? (value? d)) (jsonField (name, w)) (name, v) := by
  have hw : ReadsAs (value? d) ([' '] ++ w) v := h.blank [' '] (blank_of_all rfl)
  have hf := hw.member "\n    ".toList (blank_of_all rfl) name
  have heq : jsonField (name, w)
      = "\n    ".toList ++ (jsonString name ++ ':' :: ([' '] ++ w)) := by
    unfold jsonField
    rw [List.append_assoc, List.append_assoc]
    rfl
  rw [heq]
  exact hf

theorem readsAs_fields (d : Nat) (e : Entry) :
    List.Forall₂ (ReadsAs (member? (value? (d + 1)))) (e.fields.map jsonField) e.members := by
  have hs := fun name s => readsAs_jsonField (Json.readsAs_string d s) name
  have hn := fun name n => readsAs_jsonField (Json.readsAs_number d n) name
  exact .cons (hs _ _) (.cons (hs _ _) (.cons (hs _ _) (.cons (hs _ _)
    (.cons (hn _ _) (.cons (hn _ _) (.cons (hn _ _) .nil))))))

/-- An object is read as what its entry says. -/
theorem readsAs_jsonObject (d : Nat) (e : Entry) :
    ReadsAs (value? (d + 2)) (jsonObject e) e.json := by
  have hobject := Json.readsAs_object (readsAs_fields d e) (List.cons_ne_nil _ _) "\n  ".toList
    (blank_of_all rfl) (by decide)
  have hblank := hobject.blank "\n  ".toList (blank_of_all rfl)
  have heq : jsonObject e = "\n  ".toList ++ '\x7b' ::
      (Text.join [','] (e.fields.map jsonField) ++ ("\n  ".toList ++ ['\x7d'])) := by
    unfold jsonObject
    rw [List.append_assoc]
    rfl
  rw [heq]
  exact hblank

theorem readsAs_jsonArray (d : Nat) (es : List Entry) :
    ReadsAs (value? (d + 3)) (jsonArray es) (.array (es.map Entry.json)) := by
  cases es with
  | nil =>
    intro t _
    rfl
  | cons e es =>
    have hitems : List.Forall₂ (ReadsAs (value? (d + 2))) ((e :: es).map jsonObject)
        ((e :: es).map Entry.json) :=
      List.forall₂_map_left_iff.2 (List.forall₂_map_right_iff.2
        (List.forall₂_same.2 fun e _ => readsAs_jsonObject d e))
    exact Json.readsAs_array hitems (List.cons_ne_nil _ _) ['\n'] (blank_of_all rfl) (by decide)

/-- **The array of some entries is read back as what they say.** -/
theorem decode_jsonArray (es : List Entry) :
    Json.decode (Text.line (jsonArray es)) = some (.array (es.map Entry.json)) := by
  -- two brackets stand one inside the other at most, and there are more characters than that
  have hlen : 3 ≤ (Text.line (jsonArray es)).length := by
    cases es with
    | nil => decide
    | cons e es =>
      show 3 ≤ (('[' :: (_ ++ ['\n', ']'])) ++ ['\n']).length
      simp only [List.length_append, List.length_cons]
      omega
  obtain ⟨d, hd⟩ := Nat.exists_eq_add_of_le' hlen
  refine Json.decode_line ?_
  rw [hd]
  exact readsAs_jsonArray d es

/-- An entry is told by what it says. -/
theorem Entry.json_injective : Function.Injective Entry.json := by
  rintro ⟨kind, value, lexeme, channel, ⟨line, column, offset⟩⟩ f h
  simp only [Entry.json, Entry.members, Json.object.injEq, List.cons.injEq, Prod.mk.injEq,
    Json.string.injEq, Json.number.injEq, true_and, and_true] at h
  obtain ⟨hkind, rfl, rfl, hchannel, rfl, rfl, rfl⟩ := h
  rw [TokenKind.name_injective hkind, Channel.name_injective hchannel]

/-- **Listings are the same if their entries are**, and not otherwise. -/
theorem jsonArray_inj {es fs : List Entry} :
    Text.line (jsonArray es) = Text.line (jsonArray fs) ↔ es = fs := by
  refine ⟨fun h => ?_, fun h => by rw [h]⟩
  have hd := decode_jsonArray es
  rw [h, decode_jsonArray] at hd
  exact (Entry.json_injective.list_map (Json.array.inj (Option.some.inj hd))).symm

/-! ## ASCII -/

/-- What joins texts and what they hold is all that is in them together. -/
theorem forall_mem_join {p : Char → Prop} {sep : Text} (hs : ∀ c ∈ sep, p c) {ts : List Text}
    (h : ∀ t ∈ ts, ∀ c ∈ t, p c) : ∀ c ∈ Text.join sep ts, p c := by
  induction ts with
  | nil => exact List.forall_mem_nil _
  | cons t ts ih =>
    rw [List.forall_mem_cons] at h
    cases ts with
    | nil => exact h.1
    | cons u us => exact List.forall_mem_append.2 ⟨List.forall_mem_append.2 ⟨h.1, hs⟩, ih h.2⟩

/-- A text of ASCII characters. -/
def Ascii (t : Text) : Prop := ∀ c ∈ t, c.toNat < 0x80

theorem ascii_append {t u : Text} (ht : Ascii t) (hu : Ascii u) : Ascii (t ++ u) :=
  List.forall_mem_append.2 ⟨ht, hu⟩

theorem ascii_of_all {t : Text} (h : t.all (·.toNat < 0x80) = true) : Ascii t :=
  fun c hc => of_decide_eq_true (List.all_eq_true.1 h c hc)

theorem ascii_ofInt (n : Int) : Ascii (Text.ofInt n) := by
  intro c hc
  rcases Text.isDigit_of_mem_ofInt hc with rfl | hd
  · decide
  · exact Nat.lt_of_le_of_lt (Lexicon.isDigit_iff.1 hd).2 (by decide)

theorem ascii_jsonUnit {n : Nat} (h : n < 0x10000) : Ascii (jsonUnit n) := by
  have hdigit : ∀ d < 16, (Nat.digitChar d).toNat < 0x80 := by decide
  unfold jsonUnit Ascii
  rw [Text.hex_four h]
  simp only [List.forall_mem_cons, List.not_mem_nil, false_imp_iff, implies_true, and_true]
  exact ⟨by decide, by decide, hdigit _ (by omega), hdigit _ (by omega), hdigit _ (by omega),
    hdigit _ (by omega)⟩

theorem ascii_jsonChar (c : Char) : Ascii (jsonChar c) := by
  rcases Json.jsonChar_cases c with ⟨d, -, hd, hc⟩ | ⟨-, -, -, hn, hc⟩ | hc
  · rw [hc]
    exact List.forall_mem_cons.2 ⟨by decide, List.forall_mem_singleton.2 hd⟩
  · rw [hc]
    exact List.forall_mem_singleton.2 hn
  · rw [hc]
    intro d hd
    obtain ⟨n, hn, hd⟩ := List.mem_flatMap.1 hd
    exact ascii_jsonUnit (Utf16.lt_of_mem_encodeChar hn) d hd

theorem ascii_jsonString (t : Text) : Ascii (jsonString t) := by
  refine ascii_append (List.forall_mem_cons.2 ⟨by decide, fun c hc => ?_⟩) (ascii_of_all rfl)
  obtain ⟨d, -, hd⟩ := List.mem_flatMap.1 hc
  exact ascii_jsonChar d c hd

theorem ascii_fields (e : Entry) : ∀ f ∈ e.fields, Ascii f.2 := by
  simp only [Entry.fields, List.forall_mem_cons, List.not_mem_nil, false_imp_iff, implies_true,
    and_true]
  exact ⟨ascii_jsonString _, ascii_jsonString _, ascii_jsonString _, ascii_jsonString _,
    ascii_ofInt _, ascii_ofInt _, ascii_ofInt _⟩

theorem ascii_jsonObject (e : Entry) : Ascii (jsonObject e) := by
  refine ascii_append (ascii_append (ascii_of_all rfl) (forall_mem_join (ascii_of_all rfl) ?_))
    (ascii_of_all rfl)
  rintro _ ht
  obtain ⟨f, hf, rfl⟩ := List.mem_map.1 ht
  exact ascii_append (ascii_append (ascii_append (ascii_of_all rfl) (ascii_jsonString f.1))
    (ascii_of_all rfl)) (ascii_fields e f hf)

/-- **A JSON listing is written in ASCII.** -/
theorem ascii_jsonArray (es : List Entry) : Ascii (jsonArray es) := by
  cases es with
  | nil => exact ascii_of_all rfl
  | cons e es =>
    refine ascii_append (List.forall_mem_cons.2
      ⟨by decide, forall_mem_join (ascii_of_all rfl) fun t ht => ?_⟩) (ascii_of_all rfl)
    obtain ⟨f, -, rfl⟩ := List.mem_map.1 ht
    exact ascii_jsonObject f

/-! ## Sources -/

/-- The token of a source that has some entry. -/
def Entry.token (e : Entry) : Token :=
  ⟨e.kind, e.value, e.lexeme, ⟨e.start, e.start.after e.lexeme⟩, e.channel⟩

/-- **A token of a source ends where its lexeme leads to**, so it is known by
its entry. -/
theorem Entry.token_ofToken {s : Source} {t : Token} (h : t ∈ s.survey.tokens) :
    (Entry.ofToken t).token = t := by
  rw [Source.survey_tokens_eq, List.mem_filterMap] at h
  obtain ⟨v, hv, ht⟩ := h
  rcases Source.exists_reading hv with rfl | ⟨pre, r, post, -, -, rfl⟩
  · cases ht
    rfl
  · cases r with
    | lexeme kind w =>
      cases ht
      rfl
    | fault cause b w a => cases ht

/-- The tokens of a source are known by their entries. -/
theorem map_token_map_ofToken (s : Source) :
    (s.survey.tokens.map Entry.ofToken).map Entry.token = s.survey.tokens := by
  rw [List.map_map]
  exact (List.map_congr_left fun t ht => Entry.token_ofToken ht).trans (List.map_id _)

/-- Where there is no error, a source is known by its tokens. -/
theorem text_of_errors_eq_nil {s : Source} (h : s.survey.errors = []) :
    s.text = s.survey.tokens.flatMap Token.lexeme := by
  have htiles : Tiles s.text 0 (Scan.start s).calls := tiles_calls_ready s [] rfl
  have herrors : (Scan.start s).calls.filterMap (·.event.error?) = [] := by
    rw [← Scan.survey_errors]
    exact h
  show _ = (Scan.start s).survey.tokens.flatMap _
  rw [Scan.survey_tokens, htiles.flatMap_lexeme (Int.le_refl 0) herrors]
  rfl

/-- **A JSON listing loses nothing.** The listing of any tokens is written in
ASCII, and is read back as the array of what their entries say: kind, value,
lexeme, channel, line, column and offset, token by token. So two listings are
the same if and only if the entries are. Two sources with one listing have the
same tokens, up to where each of them ends, and if there is no error in either
of them, they have the same text. -/
theorem jsonListing_inj (ts us : List Token) (s u : Source) :
    (∀ c ∈ render .json ts, c.toNat < 0x80) ∧
    Json.decode (render .json ts) = some (.array (ts.map fun t => (Entry.ofToken t).json)) ∧
    (render .json ts = render .json us ↔ ts.map Entry.ofToken = us.map Entry.ofToken) ∧
    (render .json s.survey.tokens = render .json u.survey.tokens →
      s.survey.tokens = u.survey.tokens ∧
        (s.survey.errors = [] → u.survey.errors = [] → s.text = u.text)) := by
  refine ⟨?_, ?_, jsonArray_inj, fun h => ?_⟩
  · exact ascii_append (ascii_jsonArray _) (ascii_of_all rfl)
  · show Json.decode (Text.line (jsonArray (ts.map Entry.ofToken))) = _
    rw [decode_jsonArray, List.map_map]
    rfl
  · have htokens : s.survey.tokens = u.survey.tokens := by
      rw [← map_token_map_ofToken s, jsonArray_inj.1 h, map_token_map_ofToken]
    refine ⟨htokens, fun hs hu => ?_⟩
    rw [text_of_errors_eq_nil hs, text_of_errors_eq_nil hu, htokens]

/-- Two sources of different names, with characters of one unit and of two and
with a line feed inside a token. -/
theorem jsonListing_inj_names :
    let text := "// é\n\"😀\\t\"\n\t;".toList
    let s : Source := ⟨['s'], text⟩
    let u : Source := ⟨['u'], text⟩
    render .json s.survey.tokens = render .json u.survey.tokens ∧
      s.survey.errors = [] ∧ u.survey.errors = [] ∧
      s.survey.tokens = u.survey.tokens ∧ s.text = u.text := by
  intro text s u
  have hlisting : render .json s.survey.tokens = render .json u.survey.tokens := by decide +kernel
  have hs : s.survey.errors = [] := by decide +kernel
  have hu : u.survey.errors = [] := by decide +kernel
  obtain ⟨-, -, -, hinj⟩ := jsonListing_inj [] [] s u
  exact ⟨hlisting, hs, hu, (hinj hlisting).1, (hinj hlisting).2 hs hu⟩

end Listing

end Asl
