import Scenarist.Proofs.Number.Floats
import Scenarist.Proofs.Number.Integers
import Scenarist.Proofs.Regex.Anchored
import Scenarist.Proofs.Text.Blank
import Scenarist.Value.Converter

/-!
# Hints and conversions

A hint has a fragment, which says what text a field may hold, and a conversion, which turns the text
into a value.  `Agrees` is what one half promises for the other: a text that the fragment admits is
turned into the value that it denotes, and only integers out of range are refused.  The fragments
know the digits and the letters of all scripts, the conversions those of ASCII.

* `agrees_int_iff`, `agrees_float_iff`, `agrees_bool_iff`: one conversion at a time.
* `convert_agrees_iff`: where the two halves of a hint agree.
-/

namespace Scenarist

open Number Text

/-! ### Texts without blanks -/

/-- No character of a text is blank. -/
def NoBlank (s : List Char) : Prop := ∀ c ∈ s, isBlank c = false

instance (s : List Char) : Decidable (NoBlank s) := List.decidableBAll _ s

theorem noBlank_append {s t : List Char} (hs : NoBlank s) (ht : NoBlank t) : NoBlank (s ++ t) :=
  List.forall_mem_append.mpr ⟨hs, ht⟩

theorem not_blank_of_isDecimalDigit {c : Char} (h : Unicode.isDecimalDigit c = true) :
    isBlank c = false := by
  by_contra hBlank
  rw [Bool.not_eq_false] at hBlank
  have hEach := forall_blank (fun c => Unicode.isDecimalDigit c = false) (by decide +kernel) hBlank
  exact Bool.false_ne_true (hEach.symm.trans h)

/-- The only case variant of a blank is the blank itself. -/
theorem blank_of_sameButCase {c d : Char} (h : SameButCase c d) (hBlank : isBlank d = true) :
    isBlank c = true := by
  rcases h with rfl | h
  · exact hBlank
  · have hEach := forall_blank (fun d => Unicode.caseVariants d = [d]) (by decide +kernel) hBlank
    rw [hEach] at h
    rwa [List.mem_singleton.mp h]

theorem noBlank_of_anyCase {w u : List Char} (hWord : NoBlank w) (h : u ∈ anyCase w) :
    NoBlank u := by
  have hBoth : List.Forall₂ SameButCase w u := h
  clear h
  induction hBoth with
  | nil => exact fun c hc => absurd hc List.not_mem_nil
  | cons hCase _ ih =>
    obtain ⟨hFirst, hRest⟩ := List.forall_mem_cons.mp hWord
    refine List.forall_mem_cons.mpr ⟨?_, ih hRest⟩
    by_contra hBlank
    rw [Bool.not_eq_false] at hBlank
    exact Bool.false_ne_true (hFirst.symm.trans (blank_of_sameButCase hCase hBlank))

theorem noBlank_of_digits {s : List Char} (h : s ∈ digits) : NoBlank s :=
  fun c hc => not_blank_of_isDecimalDigit (h.2 c hc)

theorem noBlank_of_sign {s : List Char} (h : s ∈ sign) : NoBlank s := by
  rcases h with rfl | rfl | rfl <;> decide

theorem noBlank_of_mantissa {s : List Char} (h : s ∈ mantissa) : NoBlank s := by
  rcases h with (h | h) | h
  · obtain ⟨front, hFront, back, hBack, rfl⟩ := Language.mem_mul.mp h
    obtain ⟨whole, hWhole, point, rfl, rfl⟩ := Language.mem_mul.mp hFront
    refine noBlank_append (noBlank_append (noBlank_of_digits hWhole) (by decide)) ?_
    rcases hBack with hBack | rfl
    · exact noBlank_of_digits hBack
    · decide
  · obtain ⟨point, rfl, back, hBack, rfl⟩ := Language.mem_mul.mp h
    exact noBlank_append (by decide) (noBlank_of_digits hBack)
  · exact noBlank_of_digits h

theorem noBlank_of_exponent {s : List Char} (h : s ∈ exponent + 1) : NoBlank s := by
  rcases h with h | rfl
  · obtain ⟨marked, hMarked, ds, hDigits, rfl⟩ := Language.mem_mul.mp h
    obtain ⟨mark, hMark, sgn, hSign, rfl⟩ := Language.mem_mul.mp hMarked
    refine noBlank_append (noBlank_append ?_ (noBlank_of_sign hSign))
      (noBlank_of_digits hDigits)
    rcases hMark with rfl | rfl <;> decide
  · decide

namespace Conversion

/-- The texts that the fragments for a conversion admit. -/
def language : Conversion → Language Char
  | int t => (if t.isSigned then FieldKind.signed else .unsigned).language
  | float _ => FieldKind.float.language
  | bool => FieldKind.bool.language
  | text => ⊤

theorem mem_language_of_matchesInFull {hint raw : String} {c : Conversion}
    (hHint : ofHint? hint = some c)
    (hMatch : MatchesInFull (Hint.kind (some hint)).fragment raw) : raw.toList ∈ c.language := by
  rw [matchesInFull_fragment_iff] at hMatch
  unfold ofHint? at hHint
  split at hHint <;> cases hHint <;> first
    | exact hMatch
    | exact Set.mem_univ raw.toList

/-- No text of a number or a truth value has a blank. -/
theorem noBlank_of_mem_language {c : Conversion} {s : List Char} (hText : c ≠ text)
    (h : s ∈ c.language) : NoBlank s := by
  cases c with
  | int t =>
    unfold language at h
    dsimp only at h
    split at h
    · obtain ⟨sgn, hSign, ds, hDigits, rfl⟩ := Language.mem_mul.mp h
      exact noBlank_append (noBlank_of_sign hSign) (noBlank_of_digits hDigits)
    · exact noBlank_of_digits h
  | float f =>
    rcases h with ((h | h) | h) | h
    · obtain ⟨signed, hSigned, e, hPower, rfl⟩ := Language.mem_mul.mp h
      obtain ⟨sgn, hSign, m, hMantissa, rfl⟩ := Language.mem_mul.mp hSigned
      exact noBlank_append
        (noBlank_append (noBlank_of_sign hSign) (noBlank_of_mantissa hMantissa))
        (noBlank_of_exponent hPower)
    · exact noBlank_of_anyCase (by decide) h
    · exact noBlank_of_anyCase (by decide) h
    · exact noBlank_of_anyCase (by decide) h
  | bool =>
    rcases h with h | h
    · exact noBlank_of_anyCase (by decide) h
    · exact noBlank_of_anyCase (by decide) h
  | text => exact absurd rfl hText

theorem trim_eq_of_mem_language {c : Conversion} {s : List Char} (hText : c ≠ text)
    (h : s ∈ c.language) : trim s = s :=
  (Trimmed.of_forall (noBlank_of_mem_language hText h)).trim_eq

/-! ### Truth values -/

/-- The word for a truth value. -/
def boolWord : Bool → List Char
  | true => "true".toList
  | false => "false".toList

theorem readBool_eq_some_iff {s : List Char} {b : Bool} :
    readBool s = some b ↔ s.map Char.toLower = boolWord b := by
  constructor
  · intro h
    unfold readBool at h
    split at h
    · next hWord =>
      obtain rfl := Option.some.inj h
      rw [← String.toList_ofList (l := s.map Char.toLower), hWord]
      rfl
    · next hWord =>
      obtain rfl := Option.some.inj h
      rw [← String.toList_ofList (l := s.map Char.toLower), hWord]
      rfl
    · exact absurd h (by simp)
  · intro h
    rw [readBool, h]
    cases b <;> rfl

/-- A word for a truth value is read when it is written in ASCII. -/
theorem readBool_of_anyCase {s : List Char} {b : Bool} (h : s ∈ anyCase (boolWord b)) :
    readBool s = some b ↔ IsAscii s := by
  have hWord : IsAscii (boolWord b) := by cases b <;> decide
  have hLower : (boolWord b).map Char.toLower = boolWord b := by cases b <;> decide
  rw [readBool_eq_some_iff]
  exact ⟨isAscii_of_map_toLower hWord, fun hAscii => hLower ▸ map_toLower_of_anyCase hWord hAscii h⟩

/-! ### Agreement -/

/-- What a hint promises of a text that its fragment admits: the text is turned into the value that
it denotes, and only an integer that the type does not have is refused. -/
def Agrees (raw : String) (result : Except String Value) : Conversion → Prop
  | int t =>
    if t.Holds (denoted raw.toList) then result = .ok (.int t (denoted raw.toList))
    else ∃ cause, result = .error cause
  | float f => ∃ bits, result = .ok (.float f bits)
  | bool => ∃ b, raw.toList ∈ anyCase (boolWord b) ∧ result = .ok (.bool b)
  | text => result = .ok (.text raw)

variable {raw : String}

theorem agrees_int_iff {t : IntType} (h : raw.toList ∈ (int t).language) :
    Agrees raw ((int t).convert raw) (int t) ↔
      IsAscii raw.toList ∨ ¬ t.Holds (denoted raw.toList) := by
  have hRead : ∀ n, t.read raw.toList = .ok n ↔ _ := fun n => t.read_eq_ok_iff h
  have hConvert : (int t).convert raw =
      ((t.read raw.toList).map (.int t)).mapError IntFault.message := by
    rw [convert, trim_eq_of_mem_language (by simp) h]
  rw [hConvert]
  unfold Agrees
  dsimp only
  by_cases hHolds : t.Holds (denoted raw.toList)
  · rw [if_pos hHolds, or_iff_left (not_not_intro hHolds)]
    constructor
    · intro hOk
      cases hResult : t.read raw.toList with
      | error e =>
        rw [hResult] at hOk
        exact absurd hOk (by simp [Except.map, Except.mapError])
      | ok n => exact ((hRead n).mp hResult).1
    · intro hAscii
      rw [(hRead _).mpr ⟨hAscii, hHolds, rfl⟩]
      rfl
  · rw [if_neg hHolds, iff_true_intro (Or.inr hHolds), iff_true]
    cases hResult : t.read raw.toList with
    | error e => exact ⟨_, rfl⟩
    | ok n => exact absurd ((hRead n).mp hResult).2.1 hHolds

theorem agrees_float_iff {f : BinaryFormat} (h : raw.toList ∈ (float f).language) :
    Agrees raw ((float f).convert raw) (float f) ↔ IsAscii raw.toList := by
  rw [← exists_read_iff (f := f) h]
  have hConvert : (float f).convert raw =
      ((f.read raw.toList).map (.float f)).mapError FloatFault.message := by
    rw [convert, trim_eq_of_mem_language (by simp) h]
  rw [hConvert]
  unfold Agrees
  dsimp only
  cases f.read raw.toList with
  | error e => simp [Except.map, Except.mapError]
  | ok bits => simp [Except.map, Except.mapError]

theorem agrees_bool_iff (h : raw.toList ∈ bool.language) :
    Agrees raw (bool.convert raw) bool ↔ IsAscii raw.toList := by
  have hConvert : ∀ b, bool.convert raw = .ok (.bool b) ↔ readBool raw.toList = some b := by
    intro b
    rw [convert, trim_eq_of_mem_language (by simp) h]
    cases readBool raw.toList <;> simp
  constructor
  · rintro ⟨b, hWord, hOk⟩
    exact (readBool_of_anyCase hWord).mp ((hConvert b).mp hOk)
  · intro hAscii
    have hEach : ∃ b, raw.toList ∈ anyCase (boolWord b) := h.elim (fun h => ⟨true, h⟩)
      fun h => ⟨false, h⟩
    obtain ⟨b, hWord⟩ := hEach
    exact ⟨b, hWord, (hConvert b).mpr ((readBool_of_anyCase hWord).mpr hAscii)⟩

/-- **The two halves of a hint agree on a text exactly when it is kept as it is, is written in ASCII
or denotes an integer out of range.**  The fragments admit the digits of all scripts and letters
that are variants of ASCII letters without being in ASCII; the conversions refuse them. -/
theorem convert_agrees_iff {hint raw : String} {c : Conversion} (hHint : ofHint? hint = some c)
    (hMatch : MatchesInFull (Hint.kind (some hint)).fragment raw) :
    Agrees raw (c.convert raw) c ↔
      c = text ∨ IsAscii raw.toList ∨ ∃ t, c = int t ∧ ¬ t.Holds (denoted raw.toList) := by
  have hText := mem_language_of_matchesInFull hHint hMatch
  cases c with
  | int t =>
    rw [agrees_int_iff hText]
    simp
  | float f =>
    rw [agrees_float_iff hText]
    simp
  | bool =>
    rw [agrees_bool_iff hText]
    simp
  | text => exact iff_of_true rfl (.inl rfl)

/-- The least number of a type is read. -/
theorem least_i8_agrees :
    ofHint? "i8" = some (int .i8) ∧ MatchesInFull (Hint.kind (some "i8")).fragment "-128" ∧
      Agrees "-128" ((int .i8).convert "-128") (int .i8) := by
  have hMatch : MatchesInFull (Hint.kind (some "i8")).fragment "-128" :=
    matchesInFull_fragment_iff.mpr
      (Language.append_mem_mul (a := ['-']) (b := ['1', '2', '8']) (.inr (.inr rfl))
        ⟨by decide, List.all_eq_true.mp (by decide)⟩)
  refine ⟨rfl, hMatch, ?_⟩
  exact (convert_agrees_iff (c := int .i8) rfl hMatch).mpr (.inr (.inl (by decide)))

/-- The Arabic digit three matches the fragment of a hint whose conversion refuses it. -/
theorem arabic_digit_matches_but_is_refused :
    ¬ ∀ (hint raw : String) (c : Conversion), ofHint? hint = some c →
      MatchesInFull (Hint.kind (some hint)).fragment raw → Agrees raw (c.convert raw) c := by
  intro hAll
  have hMatch : MatchesInFull (Hint.kind (some "u8")).fragment "٣" :=
    matchesInFull_fragment_iff.mpr ⟨by decide, List.all_eq_true.mp (by decide)⟩
  have hAgrees := hAll "u8" "٣" (int .u8) rfl hMatch
  have hHolds : IntType.u8.Holds (denoted "٣".toList) := by decide
  unfold Agrees at hAgrees
  dsimp only at hAgrees
  rw [if_pos hHolds] at hAgrees
  exact absurd hAgrees (by decide)

end Conversion

end Scenarist
