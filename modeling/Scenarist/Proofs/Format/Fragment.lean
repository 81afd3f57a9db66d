import Scenarist.Format.Hint
import Scenarist.Proofs.Regex.Language

/-!
# The texts of fields

`FieldKind.language` says what the text of a field may be, without a word about expressions.
`FieldKind.regex` is the expression that the fragment of a kind stands for.

* `mem_caseVariants_imp`: what a character outside the families is a variant of.
* `language_regex`: the expression of a kind reads the texts of the kind.
-/

namespace Scenarist

open Computability Language

/-! ### Case variants -/

namespace Unicode

theorem mem_pairedBy_comm {m n : Nat} {run : Nat × Nat × Nat × Nat} (h : m ∈ pairedBy n run) :
    n ∈ pairedBy m run := by
  obtain ⟨first, last, step, distance⟩ := run
  simp only [pairedBy, List.mem_append, List.mem_ite_nil_right, List.mem_singleton] at h ⊢
  rcases h with ⟨⟨hFirst, hLast, hStep⟩, rfl⟩ | ⟨⟨hFirst, hLast, hStep⟩, rfl⟩
  · refine .inr ⟨⟨Nat.add_le_add_right hFirst _, Nat.add_le_add_right hLast _, ?_⟩, by omega⟩
    rwa [Nat.add_sub_cancel]
  · refine .inl ⟨⟨by omega, by omega, hStep⟩, by omega⟩

/-- A character outside the families is a variant of itself and of its partners in the runs only. -/
theorem mem_caseVariants_imp {c d : Char} (hZero : c.toNat ≠ 0)
    (hFamily : ∀ family ∈ caseFamilies, c.toNat ∉ family) (h : c ∈ caseVariants d) :
    d.toNat ∈ c.toNat :: casePairRuns.flatMap (pairedBy c.toNat) := by
  have hCode : ∀ n, Char.ofNat n = c → n = c.toNat := by
    rintro n rfl
    by_cases hValid : n.isValidChar
    · have hSelf : Char.ofNat n = Char.ofNatAux n hValid := dif_pos hValid
      rw [hSelf]
      rfl
    · have hNull : Char.ofNat n = '\x00' := dif_neg hValid
      exact absurd (by rw [hNull]; rfl) hZero
  unfold caseVariants at h
  dsimp only at h
  split at h
  · next family hFind =>
    obtain ⟨n, hn, hEq⟩ := List.mem_map.mp h
    exact absurd (hCode n hEq ▸ hn) (hFamily family (List.mem_of_find?_eq_some hFind))
  · rcases List.mem_cons.mp h with rfl | h
    · exact List.mem_cons_self
    · obtain ⟨n, hn, hEq⟩ := List.mem_map.mp h
      obtain ⟨run, hRun, hMem⟩ := List.mem_flatMap.mp hn
      rw [hCode n hEq] at hMem
      exact List.mem_cons_of_mem _ (List.mem_flatMap.mpr ⟨run, hRun, mem_pairedBy_comm hMem⟩)

end Unicode

/-- The two characters differ at most in case. -/
def SameButCase (c d : Char) : Prop := d = c ∨ c ∈ Unicode.caseVariants d

namespace CharSet

theorem mem_caseless {s : CharSet} {d : Char} :
    (caseless s).mem d = true ↔ ∃ c, s.mem c = true ∧ SameButCase c d := by
  simp only [mem, Bool.or_eq_true, List.any_eq_true]
  constructor
  · rintro (hd | ⟨c, hc, hMem⟩)
    · exact ⟨d, hd, .inl rfl⟩
    · exact ⟨c, hMem, .inr hc⟩
  · rintro ⟨c, hMem, rfl | hc⟩
    · exact .inl hMem
    · exact .inr ⟨c, hc, hMem⟩

theorem mem_caseless_single {c d : Char} :
    (caseless (single c)).mem d = true ↔ SameButCase c d := by
  simp only [mem_caseless, mem_single, exists_eq_left]

/-- A union of two characters. -/
theorem mem_pair {a b d : Char} :
    (union (union empty (single a)) (single b)).mem d = true ↔ d = a ∨ d = b := by
  simp only [mem, Bool.or_eq_true, Bool.false_eq_true, false_or]
  exact or_congr mem_single mem_single

end CharSet

/-- The variants of a character are found by going through the tables. -/
theorem SameButCase.mem_of_tables {c d : Char} {found : List Char} (hZero : c.toNat ≠ 0)
    (hFamily : ∀ family ∈ Unicode.caseFamilies, c.toNat ∉ family)
    (hRuns : c.toNat :: Unicode.casePairRuns.flatMap (Unicode.pairedBy c.toNat) =
      found.map Char.toNat) (h : SameButCase c d) : d ∈ found := by
  have hTable : d.toNat ∈ c.toNat :: Unicode.casePairRuns.flatMap (Unicode.pairedBy c.toNat) := by
    rcases h with rfl | h
    · exact List.mem_cons_self
    · exact Unicode.mem_caseVariants_imp hZero hFamily h
  rw [hRuns] at hTable
  obtain ⟨x, hx, hEq⟩ := List.mem_map.mp hTable
  rwa [← Char.toNat_inj.mp hEq]

theorem sameButCase_plus {d : Char} : SameButCase '+' d ↔ d = '+' :=
  ⟨fun h => List.mem_singleton.mp (h.mem_of_tables (by decide) (by decide) (by decide)), .inl⟩

theorem sameButCase_minus {d : Char} : SameButCase '-' d ↔ d = '-' :=
  ⟨fun h => List.mem_singleton.mp (h.mem_of_tables (by decide) (by decide) (by decide)), .inl⟩

theorem sameButCase_point {d : Char} : SameButCase '.' d ↔ d = '.' :=
  ⟨fun h => List.mem_singleton.mp (h.mem_of_tables (by decide) (by decide) (by decide)), .inl⟩

theorem sameButCase_e {d : Char} (h : SameButCase 'e' d) : d ∈ ['e', 'E'] :=
  h.mem_of_tables (by decide) (by decide) (by decide)

theorem sameButCase_E {d : Char} (h : SameButCase 'E' d) : d ∈ ['E', 'e'] :=
  h.mem_of_tables (by decide) (by decide) (by decide)

/-! ### The languages of the kinds -/

/-- One decimal digit or more, of any script. -/
def digits : Language Char := {u | u ≠ [] ∧ ∀ c ∈ u, Unicode.isDecimalDigit c = true}

/-- A sign, or none. -/
def sign : Language Char := {[], ['+'], ['-']}

/-- The texts that differ from a word at most in case. -/
def anyCase (w : List Char) : Language Char := {u | List.Forall₂ SameButCase w u}

/-- Digits with a point behind, among or before them, or without one. -/
def mantissa : Language Char := digits * {['.']} * (digits + 1) + {['.']} * digits + digits

/-- A mark and digits after an optional sign. -/
def exponent : Language Char := ({['e'], ['E']} : Language Char) * sign * digits

/-- The texts of a kind. -/
def FieldKind.language : FieldKind → Language Char
  | unsigned => digits
  | signed => sign * digits
  | float =>
    sign * mantissa * (exponent + 1) +
      anyCase "nan".toList + anyCase "inf".toList + anyCase "infinity".toList
  | bool => anyCase "true".toList + anyCase "false".toList
  | word => {u | u ≠ [] ∧ ∀ c ∈ u, Unicode.isWordChar c = true}
  | nonBlank => {u | u ≠ [] ∧ ∀ c ∈ u, Text.isBlank c = false}
  | any => {u | u ≠ [] ∧ '\n' ∉ u}

/-! ### The expressions of the kinds -/

namespace Regex

def digits : Regex := .plus true (.set .digit)

def signSet : CharSet := .union (.union .empty (.single '+')) (.single '-')

def exponentSet : CharSet := .union (.union .empty (.single 'e')) (.single 'E')

/-- A word in any case. -/
def anyCase (w : List Char) : Regex := sequence (w.map fun c => .set (.caseless (.single c)))

/-- Digits with a point behind, among or before them, or without one. -/
def mantissa : Regex :=
  choice [sequence [digits, anyCase ['.'], .opt true digits], .seq (anyCase ['.']) digits, digits]

/-- An exponent with its mark. -/
def exponent : Regex :=
  sequence [.set (.caseless exponentSet), .opt true (.set (.caseless signSet)), digits]

end Regex

open Regex in
/-- What the fragment of a kind stands for. -/
def FieldKind.regex : FieldKind → Regex
  | unsigned => Regex.digits
  | signed => .seq (.opt true (.set signSet)) Regex.digits
  | float =>
    choice [
      Regex.sequence [.opt true (.set (.caseless signSet)), Regex.mantissa,
        .opt true Regex.exponent],
      Regex.anyCase "nan".toList, Regex.anyCase "inf".toList, Regex.anyCase "infinity".toList]
  | bool => choice [Regex.anyCase "true".toList, Regex.anyCase "false".toList]
  | word => .plus true (.set .word)
  | nonBlank => .plus true (.set (.compl .blank))
  | any => .plus false (.set (.compl (.single '\n')))

theorem FieldKind.plain_regex (k : FieldKind) : k.regex.plain = true := by
  cases k <;> rfl

namespace Regex

theorem language_digits : Regex.digits.language = Scenarist.digits := by
  ext u
  exact mem_language_plus_set

theorem language_anyCase (w : List Char) : (Regex.anyCase w).language = Scenarist.anyCase w := by
  unfold Regex.anyCase
  induction w with
  | nil =>
    ext u
    exact ⟨fun h => by rw [show u = [] from h]; exact .nil, fun h => by cases h; rfl⟩
  | cons c w ih =>
    rw [List.map_cons, language_sequence_cons, ih]
    ext u
    constructor
    · intro hu
      obtain ⟨v, ⟨d, hd, rfl⟩, x, hx, rfl⟩ := mem_mul.mp hu
      exact .cons (CharSet.mem_caseless_single.mp hd) hx
    · rintro (_ | ⟨hd, hx⟩)
      exact append_mem_mul (a := [_]) ⟨_, CharSet.mem_caseless_single.mpr hd, rfl⟩ hx

theorem mem_signSet {d : Char} : signSet.mem d = true ↔ d = '+' ∨ d = '-' := CharSet.mem_pair

theorem mem_caseless_signSet {d : Char} :
    (CharSet.caseless signSet).mem d = true ↔ d = '+' ∨ d = '-' := by
  simp only [CharSet.mem_caseless, mem_signSet]
  constructor
  · rintro ⟨c, rfl | rfl, hc⟩
    · exact .inl (sameButCase_plus.mp hc)
    · exact .inr (sameButCase_minus.mp hc)
  · exact fun hd => ⟨d, hd, .inl rfl⟩

theorem mem_caseless_exponentSet {d : Char} :
    (CharSet.caseless exponentSet).mem d = true ↔ d = 'e' ∨ d = 'E' := by
  have hPair : ∀ {c}, exponentSet.mem c = true ↔ c = 'e' ∨ c = 'E' := CharSet.mem_pair
  simp only [CharSet.mem_caseless, hPair]
  constructor
  · rintro ⟨c, rfl | rfl, hc⟩
    · simpa using sameButCase_e hc
    · simpa [or_comm] using sameButCase_E hc
  · exact fun hd => ⟨d, hd, .inl rfl⟩

/-- A set of two characters reads one of the two. -/
theorem language_set_pair {s : CharSet} {a b : Char}
    (h : ∀ {d}, s.mem d = true ↔ d = a ∨ d = b) :
    (Regex.set s).language = ({[a], [b]} : Language Char) := by
  ext u
  constructor
  · rintro ⟨d, hd, rfl⟩
    exact (h.mp hd).imp (congrArg fun c => [c]) (congrArg fun c => [c])
  · rintro (rfl | rfl)
    · exact ⟨a, h.mpr (.inl rfl), rfl⟩
    · exact ⟨b, h.mpr (.inr rfl), rfl⟩

theorem language_opt_sign {s : CharSet} (h : ∀ {d}, s.mem d = true ↔ d = '+' ∨ d = '-') :
    (Regex.opt true (.set s)).language = sign := by
  rw [language, language_set_pair h]
  ext u
  exact or_comm

theorem language_point : (Regex.anyCase ['.']).language = ({['.']} : Language Char) := by
  rw [language_anyCase]
  ext u
  constructor
  · intro h
    cases h with
    | cons hc hNil =>
      cases hNil
      rw [sameButCase_point.mp hc]
      rfl
  · rintro rfl
    exact .cons (.inl rfl) .nil

theorem language_mantissa : Regex.mantissa.language = Scenarist.mantissa := by
  simp only [Regex.mantissa, Scenarist.mantissa, choice, sequence, language_alt, language_seq,
    language_opt, language_point, language_digits, mul_assoc, add_assoc]

theorem language_exponent : Regex.exponent.language = Scenarist.exponent := by
  simp only [Regex.exponent, Scenarist.exponent, sequence, language_seq, language_digits,
    language_set_pair mem_caseless_exponentSet, language_opt_sign mem_caseless_signSet, mul_assoc]

end Regex

open Regex in
/-- **The expression of a kind reads the texts of the kind.** -/
theorem FieldKind.language_regex (k : FieldKind) : k.regex.language = k.language := by
  cases k with
  | unsigned => exact language_digits
  | signed =>
    rw [FieldKind.regex, language_seq, language_opt_sign mem_signSet, language_digits]
    rfl
  | float =>
    have hNumber : (Regex.sequence [.opt true (.set (.caseless signSet)), Regex.mantissa,
        .opt true Regex.exponent]).language =
          sign * Scenarist.mantissa * (Scenarist.exponent + 1) := by
      rw [language_sequence_cons, language_opt_sign mem_caseless_signSet, language_sequence_cons,
        language_mantissa, Regex.sequence, language_opt, language_exponent, mul_assoc]
    simp only [FieldKind.regex, FieldKind.language, choice, language_alt, hNumber, language_anyCase,
      add_assoc]
  | bool => simp only [FieldKind.regex, FieldKind.language, choice, language_alt, language_anyCase]
  | word =>
    ext u
    exact mem_language_plus_set
  | nonBlank =>
    ext u
    rw [FieldKind.regex, mem_language_plus_set]
    simp only [CharSet.mem, Bool.not_eq_true']
    rfl
  | any =>
    ext u
    rw [FieldKind.regex, mem_language_plus_set, forall_mem_compl_single_iff]
    rfl

end Scenarist
