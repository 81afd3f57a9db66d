import Scenarist.Proofs.Format.Rendering
import Scenarist.Proofs.Format.Spans
import Scenarist.Proofs.Number.Decimal

/-!
# Names of fields

A field is named by the text behind its brace or, without one, by a number.  The lexer lets a name
begin with a letter or an underscore only, so no name looks like a number; and the assembly refuses
a name that is there already.

* `wellNamed_of_tokensFrom`: a name that a token gives to a field is a proper one.
* `Assembly.Distinct.add`: a token that is accepted keeps the names distinct.
* `nodup_names_of_compile`: so the fields of a compiled pattern have distinct names.
-/

namespace Scenarist

namespace Format

/-! ### Names that are read -/

/-- A field with a name has a proper one. -/
def TokenKind.WellNamed : TokenKind → Prop
  | .field (some name) _ => IsName name.toList
  | _ => True

def Mark.WellNamed : Mark → Prop
  | .char _ => True
  | .other kind => kind.WellNamed

theorem isName_takeWhile {c : Char} {s : List Char} (hBegins : beginsField c = true)
    (hName : isNameChar c = true) : IsName ((c :: s).takeWhile isNameChar) := by
  rw [List.takeWhile_cons_of_pos hName]
  refine ⟨?_, fun d hd => ?_⟩
  · simp only [beginsField, Bool.or_eq_true, beq_iff_eq] at hBegins
    rcases hBegins with ((hAlpha | hUnderscore) | rfl) | rfl
    · exact .inl hAlpha
    · exact .inr hUnderscore
    · cases hName
    · cases hName
  · have hd := List.mem_takeWhile_imp hd
    rwa [isNameChar, Bool.or_eq_true, beq_iff_eq] at hd

/-- A field has the name characters behind its brace as its name, if there are any. -/
theorem readField_name {start : Nat} {s rest : List Char} {name hint : Option String}
    (h : readField start s = .ok (name, hint, rest)) :
    name = if (s.takeWhile isNameChar).isEmpty then none
      else some (String.ofList (s.takeWhile isNameChar)) := by
  unfold readField at h
  simp only at h
  split at h
  · cases h
  · split at h
    · split at h
      · cases h
      · split at h
        · cases h
        · exact (Prod.mk.inj (Except.ok.inj h)).1.symm
    · split at h
      · cases h
      · exact (Prod.mk.inj (Except.ok.inj h)).1.symm

theorem wellNamed_of_readField {start : Nat} {c : Char} {s rest : List Char}
    {name hint : Option String} (hBegins : beginsField c = true)
    (h : readField start (c :: s) = .ok (name, hint, rest)) :
    (TokenKind.field name hint).WellNamed := by
  rw [readField_name h]
  by_cases hName : isNameChar c = true
  · have hProper := isName_takeWhile (s := s) hBegins hName
    rw [List.takeWhile_cons_of_pos hName] at hProper ⊢
    show IsName (String.ofList _).toList
    rwa [String.toList_ofList]
  · rw [List.takeWhile_cons_of_neg hName]
    exact trivial

theorem wellNamed_of_readMark {start : Nat} {c : Char} {s rest : List Char} {m : Mark}
    (h : readMark start c s = .ok (m, rest)) : m.WellNamed := by
  have hReading := reading_of_readMark h
  generalize c :: s = pattern at hReading
  cases hReading with
  | glyph | openBrace | closeBrace => exact trivial
  | @field s rest name hint _ hBegins hField =>
    cases s with
    | nil => cases hBegins
    | cons d s => exact wellNamed_of_readField hBegins hField

theorem Mark.WellNamed.cons {m : Mark} (h : m.WellNamed) {ts : List Token}
    (hTokens : ∀ t ∈ ts, t.kind.WellNamed) (start stop : Nat) :
    ∀ t ∈ m.cons start stop ts, t.kind.WellNamed := by
  cases m with
  | other kind => exact List.forall_mem_cons.mpr ⟨h, hTokens⟩
  | char c =>
    unfold Mark.cons
    split
    · exact List.forall_mem_cons.mpr ⟨trivial, (List.forall_mem_cons.mp hTokens).2⟩
    · exact List.forall_mem_cons.mpr ⟨trivial, hTokens⟩
    · next hOther => cases hOther

/-- **A name that a token gives to a field is a proper one.** -/
theorem wellNamed_of_tokensFrom {n start : Nat} {s : List Char} {ts : List Token}
    (h : tokensFrom n start s = .ok ts) : ∀ t ∈ ts, t.kind.WellNamed := by
  induction n generalizing start s ts with
  | zero =>
    cases s <;> cases h <;> exact fun t ht => absurd ht List.not_mem_nil
  | succ n ih =>
    cases s with
    | nil =>
      cases h
      exact fun t ht => absurd ht List.not_mem_nil
    | cons c s =>
      obtain ⟨⟨m, rest⟩, hMark, h⟩ := bind_eq_ok_iff.mp h
      obtain ⟨us, hRest, hEq⟩ := bind_eq_ok_iff.mp h
      cases hEq
      exact (wellNamed_of_readMark hMark).cons (ih hRest) _ _

/-! ### Names that are accepted -/

theorem not_isName_toString (n : Nat) : ¬ IsName (toString n).toList := by
  intro hName
  obtain ⟨c, s, hCons, hFirst⟩ := hName.exists_cons
  have hDigits : c ∈ Nat.toDigits 10 n := by
    rw [← Nat.toList_repr, show n.repr.toList = c :: s from hCons]
    exact List.mem_cons_self
  have hDigit := Nat.isDigit_of_mem_toDigits (by decide) (by decide) hDigits
  have hBelow : c.toNat ≤ '9'.toNat := (Char.isDigit_iff_toNat.mp hDigit).2
  rcases hFirst with hAlpha | rfl
  · rcases (Bool.or_eq_true _ _).mp hAlpha with hUpper | hLower
    · have hAbove : 'A'.toNat ≤ c.toNat := (of_decide_eq_true hUpper).1
      exact absurd (Nat.le_trans hAbove hBelow) (by decide)
    · have hAbove : 'a'.toNat ≤ c.toNat :=
        of_decide_eq_true ((Bool.and_eq_true _ _).mp hLower).1
      exact absurd (Nat.le_trans hAbove hBelow) (by decide)
  · cases hDigit

/-- The fields have distinct names.  Those that are given are proper ones, and the others are
numbers below the next one. -/
structure Assembly.Distinct (a : Assembly) : Prop where
  nodup : ((fields a.parts).map (·.name)).Nodup
  given : ∀ f ∈ fields a.parts, f.positional = false → IsName f.name.toList
  counted : ∀ f ∈ fields a.parts, f.positional = true → ∃ k < a.positional, f.name = toString k

theorem Assembly.Distinct.start : Assembly.start.Distinct where
  nodup := List.nodup_nil
  given _ hf := absurd hf List.not_mem_nil
  counted _ hf := absurd hf List.not_mem_nil

variable {a b : Assembly}

theorem Assembly.hasName_iff {name : String} : a.hasName name = true ↔
    ∃ f ∈ fields a.parts, f.positional = false ∧ f.name = name := by
  unfold Assembly.hasName
  rw [List.any_eq_true]
  constructor
  · rintro ⟨part, hPart, hHas⟩
    cases part with
    | text s => cases hHas
    | field f =>
      refine ⟨f, List.mem_filterMap.mpr ⟨_, hPart, rfl⟩, ?_⟩
      simpa using hHas
  · rintro ⟨f, hf, hHas⟩
    obtain ⟨part, hPart, hField⟩ := List.mem_filterMap.mp hf
    cases part with
    | text s => cases hField
    | field g =>
      obtain rfl := Option.some.inj hField
      exact ⟨_, hPart, by simpa using hHas⟩

/-- A given name is new when it was not given before: no number looks like it. -/
theorem Assembly.Distinct.addGiven (h : a.Distinct) {name : String} (hName : IsName name.toList)
    (hNew : a.hasName name = false) (hint : Option String) :
    { a with parts := .field ⟨name, hint, false⟩ :: a.parts }.Distinct where
  nodup := by
    refine List.nodup_cons.mpr ⟨fun hMem => ?_, h.nodup⟩
    obtain ⟨f, hf, rfl⟩ := List.mem_map.mp hMem
    cases hPositional : f.positional with
    | false =>
      rw [Assembly.hasName_iff.mpr ⟨f, hf, hPositional, rfl⟩] at hNew
      cases hNew
    | true =>
      obtain ⟨k, -, hk⟩ := h.counted f hf hPositional
      exact not_isName_toString k (hk ▸ hName)
  given f hf hPositional := by
    rcases List.mem_cons.mp hf with rfl | hf
    · exact hName
    · exact h.given f hf hPositional
  counted f hf hPositional := by
    rcases List.mem_cons.mp hf with rfl | hf
    · cases hPositional
    · exact h.counted f hf hPositional

/-- The next number is new: it is no given name and is greater than the numbers before. -/
theorem Assembly.Distinct.addCounted (h : a.Distinct) (hint : Option String) :
    { a with
      parts := .field ⟨toString a.positional, hint, true⟩ :: a.parts
      positional := a.positional + 1 }.Distinct where
  nodup := by
    refine List.nodup_cons.mpr ⟨fun hMem => ?_, h.nodup⟩
    obtain ⟨f, hf, hSame⟩ := List.mem_map.mp hMem
    replace hSame : f.name = toString a.positional := hSame
    cases hPositional : f.positional with
    | false => exact not_isName_toString a.positional (hSame ▸ h.given f hf hPositional)
    | true =>
      obtain ⟨k, hLt, hk⟩ := h.counted f hf hPositional
      have hEq : k = a.positional := Number.toString_injective (hk.symm.trans hSame)
      omega
  given f hf hPositional := by
    rcases List.mem_cons.mp hf with rfl | hf
    · cases hPositional
    · exact h.given f hf hPositional
  counted f hf hPositional := by
    rcases List.mem_cons.mp hf with rfl | hf
    · exact ⟨a.positional, Nat.lt_succ_self _, rfl⟩
    · obtain ⟨k, hLt, hk⟩ := h.counted f hf hPositional
      exact ⟨k, Nat.lt_succ_of_lt hLt, hk⟩

theorem Assembly.Distinct.add (h : a.Distinct) {t : Token} (hWell : t.kind.WellNamed)
    (hAdd : a.add t = .ok b) : b.Distinct := by
  obtain ⟨start, stop, kind⟩ := t
  cases kind with
  | literal text =>
    cases hAdd
    exact ⟨h.nodup, h.given, h.counted⟩
  | openBrace =>
    cases hAdd
    exact ⟨h.nodup, h.given, h.counted⟩
  | closeBrace =>
    obtain ⟨ps, n, depth⟩ := a
    cases depth with
    | zero => cases hAdd
    | succ depth =>
      cases hAdd
      exact ⟨h.nodup, h.given, h.counted⟩
  | field name hint =>
    cases name with
    | none =>
      cases hAdd
      exact h.addCounted hint
    | some name =>
      simp only [Assembly.add] at hAdd
      split at hAdd
      · cases hAdd
      · next hNew =>
        cases hAdd
        exact h.addGiven hWell (Bool.eq_false_iff.mpr hNew) hint

theorem Assembly.Distinct.foldlM {ts : List Token} (h : a.Distinct)
    (hWell : ∀ t ∈ ts, t.kind.WellNamed) (hFold : ts.foldlM Assembly.add a = .ok b) :
    b.Distinct := by
  induction ts generalizing a with
  | nil =>
    obtain rfl := Except.ok.inj hFold
    exact h
  | cons t ts ih =>
    rw [List.foldlM_cons] at hFold
    obtain ⟨m, hAdd, hRest⟩ := bind_eq_ok_iff.mp hFold
    obtain ⟨hFirst, hLater⟩ := List.forall_mem_cons.mp hWell
    exact ih (h.add hFirst hAdd) hLater hRest

theorem nodup_names_parts {s : List Char} {ps : List Part} (h : parts s = .ok ps) :
    ((fields ps).map (·.name)).Nodup := by
  obtain ⟨ts, hTokens, h⟩ := bind_eq_ok_iff.mp h
  obtain ⟨a, hFold, h⟩ := bind_eq_ok_iff.mp h
  split at h
  · cases h
  · obtain rfl := Except.ok.inj h
    have hDistinct := Assembly.Distinct.start.foldlM (wellNamed_of_tokensFrom hTokens) hFold
    rw [fields, List.filterMap_reverse, List.map_reverse, List.nodup_reverse]
    exact hDistinct.nodup

end Format

open Format

/-- **The fields of a compiled pattern have distinct names**, given or counted. -/
theorem nodup_names_of_compile {source : String} {p : FormatPattern}
    (h : FormatPattern.compile source = .ok p) : (p.fields.map (·.name)).Nodup :=
  nodup_names_parts (compile_eq_ok h).1

end Scenarist
