import Scenarist.Format.Pattern
import Scenarist.Proofs.Refusal
import Scenarist.Proofs.Text.Utf8

/-!
# Spans of tokens

A pattern is read mark by mark.  `Reading` says once what a mark can be, and the rest follows from
it: the tokens cut the pattern into pieces, one behind the other, and a fault is placed at a brace.

* `reading_of_readMark`, `readMark_eq_error`: what is read as a mark, and what is refused.
* `covers_of_tokensFrom`: the tokens cover the whole text in pieces that are written as they say.
* `inPlace_of_tokens`, `inPlace_of_parts`, `inPlace_of_compile`: the faults of a pattern name a brace
  of it, or its end.
-/

namespace Scenarist

namespace Format

open Text

variable {start pos n : Nat} {c : Char} {s rest piece front : List Char} {m : Mark}

/-! ### What a mark is -/

/-- A character of text as it may be written.  Only the last character may be a lone backslash. -/
inductive Glyph : Char → List Char → Prop
  | plain {c : Char} : c ≠ '\\' → c ≠ '\x7b' → c ≠ '\x7d' → Glyph c [c]
  | escaped (c : Char) : Glyph c ['\\', c]
  | openTwice : Glyph '\x7b' ['\x7b', '\x7b']
  | closeTwice : Glyph '\x7d' ['\x7d', '\x7d']
  | backslash : Glyph '\\' ['\\']

/-- The first mark of a text at byte `start`, and what follows it. -/
inductive Reading (start : Nat) : List Char → Mark → List Char → Prop
  | glyph {c : Char} {piece rest : List Char} :
      Glyph c piece → (piece = ['\\'] → rest = []) → Reading start (piece ++ rest) (.char c) rest
  | openBrace {rest : List Char} :
      rest.head? ≠ some '\x7b' → rest.head?.any beginsField = false →
      Reading start ('\x7b' :: rest) (.other .openBrace) rest
  | closeBrace {rest : List Char} :
      rest.head? ≠ some '\x7d' → Reading start ('\x7d' :: rest) (.other .closeBrace) rest
  | field {s rest : List Char} {name hint : Option String} :
      s.head? ≠ some '\x7b' → s.head?.any beginsField = true →
      readField start s = .ok (name, hint, rest) →
      Reading start ('\x7b' :: s) (.other (.field name hint)) rest

theorem reading_of_readMark (h : readMark start c s = .ok (m, rest)) :
    Reading start (c :: s) m rest := by
  unfold readMark at h
  split_ifs at h with hBackslash hOpen hClose
  · subst hBackslash
    split at h
    · cases h
      exact .glyph .backslash fun _ => rfl
    · next d rest =>
      cases h
      exact .glyph (.escaped d) fun hEq => by cases hEq
  · subst hOpen
    split at h
    · cases h
      exact .openBrace (by simp) rfl
    · next d s =>
      split_ifs at h with hTwice hBegins
      · subst hTwice
        cases h
        exact .glyph .openTwice fun hEq => by cases hEq
      · obtain ⟨⟨name, hint, rest⟩, hField, hEq⟩ := map_eq_ok_iff.mp h
        cases hEq
        exact .field (fun hEq => hTwice (Option.some.inj hEq)) hBegins hField
      · cases h
        exact .openBrace (fun hEq => hTwice (Option.some.inj hEq)) (Bool.eq_false_iff.mpr hBegins)
  · subst hClose
    split at h
    · cases h
      exact .glyph .closeTwice fun hEq => by cases hEq
    · next hOnce =>
      cases h
      refine .closeBrace fun hEq => ?_
      obtain ⟨more, rfl⟩ := List.head?_eq_some_iff.mp hEq
      exact hOnce more rfl
  · cases h
    exact .glyph (.plain hBackslash hOpen hClose) fun hEq => absurd (List.cons.inj hEq).1 hBackslash

/-- Only a placeholder is refused. -/
theorem readMark_eq_error {f : PatternFault} (h : readMark start c s = .error f) :
    c = '\x7b' ∧ s.head? ≠ some '\x7b' ∧ s.head?.any beginsField = true ∧
      readField start s = .error f := by
  unfold readMark at h
  split_ifs at h with hBackslash hOpen hClose
  · split at h <;> cases h
  · split at h
    · cases h
    · next d s =>
      split_ifs at h with hTwice hBegins
      cases hField : readField start (d :: s) with
      | ok r =>
        rw [hField] at h
        cases h
      | error e =>
        rw [hField] at h
        cases h
        exact ⟨hOpen, fun hEq => hTwice (Option.some.inj hEq), hBegins, rfl⟩
  · split at h <;> cases h

/-! ### What a placeholder is -/

theorem exists_of_afterClosing {depth : Nat} (h : afterClosing depth s = some rest) :
    ∃ inside, s = inside ++ '\x7d' :: rest := by
  fun_induction afterClosing depth s with
  | case1 => cases h
  | case2 depth s ih =>
    obtain ⟨inside, rfl⟩ := ih h
    exact ⟨'\x7b' :: inside, rfl⟩
  | case3 s hOpen =>
    cases h
    exact ⟨[], rfl⟩
  | case4 s hOpen depth ih =>
    obtain ⟨inside, rfl⟩ := ih h
    exact ⟨'\x7d' :: inside, rfl⟩
  | case5 depth c s hOpen hClose ih =>
    obtain ⟨inside, rfl⟩ := ih h
    exact ⟨c :: inside, rfl⟩

/-- A hint ends at a closing brace. -/
theorem eq_of_dropWhile_hint (h : s.dropWhile (· != '\x7d') = c :: rest) : c = '\x7d' := by
  have hNot := List.head?_dropWhile_not (· != '\x7d') s
  simpa [h] using hNot

/-- A placeholder ends in front of what follows it. -/
theorem exists_of_readField {name hint : Option String}
    (h : readField start s = .ok (name, hint, rest)) : ∃ inside, s = inside ++ '\x7d' :: rest := by
  have hSuffix : ∃ inside, (s.dropWhile isNameChar).dropWhile isAsciiBlank =
      inside ++ '\x7d' :: rest := by
    unfold readField at h
    simp only at h
    split at h
    · cases h
    · split at h
      · next behind hColon =>
        split at h
        · cases h
        · split at h
          · cases h
          · next d more hStop =>
            cases h
            obtain rfl := eq_of_dropWhile_hint hStop
            refine ⟨':' :: behind.takeWhile (· != '\x7d'), ?_⟩
            rw [hColon, List.cons_append, ← hStop, List.takeWhile_append_dropWhile]
      · split at h
        · cases h
        · next hClosing =>
          cases h
          exact exists_of_afterClosing hClosing
  obtain ⟨inside, hInside⟩ := hSuffix
  refine ⟨s.takeWhile isNameChar ++ ((s.dropWhile isNameChar).takeWhile isAsciiBlank ++ inside), ?_⟩
  rw [List.append_assoc, List.append_assoc, ← hInside, List.takeWhile_append_dropWhile,
    List.takeWhile_append_dropWhile]

/-- A placeholder is refused at its brace. -/
theorem readField_eq_error {f : PatternFault} (h : readField start s = .error f) :
    ∃ name, f = .placeholder .invalid start name ∨ f = .placeholder .unclosed start name := by
  unfold readField at h
  simp only at h
  refine ⟨some (String.ofList (s.takeWhile isNameChar)), ?_⟩
  split at h
  · exact .inl (Except.error.inj h).symm
  · split at h
    · split at h
      · exact .inl (Except.error.inj h).symm
      · split at h
        · exact .inr (Except.error.inj h).symm
        · cases h
    · split at h
      · exact .inr (Except.error.inj h).symm
      · cases h

/-! ### Pieces -/

/-- How a token is written. -/
inductive Written : TokenKind → List Char → Prop
  | glyph {c : Char} {piece : List Char} : Glyph c piece → Written (.literal [c]) piece
  | glyphs {c : Char} {text piece more : List Char} :
      Glyph c piece → Written (.literal text) more → Written (.literal (c :: text)) (piece ++ more)
  | field (name hint : Option String) (inside : List Char) :
      Written (.field name hint) ('\x7b' :: (inside ++ ['\x7d']))
  | openBrace : Written .openBrace ['\x7b']
  | closeBrace : Written .closeBrace ['\x7d']

/-- The tokens cover a text that begins at byte `start`: each one is written as a piece of the text
with the bytes that it names, and one piece follows the other up to the end. -/
inductive Covers : Nat → List Token → List Char → Prop
  | done (start : Nat) : Covers start [] []
  | cons {start : Nat} {kind : TokenKind} {piece rest : List Char} {ts : List Token} :
      Written kind piece → Covers (start + bytes piece) ts rest →
      Covers start (⟨start, start + bytes piece, kind⟩ :: ts) (piece ++ rest)

theorem bytes_append (s t : List Char) : bytes (s ++ t) = bytes s + bytes t := by
  induction s with
  | nil => exact (Nat.zero_add _).symm
  | cons c s ih =>
    simp only [List.cons_append, bytes, ih]
    omega

theorem bytes_pos (h : s ≠ []) : 0 < bytes s := by
  cases s with
  | nil => exact absurd rfl h
  | cons c s => exact Nat.add_pos_left c.utf8Size_pos _

theorem bytes_scan (p : Char → Bool) (s : List Char) :
    bytes (s.takeWhile p) + bytes (s.dropWhile p) = bytes s := by
  rw [← bytes_append, List.takeWhile_append_dropWhile]

theorem bytes_takeWhile_pos_iff {p : Char → Bool} :
    0 < bytes (s.takeWhile p) ↔ s.head?.any p = true := by
  cases s with
  | nil => exact ⟨nofun, nofun⟩
  | cons c s =>
    rw [List.head?_cons, Option.any_some]
    by_cases hc : p c = true
    · rw [List.takeWhile_cons_of_pos hc]
      exact iff_of_true (bytes_pos (List.cons_ne_nil _ _)) hc
    · rw [List.takeWhile_cons_of_neg hc]
      exact iff_of_false (Nat.lt_irrefl 0) hc

theorem Glyph.ne_nil (h : Glyph c piece) : piece ≠ [] := by
  cases h <;> exact List.cons_ne_nil _ _

theorem Written.ne_nil {kind : TokenKind} (h : Written kind piece) : piece ≠ [] := by
  cases h with
  | glyph hGlyph => exact hGlyph.ne_nil
  | glyphs hGlyph _ => exact List.append_ne_nil_of_left_ne_nil hGlyph.ne_nil _
  | field | openBrace | closeBrace => exact List.cons_ne_nil _ _

theorem Covers.start_lt_stop {ts : List Token} (h : Covers start ts s) :
    ∀ t ∈ ts, t.start < t.stop := by
  induction h with
  | done => exact fun t ht => absurd ht List.not_mem_nil
  | cons hWritten _ ih =>
    refine List.forall_mem_cons.mpr ⟨?_, ih⟩
    exact Nat.lt_add_of_pos_right (bytes_pos hWritten.ne_nil)

/-- A character joins the text behind it. -/
theorem Covers.cons_char {ts : List Token} (hGlyph : Glyph c piece)
    (h : Covers (start + bytes piece) ts rest) :
    Covers start ((Mark.char c).cons start (start + bytes piece) ts) (piece ++ rest) := by
  unfold Mark.cons
  split
  · next d first last text more hMark =>
    obtain rfl := Mark.char.inj hMark
    cases h with
    | @cons _ _ piece' rest _ hWritten hMore =>
      have hLast : start + bytes piece + bytes piece' = start + bytes (piece ++ piece') := by
        rw [bytes_append, Nat.add_assoc]
      rw [← List.append_assoc, hLast]
      exact .cons (.glyphs hGlyph hWritten) (hLast ▸ hMore)
  · next hMark _ =>
    obtain rfl := Mark.char.inj hMark
    exact .cons (.glyph hGlyph) h
  · next hMark => cases hMark

theorem Reading.exists_piece (h : Reading start s m rest) :
    ∃ piece, piece ≠ [] ∧ s = piece ++ rest := by
  cases h with
  | glyph hGlyph => exact ⟨_, hGlyph.ne_nil, rfl⟩
  | openBrace => exact ⟨['\x7b'], List.cons_ne_nil _ _, rfl⟩
  | closeBrace => exact ⟨['\x7d'], List.cons_ne_nil _ _, rfl⟩
  | field _ _ hField =>
    obtain ⟨inside, rfl⟩ := exists_of_readField hField
    exact ⟨'\x7b' :: (inside ++ ['\x7d']), List.cons_ne_nil _ _, by simp⟩

theorem Reading.length_lt (h : Reading start s m rest) : rest.length < s.length := by
  obtain ⟨piece, hPiece, rfl⟩ := h.exists_piece
  have hPositive := List.length_pos_iff.mpr hPiece
  rw [List.length_append]
  omega

/-- A mark covers its own piece. -/
theorem Reading.covers {ts : List Token} (h : Reading start s m rest)
    (hRest : Covers (start + (bytes s - bytes rest)) ts rest) :
    Covers start (m.cons start (start + (bytes s - bytes rest)) ts) s := by
  have hSize : ∀ piece, bytes (piece ++ rest) - bytes rest = bytes piece := fun piece => by
    rw [bytes_append, Nat.add_sub_cancel]
  cases h with
  | glyph hGlyph =>
    rw [hSize] at hRest ⊢
    exact hRest.cons_char hGlyph
  | openBrace =>
    rw [← List.singleton_append, hSize] at hRest ⊢
    exact .cons .openBrace hRest
  | closeBrace =>
    rw [← List.singleton_append, hSize] at hRest ⊢
    exact .cons .closeBrace hRest
  | @field _ _ name hint _ _ hField =>
    obtain ⟨inside, rfl⟩ := exists_of_readField hField
    have hPiece : '\x7b' :: (inside ++ '\x7d' :: rest) = '\x7b' :: (inside ++ ['\x7d']) ++ rest := by
      rw [List.cons_append, List.append_assoc, List.singleton_append]
    rw [hPiece, hSize] at hRest ⊢
    exact .cons (.field name hint inside) hRest

/-- **The tokens of a text cover it.** -/
theorem covers_of_tokensFrom {ts : List Token} (hn : s.length ≤ n)
    (h : tokensFrom n start s = .ok ts) : Covers start ts s := by
  induction n generalizing start s ts with
  | zero =>
    obtain rfl := List.length_eq_zero_iff.mp (Nat.le_zero.mp hn)
    cases h
    exact .done start
  | succ n ih =>
    cases s with
    | nil =>
      cases h
      exact .done start
    | cons c s =>
      obtain ⟨⟨m, rest⟩, hMark, h⟩ := bind_eq_ok_iff.mp h
      obtain ⟨us, hRest, hEq⟩ := bind_eq_ok_iff.mp h
      cases hEq
      have hReading := reading_of_readMark hMark
      have hShorter := hReading.length_lt
      exact hReading.covers (ih (by omega) hRest)

/-! ### Places of faults -/

/-- The byte that a fault names is a brace of the text, or the end of the text when its braces do
not balance. -/
def InPlace (s : List Char) : PatternFault → Prop
  | .placeholder .unbalanced place _ => place = (encodeUtf8 s).length
  | .placeholder .unmatchedClose place _ => (encodeUtf8 s)[place]? = some '\x7d'.toNat
  | .placeholder _ place _ => (encodeUtf8 s)[place]? = some '\x7b'.toNat
  | .regex _ => True

theorem length_encodeUtf8 (s : List Char) : (encodeUtf8 s).length = bytes s := by
  induction s with
  | nil => rfl
  | cons c s ih => rw [encodeUtf8_cons, List.length_append, length_encodeChar, ih, bytes]

/-- The first byte behind a text. -/
theorem getElem?_encodeUtf8 (front : List Char) (hc : c.toNat < 0x80) (s : List Char) :
    (encodeUtf8 (front ++ c :: s))[bytes front]? = some c.toNat := by
  rw [encodeUtf8_append, encodeUtf8_cons, encodeChar_of_ascii hc, ← length_encodeUtf8,
    List.getElem?_append_right (Nat.le_refl _), Nat.sub_self]
  rfl

theorem inPlace_of_tokensFrom (front : List Char) {f : PatternFault} (hn : s.length ≤ n)
    (h : tokensFrom n (bytes front) s = .error f) : InPlace (front ++ s) f := by
  induction n generalizing front s with
  | zero =>
    obtain rfl := List.length_eq_zero_iff.mp (Nat.le_zero.mp hn)
    cases h
  | succ n ih =>
    cases s with
    | nil => cases h
    | cons c s =>
      cases hMark : readMark (bytes front) c s with
      | error e =>
        rw [tokensFrom, hMark] at h
        cases h
        obtain ⟨rfl, -, -, hField⟩ := readMark_eq_error hMark
        have hBrace := getElem?_encodeUtf8 front (c := '\x7b') (by decide) s
        obtain ⟨name, rfl | rfl⟩ := readField_eq_error hField
        · exact hBrace
        · exact hBrace
      | ok r =>
        obtain ⟨m, rest⟩ := r
        have hReading := reading_of_readMark hMark
        have hShorter := hReading.length_lt
        obtain ⟨piece, -, hPiece⟩ := hReading.exists_piece
        rw [tokensFrom, hMark, ok_bind] at h
        dsimp only at h
        rw [hPiece, bytes_append, Nat.add_sub_cancel, ← bytes_append] at h
        cases hTokens : tokensFrom n (bytes (front ++ piece)) rest with
        | ok us =>
          rw [hTokens] at h
          cases h
        | error e =>
          rw [hTokens] at h
          cases h
          rw [hPiece, ← List.append_assoc]
          exact ih (front ++ piece) (by omega) hTokens

/-- A token that is refused stands at a brace. -/
theorem inPlace_of_add {a : Assembly} {kind : TokenKind} {stop : Nat} {f : PatternFault}
    (hWritten : Written kind piece) (h : a.add ⟨bytes front, stop, kind⟩ = .error f) :
    InPlace (front ++ (piece ++ rest)) f := by
  unfold Assembly.add at h
  cases hWritten with
  | glyph | glyphs | openBrace => cases h
  | field name hint inside =>
    cases name with
    | none => cases h
    | some name =>
      dsimp only at h
      split_ifs at h
      cases h
      exact getElem?_encodeUtf8 front (c := '\x7b') (by decide) _
  | closeBrace =>
    dsimp only at h
    split at h
    · cases h
      exact getElem?_encodeUtf8 front (c := '\x7d') (by decide) _
    · cases h

theorem inPlace_of_foldlM (front : List Char) {ts : List Token} {a : Assembly} {f : PatternFault}
    (hCovers : Covers (bytes front) ts s) (h : ts.foldlM Assembly.add a = .error f) :
    InPlace (front ++ s) f := by
  generalize hStart : bytes front = start at hCovers
  induction hCovers generalizing front a with
  | done => cases h
  | @cons start kind piece ts rest hWritten hMore ih =>
    subst hStart
    rw [List.foldlM_cons] at h
    cases hAdd : a.add ⟨bytes front, bytes front + bytes piece, kind⟩ with
    | error e =>
      rw [hAdd] at h
      cases h
      exact inPlace_of_add hWritten hAdd
    | ok b =>
      rw [hAdd, ok_bind] at h
      rw [← List.append_assoc]
      exact ih (front ++ piece) h (bytes_append front piece)

theorem inPlace_of_tokens {f : PatternFault} (h : tokens s = .error f) : InPlace s f :=
  inPlace_of_tokensFrom [] (Nat.le_refl _) h

theorem inPlace_of_parts {f : PatternFault} (h : parts s = .error f) : InPlace s f := by
  unfold parts at h
  cases hTokens : tokens s with
  | error e =>
    rw [hTokens] at h
    cases h
    exact inPlace_of_tokens hTokens
  | ok ts =>
    rw [hTokens, ok_bind] at h
    cases hFold : ts.foldlM Assembly.add .start with
    | error e =>
      rw [hFold] at h
      cases h
      exact inPlace_of_foldlM [] (covers_of_tokensFrom (Nat.le_refl _) hTokens) hFold
    | ok a =>
      rw [hFold, ok_bind] at h
      split_ifs at h
      cases h
      exact (length_encodeUtf8 s).symm

theorem inPlace_of_compile {source : String} {f : PatternFault}
    (h : FormatPattern.compile source = .error f) : InPlace source.toList f := by
  unfold FormatPattern.compile at h
  cases hParts : parts source.toList with
  | error e =>
    rw [hParts] at h
    cases h
    exact inPlace_of_parts hParts
  | ok ps =>
    rw [hParts, ok_bind] at h
    cases hRead : Expression.read (Format.source ps) with
    | error e =>
      rw [hRead] at h
      cases h
      exact trivial
    | ok e =>
      rw [hRead] at h
      cases h

end Format

end Scenarist
