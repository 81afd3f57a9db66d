import Mathlib.Data.List.TakeWhile
import Scenarist.Proofs.Text.Scan
import Scenarist.Text.Utf8

/-!
# Bytes of texts

A character of ASCII is one byte, its number; all bytes of another character lie above ASCII.  So a
scan of the bytes of a text for ASCII characters is a scan of the text.

* `decodeUtf8_encodeUtf8`: the bytes of a text are read as the text.
* `scan_encodeUtf8`: a scan over bytes ends between characters.
-/

namespace Scenarist.Text

variable {c : Char} {s : List Char}

/-! ### Bytes of a character -/

theorem toNat_lt (c : Char) : c.toNat < 0x110000 := by
  rcases c.valid with h | h
  · exact h.trans (by decide)
  · exact h.2

/-- The numbers between those of characters stand for no character. -/
theorem not_surrogate (c : Char) : c.toNat < 0xD800 ∨ 0xDFFF < c.toNat := c.valid.imp id And.left

/-- The bytes of a character by its number. -/
theorem encodeChar_eq (c : Char) : encodeChar c =
    if c.toNat ≤ 0x7F then [c.toNat]
    else if c.toNat ≤ 0x7FF then [192 + c.toNat / 64, 128 + c.toNat % 64]
    else if c.toNat ≤ 0xFFFF then
      [224 + c.toNat / 4096, 128 + c.toNat / 64 % 64, 128 + c.toNat % 64]
    else [240 + c.toNat / 262144, 128 + c.toNat / 4096 % 64, 128 + c.toNat / 64 % 64,
      128 + c.toNat % 64] := by
  have hByte : ∀ n < 256, (UInt8.ofNat n).toNat = n := fun n hn => by
    rw [UInt8.toNat_ofNat', Nat.mod_eq_of_lt hn]
  have hRange := toNat_lt c
  have hNumber : c.val.toNat = c.toNat := rfl
  unfold encodeChar String.utf8EncodeChar
  simp only [hNumber]
  generalize c.toNat = n at hRange
  split_ifs
  · rw [List.map_singleton, hByte n (by omega)]
  · rw [List.map_cons, List.map_singleton, hByte _ (by omega), hByte _ (by omega)]
    simp only [List.cons.injEq, and_true]
    omega
  · rw [List.map_cons, List.map_cons, List.map_singleton, hByte _ (by omega), hByte _ (by omega),
      hByte _ (by omega)]
    simp only [List.cons.injEq, and_true]
    omega
  · rw [List.map_cons, List.map_cons, List.map_cons, List.map_singleton, hByte _ (by omega),
      hByte _ (by omega), hByte _ (by omega), hByte _ (by omega)]
    simp only [List.cons.injEq, and_true]
    omega

theorem encodeChar_of_ascii (h : c.toNat < 0x80) : encodeChar c = [c.toNat] := by
  rw [encodeChar_eq, if_pos (Nat.le_of_lt_succ h)]

theorem le_of_mem_encodeChar (h : 0x80 ≤ c.toNat) {b : Nat} (hb : b ∈ encodeChar c) : 0x80 ≤ b := by
  rw [encodeChar_eq, if_neg (Nat.not_le.mpr h)] at hb
  split_ifs at hb <;> simp only [List.mem_cons, List.not_mem_nil, or_false] at hb <;> omega

/-- Only the first byte of a character can be one of ASCII. -/
theorem le_of_encodeChar_eq_cons {b : Nat} {more : List Nat} (h : encodeChar c = b :: more) :
    ∀ d ∈ more, 0x80 ≤ d := by
  intro d hd
  rcases Nat.lt_or_ge c.toNat 0x80 with hc | hc
  · rw [encodeChar_of_ascii hc] at h
    cases h
    cases hd
  · exact le_of_mem_encodeChar hc (h ▸ List.mem_cons_of_mem b hd)

theorem encodeChar_ne_nil (c : Char) : encodeChar c ≠ [] := by
  simp [encodeChar]

theorem length_encodeChar (c : Char) : (encodeChar c).length = c.utf8Size := by
  rw [encodeChar, List.length_map, String.length_utf8EncodeChar]

theorem encodeUtf8_cons (c : Char) (s : List Char) :
    encodeUtf8 (c :: s) = encodeChar c ++ encodeUtf8 s := rfl

/-- A byte of a character is that of an ASCII character only when the character is this one. -/
theorem eq_toNat_iff_of_mem {a : Char} (ha : a.toNat < 0x80) {b : Nat} (hb : b ∈ encodeChar c) :
    b = a.toNat ↔ c = a := by
  rcases Nat.lt_or_ge c.toNat 0x80 with hc | hc
  · rw [encodeChar_of_ascii hc, List.mem_singleton] at hb
    rw [hb, Char.toNat_inj]
  · have hLeast := le_of_mem_encodeChar hc hb
    refine ⟨fun hEq => by omega, fun hEq => ?_⟩
    rw [hEq] at hc
    omega

theorem encodeUtf8_append (s t : List Char) : encodeUtf8 (s ++ t) = encodeUtf8 s ++ encodeUtf8 t :=
  List.flatMap_append

theorem isEmpty_encodeUtf8 (s : List Char) : (encodeUtf8 s).isEmpty = s.isEmpty := by
  cases s with
  | nil => rfl
  | cons c s =>
    have hNonempty := List.append_ne_nil_of_left_ne_nil (encodeChar_ne_nil c) (encodeUtf8 s)
    exact List.isEmpty_eq_false_iff.mpr hNonempty

/-! ### Decoding -/

theorem isContinuation_of_lt {n : Nat} (h : n < 64) : isContinuation (128 + n) = true := by
  rw [isContinuation, Bool.and_eq_true, decide_eq_true_eq, decide_eq_true_eq]
  omega

theorem secondOfThree_of_char (hLeast : 0x7FF < c.toNat) (hMost : c.toNat ≤ 0xFFFF) :
    secondOfThree (224 + c.toNat / 4096) (128 + c.toNat / 64 % 64) = true := by
  have hGap := not_surrogate c
  unfold secondOfThree
  split_ifs with hFirst hSurrogates
  · rw [Bool.and_eq_true, decide_eq_true_eq, decide_eq_true_eq]
    omega
  · rw [Bool.and_eq_true, decide_eq_true_eq, decide_eq_true_eq]
    omega
  · exact isContinuation_of_lt (Nat.mod_lt _ (by decide))

theorem secondOfFour_of_char (hLeast : 0xFFFF < c.toNat) :
    secondOfFour (240 + c.toNat / 262144) (128 + c.toNat / 4096 % 64) = true := by
  have hMost := toNat_lt c
  unfold secondOfFour
  split_ifs with hFirst hLast
  · rw [Bool.and_eq_true, decide_eq_true_eq, decide_eq_true_eq]
    omega
  · rw [Bool.and_eq_true, decide_eq_true_eq, decide_eq_true_eq]
    omega
  · exact isContinuation_of_lt (Nat.mod_lt _ (by decide))

theorem assemble_eq {lead : Nat} {others : List Nat}
    (h : others.foldl (fun n b => n * 64 + b % 64) lead = c.toNat) : assemble lead others = c := by
  rw [assemble, h, Char.ofNat_toNat]

/-- The bytes of a character are read as the character. -/
theorem decodeUtf8From_encodeChar (i : Nat) (c : Char) (rest : List Nat) :
    decodeUtf8From i (encodeChar c ++ rest) =
      (c :: ·) <$> decodeUtf8From (i + (encodeChar c).length) rest := by
  have hMost := toNat_lt c
  have hContinues : ∀ n, isContinuation (128 + n % 64) = true := fun n =>
    isContinuation_of_lt (Nat.mod_lt n (by decide))
  rw [encodeChar_eq]
  split_ifs with hOne hTwo hThree
  · rw [List.singleton_append, decodeUtf8From.eq_def]
    dsimp only
    rw [if_pos (by omega), Char.ofNat_toNat]
    rfl
  · have hChar : assemble ((192 + c.toNat / 64) % 32) [128 + c.toNat % 64] = c :=
      assemble_eq (by simp only [List.foldl_cons, List.foldl_nil]; omega)
    rw [List.cons_append, decodeUtf8From.eq_def]
    dsimp only
    rw [if_neg (by omega), if_pos (by omega)]
    simp only [List.cons_append, List.nil_append, hContinues, if_true, hChar]
    rfl
  · have hSecond := secondOfThree_of_char (by omega) hThree
    have hChar : assemble ((224 + c.toNat / 4096) % 16)
        [128 + c.toNat / 64 % 64, 128 + c.toNat % 64] = c :=
      assemble_eq (by simp only [List.foldl_cons, List.foldl_nil]; omega)
    rw [List.cons_append, decodeUtf8From.eq_def]
    dsimp only
    rw [if_neg (by omega), if_neg (by omega), if_pos (by omega)]
    simp only [List.cons_append, List.nil_append, hSecond, hContinues, Bool.not_true, if_true,
      Bool.false_eq_true, if_false, hChar]
    rfl
  · have hSecond := secondOfFour_of_char (c := c) (by omega)
    have hChar : assemble ((240 + c.toNat / 262144) % 8)
        [128 + c.toNat / 4096 % 64, 128 + c.toNat / 64 % 64, 128 + c.toNat % 64] = c :=
      assemble_eq (by simp only [List.foldl_cons, List.foldl_nil]; omega)
    rw [List.cons_append, decodeUtf8From.eq_def]
    dsimp only
    rw [if_neg (by omega), if_neg (by omega), if_neg (by omega),
      if_pos (by omega)]
    simp only [List.cons_append, List.nil_append, hSecond, hContinues, Bool.not_true, if_true,
      Bool.false_eq_true, if_false, hChar]
    rfl

theorem decodeUtf8_encodeUtf8 (s : List Char) : decodeUtf8 (encodeUtf8 s) = .ok s := by
  have hFrom : ∀ i, decodeUtf8From i (encodeUtf8 s) = .ok s := by
    induction s with
    | nil => exact fun i => rfl
    | cons c s ih =>
      intro i
      rw [encodeUtf8_cons, decodeUtf8From_encodeChar, ih]
      rfl
  exact hFrom 0

theorem decodeLossy_encodeUtf8 (s : List Char) : decodeLossy (encodeUtf8 s) = s := by
  rw [decodeLossy, decodeLossyFrom, decodeUtf8_encodeUtf8]

/-! ### Scanning -/

theorem scan_encodeUtf8 {p : Nat → Bool} {q : Char → Bool}
    (h : ∀ c, ∀ b ∈ encodeChar c, p b = q c) (s : List Char) :
    (encodeUtf8 s).takeWhile p = encodeUtf8 (s.takeWhile q) ∧
      (encodeUtf8 s).dropWhile p = encodeUtf8 (s.dropWhile q) := by
  induction s with
  | nil => exact ⟨rfl, rfl⟩
  | cons c s ih =>
    rw [encodeUtf8_cons]
    by_cases hc : q c = true
    · have hAll : ∀ b ∈ encodeChar c, p b = true := fun b hb => (h c b hb).trans hc
      rw [List.takeWhile_append_of_pos hAll, List.dropWhile_append_of_pos hAll,
        List.takeWhile_cons_of_pos hc, List.dropWhile_cons_of_pos hc, ih.1, ih.2]
      exact ⟨rfl, rfl⟩
    · obtain ⟨b, more, hCons⟩ := List.exists_cons_of_ne_nil (encodeChar_ne_nil c)
      have hb : ¬ p b = true := by
        rw [h c b (hCons ▸ List.mem_cons_self)]
        exact hc
      rw [List.takeWhile_cons_of_neg hc, List.dropWhile_cons_of_neg hc, encodeUtf8_cons, hCons,
        List.cons_append, List.takeWhile_cons_of_neg hb, List.dropWhile_cons_of_neg hb]
      exact ⟨rfl, rfl⟩

end Scenarist.Text
