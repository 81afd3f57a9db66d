import Scenarist.Format.Lexer
import Scenarist.Proofs.Format.Spans
import Scenarist.Proofs.Text.Ascii

/-!
# Placeholders in bytes

The characters that end a name, the blanks behind it or a hint are all of ASCII.  So a scan over the
bytes of a text ends between two characters, at the one where a scan over the text ends.

* `bounds_of_fieldAt`: over any bytes, a placeholder that is read ends within them.
* `skip_encodeUtf8`: where a scan over the bytes of a text ends, and what it takes.
* `closingAt?_encodeUtf8`, `hintedAt_encodeUtf8`, `unhintedAt_encodeUtf8`: the closing brace, and
  what stands in front of it.
* `fieldAt_encodeUtf8`: a placeholder is the same in bytes and in characters.
-/

namespace Scenarist

namespace Format

open Text

variable {data : List Nat} {i start : Nat} {c : Char} {s rest : List Char}

/-! ### Scanning bytes -/

theorem slice_skip (p : Nat → Bool) (data : List Nat) (i : Nat) :
    slice data i (skip p data i) = (data.drop i).takeWhile p := by
  rw [slice, skip, Nat.add_sub_cancel_left]
  exact (List.prefix_iff_eq_take.mp (List.takeWhile_prefix p)).symm

theorem drop_skip (p : Nat → Bool) (data : List Nat) (i : Nat) :
    data.drop (skip p data i) = (data.drop i).dropWhile p := by
  rw [skip, ← List.drop_drop]
  generalize data.drop i = l
  calc l.drop (l.takeWhile p).length
      = (l.takeWhile p ++ l.dropWhile p).drop (l.takeWhile p).length := by
        rw [List.takeWhile_append_dropWhile]
    _ = l.dropWhile p := List.drop_left

theorem le_skip (p : Nat → Bool) (data : List Nat) (i : Nat) : i ≤ skip p data i :=
  Nat.le_add_right _ _

theorem lt_length_of_getElem? {b : Nat} (h : data[i]? = some b) : i < data.length :=
  (List.getElem?_eq_some_iff.mp h).1

theorem getElem?_of_drop {b : Nat} {more : List Nat} (h : data.drop i = b :: more) :
    data[i]? = some b ∧ data.drop (i + 1) = more := by
  refine ⟨?_, ?_⟩
  · rw [← List.head?_drop, h, List.head?_cons]
  · rw [← List.drop_drop, h, List.drop_one, List.tail_cons]

theorem le_of_closingAt? {depth stop : Nat} (h : closingAt? i depth data = some stop) :
    i ≤ stop := by
  fun_induction closingAt? i depth data with
  | case1 => cases h
  | case2 i depth rest ih => exact Nat.le_of_succ_le (ih h)
  | case3 i rest hOpen => exact Nat.le_of_eq (Option.some.inj h)
  | case4 i rest hOpen depth ih => exact Nat.le_of_succ_le (ih h)
  | case5 i depth b rest hOpen hClose ih => exact Nat.le_of_succ_le (ih h)

/-! ### Bounds of placeholders -/

variable {stop : Nat} {label hint : Option String}

theorem le_of_hintAt {name text : String} (h : hintAt data start i name = .ok (stop, text)) :
    i ≤ stop := by
  unfold hintAt at h
  dsimp only at h
  split at h
  · cases h
  · split_ifs at h
    cases h
    exact le_skip _ _ _

theorem bounds_of_closeAt {last : Nat} {name : String} {text : Option String}
    (h : closeAt data start stop name hint = .ok (last, label, text)) :
    last = stop + 1 ∧ last ≤ data.length := by
  unfold closeAt at h
  split at h
  · next hBrace =>
    cases h
    exact ⟨rfl, lt_length_of_getElem? hBrace⟩
  · cases h

/-- A placeholder is not empty and ends within the bytes. -/
theorem bounds_of_fieldAt (h : fieldAt data start = .ok (stop, label, hint)) :
    start < stop ∧ stop ≤ data.length := by
  have hName := le_skip (onAscii isNameChar) data (start + 1)
  have hBlank := le_skip (onAscii isAsciiBlank) data (skip (onAscii isNameChar) data (start + 1))
  unfold fieldAt at h
  dsimp only at h
  split_ifs at h with hSpaced hColon
  · obtain ⟨⟨close, text⟩, hHint, hClose⟩ := bind_eq_ok_iff.mp h
    dsimp only at hClose
    have hStop := le_of_hintAt hHint
    have hBounds := bounds_of_closeAt hClose
    omega
  · unfold unhintedAt at h
    split at h
    · cases h
    · next close hClosing =>
      have hStop := le_of_closingAt? hClosing
      have hBounds := bounds_of_closeAt h
      omega

/-! ### Scanning characters -/

/-- A test that holds of ASCII characters only is the same on the bytes of a character. -/
theorem onAscii_of_mem {q : Char → Bool} (hq : ∀ c, q c = true → c.toNat < 0x80) (c : Char) :
    ∀ b ∈ encodeChar c, onAscii q b = q c := by
  intro b hb
  rcases Nat.lt_or_ge c.toNat 0x80 with hc | hc
  · rw [encodeChar_of_ascii hc, List.mem_singleton] at hb
    rw [hb, onAscii, decide_eq_true hc, Bool.true_and, Char.ofNat_toNat]
  · have hLeast := le_of_mem_encodeChar hc hb
    rw [onAscii, decide_eq_false (Nat.not_lt.mpr hLeast), Bool.false_and]
    exact (Bool.eq_false_iff.mpr fun hTrue => absurd (hq c hTrue) (Nat.not_lt.mpr hc)).symm

theorem bne_of_mem {a : Char} (ha : a.toNat < 0x80) (c : Char) :
    ∀ b ∈ encodeChar c, (b != a.toNat) = (c != a) := fun b hb => by
  rw [bne, bne, Bool.not_inj_iff, Bool.eq_iff_iff, beq_iff_eq, beq_iff_eq]
  exact eq_toNat_iff_of_mem ha hb

/-- What a scan takes of the bytes of a text, and where it ends. -/
theorem skip_encodeUtf8 {p : Nat → Bool} {q : Char → Bool}
    (h : ∀ c, ∀ b ∈ encodeChar c, p b = q c) (hRest : data.drop i = encodeUtf8 s) :
    slice data i (skip p data i) = encodeUtf8 (s.takeWhile q) ∧
      skip p data i = i + bytes (s.takeWhile q) ∧
      data.drop (skip p data i) = encodeUtf8 (s.dropWhile q) := by
  obtain ⟨hTake, hDrop⟩ := scan_encodeUtf8 h s
  rw [slice_skip, drop_skip, skip, hRest, hTake, hDrop, length_encodeUtf8]
  exact ⟨rfl, rfl, rfl⟩

/-- The byte at a place where a text begins. -/
theorem getElem?_eq_some_iff_head? {a : Char} (ha : a.toNat < 0x80)
    (hRest : data.drop i = encodeUtf8 s) : data[i]? = some a.toNat ↔ s.head? = some a := by
  rw [← List.head?_drop, hRest]
  cases s with
  | nil => exact ⟨nofun, nofun⟩
  | cons c s =>
    obtain ⟨b, more, hCons⟩ := List.exists_cons_of_ne_nil (encodeChar_ne_nil c)
    rw [encodeUtf8_cons, hCons, List.cons_append, List.head?_cons, List.head?_cons,
      Option.some_inj, Option.some_inj]
    exact eq_toNat_iff_of_mem ha (hCons ▸ List.mem_cons_self)

theorem any_getElem?_eq {q : Char → Bool} (hq : ∀ c, q c = true → c.toNat < 0x80)
    (hRest : data.drop i = encodeUtf8 s) : data[i]?.any (onAscii q) = s.head?.any q := by
  rw [← List.head?_drop, hRest]
  cases s with
  | nil => rfl
  | cons c s =>
    obtain ⟨b, more, hCons⟩ := List.exists_cons_of_ne_nil (encodeChar_ne_nil c)
    rw [encodeUtf8_cons, hCons, List.cons_append]
    exact onAscii_of_mem hq c b (hCons ▸ List.mem_cons_self)

theorem drop_add_bytes (hRest : data.drop i = encodeUtf8 (s ++ rest)) :
    data.drop (i + bytes s) = encodeUtf8 rest := by
  rw [← List.drop_drop, hRest, encodeUtf8_append, ← length_encodeUtf8, List.drop_left]

/-! ### Classes of ASCII characters -/

theorem ascii_of_isAlphanum (h : c.isAlphanum = true) : c.toNat < 128 := by
  rcases Bool.or_eq_true_iff.mp h with hAlpha | hDigit
  · rcases Bool.or_eq_true_iff.mp hAlpha with hUpper | hLower
    · have hCode : c.toNat ≤ 90 := (of_decide_eq_true hUpper).2
      omega
    · have hCode : c.toNat ≤ 122 := of_decide_eq_true (Bool.and_eq_true_iff.mp hLower).2
      omega
  · have hCode : c.toNat ≤ 57 := of_decide_eq_true (Bool.and_eq_true_iff.mp hDigit).2
    omega

theorem ascii_of_isNameChar (c : Char) (h : isNameChar c = true) : c.toNat < 128 := by
  rw [isNameChar, Bool.or_eq_true, beq_iff_eq] at h
  rcases h with h | rfl
  · exact ascii_of_isAlphanum h
  · decide

theorem ascii_of_isAsciiBlank (c : Char) (h : isAsciiBlank c = true) : c.toNat < 128 := by
  simp only [isAsciiBlank, Bool.or_eq_true, beq_iff_eq] at h
  rcases h with (((rfl | rfl) | rfl) | rfl) | rfl <;> decide

theorem ascii_of_beginsField (c : Char) (h : beginsField c = true) : c.toNat < 128 := by
  simp only [beginsField, Bool.or_eq_true, beq_iff_eq] at h
  rcases h with ((h | rfl) | rfl) | rfl
  · exact ascii_of_isAlphanum (Bool.or_eq_true_iff.mpr (.inl h))
  all_goals decide

/-- The characters of an ASCII text are its bytes. -/
theorem map_ofNat_encodeUtf8 (h : IsAscii s) : (encodeUtf8 s).map Char.ofNat = s := by
  induction s with
  | nil => rfl
  | cons c s ih =>
    obtain ⟨hc, hs⟩ := isAscii_cons.mp h
    rw [encodeUtf8_cons, encodeChar_of_ascii hc, List.singleton_append, List.map_cons,
      Char.ofNat_toNat, ih hs]

/-! ### Placeholders -/

theorem closingAt?_append {front : List Nat}
    (hFront : ∀ b ∈ front, b ≠ '\x7b'.toNat ∧ b ≠ '\x7d'.toNat) (i depth : Nat)
    (behind : List Nat) :
    closingAt? i depth (front ++ behind) = closingAt? (i + front.length) depth behind := by
  induction front generalizing i with
  | nil => rfl
  | cons b front ih =>
    obtain ⟨⟨hOpen, hClose⟩, hMore⟩ := List.forall_mem_cons.mp hFront
    rw [List.cons_append, closingAt?.eq_def]
    dsimp only
    rw [if_neg hOpen, if_neg hClose, ih hMore, List.length_cons, Nat.add_assoc, Nat.add_comm 1]

/-- The closing brace is the same one in bytes and in characters. -/
theorem closingAt?_encodeUtf8 (i depth : Nat) (s : List Char) :
    closingAt? i depth (encodeUtf8 s) =
      (afterClosing depth s).map fun rest => i + bytes s - bytes ('\x7d' :: rest) := by
  fun_induction afterClosing depth s generalizing i with
  | case1 => rfl
  | case2 depth s ih =>
    have hOpen : encodeUtf8 ('\x7b' :: s) = '\x7b'.toNat :: encodeUtf8 s := rfl
    rw [hOpen, closingAt?.eq_def]
    dsimp only
    rw [if_pos rfl, ih, bytes, ← Nat.add_assoc]
    rfl
  | case3 s hOpen =>
    have hClose : encodeUtf8 ('\x7d' :: s) = '\x7d'.toNat :: encodeUtf8 s := rfl
    rw [hClose, closingAt?, if_neg (by decide), if_pos rfl, Option.map_some, Nat.add_sub_cancel]
  | case4 s hOpen depth ih =>
    have hClose : encodeUtf8 ('\x7d' :: s) = '\x7d'.toNat :: encodeUtf8 s := rfl
    rw [hClose, closingAt?, if_neg (by decide), if_pos rfl, bytes, ← Nat.add_assoc]
    exact ih (i + 1)
  | case5 depth c s hOpen hClose ih =>
    have hText : ∀ b ∈ encodeChar c, b ≠ '\x7b'.toNat ∧ b ≠ '\x7d'.toNat := fun b hb =>
      ⟨fun hEq => hOpen ((eq_toNat_iff_of_mem (by decide) hb).mp hEq),
        fun hEq => hClose ((eq_toNat_iff_of_mem (by decide) hb).mp hEq)⟩
    rw [encodeUtf8_cons, closingAt?_append hText, length_encodeChar, ih, bytes, ← Nat.add_assoc]

theorem named_ofList (s : List Char) :
    named (String.ofList s) = if s.isEmpty then none else some (String.ofList s) := by
  have hEmpty : (String.ofList s).isEmpty = s.isEmpty := by
    rw [Bool.eq_iff_iff, String.isEmpty_iff, List.isEmpty_iff, String.ofList_eq_empty_iff]
  rw [named, hEmpty]

theorem hintAt_encodeUtf8 (name : String) (hRest : data.drop i = encodeUtf8 s) :
    hintAt data start i name =
      if isHint (s.takeWhile (· != '\x7d')) then
        .ok (i + bytes (s.takeWhile (· != '\x7d')), String.ofList (s.takeWhile (· != '\x7d')))
      else .error (.pattern (.placeholder .invalid start (some name))) := by
  obtain ⟨hSlice, hStop, -⟩ := skip_encodeUtf8 (bne_of_mem (a := '\x7d') (by decide)) hRest
  unfold hintAt
  dsimp only
  rw [hSlice, decodeUtf8_encodeUtf8, hStop]

theorem closeAt_brace (name : String) (hint : Option String)
    (hStop : data.drop stop = encodeUtf8 ('\x7d' :: rest)) :
    closeAt data start stop name hint = .ok (stop + 1, named name, hint) :=
  if_pos ((getElem?_eq_some_iff_head? (a := '\x7d') (by decide) hStop).mpr rfl)

theorem closeAt_end (name : String) (hint : Option String) (hStop : data.drop stop = []) :
    closeAt data start stop name hint =
      .error (.pattern (.placeholder .unclosed start (some name))) := by
  have hEnd := getElem?_eq_some_iff_head? (a := '\x7d') (s := []) (by decide) hStop
  exact if_neg fun hEq => by cases hEnd.mp hEq

theorem hintedAt_encodeUtf8 (name : String) (hRest : data.drop i = encodeUtf8 s) :
    hintedAt data start i name =
      if !isHint (s.takeWhile (· != '\x7d')) then
        .error (.pattern (.placeholder .invalid start (some name)))
      else match s.dropWhile (· != '\x7d') with
        | [] => .error (.pattern (.placeholder .unclosed start (some name)))
        | _ :: rest =>
          .ok (i + bytes s - bytes rest, named name,
            some (String.ofList (s.takeWhile (· != '\x7d')))) := by
  have hStop : data.drop (i + bytes (s.takeWhile (· != '\x7d'))) =
      encodeUtf8 (s.dropWhile (· != '\x7d')) :=
    drop_add_bytes (by rw [hRest, List.takeWhile_append_dropWhile])
  have hSize := bytes_scan (· != '\x7d') s
  rw [hintedAt, hintAt_encodeUtf8 name hRest]
  cases isHint (s.takeWhile (· != '\x7d')) with
  | false => rfl
  | true =>
    rw [if_pos rfl, ok_bind, Bool.not_true, if_neg Bool.false_ne_true]
    cases hDrop : s.dropWhile (· != '\x7d') with
    | nil =>
      rw [hDrop] at hStop
      exact closeAt_end name _ hStop
    | cons d rest =>
      obtain rfl := eq_of_dropWhile_hint hDrop
      rw [hDrop] at hStop hSize
      have hPlace : i + bytes s - bytes rest = i + bytes (s.takeWhile (· != '\x7d')) + 1 := by
        have hBraceSize : '\x7d'.utf8Size = 1 := rfl
        rw [bytes] at hSize
        omega
      dsimp only
      rw [hPlace]
      exact closeAt_brace name _ hStop

theorem unhintedAt_encodeUtf8 (name : String) (hRest : data.drop i = encodeUtf8 s) :
    unhintedAt data start i name =
      match afterClosing 0 s with
      | none => .error (.pattern (.placeholder .unclosed start (some name)))
      | some rest => .ok (i + bytes s - bytes rest, named name, none) := by
  rw [unhintedAt, hRest, closingAt?_encodeUtf8]
  cases hClosing : afterClosing 0 s with
  | none => rfl
  | some rest =>
    obtain ⟨inside, rfl⟩ := exists_of_afterClosing hClosing
    have hPlace : i + bytes (inside ++ '\x7d' :: rest) - bytes ('\x7d' :: rest) =
        i + bytes inside := by
      rw [bytes_append, ← Nat.add_assoc, Nat.add_sub_cancel]
    have hBehind : i + bytes (inside ++ '\x7d' :: rest) - bytes rest = i + bytes inside + 1 := by
      have hBraceSize : '\x7d'.utf8Size = 1 := rfl
      rw [bytes_append, bytes]
      omega
    rw [Option.map_some, hPlace]
    dsimp only
    rw [hBehind]
    exact closeAt_brace name none (drop_add_bytes hRest)

/-- **A placeholder is the same in bytes and in characters.** -/
theorem fieldAt_encodeUtf8 (hRest : data.drop (start + 1) = encodeUtf8 s) :
    fieldAt data start =
      ((fun (label, hint, rest) => (start + 1 + bytes s - bytes rest, label, hint)) <$>
        readField start s).mapError .pattern := by
  obtain ⟨hSlice, hNameEnd, hAfterName⟩ :=
    skip_encodeUtf8 (onAscii_of_mem ascii_of_isNameChar) hRest
  obtain ⟨-, hBlankEnd, hAfterBlanks⟩ :=
    skip_encodeUtf8 (onAscii_of_mem ascii_of_isAsciiBlank) hAfterName
  have hAscii : IsAscii (s.takeWhile isNameChar) := fun c hc =>
    ascii_of_isNameChar c (List.mem_takeWhile_imp hc)
  have hName := bytes_scan isNameChar s
  have hBlank := bytes_scan isAsciiBlank (s.dropWhile isNameChar)
  unfold fieldAt readField
  dsimp only
  rw [hSlice, map_ofNat_encodeUtf8 hAscii, ← named_ofList]
  -- From here on the places and the text behind the blanks count only by what relates them.
  generalize String.ofList (s.takeWhile isNameChar) = name
  generalize skip (onAscii isAsciiBlank) data _ = blankEnd at *
  generalize skip (onAscii isNameChar) data (start + 1) = nameEnd at *
  have hBytes : start + 1 + bytes s =
      blankEnd + bytes ((s.dropWhile isNameChar).dropWhile isAsciiBlank) := by omega
  have hSpaced : (nameEnd < blankEnd) =
      ((s.dropWhile isNameChar).head?.any isAsciiBlank = true) := by
    rw [hBlankEnd, Nat.lt_add_right_iff_pos, bytes_takeWhile_pos_iff]
  simp only [hSpaced, Bool.decide_eq_true, hBytes]
  generalize (s.dropWhile isNameChar).dropWhile isAsciiBlank = behind at *
  have hIs : ∀ a : Char, a.toNat < 0x80 →
      (data[blankEnd]? = some a.toNat ↔ behind.head? = some a) := fun a ha =>
    getElem?_eq_some_iff_head? ha hAfterBlanks
  have hEnds : (data[blankEnd]? == some ':'.toNat || data[blankEnd]? == some '\x7d'.toNat) =
      behind.head?.any (fun c => c == ':' || c == '\x7d') := by
    rw [Bool.eq_iff_iff, Bool.or_eq_true, beq_iff_eq, beq_iff_eq, hIs ':' (by decide),
      hIs '\x7d' (by decide)]
    cases behind <;> simp
  rw [hEnds]
  split_ifs with hInvalid hColon
  · rfl
  · obtain ⟨after, rfl⟩ := List.head?_eq_some_iff.mp ((hIs ':' (by decide)).mp hColon)
    have hSize : blankEnd + 1 + bytes after = blankEnd + bytes (':' :: after) :=
      Nat.add_assoc _ _ _
    have hAfter : data.drop (blankEnd + 1) = encodeUtf8 after :=
      drop_add_bytes (s := [':']) hAfterBlanks
    simp only [hintedAt_encodeUtf8 name hAfter, hSize]
    split_ifs
    · rfl
    · cases after.dropWhile (· != '\x7d') with
      | nil => rfl
      | cons d rest => rfl
  · have hNotColon : ∀ more, behind ≠ ':' :: more := fun more hEq =>
      hColon ((hIs ':' (by decide)).mpr (by rw [hEq]; rfl))
    rw [unhintedAt_encodeUtf8 name hAfterBlanks]
    cases hClosing : afterClosing 0 behind with
    | none =>
      dsimp only
      split
      · next more => exact absurd rfl (hNotColon more)
      · rw [hClosing]
        rfl
    | some rest =>
      dsimp only
      split
      · next more => exact absurd rfl (hNotColon more)
      · rw [hClosing]
        rfl

end Format

end Scenarist
