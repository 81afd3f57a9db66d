import Mathlib.Logic.Relation
import Scenarist.Proofs.Format.Bytes

/-!
# Lexing bytes

The lexer walks over bytes and may stand inside a character, but only in the middle of a text that
it holds.  So its tokens are those that reading by characters gives.

* `turn_advances`: over any bytes, a turn moves on and does not pass their end.
* `pos_of_turns`: as many turns as there are bytes are enough.
* `reaches_glyph`, `reaches_of_reading`: turns follow a character of text, however many bytes it
  has, and every other mark.
* `lex_encodeUtf8`: the bytes of a text are cut as the text is.
* `lex_covers_text_and_places_faults`: what this says of every pattern.
-/

namespace Scenarist

namespace Format

open Text

variable {data : List Nat} {n : Nat} {c : Char} {s rest : List Char}

/-! ### Progress -/

namespace Lexer

variable {l l' : Lexer}

/-- **A turn moves on and does not pass the end of the bytes.** -/
theorem turn_advances {b : Nat} (hHere : data[l.pos]? = some b) (h : l.turn data b = .ok l') :
    l.pos < l'.pos ∧ l'.pos ≤ data.length := by
  have hPos := lt_length_of_getElem? hHere
  have hTwo : ∀ {d}, data[l.pos + 1]? = some d → l.pos + 2 ≤ data.length := fun hNext =>
    lt_length_of_getElem? hNext
  unfold turn at h
  dsimp only at h
  split_ifs at h with hBackslash hOpen hTwice hBegins hClose hTwice
  · split at h
    · next d hNext =>
      cases h
      exact ⟨Nat.lt_add_of_pos_right (by decide), hTwo hNext⟩
    · cases h
      exact ⟨Nat.lt_succ_self _, hPos⟩
  · cases h
    exact ⟨Nat.lt_add_of_pos_right (by decide), hTwo hTwice⟩
  · obtain ⟨⟨stop, name, hint⟩, hField, hEq⟩ := map_eq_ok_iff.mp h
    cases hEq
    exact bounds_of_fieldAt hField
  · cases h
    exact ⟨Nat.lt_succ_self _, hPos⟩
  · cases h
    exact ⟨Nat.lt_add_of_pos_right (by decide), hTwo hTwice⟩
  · cases h
    exact ⟨Nat.lt_succ_self _, hPos⟩
  · cases h
    exact ⟨Nat.lt_succ_self _, hPos⟩

theorem turns_of_end (h : data[l.pos]? = none) (n : Nat) : turns data n l = .ok l := by
  cases n with
  | zero => rfl
  | succ n => rw [turns, h]

theorem turns_succ {b : Nat} (hHere : data[l.pos]? = some b) (h : l.turn data b = .ok l')
    (n : Nat) : turns data (n + 1) l = turns data n l' := by
  rw [turns, hHere]
  dsimp only
  rw [h, ok_bind]

/-- **As many turns as there are bytes left lead to the end of the bytes.** -/
theorem pos_of_turns (hPos : l.pos ≤ data.length) (hn : data.length ≤ l.pos + n)
    (h : turns data n l = .ok l') : l'.pos = data.length := by
  induction n generalizing l with
  | zero =>
    cases h
    exact Nat.le_antisymm hPos hn
  | succ n ih =>
    cases hHere : data[l.pos]? with
    | none =>
      rw [turns_of_end hHere] at h
      cases h
      exact Nat.le_antisymm hPos (List.getElem?_eq_none_iff.mp hHere)
    | some b =>
      cases hTurn : l.turn data b with
      | error e =>
        rw [turns, hHere] at h
        dsimp only at h
        rw [hTurn] at h
        cases h
      | ok m =>
        obtain ⟨hMoved, hBound⟩ := turn_advances hHere hTurn
        rw [turns_succ hHere hTurn] at h
        exact ih hBound (by omega) h

end Lexer

/-! ### Texts that are held -/

/-- A token with its text as bytes. -/
def TokenKind.encoded : TokenKind → ByteKind
  | .literal text => .literal (encodeUtf8 text)
  | .field name hint => .field name hint
  | .openBrace => .openBrace
  | .closeBrace => .closeBrace

def Token.encoded (t : Token) : ByteToken := ⟨t.start, t.stop, t.kind.encoded⟩

theorem Token.decoded_encoded (t : Token) : t.encoded.decoded = t := by
  obtain ⟨start, stop, kind⟩ := t
  cases kind with
  | literal text =>
    exact congrArg (fun s => Token.mk start stop (.literal s)) (decodeLossy_encodeUtf8 text)
  | field | openBrace | closeBrace => rfl

/-- Puts a text that ends at byte `pos` in front of tokens, as `Mark.cons` puts a character. -/
def joined (held : List Char) (begun pos : Nat) (ts : List Token) : List Token :=
  if held.isEmpty then ts
  else match ts with
    | ⟨_, last, .literal text⟩ :: rest => ⟨begun, last, .literal (held ++ text)⟩ :: rest
    | ts => ⟨begun, pos, .literal held⟩ :: ts

theorem joined_char (held : List Char) (c : Char) (begun pos stop : Nat) (ts : List Token) :
    joined held begun pos ((Mark.char c).cons pos stop ts) =
      joined (held ++ [c]) (if held.isEmpty then pos else begun) stop ts := by
  rcases ts with _ | ⟨⟨first, last, kind⟩, ts⟩
  · cases held with
    | nil => rfl
    | cons => rfl
  · cases kind with
    | literal text =>
      have hAppend : held ++ c :: text = held ++ [c] ++ text := by
        rw [List.append_assoc, List.singleton_append]
      unfold joined
      cases held with
      | nil => rfl
      | cons d held => exact congrArg (fun s => Token.mk begun last (.literal s) :: ts) hAppend
    | field | openBrace | closeBrace =>
      cases held with
      | nil => rfl
      | cons => rfl

theorem joined_other {held : List Char} {kind : TokenKind} (hKind : ∀ text, kind ≠ .literal text)
    (begun pos stop : Nat) (ts : List Token) :
    joined held begun pos (⟨pos, stop, kind⟩ :: ts) =
      joined held begun pos [] ++ ⟨pos, stop, kind⟩ :: ts := by
  unfold joined
  cases held with
  | nil => rfl
  | cons d held =>
    cases kind with
    | literal text => exact absurd rfl (hKind text)
    | field | openBrace | closeBrace => rfl

namespace Lexer

variable {l l' : Lexer} {held piece : List Char}

/-- What a lexer that holds a text gives when tokens follow. -/
def given (l : Lexer) (held : List Char) (ts : List Token) : List ByteToken :=
  l.done.reverse ++ (joined held l.begun l.pos ts).map Token.encoded

theorem reverse_flushed (hHeld : l.held = encodeUtf8 held) :
    l.flushed.reverse = l.given held [] := by
  unfold flushed given joined
  rw [hHeld, isEmpty_encodeUtf8]
  cases held with
  | nil => exact (List.append_nil _).symm
  | cons c held => exact List.reverse_cons

theorem given_hold (hHeld : l.held = encodeUtf8 held) (c : Char) (n : Nat) (ts : List Token) :
    l.given held ((Mark.char c).cons l.pos (l.pos + n) ts) =
      (l.hold (encodeChar c) n).given (held ++ [c]) ts := by
  unfold given
  rw [joined_char, hold, hHeld, isEmpty_encodeUtf8]

theorem given_put (hHeld : l.held = encodeUtf8 held) (kind : TokenKind)
    (hKind : ∀ text, kind ≠ .literal text) (stop : Nat) (ts : List Token) :
    l.given held (⟨l.pos, stop, kind⟩ :: ts) = (l.put stop kind.encoded).given [] ts := by
  have hFlushed := reverse_flushed hHeld
  unfold given at hFlushed ⊢
  rw [joined_other hKind, List.map_append, ← List.append_assoc, ← hFlushed, put, List.reverse_cons,
    List.append_assoc]
  rfl


/-! ### Turns over a text -/

theorem turn_text {b : Nat} (hBackslash : b ≠ '\\'.toNat) (hOpen : b ≠ '\x7b'.toNat)
    (hClose : b ≠ '\x7d'.toNat) : l.turn data b = .ok (l.hold [b] 1) := by
  rw [turn, if_neg hBackslash, if_neg hOpen, if_neg hClose]

/-- A brace opens, by what the text behind it begins with. -/
theorem turn_open (hRest : data.drop (l.pos + 1) = encodeUtf8 s) :
    l.turn data '\x7b'.toNat =
      if s.head? = some '\x7b' then .ok (l.hold ['\x7b'.toNat] 2)
      else if s.head?.any beginsField then
        (fun (stop, name, hint) => l.put stop (.field name hint)) <$> fieldAt data l.pos
      else .ok (l.put (l.pos + 1) .openBrace) := by
  rw [turn, if_neg (by decide), if_pos rfl, any_getElem?_eq ascii_of_beginsField hRest]
  simp only [getElem?_eq_some_iff_head? (a := '\x7b') (by decide) hRest]

theorem turn_close (hRest : data.drop (l.pos + 1) = encodeUtf8 s) :
    l.turn data '\x7d'.toNat =
      if s.head? = some '\x7d' then .ok (l.hold ['\x7d'.toNat] 2)
      else .ok (l.put (l.pos + 1) .closeBrace) := by
  rw [turn, if_neg (by decide), if_neg (by decide), if_pos rfl]
  simp only [getElem?_eq_some_iff_head? (a := '\x7d') (by decide) hRest]

/-! ### Runs of turns -/

/-- A turn leads from a state to the next. -/
def TurnsTo (data : List Nat) (l l' : Lexer) : Prop :=
  ∃ b, data[l.pos]? = some b ∧ l.turn data b = .ok l'

/-- Turns that lead to another state may be left out, if there are as many turns as bytes left. -/
theorem turns_of_reaches (h : Relation.ReflTransGen (TurnsTo data) l l')
    (hn : data.length ≤ l.pos + n) :
    ∃ m, data.length ≤ l'.pos + m ∧ turns data n l = turns data m l' := by
  induction h using Relation.ReflTransGen.head_induction_on generalizing n with
  | refl => exact ⟨n, hn, rfl⟩
  | @head l k hTurn hMore ih =>
    obtain ⟨b, hHere, hOk⟩ := hTurn
    obtain ⟨hMoved, -⟩ := turn_advances hHere hOk
    have hInside := lt_length_of_getElem? hHere
    obtain ⟨n, rfl⟩ : ∃ n', n = n' + 1 := ⟨n - 1, by omega⟩
    obtain ⟨m, hm, hEq⟩ := ih (n := n) (by omega)
    exact ⟨m, hm, (turns_succ hHere hOk n).trans hEq⟩

theorem hold_hold {bs : List Nat} (hbs : bs ≠ []) (l : Lexer) (more : List Nat) (m n : Nat) :
    (l.hold bs m).hold more n = l.hold (bs ++ more) (m + n) := by
  have hHeld : (l.held ++ bs).isEmpty = false :=
    List.isEmpty_eq_false_iff.mpr (List.append_ne_nil_of_right_ne_nil _ hbs)
  unfold hold
  dsimp only
  rw [hHeld, if_neg Bool.false_ne_true, Nat.add_assoc, List.append_assoc]

/-- The bytes of a character behind its first one are text, one by one. -/
theorem reaches_continuation {b : Nat} {more behind : List Nat} (hMore : ∀ d ∈ more, 0x80 ≤ d)
    (hRest : data.drop (l.pos + n) = more ++ behind) :
    Relation.ReflTransGen (TurnsTo data) (l.hold [b] n) (l.hold (b :: more) (n + more.length)) := by
  induction more using List.reverseRecOn generalizing behind with
  | nil => exact .refl
  | append_singleton more d ih =>
    obtain ⟨hFront, hLast⟩ := List.forall_mem_append.mp hMore
    have hOther : ∀ a : Char, a.toNat < 0x80 → d ≠ a.toNat := fun a ha =>
      Nat.ne_of_gt (Nat.lt_of_lt_of_le ha (hLast d List.mem_cons_self))
    rw [List.append_assoc, List.singleton_append] at hRest
    have hHere : data.drop (l.pos + (n + more.length)) = d :: behind := by
      rw [← Nat.add_assoc, ← List.drop_drop, hRest, List.drop_left]
    have hTurn : (l.hold (b :: more) (n + more.length)).turn data d =
        .ok (l.hold (b :: (more ++ [d])) (n + (more ++ [d]).length)) := by
      rw [turn_text (hOther '\\' (by decide)) (hOther '\x7b' (by decide))
        (hOther '\x7d' (by decide)), hold_hold (List.cons_ne_nil _ _), List.length_append,
        Nat.add_assoc]
      rfl
    exact (ih hFront hRest).tail ⟨d, (getElem?_of_drop hHere).1, hTurn⟩

/-- **A character of text is held, however it is written and however many bytes it has.** -/
theorem reaches_glyph (hGlyph : Glyph c piece) (hLast : piece = ['\\'] → rest = [])
    (hRest : data.drop l.pos = encodeUtf8 (piece ++ rest)) :
    Relation.ReflTransGen (TurnsTo data) l (l.hold (encodeChar c) (bytes piece)) := by
  cases hGlyph with
  | plain hBackslash hOpen hClose =>
    obtain ⟨b, more, hBytes⟩ := List.exists_cons_of_ne_nil (encodeChar_ne_nil c)
    have hIs : ∀ a : Char, a.toNat < 0x80 → c ≠ a → b ≠ a.toNat := fun a ha hNot hEq =>
      hNot ((eq_toNat_iff_of_mem ha (hBytes ▸ List.mem_cons_self)).mp hEq)
    have hSize : bytes [c] = 1 + more.length := by
      rw [bytes, bytes, ← length_encodeChar, hBytes, List.length_cons]
      omega
    rw [List.singleton_append, encodeUtf8_cons, hBytes, List.cons_append] at hRest
    obtain ⟨hHere, hBehind⟩ := getElem?_of_drop hRest
    have hTurn : l.turn data b = .ok (l.hold [b] 1) := turn_text (hIs '\\' (by decide) hBackslash)
      (hIs '\x7b' (by decide) hOpen) (hIs '\x7d' (by decide) hClose)
    rw [hBytes, hSize]
    exact .head ⟨b, hHere, hTurn⟩ (reaches_continuation (le_of_encodeChar_eq_cons hBytes) hBehind)
  | escaped =>
    obtain ⟨b, more, hBytes⟩ := List.exists_cons_of_ne_nil (encodeChar_ne_nil c)
    have hSize : bytes ['\\', c] = 2 + more.length := by
      have hBackslash : '\\'.utf8Size = 1 := rfl
      have hOther : c.utf8Size = more.length + 1 := by
        rw [← length_encodeChar, hBytes, List.length_cons]
      rw [bytes, bytes, bytes]
      omega
    have hText : encodeUtf8 (['\\', c] ++ rest) = '\\'.toNat :: b :: (more ++ encodeUtf8 rest) := by
      rw [← List.cons_append, ← hBytes]
      rfl
    rw [hText] at hRest
    obtain ⟨hHere, hNext⟩ := getElem?_of_drop hRest
    obtain ⟨hNextHere, hBehind⟩ := getElem?_of_drop hNext
    have hTurn : l.turn data '\\'.toNat = .ok (l.hold [b] 2) := by
      rw [turn, if_pos rfl, hNextHere]
    rw [hBytes, hSize]
    exact .head ⟨_, hHere, hTurn⟩ (reaches_continuation (le_of_encodeChar_eq_cons hBytes) hBehind)
  | openTwice =>
    obtain ⟨hHere, hBehind⟩ := getElem?_of_drop (b := '\x7b'.toNat) hRest
    exact .single ⟨_, hHere, turn_open (s := '\x7b' :: rest) hBehind⟩
  | closeTwice =>
    obtain ⟨hHere, hBehind⟩ := getElem?_of_drop (b := '\x7d'.toNat) hRest
    exact .single ⟨_, hHere, turn_close (s := '\x7d' :: rest) hBehind⟩
  | backslash =>
    obtain rfl := hLast rfl
    obtain ⟨hHere, hBehind⟩ := getElem?_of_drop (b := '\\'.toNat) hRest
    have hEnd : data[l.pos + 1]? = none := by
      rw [← List.head?_drop, hBehind]
      rfl
    have hTurn : l.turn data '\\'.toNat = .ok (l.hold ['\\'.toNat] 1) := by
      rw [turn, if_pos rfl, hEnd]
    exact .single ⟨_, hHere, hTurn⟩

/-- **What is read as a mark is read by turns.** -/
theorem reaches_of_reading {m : Mark} (hHeld : l.held = encodeUtf8 held)
    (hRest : data.drop l.pos = encodeUtf8 s) (h : Reading l.pos s m rest) :
    ∃ l' held', Relation.ReflTransGen (TurnsTo data) l l' ∧
      l'.pos = l.pos + (bytes s - bytes rest) ∧ data.drop l'.pos = encodeUtf8 rest ∧
      l'.held = encodeUtf8 held' ∧
      ∀ ts, l.given held (m.cons l.pos l'.pos ts) = l'.given held' ts := by
  cases h with
  | @glyph c piece rest hGlyph hLast =>
    refine ⟨_, held ++ [c], reaches_glyph hGlyph hLast hRest, ?_, drop_add_bytes hRest, ?_,
      given_hold hHeld c (bytes piece)⟩
    · rw [bytes_append, Nat.add_sub_cancel]
      rfl
    · rw [hold, hHeld, encodeUtf8_append, encodeUtf8_cons]
      exact congrArg _ (List.append_nil _).symm
  | openBrace hOnce hPlain =>
    obtain ⟨hHere, hBehind⟩ := getElem?_of_drop (b := '\x7b'.toNat) hRest
    have hTurn := turn_open hBehind
    rw [if_neg hOnce, hPlain, if_neg Bool.false_ne_true] at hTurn
    refine ⟨_, [], .single ⟨_, hHere, hTurn⟩, ?_, hBehind, rfl,
      given_put hHeld .openBrace (fun _ hEq => by cases hEq) _⟩
    rw [bytes, Nat.add_sub_cancel]
    rfl
  | closeBrace hOnce =>
    obtain ⟨hHere, hBehind⟩ := getElem?_of_drop (b := '\x7d'.toNat) hRest
    have hTurn := turn_close hBehind
    rw [if_neg hOnce] at hTurn
    refine ⟨_, [], .single ⟨_, hHere, hTurn⟩, ?_, hBehind, rfl,
      given_put hHeld .closeBrace (fun _ hEq => by cases hEq) _⟩
    rw [bytes, Nat.add_sub_cancel]
    rfl
  | @field s rest name hint hOnce hBegins hField =>
    obtain ⟨hHere, hBehind⟩ := getElem?_of_drop (b := '\x7b'.toNat) hRest
    have hTurn : l.turn data '\x7b'.toNat =
        .ok (l.put (l.pos + 1 + bytes s - bytes rest) (.field name hint)) := by
      rw [turn_open hBehind, if_neg hOnce, if_pos hBegins, fieldAt_encodeUtf8 hBehind, hField]
      rfl
    obtain ⟨inside, rfl⟩ := exists_of_readField hField
    have hPiece : '\x7b' :: (inside ++ '\x7d' :: rest) = '\x7b' :: (inside ++ ['\x7d']) ++ rest := by
      rw [List.cons_append, List.append_assoc, List.singleton_append]
    have hStop : l.pos + 1 + bytes (inside ++ '\x7d' :: rest) - bytes rest =
        l.pos + bytes ('\x7b' :: (inside ++ ['\x7d'])) := by
      have hBrace : '\x7b'.utf8Size = 1 := rfl
      rw [bytes, bytes_append, bytes_append, bytes, bytes, bytes]
      omega
    rw [hPiece] at hRest ⊢
    rw [hStop] at hTurn
    refine ⟨_, [], .single ⟨_, hHere, hTurn⟩, ?_, drop_add_bytes hRest, rfl,
      given_put hHeld (.field name hint) (fun _ hEq => by cases hEq) _⟩
    rw [bytes_append, Nat.add_sub_cancel]
    rfl

/-- What cannot be read is refused in the turn at its brace. -/
theorem turn_eq_error {f : PatternFault} (hRest : data.drop l.pos = encodeUtf8 (c :: s))
    (h : readMark l.pos c s = .error f) :
    ∃ b, data[l.pos]? = some b ∧ l.turn data b = .error (.pattern f) := by
  obtain ⟨rfl, hOnce, hBegins, hField⟩ := readMark_eq_error h
  obtain ⟨hHere, hBehind⟩ := getElem?_of_drop (b := '\x7b'.toNat) hRest
  refine ⟨_, hHere, ?_⟩
  rw [turn_open hBehind, if_neg hOnce, if_pos hBegins, fieldAt_encodeUtf8 hBehind, hField]
  rfl

theorem turns_at_end (hHeld : l.held = encodeUtf8 held) (hRest : data.drop l.pos = []) (n : Nat) :
    (fun l => l.flushed.reverse) <$> turns data n l = .ok (l.given held []) := by
  have hEnd : data[l.pos]? = none := by
    rw [← List.head?_drop, hRest]
    rfl
  rw [turns_of_end hEnd, ← reverse_flushed hHeld]
  rfl

/-- **A lexer between two characters gives what the text ahead of it gives.** -/
theorem turns_encodeUtf8 {m : Nat} (held : List Char) (hHeld : l.held = encodeUtf8 held)
    (hRest : data.drop l.pos = encodeUtf8 s) (hm : s.length ≤ m) (hn : data.length ≤ l.pos + n) :
    (fun l => l.flushed.reverse) <$> turns data n l =
      (l.given held <$> tokensFrom m l.pos s).mapError .pattern := by
  -- The induction is on the characters ahead; a character may take several of the `n` turns.
  induction m generalizing l held s n with
  | zero =>
    obtain rfl := List.length_eq_zero_iff.mp (Nat.le_zero.mp hm)
    exact turns_at_end hHeld hRest n
  | succ m ih =>
    cases s with
    | nil => exact turns_at_end hHeld hRest n
    | cons c s =>
      rw [tokensFrom]
      cases hMark : readMark l.pos c s with
      | error f =>
        obtain ⟨b, hHere, hTurn⟩ := turn_eq_error hRest hMark
        have hInside := lt_length_of_getElem? hHere
        obtain ⟨n, rfl⟩ : ∃ n', n = n' + 1 := ⟨n - 1, by omega⟩
        rw [turns, hHere]
        dsimp only
        rw [hTurn]
        rfl
      | ok r =>
        obtain ⟨mark, rest⟩ := r
        have hReading := reading_of_readMark hMark
        have hShorter := hReading.length_lt
        obtain ⟨l', held', hReaches, hPos, hRest', hHeld', hGiven⟩ :=
          reaches_of_reading hHeld hRest hReading
        obtain ⟨n', hn', hTurns⟩ := turns_of_reaches hReaches hn
        rw [hTurns, ih held' hHeld' hRest' (Nat.le_of_lt_succ (Nat.lt_of_lt_of_le hShorter hm)) hn',
          ok_bind]
        dsimp only
        rw [← hPos]
        cases tokensFrom m l'.pos rest with
        | error f => rfl
        | ok ts => exact congrArg Except.ok (hGiven ts).symm

end Lexer

/-- **The bytes of a pattern are cut as the pattern is.** -/
theorem lex_encodeUtf8 (s : List Char) :
    lex (encodeUtf8 s) = (List.map Token.encoded <$> tokens s).mapError .pattern :=
  Lexer.turns_encodeUtf8 (l := .start) [] rfl rfl (Nat.le_refl _) (Nat.le_add_left _ _)

/-- A backslash may take the first byte of a character; the other bytes follow as text. -/
example : lex (encodeUtf8 "\\é\x7bn:u8\x7d".toList) =
    .ok [⟨0, 3, .literal [0xC3, 0xA9]⟩, ⟨3, 9, .field (some "n") (some "u8")⟩] := by decide +kernel

/-! ### Safety -/

theorem tokens_of_lex {bs : List ByteToken} (h : lex (encodeUtf8 s) = .ok bs) :
    ∃ ts, tokens s = .ok ts ∧ bs = ts.map Token.encoded := by
  rw [lex_encodeUtf8] at h
  cases hTokens : tokens s with
  | error f =>
    rw [hTokens] at h
    cases h
  | ok ts =>
    rw [hTokens] at h
    cases h
    exact ⟨ts, rfl, rfl⟩

theorem fault_of_lex {e : ByteFault} (h : lex (encodeUtf8 s) = .error e) :
    ∃ f, e = .pattern f ∧ tokens s = .error f := by
  rw [lex_encodeUtf8] at h
  cases hTokens : tokens s with
  | error f =>
    rw [hTokens] at h
    cases h
    exact ⟨f, rfl, rfl⟩
  | ok ts =>
    rw [hTokens] at h
    cases h

theorem map_decoded_encoded (ts : List Token) :
    (ts.map Token.encoded).map ByteToken.decoded = ts := by
  rw [List.map_map]
  exact (List.map_congr_left fun t _ => Token.decoded_encoded t).trans (List.map_id ts)

theorem literal_of_encoded {t : Token} {held : List Nat} (h : t.encoded.kind = .literal held) :
    ∃ text, held = encodeUtf8 text := by
  obtain ⟨start, stop, kind⟩ := t
  cases kind with
  | literal text => exact ⟨text, (ByteKind.literal.inj h).symm⟩
  | field | openBrace | closeBrace => cases h

/-- **Every pattern is lexed to its end or refused at a brace.**  A turn over its bytes moves on and
stays within them, and the last turn ends where they end.  The tokens cover the pattern, each one
some of its characters, and the text of a literal is read from its bytes as it stands.  What is
refused is refused by the pattern's characters and not by their bytes, and the byte that a fault
names is that of a brace, or the end for braces that do not balance; so are the faults of building
and compiling the expression of the pattern. -/
theorem lex_covers_text_and_places_faults (s : List Char) :
    (∀ l l' b, (encodeUtf8 s)[l.pos]? = some b → Lexer.turn (encodeUtf8 s) l b = .ok l' →
      l.pos < l'.pos ∧ l'.pos ≤ (encodeUtf8 s).length) ∧
    (∀ l, Lexer.turns (encodeUtf8 s) (encodeUtf8 s).length .start = .ok l →
      l.pos = (encodeUtf8 s).length) ∧
    (∀ ts, lex (encodeUtf8 s) = .ok ts →
      Covers 0 (ts.map ByteToken.decoded) s ∧ (∀ t ∈ ts, t.start < t.stop) ∧
      (∀ t ∈ ts, ∀ held, t.kind = .literal held →
        ∃ text, decodeUtf8 held = .ok text ∧ decodeLossy held = text) ∧
      tokens s = .ok (ts.map ByteToken.decoded)) ∧
    (∀ e, lex (encodeUtf8 s) = .error e →
      ∃ f, e = .pattern f ∧ tokens s = .error f ∧ InPlace s f) ∧
    (∀ f, buildRegex s = .error f → InPlace s f) ∧
    (∀ f, FormatPattern.compile (String.ofList s) = .error f → InPlace s f) := by
  refine ⟨fun l l' b => Lexer.turn_advances,
    fun l => Lexer.pos_of_turns (Nat.zero_le _) (Nat.le_add_left _ _), ?_, ?_, ?_, ?_⟩
  · intro bs hLex
    obtain ⟨ts, hTokens, rfl⟩ := tokens_of_lex hLex
    have hCovers := covers_of_tokensFrom (Nat.le_refl _) hTokens
    rw [map_decoded_encoded]
    refine ⟨hCovers, ?_, ?_, hTokens⟩
    · exact List.forall_mem_map.mpr hCovers.start_lt_stop
    · refine List.forall_mem_map.mpr fun t _ held hKind => ?_
      obtain ⟨text, rfl⟩ := literal_of_encoded hKind
      exact ⟨text, decodeUtf8_encodeUtf8 text, decodeLossy_encodeUtf8 text⟩
  · intro e hLex
    obtain ⟨f, rfl, hTokens⟩ := fault_of_lex hLex
    exact ⟨f, rfl, hTokens, inPlace_of_tokens hTokens⟩
  · intro f hBuild
    cases hParts : parts s with
    | error e =>
      rw [buildRegex, hParts] at hBuild
      cases hBuild
      exact inPlace_of_parts hParts
    | ok ps =>
      rw [buildRegex, hParts] at hBuild
      cases hBuild
  · intro f hCompile
    have hPlace := inPlace_of_compile hCompile
    rwa [String.toList_ofList] at hPlace

end Format

end Scenarist
