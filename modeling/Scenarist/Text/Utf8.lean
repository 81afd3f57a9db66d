/-!
# UTF-8

`decodeUtf8` reads bytes as UTF-8 and, when they are not, says where the text stops being valid and
how many bytes cannot be part of a character; no count means that the bytes end inside a character.
`decodeLossy` reads any bytes and puts a replacement character for those. `encodeUtf8` writes the
bytes of a text.
-/

namespace Scenarist.Text

/-- Where bytes stop being UTF-8. -/
structure Utf8Fault where
  /-- Bytes that are valid before the fault. -/
  validUpTo : Nat
  /-- Bytes that cannot be part of a character, unless the bytes end too early. -/
  badBytes : Option Nat
  deriving DecidableEq, Repr

/-- The message of a fault. -/
def Utf8Fault.message (f : Utf8Fault) : String :=
  match f.badBytes with
  | some n => s!"invalid utf-8 sequence of {n} bytes from index {f.validUpTo}"
  | none => s!"incomplete utf-8 byte sequence from index {f.validUpTo}"

/-- Bytes that continue a character. -/
def isContinuation (b : Nat) : Bool := 0x80 ≤ b && b ≤ 0xBF

/-- Which second bytes may follow the first byte of a three-byte character. -/
def secondOfThree (b₀ b₁ : Nat) : Bool :=
  if b₀ = 0xE0 then 0xA0 ≤ b₁ && b₁ ≤ 0xBF
  else if b₀ = 0xED then 0x80 ≤ b₁ && b₁ ≤ 0x9F
  else isContinuation b₁

/-- Which second bytes may follow the first byte of a four-byte character. -/
def secondOfFour (b₀ b₁ : Nat) : Bool :=
  if b₀ = 0xF0 then 0x90 ≤ b₁ && b₁ ≤ 0xBF
  else if b₀ = 0xF4 then 0x80 ≤ b₁ && b₁ ≤ 0x8F
  else isContinuation b₁

/-- The character whose leading bits are `lead` and whose other bits come in groups of six. -/
def assemble (lead : Nat) (others : List Nat) : Char :=
  Char.ofNat (others.foldl (fun n b => n * 64 + b % 64) lead)

/-- Reads bytes from position `i` on. -/
def decodeUtf8From (i : Nat) : List Nat → Except Utf8Fault (List Char)
  | [] => .ok []
  | b₀ :: r₀ =>
    if b₀ < 0x80 then (Char.ofNat b₀ :: ·) <$> decodeUtf8From (i + 1) r₀
    else if 0xC2 ≤ b₀ ∧ b₀ ≤ 0xDF then
      match r₀ with
      | [] => .error ⟨i, none⟩
      | b₁ :: r₁ =>
        if isContinuation b₁ then (assemble (b₀ % 32) [b₁] :: ·) <$> decodeUtf8From (i + 2) r₁
        else .error ⟨i, some 1⟩
    else if 0xE0 ≤ b₀ ∧ b₀ ≤ 0xEF then
      match r₀ with
      | [] => .error ⟨i, none⟩
      | b₁ :: r₁ =>
        if !secondOfThree b₀ b₁ then .error ⟨i, some 1⟩
        else match r₁ with
          | [] => .error ⟨i, none⟩
          | b₂ :: r₂ =>
            if isContinuation b₂ then
              (assemble (b₀ % 16) [b₁, b₂] :: ·) <$> decodeUtf8From (i + 3) r₂
            else .error ⟨i, some 2⟩
    else if 0xF0 ≤ b₀ ∧ b₀ ≤ 0xF4 then
      match r₀ with
      | [] => .error ⟨i, none⟩
      | b₁ :: r₁ =>
        if !secondOfFour b₀ b₁ then .error ⟨i, some 1⟩
        else match r₁ with
          | [] => .error ⟨i, none⟩
          | b₂ :: r₂ =>
            if !isContinuation b₂ then .error ⟨i, some 2⟩
            else match r₂ with
              | [] => .error ⟨i, none⟩
              | b₃ :: r₃ =>
                if isContinuation b₃ then
                  (assemble (b₀ % 8) [b₁, b₂, b₃] :: ·) <$> decodeUtf8From (i + 4) r₃
                else .error ⟨i, some 3⟩
    else .error ⟨i, some 1⟩

/-- Reads bytes as UTF-8. -/
def decodeUtf8 (bytes : List Nat) : Except Utf8Fault (List Char) := decodeUtf8From 0 bytes

/-- Reads bytes with a replacement character for bytes that cannot be part of a character; `n` bounds
the number of faults. -/
def decodeLossyFrom : Nat → List Nat → List Char
  | 0, _ => []
  | n + 1, bytes =>
    match decodeUtf8 bytes with
    | .ok s => s
    | .error f =>
      let valid := match decodeUtf8 (bytes.take f.validUpTo) with
        | .ok s => s
        | .error _ => []
      valid ++ '\uFFFD' :: match f.badBytes with
        | some k => decodeLossyFrom n (bytes.drop (f.validUpTo + k))
        | none => []

/-- Reads bytes as UTF-8 wherever they are. -/
def decodeLossy (bytes : List Nat) : List Char := decodeLossyFrom (bytes.length + 1) bytes

/-- The bytes of a character. -/
def encodeChar (c : Char) : List Nat := (String.utf8EncodeChar c).map UInt8.toNat

/-- The bytes of a text. -/
def encodeUtf8 (s : List Char) : List Nat := s.flatMap encodeChar

end Scenarist.Text
