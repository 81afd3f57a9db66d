import Scenarist.Proofs.Format.Capture
import Scenarist.Proofs.Text.Scan

/-!
# Patterns that are written and read

A pattern is written from texts and fields: a backslash is doubled, a brace is doubled or has a
backslash in front, and any other character may have a backslash in front.  Whichever way is chosen
for each character, the pattern compiles to what was written.

Neighbouring texts become one token, and a doubled brace may stand beside the brace of a field, so
the tokens are not the items.  They are compared by what they stand for.

* `Marks`: a piece of text reads as one mark, whatever follows it; `marks_renderChar` and
  `marks_renderField` give the two kinds of pieces.
* `Spells.append`: a piece puts its mark in front of the tokens of what follows; `spells_render`
  is the same for all items, by `Spells.item`.
* `exists_add_eq_ok`, `foldlM_add_eq_ok`: tokens without lone braces and without a repeated name
  are accepted.
* `compile_render`: a written pattern compiles to the expressions and the fields of its items.
-/

namespace Scenarist

namespace Format

open Text

/-! ### Writing -/

/-- A character as text of a pattern; `escaped` chooses where there are two ways to write it. -/
def renderChar (c : Char) (escaped : Bool) : List Char :=
  if c = '\\' then ['\\', '\\']
  else if escaped then ['\\', c]
  else if c = '\x7b' ∨ c = '\x7d' then [c, c]
  else [c]

/-- The name of a field as it is written. -/
def nameText : Option String → List Char
  | none => []
  | some name => name.toList

/-- The hint of a field as it is written behind the name. -/
def hintText : Option String → List Char
  | none => []
  | some hint => ':' :: hint.toList

/-- What a pattern is written from. -/
inductive Item
  /-- A text, with the choice made for each of its characters. -/
  | text (glyphs : List (Char × Bool))
  | field (name hint : Option String)
  deriving DecidableEq, Repr

namespace Item

def render : Item → List Char
  | text glyphs => glyphs.flatMap fun g => renderChar g.1 g.2
  | field name hint => '\x7b' :: (nameText name ++ (hintText hint ++ ['\x7d']))

/-- The expression that the item stands for. -/
def source : Item → List Char
  | text glyphs => Regex.escape (glyphs.map (·.1))
  | field _ hint => '(' :: ((Hint.kind hint).fragment.toList ++ [')'])

/-- The name and the hint of a field. -/
def field? : Item → Option (Option String × Option String)
  | text _ => none
  | field name hint => some (name, hint)

end Item

/-- A letter or an underscore, and behind it letters, digits and underscores. -/
def IsName : List Char → Prop
  | [] => False
  | c :: s => (c.isAlpha = true ∨ c = '_') ∧ ∀ d ∈ s, d.isAlphanum = true ∨ d = '_'

-- The members of a list are looked at, not all characters.
instance : DecidablePred IsName
  | [] => inferInstanceAs (Decidable False)
  | c :: s =>
    have : Decidable (∀ d ∈ s, d.isAlphanum = true ∨ d = '_') := List.decidableBAll _ s
    inferInstanceAs (Decidable ((c.isAlpha = true ∨ c = '_') ∧ _))

/-- At least one character, and neither blanks nor braces. -/
def IsHint (s : List Char) : Prop :=
  s ≠ [] ∧ ∀ c ∈ s, isAsciiBlank c = false ∧ c ≠ '\x7b' ∧ c ≠ '\x7d'

instance : DecidablePred IsHint := fun s =>
  have : Decidable (∀ c ∈ s, isAsciiBlank c = false ∧ c ≠ '\x7b' ∧ c ≠ '\x7d') :=
    List.decidableBAll _ s
  inferInstanceAs (Decidable (s ≠ [] ∧ _))

/-- The names and hints of fields are such that they can be written. -/
def Item.WellFormed : Item → Prop
  | text _ => True
  | field name hint => (∀ n ∈ name, IsName n.toList) ∧ ∀ h ∈ hint, IsHint h.toList

instance : DecidablePred Item.WellFormed
  | .text _ => inferInstanceAs (Decidable True)
  | .field name hint => inferInstanceAs
      (Decidable ((∀ n ∈ name, IsName n.toList) ∧ ∀ h ∈ hint, IsHint h.toList))

/-- The names that fields are given. -/
def givenNames (fs : List (Option String × Option String)) : List String := fs.filterMap (·.1)

/-- Fields with their names and hints; those without a name are numbered from `n`. -/
def numbered : Nat → List (Option String × Option String) → List PatternField
  | _, [] => []
  | n, (some name, hint) :: fs => ⟨name, hint, false⟩ :: numbered n fs
  | n, (none, hint) :: fs => ⟨toString n, hint, true⟩ :: numbered (n + 1) fs

/-! ### Reading one piece -/

/-- The piece reads as the mark, whatever follows it. -/
def Marks (piece : List Char) (m : Mark) : Prop :=
  ∃ c s, piece = c :: s ∧ ∀ start rest, readMark start c (s ++ rest) = .ok (m, rest)

theorem marks_renderChar (c : Char) (escaped : Bool) : Marks (renderChar c escaped) (.char c) := by
  unfold renderChar
  split
  · next hBackslash =>
    subst hBackslash
    exact ⟨_, _, rfl, fun _ _ => rfl⟩
  · next hPlain =>
    split
    · exact ⟨_, _, rfl, fun _ _ => rfl⟩
    · split
      · next hBrace =>
        rcases hBrace with rfl | rfl
        · exact ⟨_, _, rfl, fun _ _ => rfl⟩
        · exact ⟨_, _, rfl, fun _ _ => rfl⟩
      · next hOther =>
        rw [not_or] at hOther
        refine ⟨_, _, rfl, fun start rest => ?_⟩
        unfold readMark
        rw [if_neg hPlain, if_neg hOther.1, if_neg hOther.2]
        rfl

theorem IsName.exists_cons {s : List Char} (h : IsName s) :
    ∃ c t, s = c :: t ∧ (c.isAlpha = true ∨ c = '_') := by
  cases s with
  | nil => exact h.elim
  | cons c t => exact ⟨c, t, rfl, h.1⟩

theorem IsName.isNameChar {s : List Char} (h : IsName s) : ∀ c ∈ s, isNameChar c = true := by
  cases s with
  | nil => exact h.elim
  | cons c s =>
    intro d hd
    rw [Format.isNameChar, Bool.or_eq_true, beq_iff_eq]
    rcases List.mem_cons.mp hd with rfl | hd
    · refine h.1.imp_left fun hAlpha => ?_
      rw [Char.isAlphanum, hAlpha, Bool.true_or]
    · exact h.2 d hd

theorem IsHint.isHint {s : List Char} (h : IsHint s) : isHint s = true := by
  have hAll : ∀ c ∈ s, (!isAsciiBlank c && c != '\x7b' && c != '\x7d') = true := by
    intro c hc
    obtain ⟨hBlank, hOpen, hClose⟩ := h.2 c hc
    simp [hBlank, hOpen, hClose]
  rw [Format.isHint, Bool.and_eq_true]
  exact ⟨by simpa using h.1, List.all_eq_true.mpr hAll⟩

/-- What follows the opening brace of a written field is read as its name and its hint. -/
theorem readField_render {name hint : Option String} (hName : ∀ n ∈ name, IsName n.toList)
    (hHint : ∀ h ∈ hint, IsHint h.toList) (start : Nat) (rest : List Char) :
    readField start (nameText name ++ (hintText hint ++ '\x7d' :: rest)) =
      .ok (name, hint, rest) := by
  have hAll : ∀ c ∈ nameText name, isNameChar c = true := by
    cases name with
    | none => exact fun c hc => absurd hc List.not_mem_nil
    | some n => exact (hName n rfl).isNameChar
  have hStop : ∀ c ∈ (hintText hint ++ '\x7d' :: rest).head?, isNameChar c = false := by
    cases hint with
    | none => rintro c ⟨⟩; rfl
    | some h => rintro c ⟨⟩; rfl
  have hNamed : (if (nameText name).isEmpty then none else some (String.ofList (nameText name))) =
      name := by
    cases name with
    | none => rfl
    | some n =>
      obtain ⟨c, s, hChars, _⟩ := (hName n rfl).exists_cons
      have hNonempty : n.toList.isEmpty = false := by
        rw [hChars]
        rfl
      rw [nameText, hNonempty, String.ofList_toList]
      rfl
  unfold readField
  rw [takeWhile_append_of_stop hAll hStop, dropWhile_append_of_stop hAll hStop]
  simp only [hNamed]
  cases hint with
  | none => rfl
  | some h =>
    have hNoClose : ∀ c ∈ h.toList, (c != '\x7d') = true :=
      fun c hc => bne_iff_ne.mpr ((hHint h rfl).2 c hc).2.2
    have hClose : ∀ c ∈ ('\x7d' :: rest).head?, (c != '\x7d') = false := by
      rintro c ⟨⟩
      rfl
    have hBehind : hintText (some h) ++ '\x7d' :: rest = ':' :: (h.toList ++ '\x7d' :: rest) := rfl
    have hBlank : isAsciiBlank ':' = false := rfl
    simp [hBehind, hBlank, takeWhile_append_of_stop hNoClose hClose,
      dropWhile_append_of_stop hNoClose hClose, (hHint h rfl).isHint]

/-- What follows the opening brace of a written field begins a field, so the brace does not stand
alone and is not doubled. -/
theorem beginsField_render {name : Option String} (hName : ∀ n ∈ name, IsName n.toList)
    (hint : Option String) (rest : List Char) :
    ∃ d s, nameText name ++ (hintText hint ++ '\x7d' :: rest) = d :: s ∧
      beginsField d = true := by
  cases name with
  | none =>
    cases hint with
    | none => exact ⟨_, _, rfl, rfl⟩
    | some h => exact ⟨_, _, rfl, rfl⟩
  | some n =>
    obtain ⟨d, s, hChars, hFirst⟩ := (hName n rfl).exists_cons
    rw [nameText, hChars]
    refine ⟨d, _, rfl, ?_⟩
    rcases hFirst with hAlpha | rfl
    · rw [beginsField, hAlpha]
      rfl
    · rfl

theorem marks_renderField {name hint : Option String} (hName : ∀ n ∈ name, IsName n.toList)
    (hHint : ∀ h ∈ hint, IsHint h.toList) :
    Marks (Item.field name hint).render (.other (.field name hint)) := by
  refine ⟨_, _, rfl, fun start rest => ?_⟩
  have hRead := readField_render hName hHint start rest
  obtain ⟨d, s, hBehind, hBegins⟩ := beginsField_render hName hint rest
  have hNotBrace : d ≠ '\x7b' := by
    rintro rfl
    cases hBegins
  rw [hBehind] at hRead
  rw [List.append_assoc, List.append_assoc, List.singleton_append, hBehind]
  show (if d = '\x7b' then _ else if beginsField d = true then _ else _) = _
  rw [if_neg hNotBrace, if_pos hBegins, hRead]
  rfl

/-! ### What tokens stand for -/

/-- The expression of a token; a brace that stands alone is text. -/
def TokenKind.source : TokenKind → List Char
  | .literal text => Regex.escape text
  | .field _ hint => '(' :: ((Hint.kind hint).fragment.toList ++ [')'])
  | .openBrace => Regex.escape ['\x7b']
  | .closeBrace => Regex.escape ['\x7d']

/-- The name and the hint of a field. -/
def TokenKind.field? : TokenKind → Option (Option String × Option String)
  | .field name hint => some (name, hint)
  | _ => none

theorem flatMap_source_declared (n : Nat) (kinds : List TokenKind) :
    (declared n kinds).flatMap Part.source = kinds.flatMap TokenKind.source := by
  induction kinds generalizing n with
  | nil => rfl
  | cons kind kinds ih =>
    cases kind with
    | field name hint => cases name <;> exact congrArg _ (ih _)
    | literal | openBrace | closeBrace => exact congrArg _ (ih _)

theorem fields_declared (n : Nat) (kinds : List TokenKind) :
    fields (declared n kinds) = numbered n (kinds.filterMap TokenKind.field?) := by
  induction kinds generalizing n with
  | nil => rfl
  | cons kind kinds ih =>
    cases kind with
    | field name hint => cases name <;> exact congrArg _ (ih _)
    | literal | openBrace | closeBrace => exact ih _

/-- The tokens stand for the expression and the fields, and no brace among them stands alone. -/
structure Stands (ts : List Token) (expression : List Char)
    (fs : List (Option String × Option String)) : Prop where
  source : ts.flatMap (·.kind.source) = expression
  fields : ts.filterMap (·.kind.field?) = fs
  lone : ∀ t ∈ ts, t.kind ≠ .openBrace ∧ t.kind ≠ .closeBrace

variable {ts : List Token} {s rest expression expression' : List Char}
  {fs fs' : List (Option String × Option String)}

theorem Stands.nil : Stands [] [] [] := ⟨rfl, rfl, fun _ h => absurd h List.not_mem_nil⟩

theorem Stands.cons (h : Stands ts expression fs) {t : Token}
    (hLone : t.kind ≠ .openBrace ∧ t.kind ≠ .closeBrace) :
    Stands (t :: ts) (t.kind.source ++ expression) (t.kind.field?.toList ++ fs) := by
  refine ⟨?_, ?_, ?_⟩
  · rw [List.flatMap_cons, h.source]
  · rw [← h.fields, List.filterMap_eq_flatMap_toList, List.filterMap_eq_flatMap_toList,
      List.flatMap_cons]
  · intro u hu
    rcases List.mem_cons.mp hu with rfl | hu
    · exact hLone
    · exact h.lone u hu

theorem escape_cons (c : Char) (s : List Char) :
    Regex.escape (c :: s) = Regex.escape [c] ++ Regex.escape s := by
  show Regex.escape ([c] ++ s) = _
  exact List.flatMap_append

/-- A character adds itself to what the tokens stand for, also when it joins the text of the first
one. -/
theorem Stands.char (h : Stands ts expression fs) (start stop : Nat) (c : Char) :
    Stands ((Mark.char c).cons start stop ts) (Regex.escape [c] ++ expression) fs := by
  rcases ts with _ | ⟨⟨first, last, text | _ | _ | _⟩, ts⟩
  case cons.literal =>
    have hBehind : Stands ts (ts.flatMap (·.kind.source)) fs :=
      ⟨rfl, h.fields, fun t ht => h.lone t (List.mem_cons_of_mem _ ht)⟩
    have hSource : Regex.escape [c] ++ expression =
        Regex.escape (c :: text) ++ ts.flatMap (·.kind.source) := by
      rw [← h.source, List.flatMap_cons, TokenKind.source, ← List.append_assoc, ← escape_cons]
    rw [hSource]
    exact hBehind.cons (t := ⟨start, last, .literal (c :: text)⟩) ⟨nofun, nofun⟩
  all_goals exact h.cons (t := ⟨start, stop, .literal [c]⟩) ⟨nofun, nofun⟩

/-! ### Reading all pieces -/

/-- Wherever the text begins, it is cut into tokens that stand for the expression and the fields. -/
def Spells (s expression : List Char) (fs : List (Option String × Option String)) : Prop :=
  ∀ n start, s.length ≤ n → ∃ ts, tokensFrom n start s = .ok ts ∧ Stands ts expression fs

theorem Spells.nil : Spells [] [] [] := fun _ _ _ => ⟨[], by rw [tokensFrom], .nil⟩

/-- A piece puts its mark in front of the tokens of what follows it. -/
theorem Spells.append {m : Mark} (hMarks : Marks s m) (hRest : Spells rest expression fs)
    (hCons : ∀ {ts}, Stands ts expression fs → ∀ start stop,
      Stands (m.cons start stop ts) expression' fs') :
    Spells (s ++ rest) expression' fs' := by
  obtain ⟨c, s, rfl, hRead⟩ := hMarks
  intro n start hLength
  obtain _ | n := n
  · exact absurd hLength (Nat.not_succ_le_zero _)
  have hFuel : rest.length ≤ n := by
    rw [List.length_append, List.length_cons] at hLength
    omega
  obtain ⟨ts, hTokens, hStands⟩ :=
    hRest n (start + (bytes (c :: (s ++ rest)) - bytes rest)) hFuel
  refine ⟨_, ?_, hCons hStands start (start + (bytes (c :: (s ++ rest)) - bytes rest))⟩
  rw [List.cons_append, tokensFrom, hRead]
  show (tokensFrom n _ rest >>= _) = _
  rw [hTokens]
  rfl

/-- A text adds its characters, whichever way they are written. -/
theorem Spells.text (h : Spells rest expression fs) (glyphs : List (Char × Bool)) :
    Spells ((Item.text glyphs).render ++ rest) ((Item.text glyphs).source ++ expression) fs := by
  induction glyphs with
  | nil => exact h
  | cons g glyphs ih =>
    have hRender : (Item.text (g :: glyphs)).render ++ rest =
        renderChar g.1 g.2 ++ ((Item.text glyphs).render ++ rest) := by
      rw [Item.render, List.flatMap_cons, List.append_assoc, Item.render]
    have hSource : (Item.text (g :: glyphs)).source ++ expression =
        Regex.escape [g.1] ++ ((Item.text glyphs).source ++ expression) := by
      rw [Item.source, List.map_cons, escape_cons, List.append_assoc, Item.source]
    rw [hRender, hSource]
    exact .append (marks_renderChar g.1 g.2) ih fun hTs start stop => hTs.char start stop g.1

/-- An item adds its expression and its field to what follows. -/
theorem Spells.item (h : Spells rest expression fs) {i : Item} (hItem : i.WellFormed) :
    Spells (i.render ++ rest) (i.source ++ expression) (i.field?.toList ++ fs) := by
  cases i with
  | text glyphs => exact h.text glyphs
  | field name hint =>
    exact .append (marks_renderField hItem.1 hItem.2) h fun hTs start stop =>
      hTs.cons (t := ⟨start, stop, .field name hint⟩) ⟨nofun, nofun⟩

theorem spells_render {items : List Item} (hItems : ∀ i ∈ items, i.WellFormed) :
    Spells (items.flatMap Item.render) (items.flatMap Item.source) (items.filterMap Item.field?) := by
  rw [List.filterMap_eq_flatMap_toList]
  induction items with
  | nil => exact .nil
  | cons i items ih =>
    exact (ih fun j hj => hItems j (List.mem_cons_of_mem _ hj)).item (hItems i List.mem_cons_self)

/-! ### Assembling the tokens -/

/-- A token that is neither a lone brace nor a field with a name that is there already is accepted;
no brace opens or closes, and the names that are there behind it were there or are its own. -/
theorem exists_add_eq_ok {a : Assembly} {t : Token}
    (hLone : t.kind ≠ .openBrace ∧ t.kind ≠ .closeBrace)
    (hFresh : ∀ name ∈ givenNames t.kind.field?.toList, a.hasName name = false) :
    ∃ b, a.add t = .ok b ∧ b.depth = a.depth ∧
      ∀ name, b.hasName name = true →
        a.hasName name = true ∨ name ∈ givenNames t.kind.field?.toList := by
  obtain ⟨start, stop, kind⟩ := t
  cases kind with
  | openBrace => exact absurd rfl hLone.1
  | closeBrace => exact absurd rfl hLone.2
  | literal text => exact ⟨_, rfl, rfl, fun _ h => .inl h⟩
  | field given hint =>
    cases given with
    | none => exact ⟨_, rfl, rfl, fun _ h => .inl h⟩
    | some given =>
      refine ⟨_, if_neg (Bool.eq_false_iff.mp (hFresh given (List.mem_singleton.mpr rfl))), rfl,
        fun name h => ?_⟩
      rcases Bool.or_eq_true_iff.mp h with h | h
      · have hOwn : given = name := by simpa using h
        exact .inr (List.mem_singleton.mpr hOwn.symm)
      · exact .inl h

theorem foldlM_add_eq_ok {a : Assembly}
    (hLone : ∀ t ∈ ts, t.kind ≠ .openBrace ∧ t.kind ≠ .closeBrace)
    (hNames : (givenNames (ts.flatMap (·.kind.field?.toList))).Nodup)
    (hFresh : ∀ name ∈ givenNames (ts.flatMap (·.kind.field?.toList)), a.hasName name = false) :
    ∃ b, ts.foldlM Assembly.add a = .ok b ∧ b.depth = a.depth := by
  induction ts generalizing a with
  | nil => exact ⟨a, rfl, rfl⟩
  | cons t ts ih =>
    rw [List.flatMap_cons, givenNames, List.filterMap_append] at hNames hFresh
    obtain ⟨-, hLater, hApart⟩ := List.nodup_append.mp hNames
    obtain ⟨m, hAdd, hDepth, hFrom⟩ := exists_add_eq_ok (hLone t List.mem_cons_self)
      fun name h => hFresh name (List.mem_append_left _ h)
    have hStillFresh : ∀ name ∈ givenNames (ts.flatMap (·.kind.field?.toList)),
        m.hasName name = false := by
      refine fun name hName => Bool.eq_false_iff.mpr fun hThere => ?_
      rcases hFrom name hThere with hBefore | hOwn
      · exact Bool.eq_false_iff.mp (hFresh name (List.mem_append_right _ hName)) hBefore
      · exact hApart name hOwn name hName rfl
    obtain ⟨b, hFold, hEnd⟩ :=
      ih (fun u hu => hLone u (List.mem_cons_of_mem _ hu)) hLater hStillFresh
    refine ⟨b, ?_, hEnd.trans hDepth⟩
    rw [List.foldlM_cons, hAdd]
    exact hFold

/-- **A written pattern compiles to what it was written from**, in whichever way its characters
were written: to the expressions and the fields of its items in order. -/
theorem compile_render {items : List Item} (hItems : ∀ i ∈ items, i.WellFormed)
    (hNames : (givenNames (items.filterMap Item.field?)).Nodup) :
    ∃ ps, parts (items.flatMap Item.render) = .ok ps ∧
      source ps = '^' :: (items.flatMap Item.source ++ ['$']) ∧
      fields ps = numbered 0 (items.filterMap Item.field?) := by
  obtain ⟨ts, hTokens, hSource, hFields, hLone⟩ :=
    spells_render hItems _ 0 (Nat.le_refl (items.flatMap Item.render).length)
  rw [← hFields, List.filterMap_eq_flatMap_toList] at hNames
  obtain ⟨a, hFold, hDepth⟩ := foldlM_add_eq_ok (a := .start) hLone hNames fun _ _ => rfl
  have hParts : a.parts.reverse = declared 0 (ts.map Token.kind) := parts_of_foldlM hFold
  refine ⟨a.parts.reverse, ?_, ?_, ?_⟩
  · rw [parts, tokens, hTokens]
    show (ts.foldlM Assembly.add .start >>= _) = _
    rw [hFold]
    exact if_neg (not_not_intro hDepth)
  · rw [hParts, source, flatMap_source_declared, List.flatMap_map, hSource]
  · rw [hParts, fields_declared, List.filterMap_map]
    exact congrArg (numbered 0) hFields

/-- Doubled braces stand beside the braces of a field; characters with a backslash in front stand
between two fields without a name. -/
theorem compile_render_braces_and_backslashes :
    ∃ ps, parts "\x7b\x7b\x7ba\x7d\x7d\x7d\x7b:u8\x7d\\é\\\\x\\\x7b\x7b\x7d".toList = .ok ps ∧
      source ps = "^\\\x7b(.+?)\\\x7d(\\d+)é\\\\x\\\x7b(.+?)$".toList ∧
      fields ps = [⟨"a", none, false⟩, ⟨"0", some "u8", true⟩, ⟨"1", none, true⟩] := by
  let items : List Item := [.text [('\x7b', false)], .field (some "a") none,
    .text [('\x7d', false)], .field none (some "u8"),
    .text [('é', true), ('\\', false), ('x', false), ('\x7b', true)], .field none none]
  have hItems : ∀ i ∈ items, i.WellFormed := by decide
  exact compile_render hItems (by decide)

end Format

end Scenarist
