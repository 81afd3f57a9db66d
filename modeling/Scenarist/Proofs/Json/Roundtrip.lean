import Mathlib.Algebra.Ring.Int.Defs
import Scenarist.Json.Printer
import Scenarist.Json.Reader
import Scenarist.Proofs.Entries
import Scenarist.Proofs.Number.Decimal
import Scenarist.Proofs.Text.Scan

/-!
# Reading what was written

`Json.Plain` are the values without floating-point numbers: their integers have 64 bits, their
objects are in order and they nest at most to some depth.  A parameter restricts their texts.

* `readChars_escaped`, `readNumber_toDigits`: texts and integers are read back.
* `Plain.readsBack`: so are plain values, whatever follows them.
* `Plain.value_draft`: the draft that is read is that of the value.
-/

namespace Scenarist

namespace Json

open Number

/-- The values without floating-point numbers that nest at most to a depth and whose texts, keys
included, are of some sort.  An integer has 64 bits, with a sign or without. -/
inductive Plain (sort : String → Prop) : Nat → Json → Prop
  | null {depth} : Plain sort depth .null
  | bool {depth b} : Plain sort depth (.bool b)
  | int {depth n} (hLeast : -(2 : Int) ^ 63 ≤ n) (hGreatest : n < 2 ^ 64) :
      Plain sort depth (.int n)
  | str {depth s} (hSort : sort s) : Plain sort depth (.str s)
  | arr {depth items} (hItems : ∀ j ∈ items, Plain sort depth j) :
      Plain sort (depth + 1) (.arr items)
  | obj {depth entries} (hOrder : (Entries.names entries).Pairwise (· < ·))
      (hKeys : ∀ e ∈ entries, sort e.1) (hValues : ∀ e ∈ entries, Plain sort depth e.2) :
      Plain sort (depth + 1) (.obj entries)

/-! ### Texts -/

theorem hexDigitValue?_digitChar {k : Nat} (h : k < 16) :
    hexDigitValue? (Nat.digitChar k) = some k := by
  have hEach : ∀ k < 16, hexDigitValue? (Nat.digitChar k) = some k := by decide
  exact hEach k h

theorem readUnicode_digits {c : Char} (h : c.toNat < 0x20) (t : List Char) :
    readUnicode ('0' :: '0' :: Nat.digitChar (c.toNat / 16) :: Nat.digitChar (c.toNat % 16) :: t) =
      .ok (c, t) := by
  have hZero : hexDigitValue? '0' = some 0 := by decide
  have hUnit : readUnit ('0' :: '0' :: Nat.digitChar (c.toNat / 16) ::
      Nat.digitChar (c.toNat % 16) :: t) = .ok (c.toNat, t) := by
    simp only [readUnit, hZero, hexDigitValue?_digitChar (show c.toNat / 16 < 16 by omega),
      hexDigitValue?_digitChar (show c.toNat % 16 < 16 by omega)]
    congr 2
    omega
  rw [readUnicode, hUnit]
  dsimp only
  rw [if_pos (by omega), Char.ofNat_toNat]

/-- The written form of a character is read as the character. -/
theorem readChars_escaped_append (n : Nat) (c : Char) (t : List Char) :
    readChars (n + 1) (escaped c ++ t) = (fun (cs, r) => (c :: cs, r)) <$> readChars n t := by
  unfold escaped
  split
  all_goals try rfl
  next hQuote hBackslash _ _ _ _ _ =>
    split
    · next hControl =>
      show readChars (n + 1) ('\\' :: 'u' :: ('0' :: '0' :: Nat.digitChar (c.toNat / 16) ::
        Nat.digitChar (c.toNat % 16) :: t)) = _
      rw [readChars]
      simp only [readUnicode_digits hControl]
    · next hPlain =>
      have hNoEscape : c ≠ '\\' := hBackslash
      rw [List.singleton_append, readChars, if_neg hPlain]
      · simp [hNoEscape]
      · exact hQuote
      · simp [hNoEscape]
      · simp [hNoEscape]

/-- **The written form of a text is read as the text.** -/
theorem readChars_escaped {n : Nat} {s : List Char} (h : s.length < n) (rest : List Char) :
    readChars n (s.flatMap escaped ++ '"' :: rest) = .ok (s, rest) := by
  induction s generalizing n with
  | nil =>
    obtain ⟨n, rfl⟩ := Nat.exists_eq_succ_of_ne_zero (Nat.ne_of_gt h)
    rfl
  | cons c s ih =>
    obtain ⟨n, rfl⟩ := Nat.exists_eq_succ_of_ne_zero (Nat.ne_of_gt (Nat.zero_lt_of_lt h))
    rw [List.flatMap_cons, List.append_assoc, readChars_escaped_append,
      ih (Nat.lt_of_succ_lt_succ h)]
    rfl

theorem length_le_flatMap_escaped (s : List Char) : s.length ≤ (s.flatMap escaped).length := by
  induction s with
  | nil => exact Nat.le_refl 0
  | cons c s ih =>
    have hOne : 1 ≤ (escaped c).length := by
      unfold escaped
      split
      all_goals try decide
      split <;> simp
    rw [List.flatMap_cons, List.length_append, List.length_cons]
    omega

/-! ### Integers -/

/-- What may follow a value inside another value, or at the end. -/
def Ends (rest : List Char) : Prop := ∀ c ∈ rest.head?, c ∈ [',', ']', '}']

theorem Ends.noDigit {rest : List Char} (h : Ends rest) :
    ∀ c ∈ rest.head?, isAsciiDigit c = false := by
  intro c hc
  have hEach := h c hc
  simp only [List.mem_cons, List.not_mem_nil, or_false] at hEach
  rcases hEach with rfl | rfl | rfl <;> decide

/-- Digits are gathered as far as they fit. -/
theorem gather_of_le {n : Nat} {digits : List Char} (h : accumulate n digits ≤ digitLimit) :
    gather n digits = (accumulate n digits, digits.length, 0) := by
  induction digits generalizing n with
  | nil => rfl
  | cons c digits ih =>
    have hGrow : 10 * n + (digitValue? c).getD 0 ≤ accumulate n (c :: digits) :=
      le_foldl_tenfold (fun c => (digitValue? c).getD 0) _ digits
    have hRest := ih (n := 10 * n + (digitValue? c).getD 0) h
    rw [gather, if_neg (by omega), hRest]
    rfl

/-- **The digits of a number are read as the number**, with a sign in front or without. -/
theorem readNumber_toDigits {n : Nat} {negative : Bool} (h : n ≤ digitLimit)
    (hSign : negative = true → 0 < n ∧ n ≤ Nat.pow 2 63) {rest : List Char} (hRest : Ends rest) :
    readNumber negative (Nat.toDigits 10 n ++ rest) =
      (.int (if negative then -n else n), some rest) := by
  have hDigits : ∀ c ∈ Nat.toDigits 10 n, isAsciiDigit c = true :=
    fun c hc => isAsciiDigit_of_mem_toDigits hc
  have hGather : gather 0 (Nat.toDigits 10 n) = (n, (Nat.toDigits 10 n).length, 0) := by
    have hValue := accumulate_toDigits n
    rw [gather_of_le (hValue.le.trans h), hValue]
  have hTake := Text.takeWhile_append_of_stop hDigits hRest.noDigit
  have hDrop := Text.dropWhile_append_of_stop hDigits hRest.noDigit
  obtain ⟨c, ds, hCons⟩ := List.exists_cons_of_ne_nil (Nat.toDigits_ne_nil (n := n) (b := 10))
  rw [hCons] at hTake hDrop hGather hDigits
  rw [hCons, List.cons_append, readNumber]
  rw [List.cons_append] at hTake hDrop
  have hNoZero : ¬ (c = '0' ∧ (ds ++ rest).head?.any isAsciiDigit = true) := by
    rintro ⟨rfl, hNext⟩
    by_cases hPositive : 0 < n
    · exact head?_toDigits_ne hPositive (congrArg List.head? hCons)
    · obtain rfl : n = 0 := by omega
      rw [Nat.toDigits_zero] at hCons
      obtain rfl := (List.cons.inj hCons).2.symm
      obtain ⟨d, hd, hDigit⟩ := (Option.any_eq_true _ _).mp hNext
      exact Bool.false_ne_true ((hRest.noDigit d hd).symm.trans hDigit)
  have hNoPower : rest.head?.any (fun e => e = 'e' ∨ e = 'E') = false := by
    refine (Option.any_eq_false _ _).mpr fun e he => ?_
    have hEach := hRest e he
    simp only [List.mem_cons, List.not_mem_nil, or_false] at hEach
    rcases hEach with rfl | rfl | rfl <;> decide
  simp only [hTake, hDrop, hGather, hDigits c List.mem_cons_self, hNoZero, Bool.not_true,
    Bool.false_eq_true, if_false]
  split
  · next fraction => exact absurd (hRest '.' rfl) (by decide)
  · simp only [hNoPower]
    cases negative with
    | false => rfl
    | true =>
      obtain ⟨hPositive, hLeast⟩ := hSign rfl
      have hFits : ¬ (n = 0 ∨ Nat.pow 2 63 < n) := by omega
      simp only [hFits]
      rfl

/-! ### Blanks -/

/-- The character can begin a value: it is neither blank nor a closing bracket. -/
def Begins (c : Char) : Prop := isJsonBlank c = false ∧ c ≠ ']' ∧ c ≠ '}'

theorem skipBlanks_cons {c : Char} (h : isJsonBlank c = false) (s : List Char) :
    skipBlanks (c :: s) = c :: s := List.dropWhile_cons_of_neg (by simp [h])

theorem ne_of_isAsciiDigit {c d : Char} (h : isAsciiDigit c = true)
    (hd : isAsciiDigit d = false) : c ≠ d := by
  rintro rfl
  exact Bool.false_ne_true (hd.symm.trans h)

theorem begins_of_isAsciiDigit {c : Char} (h : isAsciiDigit c = true) : Begins c := by
  have hNot := fun d => ne_of_isAsciiDigit (d := d) h
  refine ⟨?_, hNot ']' (by decide), hNot '}' (by decide)⟩
  simp [isJsonBlank, hNot ' ' (by decide), hNot '\n' (by decide), hNot '\t' (by decide),
    hNot '\r' (by decide)]

/-- A digit begins a number. -/
theorem readValue_digit {c : Char} (h : isAsciiDigit c = true) (depth : Nat) (s : List Char) :
    readValue depth (c :: s) = readNumber false (c :: s) := by
  unfold readValue
  rw [skipBlanks_cons (begins_of_isAsciiDigit h).1]
  split <;> first
    | rfl
    | (next hEq => exact absurd (List.cons.inj hEq).1 (ne_of_isAsciiDigit h (by decide)))
    | (next hEq => exact absurd hEq (List.cons_ne_nil c s))

/-! ### Values -/

/-- The written form of a value is read as the value, whatever follows it. -/
structure ReadsBack (item : ValueReader) (j : Json) : Prop where
  begins : ∃ c s, j.renderChars = c :: s ∧ Begins c
  reads : ∀ rest, Ends rest → item (j.renderChars ++ rest) = (j.draft, some rest)

theorem ends_cons {c : Char} (h : c ∈ [',', ']', '}']) (s : List Char) : Ends (c :: s) := by
  intro d hd
  obtain rfl := Option.some.inj hd
  exact h

theorem renderItems_cons_cons (j k : Json) (more : List Json) :
    renderItems (j :: k :: more) = j.renderChars ++ ',' :: renderItems (k :: more) := by
  simp [renderItems]

theorem renderEntries_cons_cons (key : String) (j : Json) (e : String × Json)
    (more : List (String × Json)) :
    renderEntries ((key, j) :: e :: more) =
      renderText key ++ ':' :: (j.renderChars ++ ',' :: renderEntries (e :: more)) := by
  simp [renderEntries]

section Containers

variable {item : ValueReader}

/-- Items begin with the first of them. -/
theorem exists_renderItems_cons (j : Json) (items : List Json) :
    ∃ t, renderItems (j :: items) = j.renderChars ++ t := by
  cases items with
  | nil => exact ⟨[], (List.append_nil _).symm⟩
  | cons k more => exact ⟨_, rfl⟩

/-- Items begin as a value does. -/
theorem exists_renderItems {items : List Json} (hNonempty : items ≠ [])
    (hBack : ∀ j ∈ items, ReadsBack item j) :
    ∃ c s, renderItems items = c :: s ∧ Begins c := by
  obtain ⟨j, more, rfl⟩ := List.exists_cons_of_ne_nil hNonempty
  obtain ⟨c, s, hEq, hBegins⟩ := (hBack j List.mem_cons_self).begins
  obtain ⟨t, ht⟩ := exists_renderItems_cons j more
  exact ⟨c, s ++ t, by rw [ht, hEq, List.cons_append], hBegins⟩

theorem readItems_renderItems {items : List Json} (hNonempty : items ≠ [])
    (hBack : ∀ j ∈ items, ReadsBack item j) {n : Nat} (hn : items.length ≤ n) (rest : List Char) :
    readItems item n (renderItems items ++ ']' :: rest) = (draftItems items, none, some rest) := by
  induction items generalizing n with
  | nil => exact absurd rfl hNonempty
  | cons j items ih =>
    obtain ⟨n, rfl⟩ := Nat.exists_eq_succ_of_ne_zero (Nat.ne_of_gt (Nat.zero_lt_of_lt hn))
    obtain ⟨hFirst, hMore⟩ := List.forall_mem_cons.mp hBack
    cases items with
    | nil =>
      have hEnds : Ends (']' :: rest) := ends_cons (by decide) rest
      rw [renderItems, readItems, hFirst.reads _ hEnds]
      rfl
    | cons k more =>
      have hRest := ih (List.cons_ne_nil k more) hMore (Nat.le_of_succ_le_succ hn)
      obtain ⟨c, s, hEq, hBlank, hClose, _⟩ := exists_renderItems (List.cons_ne_nil k more) hMore
      have hEnds : Ends (',' :: (renderItems (k :: more) ++ ']' :: rest)) :=
        ends_cons (by decide) _
      have hComma : ∀ t, skipBlanks (',' :: t) = ',' :: t := skipBlanks_cons (by decide)
      rw [renderItems_cons_cons, List.append_assoc, List.cons_append, readItems,
        hFirst.reads _ hEnds]
      rw [hEq, List.cons_append] at hRest ⊢
      simp only [hComma]
      rw [skipBlanks_cons hBlank, if_neg (by simp [hClose]), hRest]
      rfl

theorem length_le_renderItems (items : List Json) :
    items.length ≤ (renderItems items).length + 1 := by
  induction items with
  | nil => exact Nat.zero_le _
  | cons j items ih =>
    cases items with
    | nil => exact Nat.le_add_left 1 _
    | cons k more =>
      simp only [renderItems_cons_cons, List.length_append, List.length_cons] at ih ⊢
      omega

theorem length_le_renderEntries (entries : List (String × Json)) :
    entries.length ≤ (renderEntries entries).length := by
  induction entries with
  | nil => exact Nat.zero_le _
  | cons e entries ih =>
    obtain ⟨key, j⟩ := e
    cases entries with
    | nil =>
      simp only [renderEntries, List.length_append, List.length_cons, List.length_nil]
      omega
    | cons f more =>
      simp only [renderEntries_cons_cons, List.length_append, List.length_cons] at ih ⊢
      omega

/-- The key of an entry is read back. -/
theorem readChars_key (key : String) (t : List Char) :
    readChars (key.toList.flatMap escaped ++ '"' :: t).length
        (key.toList.flatMap escaped ++ '"' :: t) = .ok (key.toList, t) := by
  have hLength := length_le_flatMap_escaped key.toList
  refine readChars_escaped ?_ t
  rw [List.length_append, List.length_cons]
  omega

theorem renderText_append (s : String) (t : List Char) :
    renderText s ++ t = '"' :: (s.toList.flatMap escaped ++ '"' :: t) := by
  rw [renderText, List.cons_append, List.append_assoc]
  rfl

/-- Entries begin with a quote. -/
theorem exists_renderEntries {entries : List (String × Json)} (hNonempty : entries ≠ []) :
    ∃ s, renderEntries entries = '"' :: s := by
  obtain ⟨⟨key, j⟩, more, rfl⟩ := List.exists_cons_of_ne_nil hNonempty
  cases more with
  | nil => exact ⟨_, rfl⟩
  | cons e more => exact ⟨_, rfl⟩

theorem readEntries_renderEntries {entries : List (String × Json)} (hNonempty : entries ≠ [])
    (hBack : ∀ e ∈ entries, ReadsBack item e.2) {n : Nat} (hn : entries.length ≤ n)
    (rest : List Char) :
    readEntries item n (renderEntries entries ++ '}' :: rest) =
      (draftEntries entries, none, some rest) := by
  induction entries generalizing n with
  | nil => exact absurd rfl hNonempty
  | cons e entries ih =>
    obtain ⟨key, j⟩ := e
    obtain ⟨n, rfl⟩ := Nat.exists_eq_succ_of_ne_zero (Nat.ne_of_gt (Nat.zero_lt_of_lt hn))
    obtain ⟨hFirst, hMore⟩ := List.forall_mem_cons.mp hBack
    have hColon : ∀ t, skipBlanks (':' :: t) = ':' :: t := skipBlanks_cons (by decide)
    cases entries with
    | nil =>
      have hEnds : Ends ('}' :: rest) := ends_cons (by decide) rest
      rw [renderEntries, List.append_assoc, List.cons_append, renderText_append, readEntries]
      simp only [readChars_key, String.ofList_toList, hColon]
      rw [hFirst.reads _ hEnds]
      rfl
    | cons f more =>
      have hRest := ih (List.cons_ne_nil f more) hMore (Nat.le_of_succ_le_succ hn)
      obtain ⟨s, hEq⟩ := exists_renderEntries (List.cons_ne_nil f more)
      have hEnds : Ends (',' :: (renderEntries (f :: more) ++ '}' :: rest)) :=
        ends_cons (by decide) _
      have hComma : ∀ t, skipBlanks (',' :: t) = ',' :: t := skipBlanks_cons (by decide)
      rw [renderEntries_cons_cons, List.append_assoc, List.cons_append, List.append_assoc,
        List.cons_append, renderText_append, readEntries]
      simp only [readChars_key, String.ofList_toList, hColon]
      rw [hFirst.reads _ hEnds]
      rw [hEq, List.cons_append] at hRest ⊢
      simp only [hComma]
      rw [skipBlanks_cons (by decide), hRest]
      rfl

end Containers

/-- A natural number is written as its digits. -/
theorem renderChars_natCast (n : Nat) : (Json.int n).renderChars = Nat.toDigits 10 n := by
  show (toString (n : Int)).toList = _
  rw [Int.toString_eq_repr, Int.repr_eq_if, if_pos (Int.natCast_nonneg n), Int.toNat_natCast,
    Nat.toList_repr]

/-- A negative number is written as a sign and digits. -/
theorem renderChars_neg {n : Nat} (h : 0 < n) :
    (Json.int (-n)).renderChars = '-' :: Nat.toDigits 10 n := by
  show (toString (-(n : Int))).toList = _
  rw [Int.toString_eq_repr, Int.repr_eq_if, if_neg (by omega), Int.neg_neg, Int.toNat_natCast,
    String.toList_append, Nat.toList_repr]
  rfl

theorem readsBack_int {n : Int} (hLeast : -(2 : Int) ^ 63 ≤ n) (hGreatest : n < 2 ^ 64)
    (depth : Nat) : ReadsBack (readValue depth) (.int n) := by
  obtain ⟨m, hm⟩ := n.eq_nat_or_neg
  obtain ⟨c, s, hCons⟩ := List.exists_cons_of_ne_nil (Nat.toDigits_ne_nil (n := m) (b := 10))
  have hDigit : isAsciiDigit c = true :=
    isAsciiDigit_of_mem_toDigits (n := m) (hCons ▸ List.mem_cons_self)
  by_cases hNegative : n < 0
  · obtain rfl : n = -m := by omega
    have hPositive : 0 < m := by omega
    constructor
    · exact ⟨'-', _, renderChars_neg hPositive, by decide, by decide, by decide⟩
    · intro rest hRest
      have hLimit : m ≤ 2 ^ 64 - 1 := by omega
      have hRange : m ≤ 2 ^ 63 := by omega
      have hRead := @readNumber_toDigits m true hLimit (fun _ => ⟨hPositive, hRange⟩) rest hRest
      rw [renderChars_neg hPositive, List.cons_append]
      unfold readValue
      rw [skipBlanks_cons (by decide)]
      exact hRead
  · obtain rfl : n = m := by omega
    constructor
    · exact ⟨c, s, (renderChars_natCast m).trans hCons, begins_of_isAsciiDigit hDigit⟩
    · intro rest hRest
      have hLimit : m ≤ 2 ^ 64 - 1 := by omega
      have hRead := @readNumber_toDigits m false hLimit (fun h => absurd h (by decide)) rest hRest
      rw [renderChars_natCast]
      rw [hCons, List.cons_append] at hRead ⊢
      rw [readValue_digit hDigit]
      exact hRead

/-- An array with items is read item by item. -/
theorem readValue_array {c : Char} (hBlank : isJsonBlank c = false) (hClose : c ≠ ']')
    (depth : Nat) (s : List Char) :
    readValue (depth + 1) ('[' :: c :: s) =
      match readItems (readValue depth) (c :: s).length (c :: s) with
      | (items, close, after) => (.arr items close, after) := by
  have hOpen : skipBlanks ('[' :: c :: s) = '[' :: c :: s := skipBlanks_cons (by decide) _
  rw [readValue, hOpen]
  simp only [skipBlanks_cons hBlank]
  split
  · next h => exact absurd h (List.cons_ne_nil _ _)
  · next h => exact absurd (List.cons.inj h).1 hClose
  · rfl

/-- An object with entries is read entry by entry. -/
theorem readValue_object {c : Char} (hBlank : isJsonBlank c = false) (hClose : c ≠ '}')
    (depth : Nat) (s : List Char) :
    readValue (depth + 1) ('{' :: c :: s) =
      match readEntries (readValue depth) (c :: s).length (c :: s) with
      | (entries, close, after) => (.obj entries close, after) := by
  have hOpen : skipBlanks ('{' :: c :: s) = '{' :: c :: s := skipBlanks_cons (by decide) _
  rw [readValue, hOpen]
  simp only [skipBlanks_cons hBlank]
  split
  · next h => exact absurd h (List.cons_ne_nil _ _)
  · next h => exact absurd (List.cons.inj h).1 hClose
  · rfl

/-- **The written form of a plain value is read as the value, whatever follows it.** -/
theorem Plain.readsBack {sort : String → Prop} {depth : Nat} {j : Json}
    (h : Plain sort depth j) : ReadsBack (readValue depth) j := by
  induction h with
  | null =>
    refine ⟨⟨'n', _, rfl, by decide, by decide, by decide⟩, fun rest _ => ?_⟩
    unfold readValue
    rfl
  | @bool depth b =>
    cases b with
    | false =>
      refine ⟨⟨'f', _, rfl, by decide, by decide, by decide⟩, fun rest _ => ?_⟩
      unfold readValue
      rfl
    | true =>
      refine ⟨⟨'t', _, rfl, by decide, by decide, by decide⟩, fun rest _ => ?_⟩
      unfold readValue
      rfl
  | int hLeast hGreatest => exact readsBack_int hLeast hGreatest _
  | @str depth s hSort =>
    refine ⟨⟨'"', _, rfl, by decide, by decide, by decide⟩, fun rest _ => ?_⟩
    rw [renderChars, renderText_append]
    unfold readValue
    rw [skipBlanks_cons (by decide)]
    simp only [readChars_key, String.ofList_toList]
    rfl
  | @arr depth items hItems ih =>
    refine ⟨⟨'[', _, rfl, by decide, by decide, by decide⟩, fun rest _ => ?_⟩
    rw [renderChars, List.cons_append, List.append_assoc, List.singleton_append]
    by_cases hNonempty : items = []
    · subst hNonempty
      unfold readValue
      rfl
    · obtain ⟨c, s, hEq, hBlank, hClose, _⟩ := exists_renderItems hNonempty ih
      have hLength : items.length ≤ (renderItems items ++ ']' :: rest).length := by
        have hItems := length_le_renderItems items
        rw [List.length_append, List.length_cons]
        omega
      have hRead := readItems_renderItems hNonempty ih hLength rest
      rw [hEq, List.cons_append] at hRead ⊢
      rw [readValue_array hBlank hClose, hRead]
      rfl
  | @obj depth entries hOrder hKeys hValues ih =>
    refine ⟨⟨'{', _, rfl, by decide, by decide, by decide⟩, fun rest _ => ?_⟩
    rw [renderChars, List.cons_append, List.append_assoc, List.singleton_append]
    by_cases hNonempty : entries = []
    · subst hNonempty
      unfold readValue
      rfl
    · obtain ⟨s, hEq⟩ := exists_renderEntries hNonempty
      have hLength : entries.length ≤ (renderEntries entries ++ '}' :: rest).length := by
        have hEntries := length_le_renderEntries entries
        rw [List.length_append]
        omega
      have hRead := readEntries_renderEntries hNonempty ih hLength rest
      rw [hEq, List.cons_append] at hRead ⊢
      rw [readValue_object (by decide) (by decide), hRead]
      rfl

/-! ### From the draft to the value -/

theorem values_draftItems {items : List Json} (h : ∀ j ∈ items, j.draft.value = .ok j) :
    Draft.values (draftItems items) = .ok items := by
  induction items with
  | nil => rfl
  | cons j items ih =>
    obtain ⟨hFirst, hRest⟩ := List.forall_mem_cons.mp h
    rw [draftItems, Draft.values, hFirst, ih hRest]
    rfl

theorem valueEntries_draftEntries {entries : List (String × Json)}
    (h : ∀ e ∈ entries, e.2.draft.value = .ok e.2) :
    Draft.valueEntries (draftEntries entries) = .ok entries := by
  induction entries with
  | nil => rfl
  | cons e entries ih =>
    obtain ⟨key, j⟩ := e
    obtain ⟨hFirst, hRest⟩ := List.forall_mem_cons.mp h
    have hFirst : j.draft.value = .ok j := hFirst
    rw [draftEntries, Draft.valueEntries, hFirst, ih hRest]
    rfl

/-- **The draft of a plain value holds the value.** -/
theorem Plain.value_draft {sort : String → Prop} {depth : Nat} {j : Json}
    (h : Plain sort depth j) : j.draft.value = .ok j := by
  induction h with
  | null => rfl
  | bool => rfl
  | int => rfl
  | str => rfl
  | arr _ ih =>
    rw [draft, Draft.value, values_draftItems ih]
    rfl
  | obj hOrder _ _ ih =>
    rw [draft, Draft.value, valueEntries_draftEntries ih]
    show Except.ok (Json.object _) = _
    rw [Json.object, Entries.ofList_of_ascending hOrder]

end Json

end Scenarist
