import Scenarist.Dump
import Scenarist.Proofs.Json.Roundtrip
import Scenarist.Proofs.Refusal
import Scenarist.Proofs.Text.Marker

/-!
# Collecting dumped values

* `quiet_renderChars`: a value without the end marker in its texts is written in one line that does
  not have the marker either.
* `payloads_among`: among noise without start markers the texts between markers are the written
  values.
* `collect_among`: the values come back.
-/

namespace Scenarist.Dump

open Json Text

theorem borderless_startMarker : Borderless startMarker := by decide

theorem borderless_endMarker : Borderless endMarker := by decide

/-! ### Written values and the end marker -/

/-- A text stays in its line and does not have the end marker. -/
structure Quiet (s : List Char) : Prop where
  line : '\n' ∉ s
  marker : ¬ endMarker <:+: s

theorem Quiet.of_notMem {s : List Char} (hLine : '\n' ∉ s) (hMarker : '<' ∉ s) : Quiet s :=
  ⟨hLine, fun h => hMarker (h.subset (by decide))⟩

theorem Quiet.append_cons {u v : List Char} {c : Char} (hLine : c ≠ '\n')
    (hMarker : c ∉ endMarker) (hu : Quiet u) (hv : Quiet v) : Quiet (u ++ c :: v) := by
  constructor
  · rw [List.mem_append, List.mem_cons]
    rintro (h | h | h)
    · exact hu.line h
    · exact hLine h.symm
    · exact hv.line h
  · rw [infix_append_cons_iff hMarker]
    rintro (h | h)
    · exact hu.marker h
    · exact hv.marker h

theorem Quiet.nil : Quiet [] := .of_notMem (by decide) (by decide)

/-- A character is written as it is or as an escape, and no escape has a character that begins a
line or the end marker. -/
theorem escaped_cases (c : Char) :
    (escaped c = [c] ∧ c ≠ '\n') ∨ ∃ t, escaped c = '\\' :: t ∧ '\n' ∉ t ∧ '<' ∉ t := by
  have hDigit : ∀ k < 16, Nat.digitChar k ≠ '\n' ∧ Nat.digitChar k ≠ '<' := by decide
  unfold escaped
  split
  all_goals try exact .inr ⟨_, rfl, by decide, by decide⟩
  next hLine _ _ =>
    split
    · next hControl =>
      obtain ⟨hHighLine, hHighMarker⟩ := hDigit (c.toNat / 16) (by omega)
      obtain ⟨hLowLine, hLowMarker⟩ := hDigit (c.toNat % 16) (by omega)
      refine .inr ⟨_, rfl, ?_, ?_⟩
      · simp [hHighLine.symm, hLowLine.symm]
      · simp [hHighMarker.symm, hLowMarker.symm]
    · exact .inl ⟨rfl, hLine⟩

/-- A word without escapes that begins a written text begins the text. -/
theorem prefix_of_prefix_escaped {w s : List Char} (hPlain : '\\' ∉ w)
    (h : w <+: s.flatMap escaped) : w <+: s := by
  induction w generalizing s with
  | nil => exact List.nil_prefix
  | cons a w ih =>
    cases s with
    | nil => exact h
    | cons c s =>
      rw [List.flatMap_cons] at h
      rcases escaped_cases c with ⟨hSelf, _⟩ | ⟨t, hEscape, _⟩
      · rw [hSelf, List.singleton_append, List.cons_prefix_cons] at h
        obtain ⟨rfl, hRest⟩ := h
        refine List.cons_prefix_cons.mpr ⟨rfl, ih ?_ hRest⟩
        exact fun hMem => hPlain (List.mem_cons_of_mem a hMem)
      · rw [hEscape, List.cons_append, List.cons_prefix_cons] at h
        exact absurd (h.1 ▸ List.mem_cons_self) hPlain

/-- What is in front of the first character of a word cannot hold a part of it. -/
theorem infix_of_infix_append {a : Char} {w u v : List Char} (ha : a ∉ u)
    (h : a :: w <:+: u ++ v) : a :: w <:+: v := by
  induction u with
  | nil => exact h
  | cons c u ih =>
    rw [List.mem_cons, not_or] at ha
    obtain ⟨hFirst, hRest⟩ := ha
    rw [List.cons_append, List.infix_cons_iff] at h
    rcases h with h | h
    · exact absurd (List.cons_prefix_cons.mp h).1 hFirst
    · exact ih hRest h

theorem quiet_escaped {s : List Char} (h : ¬ endMarker <:+: s) : Quiet (s.flatMap escaped) := by
  constructor
  · intro hMem
    obtain ⟨c, _, hc⟩ := List.mem_flatMap.mp hMem
    rcases escaped_cases c with ⟨hSelf, hLine⟩ | ⟨t, hEscape, hLine, _⟩
    · rw [hSelf] at hc
      exact hLine (List.mem_singleton.mp hc).symm
    · rw [hEscape] at hc
      exact hLine ((List.mem_cons.mp hc).resolve_left (by decide))
  · intro hInfix
    refine h ?_
    clear h
    induction s with
    | nil => exact hInfix
    | cons c s ih =>
      rw [List.flatMap_cons] at hInfix
      rcases escaped_cases c with ⟨hSelf, _⟩ | ⟨t, hEscape, _, hMarker⟩
      · rw [hSelf, List.singleton_append, List.infix_cons_iff] at hInfix
        rcases hInfix with hBegins | hInfix
        · refine (prefix_of_prefix_escaped (s := c :: s) (by decide) ?_).isInfix
          rwa [List.flatMap_cons, hSelf]
        · exact (ih hInfix).trans (List.suffix_cons c s).isInfix
      · rw [hEscape] at hInfix
        have hFront : '<' ∉ '\\' :: t := by
          rw [List.mem_cons]
          rintro (hEq | hMem)
          · exact absurd hEq (by decide)
          · exact hMarker hMem
        exact (ih (infix_of_infix_append hFront hInfix)).trans (List.suffix_cons c s).isInfix

theorem quiet_renderText {s : String} (h : ¬ endMarker <:+: s.toList) : Quiet (renderText s) := by
  have hInside := Quiet.append_cons (c := '"') (by decide) (by decide) (quiet_escaped h) .nil
  exact Quiet.append_cons (u := []) (by decide) (by decide) .nil hInside

/-- A text without the end marker. -/
def Unmarked (s : String) : Prop := ¬ endMarker <:+: s.toList

theorem quiet_int (n : Int) : Quiet (Json.int n).renderChars := by
  have hDigits : ∀ m, Quiet (Nat.toDigits 10 m) := by
    intro m
    refine .of_notMem ?_ ?_
    · intro h
      exact absurd (Json.ne_of_isAsciiDigit (Number.isAsciiDigit_of_mem_toDigits h)
        (d := '\n') (by decide)) (by simp)
    · intro h
      exact absurd (Json.ne_of_isAsciiDigit (Number.isAsciiDigit_of_mem_toDigits h)
        (d := '<') (by decide)) (by simp)
  obtain ⟨m, hm⟩ := n.eq_nat_or_neg
  by_cases hNegative : n < 0
  · obtain rfl : n = -m := by omega
    rw [renderChars_neg (by omega)]
    exact Quiet.append_cons (u := []) (by decide) (by decide) .nil (hDigits m)
  · obtain rfl : n = m := by omega
    rw [renderChars_natCast]
    exact hDigits m

theorem quiet_renderItems {items : List Json} (h : ∀ j ∈ items, Quiet j.renderChars) :
    Quiet (renderItems items) := by
  induction items with
  | nil => exact .nil
  | cons j items ih =>
    obtain ⟨hFirst, hRest⟩ := List.forall_mem_cons.mp h
    cases items with
    | nil => exact hFirst
    | cons k more =>
      rw [renderItems_cons_cons]
      exact .append_cons (by decide) (by decide) hFirst (ih hRest)

theorem quiet_renderEntries {entries : List (String × Json)} (hKeys : ∀ e ∈ entries, Unmarked e.1)
    (h : ∀ e ∈ entries, Quiet e.2.renderChars) : Quiet (renderEntries entries) := by
  induction entries with
  | nil => exact .nil
  | cons e entries ih =>
    obtain ⟨key, j⟩ := e
    obtain ⟨hFirst, hRest⟩ := List.forall_mem_cons.mp h
    obtain ⟨hKey, hMore⟩ := List.forall_mem_cons.mp hKeys
    cases entries with
    | nil => exact .append_cons (by decide) (by decide) (quiet_renderText hKey) hFirst
    | cons f more =>
      rw [renderEntries_cons_cons]
      exact .append_cons (by decide) (by decide) (quiet_renderText hKey)
        (.append_cons (by decide) (by decide) hFirst (ih hMore hRest))

/-- **A value without the end marker in its texts is written in one line without the marker.** -/
theorem quiet_renderChars {depth : Nat} {j : Json} (h : j.Plain Unmarked depth) :
    Quiet j.renderChars := by
  induction h with
  | null => exact .of_notMem (by decide) (by decide)
  | @bool _ b => cases b <;> exact .of_notMem (by decide) (by decide)
  | int => exact quiet_int _
  | str hSort => exact quiet_renderText hSort
  | arr _ ih =>
    have hInside := Quiet.append_cons (c := ']') (by decide) (by decide) (quiet_renderItems ih) .nil
    exact Quiet.append_cons (u := []) (by decide) (by decide) .nil hInside
  | obj _ hKeys _ ih =>
    have hInside :=
      Quiet.append_cons (c := '}') (by decide) (by decide) (quiet_renderEntries hKeys ih) .nil
    exact Quiet.append_cons (u := []) (by decide) (by decide) .nil hInside

/-! ### Texts between markers -/

/-- A quiet text in front of an end marker is what stands before the marker. -/
theorem payload_append {u : List Char} (h : Quiet u) (after : List Char) :
    payload (u ++ endMarker ++ after) = some (u, after) := by
  induction u with
  | nil => rfl
  | cons c u ih =>
    have hNoPrefix : ¬ endMarker <+: c :: u ++ endMarker ++ after :=
      borderless_endMarker.not_prefix (List.cons_ne_nil c u) h.marker after
    have hNotHere : ¬ endMarker.isPrefixOf (c :: (u ++ endMarker ++ after)) = true := by
      rw [List.isPrefixOf_iff_prefix]
      exact hNoPrefix
    have hLine : c ≠ '\n' := fun hEq => h.line (hEq ▸ List.mem_cons_self)
    have hRest : Quiet u := by
      refine ⟨fun hMem => h.line (List.mem_cons_of_mem c hMem), fun hInfix => h.marker ?_⟩
      exact hInfix.trans (List.suffix_cons c u).isInfix
    show payload (c :: (u ++ endMarker ++ after)) = _
    rw [payload, if_neg hNotHere, if_neg hLine, ih hRest]
    rfl

/-- What follows an end marker is shorter than what was read. -/
theorem length_of_payload {s found after : List Char} (h : payload s = some (found, after)) :
    after.length < s.length := by
  induction s generalizing found with
  | nil => exact absurd h (by simp [payload])
  | cons c s ih =>
    rw [payload] at h
    split at h
    · obtain ⟨_, rfl⟩ := Prod.mk.inj (Option.some.inj h)
      rw [List.length_drop, List.length_cons]
      have hMarker : endMarker.length = 16 := rfl
      omega
    · split at h
      · exact absurd h (by simp)
      · obtain ⟨⟨found', after'⟩, hRest, hEq⟩ := Option.map_eq_some_iff.mp h
        obtain ⟨_, rfl⟩ := Prod.mk.inj hEq
        have hLess := ih hRest
        rw [List.length_cons]
        omega

/-- The bound on the number of characters does not matter when it is large enough. -/
theorem payloadsWithin_eq {n : Nat} {s : List Char} (h : s.length ≤ n) :
    payloadsWithin n s = payloads s := by
  have hSame : ∀ n m (s : List Char), s.length ≤ n → s.length ≤ m →
      payloadsWithin n s = payloadsWithin m s := by
    intro n
    induction n with
    | zero =>
      intro m s hn _
      obtain rfl := List.eq_nil_of_length_eq_zero (Nat.le_zero.mp hn)
      cases m <;> rfl
    | succ n ih =>
      intro m s hn hm
      cases s with
      | nil => cases m <;> rfl
      | cons c s =>
        obtain ⟨m, rfl⟩ := Nat.exists_eq_succ_of_ne_zero (Nat.ne_of_gt (Nat.zero_lt_of_lt hm))
        rw [List.length_cons] at hn hm
        rw [payloadsWithin, payloadsWithin]
        have hRest := ih m s (by omega) (by omega)
        split
        · split
          · next found after hPayload =>
            have hShort := length_of_payload hPayload
            rw [List.length_drop, List.length_cons] at hShort
            rw [ih m after (by omega) (by omega)]
          · exact hRest
        · exact hRest
  exact hSame n s.length s h le_rfl

/-- A character at which no start marker begins is passed over. -/
theorem payloads_cons {c : Char} {s : List Char} (h : ¬ startMarker <+: c :: s) :
    payloads (c :: s) = payloads s := by
  have hNot : ¬ startMarker.isPrefixOf (c :: s) = true := by
    rwa [List.isPrefixOf_iff_prefix]
  rw [payloads, List.length_cons, payloadsWithin, if_neg hNot]
  rfl

/-- Noise in front of a start marker is passed over. -/
theorem payloads_noise {u : List Char} (h : ¬ startMarker <:+: u) (t : List Char) :
    payloads (u ++ startMarker ++ t) = payloads (startMarker ++ t) := by
  induction u with
  | nil => rfl
  | cons c u ih =>
    have hNoPrefix := borderless_startMarker.not_prefix (List.cons_ne_nil c u) h t
    have hRest : ¬ startMarker <:+: u := fun hInfix =>
      h (hInfix.trans (List.suffix_cons c u).isInfix)
    exact (payloads_cons hNoPrefix).trans (ih hRest)

theorem payloads_of_noise {u : List Char} (h : ¬ startMarker <:+: u) : payloads u = [] := by
  induction u with
  | nil => rfl
  | cons c u ih =>
    have hNoPrefix : ¬ startMarker <+: c :: u := fun hPrefix => h hPrefix.isInfix
    rw [payloads_cons hNoPrefix]
    exact ih fun hInfix => h (hInfix.trans (List.suffix_cons c u).isInfix)

/-- A quiet text between markers is found, and then what is found behind it. -/
theorem payloads_marked {u : List Char} (h : Quiet u) (after : List Char) :
    payloads (startMarker ++ (u ++ endMarker ++ after)) = u :: payloads after := by
  have hPayload : payload ((startMarker ++ (u ++ endMarker ++ after)).drop startMarker.length) =
      some (u, after) := by
    rw [List.drop_left]
    exact payload_append h after
  have hHere : startMarker.isPrefixOf (startMarker ++ (u ++ endMarker ++ after)) = true := by
    rw [List.isPrefixOf_iff_prefix]
    exact List.prefix_append _ _
  obtain ⟨c, s, hCons⟩ := List.exists_cons_of_ne_nil
    (l := startMarker ++ (u ++ endMarker ++ after)) (List.cons_ne_nil _ _)
  rw [hCons] at hPayload hHere ⊢
  have hShort := length_of_payload hPayload
  rw [List.length_drop, List.length_cons] at hShort
  rw [payloads, List.length_cons, payloadsWithin, if_pos hHere, hPayload]
  dsimp only
  rw [payloadsWithin_eq (by omega)]

/-! ### Values among noise -/

/-- An output with dumped values: each entry is what stands in front of a line and the value that
the line holds; `last` stands behind the last line. -/
def among (entries : List (List Char × Json)) (last : List Char) : List Char :=
  entries.flatMap (fun e => e.1 ++ line e.2) ++ last

/-- Without anything else the output is what was written. -/
theorem among_of_silence (values : List Json) :
    among (values.map fun j => ([], j)) [] = write values := by
  rw [among, List.append_nil, List.flatMap_map]
  rfl

theorem among_cons (noise : List Char) (j : Json) (entries : List (List Char × Json))
    (last : List Char) :
    among ((noise, j) :: entries) last =
      noise ++ startMarker ++ (j.renderChars ++ endMarker ++ '\n' :: among entries last) := by
  simp only [among, line, List.flatMap_cons, List.append_assoc, List.cons_append, List.nil_append]

variable {entries : List (List Char × Json)} {last : List Char}

/-- **Among noise without start markers the texts between markers are the written values.** -/
theorem payloads_among (hNoise : ∀ e ∈ entries, ¬ startMarker <:+: e.1)
    (hLast : ¬ startMarker <:+: last) (hQuiet : ∀ e ∈ entries, Quiet e.2.renderChars) :
    payloads (among entries last) = entries.map fun e => e.2.renderChars := by
  induction entries with
  | nil => exact payloads_of_noise hLast
  | cons e entries ih =>
    obtain ⟨noise, j⟩ := e
    obtain ⟨hFirstNoise, hMoreNoise⟩ := List.forall_mem_cons.mp hNoise
    obtain ⟨hFirst, hMore⟩ := List.forall_mem_cons.mp hQuiet
    -- The end of the line keeps the end marker apart from what follows.
    have hLine : ¬ startMarker <+: '\n' :: among entries last := by
      intro hPrefix
      exact absurd (List.cons_prefix_cons.mp hPrefix).1 (by decide)
    rw [among_cons, payloads_noise hFirstNoise, payloads_marked hFirst, payloads_cons hLine,
      ih hMoreNoise hMore]
    rfl

/-- A written value is loaded as the value. -/
theorem loadText_renderChars {sort : String → Prop} {j : Json} (h : j.Plain sort deepest) :
    loadText anyValue j.renderChars = .ok j := by
  have hRead := h.readsBack.reads [] (fun _ hc => absurd hc (by simp))
  have hDraft : Draft.read j.renderChars = (j.draft, false) := by
    rw [List.append_nil] at hRead
    rw [Draft.read, hRead]
    rfl
  have hLoad : anyValue j.draft = .ok j := mapError_eq_ok_iff.mpr h.value_draft
  rw [loadText, hDraft]
  dsimp only
  rw [hLoad]
  rfl

/-- **Dumped values come back**, in order and whatever stands between their lines, as long as no
start marker does: values that nest at most to the depth that is read and whose texts do not have
the end marker. -/
theorem collect_among (hNoise : ∀ e ∈ entries, ¬ startMarker <:+: e.1)
    (hLast : ¬ startMarker <:+: last) (hValues : ∀ e ∈ entries, e.2.Plain Unmarked deepest) :
    collect anyValue (among entries last) = .ok (entries.map (·.2)) := by
  have hPayloads := payloads_among hNoise hLast fun e he => quiet_renderChars (hValues e he)
  rw [collect, hPayloads, mapM_eq_ok_iff, List.forall₂_map_left_iff, List.forall₂_map_right_iff,
    List.forall₂_same]
  exact fun e he => loadText_renderChars (hValues e he)

/-- Noise and a text that come close to the markers. -/
def nearMarkers : List (List Char × Json) :=
  [("<<<_featureflow_ _featureflow_>>".toList, .arr [.str "_featureflow_>>>", .int (-1)]),
    (">>>\n".toList, .obj [("<<<_featureflow", .null)])]

theorem collect_among_nearMarkers :
    (∀ e ∈ nearMarkers, ¬ startMarker <:+: e.1) ∧ ¬ startMarker <:+: "_".toList ∧
      (∀ e ∈ nearMarkers, e.2.Plain Unmarked deepest) ∧
      collect anyValue (among nearMarkers "_".toList) = .ok (nearMarkers.map (·.2)) := by
  have hNoise : ∀ e ∈ nearMarkers, ¬ startMarker <:+: e.1 := by
    intro e he
    have hEach : ∀ u ∈ nearMarkers.map (·.1), ¬ startMarker <:+: u := by decide
    exact hEach e.1 (List.mem_map_of_mem he)
  have hLast : ¬ startMarker <:+: "_".toList := by decide
  have hText : Unmarked "_featureflow_>>>" := by
    unfold Unmarked
    decide
  have hKey : Unmarked "<<<_featureflow" := by
    unfold Unmarked
    decide
  have hValues : ∀ e ∈ nearMarkers, e.2.Plain Unmarked deepest := by
    simp only [nearMarkers, List.forall_mem_cons, List.not_mem_nil, false_imp_iff, implies_true,
      and_true]
    constructor
    · refine .arr ?_
      simp only [List.forall_mem_cons, List.not_mem_nil, false_imp_iff, implies_true, and_true]
      exact ⟨.str hText, .int (by decide) (by decide)⟩
    · refine .obj (List.pairwise_singleton _ _) ?_ ?_
      · simpa using hKey
      · simpa using Plain.null
  exact ⟨hNoise, hLast, hValues, collect_among hNoise hLast hValues⟩

/-! ### Values that do not come back -/

/-- Nothing inside arrays. -/
def nested : Nat → Json
  | 0 => .null
  | n + 1 => .arr [nested n]

theorem plain_nested (sort : String → Prop) (n : Nat) : (nested n).Plain sort n := by
  induction n with
  | zero => exact .null
  | succ n ih =>
    refine .arr fun j hj => ?_
    rw [List.mem_singleton.mp hj]
    exact ih

/-- What is read of one array too many. -/
def broken : Nat → Draft
  | 0 => .broken .misplaced
  | n + 1 => .arr [broken n] none

theorem value_broken (n : Nat) : (broken n).value = .error .misplaced := by
  induction n with
  | zero => rfl
  | succ n ih =>
    rw [broken, Draft.value, Draft.values, ih]
    rfl

theorem readValue_nested (depth : Nat) (rest : List Char) :
    readValue depth ((nested (depth + 1)).renderChars ++ rest) = (broken depth, none) := by
  induction depth generalizing rest with
  | zero => rfl
  | succ depth ih =>
    have hOpen : ∀ n, (nested (n + 1)).renderChars = '[' :: ((nested n).renderChars ++ [']']) :=
      fun _ => rfl
    rw [hOpen, List.cons_append, List.append_assoc]
    have hInside := ih ([']'] ++ rest)
    rw [hOpen, List.cons_append] at hInside ⊢
    rw [readValue_array (by decide) (by decide), List.length_cons, readItems, hInside]
    rfl

/-- **Neither condition can be left out**: an array too many and an end marker in a text lose the
value. -/
theorem lost_one_deeper_or_marked :
    ((nested (deepest + 1)).Plain Unmarked (deepest + 1) ∧
      collect anyValue (write [nested (deepest + 1)]) = .error (.text .misplaced)) ∧
    ((Json.str "<<<_featureflow_").Plain (fun _ => True) 0 ∧
      collect anyValue (write [.str "<<<_featureflow_"]) = .error (.text .ended)) := by
  refine ⟨⟨plain_nested _ _, ?_⟩, .str trivial, ?_⟩
  · have hPlain : (nested (deepest + 1)).Plain Unmarked (deepest + 1) := plain_nested _ _
    have hPayloads : payloads (write [nested (deepest + 1)]) =
        [(nested (deepest + 1)).renderChars] := by
      rw [← among_of_silence]
      exact payloads_among (by decide) (by decide) (by simpa using quiet_renderChars hPlain)
    have hRead : Draft.read (nested (deepest + 1)).renderChars = (broken deepest, false) := by
      have hBroken := readValue_nested deepest []
      rw [List.append_nil] at hBroken
      rw [Draft.read, hBroken]
    have hLoad : anyValue (broken deepest) = .error (.text .misplaced) := by
      show (broken deepest).value.mapError LoadFault.text = _
      rw [value_broken]
      rfl
    rw [collect, hPayloads, List.mapM_cons, loadText, hRead]
    dsimp only
    rw [hLoad]
    rfl
  · have hPayloads : payloads (write [.str "<<<_featureflow_"]) = [['"']] := by
      have hRest : ¬ startMarker <:+: ('"' :: endMarker) ++ ['\n'] := by decide
      have hQuiet : Quiet ['"'] := .of_notMem (by decide) (by decide)
      have hMarked := payloads_marked hQuiet (('"' :: endMarker) ++ ['\n'])
      rw [payloads_of_noise hRest] at hMarked
      exact hMarked
    rw [collect, hPayloads]
    rfl

end Scenarist.Dump
