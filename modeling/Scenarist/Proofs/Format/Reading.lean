import Mathlib.Tactic.FinCases
import Scenarist.Format.Pattern
import Scenarist.Proofs.Format.Fragment

/-!
# Reading the expression of a pattern

The expression of a pattern is written from its parts and read back.  `Reads` follows the reader
over a piece of the text, and pieces are put together by `Reads.append`.

* `reads_escape`: an escaped text reads as its characters.
* `reads_field`: a fragment between brackets reads as one group around the expression of its kind;
  it has no group of its own, and leaves no flag behind.
* `eq_of_read_source`: what reads at all reads as the parts between the two ends of the text, with
  one group without a name for each field.
-/

namespace Scenarist

namespace Format

open Regex

/-- The progress at the outermost level, with the items read so far in reverse. -/
def atTop (items : List Regex) (names : List (Option String)) : Progress :=
  ⟨{}, ⟨none, {}, [], items.map some⟩, [], names⟩

/-- Over a piece of the text the reader gets from one progress to another, whatever follows the
piece, in at most as many steps as the piece has characters. -/
def Reads (p : Progress) (s : List Char) (p' : Progress) : Prop :=
  ∃ k ≤ s.length, ∀ n rest, readItems (n + k) p (s ++ rest) = readItems n p' rest

theorem Reads.nil (p : Progress) : Reads p [] p := ⟨0, Nat.le_refl 0, fun _ _ => rfl⟩

theorem Reads.append {p q r : Progress} {s t : List Char} (hs : Reads p s q) (ht : Reads q t r) :
    Reads p (s ++ t) r := by
  obtain ⟨j, hj, hs⟩ := hs
  obtain ⟨k, hk, ht⟩ := ht
  refine ⟨k + j, ?_, fun n rest => ?_⟩
  · rw [List.length_append]
    omega
  · rw [List.append_assoc, ← Nat.add_assoc, hs, ht]

variable {done : List Regex} {names : List (Option String)}

/-- A character without a meaning of its own. -/
theorem reads_char {c : Char} (hPlain : isMeta c = false) :
    Reads (atTop done names) [c] (atTop (single c :: done) names) := by
  refine ⟨1, Nat.le_refl 1, fun n rest => ?_⟩
  have hSkip : (atTop done names).flags.skip ([c] ++ rest) = c :: rest := rfl
  rw [readItems, hSkip]
  split
  case h_1 hEq => exact absurd hEq (List.cons_ne_nil c rest)
  case h_14 hEq =>
    obtain ⟨rfl, rfl⟩ := List.cons.inj hEq
    rfl
  all_goals
    rename_i hEq
    obtain ⟨rfl, rfl⟩ := List.cons.inj hEq
    exact absurd hPlain (by decide)

/-- A character with a meaning of its own stands for itself behind a backslash. -/
theorem readEscape_meta {c : Char} (hMeta : isMeta c = true) (f : Flags) (rest : List Char) :
    readEscape f (c :: rest) = .ok (.char c, rest) := by
  have hMem : c ∈ "\\.+*?()|[]\x7b\x7d^$#&-~".toList := List.contains_iff_mem.mp hMeta
  fin_cases hMem <;> rfl

theorem reads_meta {c : Char} (hMeta : isMeta c = true) :
    Reads (atTop done names) ['\\', c] (atTop (single c :: done) names) := by
  refine ⟨1, Nat.le_add_left 1 1, fun n rest => ?_⟩
  have hSkip : (atTop done names).flags.skip (['\\', c] ++ rest) = '\\' :: c :: rest := rfl
  rw [readItems, hSkip]
  show (readEscape _ (c :: rest) >>= _) = _
  rw [readEscape_meta hMeta]
  rfl

/-- An escaped text reads as its characters. -/
theorem reads_escape (s : List Char) :
    Reads (atTop done names) (escape s) (atTop ((s.map single).reverse ++ done) names) := by
  induction s generalizing done with
  | nil => exact .nil _
  | cons c s ih =>
    have hHead : Reads (atTop done names) (if isMeta c then ['\\', c] else [c])
        (atTop (single c :: done) names) := by
      split
      · next hMeta => exact reads_meta hMeta
      · next hPlain => exact reads_char (Bool.not_eq_true _ ▸ hPlain)
    have hBoth := hHead.append (@ih (single c :: done))
    rwa [List.map_cons, List.reverse_cons, List.append_assoc]

/-- How many steps the reader takes over the fragment of a kind and its brackets. -/
def fragmentSteps : FieldKind → Nat
  | .unsigned | .word | .nonBlank | .any => 4
  | .signed => 6
  | .bool => 14
  | .float => 47

set_option maxRecDepth 4000 in
/-- **A fragment between brackets reads as one group.** -/
theorem reads_field (k : FieldKind) :
    Reads (atTop done names) ('(' :: (k.fragment.toList ++ [')']))
      (atTop (.group (names.length + 1) k.regex :: done) (none :: names)) := by
  refine ⟨fragmentSteps k, ?_, fun n rest => ?_⟩
  · cases k <;> simp [fragmentSteps, FieldKind.fragment]
  · cases k <;> rfl

/-! ### All parts -/

/-- What the parts of a pattern read as, with the fields numbered from `k`. -/
def items : Nat → List Part → List Regex
  | _, [] => []
  | k, .text s :: ps => s.map single ++ items k ps
  | k, .field f :: ps => .group k (Hint.kind f.hint).regex :: items (k + 1) ps

/-- What a whole pattern reads as. -/
def body (ps : List Part) : Regex :=
  Regex.sequence (.look .textStart :: (items 1 ps ++ [.look .textEnd]))

theorem reads_parts (ps : List Part) :
    Reads (atTop done names) (ps.flatMap Part.source)
      (atTop ((items (names.length + 1) ps).reverse ++ done)
        (List.replicate (fields ps).length none ++ names)) := by
  induction ps generalizing done names with
  | nil => exact .nil _
  | cons part ps ih =>
    cases part with
    | text s =>
      have hBoth := (reads_escape s).append (@ih ((s.map single).reverse ++ done) names)
      rwa [← List.append_assoc, ← List.reverse_append] at hBoth
    | field f =>
      have hBoth := (reads_field (Hint.kind f.hint)).append
        (@ih (.group (names.length + 1) (Hint.kind f.hint).regex :: done) (none :: names))
      have hItems : (items (names.length + 1) (.field f :: ps)).reverse ++ done =
          (items (names.length + 2) ps).reverse ++
            .group (names.length + 1) (Hint.kind f.hint).regex :: done := by
        rw [items, List.reverse_cons, List.append_assoc, List.singleton_append]
      have hNames : List.replicate (fields (.field f :: ps)).length none ++ names =
          List.replicate (fields ps).length none ++ none :: names := by
        show List.replicate ((fields ps).length + 1) none ++ names = _
        rw [List.replicate_succ', List.append_assoc, List.singleton_append]
      rw [hItems, hNames]
      exact hBoth

/-- What the reader leaves at the outermost level is an expression unless it grew too large. -/
theorem read_eq_of_readItems {s : List Char}
    (h : readItems (s.length + 1) .start s = .ok (atTop done names)) :
    Expression.read s =
      if weightLimit < (Regex.sequence done.reverse).weight then .error .tooLarge
      else .ok ⟨Regex.sequence done.reverse, names.reverse⟩ := by
  have hClose : (atTop done names).inner.close = Regex.sequence done.reverse := by
    show Regex.sequence ((done.map some).reverse.filterMap id) = _
    rw [← List.map_reverse, List.filterMap_map, Function.id_comp, List.filterMap_some]
  rw [Expression.read, h, ← hClose]
  rfl

/-- **What reads at all reads as the parts between the ends of the text, with one group for each
field.** -/
theorem eq_of_read_source {ps : List Part} {e : Expression}
    (h : Expression.read (source ps) = .ok e) :
    e = ⟨body ps, List.replicate (fields ps).length none⟩ := by
  have hStart : Reads .start ['^'] (atTop [.look .textStart] []) :=
    ⟨1, Nat.le_refl 1, fun _ _ => rfl⟩
  have hEnd : ∀ {done names}, Reads (atTop done names) ['$']
      (atTop (.look .textEnd :: done) names) := ⟨1, Nat.le_refl 1, fun _ _ => rfl⟩
  obtain ⟨k, hk, hAll⟩ := hStart.append ((reads_parts ps).append hEnd)
  have hSource : ['^'] ++ (ps.flatMap Part.source ++ ['$']) = source ps := rfl
  rw [hSource] at hk hAll
  have hSteps : (source ps).length + 1 = ((source ps).length - k) + 1 + k := by omega
  have hDone : readItems ((source ps).length + 1) .start (source ps) =
      .ok (atTop (.look .textEnd :: ((items 1 ps).reverse ++ [.look .textStart]))
        (List.replicate (fields ps).length none ++ [])) := by
    rw [hSteps, ← List.append_nil (source ps), hAll]
    rfl
  have hBody :
      Regex.sequence (.look .textEnd :: ((items 1 ps).reverse ++ [.look .textStart])).reverse =
        body ps := by
    rw [List.reverse_cons, List.reverse_append, List.reverse_reverse]
    rfl
  rw [read_eq_of_readItems hDone, hBody, List.append_nil, List.reverse_replicate] at h
  split at h
  · exact absurd h (by simp)
  · exact (Except.ok.inj h).symm

end Format

end Scenarist
