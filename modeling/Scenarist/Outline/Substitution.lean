import Scenarist.Text.Blank

/-!
# Placeholders in outlines

`substitute` replaces every `<name>` by the value of the first parameter of that name. The text is
read once from left to right, so values are not searched again; a placeholder without a parameter
stays as it is.
-/

namespace Scenarist.Outline

/-- Names and values, in the order of the columns. -/
abbrev Parameters := List (String × String)

/-- The value of the first parameter of a name. -/
def Parameters.get? (ps : Parameters) (name : String) : Option String :=
  (ps.find? fun p => p.1 = name).map (·.2)

/-- The name of the placeholder that begins behind a `<`, and what follows it. -/
def placeholder? (s : List Char) : Option (List Char × List Char) :=
  let name := s.takeWhile (· != '>')
  match name, s.dropWhile (· != '>') with
  | c :: _, _ :: after => if Text.isBlank c then none else some (name, after)
  | _, _ => none

theorem length_dropWhile_le {α : Type} (p : α → Bool) (l : List α) :
    (l.dropWhile p).length ≤ l.length :=
  (List.dropWhile_sublist p).length_le

theorem length_of_placeholder? {s name after : List Char} (h : placeholder? s = some (name, after)) :
    after.length < s.length := by
  have hs := length_dropWhile_le (· != '>') s
  unfold placeholder? at h
  simp only at h
  split at h
  · next heq =>
    split at h
    · cases h
    · cases h
      rw [heq, List.length_cons] at hs
      omega
  · cases h

/-- Replaces the placeholders of a text. -/
def substituteChars (ps : Parameters) (s : List Char) : List Char :=
  match s with
  | [] => []
  | c :: rest =>
    if c = '<' then
      match _h : placeholder? rest with
      | none => '<' :: substituteChars ps rest
      | some (name, after) =>
        (match ps.get? (String.ofList name) with
          | some value => value.toList
          | none => '<' :: (name ++ ['>'])) ++ substituteChars ps after
    else c :: substituteChars ps rest
termination_by s.length
decreasing_by
  · simp
  · have := length_of_placeholder? _h; simp; omega
  · simp

/-- Replaces the placeholders of a text. -/
def substitute (ps : Parameters) (text : String) : String :=
  String.ofList (substituteChars ps text.toList)

end Scenarist.Outline
