import Scenarist.Parser
import Scenarist.Proofs.Document.Given
import Scenarist.Proofs.Document.Reload
import Scenarist.Proofs.Structure.DocStrings
import Scenarist.Proofs.Text.Outdent
import Scenarist.Proofs.Text.Scan

/-!
# Doc strings of steps

The content of a doc string is what the grammar hands over, less the line breaks around it and the
margin; its place and its media type are read from the line that opens it.

* `docStringBody_of_bare`, `docStringBody_of_note`: the line breaks that are taken away.  What is
  written behind the opening delimiter stays.
* `docStringAfter?_of_visible`, `docStringAfter?_of_hidden`: the line scan finds the opening line,
  unless it is inside another doc string there.
* `docString_loaded`: the doc string of a loaded step, for every way to write it.
-/

namespace Scenarist

open Text Source

/-! ### Written doc strings -/

/-- A doc string as it is written, with its delimiters on lines of their own. -/
structure WrittenDocString where
  /-- The blanks in front of the opening delimiter. -/
  indent : List Char
  delimiter : List Char
  /-- What stands behind the opening delimiter. -/
  note : List Char
  body : List (List Char)
  /-- The blanks in front of the closing delimiter. -/
  closing : List Char
  indent_blank : ∀ c ∈ indent, isBlank c = true
  delimiter_mem : delimiter ∈ delimiters
  note_line : '\n' ∉ note
  body_lines : ∀ l ∈ body, '\n' ∉ l
  closing_blank : ¬ HasContent closing
  closing_line : '\n' ∉ closing

namespace WrittenDocString

/-- The line that opens the doc string. -/
def opening (w : WrittenDocString) : List Char := w.indent ++ (w.delimiter ++ w.note)

def lines (w : WrittenDocString) : List (List Char) :=
  w.opening :: (w.body ++ [w.closing ++ w.delimiter])

/-- The media type that is written behind the opening delimiter. -/
def mediaType? (w : WrittenDocString) : Option String :=
  let media := trim w.note
  if media.isEmpty then none else some (String.ofList media)

/-- The text between the delimiters. -/
def between (w : WrittenDocString) : List Char := unpieces (w.note :: (w.body ++ [w.closing]))

/-- A text that a grammar may hand over for the doc string: the text between the delimiters, less
the same blanks in front of all lines with content.  Without a media type nothing is left in front
of the first line break. -/
inductive HandedOver (w : WrittenDocString) : List Char → Prop
  | mk {m note closing : List Char} {body : List (List Char)} (blank : ∀ c ∈ m, isBlank c = true)
      (opened : Outdented m w.note note) (bare : w.mediaType? = none → note = [])
      (lines : List.Forall₂ (Outdented m) w.body body) (closed : Outdented m w.closing closing) :
      HandedOver w (unpieces (note :: (body ++ [closing])))

end WrittenDocString

/-- A line that may stand between a step and its doc string: it is blank or a comment. -/
def IsGap (line : List Char) : Prop := ∀ c ∈ (trimStart line).head?, c = '#'

instance : DecidablePred IsGap := fun line =>
  inferInstanceAs (Decidable (∀ c ∈ (trimStart line).head?, c = '#'))

/-! ### The text between the delimiters -/

theorem WrittenDocString.mediaType?_eq_none_iff {w : WrittenDocString} :
    w.mediaType? = none ↔ ¬ HasContent w.note := by
  rw [← trim_eq_nil_iff, mediaType?]
  cases trim w.note <;> simp

variable {note closing : List Char} {body : List (List Char)}

/-- A text without its last line, if this holds blanks only and is not the first one. -/
def cutEnd (s : List Char) : List Char :=
  let ls := pieces s
  if 1 < ls.length && allBlank (ls.getLast?.getD []) then unpieces ls.dropLast else s

theorem cutEnd_unpieces {ls : List (List Char)} (hNil : ls ≠ []) (hClosing : ¬ HasContent closing)
    (hLines : ∀ l ∈ ls ++ [closing], '\n' ∉ l) :
    cutEnd (unpieces (ls ++ [closing])) = unpieces ls := by
  have hLength : 1 < (ls ++ [closing]).length := by
    have hPositive := List.length_pos_iff.mpr hNil
    simpa using hPositive
  rw [HasContent, Bool.not_eq_false] at hClosing
  rw [cutEnd, pieces_unpieces (by simp) hLines, List.getLast?_concat, Option.getD_some, hClosing,
    List.dropLast_concat, decide_eq_true hLength]
  rfl

theorem cutEnd_of_notMem {s : List Char} (h : '\n' ∉ s) : cutEnd s = s := by
  rw [cutEnd, pieces_of_notMem h]
  rfl

/-- When nothing stands behind the opening delimiter, the body is left; without a body, what stands
in front of the closing delimiter. -/
theorem docStringBody_of_bare (hClosing : ¬ HasContent closing)
    (hLines : ∀ l ∈ body ++ [closing], '\n' ∉ l) :
    docStringBody (unpieces ([] :: (body ++ [closing]))) =
      if body = [] then closing else unpieces body := by
  have hStart : docStringBody (unpieces ([] :: (body ++ [closing]))) =
      cutEnd (unpieces (body ++ [closing])) := by
    rw [unpieces_cons (by simp)]
    rfl
  rw [hStart]
  split
  · next hNil =>
    subst hNil
    exact cutEnd_of_notMem (hLines closing (by simp))
  · next hNil => exact cutEnd_unpieces hNil hClosing hLines

/-- What stands behind the opening delimiter stays, with its line break. -/
theorem docStringBody_of_note (hNote : note ≠ []) (hClosing : ¬ HasContent closing)
    (hLines : ∀ l ∈ note :: (body ++ [closing]), '\n' ∉ l) :
    docStringBody (unpieces (note :: (body ++ [closing]))) = unpieces (note :: body) := by
  obtain ⟨c, rest, rfl⟩ := List.exists_cons_of_ne_nil hNote
  have hFirst : c ≠ '\n' := by
    have hNot := hLines (c :: rest) List.mem_cons_self
    rw [List.mem_cons, not_or] at hNot
    exact Ne.symm hNot.1
  have hStart : docStringBody (unpieces ((c :: rest) :: (body ++ [closing]))) =
      cutEnd (unpieces ((c :: rest) :: (body ++ [closing]))) := by
    rw [unpieces_cons (by simp), List.cons_append]
    unfold docStringBody
    split
    · next hEq => exact absurd (List.cons.inj hEq).1 hFirst
    · rfl
  rw [hStart]
  exact cutEnd_unpieces (List.cons_ne_nil _ body) hClosing hLines

namespace WrittenDocString

variable {w : WrittenDocString} {handed : List Char}

/-- **The content without its margin**: the body of a doc string without a media type, and otherwise
the rest of the opening line in front of the body. -/
theorem dedent_docStringBody (h : w.HandedOver handed) :
    dedent (docStringBody handed) =
      dedent (unpieces (if w.mediaType? = none then w.body else w.note :: w.body)) := by
  cases h with
  | @mk m note closing body blank opened bare lines closed =>
    have hBody := notMem_of_forall₂ lines w.body_lines
    have hClosing := closed.notMem w.closing_line
    have hBlank : ¬ HasContent closing := (closed.hasContent_iff blank).not.mp w.closing_blank
    have hLines : ∀ l ∈ body ++ [closing], '\n' ∉ l := by
      intro l hl
      rcases List.mem_append.mp hl with hl | hl
      · exact hBody l hl
      · rwa [List.mem_singleton.mp hl]
    by_cases hMedia : w.mediaType? = none
    · rw [if_pos hMedia, bare hMedia, docStringBody_of_bare hBlank hLines,
        ← dedent_outdented blank w.body_lines lines]
      split
      · next hNil =>
        subst hNil
        show dedent (unpieces [closing]) = _
        rw [dedent_unpieces (by simpa using hClosing), List.map_singleton,
          bare_of_not_hasContent hBlank]
        rfl
      · rfl
    · have hContent : HasContent w.note := by
        rwa [mediaType?_eq_none_iff, not_not] at hMedia
      have hNote : note ≠ [] := ((opened.hasContent_iff blank).mp hContent).ne_nil
      rw [if_neg hMedia, docStringBody_of_note hNote hBlank
        (List.forall_mem_cons.mpr ⟨opened.notMem w.note_line, hLines⟩)]
      exact dedent_outdented blank (List.forall_mem_cons.mpr ⟨w.note_line, w.body_lines⟩)
        (.cons opened lines)

/-- The content is the body exactly when there is no media type. -/
theorem dedent_docStringBody_eq_iff (h : w.HandedOver handed) :
    dedent (docStringBody handed) = dedent (unpieces w.body) ↔ w.mediaType? = none := by
  rw [dedent_docStringBody h]
  constructor
  · intro hEq
    by_contra hMedia
    rw [if_neg hMedia] at hEq
    rw [mediaType?_eq_none_iff, not_not] at hMedia
    exact dedent_cons_ne hMedia (List.forall_mem_cons.mpr ⟨w.note_line, w.body_lines⟩) hEq
  · intro hMedia
    rw [if_pos hMedia]

end WrittenDocString

/-! ### The opening line -/

theorem delimiter_cases {d : List Char} (h : d ∈ delimiters) :
    d = "\"\"\"".toList ∨ d = "```".toList := by
  rcases List.mem_cons.mp h with rfl | h
  · exact .inl rfl
  · exact .inr (List.mem_singleton.mp h)

theorem delimiter?_append {d : List Char} (h : d ∈ delimiters) (s : List Char) :
    delimiter? (d ++ s) = some d := by
  rcases delimiter_cases h with rfl | rfl <;> rfl

theorem exists_cons_of_delimiter {d : List Char} (h : d ∈ delimiters) :
    ∃ c s, d = c :: s ∧ isBlank c = false := by
  rcases delimiter_cases h with rfl | rfl
  · exact ⟨_, _, rfl, by decide⟩
  · exact ⟨_, _, rfl, by decide⟩

theorem delimiter_last {d : List Char} (h : d ∈ delimiters) :
    ∀ c ∈ d.getLast?, isBlank c = false := by
  rcases delimiter_cases h with rfl | rfl <;> simp [isBlank]

namespace WrittenDocString

variable (w : WrittenDocString)

theorem trimStart_opening : trimStart w.opening = w.delimiter ++ w.note := by
  refine dropWhile_append_of_stop w.indent_blank ?_
  obtain ⟨c, s, hDelimiter, hBlank⟩ := exists_cons_of_delimiter w.delimiter_mem
  rw [hDelimiter]
  simpa using hBlank

theorem trim_opening : trim w.opening = w.delimiter ++ trimEnd w.note := by
  rw [trim, trimStart_opening, trimEnd_append (delimiter_last w.delimiter_mem)]

theorem indentation_opening : indentation w.opening = w.indent := by
  obtain ⟨c, s, hDelimiter, hBlank⟩ := exists_cons_of_delimiter w.delimiter_mem
  have hNone : indentation (w.delimiter ++ w.note) = [] := by
    rw [hDelimiter]
    exact List.takeWhile_cons_of_neg (by simp [hBlank])
  rw [opening, indentation_append_of_blank w.indent_blank, hNone, List.append_nil]

theorem lineKind_opening (o : Option (List Char)) :
    Structure.lineKind o w.opening = .docString := by
  refine if_pos (.inr ?_)
  rw [trimStart_opening, delimiter?_append w.delimiter_mem]
  rfl

end WrittenDocString

namespace IsGap

variable {line : List Char}

theorem trimStart_eq (h : IsGap line) :
    trimStart line = [] ∨ ∃ rest, trimStart line = '#' :: rest := by
  unfold IsGap at h
  cases hStart : trimStart line with
  | nil => exact .inl rfl
  | cons c rest =>
    rw [hStart] at h
    obtain rfl := h c rfl
    exact .inr ⟨rest, rfl⟩

theorem delimiter?_trim (h : IsGap line) : delimiter? (trim line) = none := by
  rcases h.trimStart_eq with hStart | ⟨rest, hStart⟩
  · rw [trim, hStart]
    rfl
  · have hTrim : trim line = '#' :: trimEnd rest := by
      rw [trim, hStart]
      exact trimEnd_append (l := ['#']) (by simp [isBlank]) rest
    rw [hTrim]
    rfl

theorem lineKind (h : IsGap line) :
    Structure.lineKind none line = .blank ∨ Structure.lineKind none line = .comment := by
  rw [Structure.lineKind]
  rcases h.trimStart_eq with hStart | ⟨rest, hStart⟩
  · rw [hStart]
    exact .inl rfl
  · rw [hStart]
    exact .inr rfl

theorem openBehind (h : IsGap line) : Structure.openBehind none line = none := by
  rw [Structure.openBehind]
  rcases h.trimStart_eq with hStart | ⟨rest, hStart⟩
  · rw [hStart]
    rfl
  · rw [hStart]
    rfl

/-- Outside of doc strings gaps are blank lines and comments. -/
theorem kindsFrom {gaps : List (List Char)} (h : ∀ l ∈ gaps, IsGap l) (ls : List (List Char)) :
    ∃ kinds, kinds.length = gaps.length ∧ (∀ k ∈ kinds, k = .blank ∨ k = .comment) ∧
      Source.kindsFrom none (gaps ++ ls) = kinds ++ Source.kindsFrom none ls := by
  induction gaps with
  | nil => exact ⟨[], rfl, fun k hk => absurd hk List.not_mem_nil, rfl⟩
  | cons line gaps ih =>
    obtain ⟨hFirst, hRest⟩ := List.forall_mem_cons.mp h
    obtain ⟨kinds, hLength, hKinds, hAll⟩ := ih hRest
    refine ⟨Structure.lineKind none line :: kinds, ?_,
      List.forall_mem_cons.mpr ⟨hFirst.lineKind, hKinds⟩, ?_⟩
    · rw [List.length_cons, hLength, List.length_cons]
    · rw [List.cons_append, Structure.kindsFrom_cons, hFirst.openBehind, hAll, List.cons_append]

end IsGap

/-! ### The line scan -/

/-- The delimiter of the doc string in which the line scan is behind some lines. -/
def openAfter (front : List (List Char)) : Option (List Char) :=
  front.foldl Structure.openBehind none

namespace SourceText

variable {t : SourceText} {n k : Nat}

theorem find?_numbersFrom {p : Nat → Bool} (hBelow : n < k) (hCount : k ≤ t.count)
    (hFound : p k = true) (hSkipped : ∀ j, n < j → j < k → p j = false) :
    (t.numbersFrom (n + 1)).find? p = some k := by
  unfold numbersFrom
  refine List.find?_range'_eq_some.mpr ⟨hFound, List.mem_range'_1.mpr (by omega), ?_⟩
  intro j hFirst hBefore
  rw [hSkipped j hFirst hBefore]
  rfl

/-- The first line below that is neither blank nor a comment opens the doc string, if it looks
so. -/
theorem docStringAfter?_of_first (hBelow : n < k) (hCount : k ≤ t.count)
    (hKind : t.kind? k = some .docString)
    (hSkipped : ∀ j, n < j → j < k → t.kind? j = some .blank ∨ t.kind? j = some .comment) :
    t.docStringAfter? n = (delimiter? (trim (t.lineAt k))).map fun d =>
      let media := trim ((trim (t.lineAt k)).drop d.length)
      (t.startOf k, String.ofList d,
        if media.isEmpty then none else some (String.ofList media)) := by
  refine (congrArg (Option.bind · _) (find?_numbersFrom hBelow hCount ?_ ?_)).trans ?_
  · rw [hKind]
  · intro j hAbove hBefore
    rcases hSkipped j hAbove hBefore with hBlank | hComment
    · rw [hBlank]
    · rw [hComment]
  · rw [Option.bind_some, if_pos hKind]
    exact Option.map_eq_bind.symm

variable {front rest : List (List Char)}

theorem kind?_behind (front rest : List (List Char)) (i : Nat) :
    (SourceText.ofLines (front ++ rest)).kind? (front.length + 1 + i) =
      (kindsFrom (openAfter front) rest)[i]? := by
  have hNumber : front.length + 1 + i = (front.length + i) + 1 := by omega
  rw [hNumber]
  show (kindsFrom none (front ++ rest))[front.length + i]? = _
  rw [Structure.kindsFrom_append, List.getElem?_append_right
    (by rw [Structure.length_kindsFrom]; exact Nat.le_add_right _ _), Structure.length_kindsFrom,
    Nat.add_sub_cancel_left]
  rfl

theorem lineAt_behind (front rest : List (List Char)) (i : Nat) :
    (SourceText.ofLines (front ++ rest)).lineAt (front.length + 1 + i) = (rest[i]?).getD [] := by
  have hNumber : front.length + 1 + i = (front.length + i) + 1 := by omega
  rw [hNumber]
  show ((front ++ rest)[front.length + i]?).getD [] = _
  rw [List.getElem?_append_right (Nat.le_add_right _ _), Nat.add_sub_cancel_left]

end SourceText

namespace WrittenDocString

variable (w : WrittenDocString) {front between : List (List Char)} (back : List (List Char))

/-- A file with the doc string behind some lines. -/
def file (front between back : List (List Char)) : SourceText :=
  .ofLines (front ++ (between ++ (w.lines ++ back)))

theorem lineAt_file :
    (w.file front between back).lineAt (front.length + 1 + between.length) = w.opening := by
  rw [file, SourceText.lineAt_behind, List.getElem?_append_right (Nat.le_refl _), Nat.sub_self]
  rfl

theorem kind?_file :
    (w.file front between back).kind? (front.length + 1 + between.length) = some .docString := by
  rw [file, SourceText.kind?_behind, Structure.kindsFrom_append,
    List.getElem?_append_right (by rw [Structure.length_kindsFrom]), Structure.length_kindsFrom,
    Nat.sub_self, lines, List.cons_append, Structure.kindsFrom_cons, List.getElem?_cons_zero,
    lineKind_opening]

/-- The place, the delimiter and the media type that are written in the opening line. -/
theorem docStringAfter?_of_visible (hBetween : ∀ l ∈ between, IsGap l)
    (h : between = [] ∨ openAfter front = none) :
    (w.file front between back).docStringAfter? front.length =
      some (⟨front.length + 1 + between.length, w.indent.length + 1⟩, String.ofList w.delimiter,
        w.mediaType?) := by
  have hCount : front.length + 1 + between.length ≤ (w.file front between back).count := by
    simp only [SourceText.count, file, SourceText.ofLines, lines, List.length_append,
      List.length_cons]
    omega
  have hSkipped : ∀ j, front.length < j → j < front.length + 1 + between.length →
      (w.file front between back).kind? j = some .blank ∨
        (w.file front between back).kind? j = some .comment := by
    intro j hAbove hBelow
    obtain ⟨i, rfl⟩ : ∃ i, j = front.length + 1 + i := ⟨j - (front.length + 1), by omega⟩
    rcases h with rfl | hClosed
    · simp only [List.length_nil] at hBelow
      omega
    · obtain ⟨kinds, hLength, hKinds, hAll⟩ := IsGap.kindsFrom hBetween (w.lines ++ back)
      have hIn : i < kinds.length := by omega
      rw [file, SourceText.kind?_behind, hClosed, hAll, List.getElem?_append_left hIn,
        List.getElem?_eq_getElem hIn, Option.some.injEq, Option.some.injEq]
      exact hKinds _ (List.getElem_mem hIn)
  rw [SourceText.docStringAfter?_of_first (by omega) hCount (w.kind?_file back) hSkipped,
    SourceText.startOf, lineAt_file, indentation_opening, trim_opening,
    delimiter?_append w.delimiter_mem, Option.map_some, List.drop_left, trim_trimEnd]
  rfl

/-- Inside another doc string the line below is the first one, and it opens nothing. -/
theorem docStringAfter?_of_hidden (hBetween : ∀ l ∈ between, IsGap l)
    (h : ¬ (between = [] ∨ openAfter front = none)) :
    (w.file front between back).docStringAfter? front.length = none := by
  rw [not_or] at h
  obtain ⟨line, others, rfl⟩ := List.exists_cons_of_ne_nil h.1
  have hOpen : (openAfter front).isSome := Option.isSome_iff_ne_none.mpr h.2
  have hLine : (w.file front (line :: others) back).lineAt (front.length + 1) = line :=
    SourceText.lineAt_behind front _ 0
  have hKind : (w.file front (line :: others) back).kind? (front.length + 1) =
      some .docString := by
    refine (SourceText.kind?_behind front _ 0).trans ?_
    rw [List.cons_append, Structure.kindsFrom_cons, List.getElem?_cons_zero,
      Structure.lineKind_of_open hOpen]
  have hCount : front.length + 1 ≤ (w.file front (line :: others) back).count := by
    simp only [SourceText.count, file, SourceText.ofLines, List.cons_append, List.length_append,
      List.length_cons]
    omega
  rw [SourceText.docStringAfter?_of_first (Nat.lt_succ_self _) hCount hKind
    (fun j hAbove hBelow => by omega), hLine, (hBetween line List.mem_cons_self).delimiter?_trim]
  rfl

end WrittenDocString

/-! ### Doc strings of loaded steps -/

variable {w : WrittenDocString} {s : Sheet} {front between back : List (List Char)}
  {handed : List Char}

/-- The text between the delimiters with its loose margin removed is one that may be handed over. -/
theorem WrittenDocString.handedOver_outdent
    (hReturn : ∀ l ∈ w.note :: w.body, l.getLast? ≠ some '\r') :
    w.HandedOver (outdent w.between) := by
  have hWritten : ∀ l ∈ w.note :: w.body, '\n' ∉ l :=
    List.forall_mem_cons.mpr ⟨w.note_line, w.body_lines⟩
  have hLines : ∀ l ∈ (w.note :: w.body) ++ [w.closing], '\n' ∉ l := by
    intro l hl
    rcases List.mem_append.mp hl with hl | hl
    · exact hWritten l hl
    · rw [List.mem_singleton.mp hl]
      exact w.closing_line
  obtain ⟨m, hBlank, hEach, hText⟩ :=
    outdent_unpieces hLines (List.cons_ne_nil _ _) hReturn w.closing_blank
  obtain ⟨hNote, hBody⟩ := List.forall_mem_cons.mp hEach
  rw [between, ← List.cons_append, hText]
  have hClosing : Outdented m w.closing [] :=
    .blank w.closing_blank (by decide) List.not_mem_nil
  refine .mk hBlank hNote (fun hMedia => ?_) ?_ hClosing
  · exact strip_of_not_hasContent (mediaType?_eq_none_iff.mp hMedia)
  · rw [List.forall₂_map_right_iff, List.forall₂_same]
    exact hBody

theorem Sheet.docString_of_visible (hText : s.text = w.file front between back)
    (hBetween : ∀ l ∈ between, IsGap l) (h : between = [] ∨ openAfter front = none) :
    s.docString front.length handed =
      ⟨⟨front.length + 1 + between.length, w.indent.length + 1⟩,
        String.ofList (docStringBody handed), String.ofList w.delimiter, w.mediaType?⟩ := by
  rw [docString, hText, w.docStringAfter?_of_visible back hBetween h]
  rfl

theorem Sheet.docString_of_hidden (hText : s.text = w.file front between back)
    (hBetween : ∀ l ∈ between, IsGap l) (h : ¬ (between = [] ∨ openAfter front = none)) :
    s.docString front.length handed =
      ⟨⟨front.length + 1, 1⟩, String.ofList (docStringBody handed), "\"\"\"", none⟩ := by
  rw [docString, hText, w.docStringAfter?_of_hidden back hBetween h]
  rfl

/-- **The doc string of a loaded step.**  Its content is the body less the margin exactly when it is
written without a media type; otherwise what is written behind the opening delimiter is its first
line.  The media type is the written one, unless there are lines between the step and the opening
line and the line scan takes them for lines of another doc string. -/
theorem docString_loaded (hText : s.text = w.file front between back)
    (hBetween : ∀ l ∈ between, IsGap l) (hHanded : w.HandedOver handed) :
    ∃ d : DocString,
      (∀ n keyword kind i loaded, n.line = front.length → n.docString = some handed →
        Load.step ((s.step n keyword kind).run i).1.toJson.draft = .ok loaded →
        loaded.docString = some d) ∧
      (front.length + 1 + between.length ≤ Load.greatestIndex →
        w.indent.length + 1 ≤ Load.greatestIndex →
        Load.docString (s.docString front.length handed).toJson.draft = .ok d) ∧
      (d.content.toList = dedent (unpieces w.body) ↔ w.mediaType? = none) ∧
      (w.mediaType? ≠ none → d.content.toList = dedent (unpieces (w.note :: w.body))) ∧
      (d.mediaType = w.mediaType? ↔
        w.mediaType? = none ∨ between = [] ∨ openAfter front = none) := by
  refine ⟨{ s.docString front.length handed with
    content := String.ofList (dedent (docStringBody handed)) }, ?_, ?_, ?_, ?_, ?_⟩
  · intro n keyword kind i loaded hLine hDoc hLoad
    have hStep : ((s.step n keyword kind).run i).1.docString =
        some (s.docString front.length handed) := by
      show n.docString.map (s.docString n.line) = _
      rw [hDoc, hLine, Option.map_some]
    obtain ⟨b, hb, hLoaded⟩ := Load.exists_docString_of_step hStep hLoad
    obtain ⟨-, rfl⟩ := Load.docString_toJson_eq_ok_iff.mp hb
    rw [hLoaded, Sheet.docString, String.toList_ofList]
  · intro hLine hColumn
    refine Load.docString_toJson_eq_ok_iff.mpr ⟨?_, ?_⟩
    · by_cases hVisible : between = [] ∨ openAfter front = none
      · rw [Sheet.docString_of_visible hText hBetween hVisible]
        exact ⟨hLine, hColumn⟩
      · rw [Sheet.docString_of_hidden hText hBetween hVisible]
        exact ⟨Nat.le_trans (Nat.le_add_right _ _) hLine,
          Nat.le_trans (Nat.le_add_left _ _) hColumn⟩
    · rw [Sheet.docString, String.toList_ofList]
  · rw [String.toList_ofList]
    exact WrittenDocString.dedent_docStringBody_eq_iff hHanded
  · intro hMedia
    rw [String.toList_ofList, WrittenDocString.dedent_docStringBody hHanded, if_neg hMedia]
  · by_cases hVisible : between = [] ∨ openAfter front = none
    · rw [Sheet.docString_of_visible hText hBetween hVisible]
      exact iff_of_true rfl (.inr hVisible)
    · rw [Sheet.docString_of_hidden hText hBetween hVisible, or_iff_left hVisible]
      exact eq_comm

/-! A doc string without a media type, two lines below its step. -/

def plainDocString : WrittenDocString where
  indent := "    ".toList
  delimiter := "```".toList
  note := []
  body := ["      one", "", "        two"].map String.toList
  closing := "    ".toList
  indent_blank := by simp [isBlank]
  delimiter_mem := by decide
  note_line := by decide
  body_lines := by decide
  closing_blank := by decide +kernel
  closing_line := by decide

def plainSheet : Sheet where
  text := plainDocString.file
    (["Feature: f", "  Scenario: s", "    Given a text"].map String.toList)
    (["", "    # two lines"].map String.toList) []
  structural := []

theorem docString_loaded_plain :
    plainDocString.HandedOver (outdent plainDocString.between) ∧
      ∃ d, Load.docString (plainSheet.docString 3 (outdent plainDocString.between)).toJson.draft =
          .ok d ∧
        d.content.toList = "one\n\n  two".toList ∧ d.mediaType = none := by
  have hHanded : plainDocString.HandedOver (outdent plainDocString.between) :=
    WrittenDocString.handedOver_outdent (by decide)
  obtain ⟨d, -, hLoad, hContent, -, hMedia⟩ :=
    docString_loaded (s := plainSheet) rfl (by simp [IsGap, trimStart, isBlank]) hHanded
  exact ⟨hHanded, d, hLoad (by decide) (by decide),
    (hContent.mpr (by decide)).trans (by decide +kernel), hMedia.mpr (by decide)⟩

/-- The doc strings in the scenarios of a file that was parsed. -/
def docStringsOf (r : Except ParseFault Document) : List DocString :=
  match r with
  | .ok d => d.feature.scenarios.flatMap fun s => s.steps.filterMap (·.docString)
  | .error _ => []

/-- A file with a doc string that has a media type. -/
def typedSource : List Char :=
  "Feature: a\n  Scenario: b\n    Given c\n      \"\"\"json\n      \x7b\x7d\n      \"\"\"\n".toList

def typedDocString : WrittenDocString where
  indent := "      ".toList
  delimiter := "\"\"\"".toList
  note := "json".toList
  body := ["      \x7b\x7d".toList]
  closing := "      ".toList
  indent_blank := by simp [isBlank]
  delimiter_mem := by decide
  note_line := by decide
  body_lines := by decide
  closing_blank := by decide +kernel
  closing_line := by decide

/-- **Not every doc string has its body for content**: a media type is left in the content, and the
body keeps its margin behind it.  The file is parsed so. -/
theorem media_type_left_in_content :
    (¬ ∀ (w : WrittenDocString) (s : Sheet) (front between back : List (List Char))
      (handed : List Char) (d : DocString), s.text = w.file front between back →
      (∀ l ∈ between, IsGap l) → w.HandedOver handed →
      Load.docString (s.docString front.length handed).toJson.draft = .ok d →
        d.content.toList = dedent (unpieces w.body) ∧ d.mediaType = w.mediaType?) ∧
    docStringsOf (FeatureParser.parse ⟨{}, GrammarEngine.standard⟩ typedSource "typed.feature") =
      [⟨⟨4, 7⟩, "json\n      \x7b\x7d", "\"\"\"", some "json"⟩] := by
  constructor
  · intro hAll
    let front := ["Feature: a", "  Scenario: b", "    Given c"].map String.toList
    let sheet : Sheet := ⟨GrammarEngine.scan typedSource, []⟩
    have hText : sheet.text = typedDocString.file front [] [] :=
      congrArg SourceText.ofLines (by decide +kernel)
    have hHanded : typedDocString.HandedOver (outdent typedDocString.between) :=
      WrittenDocString.handedOver_outdent (by decide)
    have hLoaded : (Load.docString (sheet.docString 3
        (outdent typedDocString.between)).toJson.draft).map (·.content) =
        .ok "json\n      \x7b\x7d" := by
      decide +kernel
    obtain ⟨d, hLoad, hContent⟩ := map_eq_ok_iff.mp hLoaded
    obtain ⟨hBody, -⟩ := hAll typedDocString sheet front [] [] _ d hText
      (List.forall_mem_nil _) hHanded hLoad
    rw [hContent] at hBody
    exact absurd hBody (by decide +kernel)
  · decide +kernel

end Scenarist
