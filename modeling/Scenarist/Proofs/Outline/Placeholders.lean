import Scenarist.Outline.Substitution
import Scenarist.Proofs.Text.Scan

/-!
# Placeholders that are replaced

`Replaces` says what it means to replace placeholders all at once: the text is cut into pieces, the
chosen placeholders are pieces of their own and give way to their values, and every other character
is copied.  `substitute` is such a replacement of the placeholders of columns, but it does not see
those behind an open bracket: a `<` in front of text that is not blank takes all that follows it, up
to the next `>`, for one placeholder.

* `Replaces.unique`: a text has only one replacement.
* `exists_cut_of_ready`: what the scan replaces, from any place it gets to.
* `substitute_replaces_unless_behind_open`: the scan replaces the placeholders of columns that do not
  stand behind an open bracket.
* `substitute_misses_behind_open`: it does not replace all placeholders of columns.
-/

namespace Scenarist.Outline

/-- A name between its brackets. -/
def bracketed (name : List Char) : List Char := '<' :: (name ++ ['>'])

/-- What the name of a column is held to. -/
structure ColumnName (name : List Char) : Prop where
  nonempty : name ≠ []
  noOpen : '<' ∉ name
  noClose : '>' ∉ name
  noBlankHead : ∀ c ∈ name.head?, Text.isBlank c = false

/-- Whether there is a column of the name. -/
def IsColumn (ps : Parameters) (name : List Char) : Prop :=
  (ps.get? (String.ofList name)).isSome = true

instance (ps : Parameters) (name : List Char) : Decidable (IsColumn ps name) :=
  inferInstanceAs (Decidable (_ = true))

/-- A piece of a text: a character that is copied or a placeholder that is replaced. -/
inductive Piece
  | copied (c : Char)
  | replaced (name : List Char)

namespace Piece

/-- What stands in the text. -/
def source : Piece → List Char
  | copied c => [c]
  | replaced name => bracketed name

/-- What stands in the result: for a placeholder, the value of the first column of its name. -/
def result (ps : Parameters) : Piece → List Char
  | copied c => [c]
  | replaced name => ((ps.get? (String.ofList name)).getD "").toList

end Piece

/-- One of the pieces replaces the placeholder of the name behind the given text. -/
def ReplacedAt (pieces : List Piece) (front name : List Char) : Prop :=
  ∃ before after, pieces = before ++ .replaced name :: after ∧ before.flatMap Piece.source = front

/-- The pieces make up the text, and those replaced are the placeholders of columns that are chosen;
`start` is what stands in front of the text. -/
structure Cut (ps : Parameters) (chosen : List Char → Prop) (start text : List Char)
    (pieces : List Piece) : Prop where
  source : pieces.flatMap Piece.source = text
  replaced : ∀ front name, ReplacedAt pieces front name ↔
    IsColumn ps name ∧ front ++ bracketed name <+: text ∧ chosen (start ++ front)

/-- The result is the text with all placeholders of columns that are chosen, by what stands in front
of them, replaced at once by the values of their columns and everything else copied. -/
def Replaces (ps : Parameters) (chosen : List Char → Prop) (text result : List Char) : Prop :=
  ∃ pieces, Cut ps chosen [] text pieces ∧ pieces.flatMap (Piece.result ps) = result

/-- The text ends behind a `<` that is still open and has no blank right behind it. -/
def BehindOpen (front : List Char) : Prop :=
  ∃ a b, front = a ++ '<' :: b ∧ '>' ∉ b ∧ ∀ c ∈ b.head?, Text.isBlank c = false

theorem behindOpen_iff {front : List Char} :
    BehindOpen front ↔ ∃ t ∈ front.tails, t.head? = some '<' ∧ '>' ∉ t.tail ∧
      t.tail.head?.any Text.isBlank = false := by
  simp only [List.mem_tails, Option.any_eq_false]
  constructor
  · rintro ⟨a, b, rfl, hb, hHead⟩
    exact ⟨'<' :: b, List.suffix_append a _, rfl, hb, hHead⟩
  · rintro ⟨t, ⟨a, rfl⟩, hOpen, hClose, hHead⟩
    obtain ⟨b, rfl⟩ := List.head?_eq_some_iff.mp hOpen
    exact ⟨a, b, rfl, hClose, hHead⟩

instance (front : List Char) : Decidable (BehindOpen front) :=
  decidable_of_iff' _ behindOpen_iff

variable {ps : Parameters} {chosen : List Char → Prop}

/-! ### Pieces -/

theorem flatMap_source_eq_nil {pieces : List Piece} :
    pieces.flatMap Piece.source = [] ↔ pieces = [] := by
  cases pieces with
  | nil => simp
  | cons x pieces => cases x <;> simp [Piece.source, bracketed]

/-- Two beginnings of the same pieces that make up the same text are one. -/
theorem eq_of_source_eq {p q p' q' : List Piece} (hSame : p ++ p' = q ++ q')
    (hSource : p.flatMap Piece.source = q.flatMap Piece.source) : p = q := by
  induction p generalizing q with
  | nil => exact (flatMap_source_eq_nil.mp hSource.symm).symm
  | cons x p ih =>
    cases q with
    | nil => exact flatMap_source_eq_nil.mp hSource
    | cons y q =>
      obtain ⟨rfl, hTail⟩ := List.cons.inj hSame
      rw [List.flatMap_cons, List.flatMap_cons] at hSource
      rw [ih hTail (List.append_cancel_left hSource)]

theorem replacedAt_copied_cons {c : Char} {pieces : List Piece} {front name : List Char} :
    ReplacedAt (.copied c :: pieces) front name ↔
      ∃ front', front = c :: front' ∧ ReplacedAt pieces front' name := by
  constructor
  · rintro ⟨before, after, hPieces, rfl⟩
    cases before with
    | nil => exact absurd (List.cons.inj hPieces).1 (by simp)
    | cons x before =>
      obtain ⟨rfl, hTail⟩ := List.cons.inj hPieces
      exact ⟨_, rfl, before, after, hTail, rfl⟩
  · rintro ⟨_, rfl, before, after, rfl, rfl⟩
    exact ⟨.copied c :: before, after, rfl, rfl⟩

theorem replacedAt_replaced_cons {n : List Char} {pieces : List Piece} {front name : List Char} :
    ReplacedAt (.replaced n :: pieces) front name ↔
      (front = [] ∧ name = n) ∨ ∃ front', front = bracketed n ++ front' ∧
        ReplacedAt pieces front' name := by
  constructor
  · rintro ⟨before, after, hPieces, rfl⟩
    cases before with
    | nil => exact .inl ⟨rfl, (Piece.replaced.inj (List.cons.inj hPieces).1).symm⟩
    | cons x before =>
      obtain ⟨rfl, hTail⟩ := List.cons.inj hPieces
      exact .inr ⟨_, rfl, before, after, hTail, rfl⟩
  · rintro (⟨rfl, rfl⟩ | ⟨_, rfl, before, after, rfl, rfl⟩)
    · exact ⟨[], pieces, rfl, rfl⟩
    · exact ⟨.replaced n :: before, after, rfl, rfl⟩

/-! ### Only one replacement -/

/-- What one cut replaces next, another cut with the same pieces so far replaces too. -/
theorem Cut.head_eq {start text name : List Char} {done p' q' : List Piece} {y : Piece}
    (hp : Cut ps chosen start text (done ++ .replaced name :: p'))
    (hq : Cut ps chosen start text (done ++ y :: q')) : y = .replaced name := by
  have hAt := (hp.replaced (done.flatMap Piece.source) name).mp ⟨done, p', rfl, rfl⟩
  obtain ⟨before, after, hPieces, hFront⟩ := (hq.replaced _ _).mpr hAt
  have hBefore : done = before := eq_of_source_eq hPieces hFront.symm
  subst hBefore
  exact (List.cons.inj (List.append_cancel_left hPieces)).1

theorem Cut.tail_eq {start text : List Char} {done p q : List Piece}
    (hp : Cut ps chosen start text (done ++ p)) (hq : Cut ps chosen start text (done ++ q)) :
    p = q := by
  have hSource : p.flatMap Piece.source = q.flatMap Piece.source := by
    have hBoth := hp.source.trans hq.source.symm
    rw [List.flatMap_append, List.flatMap_append] at hBoth
    exact List.append_cancel_left hBoth
  induction p generalizing done q with
  | nil => exact (flatMap_source_eq_nil.mp hSource.symm).symm
  | cons x p ih =>
    cases q with
    | nil => exact flatMap_source_eq_nil.mp hSource
    | cons y q =>
      have hHead : x = y := by
        cases x with
        | replaced name => exact (hp.head_eq hq).symm
        | copied c =>
          cases y with
          | replaced name => exact hq.head_eq hp
          | copied d => rw [(List.cons.inj hSource).1]
      subst hHead
      rw [List.flatMap_cons, List.flatMap_cons] at hSource
      have hStep : ∀ l : List Piece, done ++ x :: l = (done ++ [x]) ++ l := by
        intro l
        rw [List.append_assoc, List.singleton_append]
      rw [hStep] at hp hq
      rw [ih hp hq (List.append_cancel_left hSource)]

/-- **A text has only one replacement.** -/
theorem Replaces.unique {text r r' : List Char} (h : Replaces ps chosen text r)
    (h' : Replaces ps chosen text r') : r = r' := by
  obtain ⟨p, hp, rfl⟩ := h
  obtain ⟨q, hq, rfl⟩ := h'
  have hp' : Cut ps chosen [] text ([] ++ p) := hp
  rw [hp'.tail_eq hq]

/-- Only what is chosen among the placeholders of columns counts. -/
theorem Replaces.congr {chosen' : List Char → Prop} {text r : List Char}
    (hSame : ∀ front name, IsColumn ps name → front ++ bracketed name <+: text →
      (chosen front ↔ chosen' front)) (h : Replaces ps chosen text r) :
    Replaces ps chosen' text r := by
  obtain ⟨p, hp, rfl⟩ := h
  refine ⟨p, ⟨hp.source, fun front name => ?_⟩, rfl⟩
  rw [hp.replaced, List.nil_append]
  exact and_congr_right fun hColumn => and_congr_right fun hThere => hSame front name hColumn hThere

/-! ### Cuts put together -/

theorem Cut.nil (start : List Char) : Cut ps chosen start [] [] := by
  refine ⟨rfl, fun front name => ⟨?_, ?_⟩⟩
  · rintro ⟨before, after, hPieces, _⟩
    exact absurd hPieces (by simp)
  · rintro ⟨_, hThere, _⟩
    exact absurd (List.prefix_nil.mp hThere) (by simp [bracketed])

/-- A character is copied where no placeholder is chosen. -/
theorem Cut.copied {start text : List Char} {c : Char} {pieces : List Piece}
    (hNone : ∀ name, IsColumn ps name → bracketed name <+: c :: text → ¬ chosen start)
    (h : Cut ps chosen (start ++ [c]) text pieces) :
    Cut ps chosen start (c :: text) (.copied c :: pieces) := by
  refine ⟨by rw [List.flatMap_cons, h.source]; rfl, fun front name => ?_⟩
  rw [replacedAt_copied_cons]
  constructor
  · rintro ⟨front, rfl, hAt⟩
    obtain ⟨hColumn, hThere, hChosen⟩ := (h.replaced front name).mp hAt
    rw [List.append_assoc, List.singleton_append] at hChosen
    exact ⟨hColumn, List.cons_prefix_cons.mpr ⟨rfl, hThere⟩, hChosen⟩
  · rintro ⟨hColumn, hThere, hChosen⟩
    cases front with
    | nil =>
      rw [List.append_nil] at hChosen
      exact absurd hChosen (hNone name hColumn hThere)
    | cons d front =>
      obtain ⟨hSame, hBehind⟩ := List.cons_prefix_cons.mp hThere
      subst hSame
      refine ⟨front, rfl, (h.replaced front name).mpr ⟨hColumn, hBehind, ?_⟩⟩
      rwa [List.append_assoc, List.singleton_append]

/-- Characters are copied where no placeholder is chosen at any of them. -/
theorem Cut.copiedAll {start u text : List Char} {pieces : List Piece}
    (hNone : ∀ front back name, u = front ++ back → back ≠ [] → IsColumn ps name →
      bracketed name <+: back ++ text → ¬ chosen (start ++ front))
    (h : Cut ps chosen (start ++ u) text pieces) :
    Cut ps chosen start (u ++ text) (u.map .copied ++ pieces) := by
  induction u generalizing start with
  | nil => rwa [List.append_nil] at h
  | cons c u ih =>
    refine Cut.copied (fun name hColumn hThere => ?_) (ih (fun front back name hu => ?_) ?_)
    · have hHere := hNone [] (c :: u) name rfl (List.cons_ne_nil c u) hColumn hThere
      rwa [List.append_nil] at hHere
    · have hLater := hNone (c :: front) back name (by rw [hu]; rfl)
      rwa [List.append_assoc]
    · rwa [List.append_assoc]

/-- A placeholder is replaced when it is chosen and nothing inside it is. -/
theorem Cut.replacing {start text name : List Char} {pieces : List Piece}
    (hColumn : IsColumn ps name) (hChosen : chosen start)
    (hOnly : ∀ name', IsColumn ps name' → bracketed name' <+: bracketed name ++ text → name' = name)
    (hInside : ∀ front back, bracketed name = front ++ back → front ≠ [] → back ≠ [] →
      ¬ chosen (start ++ front))
    (h : Cut ps chosen (start ++ bracketed name) text pieces) :
    Cut ps chosen start (bracketed name ++ text) (.replaced name :: pieces) := by
  refine ⟨by rw [List.flatMap_cons, h.source]; rfl, fun front name' => ?_⟩
  rw [replacedAt_replaced_cons]
  constructor
  · rintro (⟨rfl, rfl⟩ | ⟨front, rfl, hAt⟩)
    · rw [List.append_nil]
      exact ⟨hColumn, List.prefix_append _ text, hChosen⟩
    · obtain ⟨hColumn', hThere, hChosen'⟩ := (h.replaced _ _).mp hAt
      rw [List.append_assoc] at hChosen' ⊢
      exact ⟨hColumn', (List.prefix_append_right_inj _).mpr hThere, hChosen'⟩
  · rintro ⟨hColumn', hThere, hChosen'⟩
    by_cases hFront : front = []
    · subst hFront
      exact .inl ⟨rfl, hOnly name' hColumn' hThere⟩
    -- What begins behind the first character begins behind the placeholder, or else inside it.
    right
    rcases List.prefix_or_prefix_of_prefix (List.prefix_append (bracketed name) text)
      ((List.prefix_append front _).trans hThere) with ⟨rest, rfl⟩ | ⟨back, hBack⟩
    · refine ⟨rest, rfl, (h.replaced rest name').mpr ⟨hColumn', ?_, ?_⟩⟩
      · rw [List.append_assoc] at hThere
        exact (List.prefix_append_right_inj _).mp hThere
      · rwa [List.append_assoc]
    · by_cases hEnd : back = []
      · rw [hEnd, List.append_nil] at hBack
        subst hBack
        refine ⟨[], (List.append_nil _).symm, (h.replaced [] name').mpr ⟨hColumn', ?_, ?_⟩⟩
        · exact (List.prefix_append_right_inj _).mp hThere
        · rwa [List.append_nil]
      · exact absurd hChosen' (hInside front back hBack.symm hFront hEnd)

/-! ### The scan -/

/-- A placeholder ends at the next `>`, and begins with something that is not blank. -/
theorem placeholder?_append_close {name after : List Char} (hClose : '>' ∉ name) :
    placeholder? (name ++ '>' :: after) =
      if name.head?.all Text.isBlank = true then none else some (name, after) := by
  have hKeep : ∀ c ∈ name, (c != '>') = true :=
    fun c hc => bne_iff_ne.mpr fun hEq => hClose (hEq ▸ hc)
  have hStop : ∀ c ∈ ('>' :: after).head?, (c != '>') = false := by
    intro c hc
    rw [← Option.some.inj hc]
    rfl
  unfold placeholder?
  rw [Text.takeWhile_append_of_stop hKeep hStop, Text.dropWhile_append_of_stop hKeep hStop]
  cases name <;> rfl

/-- The placeholder of a column is one for the scan. -/
theorem ColumnName.placeholder? {name : List Char} (h : ColumnName name) (after : List Char) :
    placeholder? (name ++ '>' :: after) = some (name, after) := by
  rw [placeholder?_append_close h.noClose]
  cases name with
  | nil => exact absurd rfl h.nonempty
  | cons c name =>
    have hBlank : Text.isBlank c = false := h.noBlankHead c rfl
    rw [List.head?_cons, Option.all_some, hBlank]
    rfl

/-- What a placeholder of the scan looks like. -/
theorem of_placeholder?_eq_some {s name after : List Char} (h : placeholder? s = some (name, after)) :
    s = name ++ '>' :: after ∧ '>' ∉ name ∧ ∀ c ∈ name.head?, Text.isBlank c = false := by
  by_cases hMem : '>' ∈ s
  · obtain ⟨u, v, rfl, hu⟩ := List.eq_append_cons_of_mem hMem
    rw [placeholder?_append_close hu] at h
    split at h
    · exact absurd h (by simp)
    · next hBlank =>
      obtain ⟨rfl, rfl⟩ := Prod.mk.inj (Option.some.inj h)
      refine ⟨rfl, hu, fun c hc => ?_⟩
      rw [Option.mem_def.mp hc, Option.all_some] at hBlank
      exact Bool.eq_false_iff.mpr hBlank
  · have hDrop : s.dropWhile (· != '>') = [] := by
      have hKeep : ∀ c ∈ s, (c != '>') = true :=
        fun c hc => bne_iff_ne.mpr fun hEq => hMem (hEq ▸ hc)
      rw [← List.append_nil s, List.dropWhile_append_of_pos hKeep]
      rfl
    unfold Outline.placeholder? at h
    simp only [hDrop] at h
    exact absurd h (by simp)

/-- Where no placeholder begins though a `>` follows, there is a blank or the `>` itself. -/
theorem head_of_placeholder?_eq_none {s : List Char} (h : placeholder? s = none) (hMem : '>' ∈ s) :
    ∀ c ∈ s.head?, c = '>' ∨ Text.isBlank c = true := by
  obtain ⟨u, v, rfl, hu⟩ := List.eq_append_cons_of_mem hMem
  rw [placeholder?_append_close hu] at h
  intro c hc
  cases u with
  | nil => exact .inl (Option.some.inj hc).symm
  | cons d u =>
    obtain rfl : d = c := Option.some.inj hc
    rw [List.head?_cons, Option.all_some] at h
    split at h
    · next hBlank => exact .inr hBlank
    · exact absurd h (by simp)

/-- What the scan has read leaves no bracket open in front of a `>` that is to come. -/
def Ready (front s : List Char) : Prop :=
  '>' ∈ s → ∀ a b, front = a ++ '<' :: b → '>' ∉ b →
    ∀ c ∈ (b ++ s).head?, c = '>' ∨ Text.isBlank c = true

theorem Ready.nil (s : List Char) : Ready [] s := by
  intro _ a b hFront
  exact absurd hFront (by simp)

theorem Ready.not_behindOpen {front s : List Char} (h : Ready front ('<' :: s)) (hMem : '>' ∈ s) :
    ¬ BehindOpen front := by
  rintro ⟨a, b, rfl, hb, hHead⟩
  have hNext := h (List.mem_cons_of_mem _ hMem) a b rfl hb
  cases b with
  | nil =>
    rcases hNext '<' rfl with hClose | hBlank
    · exact absurd hClose (by decide)
    · exact absurd hBlank (by decide)
  | cons c b =>
    rcases hNext c rfl with rfl | hBlank
    · exact hb List.mem_cons_self
    · rw [hHead c rfl] at hBlank
      exact absurd hBlank (by simp)

/-- A character that opens nothing leaves the scan ready. -/
theorem Ready.snoc {front s : List Char} {c : Char} (h : Ready front (c :: s))
    (hOpen : c = '<' → '>' ∈ s → ∀ d ∈ s.head?, d = '>' ∨ Text.isBlank d = true) :
    Ready (front ++ [c]) s := by
  intro hMem a b hFront hb
  rcases List.eq_nil_or_concat b with rfl | ⟨b, d, rfl⟩
  · obtain ⟨_, hc⟩ := List.append_inj' hFront rfl
    exact hOpen (List.cons.inj hc).1 hMem
  · rw [List.concat_eq_append, ← List.cons_append, ← List.append_assoc] at hFront
    obtain ⟨rfl, hc⟩ := List.append_inj' hFront rfl
    obtain rfl := (List.cons.inj hc).1
    have hNext := h (List.mem_cons_of_mem _ hMem) a b rfl
      fun hMem' => hb (by rw [List.concat_eq_append]; exact List.mem_append_left _ hMem')
    rwa [List.concat_eq_append, List.append_assoc, List.singleton_append]

/-- Behind a `>` nothing is open. -/
theorem Ready.of_closed (front s : List Char) : Ready (front ++ ['>']) s := by
  intro _ a b hFront hb
  rcases List.eq_nil_or_concat b with rfl | ⟨b, d, rfl⟩
  · obtain ⟨_, hc⟩ := List.append_inj' hFront rfl
    exact absurd (List.cons.inj hc).1 (by decide)
  · rw [List.concat_eq_append, ← List.cons_append, ← List.append_assoc] at hFront
    obtain ⟨_, hc⟩ := List.append_inj' hFront rfl
    obtain rfl := (List.cons.inj hc).1
    exact absurd (by rw [List.concat_eq_append]; simp) hb

/-- What begins inside a placeholder begins behind its open bracket. -/
theorem behindOpen_inside {start name front back : List Char} (hClose : '>' ∉ name)
    (hHead : ∀ c ∈ name.head?, Text.isBlank c = false) (hSplit : bracketed name = front ++ back)
    (hFront : front ≠ []) (hBack : back ≠ []) : BehindOpen (start ++ front) := by
  cases front with
  | nil => exact absurd rfl hFront
  | cons c b =>
    obtain ⟨rfl, hRest⟩ := List.cons.inj hSplit
    obtain ⟨back, d, rfl⟩ := (List.eq_nil_or_concat back).resolve_left hBack
    have hRest' : name ++ ['>'] = (b ++ back) ++ [d] := by
      rw [hRest, List.concat_eq_append, List.append_assoc]
      rfl
    obtain ⟨rfl, _⟩ := List.append_inj' hRest' rfl
    refine ⟨start, b, rfl, fun hMem => hClose (List.mem_append_left _ hMem), fun c hc => ?_⟩
    cases b with
    | nil => exact absurd hc (by simp)
    | cons d b => exact hHead c hc

theorem IsColumn.columnName (hNames : ∀ p ∈ ps, ColumnName p.1.toList) {name : List Char}
    (h : IsColumn ps name) : ColumnName name := by
  obtain ⟨value, hValue⟩ := Option.isSome_iff_exists.mp h
  obtain ⟨p, hFind, _⟩ := Option.map_eq_some_iff.mp hValue
  have hName : p.1 = String.ofList name := by simpa using List.find?_some hFind
  have := hNames p (List.mem_of_find?_eq_some hFind)
  rwa [hName, String.toList_ofList] at this

/-- Where the scan sees a placeholder, no other column has one. -/
theorem ColumnName.eq_of_seen {name name' text : List Char} (h : ColumnName name')
    (hSeen : Outline.placeholder? (name ++ '>' :: text) = some (name, text))
    (hThere : bracketed name' <+: bracketed name ++ text) : name' = name := by
  obtain ⟨rest, hRest⟩ := hThere
  have hSame : name' ++ '>' :: rest = name ++ '>' :: text := by
    simpa [bracketed] using hRest
  rw [← hSame, h.placeholder? rest] at hSeen
  exact (Prod.mk.inj (Option.some.inj hSeen)).1

theorem flatMap_result_copied (u : List Char) :
    (u.map Piece.copied).flatMap (Piece.result ps) = u := by
  induction u with
  | nil => rfl
  | cons c u ih =>
    rw [List.map_cons, List.flatMap_cons, ih]
    rfl

/-- **From any place that the scan gets to, it replaces the placeholders of columns that do not stand
behind an open bracket.** -/
theorem exists_cut_of_ready (hNames : ∀ p ∈ ps, ColumnName p.1.toList) (start s : List Char)
    (hReady : Ready start s) :
    ∃ pieces, Cut ps (fun front => ¬ BehindOpen front) start s pieces ∧
      pieces.flatMap (Piece.result ps) = substituteChars ps s := by
  fun_induction substituteChars ps s generalizing start with
  | case1 => exact ⟨[], .nil start, rfl⟩
  | case2 rest hNone ih =>
    have hNext : Ready (start ++ ['<']) rest :=
      hReady.snoc fun _ hMem => head_of_placeholder?_eq_none hNone hMem
    obtain ⟨pieces, hCut, hResult⟩ := ih _ hNext
    refine ⟨.copied '<' :: pieces, hCut.copied fun name hColumn hThere => ?_, ?_⟩
    · -- A placeholder of a column would have been seen.
      obtain ⟨after, hAfter⟩ := hThere
      have hRest : rest = name ++ '>' :: after := by
        simpa [bracketed] using hAfter.symm
      rw [hRest, (hColumn.columnName hNames).placeholder? after] at hNone
      exact absurd hNone (by simp)
    · rw [List.flatMap_cons, hResult]
      rfl
  | case3 rest name after hSome ih =>
    obtain ⟨rfl, hClose, hHead⟩ := of_placeholder?_eq_some hSome
    have hWhole : '<' :: (name ++ '>' :: after) = bracketed name ++ after := by simp [bracketed]
    have hEnd : start ++ bracketed name = (start ++ '<' :: name) ++ ['>'] := by simp [bracketed]
    obtain ⟨pieces, hCut, hResult⟩ := ih (start ++ bracketed name) (hEnd ▸ .of_closed _ _)
    rw [hWhole]
    by_cases hColumn : IsColumn ps name
    · refine ⟨.replaced name :: pieces, hCut.replacing hColumn ?_ ?_ ?_, ?_⟩
      · exact hReady.not_behindOpen (by simp)
      · intro name' hColumn' hThere
        exact (hColumn'.columnName hNames).eq_of_seen hSome hThere
      · intro front back hSplit hFront hBack
        exact not_not_intro (behindOpen_inside hClose hHead hSplit hFront hBack)
      · obtain ⟨value, hValue⟩ := Option.isSome_iff_exists.mp hColumn
        rw [List.flatMap_cons, hResult, Piece.result, hValue]
        rfl
    · refine ⟨(bracketed name).map .copied ++ pieces, hCut.copiedAll ?_, ?_⟩
      · intro front back name' hSplit hBack hColumn' hThere
        by_cases hFront : front = []
        · -- The placeholder itself belongs to no column.
          subst hFront
          rw [List.nil_append] at hSplit
          subst hSplit
          obtain rfl := (hColumn'.columnName hNames).eq_of_seen hSome hThere
          exact absurd hColumn' hColumn
        · exact not_not_intro (behindOpen_inside hClose hHead hSplit hFront hBack)
      · have hNone : ps.get? (String.ofList name) = none := by
          rwa [IsColumn, Bool.not_eq_true, Option.isSome_eq_false_iff, Option.isNone_iff_eq_none]
            at hColumn
        rw [List.flatMap_append, flatMap_result_copied, hResult, hNone]
        rfl
  | case4 c rest hc ih =>
    obtain ⟨pieces, hCut, hResult⟩ := ih _ (hReady.snoc fun hEq => absurd hEq hc)
    refine ⟨.copied c :: pieces, hCut.copied fun name _ hThere => ?_, ?_⟩
    · exact absurd (List.cons_prefix_cons.mp hThere).1.symm hc
    · rw [List.flatMap_cons, hResult]
      rfl

/-! ### All placeholders of a text -/

/-- **Substitution replaces, all at once, the placeholders of columns that do not stand behind an
open bracket, and all placeholders of columns when none of them does.** -/
theorem substitute_replaces_unless_behind_open (hNames : ∀ p ∈ ps, ColumnName p.1.toList)
    (text result : String) :
    (substitute ps text = result ↔
      Replaces ps (fun front => ¬ BehindOpen front) text.toList result.toList) ∧
    ((∀ front name, IsColumn ps name → front ++ bracketed name <+: text.toList →
        ¬ BehindOpen front) →
      (substitute ps text = result ↔
        Replaces ps (fun _ => True) text.toList result.toList)) := by
  obtain ⟨pieces, hCut, hResult⟩ := exists_cut_of_ready hNames [] text.toList (.nil _)
  have hScan : Replaces ps (fun front => ¬ BehindOpen front) text.toList
      (substitute ps text).toList := by
    refine ⟨pieces, hCut, ?_⟩
    rw [hResult, substitute, String.toList_ofList]
  have hUnique : ∀ {chosen}, Replaces ps chosen text.toList (substitute ps text).toList →
      (substitute ps text = result ↔ Replaces ps chosen text.toList result.toList) := by
    intro chosen hThis
    constructor
    · rintro rfl
      exact hThis
    · intro hOther
      exact String.toList_inj.mp (hThis.unique hOther)
  refine ⟨hUnique hScan, fun hNoneOpen => hUnique (hScan.congr fun front name hColumn hThere => ?_)⟩
  exact iff_of_true (hNoneOpen front name hColumn hThere) trivial

theorem columnName_of_mem_x : ∀ p ∈ [("x", "1")], ColumnName p.1.toList := by
  intro p hp
  rw [List.mem_singleton.mp hp]
  exact ⟨by decide, by decide, by decide, (Option.any_eq_false _ _).mp (by decide)⟩

/-- Brackets in front of blanks open nothing, and a placeholder without a column is copied. -/
theorem substitute_replaces_between_comparisons :
    (∀ p ∈ [("x", "1")], ColumnName p.1.toList) ∧
    (∀ front name, IsColumn [("x", "1")] name → front ++ bracketed name <+: "2 < <x> <y>".toList →
      ¬ BehindOpen front) ∧
    (substitute [("x", "1")] "2 < <x> <y>" = "2 < 1 <y>" ↔
      Replaces [("x", "1")] (fun _ => True) "2 < <x> <y>".toList "2 < 1 <y>".toList) := by
  have hNoneOpen : ∀ front name, IsColumn [("x", "1")] name →
      front ++ bracketed name <+: "2 < <x> <y>".toList → ¬ BehindOpen front := by
    intro front name hColumn hThere
    have hName : name = ['x'] := by
      by_contra hOther
      have hApart : "x" ≠ String.ofList name := fun hEq => hOther (by
        rw [← String.toList_ofList (l := name), ← hEq]
        rfl)
      have hFind : [("x", "1")].find? (fun p => decide (p.1 = String.ofList name)) = none := by
        simp [hApart]
      rw [IsColumn, Parameters.get?, hFind] at hColumn
      exact absurd hColumn (by simp)
    subst hName
    have hFront : front ∈ "2 < <x> <y>".toList.inits := by
      rw [List.mem_inits]
      exact (List.prefix_append front _).trans hThere
    have hEach : ∀ front ∈ "2 < <x> <y>".toList.inits,
        front ++ bracketed ['x'] <+: "2 < <x> <y>".toList → ¬ BehindOpen front := by decide
    exact hEach front hFront hThere
  exact ⟨columnName_of_mem_x, hNoneOpen,
    (substitute_replaces_unless_behind_open columnName_of_mem_x _ _).2 hNoneOpen⟩

/-- **Not all placeholders of columns are replaced**: the first bracket of the text `<b <x>` takes
all of it for a placeholder without a column. -/
theorem substitute_misses_behind_open :
    ¬ ∀ (ps : Parameters) (text : String), (∀ p ∈ ps, ColumnName p.1.toList) →
      Replaces ps (fun _ => True) text.toList (substitute ps text).toList := by
  intro hAll
  obtain ⟨pieces, hCut, hResult⟩ := hAll [("x", "1")] "<b <x>" columnName_of_mem_x
  have hColumn : IsColumn [("x", "1")] ['x'] := by decide
  obtain ⟨before, after, rfl, hFront⟩ :=
    (hCut.replaced "<b ".toList ['x']).mpr ⟨hColumn, by decide, trivial⟩
  have hAfter : after = [] := by
    have hSource := hCut.source
    rw [List.flatMap_append, hFront, List.flatMap_cons, ← List.append_assoc] at hSource
    exact flatMap_source_eq_nil.mp (List.append_cancel_left (hSource.trans (by decide)))
  -- The result would end with the value of the column.
  subst hAfter
  have hSame : substitute [("x", "1")] "<b <x>" = "<b <x>" := by decide +kernel
  have hOne : Piece.result [("x", "1")] (.replaced ['x']) = ['1'] := by decide
  rw [List.flatMap_append, List.flatMap_singleton, hSame, hOne] at hResult
  have hLast := congrArg List.getLast? hResult
  rw [List.getLast?_concat] at hLast
  exact absurd hLast (by decide)

end Scenarist.Outline
