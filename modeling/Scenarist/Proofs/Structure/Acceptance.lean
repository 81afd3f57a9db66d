import Scenarist.Proofs.Structure.Grammar
import Scenarist.Structure.Walker

/-!
# What walkers accept

The block and the flags of a walker are a place in the grammar: `Walker.rest` reads off them what a
document may still hold.

* `accepts_of_accept?`: what an accepted token does to a walker.
* `leftQuotient_rest`: one token leads from a place to the next, or is refused where no document
  goes on with it.
* `leftQuotient_run`: what a document may hold behind a sequence of tokens.
* `viable_iff`, `mem_document_iff`: walkers go over the beginnings of documents and nothing else,
  and a beginning is a document when no tags wait.
-/

namespace Scenarist.Structure

open Computability Language Grammar

namespace Walker

/-! ### Walkers and places in the grammar -/

/-- The walkers that stand at a place in the grammar. -/
inductive Sound : Walker → Prop
  | start (tagged : Bool) : Sound ⟨.start, false, false, tagged⟩
  | opened (b : Block) (begun : b ≠ .start) : Sound (enter b)
  | tagged (b : Block) (begun : b ≠ .start) : Sound ⟨b, false, false, true⟩
  | stepping (b : Block) (hasSteps : b = .background ∨ b = .scenario) (afterStep : Bool) :
    Sound ⟨b, false, afterStep, false⟩
  | rows : Sound ⟨.examples, false, false, false⟩

/-- What may still come of the part that the flags of a walker tell of, and what comes behind. -/
def before (w : Walker) (behind : Language Token) : Language Token :=
  if w.describing then (token .text)∗ * behind
  else if w.afterStep then stepTail * behind
  else behind

/-- What a document may still hold where a walker stands. -/
def rest (w : Walker) : Language Token :=
  if w.tagged then
    match w.block with
    | .start => feature
    | .scenario | .examples => examples * (examples∗ * item∗) + item * item∗
    | _ => item * item∗
  else
    match w.block with
    | .start => document
    | .feature | .rule => w.before ((1 + background) * item∗)
    | .background => w.before (steps * item∗)
    | .scenario => w.before (steps * (examples∗ * item∗))
    | .examples => w.before ((token .row)∗ * (examples∗ * item∗))

variable {w : Walker} {t : Token}

/-- **What may follow a token where a walker stands is what may follow the next walker, and nothing
when the token is refused.** -/
theorem leftQuotient_rest (hw : w.Sound) (ht : t ≠ .eof) :
    w.rest.leftQuotient [t] = ((w.accept? t).map rest).getD 0 := by
  cases t with
  | eof => exact absurd rfl ht
  | _ =>
    cases hw with
    | start tagged =>
      cases tagged <;>
        simp only [rest, leftQuotient_document, leftQuotient_feature, reduceCtorEq, reduceIte,
          zero_add, add_zero] <;> rfl
    | opened b begun =>
      cases b with
      | start => exact absurd rfl begun
      | _ =>
        simp only [rest, before, enter, leftQuotient_tokens_mul,
          leftQuotient_optional_background_mul, leftQuotient_steps_mul,
          leftQuotient_kstar_examples_mul, leftQuotient_examples_mul, leftQuotient_items,
          leftQuotient_item_mul, reduceCtorEq, reduceIte, zero_add, add_zero]
        rfl
    | tagged b begun =>
      cases b with
      | start => exact absurd rfl begun
      | _ =>
        simp only [rest, leftQuotient_add, leftQuotient_examples_mul, leftQuotient_item_mul,
          reduceCtorEq, reduceIte, zero_add, add_zero]
        rfl
    | stepping b hasSteps afterStep =>
      rcases hasSteps with rfl | rfl <;> cases afterStep <;>
        simp only [rest, before, leftQuotient_stepTail_mul, leftQuotient_steps_mul,
          leftQuotient_kstar_examples_mul, leftQuotient_examples_mul, leftQuotient_items,
          leftQuotient_item_mul, reduceCtorEq, reduceIte, zero_add, add_zero] <;> rfl
    | rows =>
      simp only [rest, before, leftQuotient_tokens_mul, leftQuotient_kstar_examples_mul,
        leftQuotient_examples_mul, leftQuotient_items, leftQuotient_item_mul, reduceCtorEq,
        reduceIte, zero_add, add_zero]
      rfl

/-- What an accepted token does to a walker. -/
inductive Accepts (w : Walker) : Token → Walker → Prop
  | tag : Accepts w .tag ⟨w.block, false, false, true⟩
  | header {t : Token} (b : Block) (noTag : t ≠ .tag) (begun : b ≠ .start) : Accepts w t (enter b)
  | step (untagged : w.tagged = false) (hasSteps : w.block = .background ∨ w.block = .scenario) :
    Accepts w .step ⟨w.block, false, true, false⟩
  | exampleRow (untagged : w.tagged = false) (inExamples : w.block = .examples) :
    Accepts w .row ⟨w.block, false, w.afterStep, false⟩
  | docString (untagged : w.tagged = false) (afterStep : w.afterStep = true) :
    Accepts w .docString ⟨w.block, w.describing, false, false⟩
  | same {t : Token} (noTag : t ≠ .tag) (untagged : w.tagged = false) : Accepts w t w

theorem accepts_of_accept? {w' : Walker} (ht : t ≠ .eof) (h : w.accept? t = some w') :
    Accepts w t w' := by
  obtain ⟨b, describing, afterStep, tagged⟩ := w
  rw [accept?] at h
  split at h
  · cases h
  next hOpen =>
  have hUntagged : t ≠ .tag → mayBeTagged b t = false → tagged = false := by
    intro hNoTag hRefused
    simpa [hNoTag, hRefused] using hOpen
  cases t with
  | eof => exact absurd rfl ht
  | tag =>
    cases h
    exact .tag
  | feature | background | rule | scenario | examples =>
    cases b <;> cases h <;> exact .header _ (by decide) (by decide)
  | step =>
    obtain rfl := hUntagged (by decide) (by cases b <;> rfl)
    cases b <;> cases h
    · exact .step rfl (.inl rfl)
    · exact .step rfl (.inr rfl)
  | row =>
    obtain rfl := hUntagged (by decide) (by cases b <;> rfl)
    cases b with
    | examples =>
      cases h
      exact .exampleRow rfl rfl
    | _ =>
      cases afterStep <;> cases h
      exact .same (by decide) rfl
  | docString =>
    obtain rfl := hUntagged (by decide) (by cases b <;> rfl)
    cases afterStep <;> cases h
    exact .docString rfl rfl
  | text =>
    obtain rfl := hUntagged (by decide) (by cases b <;> rfl)
    cases describing <;> cases h
    exact .same (by decide) rfl

/-- A token that is accepted leads to a place in the grammar. -/
theorem Sound.accept? {w' : Walker} (hw : w.Sound) (ht : t ≠ .eof) (h : w.accept? t = some w') :
    w'.Sound := by
  cases accepts_of_accept? ht h with
  | tag =>
    cases hw with
    | start tagged => exact .start true
    | opened b begun => exact .tagged b begun
    | tagged b begun => exact .tagged b begun
    | stepping b hasSteps afterStep => exact .tagged b (by rintro rfl; simp at hasSteps)
    | rows => exact .tagged _ (by decide)
  | header b noTag begun => exact .opened b begun
  | step untagged hasSteps => exact .stepping _ hasSteps true
  | exampleRow untagged inExamples =>
    cases hw with
    | start tagged => cases inExamples
    | opened b begun =>
      obtain rfl : b = .examples := inExamples
      exact .rows
    | tagged b begun => cases untagged
    | stepping b hasSteps afterStep =>
      obtain rfl : b = .examples := inExamples
      simp at hasSteps
    | rows => exact .rows
  | docString untagged hStep =>
    cases hw with
    | stepping b hasSteps afterStep => exact .stepping b hasSteps false
    | start | opened | tagged | rows => cases hStep
  | same noTag untagged => exact hw

/-- Tags wait behind a tag and nowhere else. -/
theorem tagged_iff_of_accept? {w' : Walker} (ht : t ≠ .eof) (h : w.accept? t = some w') :
    w'.tagged = true ↔ t = .tag := by
  cases accepts_of_accept? ht h with
  | tag => exact ⟨fun _ => rfl, fun _ => rfl⟩
  | header b noTag begun => exact ⟨fun hTagged => (by cases hTagged), fun hTag => absurd hTag noTag⟩
  | same noTag untagged => simp only [untagged, noTag, Bool.false_eq_true]
  | step untagged hasSteps | exampleRow untagged inExamples | docString untagged afterStep =>
    simp only [Bool.false_eq_true, reduceCtorEq]

theorem accept?_eof (w : Walker) : w.accept? .eof = if w.tagged then none else some w := by
  obtain ⟨b, describing, afterStep, tagged⟩ := w
  cases tagged with
  | false => rfl
  | true => cases b <;> rfl

/-- A document may end where no tags wait. -/
theorem nil_mem_rest_iff : [] ∈ w.rest ↔ w.tagged = false := by
  have hItems : [] ∈ item∗ := nil_mem_kstar item
  have hExamples : [] ∈ examples∗ * item∗ := nil_mem_mul_iff.mpr ⟨nil_mem_kstar examples, hItems⟩
  have hBefore : ∀ {L : Language Token}, [] ∈ L → [] ∈ w.before L := by
    intro L hL
    unfold before
    split
    · exact nil_mem_mul_iff.mpr ⟨nil_mem_kstar _, hL⟩
    · split
      · exact nil_mem_mul_iff.mpr ⟨nil_mem_mul_iff.mpr ⟨nil_mem_kstar _, nil_mem_one_add⟩, hL⟩
      · exact hL
  unfold rest
  split
  · next hTagged =>
    refine ⟨fun h => ?_, fun h => absurd hTagged (by simp [h])⟩
    have hNone : ∀ {L : Language Token}, [] ∉ item * L :=
      fun hItem => nil_notMem_item (nil_mem_mul_iff.mp hItem).1
    split at h
    · exact absurd h nil_notMem_feature
    · rcases h with h | h
      · exact absurd (nil_mem_mul_iff.mp h).1 nil_notMem_examples
      · exact absurd h hNone
    · rcases h with h | h
      · exact absurd (nil_mem_mul_iff.mp h).1 nil_notMem_examples
      · exact absurd h hNone
    · exact absurd h hNone
  · next hUntagged =>
    refine ⟨fun _ => Bool.not_eq_true _ ▸ hUntagged, fun _ => ?_⟩
    split
    · exact nil_mem_one_add
    · exact hBefore (nil_mem_mul_iff.mpr ⟨nil_mem_one_add, hItems⟩)
    · exact hBefore (nil_mem_mul_iff.mpr ⟨nil_mem_one_add, hItems⟩)
    · exact hBefore (nil_mem_mul_iff.mpr ⟨nil_mem_kstar _, hItems⟩)
    · exact hBefore (nil_mem_mul_iff.mpr ⟨nil_mem_kstar _, hExamples⟩)
    · exact hBefore (nil_mem_mul_iff.mpr ⟨nil_mem_kstar _, hExamples⟩)

/-- Some document goes on from every place. -/
theorem exists_mem_rest (hw : w.Sound) : ∃ u, u ∈ w.rest := by
  cases hTagged : w.tagged with
  | false => exact ⟨[], nil_mem_rest_iff.mpr hTagged⟩
  | true =>
    obtain ⟨t, ht, b, hAccept⟩ : ∃ t, t ≠ .eof ∧ ∃ b, w.accept? t = some (enter b) := by
      cases hw with
      | start tagged => exact ⟨.feature, by decide, .feature, by cases tagged <;> rfl⟩
      | tagged b begun =>
        refine ⟨.scenario, by decide, .scenario, ?_⟩
        cases b with
        | start => exact absurd rfl begun
        | _ => rfl
      | opened | stepping | rows => cases hTagged
    have hNext : [] ∈ w.rest.leftQuotient [t] := by
      rw [leftQuotient_rest hw ht, hAccept]
      exact nil_mem_rest_iff.mpr rfl
    exact ⟨[t], hNext⟩

/-! ### Sequences of tokens -/

/-- The walker behind a sequence of tokens; nothing if one of them is refused. -/
def run (w : Walker) (ts : List Token) : Option Walker := ts.foldlM accept? w

theorem run_cons (w : Walker) (t : Token) (ts : List Token) :
    w.run (t :: ts) = (w.accept? t).bind fun w' => w'.run ts :=
  List.foldlM_cons ..

theorem Sound.run {w' : Walker} {ts : List Token} (hw : w.Sound) (hts : .eof ∉ ts)
    (h : w.run ts = some w') : w'.Sound := by
  induction ts generalizing w with
  | nil => exact Option.some.inj h ▸ hw
  | cons t ts ih =>
    rw [run_cons] at h
    obtain ⟨m, hAccept, hRun⟩ := Option.bind_eq_some_iff.mp h
    have ht : t ≠ .eof := fun hEof => hts (hEof ▸ List.mem_cons_self)
    exact ih (hw.accept? ht hAccept) (fun hMem => hts (List.mem_cons_of_mem t hMem)) hRun

/-- **What may follow a sequence of tokens is what may follow the walker behind it, and nothing when
a token is refused.** -/
theorem leftQuotient_run {ts : List Token} (hw : w.Sound) (hts : .eof ∉ ts) :
    w.rest.leftQuotient ts = ((w.run ts).map rest).getD 0 := by
  induction ts generalizing w with
  | nil => rfl
  | cons t ts ih =>
    have ht : t ≠ .eof := fun hEof => hts (hEof ▸ List.mem_cons_self)
    have hMore : .eof ∉ ts := fun hMem => hts (List.mem_cons_of_mem t hMem)
    rw [← List.singleton_append, leftQuotient_append, leftQuotient_rest hw ht,
      List.singleton_append, run_cons]
    cases hAccept : w.accept? t with
    | none => rfl
    | some m => exact ih (hw.accept? ht hAccept) hMore

/-- **Walkers go over the beginnings of documents and over nothing else.** -/
theorem viable_iff {ts : List Token} (hts : .eof ∉ ts) :
    Viable ts ↔ ∃ w, start.run ts = some w := by
  have hQuotient : document.leftQuotient ts = ((start.run ts).map rest).getD 0 :=
    leftQuotient_run (.start false) hts
  have hViable : Viable ts ↔ ∃ u, u ∈ document.leftQuotient ts := Iff.rfl
  rw [hViable, hQuotient]
  cases hRun : start.run ts with
  | none =>
    exact ⟨fun ⟨u, hu⟩ => absurd hu (notMem_zero u), fun ⟨w, hw⟩ => (by cases hw)⟩
  | some w =>
    have hSound : w.Sound := .run (.start false) hts hRun
    exact ⟨fun _ => ⟨w, rfl⟩, fun _ => exists_mem_rest hSound⟩

/-- **A beginning is a document when no tags wait.** -/
theorem mem_document_iff {ts : List Token} (hts : .eof ∉ ts) :
    ts ∈ document ↔ ∃ w, start.run ts = some w ∧ w.tagged = false := by
  have hQuotient : document.leftQuotient ts = ((start.run ts).map rest).getD 0 :=
    leftQuotient_run (.start false) hts
  have hMem : ts ∈ document ↔ [] ∈ document.leftQuotient ts := by
    rw [mem_leftQuotient, List.append_nil]
  rw [hMem, hQuotient]
  cases hRun : start.run ts with
  | none => exact ⟨fun h => absurd h (notMem_zero []), fun ⟨w, hw, _⟩ => (by cases hw)⟩
  | some w =>
    refine nil_mem_rest_iff.trans ⟨fun hTagged => ⟨w, rfl, hTagged⟩, ?_⟩
    rintro ⟨w', hw', hTagged⟩
    exact Option.some.inj hw' ▸ hTagged

/-- Where tags wait, the last token is a tag. -/
theorem getLast?_of_run_tagged {ts : List Token} (hts : .eof ∉ ts) (hRun : start.run ts = some w)
    (hTagged : w.tagged = true) : ts.getLast? = some .tag := by
  rcases List.eq_nil_or_concat ts with rfl | ⟨front, t, rfl⟩
  · obtain rfl : start = w := Option.some.inj hRun
    cases hTagged
  · rw [List.concat_eq_append] at hRun hts ⊢
    rw [run, List.foldlM_append] at hRun
    obtain ⟨m, _, hLast⟩ := Option.bind_eq_some_iff.mp hRun
    obtain ⟨w', hAccept, hSame⟩ := Option.bind_eq_some_iff.mp hLast
    obtain rfl : w' = w := Option.some.inj hSame
    have ht : t ≠ .eof := fun hEof => hts (hEof ▸ List.mem_append_right front List.mem_cons_self)
    rw [List.getLast?_concat, (tagged_iff_of_accept? ht hAccept).mp hTagged]

end Walker

end Scenarist.Structure
