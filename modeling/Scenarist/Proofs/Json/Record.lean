import Mathlib.Data.List.Forall2
import Scenarist.Json.Record
import Scenarist.Proofs.Refusal

/-!
# Records that are read back

A `Codec` is a loader together with a writer of what it loads.  What loads is normal, and what is
normal is written so that it loads as itself; so one load is enough to make a value normal.

* `Codec.reload_of_load`: what was loaded, written and loaded again is the same.
* `Codec.list`: lists.
* `Codec.of_require`, `Codec.of_orElse`, `Codec.of_optional`: the fields of a record.
-/

namespace Scenarist

namespace Json

theorem draftItems_eq_map (items : List Json) : draftItems items = items.map draft := by
  induction items with
  | nil => rfl
  | cons j items ih => rw [draftItems, ih, List.map_cons]

end Json

namespace Load

/-! A record that was written is computed to what is read of it. -/

attribute [simp] Json.draftEntries Source.slot Source.check Source.checkEntries

@[simp] theorem draft_int (n : Int) : (Json.int n).draft = .int n := rfl

@[simp] theorem draft_str (s : String) : (Json.str s).draft = .str s := rfl

@[simp] theorem draft_obj (entries : List (String × Json)) :
    (Json.obj entries).draft = .obj (Json.draftEntries entries) none := rfl

@[simp] theorem ofDraft_obj (name : String) (fields : List String)
    (entries : List (String × Draft)) :
    Source.ofDraft name fields (.obj entries none) = .ok ⟨entries, none, .missingField⟩ := rfl

section Slots

variable {α : Type} (s : Source) (name : String) (a default : α)

@[simp] theorem report_ok : (⟨name, some (.ok a)⟩ : Slot α).report = (name, none) := rfl

@[simp] theorem report_missing : (⟨name, none⟩ : Slot α).report = (name, none) := rfl

@[simp] theorem require_ok : s.require ⟨name, some (.ok a)⟩ = .ok a := rfl

@[simp] theorem orElse_ok : (⟨name, some (.ok a)⟩ : Slot α).orElse default = .ok a := rfl

@[simp] theorem orElse_missing : (⟨name, none⟩ : Slot α).orElse default = .ok default := rfl

end Slots

variable {α : Type} {load : Loader α} {write : α → Json} {Normal : α → Prop}

theorem unexpected_ne_ok {d : Draft} {expected : String} {a : α} :
    d.unexpected expected ≠ .ok a := by
  unfold Draft.unexpected
  split <;> simp

/-- What loads is normal, and what is normal is written so that it loads as itself. -/
structure Codec (load : Loader α) (write : α → Json) (Normal : α → Prop) : Prop where
  normal : ∀ {d a}, load d = .ok a → Normal a
  reload : ∀ {a}, Normal a → load (write a).draft = .ok a

/-- **What was loaded, written and loaded again is the same.** -/
theorem Codec.reload_of_load (h : Codec load write Normal) {d : Draft} {a : α}
    (hLoad : load d = .ok a) : load (write a).draft = .ok a := h.reload (h.normal hLoad)

/-! ### Texts and numbers -/

@[simp] theorem text_str (s : String) : text (.str s) = .ok s := rfl

theorem le_of_natural {typeName : String} {greatest : Nat} {d : Draft} {n : Nat}
    (h : natural typeName greatest d = .ok n) : n ≤ greatest := by
  unfold natural at h
  split at h
  · split at h
    · next hRange =>
      obtain rfl := Except.ok.inj h
      omega
    · exact absurd h (by simp)
  · exact absurd h unexpected_ne_ok

@[simp] theorem natural_int {typeName : String} {greatest n : Nat} (h : n ≤ greatest) :
    natural typeName greatest (.int n) = .ok n := by
  rw [natural, if_pos (by omega), Int.toNat_natCast]

/-- What was written of a number loads as the number. -/
theorem natural_int_eq_ok_iff {typeName : String} {greatest n k : Nat} :
    natural typeName greatest (.int n) = .ok k ↔ n ≤ greatest ∧ k = n := by
  by_cases h : n ≤ greatest
  · rw [natural_int h, Except.ok.injEq]
    exact ⟨fun hEq => ⟨h, hEq.symm⟩, fun hBoth => hBoth.2.symm⟩
  · rw [natural, if_neg (by omega)]
    exact iff_of_false (by simp) fun hBoth => h hBoth.1

theorem codec_natural (typeName : String) (greatest : Nat) :
    Codec (natural typeName greatest) (fun n => .int n) (· ≤ greatest) :=
  ⟨le_of_natural, natural_int⟩

/-! ### Lists -/

theorem Codec.list (h : Codec load write Normal) :
    Codec (list load) (fun as => .arr (as.map write)) fun as => ∀ a ∈ as, Normal a where
  normal := by
    intro d as hLoad
    unfold Load.list at hLoad
    split at hLoad
    · next items close =>
      obtain ⟨found, hFound, hClose⟩ := bind_eq_ok_iff.mp hLoad
      split at hClose
      · exact absurd hClose (by simp)
      · obtain rfl := Except.ok.inj hClose
        have hEach := mapM_eq_ok_iff.mp hFound
        clear hFound hLoad
        induction hEach with
        | nil => exact fun a ha => absurd ha List.not_mem_nil
        | cons hFirst _ ih => exact List.forall_mem_cons.mpr ⟨h.normal hFirst, ih rfl⟩
    · exact absurd hLoad unexpected_ne_ok
  reload := by
    intro as hNormal
    have hFound : ((as.map write).map Json.draft).mapM load = .ok as := by
      rw [mapM_eq_ok_iff, List.map_map, List.forall₂_map_left_iff, List.forall₂_same]
      exact fun a ha => h.reload (hNormal a ha)
    rw [Json.draft, Json.draftItems_eq_map, Load.list, hFound]
    rfl

/-! ### Variants -/

theorem exists_of_taggedVariant {known : List (String × Loader α)} {d : Draft} {a : α}
    (h : taggedVariant known d = .ok a) :
    ∃ name content load, d = .obj [(name, content)] none ∧ (name, load) ∈ known ∧
      load content = .ok a := by
  obtain ⟨⟨name, content⟩, hVariant, hKnown⟩ := bind_eq_ok_iff.mp h
  dsimp only at hKnown
  split at hKnown
  · exact absurd hKnown (by simp)
  · next k load hFind =>
    split at hKnown
    · exact absurd hKnown (by simp)
    · next content =>
      have hName : k = name := by simpa using List.find?_some hFind
      subst hName
      refine ⟨k, content, load, ?_, List.mem_of_find?_eq_some hFind, hKnown⟩
      unfold variant at hVariant
      split at hVariant
      all_goals cases hVariant
      rfl

/-! ### Fields -/

theorem optional_eq_ok {d : Draft} {a : α} (hNull : d ≠ .null) (h : load d = .ok a) :
    optional load d = .ok (some a) := by
  unfold optional
  split
  · exact absurd rfl hNull
  · rw [h]
    rfl

variable {s : Source} {name : String} {a default : α}

/-- What is required stands in a field. -/
theorem exists_of_require (h : s.require (s.slot name load) = .ok a) :
    ∃ e, s.entries.find? (fun e => e.1 = name) = some e ∧ load e.2 = .ok a := by
  unfold Source.require at h
  split at h
  · next loaded hSlot =>
    obtain ⟨e, hFind, hLoad⟩ := Option.map_eq_some_iff.mp hSlot
    exact ⟨e, hFind, hLoad.trans h⟩
  · exact absurd h (by simp)

/-- What has a default stands in a field, or there is none. -/
theorem exists_or_missing_of_orElse (h : (s.slot name load).orElse default = .ok a) :
    (∃ e, s.entries.find? (fun e => e.1 = name) = some e ∧ load e.2 = .ok a) ∨
      s.entries.find? (fun e => e.1 = name) = none ∧ a = default := by
  unfold Slot.orElse at h
  split at h
  · next loaded hSlot =>
    obtain ⟨e, hFind, hLoad⟩ := Option.map_eq_some_iff.mp hSlot
    exact .inl ⟨e, hFind, hLoad.trans h⟩
  · next hSlot => exact .inr ⟨Option.map_eq_none_iff.mp hSlot, (Except.ok.inj h).symm⟩

theorem Codec.of_require (hCodec : Codec load write Normal)
    (h : s.require (s.slot name load) = .ok a) : Normal a := by
  obtain ⟨e, -, hLoad⟩ := exists_of_require h
  exact hCodec.normal hLoad

theorem Codec.of_orElse (hCodec : Codec load write Normal) (hDefault : Normal default)
    (h : (s.slot name load).orElse default = .ok a) : Normal a := by
  rcases exists_or_missing_of_orElse h with ⟨e, -, hLoad⟩ | ⟨-, rfl⟩
  · exact hCodec.normal hLoad
  · exact hDefault

theorem Codec.of_optional (hCodec : Codec load write Normal) {o : Option α}
    (h : (s.slot name (optional load)).orElse none = .ok o) : ∀ a ∈ o, Normal a := by
  intro a ha
  obtain rfl := Option.mem_def.mp ha
  rcases exists_or_missing_of_orElse h with ⟨e, -, hLoad⟩ | ⟨-, hNone⟩
  · unfold optional at hLoad
    split at hLoad
    · exact absurd hLoad (by simp)
    · obtain ⟨b, hb, hEq⟩ := map_eq_ok_iff.mp hLoad
      obtain rfl := Option.some.inj hEq
      exact hCodec.normal hb
  · exact absurd hNone (by simp)

end Load

end Scenarist
