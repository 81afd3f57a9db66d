import Mathlib.Data.List.Induction
import Mathlib.Data.List.Nodup
import Mathlib.Data.String.Basic
import Scenarist.Entries

/-!
# Entries in ascending order

A list of entries is looked at through `find?`.  Entering a value changes what is found under its
name and nothing else, and it keeps the names in ascending order.

* `find?_enter`, `ascending_enter`: one value more.
* `find?_ofList`, `ascending_ofList`: the entries of a list; of several values of one name the last
  is found.
* `eq_of_find?_eq`: entries in ascending order are determined by what is found in them.
* `ofList_perm`, `ofList_of_ascending`: when no name is repeated no entry is lost, and entries that
  are in order stay so.
-/

namespace Scenarist.Entries

variable {α : Type} {name : String} {entries : List (String × α)}

/-- The names ascend, so no two entries have the same one. -/
def Ascending (entries : List (String × α)) : Prop := (names entries).Pairwise (· < ·)

instance (entries : List (String × α)) : Decidable (Ascending entries) :=
  inferInstanceAs (Decidable ((names entries).Pairwise (· < ·)))

/-! ### What is found -/

theorem find?_cons (key : String) (e : String × α) (entries : List (String × α)) :
    find? key (e :: entries) = if e.1 = key then some e.2 else find? key entries := by
  unfold find?
  by_cases h : e.1 = key <;> simp [h]

theorem mem_names_iff : name ∈ names entries ↔ (find? name entries).isSome := by
  induction entries with
  | nil => simp [names, find?]
  | cons e entries ih =>
    rw [find?_cons, names, List.map_cons, List.mem_cons, ← names, ih]
    by_cases h : e.1 = name
    · simp [h]
    · simp [h, Ne.symm h]

theorem find?_enter (key name : String) (value : α) (entries : List (String × α)) :
    find? key (enter name value entries) = if name = key then some value else find? key entries := by
  induction entries with
  | nil => rw [enter, find?_cons]
  | cons e entries ih =>
    obtain ⟨n, v⟩ := e
    rw [enter]
    split
    · rw [find?_cons]
    · split
      · next hEq =>
        subst hEq
        rw [find?_cons, find?_cons]
        split <;> rfl
      · next hNe =>
        rw [find?_cons, find?_cons, ih]
        by_cases hKey : n = key
        · subst hKey
          rw [if_pos rfl, if_pos rfl, if_neg hNe]
        · rw [if_neg hKey, if_neg hKey]

/-- Of several values of one name the last is found. -/
theorem find?_ofList (key : String) (entries : List (String × α)) :
    find? key (ofList entries) = find? key entries.reverse := by
  induction entries using List.reverseRecOn with
  | nil => rfl
  | append_singleton entries e ih =>
    rw [ofList, List.foldl_append, List.foldl_cons, List.foldl_nil, find?_enter,
      List.reverse_append, List.reverse_singleton, List.singleton_append, find?_cons, ← ih]
    rfl

theorem find?_ofList_eq_some_iff {value : α} : find? name (ofList entries) = some value ↔
    ∃ front back, entries = front ++ (name, value) :: back ∧ name ∉ names back := by
  rw [find?_ofList, find?, Option.map_eq_some_iff]
  simp only [List.find?_eq_some_iff_append]
  constructor
  · rintro ⟨e, ⟨hName, behind, front, hSplit, hBehind⟩, rfl⟩
    obtain rfl : e.1 = name := of_decide_eq_true hName
    refine ⟨front.reverse, behind.reverse, ?_, fun hMem => ?_⟩
    · rw [← List.reverse_inj, hSplit]
      simp
    · obtain ⟨e', he', hSame⟩ := List.mem_map.mp hMem
      have hOther := hBehind e' (List.mem_reverse.mp he')
      simp [hSame] at hOther
  · rintro ⟨front, back, rfl, hBack⟩
    refine ⟨(name, value), ⟨by simp, back.reverse, front.reverse, by simp, fun e he => ?_⟩, rfl⟩
    have hOther : e.1 ≠ name := fun hEq =>
      hBack (List.mem_map.mpr ⟨e, List.mem_reverse.mp he, hEq⟩)
    simp [hOther]

theorem mem_names_ofList_iff : name ∈ names (ofList entries) ↔ name ∈ names entries := by
  rw [mem_names_iff, find?_ofList, ← mem_names_iff, names, List.map_reverse, List.mem_reverse]
  rfl

/-! ### The order -/

theorem mem_names_enter {key : String} {value : α} (h : key ∈ names (enter name value entries)) :
    key = name ∨ key ∈ names entries := by
  rw [mem_names_iff, find?_enter] at h
  split at h
  · next hEq => exact .inl hEq.symm
  · exact .inr (mem_names_iff.mpr h)

theorem ascending_enter (h : Ascending entries) (name : String) (value : α) :
    Ascending (enter name value entries) := by
  induction entries with
  | nil => exact List.pairwise_singleton _ _
  | cons e entries ih =>
    obtain ⟨n, v⟩ := e
    obtain ⟨hFirst, hRest⟩ := List.pairwise_cons.mp h
    rw [enter]
    split
    · next hLt =>
      refine List.pairwise_cons.mpr ⟨fun m hm => ?_, h⟩
      rcases List.mem_cons.mp hm with rfl | hm
      · exact hLt
      · exact String.lt_trans hLt (hFirst m hm)
    · next hNotLt =>
      split
      · next hEq => exact List.pairwise_cons.mpr ⟨fun m hm => hEq ▸ hFirst m hm, hRest⟩
      · next hNe =>
        refine List.pairwise_cons.mpr ⟨fun m hm => ?_, ih hRest⟩
        rcases mem_names_enter hm with rfl | hm
        · exact lt_of_le_of_ne (not_lt.mp hNotLt) (Ne.symm hNe)
        · exact hFirst m hm

theorem ascending_ofList (entries : List (String × α)) : Ascending (ofList entries) := by
  induction entries using List.reverseRecOn with
  | nil => exact List.Pairwise.nil
  | append_singleton entries e ih =>
    rw [ofList, List.foldl_append, List.foldl_cons, List.foldl_nil]
    exact ascending_enter ih e.1 e.2

/-! ### Equality -/

theorem find?_eq_some_iff (h : (names entries).Nodup) {value : α} :
    find? name entries = some value ↔ (name, value) ∈ entries := by
  induction entries with
  | nil => simp [find?]
  | cons e entries ih =>
    obtain ⟨n, v⟩ := e
    obtain ⟨hFirst, hRest⟩ := List.nodup_cons.mp h
    rw [find?_cons, List.mem_cons]
    by_cases hName : n = name
    · subst hName
      have hOther : (n, value) ∉ entries := fun hMem => hFirst (List.mem_map.mpr ⟨_, hMem, rfl⟩)
      simp [hOther, eq_comm]
    · simp [hName, Ne.symm hName, ih hRest]

theorem Ascending.nodup (h : Ascending entries) : (names entries).Nodup :=
  List.Pairwise.imp String.ne_of_lt h

theorem Ascending.eq_of_perm {entries' : List (String × α)} (h : Ascending entries)
    (h' : Ascending entries') (hPerm : entries.Perm entries') : entries = entries' := by
  have hLt : ∀ {l : List (String × α)}, Ascending l → l.Pairwise fun e e' => e.1 < e'.1 :=
    fun h => List.pairwise_map.mp h
  exact hPerm.eq_of_pairwise (fun e e' _ _ hlt hgt => absurd hgt (String.lt_asymm hlt))
    (hLt h) (hLt h')

/-- Entries in ascending order are determined by what is found in them. -/
theorem eq_of_find?_eq {entries' : List (String × α)} (h : Ascending entries)
    (h' : Ascending entries') (hSame : ∀ name, find? name entries = find? name entries') :
    entries = entries' := by
  refine h.eq_of_perm h' ((List.perm_ext_iff_of_nodup (List.Nodup.of_map _ h.nodup)
    (List.Nodup.of_map _ h'.nodup)).mpr fun e => ?_)
  rw [← find?_eq_some_iff h.nodup, ← find?_eq_some_iff h'.nodup, hSame]

/-- **When no name is repeated no entry is lost.** -/
theorem ofList_perm (h : (names entries).Nodup) : (ofList entries).Perm entries := by
  have hSorted := (ascending_ofList entries).nodup
  have hReverse : (names entries.reverse).Nodup := by
    rw [names, List.map_reverse, List.nodup_reverse]
    exact h
  refine (List.perm_ext_iff_of_nodup (List.Nodup.of_map _ hSorted)
    (List.Nodup.of_map _ h)).mpr fun e => ?_
  rw [← find?_eq_some_iff hSorted, find?_ofList, find?_eq_some_iff hReverse, List.mem_reverse]

/-- Entries in ascending order stay as they are. -/
theorem ofList_of_ascending (h : Ascending entries) : ofList entries = entries :=
  (ascending_ofList entries).eq_of_perm h (ofList_perm h.nodup)

end Scenarist.Entries
