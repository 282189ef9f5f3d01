import Mathlib.Data.List.Basic
import LexicalPath.Registry.Basic

namespace LexicalPath

variable {α : Type}

theorem assoc?_append (key : String) (entries more : List (String × α)) :
    assoc? key (entries ++ more) = (assoc? key entries).or (assoc? key more) := by
  induction entries with
  | nil => rfl
  | cons entry rest ih =>
      rw [List.cons_append, assoc?, assoc?]
      split
      · rfl
      · exact ih

theorem assoc?_singleton (key other : String) (value : α) :
    assoc? key [(other, value)] = if other = key then some value else none := rfl

theorem assoc?_append_singleton_of_ne {key other : String} (h : other ≠ key) (value : α)
    (entries : List (String × α)) :
    assoc? key (entries ++ [(other, value)]) = assoc? key entries := by
  rw [assoc?_append, assoc?_singleton, if_neg h, Option.or_none]

theorem assoc?_append_singleton_self {key : String} {entries : List (String × α)}
    (h : assoc? key entries = none) (value : α) :
    assoc? key (entries ++ [(key, value)]) = some value := by
  rw [assoc?_append, assoc?_singleton, if_pos rfl, h, Option.none_or]

theorem assoc?_dropKey_self (key : String) (entries : List (String × α)) :
    assoc? key (dropKey key entries) = none := by
  induction entries with
  | nil => rfl
  | cons entry rest ih =>
      by_cases h : entry.1 = key
      · rwa [dropKey, List.filter_cons_of_neg (by simpa using h)]
      · rw [dropKey, List.filter_cons_of_pos (by simpa using h), assoc?, if_neg h]
        exact ih

theorem assoc?_dropKey_of_ne {key other : String} (h : other ≠ key) (entries : List (String × α)) :
    assoc? key (dropKey other entries) = assoc? key entries := by
  induction entries with
  | nil => rfl
  | cons entry rest ih =>
      by_cases hentry : entry.1 = other
      · rw [dropKey, List.filter_cons_of_neg (by simpa using hentry), assoc?,
          if_neg (by rwa [hentry])]
        exact ih
      · rw [dropKey, List.filter_cons_of_pos (by simpa using hentry), assoc?, assoc?]
        split
        · rfl
        · exact ih

theorem assoc?_isSome_iff (key : String) (entries : List (String × α)) :
    (assoc? key entries).isSome = true ↔ key ∈ entries.map (·.1) := by
  induction entries with
  | nil => simp [assoc?]
  | cons entry rest ih =>
      rw [assoc?, List.map_cons, List.mem_cons]
      by_cases h : entry.1 = key
      · simp [h]
      · rw [if_neg h, ih]
        exact ⟨Or.inr, fun hkey => hkey.resolve_left (Ne.symm h)⟩

theorem map_fst_dropKey (key : String) (entries : List (String × α)) :
    (dropKey key entries).map (·.1) = (entries.map (·.1)).filter (· != key) := by
  rw [dropKey, List.filter_map]
  rfl

end LexicalPath
