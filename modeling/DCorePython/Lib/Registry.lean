import Mathlib.Data.List.Induction
import Mathlib.Data.List.Dedup

/-!
# Tables of names

Registering a name a second time replaces its first registration, so a name
stands for its last row. In a table without repeated names every row is found
under its own name.
-/

namespace Registry

variable {α : Type}

def find? (rows : List (String × α)) (name : String) : Option α :=
  (rows.reverse.find? fun row => row.1 = name).map Prod.snd

def names (rows : List (String × α)) : List String := (rows.map Prod.fst).dedup

theorem find?_concat (rows : List (String × α)) (row : String × α) (name : String) :
    find? (rows ++ [row]) name = if row.1 = name then some row.2 else find? rows name := by
  by_cases h : row.1 = name <;> simp [find?, h]

theorem mem_of_find? {rows : List (String × α)} {name : String} {a : α}
    (h : find? rows name = some a) : (name, a) ∈ rows := by
  obtain ⟨row, hrow, rfl⟩ := Option.map_eq_some_iff.mp h
  have hname : row.1 = name := by simpa using List.find?_some hrow
  rw [← hname]
  exact List.mem_reverse.mp (List.mem_of_find?_eq_some hrow)

theorem mem_names_iff {rows : List (String × α)} {name : String} :
    name ∈ names rows ↔ ∃ a, find? rows name = some a := by
  unfold names
  rw [List.mem_dedup, List.mem_map, find?]
  refine ⟨?_, ?_⟩
  · intro h
    obtain ⟨row, hrow, rfl⟩ := h
    have h : (rows.reverse.find? fun r => r.1 = row.1).isSome :=
      List.find?_isSome.mpr ⟨row, List.mem_reverse.mpr hrow, by simp⟩
    obtain ⟨r, hr⟩ := Option.isSome_iff_exists.mp h
    exact ⟨r.2, by rw [hr]; rfl⟩
  · intro h
    obtain ⟨a, ha⟩ := h
    exact ⟨(name, a), mem_of_find? ha, rfl⟩

theorem find?_of_mem {rows : List (String × α)} (hn : (rows.map Prod.fst).Nodup)
    {row : String × α} (h : row ∈ rows) : find? rows row.1 = some row.2 := by
  induction rows using List.reverseRecOn with
  | nil => cases h
  | append_singleton rows r ih =>
    rw [List.map_append, List.nodup_append] at hn
    rw [find?_concat]
    rcases List.mem_append.mp h with h | h
    · have hne : r.1 ≠ row.1 :=
        (hn.2.2 row.1 (List.mem_map_of_mem h) r.1 (by simp)).symm
      rw [if_neg hne, ih hn.1 h]
    · rw [List.mem_singleton.mp h, if_pos rfl]

end Registry
