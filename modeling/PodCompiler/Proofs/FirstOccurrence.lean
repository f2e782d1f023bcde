import PodCompiler.Compile.Files

/-!
# PodCompiler — first occurrences

What is referred to more than once is made into one object: `distinctBy` keeps the first member of
a list for each key. It is used with an empty list of keys already seen; the statements are about
any such list, because that is what the induction needs.

Main results:

* `mem_distinctBy_iff` — the members kept are those that a search for their key finds.
* `map_distinctBy` — the keys kept are the keys of the list without repetitions.
* `nodup_map_distinctBy` — no key is kept twice.
-/

namespace PodCompiler

variable {α β : Type} {key : α → String} {seen : List String} {l : List α}

/-- A member is kept if its key is new and no member before it has the same key. -/
theorem mem_distinctBy_iff {a : α} :
    a ∈ distinctBy key seen l ↔
      key a ∉ seen ∧ l.find? (fun b => key b = key a) = some a := by
  induction l generalizing seen with
  | nil => simp [distinctBy]
  | cons b rest ih =>
    rw [distinctBy, List.find?_cons]
    by_cases hKey : key b = key a
    · -- the search stops at the head, so only the head itself can be meant
      rw [hKey]
      split
      · rename_i hSeen
        simp [ih, hSeen]
      · rename_i hNew
        simp [ih, hNew, eq_comm]
    · have hNe : a ≠ b := fun h => hKey (h ▸ rfl)
      have hKey' : key a ≠ key b := fun h => hKey h.symm
      split
      · simp [ih, hKey]
      · simp [ih, hKey, hNe, hKey']

/-- The keys kept are the new keys of the list without repetitions. -/
theorem map_distinctBy_of_seen :
    (distinctBy key seen l).map key =
      ((l.map key).filter fun k => decide (k ∉ seen)).eraseDups := by
  induction l generalizing seen with
  | nil => rfl
  | cons b rest ih =>
    rw [distinctBy, List.map_cons]
    split
    · rename_i hSeen
      rw [ih, List.filter_cons_of_neg (by simpa using hSeen)]
    · rename_i hNew
      rw [List.map_cons, ih, List.filter_cons_of_pos (by simpa using hNew), List.eraseDups_cons,
        List.filter_filter]
      congr 2
      -- what `eraseDups` takes out of the rest is what the head adds to the keys seen
      apply List.filter_congr
      intro k _
      rw [Bool.eq_iff_iff]
      simp

/-- The keys of the distinct members are the keys of the list without repetitions. -/
theorem map_distinctBy : (distinctBy key [] l).map key = (l.map key).eraseDups := by
  rw [map_distinctBy_of_seen, List.filter_eq_self.mpr]
  intro k _
  simp

/-- No key is kept twice. -/
theorem nodup_map_distinctBy : ((distinctBy key seen l).map key).Nodup := by
  induction l generalizing seen with
  | nil => exact List.nodup_nil
  | cons b rest ih =>
    rw [distinctBy]
    split
    · exact ih
    · rw [List.map_cons, List.nodup_cons]
      refine ⟨?_, ih⟩
      intro hMem
      obtain ⟨a, ha, hKey⟩ := List.mem_map.mp hMem
      have hNew := (mem_distinctBy_iff.mp ha).1
      rw [hKey] at hNew
      exact hNew List.mem_cons_self

/-- Distinct members may be chosen before or after a map. -/
theorem distinctBy_map {f : β → α} {l : List β} :
    distinctBy key seen (l.map f) = (distinctBy (fun b => key (f b)) seen l).map f := by
  induction l generalizing seen with
  | nil => rfl
  | cons b rest ih =>
    rw [List.map_cons, distinctBy, distinctBy]
    split
    · exact ih
    · rw [ih, List.map_cons]

end PodCompiler
