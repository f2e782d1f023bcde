/-!
# PodCompiler — sorted maps

Maps from texts to values, held as the list of their entries in ascending order of the keys, so
that two maps with the same entries are the same map. Keys are ordered by their characters' code
points.

* `SortedMap.insert_get` and `SortedMap.insert_get_ne` say what an insertion changes.
* `SortedMap.get_ofList` says which entry of a list is found in its map.
* `SortedMap.entries_insert_of_last` says that inserting past the last key appends an entry.
* `SortedMap.get_eq_some_iff` says that what is found under a key is what is stored there.
-/

namespace PodCompiler

/-- Whether the keys of a list of entries ascend. -/
def Ascending (entries : List (String × β)) : Prop :=
  entries.Pairwise fun a b => a.1 < b.1

/-- A map whose entries ascend by key. -/
structure SortedMap (β : Type) where
  /-- The entries in ascending order of their keys. -/
  entries : List (String × β)
  ascending : Ascending entries

namespace SortedMap

variable {β : Type}

instance [DecidableEq β] : DecidableEq (SortedMap β) := fun a b =>
  if h : a.entries = b.entries then
    isTrue (by cases a; cases b; cases h; rfl)
  else isFalse fun hab => h (congrArg entries hab)

@[ext] theorem ext {a b : SortedMap β} (h : a.entries = b.entries) : a = b := by
  cases a; cases b; cases h; rfl

/-- The map without entries. -/
def empty : SortedMap β := ⟨[], List.Pairwise.nil⟩

instance : Inhabited (SortedMap β) := ⟨empty⟩

/-- Puts an entry at its place in an ascending list; an entry with the same key is replaced. -/
def place (key : String) (value : β) : List (String × β) → List (String × β)
  | [] => [(key, value)]
  | e :: rest =>
    if key < e.1 then (key, value) :: e :: rest
    else if key = e.1 then (key, value) :: rest
    else e :: place key value rest

theorem mem_place {key : String} {value : β} {e : String × β} {l : List (String × β)}
    (h : e ∈ place key value l) : e = (key, value) ∨ e ∈ l := by
  induction l with
  | nil => simpa [place] using h
  | cons hd tl ih =>
    rw [place] at h
    split at h
    · simpa using h
    · split at h
      · rcases List.mem_cons.1 h with h | h
        · exact .inl h
        · exact .inr (List.mem_cons_of_mem _ h)
      · rcases List.mem_cons.1 h with h | h
        · exact .inr (h ▸ List.mem_cons_self)
        · rcases ih h with h | h
          · exact .inl h
          · exact .inr (List.mem_cons_of_mem _ h)

theorem place_ascending (key : String) (value : β) {l : List (String × β)} (h : Ascending l) :
    Ascending (place key value l) := by
  induction l with
  | nil => exact List.pairwise_singleton _ _
  | cons hd tl ih =>
    rw [Ascending, List.pairwise_cons] at h
    rw [Ascending, place]
    split
    · rename_i hlt
      refine List.pairwise_cons.2 ⟨fun e he => ?_, List.pairwise_cons.2 h⟩
      rcases List.mem_cons.1 he with rfl | he
      · exact hlt
      · exact String.lt_trans hlt (h.1 e he)
    · split
      · rename_i heq
        exact List.pairwise_cons.2 ⟨fun e he => heq ▸ h.1 e he, h.2⟩
      · rename_i hnlt hne
        refine List.pairwise_cons.2 ⟨fun e he => ?_, ih h.2⟩
        rcases mem_place he with rfl | he
        · -- the new key is neither below nor equal to the head, hence above it
          have hle : hd.1 ≤ key := String.not_lt.1 hnlt
          exact Decidable.byContradiction fun hcon =>
            hne (String.le_antisymm (String.not_lt.1 hcon) hle)
        · exact h.1 e he

/-- The map with one entry added, or replaced if its key is present. -/
def insert (m : SortedMap β) (key : String) (value : β) : SortedMap β :=
  ⟨place key value m.entries, place_ascending key value m.ascending⟩

/-- The value stored under a key. -/
def get? (m : SortedMap β) (key : String) : Option β :=
  (m.entries.find? fun e => e.1 = key).map (·.2)

/-- The map of a list of entries; of entries with the same key the last is kept. -/
def ofList (entries : List (String × β)) : SortedMap β :=
  entries.foldl (fun m e => m.insert e.1 e.2) empty

/-- The map without the entries whose key is refused. -/
def filterKeys (m : SortedMap β) (keep : String → Bool) : SortedMap β :=
  ⟨m.entries.filter fun e => keep e.1, m.ascending.filter _⟩

/-- Whether the map has no entries. -/
def isEmpty (m : SortedMap β) : Bool := m.entries.isEmpty

/-! ## Looking up -/

/-- A search for a key in an ascending list finds every entry of that key. -/
theorem find_eq_of_mem {l : List (String × β)} (hAscending : Ascending l) {e : String × β}
    (he : e ∈ l) : l.find? (fun d => d.1 = e.1) = some e := by
  induction l with
  | nil => cases he
  | cons hd tl ih =>
    rw [Ascending, List.pairwise_cons] at hAscending
    rcases List.mem_cons.1 he with rfl | htl
    · exact List.find?_cons_of_pos (by simp)
    · -- the keys behind the head are above its own
      have hlt : hd.1 < e.1 := hAscending.1 e htl
      have hne : hd.1 ≠ e.1 := fun heq => String.lt_irrefl _ (heq ▸ hlt)
      rw [List.find?_cons_of_neg (by simpa using hne)]
      exact ih hAscending.2 htl

/-- What is found under a key is what is stored there. -/
theorem get_eq_some_iff (m : SortedMap β) {key : String} {value : β} :
    m.get? key = some value ↔ (key, value) ∈ m.entries := by
  constructor
  · intro h
    obtain ⟨e, he, hvalue⟩ := Option.map_eq_some_iff.1 h
    have hkey : e.1 = key := by simpa using List.find?_some he
    rw [← hkey, ← hvalue]
    exact List.mem_of_find?_eq_some he
  · intro h
    have hfind := find_eq_of_mem m.ascending h
    rw [get?, hfind]
    rfl

/-! ## What an insertion changes -/

theorem find_place_self (key : String) (value : β) (l : List (String × β)) :
    (place key value l).find? (fun e => e.1 = key) = some (key, value) := by
  induction l with
  | nil => simp [place]
  | cons hd tl ih =>
    rw [place]
    split
    · simp
    · split
      · simp
      · rename_i hne
        rw [List.find?_cons_of_neg (by simpa using fun h => hne h.symm), ih]

theorem find_place_ne {key other : String} (hne : key ≠ other) (value : β)
    (l : List (String × β)) :
    (place key value l).find? (fun e => e.1 = other) = l.find? (fun e => e.1 = other) := by
  induction l with
  | nil => simp [place, hne]
  | cons hd tl ih =>
    rw [place]
    split
    · rw [List.find?_cons_of_neg (by simpa using hne)]
    · split
      · rename_i heq
        rw [List.find?_cons_of_neg (by simpa using hne),
          List.find?_cons_of_neg (by simpa using heq ▸ hne)]
      · simp only [List.find?_cons, ih]

/-- An inserted entry is found. -/
@[simp] theorem insert_get (m : SortedMap β) (key : String) (value : β) :
    (m.insert key value).get? key = some value := by
  simp [insert, get?, find_place_self]

/-- An insertion leaves every other key alone. -/
theorem insert_get_ne (m : SortedMap β) {key other : String} (hne : key ≠ other) (value : β) :
    (m.insert key value).get? other = m.get? other := by
  simp [insert, get?, find_place_ne hne]

theorem ofList_snoc (entries : List (String × β)) (e : String × β) :
    ofList (entries ++ [e]) = (ofList entries).insert e.1 e.2 := by
  rw [ofList, List.foldl_append, ofList]
  rfl

/-- Of entries with the same key the last is found. -/
theorem get_ofList (entries : List (String × β)) (key : String) :
    (ofList entries).get? key = (entries.reverse.find? fun e => e.1 = key).map (·.2) := by
  -- the last entry is inserted last, and stands in front of the others when they are reversed
  generalize hReverse : entries.reverse = l
  obtain rfl := List.reverse_eq_iff.1 hReverse
  clear hReverse
  induction l with
  | nil => rfl
  | cons e l ih =>
    rw [List.reverse_cons, ofList_snoc, List.find?_cons]
    by_cases hkey : e.1 = key
    · rw [decide_eq_true hkey, ← hkey, insert_get]
      rfl
    · rw [decide_eq_false hkey, insert_get_ne _ hkey, ih]

/-- An entry past the last key goes to the end. -/
theorem entries_insert_of_last (m : SortedMap β) (key : String) (value : β)
    (h : ∀ e ∈ m.entries, e.1 < key) :
    (m.insert key value).entries = m.entries ++ [(key, value)] := by
  change place key value m.entries = m.entries ++ [(key, value)]
  generalize m.entries = l at h
  induction l with
  | nil => rfl
  | cons hd tl ih =>
    have hhd : hd.1 < key := h hd List.mem_cons_self
    rw [place, if_neg (String.lt_asymm hhd), if_neg, ih fun e he => h e (List.mem_cons_of_mem _ he)]
    · rfl
    · intro heq
      exact String.lt_irrefl _ (heq ▸ hhd)

end SortedMap
end PodCompiler
