import PodCompiler.Compile.Files
import Mathlib.Data.List.DropRight

/-!
# PodCompiler — where a file is placed

A file is shown under the last element of the declared path, in a volume that is mounted on the
directory before it. Whether the two put the file where it was declared is a question about the
elements of paths: empty elements and single points say nothing, so two paths mean one place if the
other elements agree.

Every path with something other than slashes in it has a last element, something before it that is
empty or ends with a slash, and slashes behind it. `Split` says so, and both `base` and `parent` are
computed from it. They part where slashes stand behind the last element: `base` passes over them,
while `parent` cuts at the last of them and keeps the element that it should have taken off.

Main results:

* `pieces_append_slash` — a slash cuts a path in two.
* `base_of_split`, `parent_of_split` — the last element of a path, and what stands before it.
* `placed_iff` — when a file is placed where it was declared.
-/

namespace PodCompiler

namespace SlashPath

/-- The elements of a path that say something: neither empty nor a single point. -/
def elements (path : List Char) : List (List Char) :=
  (pieces path).filter fun piece => piece ≠ [] ∧ piece ≠ ['.']

/-! ## Pieces and elements -/

theorem exists_pieces (path : List Char) : ∃ piece more, pieces path = piece :: more := by
  induction path with
  | nil => exact ⟨[], [], rfl⟩
  | cons c rest ih =>
    obtain ⟨piece, more, hPieces⟩ := ih
    by_cases hSlash : c = '/'
    · exact ⟨[], pieces rest, by rw [pieces, if_pos hSlash]⟩
    · exact ⟨c :: piece, more, by rw [pieces, if_neg hSlash, hPieces]⟩

/-- A slash cuts a path in two. -/
theorem pieces_append_slash (a b : List Char) : pieces (a ++ '/' :: b) = pieces a ++ pieces b := by
  induction a with
  | nil => rfl
  | cons c rest ih =>
    obtain ⟨piece, more, hPieces⟩ := exists_pieces rest
    by_cases hSlash : c = '/'
    · rw [List.cons_append, pieces, pieces, if_pos hSlash, if_pos hSlash, ih]
      rfl
    · rw [List.cons_append, pieces, pieces, if_neg hSlash, if_neg hSlash, ih, hPieces]
      rfl

theorem pieces_of_noSlash {name : List Char} (hName : '/' ∉ name) : pieces name = [name] := by
  induction name with
  | nil => rfl
  | cons c rest ih =>
    rw [List.mem_cons, not_or] at hName
    rw [pieces, if_neg (Ne.symm hName.1), ih hName.2]

@[simp] theorem elements_append_slash (a b : List Char) :
    elements (a ++ '/' :: b) = elements a ++ elements b := by
  rw [elements, pieces_append_slash, List.filter_append]
  rfl

@[simp] theorem elements_nil : elements [] = [] := rfl

/-- Slashes at the end of a path add no element. -/
theorem elements_append_slashes (a : List Char) (k : Nat) :
    elements (a ++ List.replicate k '/') = elements a := by
  induction k with
  | zero => rw [List.replicate_zero, List.append_nil]
  | succ k ih =>
    rw [List.replicate_succ', ← List.append_assoc, elements_append_slash, ih, elements_nil,
      List.append_nil]

/-- A name without slashes is its own only element, unless it is a single point. -/
theorem elements_name {name : List Char} (hName : '/' ∉ name) (hNil : name ≠ []) :
    elements name = if name = ['.'] then [] else [name] := by
  rw [elements, pieces_of_noSlash hName]
  by_cases hPoint : name = ['.']
  · simp [hPoint]
  · simp [hPoint, hNil]

/-! ## Slashes at the end -/

/-- Trimming drops slashes from the right. -/
theorem trimEnd_eq (path : List Char) : trimEnd path = path.rdropWhile (· = '/') := rfl

theorem trimEnd_append_slashes (path : List Char) (k : Nat) :
    trimEnd (path ++ List.replicate k '/') = trimEnd path := by
  induction k with
  | zero => rw [List.replicate_zero, List.append_nil]
  | succ k ih =>
    rw [List.replicate_succ', ← List.append_assoc, trimEnd_eq,
      List.rdropWhile_concat_pos _ _ _ (by simp)]
    exact ih

/-- A path that ends with something else has nothing to be trimmed. -/
theorem trimEnd_eq_self {path : List Char} (hLast : path.getLast? ≠ some '/') :
    trimEnd path = path := by
  rw [trimEnd_eq, List.rdropWhile_eq_self_iff]
  intro hNil hSlash
  rw [List.getLast?_eq_getLast_of_ne_nil hNil] at hLast
  exact hLast (congrArg some (by simpa using hSlash))

/-- Slashes at the end are all that trimming takes away. -/
theorem exists_trimEnd (path : List Char) : ∃ k, path = trimEnd path ++ List.replicate k '/' := by
  have hSlashes : ∀ c ∈ path.rtakeWhile (· = '/'), c = '/' := by
    intro c hc
    simpa using List.mem_rtakeWhile_imp hc
  refine ⟨(path.rtakeWhile (· = '/')).length, ?_⟩
  rw [← List.eq_replicate_of_mem hSlashes, trimEnd_eq, List.rdropWhile_append_rtakeWhile]

theorem elements_trimEnd (path : List Char) : elements (trimEnd path) = elements path := by
  obtain ⟨k, hPath⟩ := exists_trimEnd path
  conv => rhs; rw [hPath]
  rw [elements_append_slashes]

/-! ## The last element -/

/-- A path cut around its last element: what stands before it is empty or ends with a slash, and
behind it there are only slashes. -/
structure Split (path before name : List Char) (k : Nat) : Prop where
  eq : path = before ++ name ++ List.replicate k '/'
  ne_nil : name ≠ []
  noSlash : '/' ∉ name
  before : before = [] ∨ ∃ front, before = front ++ ['/']

/-- A path with a slash in it is cut at its last one. -/
theorem exists_lastSlash {path : List Char} (hSlash : '/' ∈ path) :
    ∃ front name, path = front ++ '/' :: name ∧ '/' ∉ name := by
  obtain ⟨back, front, hReverse, hBack⟩ :=
    List.eq_append_cons_of_mem (List.mem_reverse.mpr hSlash)
  refine ⟨front.reverse, back.reverse, ?_, fun hMem => hBack (List.mem_reverse.mp hMem)⟩
  rw [← List.reverse_reverse path, hReverse]
  simp

/-- A path with something other than slashes in it has a last element. -/
theorem exists_split {path : List Char} (hName : ∃ c ∈ path, c ≠ '/') :
    ∃ before name k, Split path before name k := by
  obtain ⟨k, hTrim⟩ := exists_trimEnd path
  -- without the slashes at its end something is left of the path, and no slash at the end of that
  have hNil : trimEnd path ≠ [] := by
    rw [Ne, trimEnd_eq, List.rdropWhile_eq_nil_iff]
    obtain ⟨c, hc, hNot⟩ := hName
    exact fun hAll => hNot (by simpa using hAll c hc)
  have hLast : (trimEnd path).getLast hNil ≠ '/' :=
    fun hSlash => List.rdropWhile_last_not (· = '/') path hNil (decide_eq_true hSlash)
  generalize trimEnd path = trimmed at hTrim hNil hLast
  by_cases hSlash : '/' ∈ trimmed
  · obtain ⟨front, name, rfl, hNoSlash⟩ := exists_lastSlash hSlash
    -- the last character is no slash, so that something stands behind the last slash
    have hName : name ≠ [] := by
      rintro rfl
      simp at hLast
    exact ⟨front ++ ['/'], name, k, by simpa using hTrim, hName, hNoSlash, Or.inr ⟨front, rfl⟩⟩
  · exact ⟨[], trimmed, k, hTrim, hNil, hSlash, Or.inl rfl⟩

variable {path before name : List Char} {k : Nat}

/-- What stands before the slashes at the end does not end with one. -/
theorem Split.getLast (hSplit : Split path before name k) :
    (before ++ name).getLast? ≠ some '/' := by
  rw [List.getLast?_append_of_ne_nil _ hSplit.ne_nil]
  exact fun hLast => hSplit.noSlash (List.mem_of_getLast? hLast)

/-- A path ends with a slash exactly if there are slashes behind its last element. -/
theorem Split.getLast?_iff (hSplit : Split path before name k) :
    path.getLast? ≠ some '/' ↔ k = 0 := by
  have hLast := hSplit.getLast
  rw [hSplit.eq]
  cases k with
  | zero => simpa using hLast
  | succ k => simp [List.replicate_succ']

theorem Split.trimEnd (hSplit : Split path before name k) : trimEnd path = before ++ name := by
  rw [hSplit.eq, trimEnd_append_slashes, trimEnd_eq_self hSplit.getLast]

/-- A name is passed over on the way back to the slash before it. -/
theorem ne_slash_of_mem (hName : '/' ∉ name) : ∀ c ∈ name.reverse, decide (c ≠ '/') = true := by
  intro c hc
  simpa using fun hSlash : c = '/' => hName (hSlash ▸ List.mem_reverse.mp hc)

theorem reverse_append_slash (front name : List Char) :
    (front ++ '/' :: name).reverse = name.reverse ++ '/' :: front.reverse := by
  simp

theorem afterLastSlash_of_noSlash (hName : '/' ∉ name) : afterLastSlash name = name := by
  rw [afterLastSlash, List.takeWhile_eq_self_iff.mpr (ne_slash_of_mem hName), List.reverse_reverse]

theorem afterLastSlash_append_slash (front : List Char) (hName : '/' ∉ name) :
    afterLastSlash (front ++ '/' :: name) = name := by
  rw [afterLastSlash, reverse_append_slash,
    List.takeWhile_append_of_pos (ne_slash_of_mem hName),
    List.takeWhile_cons_of_neg (by simp), List.append_nil, List.reverse_reverse]

/-- The last element is what `base` finds. -/
theorem base_of_split (hSplit : Split path before name k) : base path = name := by
  have hPath : path ≠ [] := by
    rw [hSplit.eq]
    simp [hSplit.ne_nil]
  have hName : afterLastSlash (before ++ name) = name := by
    rcases hSplit.before with rfl | ⟨front, rfl⟩
    · exact afterLastSlash_of_noSlash hSplit.noSlash
    · rw [List.append_assoc]
      exact afterLastSlash_append_slash front hSplit.noSlash
  unfold base
  rw [if_neg hPath, hSplit.trimEnd, hName, if_neg hSplit.ne_nil]

theorem parent_of_noSlash (hName : '/' ∉ name) : parent name = ['.'] := by
  unfold parent
  rw [List.dropWhile_eq_nil_iff.mpr (ne_slash_of_mem hName)]

/-- What stands before the last slash, where there is one. -/
theorem parent_append_slash (front : List Char) (hName : '/' ∉ name) :
    parent (front ++ '/' :: name) = if trimEnd front = [] then ['/'] else trimEnd front := by
  have hDrop : (front ++ '/' :: name).reverse.dropWhile (· ≠ '/') = '/' :: front.reverse := by
    rw [reverse_append_slash, List.dropWhile_append_of_pos (ne_slash_of_mem hName),
      List.dropWhile_cons_of_neg (by simp)]
  unfold parent
  rw [hDrop]
  show (if trimEnd front.reverse.reverse = [] then _ else trimEnd front.reverse.reverse) = _
  rw [List.reverse_reverse]

/-- A path that ends with slashes keeps its last element: the slash that `parent` cuts at is the
one at the very end. -/
theorem parent_of_trailing (hSplit : Split path before name (k + 1)) :
    parent path = before ++ name := by
  -- nothing stands behind the last slash
  have hPath : path = (before ++ name ++ List.replicate k '/') ++ '/' :: [] := by
    rw [hSplit.eq, List.replicate_succ', ← List.append_assoc]
  have hTrim : SlashPath.trimEnd (before ++ name ++ List.replicate k '/') = before ++ name := by
    rw [trimEnd_append_slashes, trimEnd_eq_self hSplit.getLast]
  have hNil : before ++ name ≠ [] := List.append_ne_nil_of_right_ne_nil _ hSplit.ne_nil
  rw [hPath, parent_append_slash _ List.not_mem_nil, hTrim, if_neg hNil]

/-! ## Directory and name together -/

/-- The elements before the last one are those of the directory, if no slash stands at the end. -/
theorem elements_parent (front : List Char) (hName : '/' ∉ name) :
    elements (parent (front ++ '/' :: name)) = elements front := by
  rw [parent_append_slash front hName, ← elements_trimEnd front]
  split
  next hRoot => rw [hRoot]; rfl
  next => rfl

/-- The directory and the name of a file joined again. -/
def rejoined (path : List Char) : List Char := parent path ++ '/' :: base path

/-- Joined again, a path has its last element twice if slashes stand at its end. -/
theorem elements_rejoined (hSplit : Split path before name k) :
    elements (rejoined path) = elements path ++ if k = 0 then [] else elements name := by
  have hPath : elements path = elements (before ++ name) := by
    rw [hSplit.eq, elements_append_slashes]
  rw [rejoined, elements_append_slash, base_of_split hSplit, hPath]
  cases k with
  | zero =>
    obtain rfl : path = before ++ name := by
      rw [hSplit.eq, List.replicate_zero, List.append_nil]
    rw [if_pos rfl, List.append_nil]
    rcases hSplit.before with rfl | ⟨front, rfl⟩
    · -- a name by itself stands in the directory that says nothing
      rw [List.nil_append, parent_of_noSlash hSplit.noSlash]
      rfl
    · rw [List.append_assoc, List.singleton_append, elements_append_slash,
        elements_parent front hSplit.noSlash]
  | succ k =>
    -- the directory is the path itself
    rw [if_neg (Nat.succ_ne_zero k), parent_of_trailing hSplit]

/-- A path is absolute exactly if its directory is. -/
theorem head?_parent (path : List Char) :
    (parent path).head? = some '/' ↔ path.head? = some '/' := by
  by_cases hSlash : '/' ∈ path
  · obtain ⟨front, name, rfl, hName⟩ := exists_lastSlash hSlash
    obtain ⟨k, hFront⟩ := exists_trimEnd front
    rw [parent_append_slash front hName]
    cases hTrim : trimEnd front with
    | nil =>
      -- nothing but slashes stands in front
      rw [hTrim, List.nil_append] at hFront
      rw [hFront]
      cases k with
      | zero => simp
      | succ k => simp [List.replicate_succ]
    | cons c rest =>
      rw [hTrim] at hFront
      rw [hFront]
      simp
  · rw [parent_of_noSlash hSlash]
    have hHead : path.head? ≠ some '/' := fun hHead => hSlash (List.mem_of_head? hHead)
    simp [hHead]

end SlashPath

/-! ## Files -/

/-- Where the container sees a file: under its name in the directory of the mount. -/
def FileRef.location (ref : FileRef) : List Char :=
  ref.directory.toList ++ '/' :: ref.fileName.toList

/-- **Placement.** A file whose path names something is seen where it was declared exactly if no
slash stands at the end of the path, or the last element is a single point, which names nothing
once more. The directory is absolute exactly if the path is. -/
theorem placed_iff (ref : FileRef) (hName : ∃ c ∈ ref.path.toList, c ≠ '/') :
    (SlashPath.elements ref.location = SlashPath.elements ref.path.toList ↔
        (ref.path.toList.getLast? ≠ some '/' ∨ ref.fileName = ".")) ∧
      (ref.directory.toList.head? = some '/' ↔ ref.path.toList.head? = some '/') := by
  have hDirectory : ref.directory.toList = SlashPath.parent ref.path.toList := String.toList_ofList
  have hFile : ref.fileName.toList = SlashPath.base ref.path.toList := String.toList_ofList
  refine ⟨?_, by rw [hDirectory]; exact SlashPath.head?_parent _⟩
  obtain ⟨before, name, k, hSplit⟩ := SlashPath.exists_split hName
  have hBase : ref.fileName.toList = name := by rw [hFile, SlashPath.base_of_split hSplit]
  have hPoint : ref.fileName = "." ↔ name = ['.'] := by
    rw [← hBase, ← String.toList_inj]
    rfl
  rw [FileRef.location, hDirectory, hFile]
  show SlashPath.elements (SlashPath.rejoined ref.path.toList) = _ ↔ _
  -- joined again, the path has the elements of its name once more where slashes stand at its end
  rw [SlashPath.elements_rejoined hSplit, List.append_right_eq_self, hSplit.getLast?_iff, hPoint,
    SlashPath.elements_name hSplit.noSlash hSplit.ne_nil]
  by_cases hSlashes : k = 0
  · simp [hSlashes]
  · simp [hSlashes]

/-- Settings that are wanted in a directory. -/
def settingsAt (path : String) : FileRef := { name := "settings", path }

/-- A path without slashes at its end is met, however many stand inside it. -/
theorem doubled_placed :
    (∃ c ∈ (settingsAt "/etc//app/settings.toml").path.toList, c ≠ '/') ∧
      SlashPath.elements (settingsAt "/etc//app/settings.toml").location =
        SlashPath.elements (settingsAt "/etc//app/settings.toml").path.toList :=
  ⟨⟨'e', by decide, by decide⟩,
    (placed_iff (settingsAt "/etc//app/settings.toml") ⟨'e', by decide, by decide⟩).1.mpr
      (Or.inl (by decide))⟩

/-- A file whose path ends with a slash is seen below the place where it was declared. -/
theorem trailing_not_placed :
    (∃ c ∈ (settingsAt "/etc/app/settings.toml/").path.toList, c ≠ '/') ∧
      (settingsAt "/etc/app/settings.toml/").location =
        "/etc/app/settings.toml/settings.toml".toList ∧
      SlashPath.elements (settingsAt "/etc/app/settings.toml/").location ≠
        SlashPath.elements (settingsAt "/etc/app/settings.toml/").path.toList :=
  ⟨⟨'e', by decide, by decide⟩, by decide, by decide⟩

end PodCompiler
