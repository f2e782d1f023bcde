import PodCompiler.Proofs.FilePlacement
import PodCompiler.Proofs.Parts

/-!
# PodCompiler — where scratch space is kept

Scratch space is a directory of the machine under `/tmp/drone`, found by the namespace of the
specification and the identifier of the volume. Both are texts that a user chooses, so they may hold
slashes and the points that lead upwards. They are cleaned one by one before they are joined; what
is left of them are ordinary elements, which lead nowhere but down.

Cleaning keeps a stack of elements. That all of them are ordinary is what each step preserves,
because a step pushes nothing else; and on a stack of ordinary elements, ordinary ones are pushed as
they come, so that cleaning does nothing to a path that is already clean.

Main results:

* `clean_append_slash` — what one more element does to a clean path.
* `ordinary_clean` — what remains after cleaning.
* `clean_absolute`, `clean_join` — ordinary elements are not changed by it.
* `scratch_sheltered` — scratch space stays in its place, and that is the place that pods get.
-/

namespace PodCompiler

namespace SlashPath

/-- An element of a path that leads one level down. -/
structure Ordinary (element : List Char) : Prop where
  ne_nil : element ≠ []
  noSlash : '/' ∉ element
  ne_point : element ≠ ['.']
  ne_points : element ≠ ['.', '.']

/-- Elements with a slash between any two of them. -/
def join (elements : List (List Char)) : List Char := ['/'].intercalate elements

/-- The path from the root of the machine through the given elements. -/
def absolute (elements : List (List Char)) : List Char := elements.flatMap ('/' :: ·)

/-- Elements followed by a name: a name that says nothing changes nothing, two points lead back by
one element if there is one, and any other name is one more element. -/
def follow (elements : List (List Char)) (name : List Char) : List (List Char) :=
  if name = [] ∨ name = ['.'] then elements
  else if name = ['.', '.'] then elements.dropLast
  else elements ++ [name]

/-! ## Name by name -/

theorem reverse_keep (kept : List (List Char)) (piece : List Char) :
    (keep kept piece).reverse = follow kept.reverse piece := by
  rw [keep, follow]
  split
  · rfl
  · split
    · rw [List.drop_one, List.dropLast_reverse]
    · rw [List.reverse_cons]

/-- A path is cleaned name by name. -/
theorem clean_append_slash (path : List Char) {name : List Char} (hName : '/' ∉ name) :
    clean (path ++ '/' :: name) = follow (clean path) name := by
  rw [clean, pieces_append_slash, pieces_of_noSlash hName, List.foldl_append]
  exact reverse_keep _ name

theorem clean_of_noSlash {name : List Char} (hName : '/' ∉ name) : clean name = follow [] name := by
  rw [clean, pieces_of_noSlash hName]
  exact reverse_keep [] name

/-! ## What remains after cleaning -/

theorem noSlash_of_mem_pieces {path piece : List Char} (hPiece : piece ∈ pieces path) :
    '/' ∉ piece := by
  induction path generalizing piece with
  | nil =>
    obtain rfl := List.mem_singleton.mp hPiece
    exact List.not_mem_nil
  | cons c rest ih =>
    obtain ⟨first, more, hPieces⟩ := exists_pieces rest
    by_cases hSlash : c = '/'
    · rw [pieces, if_pos hSlash] at hPiece
      rcases List.mem_cons.mp hPiece with rfl | hPiece
      · exact List.not_mem_nil
      · exact ih hPiece
    · rw [pieces, if_neg hSlash, hPieces] at hPiece
      rw [hPieces] at ih
      rcases List.mem_cons.mp hPiece with rfl | hPiece
      · -- the character goes to the front of the first piece
        rw [List.mem_cons, not_or]
        exact ⟨Ne.symm hSlash, ih List.mem_cons_self⟩
      · exact ih (List.mem_cons_of_mem first hPiece)

/-- A step of cleaning keeps elements ordinary. -/
theorem ordinary_keep {kept : List (List Char)} (hKept : ∀ e ∈ kept, Ordinary e)
    {piece : List Char} (hPiece : '/' ∉ piece) : ∀ e ∈ keep kept piece, Ordinary e := by
  intro e he
  rw [keep] at he
  split at he
  next => exact hKept e he
  next hSays =>
    rw [not_or] at hSays
    split at he
    next => exact hKept e (List.mem_of_mem_drop he)
    next hPoints =>
      rcases List.mem_cons.mp he with rfl | he
      · exact ⟨hSays.1, hPiece, hSays.2, hPoints⟩
      · exact hKept e he

theorem ordinary_foldl_keep {kept parts : List (List Char)} (hKept : ∀ e ∈ kept, Ordinary e)
    (hParts : ∀ part ∈ parts, '/' ∉ part) : ∀ e ∈ parts.foldl keep kept, Ordinary e := by
  induction parts generalizing kept with
  | nil => exact hKept
  | cons part rest ih =>
    rw [List.foldl_cons]
    exact ih (ordinary_keep hKept (hParts part List.mem_cons_self))
      fun other hOther => hParts other (List.mem_cons_of_mem part hOther)

/-- What remains of a path after cleaning is ordinary. -/
theorem ordinary_clean (path : List Char) : ∀ e ∈ clean path, Ordinary e := by
  intro e he
  rw [clean, List.mem_reverse] at he
  have hNone : ∀ e ∈ ([] : List (List Char)), Ordinary e := fun e he => absurd he List.not_mem_nil
  exact ordinary_foldl_keep hNone (fun _ => noSlash_of_mem_pieces) e he

/-! ## Clean paths -/

/-- Ordinary elements are kept one after the other. -/
theorem foldl_keep_of_ordinary {elements : List (List Char)} (hElements : ∀ e ∈ elements, Ordinary e)
    (kept : List (List Char)) : elements.foldl keep kept = elements.reverse ++ kept := by
  induction elements generalizing kept with
  | nil => rfl
  | cons e rest ih =>
    have hOrdinary := hElements e List.mem_cons_self
    have hKeep : keep kept e = e :: kept := by
      rw [keep, if_neg (by simp [hOrdinary.ne_nil, hOrdinary.ne_point]), if_neg hOrdinary.ne_points]
    rw [List.foldl_cons, hKeep, ih fun d hd => hElements d (List.mem_cons_of_mem e hd),
      List.reverse_cons, List.append_assoc, List.singleton_append]

theorem absolute_cons (e : List Char) (rest : List (List Char)) :
    absolute (e :: rest) = '/' :: (e ++ absolute rest) :=
  rfl

theorem absolute_append (front back : List (List Char)) :
    absolute (front ++ back) = absolute front ++ absolute back :=
  List.flatMap_append

theorem join_cons (e : List Char) (rest : List (List Char)) :
    join (e :: rest) = e ++ absolute rest := by
  induction rest generalizing e with
  | nil => simp [join, absolute]
  | cons d rest ih =>
    have hJoin : join (e :: d :: rest) = e ++ '/' :: join (d :: rest) := by
      simp [join, List.intercalate_cons_cons]
    rw [hJoin, ih, absolute_cons]

/-- A path is cut where its elements were put together. -/
theorem pieces_append_absolute {e : List Char} (hNoSlash : '/' ∉ e) {rest : List (List Char)}
    (hRest : ∀ d ∈ rest, '/' ∉ d) : pieces (e ++ absolute rest) = e :: rest := by
  induction rest generalizing e with
  | nil => rw [absolute, List.flatMap_nil, List.append_nil, pieces_of_noSlash hNoSlash]
  | cons d rest ih =>
    rw [absolute_cons, pieces_append_slash, pieces_of_noSlash hNoSlash,
      ih (hRest d List.mem_cons_self) fun c hc => hRest c (List.mem_cons_of_mem d hc)]
    rfl

variable {elements : List (List Char)}

/-- The path through ordinary elements is clean: nothing stands before its first slash, and every
element is kept. -/
theorem clean_absolute (hElements : ∀ e ∈ elements, Ordinary e) :
    clean (absolute elements) = elements := by
  have hPieces : pieces (absolute elements) = [] :: elements :=
    pieces_append_absolute List.not_mem_nil fun e he => (hElements e he).noSlash
  have hNothing : keep [] [] = [] := rfl
  rw [clean, hPieces, List.foldl_cons, hNothing, foldl_keep_of_ordinary hElements, List.append_nil,
    List.reverse_reverse]

theorem clean_join (hElements : ∀ e ∈ elements, Ordinary e) : clean (join elements) = elements := by
  cases elements with
  | nil => rfl
  | cons e rest =>
    have hPieces : pieces (join (e :: rest)) = e :: rest := by
      rw [join_cons]
      exact pieces_append_absolute (hElements e List.mem_cons_self).noSlash
        fun d hd => (hElements d (List.mem_cons_of_mem e hd)).noSlash
    rw [clean, hPieces, foldl_keep_of_ordinary hElements, List.append_nil, List.reverse_reverse]

theorem clean_of_ordinary {name : List Char} (hName : Ordinary name) : clean name = [name] := by
  rw [clean_of_noSlash hName.noSlash, follow, if_neg (by simp [hName.ne_nil, hName.ne_point]),
    if_neg hName.ne_points]
  rfl

/-- Different elements make different paths. -/
theorem absolute_injective {others : List (List Char)} (hElements : ∀ e ∈ elements, Ordinary e)
    (hOthers : ∀ e ∈ others, Ordinary e) (hSame : absolute elements = absolute others) :
    elements = others := by
  rw [← clean_absolute hElements, hSame, clean_absolute hOthers]

end SlashPath

/-! ## Scratch space -/

open SlashPath

/-- The elements that lead to all scratch space. -/
def scratchElements : List (List Char) := ["tmp".toList, "drone".toList]

theorem ordinary_scratchElements : ∀ e ∈ scratchElements, Ordinary e := by
  intro e he
  simp only [scratchElements, List.mem_cons, List.not_mem_nil, or_false] at he
  rcases he with rfl | rfl
  · exact ⟨by decide, by decide, by decide, by decide⟩
  · exact ⟨by decide, by decide, by decide, by decide⟩

theorem toList_scratchPath (namespaceName uid : String) :
    (scratchPath namespaceName uid).toList =
      absolute (scratchElements ++ (clean namespaceName.toList ++ clean uid.toList)) := by
  have hRoot : scratchRoot.toList = absolute scratchElements := by decide
  rw [scratchPath, String.toList_ofList, absolute_append, hRoot]
  rfl

/-- A directory for scratch space that stays where it belongs, whatever the namespace and the
identifier hold. -/
structure Sheltered (namespaceName uid path : String) : Prop where
  /-- The directory is that of all scratch space, with what is left of both behind it. -/
  eq : path.toList = "/tmp/drone".toList ++
    (clean namespaceName.toList ++ clean uid.toList).flatMap ('/' :: ·)
  /-- Nothing of this leads anywhere but down. -/
  ordinary : ∀ e ∈ clean namespaceName.toList ++ clean uid.toList, Ordinary e
  /-- The path is the clean form of itself. -/
  normal : absolute (clean path.toList) = path.toList
  /-- Who follows the path comes through `/tmp/drone` and the namespace's directory in it, and from
  there on goes where the identifier says. -/
  follows : clean path.toList =
    ["tmp".toList, "drone".toList] ++ clean namespaceName.toList ++ clean uid.toList

theorem sheltered_scratchPath (namespaceName uid : String) :
    Sheltered namespaceName uid (scratchPath namespaceName uid) := by
  have hOrdinary : ∀ e ∈ clean namespaceName.toList ++ clean uid.toList, Ordinary e :=
    List.forall_mem_append.mpr ⟨ordinary_clean _, ordinary_clean _⟩
  have hAll := List.forall_mem_append.mpr ⟨ordinary_scratchElements, hOrdinary⟩
  refine
    { eq := ?eq
      ordinary := hOrdinary
      normal := ?normal
      follows := ?follows }
  case eq =>
    rw [scratchPath, String.toList_ofList]
    rfl
  case normal => rw [toList_scratchPath, clean_absolute hAll]
  case follows =>
    rw [toList_scratchPath, clean_absolute hAll, List.append_assoc]
    rfl

/-- Of several sources of a volume scratch space counts. -/
theorem kind_of_emptyDir {volume : Volume} {source : EmptyDirSource}
    (hSource : volume.emptyDir = some source) : volume.kind? = some (.emptyDir source) := by
  rw [Volume.kind?, hSource]

/-- A reference to scratch space comes to one directory. -/
theorem parts_scratch {spec : Specification} {ref : VolumeRef} {volume : Volume}
    {source : EmptyDirSource} (hVolume : spec.volume? ref.name = some volume)
    (hSource : volume.emptyDir = some source) :
    (MountRef.volume ref).parts spec =
      [.directory ref volume (scratchPath spec.metadata.namespaceName volume.metadata.uid)] := by
  simp only [MountRef.parts, hVolume, Volume.parts, kind_of_emptyDir hSource]

/-- A reference to scratch space gives the pod this directory. -/
theorem podVolumes_scratch {spec : Specification} {step : Step} {ref : VolumeRef} {volume : Volume}
    {source : EmptyDirSource} (hRef : ref ∈ step.volumes)
    (hVolume : spec.volume? ref.name = some volume) (hSource : volume.emptyDir = some source) :
    (step.volumesOf spec ref).value =
        [volume.directory (scratchPath spec.metadata.namespaceName volume.metadata.uid)] ∧
      volume.directory (scratchPath spec.metadata.namespaceName volume.metadata.uid) ∈
        (step.compile spec).value.pod.volumes := by
  have hParts := parts_scratch hVolume hSource
  refine ⟨?_, ?_⟩
  · rw [value_volumesOf, hParts]
    rfl
  · -- the pod's volumes are read off the parts, and this is the one of the reference
    rw [compile_volumes]
    refine List.mem_map.mpr ⟨.directory ref volume _, ?_, rfl⟩
    refine List.mem_flatMap.mpr ⟨.volume ref, ?_, ?_⟩
    · exact List.mem_append_left _ (List.mem_map_of_mem hRef)
    · rw [hParts]
      exact List.mem_singleton_self _

/-- Namespaces and identifiers that are ordinary elements are told apart by their directories. -/
theorem scratchPath_inj {n u n' u' : String} (hn : Ordinary n.toList) (hu : Ordinary u.toList)
    (hn' : Ordinary n'.toList) (hu' : Ordinary u'.toList)
    (hSame : scratchPath n u = scratchPath n' u') : n = n' ∧ u = u' := by
  have hPaths := congrArg String.toList hSame
  rw [toList_scratchPath, toList_scratchPath, clean_of_ordinary hn, clean_of_ordinary hu,
    clean_of_ordinary hn', clean_of_ordinary hu'] at hPaths
  have hElements {a b : List Char} (ha : Ordinary a) (hb : Ordinary b) :
      ∀ e ∈ scratchElements ++ ([a] ++ [b]), Ordinary e :=
    List.forall_mem_append.mpr ⟨ordinary_scratchElements, List.forall_mem_append.mpr
      ⟨List.forall_mem_singleton.mpr ha, List.forall_mem_singleton.mpr hb⟩⟩
  have hLists := absolute_injective (hElements hn hu) (hElements hn' hu') hPaths
  simpa [scratchElements, String.toList_inj] using hLists

/-- **Shelter.** A volume of scratch space is a directory below `/tmp/drone` and below the directory
of the namespace, whatever namespace and identifier are, and this directory is what the pod of a
step gets that refers to the volume. A path is cleaned name by name, and cleaning what is clean
changes nothing. Namespaces and identifiers that are ordinary elements are told apart by their
directories. -/
theorem scratch_sheltered :
    (∀ (spec : Specification) (volume : Volume) (source : EmptyDirSource),
      volume.emptyDir = some source →
        ∃ path, path = scratchPath spec.metadata.namespaceName volume.metadata.uid ∧
          Sheltered spec.metadata.namespaceName volume.metadata.uid path ∧
          volume.hostDirectory spec =
            some { name := volume.metadata.uid, source := .hostPath path } ∧
          ∀ (step : Step) (ref : VolumeRef), ref ∈ step.volumes →
            spec.volume? ref.name = some volume →
              (step.volumesOf spec ref).value =
                [{ name := volume.metadata.uid, source := .hostPath path }] ∧
              { name := volume.metadata.uid, source := .hostPath path } ∈
                (step.compile spec).value.pod.volumes) ∧
      (∀ name, '/' ∉ name → clean name = follow [] name ∧
        ∀ path, clean (path ++ '/' :: name) = follow (clean path) name) ∧
      (∀ path, clean (join (clean path)) = clean path) ∧
      ∀ {n u n' u' : String}, Ordinary n.toList → Ordinary u.toList → Ordinary n'.toList →
        Ordinary u'.toList → scratchPath n u = scratchPath n' u' → n = n' ∧ u = u' := by
  refine ⟨?sheltered, ?names, fun path => clean_join (ordinary_clean path), scratchPath_inj⟩
  case sheltered =>
    intro spec volume source hSource
    refine ⟨_, rfl, sheltered_scratchPath _ _, ?_, fun step ref hRef hVolume => ?_⟩
    · rw [Volume.hostDirectory, kind_of_emptyDir hSource]
      rfl
    · exact podVolumes_scratch hRef hVolume hSource
  case names =>
    intro name hName
    exact ⟨clean_of_noSlash hName, fun path => clean_append_slash path hName⟩

/-- Scratch space under an identifier that would lead out of its namespace. -/
def burrowing : Volume :=
  { metadata := .new "/../..//root/x/.." "workspace", emptyDir := some {} }

/-- A pipeline in a namespace that would lead upwards. -/
def climbing : Specification :=
  { metadata := { uid := "spec-uid", name := "pipeline", namespaceName := "../../etc/./" }
    volumes := [burrowing] }

/-- A step that works in this scratch space. -/
def digging : Step :=
  { metadata := .new "step-uid" "dig", image := "alpine"
    volumes := [{ name := "workspace", path := "/work" }] }

/-- Neither gets out. -/
theorem burrowing_sheltered :
    burrowing.emptyDir = some {} ∧
      burrowing.hostDirectory climbing =
        some { name := "/../..//root/x/..", source := .hostPath "/tmp/drone/etc/root" } ∧
      { name := "/../..//root/x/..", source := .hostPath "/tmp/drone/etc/root" } ∈
        (digging.compile climbing).value.pod.volumes ∧
      Sheltered "../../etc/./" "/../..//root/x/.." "/tmp/drone/etc/root" ∧
      scratchPath "ci" "vol" ≠ scratchPath "vol" "ci" := by
  obtain ⟨path, hPath, hSheltered, hDirectory, hPod⟩ :=
    scratch_sheltered.1 climbing burrowing {} rfl
  have hEq : path = "/tmp/drone/etc/root" := by
    rw [hPath]
    decide
  subst hEq
  have hFound : climbing.volume? "workspace" = some burrowing := by decide
  have hMember := (hPod digging _ List.mem_cons_self hFound).2
  refine ⟨rfl, hDirectory, hMember, hSheltered, fun hSame => ?_⟩
  have hCi : Ordinary "ci".toList := ⟨by decide, by decide, by decide, by decide⟩
  have hVol : Ordinary "vol".toList := ⟨by decide, by decide, by decide, by decide⟩
  exact absurd (scratch_sheltered.2.2.2 hCi hVol hVol hCi hSame).1 (by decide)

end PodCompiler
