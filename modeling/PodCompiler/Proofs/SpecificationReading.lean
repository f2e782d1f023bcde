import PodCompiler.Proofs.RecordReading
import PodCompiler.Specification.Notation

/-!
# PodCompiler — reading specifications back

Every part of a specification is understood by its reader, in every notation that is faithful. There
is one lemma for each record of the format, made of one fact for each of its fields; what a record
does with its fields is settled by `record_eq`.

Main results:

* `understood_specification` — a specification is read from every variant of its tree.
* `ofTree_variant` — so it is from value trees.
-/

namespace PodCompiler

section Parts

variable {ν : Type} {d : Dialect ν} {Shows : Tree → ν → Prop}

/-! ## Kinds of fields -/

namespace Fields.Means

variable {α : Type} {types : List Type} {rest : Fields ν types} {row : Row types}
  {shapes : List (FieldShape Shape)} {entries : List (String × Tree)} {name : String}
  {shape : Shape} {tree : α → Tree} {read : Path → ν → Reading α}

theorem required (hRead : Understood Shows shape tree read) (a : α)
    (hRest : rest.Means Shows shapes entries row) :
    (Fields.cons (required name read) rest).Means Shows (.needed name shape :: shapes)
      ((name, tree a) :: entries) (a, row) :=
  .cons (fun t v path => hRead a t v path) (fun hNone => by cases hNone) hRest

/-- The default must be the only value with its tree. -/
theorem defaulted (hRead : Understood Shows shape tree read) {fallback : α} (a : α)
    (hFallback : tree a = tree fallback → a = fallback)
    (hRest : rest.Means Shows shapes entries row) :
    (Fields.cons (defaulted name read fallback) rest).Means Shows
      (.withDefault name shape (tree fallback) :: shapes) ((name, tree a) :: entries) (a, row) :=
  .cons (fun t v path => hRead a t v path)
    (fun hSome => congrArg some (hFallback (Option.some.inj hSome).symm).symm) hRest

theorem nullable (hd : d.Faithful Shows) (hRead : Understood Shows shape tree read)
    (hNull : ∀ a, tree a ≠ .null) (hVariants : NeverNull shape tree) (o : Option α)
    (hRest : rest.Means Shows shapes entries row) :
    (Fields.cons (nullable d name read) rest).Means Shows (.maybe name shape :: shapes)
      ((name, .orNull (o.map tree)) :: entries) (o, row) := by
  refine .cons (fun t v path => understood_nullable hd hRead hNull hVariants o t v path) ?_ hRest
  intro hSome
  cases o with
  | none => rfl
  | some a => exact absurd (Option.some.inj hSome).symm (hNull a)

end Fields.Means

theorem neverNull_leaf {α : Type} {tree : α → Tree} (hNull : ∀ a, tree a ≠ .null) :
    NeverNull .leaf tree := by
  intro a t hVariant
  cases hVariant
  exact hNull a

theorem neverNull_record {α : Type} {tree : α → Tree} {shapes : List (FieldShape Shape)} :
    NeverNull (.record shapes) tree := by
  intro a t hVariant hNull
  -- the shape rules null out, whatever the tree of the value
  subst hNull
  generalize tree a = t₀ at hVariant
  cases hVariant

/-- Only the empty map has the tree of the empty map, and only the empty list that of the empty
list. -/
theorem eq_empty_of_tree (m : SortedMap String) (hEq : m.tree = SortedMap.empty.tree) :
    m = .empty := by
  have hEntries : m.entries.map (fun e => (e.1, Tree.text e.2)) = [] := Tree.object.inj hEq
  exact SortedMap.ext (List.map_eq_nil_iff.mp hEntries)

theorem eq_nil_of_tree {α : Type} {tree : α → Tree} (as : List α)
    (hEq : Tree.list (as.map tree) = .list (([] : List α).map tree)) : as = [] :=
  List.map_eq_nil_iff.mp (Tree.list.inj hEq)

theorem int32_inj {m n : Int32} (hEq : Tree.int32 m = .int32 n) : m = n :=
  Int32.toInt_inj.mp (Tree.int.inj hEq)

theorem int64_inj {m n : Int64} (hEq : Tree.int64 m = .int64 n) : m = n :=
  Int64.toInt_inj.mp (Tree.int.inj hEq)

/-! ## Metadata, credentials, secrets and files -/

theorem understood_metadata (hd : d.Faithful Shows) :
    Understood Shows Metadata.shape Metadata.tree (Metadata.read d) := by
  intro m t v path hVariant hShows
  have hText := understood_text hd
  have hMeans : (Metadata.fields d).Means Shows _ _
      (m.uid, m.name, m.namespaceName, m.labels, ()) :=
    .required hText _ <| .required hText _ <|
    .defaulted hText _ (fun hEq => Tree.text.inj hEq) <|
    .defaulted (understood_textMap hd) _ (eq_empty_of_tree _) .nil
  unfold Metadata.read
  rw [record_eq hd hVariant hShows (by decide) hMeans]
  rfl

theorem understood_registryAuth (hd : d.Faithful Shows) :
    Understood Shows RegistryAuth.shape RegistryAuth.tree (RegistryAuth.read d) := by
  intro a t v path hVariant hShows
  have hText := understood_text hd
  have hMeans : (RegistryAuth.fields d).Means Shows _ _ (a.address, a.username, a.password, ()) :=
    .required hText _ <| .required hText _ <| .required hText _ .nil
  unfold RegistryAuth.read
  rw [record_eq hd hVariant hShows (by decide) hMeans]
  rfl

theorem understood_registries (hd : d.Faithful Shows) :
    Understood Shows Registries.shape Registries.tree (Registries.read d) := by
  intro r t v path hVariant hShows
  have hMeans : (Registries.fields d).Means Shows _ _ (r.auths, ()) :=
    .defaulted (understood_list hd (understood_registryAuth hd)) _ (eq_nil_of_tree _) .nil
  unfold Registries.read
  rw [record_eq hd hVariant hShows (by decide) hMeans]
  rfl

theorem understood_secret (hd : d.Faithful Shows) :
    Understood Shows dataShape Secret.tree (Secret.read d) := by
  intro s t v path hVariant hShows
  have hMeans : (dataFields d).Means Shows _ _ (s.metadata, s.data, ()) :=
    .required (understood_metadata hd) _ <|
    .defaulted (understood_text hd) _ (fun hEq => Tree.text.inj hEq) .nil
  unfold Secret.read
  rw [record_eq hd hVariant hShows (by decide) hMeans]
  rfl

theorem understood_file (hd : d.Faithful Shows) :
    Understood Shows dataShape File.tree (File.read d) := by
  intro f t v path hVariant hShows
  have hMeans : (dataFields d).Means Shows _ _ (f.metadata, f.data, ()) :=
    .required (understood_metadata hd) _ <|
    .defaulted (understood_text hd) _ (fun hEq => Tree.text.inj hEq) .nil
  unfold File.read
  rw [record_eq hd hVariant hShows (by decide) hMeans]
  rfl

/-! ## Volumes -/

theorem understood_emptyDir (hd : d.Faithful Shows) :
    Understood Shows (.record []) EmptyDirSource.tree (EmptyDirSource.read d) := by
  intro s t v path hVariant hShows
  unfold EmptyDirSource.read
  rw [record_eq hd hVariant hShows (by decide) .nil]
  rfl

theorem understood_hostPath (hd : d.Faithful Shows) :
    Understood Shows HostPathSource.shape HostPathSource.tree (HostPathSource.read d) := by
  intro s t v path hVariant hShows
  have hMeans : (Fields.cons (required "path" d.text) .nil).Means Shows _ _ (s.path, ()) :=
    .required (understood_text hd) _ .nil
  unfold HostPathSource.read
  rw [record_eq hd hVariant hShows (by decide) hMeans]
  rfl

/-- A mode of files, which may be missing. -/
theorem neverNull_int32 : (∀ n : Int32, Tree.int32 n ≠ .null) ∧ NeverNull .leaf Tree.int32 := by
  have hNull : ∀ n : Int32, Tree.int32 n ≠ .null := fun _ hEq => by cases hEq
  exact ⟨hNull, neverNull_leaf hNull⟩

theorem understood_secretItem (hd : d.Faithful Shows) :
    Understood Shows SecretItem.shape SecretItem.tree (SecretItem.read d) := by
  intro i t v path hVariant hShows
  have hText := understood_text hd
  have hMeans : (SecretItem.fields d).Means Shows _ _ (i.key, i.path, i.mode, ()) :=
    .required hText _ <| .required hText _ <|
    .nullable hd (understood_int32 hd) neverNull_int32.1 neverNull_int32.2 _ .nil
  unfold SecretItem.read
  rw [record_eq hd hVariant hShows (by decide) hMeans]
  rfl

theorem understood_secretSource (hd : d.Faithful Shows) :
    Understood Shows SecretSource.shape SecretSource.tree (SecretSource.read d) := by
  intro s t v path hVariant hShows
  have hMeans : (SecretSource.fields d).Means Shows _ _ (s.name, s.items, ()) :=
    .required (understood_text hd) _ <|
    .defaulted (understood_list hd (understood_secretItem hd)) _ (eq_nil_of_tree _) .nil
  unfold SecretSource.read
  rw [record_eq hd hVariant hShows (by decide) hMeans]
  rfl

theorem understood_volume (hd : d.Faithful Shows) :
    Understood Shows Volume.shape Volume.tree (Volume.read d) := by
  intro o t v path hVariant hShows
  have hMeans : (Volume.fields d).Means Shows _ _
      (o.metadata, o.emptyDir, o.hostPath, o.secret, ()) :=
    .required (understood_metadata hd) _ <|
    .nullable hd (understood_emptyDir hd) (fun _ hEq => by cases hEq) neverNull_record _ <|
    .nullable hd (understood_hostPath hd) (fun _ hEq => by cases hEq) neverNull_record _ <|
    .nullable hd (understood_secretSource hd) (fun _ hEq => by cases hEq) neverNull_record _ .nil
  unfold Volume.read
  rw [record_eq hd hVariant hShows (by decide) hMeans]
  rfl

/-! ## Steps -/

theorem understood_port (hd : d.Faithful Shows) :
    Understood Shows Port.shape Port.tree (Port.read d) := by
  intro p t v path hVariant hShows
  have hInt := understood_int32 hd
  have hMeans : (Port.fields d).Means Shows _ _ (p.port, p.host, ()) :=
    .required hInt _ <| .defaulted hInt _ int32_inj .nil
  unfold Port.read
  rw [record_eq hd hVariant hShows (by decide) hMeans]
  rfl

theorem understood_resourceAmounts (hd : d.Faithful Shows) :
    Understood Shows ResourceAmounts.shape ResourceAmounts.tree (ResourceAmounts.read d) := by
  intro r t v path hVariant hShows
  have hInt := understood_int64 hd
  have hMeans : (ResourceAmounts.fields d).Means Shows _ _ (r.cpu, r.memory, ()) :=
    .defaulted hInt _ int64_inj <| .defaulted hInt _ int64_inj .nil
  unfold ResourceAmounts.read
  rw [record_eq hd hVariant hShows (by decide) hMeans]
  rfl

theorem understood_resources (hd : d.Faithful Shows) :
    Understood Shows Resources.shape Resources.tree (Resources.read d) := by
  intro r t v path hVariant hShows
  have hAmounts := understood_resourceAmounts hd
  have hMeans : (Resources.fields d).Means Shows _ _ (r.limits, r.requests, ()) :=
    .nullable hd hAmounts (fun _ hEq => by cases hEq) neverNull_record _ <|
    .nullable hd hAmounts (fun _ hEq => by cases hEq) neverNull_record _ .nil
  unfold Resources.read
  rw [record_eq hd hVariant hShows (by decide) hMeans]
  rfl

theorem understood_secretRef (hd : d.Faithful Shows) :
    Understood Shows SecretRef.shape SecretRef.tree (SecretRef.read d) := by
  intro r t v path hVariant hShows
  have hText := understood_text hd
  have hMeans : (SecretRef.fields d).Means Shows _ _ (r.name, r.env, ()) :=
    .required hText _ <| .required hText _ .nil
  unfold SecretRef.read
  rw [record_eq hd hVariant hShows (by decide) hMeans]
  rfl

theorem understood_fileRef (hd : d.Faithful Shows) :
    Understood Shows FileRef.shape FileRef.tree (FileRef.read d) := by
  intro r t v path hVariant hShows
  have hText := understood_text hd
  have hMeans : (FileRef.fields d).Means Shows _ _ (r.name, r.path, r.mode, ()) :=
    .required hText _ <| .required hText _ <|
    .nullable hd (understood_int32 hd) neverNull_int32.1 neverNull_int32.2 _ .nil
  unfold FileRef.read
  rw [record_eq hd hVariant hShows (by decide) hMeans]
  rfl

theorem understood_volumeRef (hd : d.Faithful Shows) :
    Understood Shows VolumeRef.shape VolumeRef.tree (VolumeRef.read d) := by
  intro r t v path hVariant hShows
  have hText := understood_text hd
  have hMeans : (VolumeRef.fields d).Means Shows _ _ (r.name, r.path, ()) :=
    .required hText _ <| .required hText _ .nil
  unfold VolumeRef.read
  rw [record_eq hd hVariant hShows (by decide) hMeans]
  rfl

/-- A pull policy that is not written is unspecified, and no other has its name. -/
theorem eq_unspecified_of_name (policy : PullPolicy)
    (hEq : Tree.text policy.name = .text PullPolicy.unspecified.name) :
    policy = .unspecified := by
  rw [← ofName_name policy, Tree.text.inj hEq]
  rfl

theorem understood_step (hd : d.Faithful Shows) :
    Understood Shows Step.shape Step.tree (Step.read d) := by
  intro s t v path hVariant hShows
  have hText := understood_text hd
  have hTexts := understood_list hd hText
  have hBool := understood_bool hd
  -- one fact for each field, in the order of the record
  have hMeans : (Step.fields d).Means Shows _ _
      (s.metadata, s.image, s.command, s.args, s.workingDir, s.pullPolicy, s.privileged, s.envs,
        s.ports, s.resources, s.secrets, s.files, s.volumes, s.automountToken, ()) :=
    .required (understood_metadata hd) _ <|
    .required hText _ <|
    .defaulted hTexts _ (eq_nil_of_tree _) <|
    .defaulted hTexts _ (eq_nil_of_tree _) <|
    .nullable hd hText (fun _ hEq => by cases hEq) (neverNull_leaf fun _ hEq => by cases hEq) _ <|
    .defaulted (understood_pullPolicy hd) _ (eq_unspecified_of_name _) <|
    .defaulted hBool _ (fun hEq => Tree.bool.inj hEq) <|
    .defaulted (understood_textMap hd) _ (eq_empty_of_tree _) <|
    .defaulted (understood_list hd (understood_port hd)) _ (eq_nil_of_tree _) <|
    .nullable hd (understood_resources hd) (fun _ hEq => by cases hEq) neverNull_record _ <|
    .defaulted (understood_list hd (understood_secretRef hd)) _ (eq_nil_of_tree _) <|
    .defaulted (understood_list hd (understood_fileRef hd)) _ (eq_nil_of_tree _) <|
    .defaulted (understood_list hd (understood_volumeRef hd)) _ (eq_nil_of_tree _) <|
    .nullable hd hBool (fun _ hEq => by cases hEq) (neverNull_leaf fun _ hEq => by cases hEq) _ .nil
  unfold Step.read
  rw [record_eq hd hVariant hShows (by decide) hMeans]
  rfl

/-! ## Specifications -/

/-- Only registries without credentials have the tree of such. -/
theorem eq_of_registries_tree (r : Registries) (hEq : r.tree = Registries.tree {}) : r = {} := by
  have hAuths : r.auths = [] := by
    have hField := (List.cons.inj (Tree.object.inj hEq)).1
    exact eq_nil_of_tree r.auths (Prod.mk.inj hField).2
  cases r with
  | mk auths => exact congrArg Registries.mk hAuths

/-- **Specifications.** However a specification is written, it is read as that specification. -/
theorem understood_specification (hd : d.Faithful Shows) :
    Understood Shows Specification.shape Specification.tree (Specification.read d) := by
  intro s t v path hVariant hShows
  have hMeans : (Specification.fields d).Means Shows _ _
      (s.metadata, s.registries, s.steps, s.secrets, s.files, s.volumes, ()) :=
    .required (understood_metadata hd) _ <|
    .defaulted (understood_registries hd) _ (eq_of_registries_tree _) <|
    .defaulted (understood_list hd (understood_step hd)) _ (eq_nil_of_tree _) <|
    .defaulted (understood_list hd (understood_secret hd)) _ (eq_nil_of_tree _) <|
    .defaulted (understood_list hd (understood_file hd)) _ (eq_nil_of_tree _) <|
    .defaulted (understood_list hd (understood_volume hd)) _ (eq_nil_of_tree _) .nil
  unfold Specification.read
  rw [record_eq hd hVariant hShows (by decide) hMeans]
  rfl

end Parts

/-! ## The tree itself -/

/-- Every value's tree is a variant of itself. -/
def OwnVariant (shape : Shape) (tree : α → Tree) : Prop := ∀ a, Variant shape (tree a) (tree a)

/-- An object is a variant of itself if all its fields are kept. -/
theorem variant_of_kept {fields : List (FieldShape Shape)} {entries : List (String × Tree)}
    (hKept : Kept Variant fields entries entries) :
    Variant (.record fields) (.object entries) (.object entries) := by
  have hNone : ∀ e ∈ ([] : List (String × Tree)), ∀ field ∈ fields, field.name ≠ e.1 :=
    fun _ hMem => absurd hMem List.not_mem_nil
  refine .record hKept hNone ?_
  rw [List.append_nil]

theorem ownVariant_list {α : Type} {shape : Shape} {tree : α → Tree}
    (hItem : OwnVariant shape tree) :
    OwnVariant (.list shape) fun as : List α => .list (as.map tree) := by
  intro as
  refine .list rfl fun e hMem => ?_
  rw [List.zip_map', List.mem_map] at hMem
  obtain ⟨a, -, rfl⟩ := hMem
  exact hItem a

theorem ownVariant_nullable {α : Type} {shape : Shape} {tree : α → Tree}
    (hInner : OwnVariant shape tree) (hNull : ∀ a, tree a ≠ .null) :
    OwnVariant (.nullable shape) fun o : Option α => .orNull (o.map tree) := by
  intro o
  cases o with
  | none => exact .null
  | some a => exact .present (hNull a) (hInner a)

theorem ownVariant_leaf {α : Type} {tree : α → Tree} : OwnVariant .leaf tree :=
  fun _ => .leaf _

theorem ownVariant_metadata : OwnVariant Metadata.shape Metadata.tree := fun _ =>
  variant_of_kept <| .keep (.leaf _) <| .keep (.leaf _) <| .keep (.leaf _) <| .keep (.leaf _) .nil

theorem ownVariant_registries : OwnVariant Registries.shape Registries.tree := by
  have hAuth : OwnVariant RegistryAuth.shape RegistryAuth.tree := fun _ =>
    variant_of_kept <| .keep (.leaf _) <| .keep (.leaf _) <| .keep (.leaf _) .nil
  exact fun _ => variant_of_kept <| .keep (ownVariant_list hAuth _) .nil

theorem ownVariant_data : OwnVariant dataShape Secret.tree ∧ OwnVariant dataShape File.tree :=
  ⟨fun _ => variant_of_kept <| .keep (ownVariant_metadata _) <| .keep (.leaf _) .nil,
    fun _ => variant_of_kept <| .keep (ownVariant_metadata _) <| .keep (.leaf _) .nil⟩

theorem ownVariant_mode :
    OwnVariant (.nullable .leaf) fun o : Option Int32 => .orNull (o.map Tree.int32) :=
  ownVariant_nullable ownVariant_leaf neverNull_int32.1

theorem ownVariant_volume : OwnVariant Volume.shape Volume.tree := by
  have hEmptyDir : OwnVariant (.record []) EmptyDirSource.tree := fun _ => variant_of_kept .nil
  have hHostPath : OwnVariant HostPathSource.shape HostPathSource.tree := fun _ =>
    variant_of_kept <| .keep (.leaf _) .nil
  have hItem : OwnVariant SecretItem.shape SecretItem.tree := fun _ =>
    variant_of_kept <| .keep (.leaf _) <| .keep (.leaf _) <| .keep (ownVariant_mode _) .nil
  have hSecret : OwnVariant SecretSource.shape SecretSource.tree := fun _ =>
    variant_of_kept <| .keep (.leaf _) <| .keep (ownVariant_list hItem _) .nil
  exact fun _ => variant_of_kept <|
    .keep (ownVariant_metadata _) <|
    .keep (ownVariant_nullable hEmptyDir (fun _ hEq => by cases hEq) _) <|
    .keep (ownVariant_nullable hHostPath (fun _ hEq => by cases hEq) _) <|
    .keep (ownVariant_nullable hSecret (fun _ hEq => by cases hEq) _) .nil

theorem ownVariant_resources : OwnVariant Resources.shape Resources.tree := by
  have hAmounts : OwnVariant ResourceAmounts.shape ResourceAmounts.tree := fun _ =>
    variant_of_kept <| .keep (.leaf _) <| .keep (.leaf _) .nil
  exact fun _ => variant_of_kept <|
    .keep (ownVariant_nullable hAmounts (fun _ hEq => by cases hEq) _) <|
    .keep (ownVariant_nullable hAmounts (fun _ hEq => by cases hEq) _) .nil

theorem ownVariant_step : OwnVariant Step.shape Step.tree := by
  have hTexts : OwnVariant (.list .leaf) Tree.texts := ownVariant_list ownVariant_leaf
  have hPort : OwnVariant Port.shape Port.tree := fun _ =>
    variant_of_kept <| .keep (.leaf _) <| .keep (.leaf _) .nil
  have hSecret : OwnVariant SecretRef.shape SecretRef.tree := fun _ =>
    variant_of_kept <| .keep (.leaf _) <| .keep (.leaf _) .nil
  have hFile : OwnVariant FileRef.shape FileRef.tree := fun _ =>
    variant_of_kept <| .keep (.leaf _) <| .keep (.leaf _) <| .keep (ownVariant_mode _) .nil
  have hVolume : OwnVariant VolumeRef.shape VolumeRef.tree := fun _ =>
    variant_of_kept <| .keep (.leaf _) <| .keep (.leaf _) .nil
  exact fun _ => variant_of_kept <|
    .keep (ownVariant_metadata _) <|
    .keep (.leaf _) <|
    .keep (hTexts _) <|
    .keep (hTexts _) <|
    .keep (ownVariant_nullable ownVariant_leaf (fun _ hEq => by cases hEq) _) <|
    .keep (.leaf _) <|
    .keep (.leaf _) <|
    .keep (.leaf _) <|
    .keep (ownVariant_list hPort _) <|
    .keep (ownVariant_nullable ownVariant_resources (fun _ hEq => by cases hEq) _) <|
    .keep (ownVariant_list hSecret _) <|
    .keep (ownVariant_list hFile _) <|
    .keep (ownVariant_list hVolume _) <|
    .keep (ownVariant_nullable ownVariant_leaf (fun _ hEq => by cases hEq) _) .nil

/-- A specification may be written as its tree says. -/
theorem ownVariant_specification : OwnVariant Specification.shape Specification.tree := fun _ =>
  variant_of_kept <|
    .keep (ownVariant_metadata _) <|
    .keep (ownVariant_registries _) <|
    .keep (ownVariant_list ownVariant_step _) <|
    .keep (ownVariant_list ownVariant_data.1 _) <|
    .keep (ownVariant_list ownVariant_data.2 _) <|
    .keep (ownVariant_list ownVariant_volume _) .nil

/-! ## Value trees -/

/-- A value tree shows itself. -/
theorem faithful_tree : Tree.dialect.Faithful Eq where
  text _ h := by subst h; rfl
  bool _ h := by subst h; rfl
  int _ h hWidth := by subst h; exact if_pos hWidth
  items h := by subst h; exact ⟨_, List.forall₂_same.mpr fun _ _ => rfl, fun _ => rfl⟩
  entries := by
    rintro fields _ rfl
    refine ⟨Tree.keyed fields, ?_, fun _ => rfl, fun _ _ => rfl⟩
    exact List.forall₂_map_right_iff.mpr (List.forall₂_same.mpr fun _ _ => ⟨rfl, rfl⟩)
  variant _ h := by subst h; rfl
  null _ h := by subst h; rfl
  present := by
    rintro t _ path rfl hNull
    cases t with
    | null => exact absurd rfl hNull
    | _ => rfl
  name _ h := by subst h; rfl
  skip _ := rfl

/-- A specification is read from every variant of its tree. -/
theorem ofTree_variant (s : Specification) {t : Tree}
    (hVariant : Variant Specification.shape s.tree t) : Specification.ofTree t = .ok s := by
  unfold Specification.ofTree
  rw [understood_specification faithful_tree s t t .root hVariant rfl]
  rfl

end PodCompiler
