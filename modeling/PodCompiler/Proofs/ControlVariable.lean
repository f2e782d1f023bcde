import PodCompiler.Proofs.Notices
import Mathlib.Data.List.Sort

/-!
# PodCompiler — the variable that only controls the pod

One name among the variables of a step is reserved: it says whether the pod mounts its service
account token, and it is no variable of the container. It is kept in the same map as the others, so
that declaring it moves entries of that map. Here two steps are compared that differ in nothing but
this entry, in its value or in its being there at all. They compile to the same objects but for the
one flag of the pod, and to the same notices but for a warning about the entry itself; and where a
step decides about the flag on its own, they compile to the same in every respect.

The comparison rests on the map being sorted: what is left of it without the reserved name is
determined by what is found under the other names.

Main results:

* `filterKeys_congr` — sorted maps in which the same is found under some names agree on these names.
* `SameButControl.declaredEnv` — the entry does not disturb the variables of the container.
* `compile_same_but_control` — what the entry has no influence on.
-/

namespace PodCompiler

/-! ## Parts of sorted maps -/

/-- Ascending lists of entries with the same members are the same. -/
theorem eq_of_mem_iff_of_ascending {β : Type} {l l' : List (String × β)} (hl : Ascending l)
    (hl' : Ascending l') (hMem : ∀ e, e ∈ l ↔ e ∈ l') : l = l' := by
  -- the order is on the names alone, so it has to be shown strict for entries
  have hIrrefl : Std.Irrefl fun a b : String × β => a.1 < b.1 :=
    ⟨fun a => String.lt_irrefl a.1⟩
  have hAntisymm : Std.Antisymm fun a b : String × β => a.1 < b.1 :=
    ⟨fun a b hab hba => absurd hba (String.lt_asymm hab)⟩
  exact List.Pairwise.eq_of_mem_iff hl hl' hMem

/-- Sorted maps in which the same is found under the names that are kept agree on these names. -/
theorem filterKeys_congr {β : Type} {m m' : SortedMap β} {keep : String → Bool}
    (hGet : ∀ key, keep key = true → m.get? key = m'.get? key) :
    m.filterKeys keep = m'.filterKeys keep := by
  refine SortedMap.ext (eq_of_mem_iff_of_ascending (m.filterKeys keep).ascending
    (m'.filterKeys keep).ascending fun e => ?_)
  have hEntry (n : SortedMap β) : e ∈ (n.filterKeys keep).entries ↔
      n.get? e.1 = some e.2 ∧ keep e.1 = true := by
    rw [SortedMap.get_eq_some_iff]
    exact List.mem_filter
  rw [hEntry, hEntry]
  constructor
  · rintro ⟨hFound, hKeep⟩
    exact ⟨hGet e.1 hKeep ▸ hFound, hKeep⟩
  · rintro ⟨hFound, hKeep⟩
    exact ⟨(hGet e.1 hKeep).symm ▸ hFound, hKeep⟩

/-! ## Steps that differ in the reserved entry -/

/-- Two steps differ at most in the variable that controls the pod: in its value, or in whether they
declare it. -/
structure SameButControl (a b : Step) : Prop where
  rest : b = { a with envs := b.envs }
  envs : ∀ name, name ≠ automountVariable → b.envs.get? name = a.envs.get? name

/-- Declaring the variable, or declaring it anew, makes no other difference. -/
theorem sameButControl_insert (step : Step) (value : String) :
    SameButControl step { step with envs := step.envs.insert automountVariable value } :=
  ⟨rfl, fun _ hName => step.envs.insert_get_ne hName.symm value⟩

variable {a b : Step} (hSame : SameButControl a b) (spec : Specification)
include hSame

/-- The variables of the container are the same, in the same order. -/
theorem SameButControl.declaredEnv : b.declaredEnv = a.declaredEnv := by
  have hKept : (b.envs.filterKeys fun name => name ≠ automountVariable) =
      a.envs.filterKeys fun name => name ≠ automountVariable :=
    filterKeys_congr fun name hName => hSame.envs name (by simpa using hName)
  have hDeclared (step : Step) : step.declaredEnv =
      (step.envs.filterKeys fun name => name ≠ automountVariable).entries.map fun e =>
        { name := e.1, value := .literal e.2 } := rfl
  rw [hDeclared, hDeclared, hKept]

/-- The compiled steps are the same but for the flag of the pod. -/
theorem SameButControl.compile_value :
    (b.compile spec).value =
      { (a.compile spec).value with
        pod := { (a.compile spec).value.pod with automountToken := b.automount.value } } := by
  have hEnv := hSame.declaredEnv
  obtain ⟨hRest, -⟩ := hSame
  rw [PodCompiler.compile_value, PodCompiler.compile_value, hEnv]
  -- everything else is read off fields that the steps have in common
  generalize b.automount.value = token
  generalize b.envs = envs at hRest
  subst hRest
  rfl

/-- The notices are the same but for those about the flag. -/
theorem SameButControl.compile_notices :
    (b.compile spec).notices =
      .compiling a.metadata.name ::
        (a.podNotices spec ++ b.automount.notices ++ a.itemNotices spec ++
          [.compiled a.metadata.name a.metadata.uid
            (a.compile spec).value.secrets.length
            (a.compile spec).value.configMaps.length]) := by
  rw [PodCompiler.compile_notices, hSame.compile_value spec]
  obtain ⟨hRest, -⟩ := hSame
  generalize b.automount.notices = notices
  generalize b.envs = envs at hRest
  subst hRest
  rfl

/-- Where the step decides about the flag on its own, the entry is not looked at. -/
theorem SameButControl.automount_eq {token : Bool} (hToken : a.automountToken = some token) :
    b.automount = pure token ∧ a.automount = pure token := by
  have hOther : b.automountToken = some token := by
    rw [hSame.rest]
    exact hToken
  rw [Step.automount, Step.automount, hToken, hOther]
  exact ⟨rfl, rfl⟩

/-- **Confinement of the reserved variable.** Two steps that differ at most in the variable which
controls the pod compile to the same objects but for the flag of the pod, and to the same notices
but for warnings. If the step decides about the flag on its own, they compile to the same objects
with the same notices, and the flag is what the step says. -/
theorem compile_same_but_control :
    (b.compile spec).value =
        { (a.compile spec).value with
          pod :=
            { (a.compile spec).value.pod with
              automountToken := (b.compile spec).value.pod.automountToken } } ∧
      ((b.compile spec).notices.filter fun n => n.level ≠ .warn) =
        ((a.compile spec).notices.filter fun n => n.level ≠ .warn) ∧
      ∀ token, a.automountToken = some token →
        b.compile spec = a.compile spec ∧ (b.compile spec).value.pod.automountToken = token := by
  have hValue := hSame.compile_value spec
  have hNotices := hSame.compile_notices spec
  refine ⟨?value, ?notices, fun token hToken => ?decided⟩
  case value => exact hValue
  case notices =>
    have hWarnings (step : Step) :
        (step.automount.notices.filter fun n => n.level ≠ .warn) = [] := by
      rw [List.filter_eq_nil_iff]
      intro n hNotice
      simp [level_of_mem_automount hNotice]
    rw [hNotices, PodCompiler.compile_notices]
    simp only [List.filter_cons, List.filter_append, hWarnings]
  case decided =>
    obtain ⟨hOther, hOwn⟩ := hSame.automount_eq hToken
    refine ⟨Logged.ext ?_ ?_, congrArg Logged.value hOther⟩
    · rw [hValue, hOther, PodCompiler.compile_value, hOwn]
    · rw [hNotices, hOther, PodCompiler.compile_notices spec a, hOwn]

omit hSame spec

/-- A step with variables on either side of the reserved one, and a secret that is not there. -/
def undecided : Step :=
  { metadata := .new "step-uid" "build"
    image := "alpine"
    envs := .ofList [("CI", "true"), ("ZONE", "eu")]
    secrets := [{ name := "missing", env := "TOKEN" }] }

/-- The same with the option that decides about the flag. -/
def decided : Step := { undecided with automountToken := some false }

/-- Declaring the reserved variable gives the undecided step the token and nothing else; a value
that means nothing makes a warning; and the decided step is left alone. -/
theorem undecided_same_but_control :
    SameButControl undecided
        { undecided with envs := undecided.envs.insert automountVariable "true" } ∧
      (Step.compile default { undecided with
          envs := undecided.envs.insert automountVariable "true" }).value =
        { (undecided.compile default).value with
          pod := { (undecided.compile default).value.pod with automountToken := true } } ∧
      (undecided.compile default).value.pod.automountToken = false ∧
      ((Step.compile default { undecided with
          envs := undecided.envs.insert automountVariable "yes" }).notices.filter
            fun n => n.level = .warn).length = 1 ∧
      Step.compile default { decided with
          envs := decided.envs.insert automountVariable "yes" } = decided.compile default := by
  have hUndecided := sameButControl_insert undecided "true"
  have hDecided := sameButControl_insert decided "yes"
  exact ⟨hUndecided, (compile_same_but_control hUndecided default).1, by decide, by decide,
    ((compile_same_but_control hDecided default).2.2 false rfl).1⟩

end PodCompiler
