import PodCompiler.Proofs.JsonReading

/-!
# PodCompiler — what registries are told

The registry credentials of a specification go through three forms before they reach a pod: the map
of addresses, in which the last of several credentials for one address is kept; the text that a
registry takes, in base64; and the credentials file, in JSON. Each is undone by reading: whoever
reads the file finds the addresses that were declared and, for each of them, the name and the
password that were declared last. No text is lost, whatever characters are in it; only a colon in a
name cannot be told from the one behind it.

* `Registries.IsLast` — which credentials count.
* `RegistryAuth.ShownBy`, `Registries.ShownBy` — what a reader of the file finds.

Main results:

* `tokens_entry_iff` — what the map of addresses holds.
* `shownBy_config` — what is in the credentials file.
* `registry_credentials_shown` — the file, its secret, and the pods that pull with it.
-/

namespace PodCompiler

/-! ## Names and passwords -/

/-- A text before and behind its first colon. -/
def splitAtColon (s : String) : Option (String × String) :=
  match s.toList.dropWhile (· ≠ ':') with
  | [] => none
  | _ :: rest => some (String.ofList (s.toList.takeWhile (· ≠ ':')), String.ofList rest)

theorem splitAtColon_append {name : String} (hName : ':' ∉ name.toList) (password : String) :
    splitAtColon (name ++ ":" ++ password) = some (name, password) := by
  have hPlain : ∀ c ∈ name.toList, decide (c ≠ ':') = true := fun c hc =>
    decide_eq_true fun hColon => hName (hColon ▸ hc)
  have hText : (name ++ ":" ++ password).toList = name.toList ++ ':' :: password.toList := by
    simp
  rw [splitAtColon, hText, List.dropWhile_append_of_pos hPlain, List.takeWhile_append_of_pos hPlain]
  simp

/-- Whether a value of the credentials file stands for a name and a password. -/
def RegistryAuth.ShownBy (auth : RegistryAuth) (value : Tree) : Prop :=
  ∃ token pair, value = .object [("auth", .text token)] ∧ Base64.text? token = some pair ∧
    pair = auth.username ++ ":" ++ auth.password ∧
    (':' ∉ auth.username.toList → splitAtColon pair = some (auth.username, auth.password))

theorem RegistryAuth.shownBy_token (auth : RegistryAuth) :
    auth.ShownBy (.object [("auth", .text auth.token)]) :=
  ⟨auth.token, _, rfl, Base64.text_ofText _, rfl, fun hName => splitAtColon_append hName _⟩

/-! ## Addresses -/

namespace Registries

variable (r : Registries)

/-- Whether credentials are declared, and none behind them for the same address. -/
def IsLast (auth : RegistryAuth) : Prop :=
  ∃ before after, r.auths = before ++ auth :: after ∧ ∀ later ∈ after, later.address ≠ auth.address

theorem find_reverse_iff {address : String} {auth : RegistryAuth} :
    r.auths.reverse.find? (fun a => a.address = address) = some auth ↔
      r.IsLast auth ∧ auth.address = address := by
  rw [List.find?_eq_some_iff_append]
  constructor
  · rintro ⟨hFound, later, earlier, hSplit, hOther⟩
    have hAddress : auth.address = address := of_decide_eq_true hFound
    refine ⟨⟨earlier.reverse, later.reverse, ?_, fun a ha => ?_⟩, hAddress⟩
    · rw [List.reverse_eq_iff.mp hSplit]
      simp
    · have hNot := hOther a (List.mem_reverse.mp ha)
      rw [hAddress]
      simpa using hNot
  · rintro ⟨⟨before, after, hSplit, hLater⟩, rfl⟩
    refine ⟨decide_eq_true rfl, after.reverse, before.reverse, ?_, fun a ha => ?_⟩
    · rw [hSplit]
      simp
    · simpa using hLater a (List.mem_reverse.mp ha)

/-- Of the credentials for one address, some are the last. -/
theorem exists_last {auth : RegistryAuth} (hAuth : auth ∈ r.auths) :
    ∃ last, r.IsLast last ∧ last.address = auth.address := by
  have hSome : (r.auths.reverse.find? fun a => a.address = auth.address).isSome = true := by
    rw [List.find?_isSome]
    exact ⟨auth, List.mem_reverse.mpr hAuth, decide_eq_true rfl⟩
  obtain ⟨last, hLast⟩ := Option.isSome_iff_exists.mp hSome
  exact ⟨last, r.find_reverse_iff.mp hLast⟩

theorem IsLast.mem {auth : RegistryAuth} (hLast : r.IsLast auth) : auth ∈ r.auths := by
  obtain ⟨before, after, hSplit, -⟩ := hLast
  rw [hSplit]
  exact List.mem_append_right _ List.mem_cons_self

/-- What the map of addresses holds. -/
theorem tokens_entry_iff {address token : String} : (address, token) ∈ r.tokens.entries ↔
    ∃ auth, r.IsLast auth ∧ auth.address = address ∧ auth.token = token := by
  -- the map keeps what a search from the back of the list finds first
  have hFind : r.tokens.get? address =
      (r.auths.reverse.find? fun a => a.address = address).map RegistryAuth.token := by
    rw [tokens, SortedMap.get_ofList, ← List.map_reverse, List.find?_map, Option.map_map]
    rfl
  rw [← SortedMap.get_eq_some_iff, hFind, Option.map_eq_some_iff]
  simp only [find_reverse_iff, and_assoc]

/-! ## The credentials file -/

/-- Whether the fields of the credentials file tell the declared credentials: each address stands
there once, with the name and the password that were declared last for it. -/
structure ShownBy (entries : List (String × Tree)) : Prop where
  nodup : (entries.map (·.1)).Nodup
  addresses (address : String) :
    address ∈ entries.map (·.1) ↔ ∃ auth ∈ r.auths, auth.address = address
  last (e : String × Tree) (he : e ∈ entries) :
    ∃ auth, r.IsLast auth ∧ auth.address = e.1 ∧ auth.ShownBy e.2

/-- The fields of the credentials file. -/
def configEntries : List (String × Tree) :=
  r.tokens.entries.map fun e => (e.1, .object [("auth", .text e.2)])

theorem config_eq : r.config = .object [("auths", .object r.configEntries)] := rfl

theorem names_configEntries : r.configEntries.map (·.1) = r.tokens.entries.map (·.1) := by
  rw [configEntries, List.map_map]
  rfl

/-- The file holds nothing that JSON could not carry. -/
theorem exact_config : r.config.isExact = true := by
  have hValues : r.configEntries.all (fun e => e.2.isExact) = true := by
    rw [configEntries, List.all_map, List.all_eq_true]
    exact fun _ _ => rfl
  have hEntries : (Tree.object r.configEntries).isExact = true := by
    rw [Tree.isExact_object, names_configEntries, decide_eq_true r.tokens.nodup, hValues]
    rfl
  rw [config_eq, Tree.isExact_object, List.all_cons, hEntries]
  rfl

/-- What is in the credentials file. -/
theorem shownBy_config : r.ShownBy r.configEntries where
  nodup := r.names_configEntries ▸ r.tokens.nodup
  addresses address := by
    rw [names_configEntries, List.mem_map]
    constructor
    · rintro ⟨e, he, rfl⟩
      obtain ⟨auth, hLast, hAddress, -⟩ := r.tokens_entry_iff.mp he
      exact ⟨auth, hLast.mem, hAddress⟩
    · -- the entry may be that of other credentials for the address
      rintro ⟨auth, hAuth, rfl⟩
      obtain ⟨last, hLast, hAddress⟩ := r.exists_last hAuth
      exact ⟨(auth.address, last.token), r.tokens_entry_iff.mpr ⟨last, hLast, hAddress, rfl⟩, rfl⟩
  last e he := by
    obtain ⟨⟨address, token⟩, hEntry, rfl⟩ := List.mem_map.mp he
    obtain ⟨auth, hLast, hAddress, rfl⟩ := r.tokens_entry_iff.mp hEntry
    exact ⟨auth, hLast, hAddress, auth.shownBy_token⟩

end Registries

/-! ## The secret -/

/-- Pods pull with the secret of the registry credentials, and only with it. -/
theorem pullSecrets_eq (spec : Specification) (step : Step) :
    (step.compile spec).value.pod.pullSecrets =
      (spec.registrySecret.map (·.metadata.name)).toList := by
  show spec.pullSecrets = _
  rw [Specification.pullSecrets, Specification.registrySecret]
  split
  · rfl
  · rfl

theorem registrySecret_eq_some {spec : Specification} (hAuths : spec.registries.auths ≠ []) :
    ∃ secret, spec.registrySecret = some secret ∧
      secret.octets = [(".dockerconfigjson", spec.registries.config.compact)] := by
  have hSome : ¬ spec.registries.auths.isEmpty = true := by
    rwa [List.isEmpty_iff]
  rw [Specification.registrySecret, if_neg hSome]
  exact ⟨_, rfl, rfl⟩

/-- **Credentials survive.** There is a secret of the registry credentials exactly if the pods of
the steps pull with one, and it is the one that they name. Whenever any credentials are declared, it
is there, and its one entry is a JSON text, read as an object whose only field `auths` tells the
declared credentials: for each address the name and the password that were declared last. No address,
name or password is refused. -/
theorem registry_credentials_shown (spec : Specification) (step : Step) :
    (spec.registrySecret.isSome ↔ (step.compile spec).value.pod.pullSecrets ≠ []) ∧
    (∀ secret, spec.registrySecret = some secret →
      (step.compile spec).value.pod.pullSecrets = [secret.metadata.name]) ∧
    (spec.registries.auths ≠ [] → ∃ secret config entries,
      spec.registrySecret = some secret ∧ secret.octets = [(".dockerconfigjson", config)] ∧
      Json.ofOctets config.toUTF8 = some (.object [("auths", .object entries)]) ∧
      spec.registries.ShownBy entries) := by
  refine ⟨?present, ?name, ?shown⟩
  case present =>
    rw [pullSecrets_eq]
    cases spec.registrySecret with
    | none => simp
    | some secret => simp
  case name =>
    intro secret hSecret
    rw [pullSecrets_eq, hSecret]
    rfl
  case shown =>
    intro hAuths
    obtain ⟨secret, hSecret, hOctets⟩ := registrySecret_eq_some hAuths
    refine ⟨secret, spec.registries.config.compact, spec.registries.configEntries, hSecret, hOctets,
      ?_, spec.registries.shownBy_config⟩
    exact Json.ofOctets_compact spec.registries.exact_config

/-- A specification that declares one registry again, with another password, and a registry that
needs care in each form. -/
def renewed : Specification :=
  { metadata := .new "spec-uid" "pipeline"
    registries :=
      { auths :=
          [{ address := "registry.test", username := "octocat", password := "old" },
            { address := "bücher \x22test\x22", username := "jürgen", password := "a:b\n" },
            { address := "registry.test", username := "octocat", password := "n3w" }] } }

/-- A step that pulls an image for it. -/
def renewing : Step := { metadata := .new "step-uid" "build", image := "registry.test/builder" }

theorem renewed_credentials_shown :
    renewed.registries.auths ≠ [] ∧ ∃ secret config entries,
      renewed.registrySecret = some secret ∧ secret.octets = [(".dockerconfigjson", config)] ∧
      Json.ofOctets config.toUTF8 = some (.object [("auths", .object entries)]) ∧
      renewed.registries.ShownBy entries :=
  ⟨by decide, (registry_credentials_shown renewed renewing).2.2 (by decide)⟩

example : renewed.registries.tokens.entries.map (fun e => (e.1, Base64.text? e.2)) =
    [("bücher \x22test\x22", some "jürgen:a:b\n"), ("registry.test", some "octocat:n3w")] := by
  decide +kernel

end PodCompiler
