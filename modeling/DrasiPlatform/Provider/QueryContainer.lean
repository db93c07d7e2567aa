/-
The environment of a query host: `QueryContainerSpecBuilder::build`
(`control-planes/kubernetes_provider/src/spec_builder/query_container.rs`) turns the storage map of a query container into
numbered variables, and `map_env_vars` and `build_deployment_spec` (`spec_builder/mod.rs`) into the variables of the pod.

The storage map is a `HashMap`: an association list in any order, without duplicate names. Left out: the publish API's and
the view service's deployments, services and volumes, which have no part in the host's variables.

- `storeKey_inj`: the names of the variables are told apart by the number and the field.
- `lookup_queryHostEnv`: what each name stands for in the map the builder makes (`Encodes`).
- `environment_mapEnvVars`: the pod's variables are that map, with the secrets resolved.
-/
import Mathlib.Tactic
import Mathlib.Data.List.AList

namespace DrasiPlatform.Provider

/-! ## Model -/

/-- `BTreeMap<String, V>` and `HashMap<String, V>` -/
abbrev StrMap (V : Type) : Type := AList fun _ : String => V

inductive ConfigValue where
  | inline (value : String)
  | secret (name key : String)
deriving DecidableEq

inductive StorageSpec where
  | memory (enableArchive : Bool)
  | redis (connectionString : ConfigValue) (cacheSize : Option UInt32)
  | rocksDb (enableArchive : Bool) (storageClass : Option String) (directIo : Bool)

structure QueryContainerSpec where
  results : StrMap ConfigValue
  storage : StrMap StorageSpec
  defaultStore : String

/-- a variable of the pod; `valueFrom` is a secret's name and key -/
structure EnvVar where
  name : String
  value : Option String
  valueFrom : Option (String × String)

/-- `format!("STORE_{}_..", index)`, with the rest of the name as its suffix -/
def storeKey (index : ℕ) (suffix : String) : String := "STORE_" ++ (index.repr ++ suffix)

/-- the variables of one store, by the suffix of their names, in the order they are inserted -/
def storeFields (name : String) : StorageSpec → List (String × ConfigValue)
  | .memory enableArchive =>
    [("", .inline name), ("_TYPE", .inline "Memory"), ("_ENABLE_ARCHIVE", .inline (toString enableArchive))]
  | .redis connectionString none =>
    [("", .inline name), ("_TYPE", .inline "Redis"), ("_CONNECTION_STRING", connectionString)]
  | .redis connectionString (some cacheSize) =>
    [("", .inline name), ("_TYPE", .inline "Redis"), ("_CONNECTION_STRING", connectionString),
      ("_CACHE_SIZE", .inline cacheSize.toNat.repr)]
  | .rocksDb enableArchive _ directIo =>
    [("", .inline name), ("_TYPE", .inline "RocksDb"), ("_ENABLE_ARCHIVE", .inline (toString enableArchive)),
      ("_DIRECT_IO", .inline (toString directIo))]

def insertFields (index : ℕ) (env : StrMap ConfigValue) : List (String × ConfigValue) → StrMap ConfigValue
  | [] => env
  | (suffix, value) :: fields => insertFields index (env.insert (storeKey index suffix) value) fields

/-- the loop over the stores -/
def insertStores (index : ℕ) (env : StrMap ConfigValue) : List (Σ _ : String, StorageSpec) → StrMap ConfigValue
  | [] => env
  | ⟨name, spec⟩ :: stores => insertStores (index + 1) (insertFields index env (storeFields name spec)) stores

/-- `env.extend(map)` -/
def extend (env : StrMap ConfigValue) : List (Σ _ : String, ConfigValue) → StrMap ConfigValue
  | [] => env
  | ⟨key, value⟩ :: entries => extend (env.insert key value) entries

/-- the `env` of the query host -/
def queryHostEnv (id : String) (spec : QueryContainerSpec) : StrMap ConfigValue :=
  let env := (∅ : StrMap ConfigValue).insert "QUERY_NODE_ID" (.inline id)
  let env := extend env spec.results.entries
  let env := env.insert "DEFAULT_STORE" (.inline spec.defaultStore)
  insertStores 0 env spec.storage.entries

def envVar (key : String) : ConfigValue → EnvVar
  | .inline value => ⟨key, some value, none⟩
  | .secret name secretKey => ⟨key, none, some (name, secretKey)⟩

/-- `map_env_vars`, in the order of the names -/
def mapEnvVars (env : StrMap ConfigValue) : List EnvVar :=
  (env.entries.map fun e => envVar e.1 e.2).mergeSort fun a b => a.name ≤ b.name

/-- the variables of the container `query-host` -/
def build (id : String) (spec : QueryContainerSpec) : List EnvVar := mapEnvVars (queryHostEnv id spec)

/-- the environment a process of the pod sees; `secrets` are the values in the cluster -/
def environment (secrets : String → String → String) (vars : List EnvVar) (name : String) : Option String :=
  (vars.find? fun v => v.name = name).map fun v =>
    v.value.getD ((v.valueFrom.map fun ref => secrets ref.1 ref.2).getD "")

def ConfigValue.resolve (secrets : String → String → String) : ConfigValue → String
  | .inline value => value
  | .secret name key => secrets name key

/-! ## Names -/

/-- the end of a variable's name: the number before it ends where it starts -/
def IsSuffix (suffix : String) : Prop := ∀ c ∈ suffix.toList.head?, c.isDigit = false

instance (suffix : String) : Decidable (IsSuffix suffix) :=
  decidable_of_iff (suffix.toList.head?.all (fun c => !c.isDigit) = true) (by simp [IsSuffix, Option.all_eq_true])

theorem takeWhile_isDigit_repr (n : ℕ) {s : List Char} (hs : ∀ c ∈ s.head?, c.isDigit = false) :
    (Nat.toDigits 10 n ++ s).takeWhile Char.isDigit = Nat.toDigits 10 n := by
  rw [List.takeWhile_append_of_pos fun c hc => Nat.isDigit_of_mem_toDigits (by decide) (by decide) hc]
  cases s with
  | nil => simp
  | cons c s =>
    have hc : c.isDigit = false := hs c rfl
    simp [hc]

/-- **A variable is told by its number and its field.** -/
theorem storeKey_inj {i j : ℕ} {s t : String} (hs : IsSuffix s) (ht : IsSuffix t) :
    storeKey i s = storeKey j t ↔ i = j ∧ s = t := by
  constructor
  · intro h
    have hchars : Nat.toDigits 10 i ++ s.toList = Nat.toDigits 10 j ++ t.toList := by
      simpa [storeKey] using congrArg String.toList h
    have hdigits : Nat.toDigits 10 i = Nat.toDigits 10 j := by
      rw [← takeWhile_isDigit_repr i hs, hchars, takeWhile_isDigit_repr j ht]
    have hindex : i = j := by
      rw [← Nat.ofDigitChars_ten_toDigits (n := i), hdigits, Nat.ofDigitChars_ten_toDigits]
    rw [hdigits, List.append_right_inj] at hchars
    exact ⟨hindex, String.toList_inj.1 hchars⟩
  · rintro ⟨rfl, rfl⟩
    rfl

/-- a name outside the numbered ones -/
def NotStore (key : String) : Prop := ¬ "STORE_".toList <+: key.toList

theorem NotStore.ne {key : String} (h : NotStore key) (index : ℕ) (suffix : String) : key ≠ storeKey index suffix := by
  rintro rfl
  exact h (by simp [storeKey])

/-! ## The map -/

theorem lookup_extend {key : String} {entries : List (Σ _ : String, ConfigValue)} (env : StrMap ConfigValue)
    (h : ∀ e ∈ entries, e.1 ≠ key) : (extend env entries).lookup key = env.lookup key := by
  induction entries generalizing env with
  | nil => rfl
  | cons e entries ih =>
    rw [extend, ih _ fun e' he' => h e' (List.mem_cons_of_mem e he'),
      AList.lookup_insert_ne (h e List.mem_cons_self).symm]

theorem isSuffix_storeFields (name : String) (spec : StorageSpec) : ∀ f ∈ storeFields name spec, IsSuffix f.1 := by
  have hsuffix : ∀ suffix ∈ ["", "_TYPE", "_ENABLE_ARCHIVE", "_CONNECTION_STRING", "_CACHE_SIZE", "_DIRECT_IO"],
      IsSuffix suffix := by
    decide
  intro f hf
  refine hsuffix f.1 ?_
  cases spec with
  | memory enableArchive =>
    simp only [storeFields, List.mem_cons, List.not_mem_nil, or_false] at hf
    rcases hf with rfl | rfl | rfl <;> simp
  | redis connectionString cacheSize =>
    cases cacheSize <;> simp only [storeFields, List.mem_cons, List.not_mem_nil, or_false] at hf
    · rcases hf with rfl | rfl | rfl <;> simp
    · rcases hf with rfl | rfl | rfl | rfl <;> simp
  | rocksDb enableArchive storageClass directIo =>
    simp only [storeFields, List.mem_cons, List.not_mem_nil, or_false] at hf
    rcases hf with rfl | rfl | rfl | rfl <;> simp

/-- the fields of the store `index` change no other name -/
theorem lookup_insertFields_ne {index : ℕ} {key : String} {fields : List (String × ConfigValue)} (env : StrMap ConfigValue)
    (h : ∀ f ∈ fields, key ≠ storeKey index f.1) : (insertFields index env fields).lookup key = env.lookup key := by
  induction fields generalizing env with
  | nil => rfl
  | cons f fields ih =>
    rw [insertFields, ih _ fun f' hf' => h f' (List.mem_cons_of_mem f hf'),
      AList.lookup_insert_ne (h f List.mem_cons_self)]

/-- of several fields with one suffix the last one stands -/
theorem lookup_insertFields {index : ℕ} {suffix : String} (hs : IsSuffix suffix) {fields : List (String × ConfigValue)}
    (env : StrMap ConfigValue) (h : ∀ f ∈ fields, IsSuffix f.1) :
    (insertFields index env fields).lookup (storeKey index suffix) =
      (fields.reverse.lookup suffix).or (env.lookup (storeKey index suffix)) := by
  induction fields generalizing env with
  | nil => rfl
  | cons f fields ih =>
    rcases f with ⟨suffix', value⟩
    have hs' : IsSuffix suffix' := h _ List.mem_cons_self
    rw [insertFields, ih _ fun f' hf' => h f' (List.mem_cons_of_mem _ hf'), List.reverse_cons, List.lookup_append,
      Option.or_assoc]
    congr 1
    by_cases heq : suffix = suffix'
    · subst heq
      rw [AList.lookup_insert]
      simp
    · have hne : storeKey index suffix ≠ storeKey index suffix' := fun hk => heq ((storeKey_inj hs hs').1 hk).2
      rw [AList.lookup_insert_ne hne, List.lookup_cons, beq_eq_false_iff_ne.2 heq]
      rfl

theorem lookup_insertStores_ne {index : ℕ} {key : String} {stores : List (Σ _ : String, StorageSpec)}
    (env : StrMap ConfigValue) (h : ∀ j ≥ index, ∀ suffix, IsSuffix suffix → key ≠ storeKey j suffix) :
    (insertStores index env stores).lookup key = env.lookup key := by
  induction stores generalizing index env with
  | nil => rfl
  | cons store stores ih =>
    rcases store with ⟨name, spec⟩
    rw [insertStores, ih _ fun j hj => h j (by omega)]
    exact lookup_insertFields_ne env fun f hf => h index le_rfl f.1 (isSuffix_storeFields name spec f hf)

/-- the variables of the stores from `index` on, and none behind them -/
def Encodes (var : String → Option ConfigValue) (index : ℕ) : List (Σ _ : String, StorageSpec) → Prop
  | [] => var (storeKey index "") = none
  | ⟨name, spec⟩ :: stores =>
    (∀ suffix, IsSuffix suffix → var (storeKey index suffix) = (storeFields name spec).reverse.lookup suffix) ∧
      Encodes var (index + 1) stores

theorem encodes_insertStores {index : ℕ} (stores : List (Σ _ : String, StorageSpec)) (env : StrMap ConfigValue)
    (h : ∀ j ≥ index, ∀ suffix, IsSuffix suffix → env.lookup (storeKey j suffix) = none) :
    Encodes (fun key => (insertStores index env stores).lookup key) index stores := by
  induction stores generalizing index env with
  | nil => exact h index le_rfl "" (by simp [IsSuffix])
  | cons store stores ih =>
    rcases store with ⟨name, spec⟩
    have hfields := isSuffix_storeFields name spec
    refine ⟨fun suffix hs => ?_, ih _ fun j hj suffix hs => ?_⟩
    · -- later stores have higher numbers
      have hlater : ∀ j ≥ index + 1, ∀ suffix', IsSuffix suffix' → storeKey index suffix ≠ storeKey j suffix' := by
        intro j hj suffix' hs' hk
        have := ((storeKey_inj hs hs').1 hk).1
        omega
      show (insertStores (index + 1) (insertFields index env (storeFields name spec)) stores).lookup _ = _
      rw [lookup_insertStores_ne _ hlater, lookup_insertFields hs env hfields, h index le_rfl suffix hs,
        Option.or_none]
    · have hne : ∀ f ∈ storeFields name spec, storeKey j suffix ≠ storeKey index f.1 := by
        intro f hf hk
        have := ((storeKey_inj hs (hfields f hf)).1 hk).1
        omega
      rw [lookup_insertFields_ne env hne]
      exact h j (by omega) suffix hs

/-- **What the builder puts into the environment**, when the results use no name of a store -/
theorem lookup_queryHostEnv (id : String) (spec : QueryContainerSpec)
    (h : ∀ key ∈ spec.results.keys, NotStore key) :
    (queryHostEnv id spec).lookup "DEFAULT_STORE" = some (.inline spec.defaultStore) ∧
      Encodes (fun key => (queryHostEnv id spec).lookup key) 0 spec.storage.entries := by
  have hdefault : NotStore "DEFAULT_STORE" := by
    unfold NotStore
    decide
  have hnode : NotStore "QUERY_NODE_ID" := by
    unfold NotStore
    decide
  refine ⟨?_, encodes_insertStores _ _ fun j _ suffix _ => ?_⟩
  · rw [queryHostEnv, lookup_insertStores_ne _ fun j _ suffix _ => hdefault.ne j suffix, AList.lookup_insert]
  · rw [AList.lookup_insert_ne (hdefault.ne j suffix).symm, lookup_extend, AList.lookup_insert_ne (hnode.ne j suffix).symm,
      AList.lookup_empty]
    intro e he
    exact (h e.1 (List.mem_map_of_mem he)).ne j suffix

/-! ## The pod -/

theorem name_envVar (e : Σ _ : String, ConfigValue) : (envVar e.1 e.2).name = e.1 := by
  cases e.2 <;> rfl

theorem mapEnvVars_perm (env : StrMap ConfigValue) : (mapEnvVars env).Perm (env.entries.map fun e => envVar e.1 e.2) :=
  List.mergeSort_perm _ _

theorem names_mapEnvVars (env : StrMap ConfigValue) : ((mapEnvVars env).map (·.name)).Perm env.keys := by
  refine ((mapEnvVars_perm env).map _).trans (.of_eq ?_)
  rw [List.map_map]
  exact List.map_congr_left fun e _ => name_envVar e

theorem nodup_mapEnvVars (env : StrMap ConfigValue) : ((mapEnvVars env).map (·.name)).Nodup :=
  (names_mapEnvVars env).nodup_iff.2 env.keys_nodup

/-- a variable is found by its name -/
theorem find_name {vars : List EnvVar} (hvars : (vars.map (·.name)).Nodup) {v : EnvVar} (hv : v ∈ vars) :
    vars.find? (fun w => w.name = v.name) = some v := by
  have hsome : (vars.find? fun w => w.name = v.name).isSome := List.find?_isSome.2 ⟨v, hv, by simp⟩
  obtain ⟨w, hw⟩ := Option.isSome_iff_exists.1 hsome
  rw [hw, List.inj_on_of_nodup_map hvars (List.mem_of_find?_eq_some hw) hv (by simpa using List.find?_some hw)]

/-- **The pod's variables are the builder's map**, with the secrets resolved. -/
theorem environment_mapEnvVars (secrets : String → String → String) (env : StrMap ConfigValue) (key : String) :
    environment secrets (mapEnvVars env) key = (env.lookup key).map (ConfigValue.resolve secrets) := by
  cases hl : env.lookup key with
  | none =>
    have hnone : (mapEnvVars env).find? (fun v => v.name = key) = none := by
      rw [List.find?_eq_none]
      intro v hv hname
      have hkey : v.name ∈ env.keys := (names_mapEnvVars env).mem_iff.1 (List.mem_map_of_mem hv)
      rw [of_decide_eq_true hname] at hkey
      exact AList.lookup_eq_none.1 hl hkey
    rw [environment, hnone]
    rfl
  | some value =>
    have hmem : (⟨key, value⟩ : Σ _ : String, ConfigValue) ∈ env.entries := AList.mem_lookup_iff.1 hl
    have hv : envVar key value ∈ mapEnvVars env := (mapEnvVars_perm env).mem_iff.2 (List.mem_map.2 ⟨_, hmem, rfl⟩)
    have hfind := find_name (nodup_mapEnvVars env) hv
    rw [name_envVar ⟨key, value⟩] at hfind
    rw [environment, hfind]
    cases value <;> rfl

end DrasiPlatform.Provider
