/-
The stores a query host knows: `IndexFactory::new` reads them back from its environment
(`query-container/query-host/src/index_factory.rs`), and `is_volatile` answers which of them are in memory.

`new` counts up from 0 as long as the next `STORE_i` is set. The number of turns is the parameter `fuel`; `none` is a loop
that has not ended. `to_lowercase` is the parameter `Lowercase`, of which the texts the builder writes need the ASCII part
only.

- `readStore_encoded`: one store is read back as it was written.
- `readStores_encoded`: the loop reads all of them and ends behind the last one.
- `index_configuration_survives`: the default store, the stores by name and `is_volatile` are those of the spec.
Witness: `index_configuration_survives_three`.
-/
import Mathlib.Tactic
import DrasiPlatform.ChangeStream.Redis
import DrasiPlatform.Provider.QueryContainer

namespace DrasiPlatform.QueryHost

open Provider ChangeStream

/-! ## Model -/

/-- `str::to_lowercase`, on ASCII texts letter by letter -/
structure Lowercase where
  toLowercase : String → String
  ascii : ∀ text, (∀ c ∈ text.toList, c.toNat < 128) → (toLowercase text).toList = text.toList.map Char.toLower

/-- the `StorageSpec` of the query host -/
inductive IndexStorageSpec where
  | memory (enableArchive : Bool)
  | redis (connectionString : String) (cacheSize : Option UInt64)
  | rocksDb (enableArchive directIo : Bool)
deriving DecidableEq

structure IndexFactory where
  defaultStore : String
  storageSpecs : StrMap IndexStorageSpec

section New

variable (L : Lowercase) (var : String → Option String)

/-- a flag, false when it is not set -/
def readFlag (index : ℕ) (suffix : String) : Bool :=
  match var (storeKey index suffix) with
  | some flag => L.toLowercase flag == "true"
  | none => false

/-- a size below 1, or none that parses, is no cache -/
def readCacheSize (index : ℕ) : Option UInt64 :=
  match var (storeKey index "_CACHE_SIZE") with
  | some cacheSize =>
    let size := (parseU64 cacheSize).getD 0
    if size < 1 then none else some size
  | none => none

/-- the spec of one store; `none` where the loop skips it -/
def readStore (index : ℕ) : Option IndexStorageSpec :=
  match var (storeKey index "_TYPE") with
  | none => none
  | some storeType =>
    match L.toLowercase storeType with
    | "memory" => some (.memory (readFlag L var index "_ENABLE_ARCHIVE"))
    | "redis" =>
      (var (storeKey index "_CONNECTION_STRING")).map fun connectionString =>
        .redis connectionString (readCacheSize var index)
    | "rocksdb" => some (.rocksDb (readFlag L var index "_ENABLE_ARCHIVE") (readFlag L var index "_DIRECT_IO"))
    | _ => none

/-- the loop over the numbers -/
def readStores : ℕ → ℕ → StrMap IndexStorageSpec → Option (StrMap IndexStorageSpec)
  | 0, _, _ => none
  | fuel + 1, index, specs =>
    match var (storeKey index "") with
    | none => some specs
    | some store =>
      match readStore L var index with
      | none => readStores fuel (index + 1) specs
      | some spec => readStores fuel (index + 1) (specs.insert store spec)

/-- `IndexFactory::new` -/
def IndexFactory.new (fuel : ℕ) : Option IndexFactory :=
  (readStores L var fuel 0 ∅).map fun specs =>
    let specs := if specs.entries.isEmpty then specs.insert "memory" (.memory false) else specs
    let firstStore := (specs.keys.mergeSort fun a b => a ≤ b).headD ""
    ⟨(var "DEFAULT_STORE").getD firstStore, specs⟩

end New

/-- `IndexFactory::is_volatile` -/
def IndexFactory.isVolatile (f : IndexFactory) (store : Option String) : Bool :=
  match f.storageSpecs.lookup (store.getD f.defaultStore) with
  | some (.memory _) => true
  | some (.redis _ _) => false
  | some (.rocksDb _ _) => false
  | none => false

/-- the spec a store of the container is read back as: a cache of size 0 is no cache -/
def indexSpec (secrets : String → String → String) : StorageSpec → IndexStorageSpec
  | .memory enableArchive => .memory enableArchive
  | .redis connectionString cacheSize =>
    .redis (connectionString.resolve secrets) ((cacheSize.filter (· ≠ 0)).map UInt32.toUInt64)
  | .rocksDb enableArchive _ directIo => .rocksDb enableArchive directIo

/-- the specs of the stores, inserted one after the other -/
def indexSpecs (secrets : String → String → String) (specs : StrMap IndexStorageSpec) :
    List (Σ _ : String, StorageSpec) → StrMap IndexStorageSpec
  | [] => specs
  | ⟨name, spec⟩ :: stores => indexSpecs secrets (specs.insert name (indexSpec secrets spec)) stores

/-! ## Texts -/

theorem Lowercase.eq (L : Lowercase) {text lower : String} (hascii : text.toList.all (fun c => c.toNat < 128) = true)
    (hlower : text.toList.map Char.toLower = lower.toList) : L.toLowercase text = lower :=
  String.toList_inj.1 ((L.ascii text (by simpa using hascii)).trans hlower)

section Read

variable {L : Lowercase} {secrets : String → String → String} {var : String → Option String} {index : ℕ}

theorem readFlag_toString {suffix : String} {flag : Bool} (h : var (storeKey index suffix) = some (toString flag)) :
    readFlag L var index suffix = flag := by
  cases flag
  · have hlower : L.toLowercase (toString false) = "false" := L.eq (by decide) (by decide)
    simp only [readFlag, h, hlower]
    decide
  · have hlower : L.toLowercase (toString true) = "true" := L.eq (by decide) (by decide)
    simp only [readFlag, h, hlower]
    decide

theorem readCacheSize_repr {size : UInt32} (h : var (storeKey index "_CACHE_SIZE") = some size.toNat.repr) :
    readCacheSize var index = ((some size).filter (· ≠ 0)).map UInt32.toUInt64 := by
  have hsize : (UInt64.ofNat size.toNat) = size.toUInt64 := by simp
  have hlt : size.toNat < 2 ^ 64 := size.toNat_lt.trans (by decide)
  simp only [readCacheSize, h, parseU64_repr hlt, Option.getD_some, hsize]
  by_cases hzero : size = 0
  · subst hzero
    decide
  · have hone : ¬ size.toUInt64 < 1 := by
      rw [UInt64.lt_iff_toNat_lt, UInt32.toNat_toUInt64, UInt64.toNat_one]
      have : size.toNat ≠ 0 := fun h0 => hzero (UInt32.toNat_inj.1 h0)
      omega
    simp [hone, hzero]

/-- **One store is read back as it was written.** -/
theorem readStore_encoded (name : String) (spec : StorageSpec) (h : ∀ suffix, IsSuffix suffix →
    var (storeKey index suffix) = ((storeFields name spec).reverse.lookup suffix).map (ConfigValue.resolve secrets)) :
    readStore L var index = some (indexSpec secrets spec) := by
  have htype := h "_TYPE" (by decide)
  have harchive := h "_ENABLE_ARCHIVE" (by decide)
  have hconnection := h "_CONNECTION_STRING" (by decide)
  have hcache := h "_CACHE_SIZE" (by decide)
  have hdirect := h "_DIRECT_IO" (by decide)
  cases spec with
  | memory enableArchive =>
    have htype : var (storeKey index "_TYPE") = some "Memory" := htype
    have harchive : var (storeKey index "_ENABLE_ARCHIVE") = some (toString enableArchive) := harchive
    have hlower : L.toLowercase "Memory" = "memory" := L.eq (by decide) (by decide)
    simp only [readStore, htype, hlower, readFlag_toString harchive, indexSpec]
  | redis connectionString cacheSize =>
    have hlower : L.toLowercase "Redis" = "redis" := L.eq (by decide) (by decide)
    cases cacheSize with
    | none =>
      have htype : var (storeKey index "_TYPE") = some "Redis" := htype
      have hconnection : var (storeKey index "_CONNECTION_STRING") = some (connectionString.resolve secrets) := hconnection
      have hcache : var (storeKey index "_CACHE_SIZE") = none := hcache
      simp only [readStore, htype, hlower, hconnection, readCacheSize, hcache, Option.map_some, indexSpec]
      rfl
    | some cacheSize =>
      have htype : var (storeKey index "_TYPE") = some "Redis" := htype
      have hconnection : var (storeKey index "_CONNECTION_STRING") = some (connectionString.resolve secrets) := hconnection
      have hcache : var (storeKey index "_CACHE_SIZE") = some cacheSize.toNat.repr := hcache
      simp only [readStore, htype, hlower, hconnection, readCacheSize_repr hcache, Option.map_some, indexSpec]
  | rocksDb enableArchive storageClass directIo =>
    have htype : var (storeKey index "_TYPE") = some "RocksDb" := htype
    have harchive : var (storeKey index "_ENABLE_ARCHIVE") = some (toString enableArchive) := harchive
    have hdirect : var (storeKey index "_DIRECT_IO") = some (toString directIo) := hdirect
    have hlower : L.toLowercase "RocksDb" = "rocksdb" := L.eq (by decide) (by decide)
    simp only [readStore, htype, hlower, readFlag_toString harchive, readFlag_toString hdirect, indexSpec]

/-- **The loop reads all stores**, and ends behind the last one. -/
theorem readStores_encoded {env : String → Option ConfigValue} {stores : List (Σ _ : String, StorageSpec)} {fuel : ℕ}
    (specs : StrMap IndexStorageSpec) (h : Encodes env index stores) (hfuel : stores.length < fuel) :
    readStores L (fun key => (env key).map (ConfigValue.resolve secrets)) fuel index specs =
      some (indexSpecs secrets specs stores) := by
  induction stores generalizing fuel index specs with
  | nil =>
    obtain ⟨fuel, rfl⟩ := Nat.exists_eq_succ_of_ne_zero hfuel.ne'
    rw [readStores, show env (storeKey index "") = none from h]
    rfl
  | cons store stores ih =>
    rcases store with ⟨name, spec⟩
    obtain ⟨hfields, hrest⟩ := h
    obtain ⟨fuel, rfl⟩ := Nat.exists_eq_succ_of_ne_zero (Nat.ne_of_gt (Nat.zero_lt_of_lt hfuel))
    have hname : env (storeKey index "") = some (.inline name) := by
      rw [hfields "" (by simp [IsSuffix])]
      cases spec with
      | memory enableArchive => rfl
      | redis connectionString cacheSize => cases cacheSize <;> rfl
      | rocksDb enableArchive storageClass directIo => rfl
    have hstore : readStore L (fun key => (env key).map (ConfigValue.resolve secrets)) index =
        some (indexSpec secrets spec) :=
      readStore_encoded name spec fun suffix hs => congrArg _ (hfields suffix hs)
    rw [readStores, hname]
    simp only [Option.map_some, hstore]
    rw [ih _ hrest (by simpa using hfuel)]
    rfl

end Read

theorem lookup_indexSpecs (secrets : String → String → String) {stores : List (Σ _ : String, StorageSpec)}
    (hstores : stores.NodupKeys) (specs : StrMap IndexStorageSpec) (name : String) :
    (indexSpecs secrets specs stores).lookup name =
      ((stores.dlookup name).map (indexSpec secrets)).or (specs.lookup name) := by
  induction stores generalizing specs with
  | nil => rfl
  | cons store stores ih =>
    rcases store with ⟨name', spec⟩
    rw [indexSpecs, ih (List.nodupKeys_cons.1 hstores).2]
    by_cases hname : name = name'
    · subst hname
      rw [List.dlookup_eq_none.2 (List.nodupKeys_cons.1 hstores).1, List.dlookup_cons_eq, AList.lookup_insert]
      rfl
    · rw [List.dlookup_cons_ne _ _ hname, AList.lookup_insert_ne hname]

/-! ## Main result -/

/-- **The index configuration survives the environment.** For every non-empty storage map (any number of stores of any kind,
in any order), every default store and every results map without a store's name: the host reads back the default store and
each store by its name, and exactly the stores the spec keeps in memory are volatile. -/
theorem index_configuration_survives (L : Lowercase) (secrets : String → String → String) (id : String)
    (spec : QueryContainerSpec) (hstorage : spec.storage.entries ≠ []) (hresults : ∀ key ∈ spec.results.keys, NotStore key)
    (fuel : ℕ) (hfuel : spec.storage.entries.length < fuel) :
    ∃ f, IndexFactory.new L (environment secrets (build id spec)) fuel = some f ∧ f.defaultStore = spec.defaultStore ∧
      (∀ name, f.storageSpecs.lookup name = (spec.storage.lookup name).map (indexSpec secrets)) ∧
      ∀ store, f.isVolatile store = true ↔
        ∃ enableArchive, spec.storage.lookup (store.getD spec.defaultStore) = some (.memory enableArchive) := by
  have hvar : environment secrets (build id spec) =
      fun key => ((queryHostEnv id spec).lookup key).map (ConfigValue.resolve secrets) :=
    funext fun key => environment_mapEnvVars secrets _ key
  obtain ⟨hdefault, hencodes⟩ := lookup_queryHostEnv id spec hresults
  obtain ⟨specs, hread, hlookup⟩ : ∃ specs : StrMap IndexStorageSpec,
      readStores L (environment secrets (build id spec)) fuel 0 ∅ = some specs ∧
        ∀ name, specs.lookup name = (spec.storage.lookup name).map (indexSpec secrets) := by
    refine ⟨_, hvar ▸ readStores_encoded ∅ hencodes hfuel, fun name => ?_⟩
    rw [lookup_indexSpecs secrets spec.storage.nodupKeys, AList.lookup_empty, Option.or_none]
    rfl
  -- the first store of the spec is one of those read
  have hsome : specs.entries.isEmpty = false := by
    obtain ⟨e, rest, he⟩ := List.exists_cons_of_ne_nil hstorage
    have hmem : e.1 ∈ spec.storage := by
      rw [AList.mem_keys, AList.keys, he]
      exact List.mem_cons_self
    have hfound : e.1 ∈ specs := by
      rw [← AList.lookup_isSome, hlookup, Option.isSome_map, AList.lookup_isSome]
      exact hmem
    rw [List.isEmpty_eq_false_iff]
    intro hnil
    rw [AList.mem_keys, AList.keys, hnil] at hfound
    cases hfound
  have hnew : IndexFactory.new L (environment secrets (build id spec)) fuel = some ⟨spec.defaultStore, specs⟩ := by
    have henv : environment secrets (build id spec) "DEFAULT_STORE" = some spec.defaultStore := by
      rw [hvar]
      simp only [hdefault, Option.map_some, ConfigValue.resolve]
    rw [IndexFactory.new, hread]
    simp only [Option.map_some, hsome, henv, Option.getD_some, Bool.false_eq_true, if_false]
  refine ⟨_, hnew, rfl, hlookup, fun store => ?_⟩
  simp only [IndexFactory.isVolatile, hlookup]
  rcases spec.storage.lookup (store.getD spec.defaultStore) with _ | ⟨_⟩ | ⟨_⟩ | ⟨_⟩ <;> simp [indexSpec]

/-- lower case letter by letter -/
def asciiLowercase : Lowercase := ⟨fun text => .ofList (text.toList.map Char.toLower), fun _ _ => String.toList_ofList⟩

/-- one store of each kind, the cache with size 0 -/
def threeStores : QueryContainerSpec where
  results := ∅
  storage :=
    ⟨[⟨"disk", .rocksDb true none false⟩, ⟨"cache", .redis (.inline "redis://drasi-redis:6379") (some 0)⟩,
      ⟨"memory", .memory false⟩], by simp [List.NodupKeys, List.keys]⟩
  defaultStore := "memory"

theorem index_configuration_survives_three :
    ∃ f, IndexFactory.new asciiLowercase (environment (fun _ _ => "") (build "default" threeStores)) 4 = some f ∧
      f.storageSpecs.lookup "cache" = some (.redis "redis://drasi-redis:6379" none) ∧ f.isVolatile none = true := by
  obtain ⟨f, hnew, -, hlookup, hvolatile⟩ := index_configuration_survives asciiLowercase (fun _ _ => "") "default" threeStores
    (by decide) (by simp [threeStores]) 4 (by decide)
  exact ⟨f, hnew, hlookup "cache", (hvolatile none).2 ⟨false, rfl⟩⟩

end DrasiPlatform.QueryHost
