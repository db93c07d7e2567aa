/-
A tree of files: the paths below one directory, each with a directory or a file, and the operations of a file system library
on it. A path is the list of its components; `join` makes one of a name, as a path library does that cleans what it joins.

- `find_put`, `find_removeAll`, `find_mkdirAll_of_prefix`, `find_mkdirAll_of_not`: what stands where after an operation.
- `mem_readDir`: a directory lists exactly what stands in it, in the order of the names.
- `join_component`: a name that is one component stays what it is.
-/
import Mathlib.Tactic

namespace DrasiPlatform.FileTree

abbrev Path := List String

/-! ## Names -/

/-- components that say nothing are left out, and two dots take the component before them away -/
def clean (components : List String) : Path :=
  components.foldl (fun path c => if c = "" ∨ c = "." then path else if c = ".." then path.dropLast else path ++ [c]) []

def components (name : String) : List String := (name.toList.splitOn '/').map String.ofList

def join (base : Path) (name : String) : Path := clean (base ++ components name)

/-- a name that is a single component of a path -/
structure IsComponent (name : String) : Prop where
  notEmpty : name ≠ ""
  notDot : name ≠ "."
  notDots : name ≠ ".."
  noSlash : '/' ∉ name.toList

instance (name : String) : Decidable (IsComponent name) :=
  decidable_of_iff (name ≠ "" ∧ name ≠ "." ∧ name ≠ ".." ∧ '/' ∉ name.toList)
    ⟨fun h => ⟨h.1, h.2.1, h.2.2.1, h.2.2.2⟩, fun h => ⟨h.1, h.2, h.3, h.4⟩⟩

theorem clean_components {path : Path} (h : ∀ c ∈ path, IsComponent c) : clean path = path := by
  have hfold : ∀ (path done : Path), (∀ c ∈ path, IsComponent c) →
      path.foldl (fun path c => if c = "" ∨ c = "." then path else if c = ".." then path.dropLast else path ++ [c]) done =
        done ++ path := by
    intro path
    induction path with
    | nil => exact fun done _ => (List.append_nil done).symm
    | cons c path ih =>
      intro done h
      have hc := h c List.mem_cons_self
      rw [List.foldl_cons, if_neg (not_or.2 ⟨hc.notEmpty, hc.notDot⟩), if_neg hc.notDots,
        ih _ fun c' hc' => h c' (List.mem_cons_of_mem c hc'), List.append_assoc, List.singleton_append]
  exact hfold path [] h

theorem components_component {name : String} (h : IsComponent name) : components name = [name] := by
  rw [components, List.splitOn, List.splitOnP_eq_singleton]
  · simp
  · intro c hc
    simpa using fun heq : c = '/' => h.noSlash (heq ▸ hc)

theorem join_component {base : Path} {name : String} (hbase : ∀ c ∈ base, IsComponent c) (h : IsComponent name) :
    join base name = base ++ [name] := by
  rw [join, components_component h, clean_components]
  simpa [or_imp, forall_and] using ⟨hbase, h⟩

/-! ## Trees -/

inductive Node (D : Type) where
  | dir
  | file (data : D)
deriving DecidableEq

structure Tree (D : Type) where
  entries : List (Path × Node D)
  nodup : (entries.map Prod.fst).Nodup

variable {D : Type}

namespace Tree

def empty : Tree D := ⟨[], List.nodup_nil⟩

/-- what stands at a path; the root is a directory -/
def find (t : Tree D) (p : Path) : Option (Node D) := if p = [] then some .dir else t.entries.lookup p

def without (t : Tree D) (gone : Path → Bool) : Tree D :=
  ⟨t.entries.filter fun e => !gone e.1, t.nodup.sublist (List.filter_sublist.map _)⟩

def put (t : Tree D) (p : Path) (n : Node D) : Tree D where
  entries := (p, n) :: (t.without (· == p)).entries
  nodup := by
    rw [List.map_cons, List.nodup_cons]
    refine ⟨fun h => ?_, (t.without (· == p)).nodup⟩
    obtain ⟨e, he, rfl⟩ := List.mem_map.1 h
    simpa using (List.mem_filter.1 he).2

/-- `os.MkdirAll`, from the components that are there -/
def mkdirAll (t : Tree D) (done : Path) : Path → Option (Tree D)
  | [] => some t
  | c :: rest =>
    match t.find (done ++ [c]) with
    | some .dir => mkdirAll t (done ++ [c]) rest
    | some (.file _) => none
    | none => mkdirAll (t.put (done ++ [c]) .dir) (done ++ [c]) rest

/-- `os.WriteFile` -/
def writeFile (t : Tree D) (p : Path) (data : D) : Option (Tree D) :=
  match t.find p.dropLast, t.find p with
  | some .dir, some .dir => none
  | some .dir, _ => some (t.put p (.file data))
  | _, _ => none

/-- `os.ReadFile` -/
def readFile (t : Tree D) (p : Path) : Option D :=
  match t.find p with
  | some (.file data) => some data
  | _ => none

/-- `os.Remove`, of a file -/
def remove (t : Tree D) (p : Path) : Option (Tree D) :=
  match t.find p with
  | some (.file _) => some (t.without (· == p))
  | _ => none

/-- `os.RemoveAll` -/
def removeAll (t : Tree D) (p : Path) : Tree D := t.without (p.isPrefixOf ·)

/-- the entries of a directory, by name -/
def children (t : Tree D) (p : Path) : List (String × Node D) :=
  t.entries.filterMap fun e => if e.1.dropLast = p then e.1.getLast?.map fun name => (name, e.2) else none

/-- `os.ReadDir` -/
def readDir (t : Tree D) (p : Path) : List (String × Node D) :=
  (t.children p).mergeSort fun a b => decide (a.1 ≤ b.1)

/-! ### What stands where -/

@[simp] theorem find_nil (t : Tree D) : t.find [] = some .dir := if_pos rfl

theorem find_of_ne {t : Tree D} {p : Path} (h : p ≠ []) : t.find p = t.entries.lookup p := if_neg h

theorem lookup_iff_mem {K V : Type} [BEq K] [LawfulBEq K] {l : List (K × V)} (h : (l.map Prod.fst).Nodup) {p : K} {n : V} :
    l.lookup p = some n ↔ (p, n) ∈ l := by
  induction l with
  | nil => simp
  | cons e l ih =>
    obtain ⟨q, m⟩ := e
    rw [List.map_cons, List.nodup_cons] at h
    rw [List.lookup_cons, List.mem_cons, Prod.mk.injEq]
    by_cases hp : p = q
    · subst hp
      have hfresh : (p, n) ∉ l := fun hmem => h.1 (List.mem_map.2 ⟨(p, n), hmem, rfl⟩)
      simp [hfresh, eq_comm]
    · have hne : (p == q) = false := beq_eq_false_iff_ne.2 hp
      simp [hne, hp, ih h.2]

theorem find_eq_some_iff {t : Tree D} {p : Path} {n : Node D} (h : p ≠ []) : t.find p = some n ↔ (p, n) ∈ t.entries := by
  rw [find_of_ne h, lookup_iff_mem t.nodup]

theorem find_without (t : Tree D) (gone : Path → Bool) {p : Path} (h : p ≠ []) :
    (t.without gone).find p = if gone p then none else t.find p := by
  refine Option.ext fun n => ?_
  rw [find_eq_some_iff h, without, List.mem_filter]
  cases gone p with
  | true => simp
  | false => simp [find_eq_some_iff h]

theorem find_put (t : Tree D) {p : Path} (hp : p ≠ []) (n : Node D) (q : Path) :
    (t.put p n).find q = if q = p then some n else t.find q := by
  by_cases hq : q = []
  · subst hq
    rw [find_nil, find_nil, if_neg (Ne.symm hp)]
  · rw [find_of_ne hq, put, List.lookup_cons]
    by_cases hqp : q = p
    · simp [hqp]
    · have hrest := find_without t (· == p) hq
      have hne : (q == p) = false := beq_eq_false_iff_ne.2 hqp
      rw [find_of_ne hq, hne] at hrest
      simpa [hne, hqp] using hrest

theorem mem_children {t : Tree D} {p : Path} {name : String} {n : Node D} :
    (name, n) ∈ t.children p ↔ t.find (p ++ [name]) = some n := by
  rw [find_eq_some_iff (by simp), children, List.mem_filterMap]
  refine ⟨fun h => ?_, fun h => ⟨(p ++ [name], n), h, by simp⟩⟩
  obtain ⟨e, he, heq⟩ := h
  obtain ⟨q, m⟩ := e
  split_ifs at heq with hp
  obtain ⟨last, hlast, hpair⟩ := Option.map_eq_some_iff.1 heq
  obtain ⟨rfl, rfl⟩ := Prod.mk.inj hpair
  have hq : q = p ++ [last] := by
    rw [← hp]
    exact (List.dropLast_append_getLast? last hlast).symm
  exact hq ▸ he

/-- no name stands twice in a directory -/
theorem nodup_children (t : Tree D) (p : Path) : ((t.children p).map Prod.fst).Nodup := by
  have heq : (t.children p).map Prod.fst =
      (t.entries.map Prod.fst).filterMap fun q => if q.dropLast = p then q.getLast? else none := by
    rw [children, List.map_filterMap, List.filterMap_map]
    refine List.filterMap_congr fun e _ => ?_
    by_cases hp : e.1.dropLast = p
    · simp only [hp, if_true, Option.map_map, Function.comp_def]
      exact Option.map_id'
    · simp [hp]
  rw [heq]
  refine t.nodup.filterMap fun q q' name hq hq' => ?_
  simp only [Option.mem_def] at hq hq'
  split_ifs at hq hq' with hp hp'
  rw [← List.dropLast_append_getLast? name hq, ← List.dropLast_append_getLast? name hq', hp, hp']

/-- **What a directory lists.** -/
theorem mem_readDir {t : Tree D} {p : Path} {name : String} {n : Node D} :
    (name, n) ∈ t.readDir p ↔ t.find (p ++ [name]) = some n := by
  rw [readDir, (List.mergeSort_perm _ _).mem_iff, mem_children]

theorem sorted_readDir (t : Tree D) (p : Path) : ((t.readDir p).map Prod.fst).Pairwise (· ≤ ·) := by
  have htrans : ∀ a b c : String × Node D, decide (a.1 ≤ b.1) → decide (b.1 ≤ c.1) → decide (a.1 ≤ c.1) :=
    fun a b c hab hbc => decide_eq_true (String.le_trans (of_decide_eq_true hab) (of_decide_eq_true hbc))
  have htotal : ∀ a b : String × Node D, decide (a.1 ≤ b.1) || decide (b.1 ≤ a.1) := fun a b => by
    simpa using String.le_total a.1 b.1
  have h := List.pairwise_mergeSort htrans htotal (t.children p)
  exact List.pairwise_map.2 (h.imp fun hab => of_decide_eq_true hab)

theorem nodup_readDir (t : Tree D) (p : Path) : ((t.readDir p).map Prod.fst).Nodup :=
  ((List.mergeSort_perm _ _).map Prod.fst).nodup_iff.2 (t.nodup_children p)

theorem find_removeAll (t : Tree D) (p : Path) {q : Path} (hq : q ≠ []) :
    (t.removeAll p).find q = if p <+: q then none else t.find q := by
  rw [removeAll, find_without t _ hq]
  simp only [List.isPrefixOf_iff_prefix]

/-- nothing changes but on the way -/
theorem find_mkdirAll_of_not {t t' : Tree D} {done rest q : Path} (h : t.mkdirAll done rest = some t')
    (hq : ∀ s, s <+: rest → s ≠ [] → q ≠ done ++ s) : t'.find q = t.find q := by
  induction rest generalizing t done with
  | nil => rw [Option.some.inj h]
  | cons c rest ih =>
    have hthis : q ≠ done ++ [c] := hq [c] (List.cons_prefix_cons.2 ⟨rfl, List.nil_prefix⟩) (by simp)
    have hmore : ∀ s, s <+: rest → s ≠ [] → q ≠ done ++ [c] ++ s := fun s hs _ => by
      simpa using hq (c :: s) (List.cons_prefix_cons.2 ⟨rfl, hs⟩) (by simp)
    rw [mkdirAll] at h
    split at h
    · exact ih h hmore
    · cases h
    · rw [ih h hmore, find_put t (by simp), if_neg hthis]

/-- directories are made on the way -/
theorem find_mkdirAll_of_prefix {t t' : Tree D} {done rest s : Path} (h : t.mkdirAll done rest = some t') (hs : s <+: rest)
    (hne : s ≠ []) : t'.find (done ++ s) = some .dir := by
  induction rest generalizing t done s with
  | nil => exact absurd (List.prefix_nil.1 hs) hne
  | cons c rest ih =>
    obtain ⟨c', s, rfl⟩ := List.exists_cons_of_ne_nil hne
    obtain ⟨rfl, hrest⟩ := List.cons_prefix_cons.1 hs
    -- what is deeper is made later, and leaves this directory alone
    have hthere : ∀ {u : Tree D}, u.find (done ++ [c']) = some .dir → u.mkdirAll (done ++ [c']) rest = some t' →
        t'.find (done ++ c' :: s) = some .dir := by
      intro u hu hmkdir
      by_cases hnil : s = []
      · subst hnil
        rw [find_mkdirAll_of_not hmkdir fun s' _ hne' heq => hne' (by simpa using heq), hu]
      · simpa using ih hmkdir hrest hnil
    rw [mkdirAll] at h
    split at h
    · next hdir => exact hthere hdir h
    · cases h
    · exact hthere (by rw [find_put t (by simp), if_pos rfl]) h

/-- where no file is in the way -/
theorem exists_mkdirAll (t : Tree D) (done rest : Path) (h : ∀ s, s <+: rest → ∀ d, t.find (done ++ s) ≠ some (.file d)) :
    ∃ t', t.mkdirAll done rest = some t' := by
  induction rest generalizing t done with
  | nil => exact ⟨t, rfl⟩
  | cons c rest ih =>
    have hmore : ∀ s, s <+: rest → ∀ d, t.find (done ++ [c] ++ s) ≠ some (.file d) := fun s hs d => by
      simpa using h (c :: s) (List.cons_prefix_cons.2 ⟨rfl, hs⟩) d
    rw [mkdirAll]
    cases hfind : t.find (done ++ [c]) with
    | none =>
      refine ih _ _ fun s hs d => ?_
      rw [find_put t (by simp)]
      split_ifs
      · simp
      · exact hmore s hs d
    | some n =>
      cases n with
      | dir => exact ih t _ hmore
      | file d => exact absurd hfind (h [c] (List.cons_prefix_cons.2 ⟨rfl, List.nil_prefix⟩) d)

end Tree

end DrasiPlatform.FileTree
