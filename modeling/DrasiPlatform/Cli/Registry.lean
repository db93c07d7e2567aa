/-
The registry of environments of the command line client (`cli/sdk/registry/registry.go`) and the commands that use it
(`cli/cmd/env.go`, `namespace.go`, `init.go`).

The registry is a directory of files: `.drasi/servers/<name>/config.json` for each environment, and `.drasi/current` with the
name of the one in use. What it is for is said by `Environments`: a map of names to registrations, and one name or none. A
container that could not be built leaves its directory behind with no file in it: such a name is `begun`.

- `save_holds`, `remove_holds`, `list_holds`: what the functions of the registry do to the files, in terms of the map.
- `exec_refines`: a command does to the files what it does to the map, and answers what the map says.
- `registry_refines`: so it is after every run of commands whose names are components of a path. The environment in use is
  one that is registered; the list of all of them cannot be had as long as a name is begun.
Witness: `registry_two_environments`. A name that is a path of two components is saved but breaks the list:
`slash_breaks_list`.

A file operation fails here for what stands in the tree only; commands run one after the other.
-/
import Mathlib.Tactic
import DrasiPlatform.Cli.Registration
import DrasiPlatform.Core.FileTree
import DrasiPlatform.Core.Run

namespace DrasiPlatform.Cli.Registry

open Json FileTree Run

/-! ## The registry -/

def drasiDir : String := ".drasi"

def serversDir : String := "servers"

def currentFile : String := "current"

def configFileName : String := "config.json"

def defaultNamespace : String := "drasi-system"

abbrev Files := FileTree.Tree String

def serversPath : Path := [drasiDir, serversDir]

def currentPath : Path := [drasiDir, currentFile]

def cfgPath (name : String) : Path := join serversPath name

def cfgFile (name : String) : Path := join (cfgPath name) configFileName

section Functions

variable (F : JsonText.Format)

def saveRegistration (files : Files) (name : String) (registration : Registration) : Except String Unit × Files :=
  match files.mkdirAll [] (cfgPath name) with
  | none => (.error "not a directory", files)
  | some files =>
    match files.writeFile (cfgFile name) (F.write registration.marshal) with
    | none => (.error "is a directory", files)
    | some files => (.ok (), files)

def loadRegistration (files : Files) (name : String) : Except String (Option Registration) :=
  match files.readFile (cfgFile name) with
  | none => .error "no such file or directory"
  | some data => do
    let v ← F.read data.toUTF8
    Registration.unmarshal v

/-- a file in the way is not reported as missing -/
def registrationExists (files : Files) (name : String) : Bool :=
  match files.find (cfgFile name), files.find (cfgPath name) with
  | some _, _ => true
  | none, some (.file _) => true
  | none, _ => false

def setCurrentRegistration (files : Files) (name : String) : Except String Unit × Files :=
  match files.writeFile currentPath name with
  | none => (.error "no such file or directory", files)
  | some files => (.ok (), files)

def unsetCurrentRegistration (files : Files) : Except String Unit × Files :=
  match files.remove currentPath with
  | none => (.error "no such file or directory", files)
  | some files => (.ok (), files)

def getCurrentRegistration (files : Files) : Except String String :=
  match files.find currentPath with
  | none => .ok ""
  | some (.file data) => .ok data
  | some .dir => .error "is a directory"

def deleteRegistration (files : Files) (name : String) : Except String Unit × Files :=
  let files := files.removeAll (cfgPath name)
  match getCurrentRegistration files with
  | .error e => (.error e, files)
  | .ok current => if current = name then unsetCurrentRegistration files else (.ok (), files)

/-- the context that `kubectl` uses: its name and the bytes of the configuration, where there is one -/
abbrev Context := Except String (String × List UInt8)

def saveKubecontextAsCurrent (files : Files) (context : Context) : Except String (Option Registration) × Files :=
  match context with
  | .error e => (.error e, files)
  | .ok (currentContext, configBytes) =>
    let reg := Registration.kubernetes defaultNamespace configBytes currentContext
    match saveRegistration F files reg.getId reg with
    | (.error e, files) => (.error e, files)
    | (.ok _, files) =>
      match setCurrentRegistration files reg.getId with
      | (.error e, files) => (.error e, files)
      | (.ok _, files) => (.ok (some reg), files)

def loadCurrentRegistration (files : Files) (context : Context) : Except String (Option Registration) × Files :=
  match getCurrentRegistration files with
  | .error e => (.error e, files)
  | .ok name => if name = "" then saveKubecontextAsCurrent F files context else (loadRegistration F files name, files)

/-- the flag `--namespace` of a command -/
def withNamespace (ns : String) : Registration → Registration
  | .kubernetes own kubeConfig id => .kubernetes (if ns = "" then own else ns) kubeConfig id
  | r => r

/-- `DockerizedDeployer.Build`: `ready` is a client of Docker and a free port, `container` the container with its
configuration -/
def build (files : Files) (name : String) (ready : Except String Unit) (container : Except String (String × List UInt8)) :
    Except String Registration × Files :=
  match ready with
  | .error e => (.error e, files)
  | .ok _ =>
    match files.mkdirAll [] (cfgPath name) with
    | none => (.error "not a directory", files)
    | some files =>
      match container with
      | .error e => (.error e, files)
      | .ok (id, kubeConfig) => (.ok (.docker (some id) (some (.kubernetes "drasi-system" kubeConfig name)) name), files)

def loadAll (files : Files) : List (String × Node String) → Except String (List Registration)
  | [] => .ok []
  | (_, .file _) :: entries => loadAll files entries
  | (name, .dir) :: entries => do
    let registration ← loadRegistration F files name
    let registrations ← loadAll files entries
    return registration.toList ++ registrations

def listRegistrations (files : Files) : Except String (List Registration) :=
  match files.find serversPath with
  | none => .ok []
  | some (.file _) => .error "not a directory"
  | some .dir => loadAll F files (files.readDir serversPath)

end Functions

/-! ## The commands -/

inductive Command where
  /-- `drasi env kube` -/
  | kube (context : Context)
  | use (name : String)
  /-- the user is asked before the container of a Docker environment is deleted, which takes a client of Docker -/
  | delete (name : String) (confirmed : Bool) (ready : Except String Unit)
  | setNamespace (ns : String)
  /-- `drasi init --docker`; what `drasi init` goes on with is a command of the platform -/
  | initDocker (name : String) (ready : Except String Unit) (container : Except String (String × List UInt8))
  /-- every command that talks to the platform of the current environment -/
  | platform (ns : String) (context : Context)
  | all
  | current

inductive Answer where
  | done
  | noCurrent
  | environment (name : String) (kind : Kind)
  | registration (r : Registration)
  /-- the rows of the table, with a star at the current environment -/
  | listed (rows : List (Bool × String × Kind))
  /-- a registration of no known kind is `nil` -/
  | panic

def exec (F : JsonText.Format) (files : Files) : Command → Except String Answer × Files
  | .kube context =>
    match saveKubecontextAsCurrent F files context with
    | (.error e, files) => (.error e, files)
    | (.ok _, files) => (.ok .done, files)
  | .use name =>
    if registrationExists files name then
      match setCurrentRegistration files name with
      | (.error e, files) => (.error e, files)
      | (.ok _, files) => (.ok .done, files)
    else (.error ("environment " ++ name ++ " does not exist"), files)
  | .delete name confirmed ready =>
    if registrationExists files name then
      match loadRegistration F files name with
      | .error e => (.error e, files)
      | .ok none => (.ok .panic, files)
      | .ok (some reg) =>
        if reg.getKind = .docker ∧ confirmed = false then (.ok .done, files)
        else
          -- that the container cannot be deleted is only said
          match if reg.getKind = .docker then ready else .ok () with
          | .error e => (.error e, files)
          | .ok _ =>
            match deleteRegistration files name with
            | (.error e, files) => (.error e, files)
            | (.ok _, files) => (.ok .done, files)
    else (.error ("environment " ++ name ++ " does not exist"), files)
  | .setNamespace ns =>
    if ns = "" then (.error "namespace cannot be empty", files)
    else
      match getCurrentRegistration files with
      | .error e => (.error e, files)
      | .ok current =>
        if current = "" then (.error "no current registration found", files)
        else
          match loadRegistration F files current with
          | .error e => (.error e, files)
          | .ok (some (.kubernetes _ kubeConfig id)) =>
            match saveRegistration F files current (.kubernetes ns kubeConfig id) with
            | (.error e, files) => (.error e, files)
            | (.ok _, files) => (.ok .done, files)
          | .ok _ => (.error "current registration is not for Kubernetes", files)
  | .initDocker name ready container =>
    match build files name ready container with
    | (.error e, files) => (.error e, files)
    | (.ok reg, files) =>
      match saveRegistration F files name reg with
      | (.error e, files) => (.error e, files)
      | (.ok _, files) =>
        match setCurrentRegistration files name with
        | (.error e, files) => (.error e, files)
        | (.ok _, files) => (.ok .done, files)
  | .platform ns context =>
    match loadCurrentRegistration F files context with
    | (.error e, files) => (.error e, files)
    | (.ok none, files) => (.ok .panic, files)
    | (.ok (some reg), files) => (.ok (.registration (withNamespace ns reg)), files)
  | .all =>
    match listRegistrations F files, getCurrentRegistration files with
    | .error e, _ => (.error e, files)
    | _, .error e => (.error e, files)
    | .ok regs, .ok current =>
      (.ok (.listed (regs.map fun item => (decide (item.getId = current), item.getId, item.getKind))), files)
  | .current =>
    match getCurrentRegistration files with
    | .error e => (.error e, files)
    | .ok current =>
      if current = "" then (.ok .noCurrent, files)
      else
        match loadRegistration F files current with
        | .error e => (.error e, files)
        | .ok none => (.ok .panic, files)
        | .ok (some reg) => (.ok (.environment reg.getId reg.getKind), files)

def step (F : JsonText.Format) (files : Files) (command : Command) : Files := (exec F files command).2

/-! ## What the registry is for -/

structure Environments where
  registered : String → Option Registration
  /-- the names of the containers that could not be built -/
  begun : Set String
  inUse : Option String

namespace Environments

def empty : Environments := ⟨fun _ => none, ∅, none⟩

def save (e : Environments) (name : String) (r : Registration) : Environments :=
  { e with registered := Function.update e.registered name (some r), begun := e.begun \ {name} }

def use (e : Environments) (name : String) : Environments := { e with inUse := some name }

def remove (e : Environments) (name : String) : Environments :=
  ⟨Function.update e.registered name none, e.begun, if e.inUse = some name then none else e.inUse⟩

def begin (e : Environments) (name : String) : Environments :=
  if (e.registered name).isSome then e else { e with begun := insert name e.begun }

def addContext (e : Environments) : Context → Environments
  | .error _ => e
  | .ok (id, configBytes) => (e.save id (.kubernetes defaultNamespace configBytes id)).use id

/-- what a command makes of the environments -/
def next (e : Environments) : Command → Environments
  | .kube context => e.addContext context
  | .use name => if (e.registered name).isSome then e.use name else e
  | .delete name confirmed ready =>
    match e.registered name with
    | some (.docker ..) => if confirmed ∧ ready = .ok () then e.remove name else e
    | some (.kubernetes ..) => e.remove name
    | none => e
  | .setNamespace ns =>
    match e.inUse, e.inUse.bind e.registered with
    | some name, some (.kubernetes _ kubeConfig id) => if ns = "" then e else e.save name (.kubernetes ns kubeConfig id)
    | _, _ => e
  | .initDocker name ready container =>
    match ready, container with
    | .error _, _ => e
    | .ok _, .error _ => e.begin name
    | .ok _, .ok (id, kubeConfig) =>
      (e.save name (.docker (some id) (some (.kubernetes defaultNamespace kubeConfig name)) name)).use name
  | .platform _ context => if e.inUse = none then e.addContext context else e
  | .all => e
  | .current => e

/-- the answer to a command that adds a context -/
def contextAnswer (context : Context) (answer : Registration → Answer) : Except String Answer :=
  context.map fun c => answer (.kubernetes defaultNamespace c.2 c.1)

/-- what a command is answered -/
def Answers (e : Environments) (answer : Except String Answer) : Command → Prop
  | .kube context => answer = contextAnswer context fun _ => .done
  | .use name =>
    answer = if (e.registered name).isSome then .ok .done else .error ("environment " ++ name ++ " does not exist")
  | .delete name confirmed ready =>
    answer =
      match e.registered name with
      | some (.docker ..) => if confirmed then ready.map fun _ => .done else .ok .done
      | some (.kubernetes ..) => .ok .done
      | none => .error ("environment " ++ name ++ " does not exist")
  | .setNamespace ns =>
    answer =
      if ns = "" then .error "namespace cannot be empty"
      else
        match e.inUse.bind e.registered with
        | none => .error "no current registration found"
        | some (.kubernetes ..) => .ok .done
        | some (.docker ..) => .error "current registration is not for Kubernetes"
  | .initDocker _ ready container => answer = ready.bind fun _ => container.map fun _ => .done
  | .platform ns context =>
    answer =
      match e.inUse.bind e.registered with
      | none => contextAnswer context fun r => .registration (withNamespace ns r)
      | some r => .ok (.registration (withNamespace ns r))
  | .all =>
    -- every environment once, by name, and the one in use marked
    (e.begun = ∅ → ∃ regs : List Registration,
      answer = .ok (.listed (regs.map fun r => (decide (some r.getId = e.inUse), r.getId, r.getKind))) ∧
      (regs.map Registration.getId).Pairwise (· ≤ ·) ∧ (regs.map Registration.getId).Nodup ∧
      ∀ r, r ∈ regs ↔ e.registered r.getId = some r) ∧
    (e.begun.Nonempty → answer = .error "no such file or directory")
  | .current =>
    answer =
      match e.inUse.bind e.registered with
      | none => .ok .noCurrent
      | some r => .ok (.environment r.getId r.getKind)

end Environments

/-! ## The files of the environments -/

/-- the names of a command are components of a path -/
def Command.Named : Command → Prop
  | .kube context => ∀ c, context = .ok c → IsComponent c.1
  | .use name => IsComponent name
  | .delete name _ _ => IsComponent name
  | .setNamespace _ => True
  | .initDocker name _ _ => IsComponent name
  | .platform _ context => ∀ c, context = .ok c → IsComponent c.1
  | .all => True
  | .current => True

namespace Environments

structure Sound (e : Environments) : Prop where
  named : ∀ name r, e.registered name = some r → IsComponent name ∧ r.getId = name
  begun : ∀ name ∈ e.begun, IsComponent name ∧ e.registered name = none
  inUse : ∀ name, e.inUse = some name → (e.registered name).isSome

variable {e : Environments} {name : String}

@[simp] theorem registered_save (e : Environments) (name : String) (r : Registration) (name' : String) :
    (e.save name r).registered name' = if name' = name then some r else e.registered name' :=
  Function.update_apply _ _ _ _

@[simp] theorem mem_begun_save (e : Environments) (name : String) (r : Registration) (name' : String) :
    name' ∈ (e.save name r).begun ↔ name' ∈ e.begun ∧ name' ≠ name := Iff.rfl

@[simp] theorem registered_remove (e : Environments) (name name' : String) :
    (e.remove name).registered name' = if name' = name then none else e.registered name' :=
  Function.update_apply _ _ _ _

theorem Sound.save (h : e.Sound) (hname : IsComponent name) {r : Registration} (hid : r.getId = name) :
    (e.save name r).Sound := by
  refine ⟨fun name' r' hr => ?_, fun name' hbegun => ?_, fun name' hin => ?_⟩
  · rw [registered_save] at hr
    split_ifs at hr with heq
    · exact heq ▸ Option.some.inj hr ▸ ⟨hname, hid⟩
    · exact h.named name' r' hr
  · obtain ⟨hbegun, hne⟩ := (mem_begun_save e name r name').1 hbegun
    rw [registered_save, if_neg hne]
    exact h.begun name' hbegun
  · rw [registered_save]
    split_ifs
    · rfl
    · exact h.inUse name' hin

theorem Sound.use (h : e.Sound) (hname : (e.registered name).isSome) : (e.use name).Sound :=
  ⟨h.named, h.begun, fun _ hin => Option.some.inj hin ▸ hname⟩

theorem Sound.remove (h : e.Sound) (hbegun : name ∉ e.begun) : (e.remove name).Sound := by
  refine ⟨fun name' r' hr => ?_, fun name' hbegun' => ?_, fun name' hin => ?_⟩
  · rw [registered_remove] at hr
    split_ifs at hr
    exact h.named name' r' hr
  · have hne : name' ≠ name := fun heq => hbegun (heq ▸ hbegun')
    rw [registered_remove, if_neg hne]
    exact h.begun name' hbegun'
  · rw [Environments.remove] at hin
    dsimp only at hin
    split_ifs at hin with huse
    have hne : name' ≠ name := fun heq => huse (heq ▸ hin)
    rw [registered_remove, if_neg hne]
    exact h.inUse name' hin

theorem Sound.begin (h : e.Sound) (hname : IsComponent name) : (e.begin name).Sound := by
  rw [Environments.begin]
  split_ifs with hreg
  · exact h
  · refine ⟨h.named, fun name' hbegun => ?_, h.inUse⟩
    obtain rfl | hbegun := hbegun
    · exact ⟨hname, Option.not_isSome_iff_eq_none.1 hreg⟩
    · exact h.begun name' hbegun

end Environments

/-- the files are those of the environments -/
structure Holds (F : JsonText.Format) (e : Environments) (files : Files) : Prop where
  sound : e.Sound
  dirs : ∀ name n, files.find (serversPath ++ [name]) = some n ↔ n = .dir ∧ ((e.registered name).isSome ∨ name ∈ e.begun)
  documents : ∀ name, files.find (serversPath ++ [name, configFileName]) =
    (e.registered name).map fun r => .file (F.write r.marshal)
  current : files.find currentPath = e.inUse.map .file
  noFile : ∀ p, p <+: serversPath → ∀ d, files.find p ≠ some (.file d)
  above : ∀ name, (e.registered name).isSome ∨ name ∈ e.begun → ∀ p, p <+: serversPath → files.find p = some .dir

theorem cfgPath_eq {name : String} (h : IsComponent name) : cfgPath name = serversPath ++ [name] :=
  join_component (by decide) h

theorem cfgFile_eq {name : String} (h : IsComponent name) : cfgFile name = serversPath ++ [name, configFileName] := by
  have hbase : ∀ c ∈ serversPath ++ [name], IsComponent c := fun c hc =>
    (List.mem_append.1 hc).elim (fun hc => (show ∀ c ∈ serversPath, IsComponent c by decide) c hc)
      fun hc => List.mem_singleton.1 hc ▸ h
  rw [cfgFile, cfgPath_eq h, join_component hbase (by decide), List.append_assoc, List.singleton_append]

theorem holds_empty (F : JsonText.Format) : Holds F .empty .empty where
  sound := ⟨fun _ _ h => (by cases h), fun _ h => h.elim, fun _ h => (by cases h)⟩
  dirs name n := by simp [Environments.empty, Tree.empty, Tree.find, serversPath]
  documents name := by simp [Environments.empty, Tree.empty, Tree.find, serversPath]
  current := rfl
  noFile p hp d := by
    rw [Tree.empty, Tree.find]
    split_ifs <;> simp
  above name h := by simp [Environments.empty] at h

/-! ## What the functions do -/

section Specs

variable {F : JsonText.Format} {e : Environments} {files : Files} {name : String}

/-- the directory of an environment is made, and nothing else -/
theorem exists_mkdirAll (h : Holds F e files) (hname : IsComponent name) :
    ∃ files', files.mkdirAll [] (cfgPath name) = some files' ∧
      ∀ q, files'.find q = if q <+: serversPath ++ [name] then some .dir else files.find q := by
  have hfree : ∀ p, p <+: cfgPath name → ∀ d, files.find ([] ++ p) ≠ some (.file d) := by
    intro p hp d hfind
    rw [cfgPath_eq hname, List.prefix_concat_iff] at hp
    obtain rfl | hp := hp
    · cases ((h.dirs name _).1 hfind).1
    · exact h.noFile p hp d hfind
  obtain ⟨files', hmkdir⟩ := files.exists_mkdirAll [] (cfgPath name) hfree
  refine ⟨files', hmkdir, fun q => ?_⟩
  rw [cfgPath_eq hname] at hmkdir
  split_ifs with hq
  · by_cases hnil : q = []
    · rw [hnil, Tree.find_nil]
    · exact Tree.find_mkdirAll_of_prefix hmkdir hq hnil
  · exact Tree.find_mkdirAll_of_not hmkdir fun s hs _ heq => hq (heq ▸ hs)

/-- a registration is written below its name -/
theorem saveRegistration_spec (h : Holds F e files) (hname : IsComponent name) (r : Registration) :
    ∃ files', saveRegistration F files name r = (.ok (), files') ∧
      ∀ q, files'.find q = if q = serversPath ++ [name, configFileName] then some (.file (F.write r.marshal))
        else if q <+: serversPath ++ [name] then some .dir else files.find q := by
  obtain ⟨made, hmkdir, hmade⟩ := exists_mkdirAll h hname
  have hdir : made.find (cfgFile name).dropLast = some .dir := by
    rw [cfgFile_eq hname, hmade, if_pos]
    simp [serversPath]
  have hnot : made.find (cfgFile name) ≠ some .dir := by
    rw [cfgFile_eq hname, hmade, if_neg (by simp [serversPath]), h.documents]
    cases e.registered name <;> simp
  have hwrite : made.writeFile (cfgFile name) (F.write r.marshal) =
      some (made.put (cfgFile name) (.file (F.write r.marshal))) := by
    rw [Tree.writeFile, hdir]
    cases hfind : made.find (cfgFile name) with
    | none => rfl
    | some n =>
      cases n with
      | dir => exact absurd hfind hnot
      | file d => rfl
  refine ⟨made.put (cfgFile name) (.file (F.write r.marshal)), ?_, fun q => ?_⟩
  · rw [saveRegistration, hmkdir]
    dsimp only
    rw [hwrite]
  · rw [cfgFile_eq hname, Tree.find_put _ (by simp), hmade]

/-- **A registration is saved.** -/
theorem save_holds (h : Holds F e files) (hname : IsComponent name) {r : Registration} (hid : r.getId = name) :
    ∃ files', saveRegistration F files name r = (.ok (), files') ∧ Holds F (e.save name r) files' := by
  obtain ⟨files', hsave, hfind⟩ := saveRegistration_spec h hname r
  refine ⟨files', hsave, ?_, fun name' n => ?_, fun name' => ?_, ?_, fun p hp d => ?_, fun _ _ p hp => ?_⟩
  · exact h.sound.save hname hid
  · rw [hfind]
    by_cases hn : name' = name
    · simp [hn, serversPath, eq_comm]
    · simp [hn, serversPath, ← h.dirs]
  · rw [hfind]
    by_cases hn : name' = name
    · simp [hn]
    · simp [hn, serversPath, ← h.documents]
  · rw [hfind]
    simpa [currentPath, serversPath, drasiDir, serversDir, currentFile, Environments.save] using h.current
  · rw [hfind]
    split_ifs with hcfg hdir
    · exact absurd (hcfg ▸ hp).length_le (by simp [serversPath])
    · simp
    · exact h.noFile p hp d
  · have hcfg : p ≠ serversPath ++ [name, configFileName] := fun heq =>
      absurd (heq ▸ hp).length_le (by simp [serversPath])
    rw [hfind, if_neg hcfg, if_pos (hp.trans (List.prefix_append _ _))]

/-- what is registered is read back -/
theorem load_holds (hF : F.Lawful) (h : Holds F e files) (hname : IsComponent name) {r : Registration}
    (hreg : e.registered name = some r) : loadRegistration F files name = .ok (some r) := by
  have hdata : files.readFile (cfgFile name) = some (F.write r.marshal) := by
    rw [Tree.readFile, cfgFile_eq hname, h.documents, hreg]
    rfl
  rw [loadRegistration, hdata]
  dsimp only
  rw [hF.read_write _ r.plain_marshal]
  exact r.unmarshal_marshal

theorem load_missing (h : Holds F e files) (hname : IsComponent name) (hreg : e.registered name = none) :
    loadRegistration F files name = .error "no such file or directory" := by
  rw [loadRegistration, Tree.readFile, cfgFile_eq hname, h.documents, hreg]
  rfl

theorem registrationExists_holds (h : Holds F e files) (hname : IsComponent name) :
    registrationExists files name = (e.registered name).isSome := by
  rw [registrationExists, cfgFile_eq hname, h.documents]
  cases e.registered name with
  | some r => rfl
  | none =>
    cases hfind : files.find (cfgPath name) with
    | none => rfl
    | some n =>
      rw [cfgPath_eq hname, h.dirs] at hfind
      rw [hfind.1]
      rfl

theorem getCurrent_holds (h : Holds F e files) : getCurrentRegistration files = .ok (e.inUse.getD "") := by
  rw [getCurrentRegistration, h.current]
  cases e.inUse <;> rfl

theorem setCurrent_holds (h : Holds F e files) (hreg : (e.registered name).isSome) :
    ∃ files', setCurrentRegistration files name = (.ok (), files') ∧ Holds F (e.use name) files' := by
  have hdir : files.find currentPath.dropLast = some .dir := h.above name (.inl hreg) _ (by decide)
  have hwrite : files.writeFile currentPath name = some (files.put currentPath (.file name)) := by
    rw [Tree.writeFile, hdir, h.current]
    cases e.inUse <;> rfl
  have hfind : ∀ q, q ≠ currentPath → (files.put currentPath (.file name)).find q = files.find q := fun q hq => by
    rw [Tree.find_put _ (by decide), if_neg hq]
  have hbelow : ∀ p, serversPath ++ p ≠ currentPath := fun p => by simp [serversPath, currentPath, serversDir, currentFile]
  have habove : ∀ p, p <+: serversPath → p ≠ currentPath := fun p hp heq => absurd (heq ▸ hp) (by decide)
  refine ⟨files.put currentPath (.file name), ?_, h.sound.use hreg, fun name' n => ?_, fun name' => ?_, ?_, fun p hp d => ?_,
    fun name' hreg' p hp => ?_⟩
  · rw [setCurrentRegistration, hwrite]
  · rw [hfind _ (hbelow _)]
    exact h.dirs name' n
  · rw [hfind _ (hbelow _)]
    exact h.documents name'
  · rw [Tree.find_put _ (by decide), if_pos rfl]
    rfl
  · rw [hfind _ (habove p hp)]
    exact h.noFile p hp d
  · rw [hfind _ (habove p hp)]
    exact h.above name' hreg' p hp

/-- what is below the name goes, and the name of the one in use if it is this one -/
theorem deleteRegistration_spec (h : Holds F e files) (hname : IsComponent name) :
    ∃ files', deleteRegistration files name = (.ok (), files') ∧
      files'.find currentPath = (e.remove name).inUse.map .file ∧
      ∀ q, q ≠ [] → q ≠ currentPath → files'.find q = if serversPath ++ [name] <+: q then none else files.find q := by
  have hnot : ¬ serversPath ++ [name] <+: currentPath := fun hp => absurd hp.length_le (by simp [serversPath, currentPath])
  have hremoved : ∀ q, q ≠ [] → (files.removeAll (cfgPath name)).find q =
      if serversPath ++ [name] <+: q then none else files.find q := fun q hq => by
    rw [Tree.find_removeAll _ _ hq, cfgPath_eq hname]
  have hcurrent : (files.removeAll (cfgPath name)).find currentPath = e.inUse.map .file := by
    rw [hremoved _ (by decide), if_neg hnot, h.current]
  have hget : getCurrentRegistration (files.removeAll (cfgPath name)) = .ok (e.inUse.getD "") := by
    rw [getCurrentRegistration, hcurrent]
    cases e.inUse <;> rfl
  rw [deleteRegistration, hget]
  dsimp only
  by_cases huse : e.inUse = some name
  · have hremove : (files.removeAll (cfgPath name)).remove currentPath =
        some ((files.removeAll (cfgPath name)).without (· == currentPath)) := by
      rw [Tree.remove, hcurrent, huse]
      rfl
    rw [if_pos (by rw [huse]; rfl), unsetCurrentRegistration, hremove]
    refine ⟨_, rfl, ?_, fun q hq hne => ?_⟩
    · rw [Tree.find_without _ _ (by decide), if_pos (by simp), Environments.remove, if_pos huse]
      rfl
    · rw [Tree.find_without _ _ hq, if_neg (by simpa using hne), hremoved q hq]
  · have hother : e.inUse.getD "" ≠ name := by
      cases hin : e.inUse with
      | none => exact Ne.symm hname.notEmpty
      | some other => exact fun heq => huse (hin ▸ congrArg some heq)
    rw [if_neg hother]
    refine ⟨_, rfl, ?_, fun q hq _ => hremoved q hq⟩
    rw [hcurrent, Environments.remove, if_neg huse]

/-- **A registration is removed.** -/
theorem remove_holds (h : Holds F e files) (hname : IsComponent name) (hreg : (e.registered name).isSome) :
    ∃ files', deleteRegistration files name = (.ok (), files') ∧ Holds F (e.remove name) files' := by
  obtain ⟨files', hdelete, hcurrent, hfind⟩ := deleteRegistration_spec h hname
  have hbegun : name ∉ e.begun := fun hbegun => by simp [(h.sound.begun name hbegun).2] at hreg
  have hserver : ∀ p, p ≠ [] → files'.find (serversPath ++ p) =
      if [name] <+: p then none else files.find (serversPath ++ p) := fun p hp => by
    rw [hfind _ (by simp [hp]) (by simp [serversPath, currentPath, serversDir, currentFile])]
    simp only [List.prefix_append_right_inj]
  have habove : ∀ p, p <+: serversPath → files'.find p = files.find p := by
    intro p hp
    by_cases hnil : p = []
    · rw [hnil, Tree.find_nil, Tree.find_nil]
    · have hnot : ¬ serversPath ++ [name] <+: p := fun hq => absurd (hq.trans hp).length_le (by simp)
      rw [hfind p hnil fun heq => absurd (heq ▸ hp) (by decide), if_neg hnot]
  refine ⟨files', hdelete, h.sound.remove hbegun, fun name' n => ?_, fun name' => ?_, hcurrent, fun p hp d => ?_,
    fun name' hreg' p hp => ?_⟩
  · rw [hserver _ (by simp), Environments.registered_remove]
    by_cases hn : name' = name
    · simp [hn, Environments.remove, hbegun]
    · simp [hn, Ne.symm hn, ← h.dirs, Environments.remove]
  · rw [hserver _ (by simp), Environments.registered_remove]
    by_cases hn : name' = name
    · simp [hn]
    · simp [hn, Ne.symm hn, ← h.documents]
  · rw [habove p hp]
    exact h.noFile p hp d
  · rw [Environments.registered_remove] at hreg'
    rw [habove p hp]
    refine h.above name' (hreg'.imp_left fun hreg' => ?_) p hp
    split_ifs at hreg'
    · cases hreg'
    · exact hreg'

/-- a directory is left when the container cannot be built -/
theorem begin_holds (h : Holds F e files) (hname : IsComponent name) :
    ∃ files', files.mkdirAll [] (cfgPath name) = some files' ∧ Holds F (e.begin name) files' := by
  obtain ⟨files', hmkdir, hfind⟩ := exists_mkdirAll h hname
  have hregistered : (e.begin name).registered = e.registered := by
    rw [Environments.begin]
    split_ifs <;> rfl
  have hinUse : (e.begin name).inUse = e.inUse := by
    rw [Environments.begin]
    split_ifs <;> rfl
  have hbegun : ∀ name', (e.registered name').isSome ∨ name' ∈ (e.begin name).begun ↔
      name' = name ∨ ((e.registered name').isSome ∨ name' ∈ e.begun) := by
    intro name'
    rw [Environments.begin]
    split_ifs with hreg
    · exact ⟨Or.inr, fun h => h.elim (fun heq => .inl (heq ▸ hreg)) id⟩
    · simp only [Set.mem_insert_iff]
      exact or_left_comm
  refine ⟨files', hmkdir, h.sound.begin hname, fun name' n => ?_, fun name' => ?_, ?_, fun p hp d => ?_, fun _ _ p hp => ?_⟩
  · rw [hfind, hregistered, hbegun]
    by_cases hn : name' = name
    · rw [if_pos (hn ▸ List.prefix_refl _), Option.some.injEq]
      exact ⟨fun hdir => ⟨hdir.symm, .inl hn⟩, fun hdir => hdir.1.symm⟩
    · rw [if_neg (by simp [hn]), h.dirs]
      simp [hn]
  · rw [hfind, hregistered, if_neg (fun hp => absurd hp.length_le (by simp)), h.documents]
  · rw [hfind, hinUse, if_neg (by simp [currentPath, serversPath, serversDir, currentFile]), h.current]
  · rw [hfind, if_pos (hp.trans (List.prefix_append _ _))]
    simp
  · rw [hfind, if_pos (hp.trans (List.prefix_append _ _))]

theorem loadAll_ok (hF : F.Lawful) (h : Holds F e files) {entries : List (String × Node String)}
    (hall : ∀ entry ∈ entries, entry.2 = .dir ∧ (e.registered entry.1).isSome) :
    ∃ regs, loadAll F files entries = .ok regs ∧ regs.map Registration.getId = entries.map Prod.fst ∧
      ∀ r ∈ regs, e.registered r.getId = some r := by
  induction entries with
  | nil => exact ⟨[], rfl, rfl, fun _ hr => (by cases hr)⟩
  | cons entry entries ih =>
    obtain ⟨regs, hload, hids, hregs⟩ := ih fun entry' h' => hall entry' (List.mem_cons_of_mem _ h')
    obtain ⟨name, n⟩ := entry
    obtain ⟨hdir, hreg⟩ := hall _ List.mem_cons_self
    obtain ⟨r, hr⟩ := Option.isSome_iff_exists.1 hreg
    obtain ⟨hname, hid⟩ := h.sound.named name r hr
    refine ⟨r :: regs, ?_, by rw [List.map_cons, List.map_cons, hids, hid], fun r' hr' => ?_⟩
    · dsimp only at hdir
      rw [hdir, loadAll, load_holds hF h hname hr, hload]
      rfl
    · obtain rfl | hr' := List.mem_cons.1 hr'
      · rw [hid, hr]
      · exact hregs r' hr'

/-- the first name without a document ends it -/
theorem loadAll_missing (hF : F.Lawful) (h : Holds F e files) {entries : List (String × Node String)}
    (hall : ∀ entry ∈ entries, entry.2 = .dir ∧ ((e.registered entry.1).isSome ∨ entry.1 ∈ e.begun))
    (hmissing : ∃ entry ∈ entries, entry.1 ∈ e.begun) :
    loadAll F files entries = .error "no such file or directory" := by
  induction entries with
  | nil =>
    obtain ⟨_, hmem, _⟩ := hmissing
    cases hmem
  | cons entry entries ih =>
    obtain ⟨name, n⟩ := entry
    obtain ⟨hdir, hreg⟩ := hall _ List.mem_cons_self
    dsimp only at hdir hreg
    rw [hdir, loadAll]
    cases hr : e.registered name with
    | none =>
      rw [hr] at hreg
      obtain ⟨hname, -⟩ := h.sound.begun name (hreg.resolve_left (by simp))
      rw [load_missing h hname hr]
      rfl
    | some r =>
      have hrest : ∃ entry ∈ entries, entry.1 ∈ e.begun := by
        obtain ⟨entry, hmem, hbegun⟩ := hmissing
        obtain rfl | hmem := List.mem_cons.1 hmem
        · simp [(h.sound.begun _ hbegun).2] at hr
        · exact ⟨entry, hmem, hbegun⟩
      rw [load_holds hF h (h.sound.named name r hr).1 hr, ih (fun entry' h' => hall entry' (List.mem_cons_of_mem _ h')) hrest]
      rfl

theorem listRegistrations_eq (h : Holds F e files) :
    listRegistrations F files = loadAll F files (files.readDir serversPath) := by
  rw [listRegistrations]
  cases hfind : files.find serversPath with
  | some n =>
    cases n with
    | dir => rfl
    | file d => exact absurd hfind (h.noFile _ (List.prefix_refl _) d)
  | none =>
    have hnil : files.readDir serversPath = [] := by
      refine List.eq_nil_iff_forall_not_mem.2 fun entry hentry => ?_
      have hdir := (h.dirs entry.1 entry.2).1 (Tree.mem_readDir.1 hentry)
      rw [h.above entry.1 hdir.2 _ (List.prefix_refl _)] at hfind
      cases hfind
    rw [hnil]
    rfl

/-- **All the registrations, in the order of their names.** -/
theorem list_holds (hF : F.Lawful) (h : Holds F e files) :
    (e.begun = ∅ → ∃ regs, listRegistrations F files = .ok regs ∧ (regs.map Registration.getId).Pairwise (· ≤ ·) ∧
      (regs.map Registration.getId).Nodup ∧ ∀ r, r ∈ regs ↔ e.registered r.getId = some r) ∧
    (e.begun.Nonempty → listRegistrations F files = .error "no such file or directory") := by
  have hmem : ∀ name n, (name, n) ∈ files.readDir serversPath ↔
      n = .dir ∧ ((e.registered name).isSome ∨ name ∈ e.begun) := fun name n => by
    rw [Tree.mem_readDir, h.dirs]
  refine ⟨fun hnone => ?_, fun hsome => ?_⟩
  · have hall : ∀ entry ∈ files.readDir serversPath, entry.2 = .dir ∧ (e.registered entry.1).isSome := fun entry hentry => by
      simpa [hnone] using (hmem entry.1 entry.2).1 hentry
    obtain ⟨regs, hload, hids, hregs⟩ := loadAll_ok hF h hall
    refine ⟨regs, by rw [listRegistrations_eq h, hload], hids ▸ files.sorted_readDir _, hids ▸ files.nodup_readDir _,
      fun r => ⟨hregs r, fun hr => ?_⟩⟩
    have hid : r.getId ∈ regs.map Registration.getId := by
      rw [hids]
      exact List.mem_map.2 ⟨(r.getId, .dir), (hmem _ _).2 ⟨rfl, .inl (by rw [hr]; rfl)⟩, rfl⟩
    obtain ⟨r', hr', hid'⟩ := List.mem_map.1 hid
    have heq := hregs r' hr'
    rw [hid', hr] at heq
    exact Option.some.inj heq ▸ hr'
  · obtain ⟨name, hbegun⟩ := hsome
    rw [listRegistrations_eq h]
    exact loadAll_missing hF h (fun entry hentry => (hmem entry.1 entry.2).1 hentry)
      ⟨(name, .dir), (hmem _ _).2 ⟨rfl, .inr hbegun⟩, hbegun⟩

/-- the context of the cluster becomes an environment and the one in use -/
theorem kubecontext_holds (h : Holds F e files) {context : Context} (hnamed : ∀ c, context = .ok c → IsComponent c.1) :
    ∃ files', saveKubecontextAsCurrent F files context =
        (context.map fun c => some (.kubernetes defaultNamespace c.2 c.1), files') ∧
      Holds F (e.addContext context) files' := by
  cases context with
  | error err => exact ⟨files, rfl, h⟩
  | ok c =>
    obtain ⟨id, configBytes⟩ := c
    have hid : (Registration.kubernetes defaultNamespace configBytes id).getId = id := rfl
    obtain ⟨saved, hsave, hsaved⟩ := save_holds h (hnamed _ rfl) hid
    have hreg : ((e.save id (.kubernetes defaultNamespace configBytes id)).registered id).isSome := by simp
    obtain ⟨files', hset, h'⟩ := setCurrent_holds hsaved hreg
    refine ⟨files', ?_, h'⟩
    rw [saveKubecontextAsCurrent]
    simp only [hid, hsave, hset]
    rfl

/-- what is in use is registered, and has its own name -/
theorem Environments.Sound.inUse_cases (h : e.Sound) : e.inUse = none ∨
    ∃ name r, e.inUse = some name ∧ e.registered name = some r ∧ IsComponent name ∧ r.getId = name := by
  cases hin : e.inUse with
  | none => exact .inl rfl
  | some name =>
    obtain ⟨r, hr⟩ := Option.isSome_iff_exists.1 (h.inUse name hin)
    exact .inr ⟨name, r, rfl, hr, h.named name r hr⟩

/-- a command is answered and done as the environments say -/
def Refines (F : JsonText.Format) (e : Environments) (command : Command) (done : Except String Answer × Files) : Prop :=
  Holds F (e.next command) done.2 ∧ e.Answers done.1 command

theorem use_refines (h : Holds F e files) (hname : IsComponent name) :
    Refines F e (.use name) (exec F files (.use name)) := by
  rw [exec, registrationExists_holds h hname, Refines, Environments.next, Environments.Answers]
  split_ifs with hreg
  · obtain ⟨files', hset, h'⟩ := setCurrent_holds h hreg
    rw [hset]
    exact ⟨h', rfl⟩
  · exact ⟨h, rfl⟩

theorem delete_refines (hF : F.Lawful) (h : Holds F e files) (hname : IsComponent name) (confirmed : Bool)
    (ready : Except String Unit) :
    Refines F e (.delete name confirmed ready) (exec F files (.delete name confirmed ready)) := by
  rw [exec, registrationExists_holds h hname, Refines, Environments.next, Environments.Answers]
  cases hr : e.registered name with
  | none => exact ⟨h, rfl⟩
  | some r =>
    obtain ⟨files', hdelete, h'⟩ := remove_holds h hname (by rw [hr]; rfl)
    rw [load_holds hF h hname hr]
    cases r with
    | kubernetes ns kubeConfig id =>
      simp only [Option.isSome_some, if_true, Registration.getKind, reduceCtorEq, false_and, if_false, hdelete]
      exact ⟨h', trivial⟩
    | docker containerId internalConfig id =>
      cases confirmed with
      | false => exact ⟨h, rfl⟩
      | true =>
        cases ready with
        | error err => exact ⟨h, rfl⟩
        | ok _ =>
          simp only [Option.isSome_some, if_true, Registration.getKind, Bool.true_eq_false, and_false, if_false, hdelete]
          exact ⟨h', rfl⟩

theorem setNamespace_refines (hF : F.Lawful) (h : Holds F e files) (ns : String) :
    Refines F e (.setNamespace ns) (exec F files (.setNamespace ns)) := by
  rw [exec, Refines, Environments.next, Environments.Answers, getCurrent_holds h]
  obtain hin | ⟨name, r, hin, hr, hname, hid⟩ := h.sound.inUse_cases
  · rw [hin]
    split_ifs <;> exact ⟨h, rfl⟩
  · rw [hin, Option.bind_some, hr]
    dsimp only
    by_cases hns : ns = ""
    · cases r <;> simp only [if_pos hns] <;> exact ⟨h, trivial⟩
    · rw [if_neg hns, if_neg hns, Option.getD_some, if_neg hname.notEmpty, load_holds hF h hname hr]
      cases r with
      | docker containerId internalConfig id => exact ⟨h, rfl⟩
      | kubernetes own kubeConfig id =>
        have hid' : (Registration.kubernetes ns kubeConfig id).getId = name := hid
        obtain ⟨files', hsave, h'⟩ := save_holds h hname hid'
        dsimp only
        rw [hsave, if_neg hns]
        exact ⟨h', rfl⟩

theorem Environments.begin_save (e : Environments) (name : String) (r : Registration) :
    (e.begin name).save name r = e.save name r := by
  rw [Environments.begin]
  split_ifs
  · rfl
  · rw [Environments.save, Environments.save, Environments.mk.injEq]
    exact ⟨rfl, Set.insert_sdiff_of_mem _ rfl, rfl⟩

theorem initDocker_refines (h : Holds F e files) (hname : IsComponent name) (ready : Except String Unit)
    (container : Except String (String × List UInt8)) :
    Refines F e (.initDocker name ready container) (exec F files (.initDocker name ready container)) := by
  cases ready with
  | error err => exact ⟨h, rfl⟩
  | ok _ =>
    obtain ⟨made, hmkdir, hmade⟩ := begin_holds h hname
    rw [exec, build, hmkdir]
    cases container with
    | error err => exact ⟨hmade, rfl⟩
    | ok c =>
      obtain ⟨id, kubeConfig⟩ := c
      have hid : (Registration.docker (some id) (some (.kubernetes defaultNamespace kubeConfig name)) name).getId = name :=
        rfl
      obtain ⟨saved, hsave, hsaved⟩ := save_holds hmade hname hid
      rw [Environments.begin_save] at hsaved
      have hreg : ((e.save name (.docker (some id) (some (.kubernetes defaultNamespace kubeConfig name)) name)).registered
        name).isSome := by simp
      obtain ⟨files', hset, h'⟩ := setCurrent_holds hsaved hreg
      have hbuilt : "drasi-system" = defaultNamespace := rfl
      simp only [hbuilt, hsave, hset]
      exact ⟨h', rfl⟩

theorem platform_refines (hF : F.Lawful) (h : Holds F e files) (ns : String) {context : Context}
    (hnamed : ∀ c, context = .ok c → IsComponent c.1) :
    Refines F e (.platform ns context) (exec F files (.platform ns context)) := by
  rw [exec, loadCurrentRegistration, getCurrent_holds h, Refines, Environments.next, Environments.Answers]
  obtain hin | ⟨name, r, hin, hr, hname, hid⟩ := h.sound.inUse_cases
  · obtain ⟨files', hsave, h'⟩ := kubecontext_holds h hnamed
    simp only [hin, Option.getD_none, if_true, hsave, Option.bind_none]
    cases context with
    | error err => exact ⟨h', rfl⟩
    | ok c => exact ⟨h', rfl⟩
  · simp only [hin, Option.getD_some, if_neg hname.notEmpty, load_holds hF h hname hr, Option.bind_some, hr, reduceCtorEq,
      if_false]
    exact ⟨h, trivial⟩

theorem current_refines (hF : F.Lawful) (h : Holds F e files) : Refines F e .current (exec F files .current) := by
  rw [exec, getCurrent_holds h, Refines, Environments.next, Environments.Answers]
  obtain hin | ⟨name, r, hin, hr, hname, hid⟩ := h.sound.inUse_cases
  · rw [hin]
    exact ⟨h, rfl⟩
  · simp only [hin, Option.getD_some, if_neg hname.notEmpty, load_holds hF h hname hr, Option.bind_some, hr]
    exact ⟨h, trivial⟩

theorem all_refines (hF : F.Lawful) (h : Holds F e files) : Refines F e .all (exec F files .all) := by
  rw [exec, getCurrent_holds h, Refines, Environments.next, Environments.Answers]
  obtain ⟨hlisted, hfails⟩ := list_holds hF h
  refine ⟨?_, fun hnone => ?_, fun hsome => ?_⟩
  · cases listRegistrations F files <;> exact h
  · obtain ⟨regs, hlist, hsorted, hnodup, hmem⟩ := hlisted hnone
    refine ⟨regs, ?_, hsorted, hnodup, hmem⟩
    rw [hlist]
    have hmark : ∀ r ∈ regs, decide (r.getId = e.inUse.getD "") = decide (some r.getId = e.inUse) := by
      intro r hr
      have hcomponent := (h.sound.named _ r ((hmem r).1 hr)).1
      cases e.inUse with
      | none => simpa using hcomponent.notEmpty
      | some other => simp
    dsimp only
    rw [List.map_congr_left fun r hr => by rw [hmark r hr]]
  · rw [hfails hsome]

/-- **One command.** -/
theorem exec_refines (hF : F.Lawful) (h : Holds F e files) {command : Command} (hnamed : command.Named) :
    Refines F e command (exec F files command) := by
  cases command with
  | kube context =>
    obtain ⟨files', hsave, h'⟩ := kubecontext_holds h hnamed
    rw [exec, hsave]
    cases context <;> exact ⟨h', rfl⟩
  | use name => exact use_refines h hnamed
  | delete name confirmed ready => exact delete_refines hF h hnamed confirmed ready
  | setNamespace ns => exact setNamespace_refines hF h ns
  | initDocker name ready container => exact initDocker_refines h hnamed ready container
  | platform ns context => exact platform_refines hF h ns hnamed
  | all => exact all_refines hF h
  | current => exact current_refines hF h

end Specs

/-! ## Every run of commands -/

/-- **The registry is the map of environments it is for.** -/
theorem registry_refines (F : JsonText.Format) (hF : F.Lawful) (commands : List Command)
    (hnamed : ∀ command ∈ commands, command.Named) :
    Holds F (run Environments.next .empty commands) (run (step F) .empty commands) ∧
    ∀ command : Command, command.Named →
      (run Environments.next .empty commands).Answers (exec F (run (step F) .empty commands) command).1 command := by
  have hholds : Holds F (run Environments.next .empty commands) (run (step F) .empty commands) := by
    induction commands using List.reverseRecOn with
    | nil => exact holds_empty F
    | append_singleton commands command ih =>
      rw [run_append, run_append]
      have h := ih fun command' h' => hnamed command' (List.mem_append_left _ h')
      exact (exec_refines hF h (hnamed command (by simp))).1
  exact ⟨hholds, fun command hname => (exec_refines hF hholds hname).2⟩

theorem registry_two_environments :
    (exec (JsonText.compact fun _ => []) (run (step (JsonText.compact fun _ => [])) .empty
      [.kube (.ok ("minikube", [])), .initDocker "docker" (.ok ()) (.ok ("c1", [])), .use "minikube"]) .current).1 =
        .ok (.environment "minikube" .kubernetes) := by
  have hnamed : ∀ command ∈ [Command.kube (.ok ("minikube", [])), .initDocker "docker" (.ok ()) (.ok ("c1", [])),
      .use "minikube"], command.Named := by
    simp only [List.mem_cons, List.not_mem_nil, or_false, forall_eq_or_imp, forall_eq, Command.Named, Except.ok.injEq]
    exact ⟨fun c hc => hc ▸ by decide, by decide, by decide⟩
  have h := (registry_refines _ (JsonText.compact_lawful fun _ => []) _ hnamed).2 .current trivial
  simpa [Environments.Answers, Environments.next, Environments.addContext, Environments.use, Environments.empty,
    Registration.getKind, Registration.getId] using h

/-- the context of a cluster may be named by a path -/
theorem slash_breaks_list (F : JsonText.Format) :
    (exec F (step F .empty (.kube (.ok ("a/b", [])))) .all).1 = .error "no such file or directory" := by
  have hchildren : (step F .empty (.kube (.ok ("a/b", [])))).children serversPath = [("a", .dir)] := by rfl
  have hdir : (step F .empty (.kube (.ok ("a/b", [])))).find serversPath = some .dir := by rfl
  have hmissing : (step F .empty (.kube (.ok ("a/b", [])))).find (cfgFile "a") = none := by rfl
  rw [exec, listRegistrations, hdir]
  dsimp only
  rw [Tree.readDir, hchildren, List.mergeSort_singleton, loadAll, loadRegistration, Tree.readFile, hmissing]
  rfl

end DrasiPlatform.Cli.Registry
