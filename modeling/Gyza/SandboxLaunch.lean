import Gyza.SandboxGate
import Gyza.Lib.Dict
import Gyza.Lib.KeyedSort
import Gyza.Lib.PrefixCode

/-! From a manifest to the sandbox it is run in: the configuration
(`sandbox_config_from_manifest`), the command line of `bwrap` (`_build_bwrap_argv` and its
caller `run_sandboxed`) and the record stamped on the result (`make_sandboxed_executor`).

What the interpreter and the file system answer is a parameter. -/

namespace Gyza.Sandbox

open PyValue (Collection Fields Value dictGet subDict)

inductive SandboxBackend where
  | bubblewrap
  | none
  deriving DecidableEq

def SandboxBackend.value : SandboxBackend → String
  | .bubblewrap => "bubblewrap"
  | .none => "none"

structure SandboxConfig where
  roPaths : List String := []
  rwPaths : List String := []
  workspace : Option String := none
  requiresNetwork : Bool := false
  envPassthrough : List String := []
  envSet : Dict String String := Dict.empty
  maxMemoryMb : Option Int := some 2048
  maxCpuSeconds : Option Int := some 300
  timeoutS : Float := 120.0
  backend : SandboxBackend := .bubblewrap

/-- What the running interpreter says of itself and of the file system. A link's target
is `os.readlink`; a path that is no link has none. -/
structure Host where
  lexists : String → Bool
  readlink : String → Option String
  realpath : String → String
  sysPrefix : String
  basePrefix : String
  stdlib : Option String
  platlib : Option String
  executable : String
  /-- A frozen binary's bundle directory; the outer `none` is a source build. -/
  frozen : Option (Option String)
  packageParent : String
  environ : String → Option String

inductive MountKind where
  | bind
  | symlink
  deriving DecidableEq

structure HostMount where
  kind : MountKind
  src : String
  dest : String

section Building

variable (host : Host)

/-- The path a library directory adds, if it is there. -/
def present (path : Option String) : List String :=
  match path with
  | some path => if path ≠ "" ∧ host.lexists path = true then [path] else []
  | none => []

def systemPaths : List String :=
  ["/usr", "/etc"] ++ ["/lib", "/lib64", "/bin", "/sbin"].filter host.lexists ++
    [host.sysPrefix, host.basePrefix] ++ present host host.stdlib ++ present host host.platlib

def hostMount (path : String) : HostMount :=
  match host.readlink path with
  | some target => ⟨.symlink, target, path⟩
  | none => ⟨.bind, path, path⟩

def addMount (out : List HostMount) (path : String) : List HostMount :=
  if path ∈ out.map HostMount.dest then out else out ++ [hostMount host path]

/-- `_system_mounts`: each destination once, where it came first. -/
def systemMounts : List HostMount := (systemPaths host).foldl (addMount host) []

def mountWords (mount : HostMount) : List String :=
  match mount.kind with
  | .symlink => ["--symlink", mount.src, mount.dest]
  | .bind => ["--ro-bind", mount.src, mount.dest]

/-- A name that is passed on, unless it is set already or absent. -/
def passthroughWords (name : String) : List String :=
  if name = "HOME" ∨ name = "PATH" then []
  else
    match host.environ name with
    | some value => ["--setenv", name, value]
    | none => []

def buildBwrapArgv (config : SandboxConfig) (entryArgv : List String) : List String :=
  ["bwrap"] ++ ["--unshare-all"] ++ (if config.requiresNetwork then ["--share-net"] else []) ++
    ["--uid", "65534", "--gid", "65534"] ++ ["--tmpfs", "/tmp"] ++
    (systemMounts host).flatMap mountWords ++ ["--proc", "/proc", "--dev", "/dev"] ++
    config.roPaths.flatMap (fun path => mountWords (hostMount host path)) ++
    config.rwPaths.flatMap (fun path => ["--bind", path, path]) ++
    (match config.workspace with
      | some workspace => ["--bind", workspace, "/workspace", "--chdir", "/workspace"]
      | none => ["--tmpfs", "/workspace", "--chdir", "/workspace"]) ++
    ["--clearenv"] ++ ["--setenv", "HOME", "/tmp"] ++ ["--setenv", "PATH", "/usr/bin:/bin"] ++
    ["--setenv", "PYTHONUNBUFFERED", "1"] ++
    config.envPassthrough.flatMap (passthroughWords host) ++
    config.envSet.rows.flatMap (fun row => ["--setenv", row.1, row.2]) ++
    ["--die-with-parent", "--new-session"] ++ entryArgv

def frozenBindPaths (meipass : Option String) : List String :=
  match meipass with
  | some bundle =>
      if bundle ≠ "" ∧ host.realpath bundle ≠ host.realpath host.executable then
        [host.realpath host.executable, host.realpath bundle]
      else [host.realpath host.executable]
  | none => [host.realpath host.executable]

/-- The command run inside, the paths it needs and the environment it gets. -/
def entryPoint (config : SandboxConfig) (pythonBin gyzaSourceRoot : Option String) :
    List String × List String × Dict String String :=
  match host.frozen with
  | some meipass =>
      ([pythonBin.getD host.executable, "__gyza_sandbox_entry__"], frozenBindPaths host meipass,
        config.envSet)
  | none =>
      let root := gyzaSourceRoot.getD host.packageParent
      let existing := (config.envSet.lookup "PYTHONPATH").getD ""
      ([pythonBin.getD host.executable, "-u", "-m", "gyza.sandbox._entrypoint"], [root],
        config.envSet.set "PYTHONPATH" (if existing = "" then root else root ++ ":" ++ existing))

/-- The paths with those of the second list that are not among them. -/
def addPaths (paths added : List String) : List String :=
  added.foldl (fun paths path => if path ∈ paths then paths else paths ++ [path]) paths

/-- What `run_sandboxed` starts for a `bubblewrap` configuration. -/
def launchArgv (config : SandboxConfig) (pythonBin gyzaSourceRoot : Option String) : List String :=
  let entry := entryPoint host config pythonBin gyzaSourceRoot
  buildBwrapArgv host
    { config with roPaths := addPaths config.roPaths entry.2.1, envSet := entry.2.2 } entry.1

end Building

/-! The configuration of a manifest. -/

section Deriving

variable (str : Value → String)

/-- `[str(p) for p in items if p]`. -/
def pathList (items : List Value) : List String := (items.filter Value.truthy).map str

def sandboxConfigFromManifest (manifest : Value) (workspace : Option String) (timeoutS : Float) :
    Except Raised SandboxConfig :=
  match manifest with
  | .dict _ =>
      match (manifestPaths manifest "read").iterate, (manifestPaths manifest "write").iterate,
        (dictGet (manifestBlock manifest "network") "allowed_hosts" Value.emptyList).iterate with
      | some read, some write, some hosts =>
          .ok
            { roPaths := pathList str read
              rwPaths := pathList str write
              workspace := workspace
              requiresNetwork := !(hosts.filter Value.truthy).isEmpty
              maxMemoryMb := (resourceBudget manifest "memory_limit_mb").positiveInt
              timeoutS := timeoutS
              backend := .bubblewrap }
      | _, _, _ => .error .typeError
  | _ => .error .attributeError

end Deriving

structure ReleaseIdentity where
  version : String
  sourceTreeHash : String

def optionalInt : Option Int → Value
  | some value => .int value
  | none => .none

def sortedPaths (paths : List String) : Value :=
  .collection .list ((KeyedSort.sortBy id paths).map .str)

/-- The `__enforcement__` record of a result. -/
def enforcementStamp (config : SandboxConfig) (release : ReleaseIdentity) : Value :=
  .dict
    [("backend", .str config.backend.value), ("ro_paths", sortedPaths config.roPaths),
      ("rw_paths", sortedPaths config.rwPaths), ("requires_network", .bool config.requiresNetwork),
      ("max_memory_mb", optionalInt config.maxMemoryMb),
      ("max_cpu_seconds", optionalInt config.maxCpuSeconds), ("timeout_s", .float config.timeoutS),
      ("runner_version", .str release.version),
      ("runner_source_tree_hash", .str release.sourceTreeHash)]

/-! The command line as options, each a word and as many arguments as the word takes. -/

inductive Flag where
  | unshareAll
  | shareNet
  | uid
  | gid
  | tmpfs
  | symlink
  | roBind
  | proc
  | dev
  | bind
  | chdir
  | clearenv
  | setenv
  | dieWithParent
  | newSession
  deriving DecidableEq

namespace Flag

def word : Flag → String
  | unshareAll => "--unshare-all"
  | shareNet => "--share-net"
  | uid => "--uid"
  | gid => "--gid"
  | tmpfs => "--tmpfs"
  | symlink => "--symlink"
  | roBind => "--ro-bind"
  | proc => "--proc"
  | dev => "--dev"
  | bind => "--bind"
  | chdir => "--chdir"
  | clearenv => "--clearenv"
  | setenv => "--setenv"
  | dieWithParent => "--die-with-parent"
  | newSession => "--new-session"

def arity : Flag → Nat
  | unshareAll | shareNet | clearenv | dieWithParent | newSession => 0
  | uid | gid | tmpfs | proc | dev | chdir => 1
  | symlink | roBind | bind | setenv => 2

theorem word_injective : Function.Injective word := by
  intro flag other same
  cases flag <;> cases other <;> first | rfl | exact absurd same (by decide)

end Flag

structure BwrapOption where
  flag : Flag
  arguments : List String
  counted : arguments.length = flag.arity

namespace BwrapOption

def words (option : BwrapOption) : List String := option.flag.word :: option.arguments

theorem words_prefixFree : PrefixCode.PrefixFree fun option => some (words option) := by
  intro option other text text' rest rest' written written' same
  cases written
  cases written'
  obtain ⟨flag, arguments, counted⟩ := option
  obtain ⟨flag', arguments', counted'⟩ := other
  simp only [words, List.cons_append, List.cons.injEq] at same
  obtain ⟨flags, rests⟩ := same
  obtain rfl := Flag.word_injective flags
  obtain ⟨rfl, tails⟩ := List.append_inj rests (counted.trans counted'.symm)
  exact ⟨rfl, tails⟩

def single (flag : Flag) (none : flag.arity = 0) : BwrapOption := ⟨flag, [], none.symm⟩

def unary (flag : Flag) (argument : String) (one : flag.arity = 1) : BwrapOption :=
  ⟨flag, [argument], one.symm⟩

def binary (flag : Flag) (first second : String) (two : flag.arity = 2) : BwrapOption :=
  ⟨flag, [first, second], two.symm⟩

def ofMount (mount : HostMount) : BwrapOption :=
  match mount.kind with
  | .symlink => binary .symlink mount.src mount.dest rfl
  | .bind => binary .roBind mount.src mount.dest rfl

theorem words_ofMount (mount : HostMount) : (ofMount mount).words = mountWords mount := by
  obtain ⟨kind, src, dest⟩ := mount
  cases kind <;> rfl

def passthrough (host : Host) (name : String) : List BwrapOption :=
  if name = "HOME" ∨ name = "PATH" then []
  else
    match host.environ name with
    | some value => [binary .setenv name value rfl]
    | none => []

theorem words_passthrough (host : Host) (name : String) :
    (passthrough host name).flatMap words = passthroughWords host name := by
  unfold passthrough passthroughWords
  split_ifs
  · rfl
  · cases host.environ name <;> rfl

end BwrapOption

open BwrapOption

/-- What a configuration asks of `bwrap`. -/
def launchOptions (host : Host) (config : SandboxConfig) : List BwrapOption :=
  [single .unshareAll rfl] ++ (if config.requiresNetwork then [single .shareNet rfl] else []) ++
    [unary .uid "65534" rfl, unary .gid "65534" rfl, unary .tmpfs "/tmp" rfl] ++
    (systemMounts host).map ofMount ++ [unary .proc "/proc" rfl, unary .dev "/dev" rfl] ++
    config.roPaths.map (fun path => ofMount (hostMount host path)) ++
    config.rwPaths.map (fun path => binary .bind path path rfl) ++
    (match config.workspace with
      | some workspace => [binary .bind workspace "/workspace" rfl, unary .chdir "/workspace" rfl]
      | none => [unary .tmpfs "/workspace" rfl, unary .chdir "/workspace" rfl]) ++
    [single .clearenv rfl, binary .setenv "HOME" "/tmp" rfl,
      binary .setenv "PATH" "/usr/bin:/bin" rfl, binary .setenv "PYTHONUNBUFFERED" "1" rfl] ++
    config.envPassthrough.flatMap (passthrough host) ++
    config.envSet.rows.map (fun row => binary .setenv row.1 row.2 rfl) ++
    [single .dieWithParent rfl, single .newSession rfl]

/-- The command line spells these options, and then the command. -/
theorem buildBwrapArgv_eq (host : Host) (config : SandboxConfig) (entryArgv : List String) :
    buildBwrapArgv host config entryArgv =
      "bwrap" :: (launchOptions host config).flatMap words ++ entryArgv := by
  have mounts : ∀ mounts : List HostMount,
      (mounts.map ofMount).flatMap words = mounts.flatMap mountWords := by
    intro mounts
    rw [List.flatMap_map]
    exact congrArg mounts.flatMap (funext words_ofMount)
  have reads : (config.roPaths.map fun path => ofMount (hostMount host path)).flatMap words =
      config.roPaths.flatMap fun path => mountWords (hostMount host path) := by
    rw [List.flatMap_map]
    exact congrArg config.roPaths.flatMap (funext fun path => words_ofMount _)
  have writes : (config.rwPaths.map fun path => binary .bind path path rfl).flatMap words =
      config.rwPaths.flatMap fun path => ["--bind", path, path] := by
    rw [List.flatMap_map]
    rfl
  have passed : (config.envPassthrough.flatMap (passthrough host)).flatMap words =
      config.envPassthrough.flatMap (passthroughWords host) := by
    rw [List.flatMap_assoc]
    exact congrArg config.envPassthrough.flatMap (funext (words_passthrough host))
  have sets : (config.envSet.rows.map fun row => binary .setenv row.1 row.2 rfl).flatMap words =
      config.envSet.rows.flatMap fun row => ["--setenv", row.1, row.2] := by
    rw [List.flatMap_map]
    rfl
  unfold buildBwrapArgv launchOptions
  simp only [List.flatMap_append, mounts, reads, writes, passed, sets]
  cases config.requiresNetwork <;> cases config.workspace <;>
    simp [words, single, unary, binary, Flag.word]

/-- A command that is not spelled like an option. -/
def PlainCommand (command : List String) : Prop :=
  ∀ first ∈ command.head?, ∀ flag : Flag, first ≠ flag.word

theorem PlainCommand.stops {command : List String} (plain : PlainCommand command) :
    PrefixCode.Stops (fun option => some (words option)) command := by
  intro option text rest written spelled
  cases written
  exact plain option.flag.word (by rw [spelled]; rfl) option.flag rfl

/-- Whatever the paths, names and values are, the command line has no second reading. -/
theorem launchOptions_unique (host : Host) (config : SandboxConfig)
    {entryArgv command : List String} {options : List BwrapOption}
    (entry : PlainCommand entryArgv) (plain : PlainCommand command)
    (spelled : buildBwrapArgv host config entryArgv =
      "bwrap" :: options.flatMap words ++ command) :
    options = launchOptions host config ∧ command = entryArgv := by
  rw [buildBwrapArgv_eq] at spelled
  have same := (List.cons.inj spelled).2
  exact PrefixCode.encodeAll_append_injective words_prefixFree
    (PrefixCode.encodeAll_some words options)
    (PrefixCode.encodeAll_some words (launchOptions host config)) plain.stops entry.stops same.symm

/-! Which options give access to the host. -/

theorem hostMount_dest (host : Host) (path : String) : (hostMount host path).dest = path := by
  unfold hostMount
  cases host.readlink path <;> rfl

/-- Every system mount is one of the system paths, as it is on the host. -/
theorem mem_systemMounts (host : Host) {mount : HostMount} (member : mount ∈ systemMounts host) :
    ∃ path ∈ systemPaths host, mount = hostMount host path := by
  have built : ∀ (paths : List String) (out : List HostMount),
      (∀ mount ∈ out, ∃ path ∈ systemPaths host, mount = hostMount host path) →
      (∀ path ∈ paths, path ∈ systemPaths host) →
      ∀ mount ∈ paths.foldl (addMount host) out,
        ∃ path ∈ systemPaths host, mount = hostMount host path := by
    intro paths
    induction paths with
    | nil => exact fun out known _ => known
    | cons path rest ih =>
        intro out known inside
        refine ih (addMount host out path) ?_
          (fun other member => inside other (List.mem_cons_of_mem _ member))
        unfold addMount
        split_ifs
        · exact known
        · intro mount member
          rcases List.mem_append.mp member with earlier | added
          · exact known mount earlier
          · exact ⟨path, inside path List.mem_cons_self, List.mem_singleton.mp added⟩
  exact built (systemPaths host) [] (by simp) (fun _ member => member) mount member

/-- The arguments of all options of one kind. -/
def argumentsOf (flag : Flag) (options : List BwrapOption) : List (List String) :=
  (options.filter fun option => option.flag = flag).map BwrapOption.arguments

@[simp] theorem argumentsOf_nil (flag : Flag) : argumentsOf flag [] = [] := rfl

@[simp] theorem argumentsOf_append (flag : Flag) (front back : List BwrapOption) :
    argumentsOf flag (front ++ back) = argumentsOf flag front ++ argumentsOf flag back := by
  simp [argumentsOf]

@[simp] theorem argumentsOf_cons (flag : Flag) (option : BwrapOption) (rest : List BwrapOption) :
    argumentsOf flag (option :: rest) =
      (if option.flag = flag then [option.arguments] else []) ++ argumentsOf flag rest := by
  by_cases same : option.flag = flag <;> simp [argumentsOf, same]

theorem argumentsOf_eq_nil {flag : Flag} {options : List BwrapOption}
    (other : ∀ option ∈ options, option.flag ≠ flag) : argumentsOf flag options = [] := by
  rw [argumentsOf, List.filter_eq_nil_iff.mpr (by simpa using other), List.map_nil]

theorem argumentsOf_binary {α : Type} (flag : Flag) (two : flag.arity = 2)
    (first second : α → String) (items : List α) :
    argumentsOf flag (items.map fun item => binary flag (first item) (second item) two) =
      items.map fun item => [first item, second item] := by
  induction items with
  | nil => rfl
  | cons item rest ih => rw [List.map_cons, argumentsOf_cons, ih]; simp [binary]

theorem ofMount_flag (mount : HostMount) : (ofMount mount).flag =
    match mount.kind with
    | .symlink => .symlink
    | .bind => .roBind := by
  obtain ⟨kind, src, dest⟩ := mount
  cases kind <;> rfl

theorem passthrough_flag {host : Host} {name : String} {option : BwrapOption}
    (member : option ∈ passthrough host name) : option.flag = .setenv := by
  unfold passthrough at member
  split_ifs at member
  · cases member
  · split at member
    · rw [List.mem_singleton.mp member]
      rfl
    · cases member

section Access

variable (host : Host) (config : SandboxConfig)

theorem argumentsOf_mounts (flag : Flag) (link : flag ≠ .symlink) (bound : flag ≠ .roBind)
    (mounts : List HostMount) : argumentsOf flag (mounts.map ofMount) = [] := by
  apply argumentsOf_eq_nil
  intro option member
  obtain ⟨mount, _, rfl⟩ := List.mem_map.mp member
  rw [ofMount_flag]
  cases mount.kind
  · exact bound.symm
  · exact link.symm

theorem argumentsOf_passed (flag : Flag) (other : flag ≠ .setenv) (names : List String) :
    argumentsOf flag (names.flatMap (passthrough host)) = [] := by
  apply argumentsOf_eq_nil
  intro option member
  obtain ⟨name, _, passed⟩ := List.mem_flatMap.mp member
  rw [passthrough_flag passed]
  exact other.symm

theorem argumentsOf_sets (flag : Flag) (other : flag ≠ .setenv) (rows : List (String × String)) :
    argumentsOf flag (rows.map fun row => binary .setenv row.1 row.2 rfl) = [] := by
  apply argumentsOf_eq_nil
  intro option member
  obtain ⟨row, _, rfl⟩ := List.mem_map.mp member
  exact other.symm

theorem argumentsOf_writes (flag : Flag) (other : flag ≠ .bind) (paths : List String) :
    argumentsOf flag (paths.map fun path => binary .bind path path rfl) = [] := by
  apply argumentsOf_eq_nil
  intro option member
  obtain ⟨path, _, rfl⟩ := List.mem_map.mp member
  exact other.symm

theorem map_hostMount (paths : List String) :
    (paths.map fun path => ofMount (hostMount host path)) =
      (paths.map (hostMount host)).map ofMount := by
  rw [List.map_map]
  rfl

/-- What is writable of the host: the configured paths and the workspace. -/
theorem binds_launchOptions :
    argumentsOf .bind (launchOptions host config) =
      config.rwPaths.map (fun path => [path, path]) ++
        config.workspace.toList.map (fun workspace => [workspace, "/workspace"]) := by
  have mounts := argumentsOf_mounts .bind (by decide) (by decide)
  have passed := argumentsOf_passed host .bind (by decide)
  have sets := argumentsOf_sets .bind (by decide)
  have writes := argumentsOf_binary .bind rfl id id config.rwPaths
  simp only [id_eq] at writes
  unfold launchOptions
  rw [map_hostMount]
  simp only [argumentsOf_append, mounts, passed, sets, writes]
  cases config.requiresNetwork <;> cases config.workspace <;> simp [single, unary, binary]

theorem shareNet_launchOptions :
    argumentsOf .shareNet (launchOptions host config) =
      if config.requiresNetwork then [[]] else [] := by
  have mounts := argumentsOf_mounts .shareNet (by decide) (by decide)
  have passed := argumentsOf_passed host .shareNet (by decide)
  have sets := argumentsOf_sets .shareNet (by decide)
  have writes := argumentsOf_writes .shareNet (by decide)
  unfold launchOptions
  rw [map_hostMount]
  simp only [argumentsOf_append, mounts, passed, sets, writes]
  cases config.requiresNetwork <;> cases config.workspace <;> simp [single, unary, binary]

theorem roBinds_ofMount {mounts : List HostMount} {arguments : List String}
    (member : arguments ∈ argumentsOf .roBind (mounts.map ofMount)) :
    ∃ mount ∈ mounts, mount.kind = .bind ∧ arguments = [mount.src, mount.dest] := by
  obtain ⟨option, kept, rfl⟩ := List.mem_map.mp member
  obtain ⟨listed, flag⟩ := List.mem_filter.mp kept
  obtain ⟨⟨kind, src, dest⟩, mounted, rfl⟩ := List.mem_map.mp listed
  cases kind with
  | bind => exact ⟨_, mounted, rfl, rfl⟩
  | symlink => simp [ofMount, binary] at flag

theorem hostMount_bind {path : String} (bound : (hostMount host path).kind = .bind) :
    hostMount host path = ⟨.bind, path, path⟩ := by
  unfold hostMount at bound ⊢
  cases link : host.readlink path with
  | none => rfl
  | some target => simp [link] at bound

/-- What is readable of the host: system paths and the configured paths. -/
theorem roBinds_launchOptions {arguments : List String}
    (member : arguments ∈ argumentsOf .roBind (launchOptions host config)) :
    ∃ path, (path ∈ systemPaths host ∨ path ∈ config.roPaths) ∧ arguments = [path, path] := by
  have passed := argumentsOf_passed host .roBind (by decide)
  have sets := argumentsOf_sets .roBind (by decide)
  have writes := argumentsOf_writes .roBind (by decide)
  have mounted : arguments ∈ argumentsOf .roBind ((systemMounts host).map ofMount) ∨
      arguments ∈ argumentsOf .roBind ((config.roPaths.map (hostMount host)).map ofMount) := by
    unfold launchOptions at member
    rw [map_hostMount] at member
    simp only [argumentsOf_append, passed, sets, writes] at member
    cases network : config.requiresNetwork <;> cases dir : config.workspace <;>
      simpa [network, dir, single, unary, binary] using member
  rcases mounted with system | given
  · obtain ⟨mount, listed, bound, rfl⟩ := roBinds_ofMount system
    obtain ⟨path, inside, rfl⟩ := mem_systemMounts host listed
    rw [hostMount_bind host bound]
    exact ⟨path, Or.inl inside, rfl⟩
  · obtain ⟨mount, listed, bound, rfl⟩ := roBinds_ofMount given
    obtain ⟨path, inside, rfl⟩ := List.mem_map.mp listed
    rw [hostMount_bind host bound]
    exact ⟨path, Or.inr inside, rfl⟩

end Access

/-! What a manifest authorizes, its configuration asks for. -/

section Manifest

variable (str : Value → String) {manifest : Value} {workspace : Option String} {timeoutS : Float}
  {config : SandboxConfig}

structure Derived (manifest : Value) (workspace : Option String) (config : SandboxConfig) :
    Prop where
  isDict : manifest = .dict manifest.fields
  reads : ∃ read, (manifestPaths manifest "read").iterate = some read ∧
    config.roPaths = pathList str read
  writes : ∃ write, (manifestPaths manifest "write").iterate = some write ∧
    config.rwPaths = pathList str write
  network : config.requiresNetwork = true → (allowedHosts manifest).truthy = true
  memory : config.maxMemoryMb = (resourceBudget manifest "memory_limit_mb").positiveInt
  workspace : config.workspace = workspace
  backend : config.backend = .bubblewrap

theorem truthy_of_iterate {value : Value} {items : List Value}
    (iterated : value.iterate = some items) (nonempty : items ≠ []) : value.truthy = true := by
  cases value with
  | collection kind held =>
      cases iterated
      simpa [Value.truthy] using nonempty
  | dict fields =>
      cases iterated
      simpa [Value.truthy] using nonempty
  | str text =>
      cases iterated
      have letters : text.toList ≠ [] := by simpa using nonempty
      have nonblank : text ≠ "" := by
        rintro rfl
        exact letters rfl
      simp [Value.truthy, nonblank]
  | _ => cases iterated

theorem sandboxConfigFromManifest_ok
    (derived : sandboxConfigFromManifest str manifest workspace timeoutS = .ok config) :
    Derived str manifest workspace config := by
  unfold sandboxConfigFromManifest at derived
  split at derived
  · split at derived
    · rename_i fields _ _ _ read write hosts read_iterated write_iterated hosts_iterated
      cases derived
      refine ⟨rfl, ⟨read, read_iterated, rfl⟩, ⟨write, write_iterated, rfl⟩, ?_, rfl, rfl, rfl⟩
      intro opened
      have given : hosts ≠ [] := by
        rintro rfl
        cases opened
      cases listed : (manifestBlock (.dict fields) "network").lookup "allowed_hosts" with
      | none =>
          simp only [dictGet, listed, Option.getD_none] at hosts_iterated
          cases hosts_iterated
          exact absurd rfl given
      | some value =>
          simp only [dictGet, listed, Option.getD_some] at hosts_iterated
          rw [allowedHosts, dictGet, listed, Option.getD_some]
          exact truthy_of_iterate hosts_iterated given
    · cases derived
  · cases derived

theorem pathSet_sortedPaths (text : ∀ t, str (.str t) = t) (items : List Value) :
    pathSet str ((KeyedSort.sortBy id (pathList str items)).map .str) ⊆ pathSet str items := by
  intro path member
  simp only [pathSet, List.mem_toFinset, List.mem_map, List.mem_filter] at member ⊢
  obtain ⟨_, ⟨⟨listed, sorted, rfl⟩, _⟩, rfl⟩ := member
  have given : listed ∈ pathList str items := (KeyedSort.sortBy_perm id _).mem_iff.mp sorted
  obtain ⟨value, kept, rfl⟩ := List.mem_map.mp given
  rw [text]
  exact ⟨value, List.mem_filter.mp kept, rfl⟩

theorem checkMemory_own (limit : Value) :
    checkMemory (optionalInt limit.positiveInt) limit = .ok () := by
  unfold checkMemory
  cases capped : limit.positiveInt with
  | none => rfl
  | some cap =>
      have positive := Value.positiveInt_pos capped
      simp [optionalInt, Value.positiveInt, positive]

section Stamp

variable (config) (release : ReleaseIdentity)

theorem stamp_backend : dictGet (enforcementStamp config release).fields "backend" .none =
    .str config.backend.value := by
  simp [enforcementStamp, Value.fields, dictGet]

theorem stamp_roPaths : declaredPaths (enforcementStamp config release).fields "ro_paths" =
    .ok ((KeyedSort.sortBy id config.roPaths).map .str) := by
  simp [enforcementStamp, Value.fields, declaredPaths, List.lookup_cons, sortedPaths]

theorem stamp_rwPaths : declaredPaths (enforcementStamp config release).fields "rw_paths" =
    .ok ((KeyedSort.sortBy id config.rwPaths).map .str) := by
  simp [enforcementStamp, Value.fields, declaredPaths, List.lookup_cons, sortedPaths]

theorem stamp_network : (enforcementStamp config release).fields.lookup "requires_network" =
    some (.bool config.requiresNetwork) := by
  simp [enforcementStamp, Value.fields, List.lookup_cons]

theorem stamp_memory : dictGet (enforcementStamp config release).fields "max_memory_mb" .none =
    optionalInt config.maxMemoryMb := by
  simp [enforcementStamp, Value.fields, dictGet, List.lookup_cons]

end Stamp

/-- The record stamped for a derived configuration passes the gate of its manifest. -/
theorem stamp_accepted (text : ∀ t, str (.str t) = t)
    (derived : Derived str manifest workspace config) (release : ReleaseIdentity) :
    enforcementSatisfiesManifest str (enforcementStamp config release) manifest = .ok (.ok ()) := by
  obtain ⟨read, read_iterated, ro⟩ := derived.reads
  obtain ⟨write, write_iterated, wr⟩ := derived.writes
  obtain ⟨fields, rfl⟩ : ∃ fields, manifest = .dict fields := ⟨_, derived.isDict⟩
  have reads := pathSet_sortedPaths str text read
  have writes := pathSet_sortedPaths str text write
  have memory := checkMemory_own (resourceBudget (.dict fields) "memory_limit_mb")
  rw [← derived.memory] at memory
  have bounds : checkBounds (enforcementStamp config release).fields (.dict fields)
      (pathSet str read) (pathSet str write)
      (pathSet str ((KeyedSort.sortBy id config.roPaths).map .str))
      (pathSet str ((KeyedSort.sortBy id config.rwPaths).map .str)) = .ok () := by
    have network : (dictGet (enforcementStamp config release).fields "requires_network"
        .none).truthy = config.requiresNetwork := by
      rw [dictGet, stamp_network]
      rfl
    rw [ro, wr]
    unfold checkBounds
    rw [if_neg (not_not.mpr reads), if_neg (not_not.mpr writes), network,
      if_neg fun opened => opened.2 (derived.network opened.1), stamp_memory, memory]
  have whole : enforcementStamp config release =
    .dict (enforcementStamp config release).fields := rfl
  rw [whole, enforcementSatisfiesManifest]
  simp only [stamp_backend, stamp_roPaths, stamp_rwPaths, stamp_network, derived.backend]
  rw [if_neg (by simp [isBubblewrap, SandboxBackend.value]), if_neg (by simp)]
  unfold satisfiesBounds
  simp only [read_iterated, write_iterated, bounds]

/-- The paths a manifest lists under a key, as the gate reads them. -/
def Authorized (manifest : Value) (key path : String) : Prop :=
  ∃ items, (manifestPaths manifest key).iterate = some items ∧ path ∈ pathSet str items

theorem mem_addPaths (paths added : List String) (path : String) :
    path ∈ addPaths paths added ↔ path ∈ paths ∨ path ∈ added := by
  induction added generalizing paths with
  | nil => simp [addPaths]
  | cons first rest ih =>
      have step : addPaths paths (first :: rest) =
          addPaths (if first ∈ paths then paths else paths ++ [first]) rest := rfl
      rw [step, ih]
      split_ifs with known
      · constructor
        · rintro (old | later)
          · exact Or.inl old
          · exact Or.inr (List.mem_cons_of_mem _ later)
        · rintro (old | now)
          · exact Or.inl old
          · rcases List.mem_cons.mp now with rfl | later
            · exact Or.inl known
            · exact Or.inr later
      · simp [or_assoc]

/-- An agent run under the configuration of its manifest: the result's record passes the
signing gate, and however its command line is read, the host paths it can write are those the
manifest lists and the workspace, those it can read are the manifest's, the system's and its
own code, and it has the network only where the manifest allows a host. -/
theorem manifest_bounds_launch (text : ∀ t, str (.str t) = t) (host : Host)
    (derived : sandboxConfigFromManifest str manifest workspace timeoutS = .ok config)
    (pythonBin gyzaSourceRoot : Option String)
    (plain : ∀ flag : Flag, pythonBin.getD host.executable ≠ flag.word)
    (release : ReleaseIdentity) :
    enforcementSatisfiesManifest str (enforcementStamp config release) manifest = .ok (.ok ()) ∧
      ∀ options command, PlainCommand command →
        launchArgv host config pythonBin gyzaSourceRoot =
            "bwrap" :: options.flatMap words ++ command →
          (∀ arguments ∈ argumentsOf .bind options, ∃ src dest, arguments = [src, dest] ∧
            ((src = dest ∧ Authorized str manifest "write" src) ∨
              (workspace = some src ∧ dest = "/workspace"))) ∧
          (∀ arguments ∈ argumentsOf .roBind options, ∃ path, arguments = [path, path] ∧
            (Authorized str manifest "read" path ∨ path ∈ systemPaths host ∨
              path ∈ (entryPoint host config pythonBin gyzaSourceRoot).2.1)) ∧
          (argumentsOf .shareNet options ≠ [] → (allowedHosts manifest).truthy = true) ∧
          command = (entryPoint host config pythonBin gyzaSourceRoot).1 := by
  have bounds := sandboxConfigFromManifest_ok str derived
  refine ⟨stamp_accepted str text bounds release, ?_⟩
  intro options command plainCommand spelled
  have entry : PlainCommand (entryPoint host config pythonBin gyzaSourceRoot).1 := by
    intro first member
    unfold entryPoint at member
    cases frozen : host.frozen with
    | none =>
        simp only [frozen, List.head?_cons, Option.mem_some_iff] at member
        exact member ▸ plain
    | some meipass =>
        simp only [frozen, List.head?_cons, Option.mem_some_iff] at member
        exact member ▸ plain
  obtain ⟨rfl, rfl⟩ := launchOptions_unique host _ entry plainCommand spelled
  refine ⟨?_, ?_, ?_, rfl⟩
  · intro arguments member
    rw [binds_launchOptions] at member
    rcases List.mem_append.mp member with given | given
    · obtain ⟨path, written, rfl⟩ := List.mem_map.mp given
      obtain ⟨items, iterated, listed⟩ := bounds.writes
      rw [listed] at written
      exact ⟨path, path, rfl, Or.inl ⟨rfl, items, iterated, List.mem_toFinset.mpr written⟩⟩
    · obtain ⟨src, held, rfl⟩ := List.mem_map.mp given
      refine ⟨src, "/workspace", rfl, Or.inr ⟨?_, rfl⟩⟩
      rw [← bounds.workspace]
      exact Option.mem_toList.mp held
  · intro arguments member
    obtain ⟨path, source, rfl⟩ := roBinds_launchOptions host _ member
    refine ⟨path, rfl, ?_⟩
    rcases source with system | given
    · exact Or.inr (Or.inl system)
    · rcases (mem_addPaths _ _ _).mp given with read | own
      · obtain ⟨items, iterated, listed⟩ := bounds.reads
        rw [listed] at read
        exact Or.inl ⟨items, iterated, List.mem_toFinset.mpr read⟩
      · exact Or.inr (Or.inr own)
  · intro shared
    rw [shareNet_launchOptions] at shared
    apply bounds.network
    by_contra closed
    exact shared (if_neg closed)

end Manifest

end Gyza.Sandbox

namespace Gyza.Sample

open Sandbox

/-- A machine with one linked library directory and an interpreter under `/tmp`. -/
def host : Host where
  lexists path := path ∈ ["/lib", "/lib64"]
  readlink path := if path = "/lib64" then some "usr/lib" else none
  realpath := id
  sysPrefix := "/tmp/venv"
  basePrefix := "/usr"
  stdlib := some "/usr/lib/python3"
  platlib := none
  executable := "/tmp/venv/bin/python"
  frozen := none
  packageParent := "/src"
  environ _ := none

/-- A path that is spelled like an option is still only a path. -/
def greedyManifest : PyValue.Value :=
  agentManifest (.collection .list [.str "--share-net"]) [("memory_limit_mb", .int 512)]

def greedyConfig : SandboxConfig :=
  { roPaths := ["--share-net"]
    maxMemoryMb := some 512 }

end Gyza.Sample

namespace Gyza.Sandbox

theorem manifest_bounds_launch_sample :
    enforcementSatisfiesManifest Sample.pathText
        (enforcementStamp Sample.greedyConfig ⟨"1.0", "ab"⟩) Sample.greedyManifest = .ok (.ok ()) ∧
      ∀ options command, PlainCommand command →
        launchArgv Sample.host Sample.greedyConfig none none =
            "bwrap" :: options.flatMap BwrapOption.words ++ command →
          argumentsOf .shareNet options = [] := by
  have plain : ∀ flag : Flag, (none : Option String).getD Sample.host.executable ≠ flag.word := by
    intro flag
    cases flag <;> decide
  have derived : sandboxConfigFromManifest Sample.pathText Sample.greedyManifest none 120.0 =
      .ok Sample.greedyConfig := rfl
  have launched := manifest_bounds_launch Sample.pathText (fun _ => rfl) Sample.host derived none
    none plain ⟨"1.0", "ab"⟩
  refine ⟨launched.1, ?_⟩
  intro options command plainCommand spelled
  by_contra shared
  have opened := (launched.2 options command plainCommand spelled).2.2.1 shared
  exact absurd opened (by decide +kernel)

end Gyza.Sandbox
