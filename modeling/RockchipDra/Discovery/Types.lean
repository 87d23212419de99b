import RockchipDra.Consts
import RockchipDra.Go.Filepath

/-!
# Devices, the discovery configuration, and the file trees that discovery reads

`Config` and `Device` of `internal/discovery/types.go`, and the readers of `soc.go` and `v4l.go`
over a `Tree`. A tree answers the four system calls that discovery makes. Its directories list
proper file names in increasing order, as `os.ReadDir` returns them; nothing else about it is fixed,
and successive polls may see unrelated trees.
-/

namespace RockchipDra.Discovery

open Go

/-- How devices are enumerated. -/
structure Config where
  /-- The mount of sysfs, `/sys` where empty. -/
  sysfsRoot : String := ""
  /-- The mount of the device nodes, `/dev` where empty. -/
  devRoot : String := ""
  /-- Advertise synthetic devices instead of reading sysfs. -/
  mock : Bool := false
  /-- Discover NPUs. -/
  npuEnabled : Bool := false
  /-- Discover GPUs. -/
  gpuEnabled : Bool := false
  /-- Discover VPUs. -/
  vpuEnabled : Bool := false
  /-- Discover RGAs. -/
  rgaEnabled : Bool := false
  /-- Share cap of the NPU, where positive. -/
  npuMaxAllocations : Int64 := 0
  /-- Share cap of the GPU, where positive. -/
  gpuMaxAllocations : Int64 := 0
  /-- Share cap of each VPU, where positive. -/
  vpuMaxAllocations : Int64 := 0
  /-- Share cap of each RGA, where positive. -/
  rgaMaxAllocations : Int64 := 0
  deriving DecidableEq

/-- One accelerator discovered on the node. -/
structure Device where
  name : String := ""
  type : String := ""
  soc : String := ""
  vendor : String := ""
  model : String := ""
  kmd : String := ""
  coreCount : Int64 := 0
  shaderCores : Int64 := 0
  deviceNode : String := ""
  maxAllocations : Int64 := 0
  /-- `decode` or `encode`; empty for other types than a VPU. -/
  function : String := ""
  /-- The stable selector of a VPU; empty for other types. -/
  block : String := ""
  /-- The host group of the device node, meaningful only where `deviceGIDKnown`. -/
  deviceGID : Int64 := 0
  deviceGIDKnown : Bool := false
  deriving DecidableEq

/-- The defaults of a configuration. One that enables no type enables all of them. -/
def defaultConfig (c : Config) : Config :=
  let c := if c.sysfsRoot = "" then { c with sysfsRoot := "/sys" } else c
  let c := if c.devRoot = "" then { c with devRoot := "/dev" } else c
  if !c.npuEnabled && !c.gpuEnabled && !c.vpuEnabled && !c.rgaEnabled then
    { c with npuEnabled := true, gpuEnabled := true, vpuEnabled := true, rgaEnabled := true }
  else c

/-- The share cap of an NPU that no flag overrides: its cores, or those of its SoC. -/
def defaultNPUMaxAllocations (soc : String) (coreCount : Int64) : Int64 :=
  if 0 < coreCount then coreCount
  else if soc = "rk3588" ∨ soc = "rk3588s" then 3
  else 1

/-- The share cap of a GPU that no flag overrides. -/
def defaultGPUMaxAllocations : Int64 := Consts.defaultGPUMaxAllocations

/-! ## File trees -/

/-- What `os.Stat` tells of a path that exists. -/
structure FileInfo where
  /-- The path is a directory. -/
  isDir : Bool := false
  /-- The group of the file, where the system reports one. -/
  gid : Option Int64 := none
  deriving DecidableEq

/-- A file tree as discovery sees it during one poll. A call that fails answers `none`. -/
structure Tree where
  /-- `os.ReadDir`: the names in a directory. -/
  readDir : String → Option (List String)
  /-- `os.ReadFile`. -/
  readFile : String → Option String
  /-- `os.Readlink`. -/
  readlink : String → Option String
  /-- `os.Stat`. -/
  stat : String → Option FileInfo
  /-- A directory is listed in increasing order. -/
  readDir_sorted : ∀ path names, readDir path = some names → names.Pairwise (· < ·)
  /-- Directory entries have proper file names. -/
  readDir_names : ∀ path names, readDir path = some names → ∀ n ∈ names, Filepath.IsFileName n

/-- The tree with the listed directories, files, links, and further nodes. -/
def Tree.ofLists (dirs : List (String × List String)) (files links : List (String × String))
    (nodes : List (String × FileInfo)) (hsorted : ∀ d ∈ dirs, d.2.Pairwise (· < ·))
    (hnames : ∀ d ∈ dirs, ∀ n ∈ d.2, Filepath.IsFileName n) : Tree where
  readDir path := dirs.lookup path
  readFile path := files.lookup path
  readlink path := links.lookup path
  stat path := nodes.lookup path
  readDir_sorted path names h := by
    obtain ⟨l₁, l₂, rfl, -⟩ := List.lookup_eq_some_iff.mp h
    exact hsorted (path, names) (by simp)
  readDir_names path names h := by
    obtain ⟨l₁, l₂, rfl, -⟩ := List.lookup_eq_some_iff.mp h
    exact hnames (path, names) (by simp)

/-! ## Readers -/

/-- The value of the first line `key=value` of a device's `uevent` file, empty where there is
none. -/
def ueventValue (t : Tree) (path key : String) : String :=
  match t.readFile (Filepath.join [path, "uevent"]) with
  | none => ""
  | some data =>
    ((Strings.split data '\n').findSome? fun line =>
      match Strings.cut line '=' with
      | some (k, val) => if k = key then some (Strings.trimSpace val) else none
      | none => none).getD ""

/-- The kernel driver that a device's `uevent` file names. -/
def ueventDriver (t : Tree) (path : String) : String := ueventValue t path "DRIVER"

/-- Whether a path exists. -/
def pathExists (t : Tree) (path : String) : Bool := (t.stat path).isSome

/-- The group of a device node, where it exists and has one. -/
def nodeGID (t : Tree) (path : String) : Option Int64 :=
  if path = "" then none else (t.stat path).bind FileInfo.gid

/-- Record the group of the device node. -/
def applyNodeGID (t : Tree) (d : Device) : Device :=
  match nodeGID t d.deviceNode with
  | none => d
  | some gid => { d with deviceGID := gid, deviceGIDKnown := true }

section NodeGID

variable (t : Tree) (d : Device)

/-- Recording the group changes nothing else. -/
theorem applyNodeGID_eq :
    applyNodeGID t d = { d with
      deviceGID := (applyNodeGID t d).deviceGID
      deviceGIDKnown := (applyNodeGID t d).deviceGIDKnown } := by
  unfold applyNodeGID
  split <;> rfl

@[simp] theorem applyNodeGID_name : (applyNodeGID t d).name = d.name := by rw [applyNodeGID_eq]

@[simp] theorem applyNodeGID_type : (applyNodeGID t d).type = d.type := by rw [applyNodeGID_eq]

@[simp] theorem applyNodeGID_soc : (applyNodeGID t d).soc = d.soc := by rw [applyNodeGID_eq]

@[simp] theorem applyNodeGID_model : (applyNodeGID t d).model = d.model := by rw [applyNodeGID_eq]

@[simp] theorem applyNodeGID_maxAllocations :
    (applyNodeGID t d).maxAllocations = d.maxAllocations := by
  rw [applyNodeGID_eq]

@[simp] theorem applyNodeGID_function : (applyNodeGID t d).function = d.function := by
  rw [applyNodeGID_eq]

@[simp] theorem applyNodeGID_block : (applyNodeGID t d).block = d.block := by rw [applyNodeGID_eq]

@[simp] theorem applyNodeGID_deviceNode : (applyNodeGID t d).deviceNode = d.deviceNode := by
  rw [applyNodeGID_eq]

end NodeGID

/-- The SoCs that discovery knows, most specific first. -/
def knownSoCs : List String := ["rk3588s", "rk3588", "rk3576", "rk3568", "rk3566", "rk3562"]

/-- The SoC that the device tree names, empty where it is not known. -/
def detectSoC (t : Tree) (sysfsRoot : String) : String :=
  match t.readFile (Filepath.join [sysfsRoot, "firmware", "devicetree", "base", "compatible"]) with
  | none => ""
  | some data =>
    let compat := Strings.toLower (Strings.replaceAll data '\x00' ',')
    (knownSoCs.find? fun soc => Strings.contains compat soc).getD ""

/-- The driver that a device's `driver` link points to. -/
def driverSymlink (t : Tree) (devicePath : String) : String :=
  match t.readlink (Filepath.join [devicePath, "driver"]) with
  | none => ""
  | some target => Filepath.base target

/-- The NUL-separated `compatible` strings of a device, joined by commas. -/
def readCompatible (t : Tree) (devicePath : String) : String :=
  match t.readFile (Filepath.join [devicePath, "of_node", "compatible"]) with
  | none => ""
  | some data =>
    Strings.join (((Strings.split data '\x00').map Strings.trimSpace).filter (· ≠ "")) ","

/-- The contents of a file without white space around them, empty where it cannot be read. -/
def readTrimmed (t : Tree) (path : String) : String :=
  match t.readFile path with
  | none => ""
  | some data => Strings.trimSpace data

end RockchipDra.Discovery
