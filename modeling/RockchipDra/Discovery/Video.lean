import RockchipDra.Discovery.Types
import RockchipDra.Go.Slices

/-!
# The video4linux devices: VPU blocks and RGA

`discoverV4L` reads every `videoN` entry of sysfs, `discoverVPU` keeps those that `classifyVPU` maps
to a block, and `discoverRGA` those of the RGA driver. Both name the nodes by ordinals in the order
of their indices, so a name depends on which other nodes of the block are present.
-/

namespace RockchipDra.Discovery

open Go

/-- One entry of `/sys/class/video4linux`. -/
structure V4lNode where
  /-- The `N` of `videoN`. -/
  index : Int64
  driver : String
  cardName : String
  compatible : String
  deviceNode : String
  deriving DecidableEq

/-- The index of an entry named `videoN`. -/
def videoIndex (name : String) : Option Int64 :=
  match Strings.cutPrefix name "video" with
  | none => none
  -- `Atoi` accepts a sign, so that an index may be negative here.
  | some rest => if rest = "" then none else Strings.atoi rest

/-- The video4linux entry `name` with the index `index`. -/
def v4lNode (t : Tree) (cfg : Config) (classDir name : String) (index : Int64) : V4lNode :=
  let classPath := Filepath.join [classDir, name]
  let devicePath := Filepath.join [classPath, "device"]
  -- Three places name the driver, and the first that does decides.
  let driver := ueventDriver t classPath
  let driver := if driver = "" then ueventDriver t devicePath else driver
  let driver := if driver = "" then driverSymlink t devicePath else driver
  let devNode := Filepath.join [cfg.devRoot, name]
  -- A node that udev has not created yet is advertised under `/dev`.
  let devNode := if !pathExists t devNode then Filepath.join ["/dev", name] else devNode
  { index := index
    driver := driver
    cardName := readTrimmed t (Filepath.join [classPath, "name"])
    compatible := readCompatible t devicePath
    deviceNode := devNode }

/-- Every `videoN` entry of sysfs, in the order of the directory. -/
def discoverV4L (t : Tree) (cfg : Config) : List V4lNode :=
  let classDir := Filepath.join [cfg.sysfsRoot, "class", "video4linux"]
  match t.readDir classDir with
  | none => []
  | some entries =>
    entries.filterMap fun name => (videoIndex name).map (v4lNode t cfg classDir name)

/-- The block and the function of a video4linux node, none for nodes that are not a VPU. The more
specific Hantro strings come first. -/
def classifyVPU (n : V4lNode) : Option (String × String) :=
  let compat := Strings.toLower n.compatible
  let card := Strings.toLower n.cardName
  if n.driver = Consts.kmdRkvdec then some (Consts.blockRkvdec, Consts.functionDecode)
  else if n.driver = Consts.kmdHantro then
    if Strings.contains compat "av1" || Strings.contains card "av1" then
      some (Consts.blockHantroAV1, Consts.functionDecode)
    else if Strings.contains compat "vepu" || Strings.contains card "vepu" then
      some (Consts.blockHantroEnc, Consts.functionEncode)
    else if Strings.contains compat "vpu121" || Strings.contains card "vpu-dec" then
      some (Consts.blockHantroDec, Consts.functionDecode)
    else none
  else none

/-- A video4linux node with its block and function. -/
structure VpuMatch where
  node : V4lNode
  block : String
  function : String
  deriving DecidableEq

/-- The nodes of a list that are VPUs. -/
def vpuMatches (nodes : List V4lNode) : List VpuMatch :=
  nodes.filterMap fun n => (classifyVPU n).map fun c => ⟨n, c.1, c.2⟩

/-- The order of VPU nodes: by block, then by index. The indices are subtracted as 64-bit
integers. -/
def compareVPU (a b : VpuMatch) : Int64 :=
  if a.block ≠ b.block then Slices.compareStrings a.block b.block else a.node.index - b.node.index

/-- The device of the `n`-th node of a block. -/
def vpuDevice (t : Tree) (soc : String) (maxAlloc : Int64) (m : VpuMatch) (n : ℕ) : Device :=
  applyNodeGID t
    { name := "vpu-" ++ m.block ++ "-" ++ toString n
      type := Consts.typeVPU
      soc := soc
      vendor := Consts.vendorRockchip
      model := m.node.compatible
      kmd := m.node.driver
      function := m.function
      block := m.block
      deviceNode := m.node.deviceNode
      maxAllocations := maxAlloc }

/-- The devices of sorted nodes, after `counts` nodes of each block. -/
def vpuDevices (t : Tree) (soc : String) (maxAlloc : Int64) :
    Std.ExtTreeMap String ℕ → List VpuMatch → List Device
  | _, [] => []
  | counts, m :: ms =>
    let n := counts.getD m.block 0
    vpuDevice t soc maxAlloc m n :: vpuDevices t soc maxAlloc (counts.insert m.block (n + 1)) ms

/-- The VPU devices. -/
def discoverVPU (t : Tree) (cfg : Config) (soc : String) : List Device :=
  let sorted := Slices.sortFunc compareVPU (vpuMatches (discoverV4L t cfg))
  let maxAlloc := cfg.vpuMaxAllocations
  let maxAlloc := if maxAlloc ≤ 0 then Consts.defaultVPUMaxAllocations else maxAlloc
  vpuDevices t soc maxAlloc ∅ sorted

/-- The device of the `i`-th RGA node. -/
def rgaDevice (t : Tree) (soc : String) (maxAlloc : Int64) (n : V4lNode) (i : ℕ) : Device :=
  applyNodeGID t
    { name := "rga-" ++ toString i
      type := Consts.typeRGA
      soc := soc
      vendor := Consts.vendorRockchip
      model := n.compatible
      kmd := n.driver
      deviceNode := n.deviceNode
      maxAllocations := maxAlloc }

/-- The RGA devices. -/
def discoverRGA (t : Tree) (cfg : Config) (soc : String) : List Device :=
  let nodes := (discoverV4L t cfg).filter fun n => n.driver = Consts.kmdRGA
  let nodes := Slices.sortFunc (fun a b => a.index - b.index) nodes
  let maxAlloc := cfg.rgaMaxAllocations
  let maxAlloc := if maxAlloc ≤ 0 then Consts.defaultRGAMaxAllocations else maxAlloc
  nodes.zipIdx.map fun p => rgaDevice t soc maxAlloc p.1 p.2

/-! ## Distinct nodes -/

/-- The device node of a video4linux entry has the entry's name as its base. -/
theorem base_v4lNode (t : Tree) (cfg : Config) (classDir : String) {name : String} (index : Int64)
    (h : Filepath.IsFileName name) :
    Filepath.base (v4lNode t cfg classDir name index).deviceNode = name := by
  have hdev := Filepath.base_join [cfg.devRoot] h
  have hdefault := Filepath.base_join ["/dev"] h
  simp only [List.singleton_append] at hdev hdefault
  simp only [v4lNode]
  split_ifs
  · exact hdefault
  · exact hdev

/-- An entry with an index starts with `video`. -/
theorem hasPrefix_of_videoIndex {name : String} {index : Int64} (h : videoIndex name = some index) :
    Strings.hasPrefix name "video" := by
  unfold videoIndex Strings.cutPrefix at h
  by_contra hp
  simp [hp] at h

/-- The bases of the device nodes of the video4linux entries are their names: all different, and
all starting with `video`. -/
theorem discoverV4L_bases (t : Tree) (cfg : Config) :
    ((discoverV4L t cfg).map fun n => Filepath.base n.deviceNode).Nodup ∧
      ∀ n ∈ discoverV4L t cfg, Strings.hasPrefix (Filepath.base n.deviceNode) "video" := by
  unfold discoverV4L
  simp only
  generalize hdir : Filepath.join [cfg.sysfsRoot, "class", "video4linux"] = classDir
  cases hread : t.readDir classDir with
  | none => simp
  | some entries =>
    have hnames := t.readDir_names classDir entries hread
    have hbase : ∀ name ∈ entries, ∀ n,
        (videoIndex name).map (v4lNode t cfg classDir name) = some n →
        Filepath.base n.deviceNode = name ∧ Strings.hasPrefix name "video" := by
      intro name hname n hn
      obtain ⟨index, hindex, rfl⟩ := Option.map_eq_some_iff.mp hn
      exact ⟨base_v4lNode t cfg classDir index (hnames name hname), hasPrefix_of_videoIndex hindex⟩
    constructor
    · -- The bases are the names of the entries that have an index, in order.
      have hsub : (entries.filterMap fun name =>
          (videoIndex name).map (v4lNode t cfg classDir name)).map
            (fun n => Filepath.base n.deviceNode)
          = entries.filter fun name => (videoIndex name).isSome := by
        rw [List.map_filterMap, ← List.filterMap_eq_filter]
        apply List.filterMap_congr
        intro name hname
        cases hindex : videoIndex name with
        | none => simp [Option.guard, hindex]
        | some index =>
          simp [Option.guard, hindex, base_v4lNode t cfg classDir index (hnames name hname)]
      simp only
      rw [hsub]
      exact ((t.readDir_sorted classDir entries hread).imp ne_of_lt).filter _
    · intro n hn
      obtain ⟨name, hname, hn⟩ := List.mem_filterMap.mp hn
      obtain ⟨hb, hp⟩ := hbase name hname n hn
      rw [hb]
      exact hp

/-- The video4linux entries have different device nodes. -/
theorem discoverV4L_nodup (t : Tree) (cfg : Config) :
    ((discoverV4L t cfg).map V4lNode.deviceNode).Nodup := by
  apply List.Nodup.of_map Filepath.base
  rw [List.map_map]
  exact (discoverV4L_bases t cfg).1

/-- The devices of sorted nodes have the device nodes of these, in order. -/
theorem vpuDevices_nodes (t : Tree) (soc : String) (maxAlloc : Int64) (ms : List VpuMatch)
    (counts : Std.ExtTreeMap String ℕ) :
    (vpuDevices t soc maxAlloc counts ms).map Device.deviceNode = ms.map (·.node.deviceNode) := by
  induction ms generalizing counts with
  | nil => rfl
  | cons m ms ih => simp [vpuDevices, vpuDevice, ih]

/-- The nodes of the matches. -/
theorem map_node_vpuMatches (nodes : List V4lNode) :
    (vpuMatches nodes).map VpuMatch.node = nodes.filter fun n => (classifyVPU n).isSome := by
  unfold vpuMatches
  induction nodes with
  | nil => rfl
  | cons n nodes ih => cases hc : classifyVPU n <;> simp [hc, ih]

/-- The VPU devices have the device nodes of the video4linux entries that are VPUs. -/
theorem discoverVPU_nodes (t : Tree) (cfg : Config) (soc : String) :
    ((discoverVPU t cfg soc).map Device.deviceNode).Perm
      (((discoverV4L t cfg).filter fun n => (classifyVPU n).isSome).map V4lNode.deviceNode) := by
  unfold discoverVPU
  rw [vpuDevices_nodes, ← map_node_vpuMatches, List.map_map]
  exact (Slices.sortFunc_perm _ _).map _

/-- The RGA devices have the device nodes of the video4linux entries of the RGA driver. -/
theorem discoverRGA_nodes (t : Tree) (cfg : Config) (soc : String) :
    ((discoverRGA t cfg soc).map Device.deviceNode).Perm
      (((discoverV4L t cfg).filter fun n => n.driver = Consts.kmdRGA).map V4lNode.deviceNode) := by
  have hzip : ∀ (nodes : List V4lNode) (maxAlloc : Int64),
      (nodes.zipIdx.map fun p => rgaDevice t soc maxAlloc p.1 p.2).map Device.deviceNode
        = nodes.map V4lNode.deviceNode := by
    intro nodes maxAlloc
    -- The positions do not enter the device node.
    have hfst :
        nodes.map V4lNode.deviceNode = (nodes.zipIdx.map Prod.fst).map V4lNode.deviceNode := by
      rw [List.zipIdx_map_fst]
    rw [hfst, List.map_map, List.map_map]
    simp only [Function.comp_def, rgaDevice, applyNodeGID_deviceNode]
  unfold discoverRGA
  rw [hzip]
  exact (Slices.sortFunc_perm _ _).map _

/-- A node of the RGA driver is not a VPU. -/
theorem classifyVPU_of_rga {n : V4lNode} (h : n.driver = Consts.kmdRGA) : classifyVPU n = none := by
  have h1 : n.driver ≠ Consts.kmdRkvdec := by rw [h]; decide
  have h2 : n.driver ≠ Consts.kmdHantro := by rw [h]; decide
  simp [classifyVPU, h1, h2]

/-- All VPU and RGA devices together have different device nodes, whose bases start with
`video`. -/
theorem video_nodes (t : Tree) (cfg : Config) (soc soc' : String) :
    ((discoverVPU t cfg soc ++ discoverRGA t cfg soc').map Device.deviceNode).Nodup ∧
      ∀ d ∈ discoverVPU t cfg soc ++ discoverRGA t cfg soc',
        Strings.hasPrefix (Filepath.base d.deviceNode) "video" := by
  have hnodup := discoverV4L_nodup t cfg
  have hvpu := discoverVPU_nodes t cfg soc
  have hrga := discoverRGA_nodes t cfg soc'
  -- Both kinds of devices are on nodes of the entries, which are all different.
  have hsub : ∀ p : V4lNode → Bool,
      (((discoverV4L t cfg).filter p).map V4lNode.deviceNode).Sublist
        ((discoverV4L t cfg).map V4lNode.deviceNode) :=
    fun p => List.filter_sublist.map _
  constructor
  · rw [List.map_append, List.nodup_append]
    refine ⟨hvpu.nodup_iff.mpr (hnodup.sublist (hsub _)),
      hrga.nodup_iff.mpr (hnodup.sublist (hsub _)), ?_⟩
    intro x hx y hy hxy
    subst hxy
    -- A node on both sides would be one entry, of two drivers.
    obtain ⟨n, hn, rfl⟩ := List.mem_map.mp (hvpu.mem_iff.mp hx)
    obtain ⟨n', hn', hnode⟩ := List.mem_map.mp (hrga.mem_iff.mp hy)
    obtain ⟨hmem, hclass⟩ := List.mem_filter.mp hn
    obtain ⟨hmem', hdriver⟩ := List.mem_filter.mp hn'
    have heq : n' = n := List.inj_on_of_nodup_map hnodup hmem' hmem hnode
    rw [heq] at hdriver
    rw [classifyVPU_of_rga (by simpa using hdriver)] at hclass
    simp at hclass
  · intro d hd
    have hmem : d.deviceNode ∈ (discoverV4L t cfg).map V4lNode.deviceNode := by
      rcases List.mem_append.mp hd with hd | hd
      · exact (hsub _).subset (hvpu.mem_iff.mp (List.mem_map_of_mem hd))
      · exact (hsub _).subset (hrga.mem_iff.mp (List.mem_map_of_mem hd))
    obtain ⟨n, hn, hnode⟩ := List.mem_map.mp hmem
    rw [← hnode]
    exact (discoverV4L_bases t cfg).2 n hn

end RockchipDra.Discovery
