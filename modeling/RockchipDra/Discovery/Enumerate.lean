import RockchipDra.Discovery.Video

/-!
# The NPU, the GPU, and the whole enumeration

`Enumerate` of `internal/discovery/discovery.go` returns the devices of every enabled type, in mock
mode a fixed device of each. `enumerate_nodes_nodup` shows that the devices of one enumeration have
different device nodes: the bases of the nodes tell the types apart, and within a type they are the
names of different directory entries.
-/

namespace RockchipDra.Discovery

open Go

/-! ## NPU -/

/-- The number of NPU cores: the platform devices bound to the rocket driver. -/
def countRocketCores (t : Tree) (sysfsRoot : String) : Int64 :=
  match t.readDir (Filepath.join [sysfsRoot, "bus", "platform", "drivers", "rocket"]) with
  | none => 0
  | some entries =>
    entries.foldl (fun n name =>
      if name = "bind" || name = "unbind" || name = "uevent" || Strings.hasPrefix name "module"
        then n
      else n + 1) 0

/-- Whether an accel class entry belongs to the rocket driver. -/
def isRocketAccel (t : Tree) (classPath : String) : Bool :=
  if ueventDriver t classPath = Consts.kmdRocket then true
  else
    let device := Filepath.join [classPath, "device"]
    if ueventDriver t device = Consts.kmdRocket then true
    else Strings.contains (Strings.toLower (ueventValue t device "MODALIAS")) "rknn"

/-- The char device of an accel class entry. It is advertised before udev creates it. -/
def accelNode (t : Tree) (cfg : Config) (name : String) : String :=
  let devNode := Filepath.join [cfg.devRoot, "accel", name]
  if !pathExists t devNode then Filepath.join ["/dev/accel", name] else devNode

/-- The first accel entry of the rocket driver, or the first accel entry at all. -/
def rocketAccelLoop (t : Tree) (cfg : Config) (accelDir : String) : String → List String → String
  | fallback, [] => if fallback ≠ "" then fallback else "/dev/accel/accel0"
  | fallback, name :: rest =>
    if !Strings.hasPrefix name "accel" then rocketAccelLoop t cfg accelDir fallback rest
    else
      let devNode := accelNode t cfg name
      let fallback := if fallback = "" then devNode else fallback
      -- An entry of the driver ends the search, even after a fallback was taken.
      if isRocketAccel t (Filepath.join [accelDir, name]) then devNode
      else rocketAccelLoop t cfg accelDir fallback rest

/-- The DRM accel char device of the rocket driver. -/
def rocketAccelNode (t : Tree) (cfg : Config) : String :=
  let accelDir := Filepath.join [cfg.sysfsRoot, "class", "accel"]
  match t.readDir accelDir with
  | none => "/dev/accel/accel0"
  | some entries => rocketAccelLoop t cfg accelDir "" entries

/-- The NPU, where a core is bound. -/
def discoverNPU (t : Tree) (cfg : Config) (soc : String) : List Device :=
  let cores := countRocketCores t cfg.sysfsRoot
  if cores = 0 then []
  else
    let devNode := rocketAccelNode t cfg
    let maxAlloc := cfg.npuMaxAllocations
    let maxAlloc := if maxAlloc ≤ 0 then defaultNPUMaxAllocations soc cores else maxAlloc
    [applyNodeGID t
      { name := "npu-0"
        type := Consts.typeNPU
        soc := soc
        vendor := Consts.vendorRockchip
        model := "rknn"
        kmd := Consts.kmdRocket
        coreCount := cores
        deviceNode := devNode
        maxAllocations := maxAlloc }]

/-! ## GPU -/

/-- The char device of a render node of the panthor driver, none for other DRM entries. -/
def panthorNode (t : Tree) (cfg : Config) (drmDir name : String) : Option String :=
  if !Strings.hasPrefix name "renderD" then none
  else
    let classPath := Filepath.join [drmDir, name]
    let driver := ueventDriver t classPath
    let driver :=
      if driver = "" then ueventDriver t (Filepath.join [classPath, "device"]) else driver
    if driver ≠ Consts.kmdPanthor then none
    else
      let devNode := Filepath.join [cfg.devRoot, "dri", name]
      some (if !pathExists t devNode then Filepath.join ["/dev/dri", name] else devNode)

/-- The model and the shader cores of the GPU of a SoC. -/
def gpuModelForSoC (soc : String) : String × Int64 :=
  if soc = "rk3588" ∨ soc = "rk3588s" then ("Mali-G610", 4) else ("Mali", 0)

/-- The GPU, where a render node of the panthor driver exists. -/
def discoverGPU (t : Tree) (cfg : Config) (soc : String) : List Device :=
  let drmDir := Filepath.join [cfg.sysfsRoot, "class", "drm"]
  match t.readDir drmDir with
  | none => []
  | some entries =>
    -- The loop stops at the first render node of the driver.
    let renderNode := (entries.findSome? (panthorNode t cfg drmDir)).getD ""
    if renderNode = "" then []
    else
      let maxAlloc := cfg.gpuMaxAllocations
      let maxAlloc := if maxAlloc ≤ 0 then defaultGPUMaxAllocations else maxAlloc
      [applyNodeGID t
        { name := "gpu-0"
          type := Consts.typeGPU
          soc := soc
          vendor := Consts.vendorARM
          model := (gpuModelForSoC soc).1
          kmd := Consts.kmdPanthor
          shaderCores := (gpuModelForSoC soc).2
          deviceNode := renderNode
          maxAllocations := maxAlloc }]

/-! ## Everything -/

/-- The synthetic devices of mock mode, one of each enabled type. -/
def mockDevices (cfg : Config) : List Device :=
  let soc := "rk3588"
  let npu : List Device :=
    if cfg.npuEnabled then
      let maxAlloc := cfg.npuMaxAllocations
      let maxAlloc := if maxAlloc ≤ 0 then defaultNPUMaxAllocations soc 3 else maxAlloc
      [{ name := "npu-0", type := Consts.typeNPU, soc := soc, vendor := Consts.vendorRockchip,
         model := "rknn", kmd := Consts.kmdRocket, coreCount := 3,
         deviceNode := "/dev/accel/accel0", maxAllocations := maxAlloc }]
    else []
  let gpu : List Device :=
    if cfg.gpuEnabled then
      let maxAlloc := cfg.gpuMaxAllocations
      let maxAlloc := if maxAlloc ≤ 0 then defaultGPUMaxAllocations else maxAlloc
      [{ name := "gpu-0", type := Consts.typeGPU, soc := soc, vendor := Consts.vendorARM,
         model := "Mali-G610", kmd := Consts.kmdPanthor, shaderCores := 4,
         deviceNode := "/dev/dri/renderD128", maxAllocations := maxAlloc }]
    else []
  let vpu : List Device :=
    if cfg.vpuEnabled then
      let maxAlloc := cfg.vpuMaxAllocations
      let maxAlloc := if maxAlloc ≤ 0 then Consts.defaultVPUMaxAllocations else maxAlloc
      [{ name := "vpu-rkvdec-0", type := Consts.typeVPU, soc := soc,
         vendor := Consts.vendorRockchip, model := "rockchip,rk3588-vdec", kmd := Consts.kmdRkvdec,
         function := Consts.functionDecode, block := Consts.blockRkvdec,
         deviceNode := "/dev/video2", maxAllocations := maxAlloc }]
    else []
  let rga : List Device :=
    if cfg.rgaEnabled then
      let maxAlloc := cfg.rgaMaxAllocations
      let maxAlloc := if maxAlloc ≤ 0 then Consts.defaultRGAMaxAllocations else maxAlloc
      [{ name := "rga-0", type := Consts.typeRGA, soc := soc, vendor := Consts.vendorRockchip,
         model := "rockchip,rk3588-rga", kmd := Consts.kmdRGA, deviceNode := "/dev/video0",
         maxAllocations := maxAlloc }]
    else []
  npu ++ gpu ++ vpu ++ rga

/-- The accelerators visible on the node. The source returns no error on any path. -/
def enumerate (t : Tree) (cfg : Config) : List Device :=
  let cfg := defaultConfig cfg
  -- Mock devices do not depend on the tree.
  if cfg.mock then mockDevices cfg
  else
    let soc := detectSoC t cfg.sysfsRoot
    (if cfg.npuEnabled then discoverNPU t cfg soc else []) ++
      (if cfg.gpuEnabled then discoverGPU t cfg soc else []) ++
      (if cfg.vpuEnabled then discoverVPU t cfg soc else []) ++
      (if cfg.rgaEnabled then discoverRGA t cfg soc else [])

/-! ## Distinct nodes -/

/-- What is enumerated where it is enabled. -/
theorem sublist_ite (b : Bool) (l : List Device) : (if b then l else []).Sublist l := by
  cases b <;> simp

/-- Devices with different device nodes, the base of each starting with `p`. -/
def OnNodes (p : String) (l : List Device) : Prop :=
  (l.map Device.deviceNode).Nodup ∧ ∀ d ∈ l, Strings.hasPrefix (Filepath.base d.deviceNode) p

/-- Some of such devices. -/
theorem OnNodes.sublist {p : String} {l l' : List Device} (h : OnNodes p l) (hsub : l'.Sublist l) :
    OnNodes p l' :=
  ⟨h.1.sublist (hsub.map _), fun d hd => h.2 d (hsub.subset hd)⟩

/-- The char device of an accel class entry has the entry's name as its base. -/
theorem base_accelNode (t : Tree) (cfg : Config) {name : String} (h : Filepath.IsFileName name) :
    Filepath.base (accelNode t cfg name) = name := by
  have hdev := Filepath.base_join [cfg.devRoot, "accel"] h
  have hdefault := Filepath.base_join ["/dev/accel"] h
  simp only [List.cons_append, List.nil_append] at hdev hdefault
  simp only [accelNode]
  split_ifs
  · exact hdefault
  · exact hdev

/-- The search for the NPU's node ends at an accel node. -/
theorem rocketAccelLoop_base (t : Tree) (cfg : Config) (accelDir fallback : String)
    (entries : List String) (hnames : ∀ n ∈ entries, Filepath.IsFileName n)
    (hfallback : fallback = "" ∨ Strings.hasPrefix (Filepath.base fallback) "accel") :
    Strings.hasPrefix
      (Filepath.base (rocketAccelLoop t cfg accelDir fallback entries)) "accel" := by
  -- The fallback is empty or an accel node throughout the loop.
  induction entries generalizing fallback with
  | nil =>
    unfold rocketAccelLoop
    rcases hfallback with rfl | h
    · decide
    · split_ifs
      · exact h
      · decide
  | cons name rest ih =>
    have hrest : ∀ n ∈ rest, Filepath.IsFileName n := fun n hn => hnames n (by simp [hn])
    have hbase := base_accelNode t cfg (hnames name (by simp))
    unfold rocketAccelLoop
    by_cases hp : Strings.hasPrefix name "accel"
    · have hnode : Strings.hasPrefix (Filepath.base (accelNode t cfg name)) "accel" := by
        rw [hbase]; exact hp
      have hnext : (if fallback = "" then accelNode t cfg name else fallback) = "" ∨
          Strings.hasPrefix
            (Filepath.base (if fallback = "" then accelNode t cfg name else fallback))
            "accel" := by
        split_ifs with h
        · exact .inr hnode
        · exact hfallback
      simp only [hp, Bool.not_true, Bool.false_eq_true, if_false]
      cases isRocketAccel t (Filepath.join [accelDir, name]) with
      | true => exact hnode
      | false => exact ih _ hrest hnext
    · simp only [hp, Bool.not_false, if_true]
      exact ih _ hrest hfallback

/-- The NPU is at most one device, on an accel node. -/
theorem discoverNPU_nodes (t : Tree) (cfg : Config) (soc : String) :
    OnNodes "accel" (discoverNPU t cfg soc) := by
  have hnode : Strings.hasPrefix (Filepath.base (rocketAccelNode t cfg)) "accel" := by
    unfold rocketAccelNode
    simp only
    split
    · decide
    · rename_i entries hread
      exact rocketAccelLoop_base t cfg _ "" entries (t.readDir_names _ _ hread) (.inl rfl)
  unfold discoverNPU
  by_cases h : countRocketCores t cfg.sysfsRoot = 0
  · simp [h, OnNodes]
  · simp [h, OnNodes, hnode]

/-- A render node has a base that starts with `renderD`. -/
theorem base_panthorNode (t : Tree) (cfg : Config) (drmDir : String) {name node : String}
    (h : Filepath.IsFileName name) (hnode : panthorNode t cfg drmDir name = some node) :
    Strings.hasPrefix (Filepath.base node) "renderD" := by
  have hdev := Filepath.base_join [cfg.devRoot, "dri"] h
  have hdefault := Filepath.base_join ["/dev/dri"] h
  simp only [List.cons_append, List.nil_append] at hdev hdefault
  unfold panthorNode at hnode
  by_cases hp : Strings.hasPrefix name "renderD"
  · simp only [hp, Bool.not_true, Bool.false_eq_true, if_false, ite_not] at hnode
    generalize hexists : pathExists t (Filepath.join [cfg.devRoot, "dri", name]) = e at hnode
    split_ifs at hnode <;> simp at hnode <;> subst hnode
    all_goals cases e <;> simp [hdev, hdefault, hp]
  · simp [hp] at hnode

/-- The GPU is at most one device, on a render node. -/
theorem discoverGPU_nodes (t : Tree) (cfg : Config) (soc : String) :
    OnNodes "renderD" (discoverGPU t cfg soc) := by
  unfold discoverGPU
  simp only
  split
  · simp [OnNodes]
  · rename_i entries hread
    cases hfind : entries.findSome?
        (panthorNode t cfg (Filepath.join [cfg.sysfsRoot, "class", "drm"])) with
    | none => simp [OnNodes]
    | some node =>
      obtain ⟨name, hname, hnode⟩ := List.exists_of_findSome?_eq_some hfind
      have hbase := base_panthorNode t cfg _ (t.readDir_names _ _ hread name hname) hnode
      by_cases h : node = ""
      · simp [OnNodes, h]
      · simp [OnNodes, h, hbase]

/-- A base cannot start with two texts that differ in their first letter. -/
theorem not_hasPrefix_both {s p q : String} (h : Strings.hasPrefix s p) (hp : p.toList.head?.isSome)
    (hpq : p.toList.head? ≠ q.toList.head?)
    (hq : q.toList.head?.isSome) : ¬ Strings.hasPrefix s q := by
  intro h'
  obtain ⟨l, hl⟩ := List.isPrefixOf_iff_prefix.mp h
  obtain ⟨l', hl'⟩ := List.isPrefixOf_iff_prefix.mp h'
  -- Either text gives the first letter of `s`.
  have e1 : s.toList.head? = p.toList.head? := by
    rw [← hl, List.head?_append, Option.or_of_isSome hp]
  have e2 : s.toList.head? = q.toList.head? := by
    rw [← hl', List.head?_append, Option.or_of_isSome hq]
  exact hpq (e1.symm.trans e2)

/-- Devices on nodes of two kinds have different nodes. -/
theorem OnNodes.ne {p q : String} {l₁ l₂ : List Device} (h₁ : OnNodes p l₁) (h₂ : OnNodes q l₂)
    (hp : p.toList.head?.isSome) (hpq : p.toList.head? ≠ q.toList.head?)
    (hq : q.toList.head?.isSome) :
    ∀ x ∈ l₁.map Device.deviceNode, ∀ y ∈ l₂.map Device.deviceNode, x ≠ y := by
  intro x hx y hy hxy
  obtain ⟨d, hd, rfl⟩ := List.mem_map.mp hx
  obtain ⟨d', hd', rfl⟩ := List.mem_map.mp hy
  have hpre := h₂.2 d' hd'
  rw [← hxy] at hpre
  exact not_hasPrefix_both (h₁.2 d hd) hp hpq hq hpre

/-- The mock devices have different device nodes. -/
theorem mockDevices_nodes_nodup (cfg : Config) :
    ((mockDevices cfg).map Device.deviceNode).Nodup := by
  unfold mockDevices
  cases cfg.npuEnabled <;> cases cfg.gpuEnabled <;> cases cfg.vpuEnabled <;>
    cases cfg.rgaEnabled <;> simp

/-- The devices of one enumeration have different device nodes. -/
theorem enumerate_nodes_nodup (t : Tree) (cfg : Config) :
    ((enumerate t cfg).map Device.deviceNode).Nodup := by
  unfold enumerate
  generalize defaultConfig cfg = c
  simp only
  split
  · exact mockDevices_nodes_nodup c
  · have hnpu :=
      (discoverNPU_nodes t c (detectSoC t c.sysfsRoot)).sublist (sublist_ite c.npuEnabled _)
    have hgpu :=
      (discoverGPU_nodes t c (detectSoC t c.sysfsRoot)).sublist (sublist_ite c.gpuEnabled _)
    have hvideo : OnNodes "video" _ :=
      (video_nodes t c (detectSoC t c.sysfsRoot) (detectSoC t c.sysfsRoot))
    have hvideo := hvideo.sublist ((sublist_ite c.vpuEnabled _).append (sublist_ite c.rgaEnabled _))
    -- The three kinds of nodes differ in the first letters of their bases: `a`, `r`, and `v`.
    rw [List.append_assoc, List.append_assoc, List.map_append, List.nodup_append, List.map_append,
      List.nodup_append]
    refine ⟨hnpu.1, ⟨hgpu.1, hvideo.1, ?_⟩, ?_⟩
    · exact hgpu.ne hvideo (by decide) (by decide) (by decide)
    · intro x hx y hy
      rcases List.mem_append.mp hy with hy | hy
      · exact hnpu.ne hgpu (by decide) (by decide) (by decide) x hx y hy
      · exact hnpu.ne hvideo (by decide) (by decide) (by decide) x hx y hy

/-! ## Names -/

/-- The blocks of the VPU. -/
def vpuBlocks : List String :=
  [Consts.blockRkvdec, Consts.blockHantroDec, Consts.blockHantroEnc, Consts.blockHantroAV1]

/-- The name of a device fits its type and its block. -/
inductive Device.Labeled (d : Device) : Prop
  | npu (name : d.name = "npu-0") (type : d.type = Consts.typeNPU) (block : d.block = "")
  | gpu (name : d.name = "gpu-0") (type : d.type = Consts.typeGPU) (block : d.block = "")
  | rga (n : ℕ) (name : d.name = "rga-" ++ toString n) (type : d.type = Consts.typeRGA)
      (block : d.block = "")
  | vpu (n : ℕ) (name : d.name = "vpu-" ++ d.block ++ "-" ++ toString n)
      (type : d.type = Consts.typeVPU) (block : d.block ∈ vpuBlocks)

/-- A classified node has one of the blocks. -/
theorem classifyVPU_block {n : V4lNode} {c : String × String} (h : classifyVPU n = some c) :
    c.1 ∈ vpuBlocks := by
  unfold classifyVPU at h
  dsimp only at h
  split_ifs at h
  all_goals
    obtain rfl := Option.some.inj h
    decide

/-- A match has the block and the function of its node. -/
theorem classifyVPU_of_mem {nodes : List V4lNode} {m : VpuMatch} (h : m ∈ vpuMatches nodes) :
    m.node ∈ nodes ∧ classifyVPU m.node = some (m.block, m.function) := by
  obtain ⟨n, hn, h⟩ := List.mem_filterMap.mp h
  obtain ⟨c, hc, rfl⟩ := Option.map_eq_some_iff.mp h
  exact ⟨hn, hc⟩

/-- The devices of nodes have ordinals from the counts on. -/
theorem mem_vpuDevices {t : Tree} {soc : String} {maxAlloc : Int64}
    {counts : Std.ExtTreeMap String ℕ} {ms : List VpuMatch} {d : Device}
    (hd : d ∈ vpuDevices t soc maxAlloc counts ms) :
    ∃ m ∈ ms, ∃ n, counts.getD m.block 0 ≤ n ∧ d = vpuDevice t soc maxAlloc m n := by
  induction ms generalizing counts with
  | nil => cases hd
  | cons m ms ih =>
    rcases List.mem_cons.mp hd with rfl | hd
    · exact ⟨m, List.mem_cons_self, _, le_rfl, rfl⟩
    -- The count of a block never decreases.
    · obtain ⟨m', hm', n, hn, rfl⟩ := ih hd
      refine ⟨m', List.mem_cons_of_mem _ hm', n, le_trans ?_ hn, rfl⟩
      rw [Std.ExtTreeMap.getD_insert]
      split_ifs with h
      · rw [compare_eq_iff_eq] at h
        rw [h]
        exact Nat.le_succ _
      · exact le_rfl

section Parts

variable (t : Tree) (cfg : Config) (soc : String)

theorem discoverNPU_labeled : ∀ d ∈ discoverNPU t cfg soc,
    d.Labeled ∧ d.type = Consts.typeNPU ∧ d.soc = soc := by
  intro d hd
  unfold discoverNPU at hd
  dsimp only at hd
  split_ifs at hd
  · cases hd
  all_goals
    rw [List.mem_singleton.mp hd]
    exact ⟨.npu (by simp) (by simp) (by simp), by simp, by simp⟩

theorem discoverGPU_labeled : ∀ d ∈ discoverGPU t cfg soc,
    d.Labeled ∧ d.type = Consts.typeGPU ∧ d.soc = soc := by
  intro d hd
  unfold discoverGPU at hd
  dsimp only at hd
  split at hd
  · cases hd
  split_ifs at hd
  · cases hd
  all_goals
    rw [List.mem_singleton.mp hd]
    exact ⟨.gpu (by simp) (by simp) (by simp), by simp, by simp⟩

theorem discoverVPU_labeled : ∀ d ∈ discoverVPU t cfg soc,
    d.Labeled ∧ d.type = Consts.typeVPU ∧ d.soc = soc := by
  intro d hd
  obtain ⟨m, hm, n, -, rfl⟩ := mem_vpuDevices hd
  rw [(Slices.sortFunc_perm _ _).mem_iff] at hm
  have hblock : m.block ∈ vpuBlocks := classifyVPU_block (classifyVPU_of_mem hm).2
  exact ⟨.vpu n (by simp [vpuDevice]) (by simp [vpuDevice]) (by simpa [vpuDevice] using hblock),
    by simp [vpuDevice], by simp [vpuDevice]⟩

theorem discoverRGA_labeled : ∀ d ∈ discoverRGA t cfg soc,
    d.Labeled ∧ d.type = Consts.typeRGA ∧ d.soc = soc := by
  intro d hd
  obtain ⟨p, -, rfl⟩ := List.mem_map.mp hd
  exact ⟨.rga p.2 (by simp [rgaDevice]) (by simp [rgaDevice]) (by simp [rgaDevice]),
    by simp [rgaDevice], by simp [rgaDevice]⟩

theorem mockDevices_labeled : ∀ d ∈ mockDevices cfg, d.Labeled ∧ d.soc = "rk3588" := by
  intro d hd
  unfold mockDevices at hd
  simp only [List.mem_append] at hd
  rcases hd with ((hd | hd) | hd) | hd
  · rw [List.mem_singleton.mp ((sublist_ite _ _).subset hd)]
    exact ⟨.npu rfl rfl rfl, rfl⟩
  · rw [List.mem_singleton.mp ((sublist_ite _ _).subset hd)]
    exact ⟨.gpu rfl rfl rfl, rfl⟩
  · rw [List.mem_singleton.mp ((sublist_ite _ _).subset hd)]
    have hname : "vpu-rkvdec-0" = "vpu-" ++ Consts.blockRkvdec ++ "-" ++ toString 0 := by decide
    have hblock : Consts.blockRkvdec ∈ vpuBlocks := by decide
    exact ⟨.vpu 0 hname rfl hblock, rfl⟩
  · rw [List.mem_singleton.mp ((sublist_ite _ _).subset hd)]
    have hname : "rga-0" = "rga-" ++ toString 0 := by decide
    exact ⟨.rga 0 hname rfl rfl, rfl⟩

end Parts

/-- The SoC that an enumeration reports. -/
def enumeratedSoC (t : Tree) (cfg : Config) : String :=
  if (defaultConfig cfg).mock then "rk3588" else detectSoC t (defaultConfig cfg).sysfsRoot

/-- The names of enumerated devices fit their types and blocks, and all devices have one SoC. -/
theorem enumerate_labeled (t : Tree) (cfg : Config) :
    ∀ d ∈ enumerate t cfg, d.Labeled ∧ d.soc = enumeratedSoC t cfg := by
  intro d hd
  unfold enumeratedSoC
  unfold enumerate at hd
  generalize defaultConfig cfg = c at hd ⊢
  dsimp only at hd
  cases hmock : c.mock with
  | true =>
    rw [hmock] at hd
    exact mockDevices_labeled c d hd
  | false =>
    rw [hmock] at hd
    simp only [Bool.false_eq_true, if_false, List.mem_append] at hd ⊢
    rcases hd with ((hd | hd) | hd) | hd
    · have h := discoverNPU_labeled t c _ d ((sublist_ite _ _).subset hd)
      exact ⟨h.1, h.2.2⟩
    · have h := discoverGPU_labeled t c _ d ((sublist_ite _ _).subset hd)
      exact ⟨h.1, h.2.2⟩
    · have h := discoverVPU_labeled t c _ d ((sublist_ite _ _).subset hd)
      exact ⟨h.1, h.2.2⟩
    · have h := discoverRGA_labeled t c _ d ((sublist_ite _ _).subset hd)
      exact ⟨h.1, h.2.2⟩

/-- Every enumerated device has a name. -/
theorem enumerate_name_ne (t : Tree) (cfg : Config) : ∀ d ∈ enumerate t cfg, d.name ≠ "" := by
  intro d hd
  cases (enumerate_labeled t cfg d hd).1 with
  | npu name => simp [name]
  | gpu name => simp [name]
  | rga n name => simp [name]
  | vpu n name => simp [name]

/-! ## Share caps -/

/-- A cap that is overridden where the flag is positive is positive if its default is. -/
theorem override_pos {dflt : Int64} (hdflt : 0 < dflt) (cap : Int64) :
    0 < if cap ≤ 0 then dflt else cap := by
  split_ifs with hcap
  · exact hdflt
  · exact Int64.not_le.mp hcap

theorem defaultNPUMaxAllocations_pos (soc : String) (coreCount : Int64) :
    0 < defaultNPUMaxAllocations soc coreCount := by
  unfold defaultNPUMaxAllocations
  -- A count that has overflown to a negative number is treated like an unknown one.
  split_ifs with hcores
  · exact hcores
  · decide
  · decide

section Parts

variable (t : Tree) (cfg : Config) (soc : String)

theorem discoverNPU_maxAllocations : ∀ d ∈ discoverNPU t cfg soc, 0 < d.maxAllocations := by
  intro d hd
  unfold discoverNPU at hd
  by_cases hcores : countRocketCores t cfg.sysfsRoot = 0
  · simp [hcores] at hd
  · simp only [hcores, if_false, List.mem_singleton] at hd
    rw [hd, applyNodeGID_maxAllocations]
    exact override_pos (defaultNPUMaxAllocations_pos _ _) _

theorem discoverGPU_maxAllocations : ∀ d ∈ discoverGPU t cfg soc, 0 < d.maxAllocations := by
  intro d hd
  unfold discoverGPU at hd
  dsimp only at hd
  split at hd
  · cases hd
  · split at hd
    · cases hd
    · rw [List.mem_singleton.mp hd, applyNodeGID_maxAllocations]
      exact override_pos (by decide) _

theorem discoverVPU_maxAllocations : ∀ d ∈ discoverVPU t cfg soc, 0 < d.maxAllocations := by
  intro d hd
  obtain ⟨m, -, n, -, rfl⟩ := mem_vpuDevices hd
  rw [vpuDevice, applyNodeGID_maxAllocations]
  exact override_pos (by decide) _

theorem discoverRGA_maxAllocations : ∀ d ∈ discoverRGA t cfg soc, 0 < d.maxAllocations := by
  intro d hd
  obtain ⟨p, -, rfl⟩ := List.mem_map.mp hd
  rw [rgaDevice, applyNodeGID_maxAllocations]
  exact override_pos (by decide) _

theorem mockDevices_maxAllocations : ∀ d ∈ mockDevices cfg, 0 < d.maxAllocations := by
  intro d hd
  unfold mockDevices at hd
  simp only [List.mem_append] at hd
  rcases hd with ((hd | hd) | hd) | hd
  all_goals rw [List.mem_singleton.mp ((sublist_ite _ _).subset hd)]
  · exact override_pos (defaultNPUMaxAllocations_pos _ _) _
  all_goals exact override_pos (by decide) _

end Parts

/-- Every enumerated device can be shared at least once, whatever the overrides. -/
theorem enumerate_maxAllocations (t : Tree) (cfg : Config) :
    ∀ d ∈ enumerate t cfg, 0 < d.maxAllocations := by
  intro d hd
  unfold enumerate at hd
  generalize defaultConfig cfg = c at hd
  dsimp only at hd
  split at hd
  · exact mockDevices_maxAllocations c d hd
  · simp only [List.mem_append] at hd
    rcases hd with ((hd | hd) | hd) | hd
    · exact discoverNPU_maxAllocations t c _ d ((sublist_ite _ _).subset hd)
    · exact discoverGPU_maxAllocations t c _ d ((sublist_ite _ _).subset hd)
    · exact discoverVPU_maxAllocations t c _ d ((sublist_ite _ _).subset hd)
    · exact discoverRGA_maxAllocations t c _ d ((sublist_ite _ _).subset hd)

end RockchipDra.Discovery
