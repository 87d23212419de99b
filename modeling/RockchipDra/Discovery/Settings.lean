import RockchipDra.Discovery.Enumerate

/-!
# What the flags change about an enumeration

A configuration has a switch and a share cap for each of the four types. `enumerate_settings` shows
that they act on the enumerated devices alone: an enumeration is the one with every type switched on
and no cap set, from which the types that are off are left out, and in which the caps that are set
replace those of the devices. So no flag renames a device, moves it to another node, or changes what
another type is found as.
-/

namespace RockchipDra.Discovery

open Go

/-- The same roots with every type switched on and no cap set. -/
def Config.everything (c : Config) : Config :=
  { sysfsRoot := c.sysfsRoot
    devRoot := c.devRoot
    mock := c.mock
    npuEnabled := true
    gpuEnabled := true
    vpuEnabled := true
    rgaEnabled := true }

/-- A type is switched on. -/
def Config.enables (c : Config) (type : String) : Bool :=
  if type = Consts.typeNPU then c.npuEnabled
  else if type = Consts.typeGPU then c.gpuEnabled
  else if type = Consts.typeVPU then c.vpuEnabled
  else if type = Consts.typeRGA then c.rgaEnabled
  else false

/-- The share cap that is set for a type. -/
def Config.maxAllocations (c : Config) (type : String) : Int64 :=
  if type = Consts.typeNPU then c.npuMaxAllocations
  else if type = Consts.typeGPU then c.gpuMaxAllocations
  else if type = Consts.typeVPU then c.vpuMaxAllocations
  else if type = Consts.typeRGA then c.rgaMaxAllocations
  else 0

/-- A device with a share cap, which is set where it is positive. -/
def Device.withCap (cap : Int64) (d : Device) : Device :=
  if cap ≤ 0 then d else { d with maxAllocations := cap }

@[simp] theorem Device.withCap_type (cap : Int64) (d : Device) : (d.withCap cap).type = d.type := by
  unfold Device.withCap
  split_ifs <;> rfl

@[simp] theorem Device.withCap_name (cap : Int64) (d : Device) : (d.withCap cap).name = d.name := by
  unfold Device.withCap
  split_ifs <;> rfl

/-- Recording the group of the node and setting the cap do not interfere. -/
theorem applyNodeGID_withCap (t : Tree) (cap : Int64) (d : Device) :
    applyNodeGID t (d.withCap cap) = (applyNodeGID t d).withCap cap := by
  unfold Device.withCap
  split_ifs
  · rfl
  · unfold applyNodeGID
    dsimp only
    cases nodeGID t d.deviceNode <;> rfl

/-- A cap of zero overrides nothing. -/
theorem override_zero (dflt : Int64) : (if (0 : Int64) ≤ 0 then dflt else 0) = dflt :=
  if_pos (by decide)

/-! ## The caps of each type -/

section Parts

variable (t : Tree) (c : Config) (soc : String)

theorem rocketAccelLoop_everything (accelDir fallback : String) (entries : List String) :
    rocketAccelLoop t c.everything accelDir fallback entries =
      rocketAccelLoop t c accelDir fallback entries := by
  induction entries generalizing fallback with
  | nil => rfl
  | cons name rest ih =>
    have hnode : accelNode t c.everything name = accelNode t c name := rfl
    unfold rocketAccelLoop
    simp only [hnode, ih]

theorem discoverNPU_everything : discoverNPU t c soc =
    (discoverNPU t c.everything soc).map (Device.withCap c.npuMaxAllocations) := by
  have hnode : rocketAccelNode t c.everything = rocketAccelNode t c := by
    unfold rocketAccelNode
    simp only [rocketAccelLoop_everything]
    rfl
  have hcores : countRocketCores t c.everything.sysfsRoot = countRocketCores t c.sysfsRoot := rfl
  unfold discoverNPU
  rw [hnode, hcores]
  dsimp only [Config.everything]
  rw [override_zero]
  split_ifs with hnone
  · rfl
  all_goals
    rw [List.map_singleton, ← applyNodeGID_withCap, Device.withCap]
    split_ifs
    rfl

theorem discoverGPU_everything : discoverGPU t c soc =
    (discoverGPU t c.everything soc).map (Device.withCap c.gpuMaxAllocations) := by
  have hnode : panthorNode t c.everything = panthorNode t c := rfl
  unfold discoverGPU
  rw [hnode]
  dsimp only [Config.everything]
  rw [override_zero]
  cases t.readDir (Filepath.join [c.sysfsRoot, "class", "drm"]) with
  | none => rfl
  | some entries =>
    dsimp only
    split_ifs with hnone hcap
    · rfl
    all_goals
      rw [List.map_singleton, ← applyNodeGID_withCap, Device.withCap]
      split_ifs
      rfl

theorem vpuDevices_withCap (maxAlloc cap : Int64) (counts : Std.ExtTreeMap String ℕ)
    (ms : List VpuMatch) :
    vpuDevices t soc (if cap ≤ 0 then maxAlloc else cap) counts ms =
      (vpuDevices t soc maxAlloc counts ms).map (Device.withCap cap) := by
  induction ms generalizing counts with
  | nil => rfl
  | cons m ms ih =>
    have hfirst : vpuDevice t soc (if cap ≤ 0 then maxAlloc else cap) m (counts.getD m.block 0) =
        (vpuDevice t soc maxAlloc m (counts.getD m.block 0)).withCap cap := by
      unfold vpuDevice
      rw [← applyNodeGID_withCap, Device.withCap]
      split_ifs <;> rfl
    rw [vpuDevices, vpuDevices, List.map_cons, hfirst, ih]

theorem discoverVPU_everything : discoverVPU t c soc =
    (discoverVPU t c.everything soc).map (Device.withCap c.vpuMaxAllocations) := by
  have hnodes : discoverV4L t c.everything = discoverV4L t c := rfl
  unfold discoverVPU
  rw [hnodes]
  dsimp only [Config.everything]
  rw [override_zero, vpuDevices_withCap]

theorem discoverRGA_everything : discoverRGA t c soc =
    (discoverRGA t c.everything soc).map (Device.withCap c.rgaMaxAllocations) := by
  have hnodes : discoverV4L t c.everything = discoverV4L t c := rfl
  unfold discoverRGA
  rw [hnodes]
  dsimp only [Config.everything]
  rw [override_zero, List.map_map]
  refine List.map_congr_left fun p _ => ?_
  unfold rgaDevice
  rw [Function.comp_apply, ← applyNodeGID_withCap, Device.withCap]
  split_ifs <;> rfl

end Parts

/-! ## All types together -/

/-- What the settings of a type do to devices of that type. -/
theorem settings_of_type (c : Config) {type : String} {l : List Device}
    (htype : ∀ d ∈ l, d.type = type) :
    (l.filter fun d => c.enables d.type).map (fun d => d.withCap (c.maxAllocations d.type)) =
      if c.enables type then l.map (Device.withCap (c.maxAllocations type)) else [] := by
  have hfilter : (l.filter fun d => c.enables d.type) = l.filter fun _ => c.enables type :=
    List.filter_congr fun d hd => by rw [htype d hd]
  rw [hfilter]
  cases c.enables type with
  | false => rw [List.filter_false]; rfl
  | true =>
    rw [List.filter_true, if_pos rfl]
    exact List.map_congr_left fun d hd => by rw [htype d hd]

/-- What the settings do to devices that are found type by type. -/
theorem settings_of_parts (c : Config) {npu gpu vpu rga : List Device}
    (hnpu : ∀ d ∈ npu, d.type = Consts.typeNPU) (hgpu : ∀ d ∈ gpu, d.type = Consts.typeGPU)
    (hvpu : ∀ d ∈ vpu, d.type = Consts.typeVPU) (hrga : ∀ d ∈ rga, d.type = Consts.typeRGA) :
    ((npu ++ gpu ++ vpu ++ rga).filter fun d => c.enables d.type).map
        (fun d => d.withCap (c.maxAllocations d.type)) =
      (if c.npuEnabled then npu.map (Device.withCap c.npuMaxAllocations) else []) ++
        (if c.gpuEnabled then gpu.map (Device.withCap c.gpuMaxAllocations) else []) ++
        (if c.vpuEnabled then vpu.map (Device.withCap c.vpuMaxAllocations) else []) ++
        (if c.rgaEnabled then rga.map (Device.withCap c.rgaMaxAllocations) else []) := by
  simp only [List.filter_append, List.map_append]
  rw [settings_of_type c hnpu, settings_of_type c hgpu, settings_of_type c hvpu,
    settings_of_type c hrga]
  rfl

/-- The defaults field by field. A type is switched on too where no other one is. -/
theorem defaultConfig_eq (c : Config) : defaultConfig c =
    { c with
      sysfsRoot := if c.sysfsRoot = "" then "/sys" else c.sysfsRoot
      devRoot := if c.devRoot = "" then "/dev" else c.devRoot
      npuEnabled := c.npuEnabled || !(c.gpuEnabled || c.vpuEnabled || c.rgaEnabled)
      gpuEnabled := c.gpuEnabled || !(c.npuEnabled || c.vpuEnabled || c.rgaEnabled)
      vpuEnabled := c.vpuEnabled || !(c.npuEnabled || c.gpuEnabled || c.rgaEnabled)
      rgaEnabled := c.rgaEnabled || !(c.npuEnabled || c.gpuEnabled || c.vpuEnabled) } := by
  obtain ⟨sysfsRoot, devRoot, mock, npu, gpu, vpu, rga, npuCap, gpuCap, vpuCap, rgaCap⟩ := c
  unfold defaultConfig
  by_cases hsysfs : sysfsRoot = "" <;> by_cases hdev : devRoot = "" <;> cases npu <;> cases gpu <;>
    cases vpu <;> cases rga <;> simp [hsysfs, hdev]

theorem defaultConfig_everything (c : Config) :
    defaultConfig c.everything = (defaultConfig c).everything := by
  rw [defaultConfig_eq, defaultConfig_eq]
  rfl

theorem defaultConfig_maxAllocations (c : Config) (type : String) :
    (defaultConfig c).maxAllocations type = c.maxAllocations type := by
  rw [defaultConfig_eq]
  rfl

/-- The synthetic devices under the settings. -/
theorem mockDevices_settings (c : Config) : mockDevices c =
    ((mockDevices c.everything).filter fun d => c.enables d.type).map
      fun d => d.withCap (c.maxAllocations d.type) := by
  unfold mockDevices
  dsimp only [Config.everything]
  simp only [override_zero, if_true]
  rw [settings_of_parts c (by simp) (by simp) (by simp) (by simp)]
  simp only [List.map_singleton, Device.withCap]
  refine congrArg₂ (· ++ ·) (congrArg₂ (· ++ ·) (congrArg₂ (· ++ ·) ?_ ?_) ?_) ?_
  all_goals split_ifs <;> rfl

/-- A type of device is enumerated only where it is switched on. -/
theorem enumerate_enables (t : Tree) (cfg : Config) :
    ∀ d ∈ enumerate t cfg, (defaultConfig cfg).enables d.type = true := by
  intro d hd
  unfold enumerate at hd
  generalize defaultConfig cfg = c at hd ⊢
  dsimp only at hd
  cases hmock : c.mock with
  | true =>
    rw [hmock, if_pos rfl, mockDevices_settings] at hd
    obtain ⟨e, he, rfl⟩ := List.mem_map.mp hd
    simpa using (List.mem_filter.mp he).2
  | false =>
    rw [hmock, if_neg Bool.false_ne_true] at hd
    simp only [List.mem_append, List.mem_ite_nil_right] at hd
    rcases hd with ((⟨hon, hd⟩ | ⟨hon, hd⟩) | ⟨hon, hd⟩) | ⟨hon, hd⟩
    · rw [(discoverNPU_labeled t c _ d hd).2.1]
      exact hon
    · rw [(discoverGPU_labeled t c _ d hd).2.1]
      exact hon
    · rw [(discoverVPU_labeled t c _ d hd).2.1]
      exact hon
    · rw [(discoverRGA_labeled t c _ d hd).2.1]
      exact hon

/-- **The flags of an enumeration.** On every tree and with every configuration, the enumerated
devices are those that are enumerated with every type switched on and no cap set, without the types
that are switched off, and with the caps that are set. A configuration that switches no type on has
them all on. -/
theorem enumerate_settings (t : Tree) (cfg : Config) : enumerate t cfg =
    ((enumerate t cfg.everything).filter fun d => (defaultConfig cfg).enables d.type).map
      fun d => d.withCap (cfg.maxAllocations d.type) := by
  simp only [← defaultConfig_maxAllocations cfg]
  unfold enumerate
  rw [defaultConfig_everything]
  generalize defaultConfig cfg = c
  have hmock : c.everything.mock = c.mock := rfl
  have hroot : c.everything.sysfsRoot = c.sysfsRoot := rfl
  dsimp only
  rw [hmock, hroot]
  cases c.mock with
  | true => exact mockDevices_settings c
  | false =>
    generalize detectSoC t c.sysfsRoot = soc
    rw [discoverNPU_everything t c soc, discoverGPU_everything t c soc,
      discoverVPU_everything t c soc, discoverRGA_everything t c soc]
    refine (settings_of_parts c ?_ ?_ ?_ ?_).symm
    · exact fun d hd => (discoverNPU_labeled t _ soc d hd).2.1
    · exact fun d hd => (discoverGPU_labeled t _ soc d hd).2.1
    · exact fun d hd => (discoverVPU_labeled t _ soc d hd).2.1
    · exact fun d hd => (discoverRGA_labeled t _ soc d hd).2.1

end RockchipDra.Discovery
