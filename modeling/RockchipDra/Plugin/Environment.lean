import RockchipDra.Discovery.Names
import RockchipDra.Plugin.Host

/-!
# The environment variables of CDI devices

The container edits of a device set a variable for the SoC, which all devices share, and variables
for its kernel driver, its node, and the group of its node. The names of the latter start with the
type and the block of the device (`cdiEnvPrefix`), without its ordinal. So the variables of two
devices are kept apart exactly when the devices differ in type or block (`deviceEdits_apart_iff`),
and two decoders of one block overwrite each other's variables.
-/

namespace RockchipDra.Plugin

open Go Discovery Effect

/-! ## Variables -/

/-- The name and the value of an entry `name=value` of an environment. -/
def envVariable (entry : String) : String × String := (Strings.cut entry '=').getD (entry, "")

/-- The variables that container edits set. -/
def ContainerEdits.variables (edits : ContainerEdits) : List (String × String) :=
  edits.env.map envVariable

/-- Two container edits share no variable but `DRA_ROCKCHIP_SOC`, and agree on it. -/
def ContainerEdits.Apart (edits edits' : ContainerEdits) : Prop :=
  ∀ v ∈ edits.variables, ∀ v' ∈ edits'.variables, v.1 = v'.1 →
    v.1 = "DRA_ROCKCHIP_SOC" ∧ v.2 = v'.2

/-- An entry is cut at its first equals sign. -/
theorem envVariable_append {name : String} (hname : '=' ∉ name.toList) (value : String) :
    envVariable (name ++ "=" ++ value) = (name, value) := by
  have hpos : ∀ c ∈ name.toList, decide (c ≠ '=') = true := by
    intro c hc
    rw [decide_eq_true_eq]
    rintro rfl
    exact hname hc
  have hlist : (name ++ "=" ++ value).toList = name.toList ++ '=' :: value.toList := by simp
  unfold envVariable Strings.cut
  rw [hlist, List.dropWhile_append_of_pos hpos, List.takeWhile_append_of_pos hpos]
  simp

/-! ## The variables of enumerated devices -/

/-- What the variables of a type and a block start with. -/
def labelPrefix (label : String × String) : String :=
  cdiEnvPrefix { type := label.1, block := label.2 }

/-- What follows in the names of the variables of a device. -/
def variableSuffixes : List String := ["_KMD", "_DEVICE", "_GID"]

theorem labelPrefix_append : ∀ a ∈ labels, ∀ suffix ∈ variableSuffixes,
    '=' ∉ (labelPrefix a ++ suffix).toList ∧ labelPrefix a ++ suffix ≠ "DRA_ROCKCHIP_SOC" := by
  decide +kernel

/-- Types and blocks are told apart by the names of their variables. -/
theorem labelPrefix_inj : ∀ a ∈ labels, ∀ b ∈ labels, ∀ suffix ∈ variableSuffixes,
    ∀ suffix' ∈ variableSuffixes, labelPrefix a ++ suffix = labelPrefix b ++ suffix' → a = b := by
  decide +kernel

/-- The variables of a device: one for the SoC, and the others by its type and block. -/
theorem variables_deviceEdits (stat : String → Option FileInfo) {d : Device} (mock : Bool)
    (hd : (d.type, d.block) ∈ labels) :
    (deviceEdits stat d mock).variables =
      ("DRA_ROCKCHIP_SOC", d.soc) :: (labelPrefix (d.type, d.block) ++ "_KMD", d.kmd) ::
        (labelPrefix (d.type, d.block) ++ "_DEVICE", d.deviceNode) ::
        if d.deviceGIDKnown then [(labelPrefix (d.type, d.block) ++ "_GID", toString d.deviceGID)]
        else [] := by
  -- No name of a variable has an equals sign, whatever the value has.
  have hentry : ∀ suffix ∈ variableSuffixes, ∀ value,
      envVariable (cdiEnvPrefix d ++ (suffix ++ "=") ++ value) =
        (labelPrefix (d.type, d.block) ++ suffix, value) := by
    intro suffix hsuffix value
    rw [← String.append_assoc]
    exact envVariable_append (labelPrefix_append _ hd suffix hsuffix).1 value
  have hsoc : envVariable ("DRA_ROCKCHIP_SOC=" ++ d.soc) = ("DRA_ROCKCHIP_SOC", d.soc) := by
    rw [show "DRA_ROCKCHIP_SOC=" = "DRA_ROCKCHIP_SOC" ++ "=" by decide]
    exact envVariable_append (by decide) d.soc
  have hkmd := hentry "_KMD" (by decide) d.kmd
  have hdevice := hentry "_DEVICE" (by decide) d.deviceNode
  have hgid := hentry "_GID" (by decide) (toString d.deviceGID)
  unfold ContainerEdits.variables deviceEdits
  cases d.deviceGIDKnown with
  | true => exact congrArg₂ List.cons hsoc (congrArg₂ List.cons hkmd
      (congrArg₂ List.cons hdevice (congrArg₂ List.cons hgid rfl)))
  | false => exact congrArg₂ List.cons hsoc (congrArg₂ List.cons hkmd
      (congrArg₂ List.cons hdevice rfl))

/-- A variable of a device is that of the SoC, or its name starts with the type and block. -/
theorem mem_variables_deviceEdits {stat : String → Option FileInfo} {d : Device} {mock : Bool}
    (hd : (d.type, d.block) ∈ labels) {v : String × String}
    (hv : v ∈ (deviceEdits stat d mock).variables) :
    v = ("DRA_ROCKCHIP_SOC", d.soc) ∨
      ∃ suffix ∈ variableSuffixes, v.1 = labelPrefix (d.type, d.block) ++ suffix := by
  rw [variables_deviceEdits stat mock hd] at hv
  rcases List.mem_cons.mp hv with rfl | hv
  · exact .inl rfl
  refine .inr ?_
  rcases List.mem_cons.mp hv with rfl | hv
  · exact ⟨"_KMD", by decide, rfl⟩
  rcases List.mem_cons.mp hv with rfl | hv
  · exact ⟨"_DEVICE", by decide, rfl⟩
  · split_ifs at hv
    · rw [List.mem_singleton.mp hv]
      exact ⟨"_GID", by decide, rfl⟩
    · cases hv

/-- **Variables of two devices.** The container edits of two devices of one enumeration share no
variable but that of the SoC, on which they agree, if and only if the devices differ in type or
block. -/
theorem deviceEdits_apart_iff (t : Tree) (cfg : Config) (d d' : Device) (hd : d ∈ enumerate t cfg)
    (hd' : d' ∈ enumerate t cfg) (stat stat' : String → Option FileInfo) (mock : Bool) :
    (deviceEdits stat d mock).Apart (deviceEdits stat' d' mock) ↔
      (d.type, d.block) ≠ (d'.type, d'.block) := by
  obtain ⟨hlabeled, hsoc⟩ := enumerate_labeled t cfg d hd
  obtain ⟨hlabeled', hsoc'⟩ := enumerate_labeled t cfg d' hd'
  have hlabel := hlabeled.label.1
  have hlabel' := hlabeled'.label.1
  constructor
  · -- With one type and block, the variables of the kernel drivers have one name.
    intro hapart heq
    have hmem : (labelPrefix (d.type, d.block) ++ "_KMD", d.kmd) ∈
        (deviceEdits stat d mock).variables := by
      rw [variables_deviceEdits stat mock hlabel]
      simp
    have hmem' : (labelPrefix (d.type, d.block) ++ "_KMD", d'.kmd) ∈
        (deviceEdits stat' d' mock).variables := by
      rw [variables_deviceEdits stat' mock hlabel', heq]
      simp
    exact (labelPrefix_append _ hlabel "_KMD" (by decide)).2 (hapart _ hmem _ hmem' rfl).1
  -- Two variables of one name are both those of the SoC, or both start with the type and block.
  · intro hne v hv v' hv' hname
    rcases mem_variables_deviceEdits hlabel hv with rfl | ⟨suffix, hsuffix, hv⟩
    · rcases mem_variables_deviceEdits hlabel' hv' with rfl | ⟨suffix', hsuffix', hv'⟩
      · exact ⟨rfl, hsoc.trans hsoc'.symm⟩
      · exact absurd (hv'.symm.trans hname.symm) (labelPrefix_append _ hlabel' suffix' hsuffix').2
    · rcases mem_variables_deviceEdits hlabel' hv' with rfl | ⟨suffix', hsuffix', hv'⟩
      · exact absurd (hv.symm.trans hname) (labelPrefix_append _ hlabel suffix hsuffix).2
      · rw [hv, hv'] at hname
        exact absurd (labelPrefix_inj _ hlabel _ hlabel' suffix hsuffix suffix' hsuffix' hname) hne

/-- The two decoders of the host differ in neither type nor block, and their variables are not kept
apart. -/
theorem deviceEdits_apart_iff_decoders :
    ¬(deviceEdits (hostEnv 0 bothNodes).stat (hostDecoder "vpu-rkvdec-0" "/dev/video1") false).Apart
      (deviceEdits (hostEnv 0 bothNodes).stat
        (hostDecoder "vpu-rkvdec-1" "/dev/video2") false) := by
  intro hapart
  have hne := (deviceEdits_apart_iff bothTree hostFlags.discCfg _ _
    (by rw [enumerate_bothTree]; decide) (by rw [enumerate_bothTree]; decide) _ _ false).mp hapart
  exact hne rfl

/-- It is not so that differently named devices of one enumeration share no variable but that of the
SoC: the variables for the nodes of two decoders have one name and two values. -/
theorem decoder_variables_collide :
    ¬∀ (t : Tree) (cfg : Config) (d d' : Device), d ∈ enumerate t cfg → d' ∈ enumerate t cfg →
      d.name ≠ d'.name → ∀ (stat : String → Option FileInfo) (mock : Bool),
        (deviceEdits stat d mock).Apart (deviceEdits stat d' mock) := by
  intro h
  have hapart := h bothTree hostFlags.discCfg (hostDecoder "vpu-rkvdec-0" "/dev/video1")
    (hostDecoder "vpu-rkvdec-1" "/dev/video2") (by rw [enumerate_bothTree]; decide)
    (by rw [enumerate_bothTree]; decide) (by decide) (hostEnv 0 bothNodes).stat false
  have hlabel : (Consts.typeVPU, Consts.blockRkvdec) ∈ labels := by decide
  have hmem := variables_deviceEdits (hostEnv 0 bothNodes).stat false
    (d := hostDecoder "vpu-rkvdec-0" "/dev/video1") hlabel
  have hmem' := variables_deviceEdits (hostEnv 0 bothNodes).stat false
    (d := hostDecoder "vpu-rkvdec-1" "/dev/video2") hlabel
  -- The variable of the node is the third one of each list.
  have hvalue := hapart
    (labelPrefix (Consts.typeVPU, Consts.blockRkvdec) ++ "_DEVICE", "/dev/video1")
    (by rw [hmem]; exact .tail _ (.tail _ (.head _)))
    (labelPrefix (Consts.typeVPU, Consts.blockRkvdec) ++ "_DEVICE", "/dev/video2")
    (by rw [hmem']; exact .tail _ (.tail _ (.head _))) rfl
  exact absurd hvalue.2 (by decide)

end RockchipDra.Plugin
