import RockchipDra.Discovery.Names
import RockchipDra.Discovery.Settings
import RockchipDra.Plugin.Naming
import RockchipDra.Plugin.Published

/-!
# The device classes of the chart

`deployments/helm/rockchip-dra-driver`: the chart installs a device class for each type of devices
that its values switch on, and for each block of the VPU, and starts the plugin with flags made of
the same values. The selector of a class is an expression over the driver and the attributes of a
published device. The scheduler gives a device to a claim of a class where the selector is true, and
it gives up the claim where the selector fails.

A published device has attributes that no selector fails on, and that one class at most selects
(`published_devices_classified`). This holds of devices that an earlier configuration left behind
for a prepared claim too. The devices that the configuration of the process itself finds have their
class, unless the values switch every type off: then no class is installed, but the plugin takes
this as a configuration that says nothing, and publishes all types (`untainted_devices_served`).
-/

namespace RockchipDra.Plugin

open Go Discovery Effect

/-! ## The chart -/

/-- The values of a type of devices. -/
structure TypeValues where
  enabled : Bool := true
  maxAllocations : Int64 := 0
  deriving DecidableEq

/-- `values.yaml`, as far as the device classes and the flags of discovery are made of it. -/
structure Values where
  driverName : String := "dra.rockchip.com"
  npu : TypeValues := {}
  npuClass : String := "npu.rockchip.com"
  gpu : TypeValues := {}
  gpuClass : String := "gpu.rockchip.com"
  vpu : TypeValues := {}
  rkvdecClass : String := "vpu-rkvdec.rockchip.com"
  hantroDecClass : String := "vpu-hantro-dec.rockchip.com"
  hantroEncClass : String := "vpu-hantro-enc.rockchip.com"
  hantroAv1Class : String := "vpu-hantro-av1.rockchip.com"
  rga : TypeValues := {}
  rgaClass : String := "rga.rockchip.com"
  mockDevices : Bool := false
  deriving DecidableEq

/-- The configuration of discovery, from the variables that `kubeletplugin.yaml` sets and the
defaults of the flags of `newApp`. -/
def Values.discoveryConfig (v : Values) : Config :=
  { sysfsRoot := "/sys"
    mock := v.mockDevices
    npuEnabled := v.npu.enabled
    gpuEnabled := v.gpu.enabled
    vpuEnabled := v.vpu.enabled
    rgaEnabled := v.rga.enabled
    npuMaxAllocations := v.npu.maxAllocations
    gpuMaxAllocations := v.gpu.maxAllocations
    vpuMaxAllocations := v.vpu.maxAllocations
    rgaMaxAllocations := v.rga.maxAllocations }

/-- The flags of the plugin on a node. -/
def Values.flags (v : Values) (nodeName : String) : Flags :=
  { driverName := v.driverName
    nodeName := nodeName
    mock := v.mockDevices
    discCfg := v.discoveryConfig }

/-- The expressions of the selectors. -/
inductive Selector where
  /-- `device.driver == 'name'`. -/
  | driverIs (name : String)
  /-- `device.attributes['domain'].name == 'value'`. -/
  | attributeIs (domain name value : String)
  /-- `a && b`. -/
  | and (a b : Selector)

/-- A conjunction is false where one side is, even if the other one fails. -/
def conjunction : Option Bool → Option Bool → Option Bool
  | some false, _ => some false
  | _, some false => some false
  | some true, some true => some true
  | _, _ => none

/-- The value of an expression for a device of a driver, `none` where it fails. -/
def Selector.eval (driver : String) (d : ResourceDevice) : Selector → Option Bool
  | .driverIs name => some (decide (driver = name))
  | .attributeIs domain name value =>
    -- The attributes are published without a domain, which makes the driver their domain.
    if domain = driver then d.attributes[name]?.map fun a => decide (a = .stringValue value)
    else none
  | .and a b => conjunction (a.eval driver d) (b.eval driver d)

/-- A device class with its one selector. -/
structure DeviceClass where
  name : String
  selector : Selector

/-- The selector of a type. -/
def typeSelector (driver type : String) : Selector :=
  .and (.driverIs driver) (.attributeIs driver "type" type)

/-- The selector of a block of the VPU. -/
def blockSelector (driver block : String) : Selector :=
  .and (typeSelector driver "vpu") (.attributeIs driver "block" block)

/-- `templates/deviceclass.yaml`. -/
def Values.deviceClasses (v : Values) : List DeviceClass :=
  (if v.npu.enabled then [⟨v.npuClass, typeSelector v.driverName "npu"⟩] else []) ++
    (if v.gpu.enabled then [⟨v.gpuClass, typeSelector v.driverName "gpu"⟩] else []) ++
    (if v.vpu.enabled then
      [⟨v.rkvdecClass, blockSelector v.driverName "rkvdec"⟩,
        ⟨v.hantroDecClass, blockSelector v.driverName "hantro-dec"⟩,
        ⟨v.hantroEncClass, blockSelector v.driverName "hantro-enc"⟩,
        ⟨v.hantroAv1Class, blockSelector v.driverName "hantro-av1"⟩]
    else []) ++
    (if v.rga.enabled then [⟨v.rgaClass, typeSelector v.driverName "rga"⟩] else [])

/-- The classes whose devices include a device of a driver. -/
def Values.selecting (v : Values) (driver : String) (d : ResourceDevice) : List DeviceClass :=
  v.deviceClasses.filter fun c => c.selector.eval driver d = some true

/-! ## Attributes -/

theorem getElem?_insert_ne {β : Type} (m : GoMap β) {k a : String} (v : β) (h : k ≠ a) :
    (m.insert k v)[a]? = m[a]? := by
  rw [Maps.getElem?_insert, if_neg h]

theorem getElem?_insert_if {β : Type} (p : Prop) [Decidable p] (m : GoMap β) {k a : String} (v : β)
    (h : k ≠ a) : (if p then m.insert k v else m)[a]? = m[a]? := by
  split_ifs
  · exact getElem?_insert_ne m v h
  · rfl

/-- A device is published with its type. -/
theorem deviceAttributes_type (d : Device) :
    (deviceAttributes d)[Consts.attrType]? = some (.stringValue d.type) := by
  unfold deviceAttributes
  dsimp only
  rw [getElem?_insert_if _ _ _ (by decide), getElem?_insert_if _ _ _ (by decide),
    getElem?_insert_if _ _ _ (by decide), getElem?_insert_if _ _ _ (by decide),
    getElem?_insert_if _ _ _ (by decide), getElem?_insert_if _ _ _ (by decide),
    getElem?_insert_ne _ _ (by decide), getElem?_insert_ne _ _ (by decide),
    getElem?_insert_ne _ _ (by decide), getElem?_insert_ne _ _ (by decide),
    Maps.getElem?_insert, if_pos rfl]

/-- A device that has a block is published with it. -/
theorem deviceAttributes_block {d : Device} (h : d.block ≠ "") :
    (deviceAttributes d)[Consts.attrBlock]? = some (.stringValue d.block) := by
  unfold deviceAttributes
  dsimp only
  rw [if_pos h, Maps.getElem?_insert, if_pos rfl]

/-! ## Selectors -/

section Selectors

variable {driver : String} {d : ResourceDevice}

theorem conjunction_true_left (b : Option Bool) : conjunction (some true) b = b := by
  rcases b with _ | _ | _ <;> rfl

theorem conjunction_false_left (b : Option Bool) : conjunction (some false) b = some false := rfl

/-- The selector of a type on a device of the driver. -/
theorem eval_typeSelector {type : String}
    (htype : d.attributes[Consts.attrType]? = some (.stringValue type)) (expected : String) :
    (typeSelector driver expected).eval driver d = some (decide (type = expected)) := by
  have hattr : d.attributes["type"]? = some (.stringValue type) := htype
  unfold typeSelector Selector.eval Selector.eval
  rw [decide_eq_true rfl, conjunction_true_left, if_pos rfl, hattr]
  simp

/-- The selector of a block does not fail on a device without one, since its type is another. -/
theorem eval_blockSelector {type block : String}
    (htype : d.attributes[Consts.attrType]? = some (.stringValue type))
    (hblock : type = "vpu" → d.attributes[Consts.attrBlock]? = some (.stringValue block))
    (expected : String) : (blockSelector driver expected).eval driver d =
      some (decide (type = "vpu" ∧ block = expected)) := by
  change conjunction ((typeSelector driver "vpu").eval driver d) _ = _
  rw [eval_typeSelector htype]
  by_cases hvpu : type = "vpu"
  · have hattr : d.attributes["block"]? = some (.stringValue block) := hblock hvpu
    rw [decide_eq_true hvpu, conjunction_true_left, Selector.eval, if_pos rfl, hattr]
    simp [hvpu]
  · rw [decide_eq_false hvpu, conjunction_false_left, decide_eq_false fun h => hvpu h.1]

/-- What holds of the selectors of types and of blocks holds of every class. -/
theorem forall_mem_deviceClasses {P : Selector → Prop} (v : Values)
    (htype : ∀ type, P (typeSelector v.driverName type))
    (hblock : ∀ block, P (blockSelector v.driverName block)) :
    ∀ c ∈ v.deviceClasses, P c.selector := by
  intro c hc
  unfold Values.deviceClasses at hc
  simp only [List.mem_append, List.mem_ite_nil_right, List.mem_cons, List.not_mem_nil, or_false]
    at hc
  rcases hc with ((⟨-, rfl⟩ | ⟨-, rfl⟩) | ⟨-, rfl | rfl | rfl | rfl⟩) | ⟨-, rfl⟩
  all_goals first | exact htype _ | exact hblock _

/-- On a device of another driver every selector is false, whatever its attributes are. -/
theorem eval_of_other_driver (v : Values) (h : driver ≠ v.driverName) :
    ∀ c ∈ v.deviceClasses, c.selector.eval driver d = some false := by
  have htype : ∀ type, (typeSelector v.driverName type).eval driver d = some false := by
    intro type
    change conjunction (some (decide (driver = v.driverName))) _ = _
    rw [decide_eq_false h, conjunction_false_left]
  refine forall_mem_deviceClasses (P := fun sel => sel.eval driver d = some false) v htype ?_
  intro block
  change conjunction ((typeSelector v.driverName "vpu").eval driver d) _ = _
  rw [htype, conjunction_false_left]

end Selectors

/-! ## The classes of a device -/

/-- How many of the classes of a type satisfy a condition. -/
theorem countP_ite_nil (b : Bool) (p : DeviceClass → Bool) (l : List DeviceClass) :
    (if b then l else []).countP p = if b then l.countP p else 0 := by
  cases b <;> rfl

/-- A device is selected by one class if its type is switched on, and by none if it is off. -/
theorem length_selecting (v : Values) {d : ResourceDevice} {type block : String}
    (htype : d.attributes[Consts.attrType]? = some (.stringValue type))
    (hblock : type = "vpu" →
      d.attributes[Consts.attrBlock]? = some (.stringValue block) ∧ block ∈ vpuBlocks) :
    (v.selecting v.driverName d).length = if v.discoveryConfig.enables type then 1 else 0 := by
  unfold Values.selecting Values.deviceClasses
  rw [← List.countP_eq_length_filter]
  simp only [List.countP_append, countP_ite_nil, List.countP_cons, List.countP_nil,
    eval_typeSelector htype, eval_blockSelector htype fun h => (hblock h).1]
  unfold Config.enables Consts.typeNPU Consts.typeGPU Consts.typeVPU Consts.typeRGA
  by_cases hvpu : type = "vpu"
  · -- The four blocks are those of the four classes.
    have hmem := (hblock hvpu).2
    unfold vpuBlocks at hmem
    simp only [List.mem_cons, List.not_mem_nil, or_false] at hmem
    subst hvpu
    rcases hmem with rfl | rfl | rfl | rfl <;>
      simp [Consts.blockRkvdec, Consts.blockHantroDec, Consts.blockHantroEnc, Consts.blockHantroAV1,
        Values.discoveryConfig]
  · by_cases hnpu : type = "npu"
    · simp [hnpu, Values.discoveryConfig]
    · by_cases hgpu : type = "gpu"
      · simp [hgpu, Values.discoveryConfig]
      · by_cases hrga : type = "rga"
        · simp [hrga, Values.discoveryConfig]
        · simp [hvpu, hnpu, hgpu, hrga]

/-- What the chart makes of a published device of a driver: no selector fails on it, and one class
selects it if the chart is for this driver and its type is switched on, and none otherwise. -/
structure Values.Classifies (v : Values) (driver : String) (d : ResourceDevice) : Prop where
  evaluates : ∀ c ∈ v.deviceClasses, (c.selector.eval driver d).isSome = true
  selects : ∃ type, d.attributes[Consts.attrType]? = some (.stringValue type) ∧
    (v.selecting driver d).length =
      if v.driverName = driver ∧ v.discoveryConfig.enables type = true then 1 else 0

section Classifies

variable {td : TrackedDevice} (h : td.toDevice.Labeled)
include h

/-- A published VPU has one of the blocks among its attributes. -/
theorem toResourceDevice_block (hvpu : td.type = "vpu") :
    (toResourceDevice td).attributes[Consts.attrBlock]? = some (.stringValue td.block) ∧
      td.block ∈ vpuBlocks := by
  have hmem : td.block ∈ vpuBlocks := by
    cases h with
    | npu _ type => exact absurd (type.symm.trans hvpu) (by decide)
    | gpu _ type => exact absurd (type.symm.trans hvpu) (by decide)
    | rga _ _ type => exact absurd (type.symm.trans hvpu) (by decide)
    | vpu _ _ _ block => exact block
  have hne : td.block ≠ "" := fun hempty => absurd (hempty ▸ hmem) (by decide)
  exact ⟨deviceAttributes_block hne, hmem⟩

/-- A published device has one class if its type is switched on. -/
theorem length_selecting_toResourceDevice (v : Values) :
    (v.selecting v.driverName (toResourceDevice td)).length =
      if v.discoveryConfig.enables td.type then 1 else 0 :=
  length_selecting v (deviceAttributes_type td.toDevice) (toResourceDevice_block h)

/-- The published form of a device whose block fits its type. -/
theorem Values.classifies (v : Values) (driver : String) :
    v.Classifies driver (toResourceDevice td) := by
  have htype : (toResourceDevice td).attributes[Consts.attrType]? = some (.stringValue td.type) :=
    deviceAttributes_type td.toDevice
  by_cases hdriver : v.driverName = driver
  · subst hdriver
    refine ⟨?_, td.type, htype, ?_⟩
    · refine forall_mem_deviceClasses (P := fun sel =>
        (sel.eval v.driverName (toResourceDevice td)).isSome = true) v ?_ ?_
      · intro type
        rw [eval_typeSelector htype]
        rfl
      · intro block
        rw [eval_blockSelector htype fun hvpu => (toResourceDevice_block h hvpu).1]
        rfl
    · rw [length_selecting_toResourceDevice h v]
      simp
  · have hfalse := eval_of_other_driver (d := toResourceDevice td) v (Ne.symm hdriver)
    refine ⟨fun c hc => by rw [hfalse c hc]; rfl, td.type, htype, ?_⟩
    have hnone : v.selecting driver (toResourceDevice td) = [] := by
      refine List.filter_eq_nil_iff.mpr fun c hc => ?_
      rw [hfalse c hc]
      decide
    rw [hnone, if_neg fun hand => hdriver hand.1]
    rfl

end Classifies

/-- A type that the plugin takes as switched on is so in the values, unless no class is installed
at all. -/
theorem Values.enables_of_default (v : Values) {type : String}
    (h : (defaultConfig v.discoveryConfig).enables type = true) :
    v.discoveryConfig.enables type = !v.deviceClasses.isEmpty := by
  rw [defaultConfig_eq] at h
  unfold Values.deviceClasses
  unfold Values.discoveryConfig Config.enables at h ⊢
  dsimp only at h ⊢
  generalize v.npu.enabled = npu at h ⊢
  generalize v.gpu.enabled = gpu at h ⊢
  generalize v.vpu.enabled = vpu at h ⊢
  generalize v.rga.enabled = rga at h ⊢
  cases npu <;> cases gpu <;> cases vpu <;> cases rga <;> simp at h ⊢ <;> exact h

/-- Without a class, the plugin looks for all types. -/
theorem Values.enables_of_isEmpty (v : Values) (h : v.deviceClasses.isEmpty = true)
    (type : String) : (defaultConfig v.discoveryConfig).enables type =
      (defaultConfig v.discoveryConfig.everything).enables type := by
  unfold Values.deviceClasses at h
  rw [defaultConfig_eq, defaultConfig_eq]
  unfold Values.discoveryConfig Config.everything Config.enables
  dsimp only
  generalize v.npu.enabled = npu at h ⊢
  generalize v.gpu.enabled = gpu at h ⊢
  generalize v.vpu.enabled = vpu at h ⊢
  generalize v.rga.enabled = rga at h ⊢
  cases npu <;> cases gpu <;> cases vpu <;> cases rga <;> simp at h ⊢

/-- A device that is enumerated is published under its name and with its type. -/
theorem published_of_mem_enumerate {x : External} {s : DeviceState} {t : Tree} {d : Device}
    (hd : d ∈ enumerate t s.flags.discCfg) (env : Env) (σ : Store) :
    ∃ r ∈ (s.reconcileFrom x env (enumerate t s.flags.discCfg) σ).2.driverResources.devices,
      r.name = d.name ∧ r.attributes[Consts.attrType]? = some (.stringValue d.type) := by
  obtain ⟨d', hd'⟩ := Option.isSome_iff_exists.mp
    ((lastFound_isSome _ d.name).mpr (List.mem_map_of_mem hd))
  obtain ⟨hmem, hname⟩ := lastFound_eq_some hd'
  -- It may be found more than once under its name, but with one type only.
  have htype : d'.type = d.type :=
    congrArg Prod.fst ((enumerate_labeled t _ d' hmem).1.eq_of_name (enumerate_labeled t _ d hd).1
      hname)
  obtain ⟨td, htd, hdevice⟩ : ∃ td, (s.reconcileFrom x env (enumerate t s.flags.discCfg)
      σ).2.tracked[d.name]? = some td ∧ td.toDevice = d' := by
    rw [DeviceState.reconcileFrom_tracked, getElem?_nextTracked, hd']
    exact ⟨_, rfl, assessEnumerated_toDevice ..⟩
  refine ⟨toResourceDevice td, ?_, ?_, ?_⟩
  · rw [DeviceState.reconcileFrom_driverResources, mem_devices_devicesToResources]
    exact ⟨td, (mem_trackedList _ _ _).mpr ⟨d.name, htd⟩, rfl⟩
  · rw [← hname, ← hdevice]
    rfl
  · rw [← htype, ← hdevice]
    exact deviceAttributes_type td.toDevice

/-! ## Whole runs -/

/-- A device was found under the flags of the process, or is left behind for a prepared claim. -/
def Flags.Accounts (f : Flags) (td : TrackedDevice) : Prop :=
  td.toDevice.Labeled ∧ (td.IsRetained ∨ (defaultConfig f.discCfg).enables td.type = true)

/-- Every device has a block that fits its type, and what is to be published is accounted for. -/
structure Accounted (l : Ledger) (st : Option DeviceState) : Prop where
  labeled : EachDevice Device.Labeled l st
  published : ∀ s, st = some s → ∀ d ∈ s.driverResources.devices,
    ∃ td, s.flags.Accounts td ∧ toResourceDevice td = d

/-- A reconcile leaves entries that are retained and entries of what it has found. -/
theorem reconcileFrom_retained_or_found {x : External} {s : DeviceState} {env : Env}
    {found : List Device} {σ : Store} {name : String} {td : TrackedDevice}
    (htd : (s.reconcileFrom x env found σ).2.tracked[name]? = some td) :
    td.IsRetained ∨ td.toDevice ∈ found := by
  rw [DeviceState.reconcileFrom_tracked, getElem?_nextTracked] at htd
  cases hlast : lastFound found name with
  | some d =>
    rw [hlast] at htd
    obtain rfl := Option.some.inj htd
    rw [assessEnumerated_toDevice]
    exact .inr (lastFound_eq_some hlast).1
  | none =>
    rw [hlast] at htd
    obtain ⟨snap, -, rfl⟩ := Option.map_eq_some_iff.mp htd
    exact .inl (retainedEntry_isRetained ..)

/-- With enumerations taken from sysfs trees or from mock mode, devices stay accounted for. -/
theorem Accounted.transition {x : External} {l l' : Ledger} {st st' : Option DeviceState}
    (h : Transition x (fun s op _ => op.Discovers s) l st l' st') (hl : Accounted l st) :
    Accounted l' st' := by
  have hlabeled : EachDevice Device.Labeled l' st' := by
    refine EachDevice.transition ?_ h hl.labeled
    rintro s env found l ⟨t, rfl⟩ d hd
    exact (enumerate_labeled t _ d hd).1
  refine ⟨hlabeled, ?_⟩
  cases h with
  | idle => exact hl.published
  | command => exact hl.published
  | finish hserves hfit hpost =>
    cases hpost with
    | failed => exact hl.published
    | prepared => cases hserves; exact hl.published
    | unprepared => cases hserves; exact hl.published
    | reconciled env found =>
      rintro _ ⟨⟩ d hd
      change d ∈ (DeviceState.reconcileFrom _ _ _ _ _).2.driverResources.devices at hd
      rw [DeviceState.reconcileFrom_driverResources, mem_devices_devicesToResources] at hd
      obtain ⟨td, htd, rfl⟩ := hd
      obtain ⟨name, hname⟩ := (mem_trackedList _ _ _).mp htd
      refine ⟨td, ⟨hlabeled.tracked _ rfl name td hname, ?_⟩, rfl⟩
      rcases reconcileFrom_retained_or_found hname with hretained | hfound
      · exact .inl hretained
      · -- What the reconcile has found is of a type that its own flags switch on.
        obtain ⟨t, rfl⟩ := hfit
        exact .inr (enumerate_enables t _ _ hfound)
  | crash => rintro s ⟨⟩

/-- In every run everything is accounted for. -/
theorem World.accounted {x : External} {es : List Event} {w : World}
    (hrun : run (World.step x) {} es = some w)
    (hstarts : Along (World.step x) (World.Starts fun s op _ => op.Discovers s) {} es) :
    Accounted w.ledger w.state := by
  have hkeeps : w.Keeps x (fun s op _ => op.Discovers s) Accounted := by
    refine World.keeps_of_run (fun _ _ _ _ _ h => h) (fun _ _ _ _ h hl => hl.transition h)
      ⟨.init _, ?_⟩ hrun hstarts
    rintro s ⟨⟩
  exact hkeeps.2

/-- **The classes of published devices.** In every state that prepares, unprepares, reconciles, and
restarts with other flags reach, and for all values of the chart, no selector of a device class
fails on a device that is to be published, and exactly one class selects it if the chart is for this
driver and the type of the device is switched on, and none otherwise. On devices of other drivers
all selectors are false, whatever attributes these have. -/
theorem published_devices_classified (x : External) (es : List Event) (w : World)
    (hrun : run (World.step x) {} es = some w)
    (hstarts : Along (World.step x) (World.Starts fun s op _ => op.Discovers s) {} es)
    (s : DeviceState) (hs : w.state = some s) (v : Values) :
    (∀ d ∈ s.driverResources.devices, v.Classifies s.flags.driverName d) ∧
    ∀ driver, driver ≠ v.driverName → ∀ d, ∀ c ∈ v.deviceClasses,
      c.selector.eval driver d = some false := by
  refine ⟨?_, fun driver hdriver d => eval_of_other_driver v hdriver⟩
  intro d hd
  obtain ⟨td, haccounts, rfl⟩ := (World.accounted hrun hstarts).published s hs d hd
  exact v.classifies haccounts.1 s.flags.driverName

/-- **The chart serves what its plugin finds.** In every such state of a process that was started
with the flags of a chart, a device that is published without a taint is selected by exactly one
device class of that chart, unless the chart has no device class at all. In that case the next
reconcile publishes what a tree has of every type, and there is no class for any of it. -/
theorem untainted_devices_served (x : External) (es : List Event) (w : World)
    (hrun : run (World.step x) {} es = some w)
    (hstarts : Along (World.step x) (World.Starts fun s op _ => op.Discovers s) {} es)
    (s : DeviceState) (hs : w.state = some s) (v : Values) (nodeName : String)
    (hflags : s.flags = v.flags nodeName) :
    (∀ d ∈ s.driverResources.devices, d.taints = [] →
      (v.selecting s.flags.driverName d).length = if v.deviceClasses.isEmpty then 0 else 1) ∧
    (v.deviceClasses.isEmpty = true → ∀ (t : Tree) (env : Env) (σ : Store),
      ∀ d ∈ enumerate t s.flags.discCfg.everything,
        ∃ r ∈ (s.reconcileFrom x env (enumerate t s.flags.discCfg) σ).2.driverResources.devices,
          r.name = d.name ∧ r.attributes[Consts.attrType]? = some (.stringValue d.type)) := by
  have hdisc : s.flags.discCfg = v.discoveryConfig := by rw [hflags]; rfl
  refine ⟨fun d hd htaints => ?_, fun hempty t env σ d hd => ?_⟩
  · obtain ⟨td, ⟨hlabeled, hfound⟩, rfl⟩ := (World.accounted hrun hstarts).published s hs d hd
    have hdriver : s.flags.driverName = v.driverName := by rw [hflags]; rfl
    have henables : (defaultConfig v.discoveryConfig).enables td.type = true := by
      rw [← hdisc]
      refine hfound.resolve_left fun hretained => ?_
      -- A retained device is unhealthy, and an unhealthy one is tainted.
      have htaint : deviceTaints td ≠ [] := by
        rw [deviceTaints, if_pos hretained.2.1]
        exact List.cons_ne_nil _ _
      exact htaint htaints
    rw [hdriver, length_selecting_toResourceDevice hlabeled v, v.enables_of_default henables]
    cases v.deviceClasses.isEmpty <;> rfl
  · have henables : (defaultConfig s.flags.discCfg).enables d.type = true := by
      rw [hdisc] at hd ⊢
      rw [v.enables_of_isEmpty hempty]
      exact enumerate_enables t _ d hd
    have hfound : d.withCap (s.flags.discCfg.maxAllocations d.type) ∈
        enumerate t s.flags.discCfg := by
      rw [enumerate_settings]
      exact List.mem_map.mpr ⟨d, List.mem_filter.mpr ⟨hd, henables⟩, rfl⟩
    simpa using published_of_mem_enumerate (x := x) hfound env σ

/-! ## Upgrades that switch types off -/

/-- A reconcile looks at what is found in a tree. -/
def Op.enumerates (t : Tree) (s : DeviceState) : Op → Bool
  | .reconcile _ found => found = enumerate t s.flags.discCfg
  | _ => true

theorem Op.discovers_of_enumerates {t : Tree} {s : DeviceState} {op : Op}
    (h : op.enumerates t s = true) : op.Discovers s := by
  cases op with
  | prepare env claim => trivial
  | unprepare uid => trivial
  | reconcile env found => exact ⟨t, by simpa [Op.enumerates] using h⟩

/-- The values with synthetic devices. -/
def mockValues : Values := { mockDevices := true }

/-- The values with the NPU switched off. -/
def mockWithoutNpu : Values := { mockDevices := true, npu := { enabled := false } }

/-- The values with every type switched off. -/
def mockWithoutAny : Values :=
  { mockDevices := true
    npu := { enabled := false }
    gpu := { enabled := false }
    vpu := { enabled := false }
    rga := { enabled := false } }

/-- The first reconcile of a process with the flags of a chart. -/
def bootValues (v : Values) : List Event :=
  [.boot (v.flags "node") (hostEnv 0 []) (enumerate bothTree v.discoveryConfig),
    .command .none, .command .none, .finish]

/-- A claim has the NPU, and then the chart is upgraded. -/
def upgradeTo (v : Values) : List Event :=
  bootValues mockValues ++ prepareDecoder "a" "npu-0" ++ [.crash] ++ bootValues v

/-- The upgrade to the chart without the NPU. -/
def upgradeEvents : List Event := upgradeTo mockWithoutNpu

theorem discovers_of_along_enumerates {es : List Event} (h : Along (World.step plainExternal)
      (fun w e _ => (w.starts e).all (fun p => p.2.enumerates bothTree p.1) = true) {} es) :
    Along (World.step plainExternal) (World.Starts fun s op _ => op.Discovers s) {} es := by
  refine Along.mono (fun w e _ _ h s op hop => ?_) h
  rw [hop, Option.all_some] at h
  exact Op.discovers_of_enumerates h

theorem upgradeEvents_discovers :
    Along (World.step plainExternal) (World.Starts fun s op _ => op.Discovers s) {}
      upgradeEvents :=
  discovers_of_along_enumerates (by decide +kernel)

/-- After the upgrade the NPU is published for its claim, with a taint. -/
theorem upgradeEvents_published : ∃ (w : World) (s : DeviceState),
    run (World.step plainExternal) {} upgradeEvents = some w ∧ w.state = some s ∧
    s.flags = mockWithoutNpu.flags "node" ∧
    s.driverResources.devices.map (fun d => (d.name, d.taints.length)) =
      [("gpu-0", 0), ("npu-0", 1), ("rga-0", 0), ("vpu-rkvdec-0", 0)] := by
  have hend : (run (World.step plainExternal) {} upgradeEvents).bind (fun w => w.state.map fun s =>
      (s.flags, s.driverResources.devices.map fun d => (d.name, d.taints.length))) =
      some (mockWithoutNpu.flags "node",
        [("gpu-0", 0), ("npu-0", 1), ("rga-0", 0), ("vpu-rkvdec-0", 0)]) := by decide +kernel
  obtain ⟨w, hw, hend⟩ := Option.bind_eq_some_iff.mp hend
  obtain ⟨s, hs, hend⟩ := Option.map_eq_some_iff.mp hend
  obtain ⟨hflags, hdevices⟩ := Prod.mk.inj hend
  exact ⟨w, s, hw, hs, hflags, hdevices⟩

/-- The NPU that is left behind has a class in the old chart, and none in the new one. -/
theorem published_devices_classified_upgrade : ∃ (w : World) (s : DeviceState),
    run (World.step plainExternal) {} upgradeEvents = some w ∧ w.state = some s ∧
    s.driverResources.devices.length = 4 ∧
    (∀ d ∈ s.driverResources.devices, mockValues.Classifies s.flags.driverName d) ∧
    ∀ d ∈ s.driverResources.devices, mockWithoutNpu.Classifies s.flags.driverName d := by
  obtain ⟨w, s, hw, hs, -, hdevices⟩ := upgradeEvents_published
  have hlength : s.driverResources.devices.length = 4 := by
    have hmap := congrArg List.length hdevices
    rw [List.length_map] at hmap
    exact hmap
  have hclassified := published_devices_classified plainExternal upgradeEvents w hw
    upgradeEvents_discovers s hs
  exact ⟨w, s, hw, hs, hlength, (hclassified mockValues).1, (hclassified mockWithoutNpu).1⟩

/-- The devices of the new chart have their classes after the upgrade. After an upgrade to a chart
that switches every type off, all types are published as before, and there is no class for any. -/
theorem untainted_devices_served_upgrade :
    (∃ (w : World) (s : DeviceState),
      run (World.step plainExternal) {} upgradeEvents = some w ∧ w.state = some s ∧
      ∀ d ∈ s.driverResources.devices, d.taints = [] →
        (mockWithoutNpu.selecting s.flags.driverName d).length = 1) ∧
    ∃ (w : World) (s : DeviceState),
      run (World.step plainExternal) {} (upgradeTo mockWithoutAny) = some w ∧ w.state = some s ∧
      s.driverResources.devices.map (fun d => (d.name, d.taints.length)) =
        [("gpu-0", 0), ("npu-0", 0), ("rga-0", 0), ("vpu-rkvdec-0", 0)] ∧
      ∀ d ∈ s.driverResources.devices, d.taints = [] →
        (mockWithoutAny.selecting s.flags.driverName d).length = 0 := by
  refine ⟨?_, ?_⟩
  · obtain ⟨w, s, hw, hs, hflags, -⟩ := upgradeEvents_published
    exact ⟨w, s, hw, hs, (untainted_devices_served plainExternal upgradeEvents w hw
      upgradeEvents_discovers s hs mockWithoutNpu "node" hflags).1⟩
  · have hend : (run (World.step plainExternal) {} (upgradeTo mockWithoutAny)).bind (fun w =>
        w.state.map fun s =>
          (s.flags, s.driverResources.devices.map fun d => (d.name, d.taints.length))) =
        some (mockWithoutAny.flags "node",
          [("gpu-0", 0), ("npu-0", 0), ("rga-0", 0), ("vpu-rkvdec-0", 0)]) := by decide +kernel
    obtain ⟨w, hw, hend⟩ := Option.bind_eq_some_iff.mp hend
    obtain ⟨s, hs, hend⟩ := Option.map_eq_some_iff.mp hend
    obtain ⟨hflags, hdevices⟩ := Prod.mk.inj hend
    exact ⟨w, s, hw, hs, hdevices, (untainted_devices_served plainExternal
      (upgradeTo mockWithoutAny) w hw (discovers_of_along_enumerates (by decide +kernel)) s hs
      mockWithoutAny "node" hflags).1⟩

end RockchipDra.Plugin
