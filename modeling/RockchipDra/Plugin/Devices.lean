import RockchipDra.Plugin.Types
import RockchipDra.Go.Slices

/-!
# The published form of the tracked devices

`cmd/kubeletplugin/devices.go`: every tracked device becomes a `ResourceDevice`, with a `NoExecute`
taint when it is unhealthy, and the devices of a node make one pool of one slice, sorted by name.
-/

namespace RockchipDra.Plugin

open Go Discovery

/-- The request policy of `maxAlloc` shares: one share by default, and up to all of them. The step
is left out for a single share, since the minimum and a step must fit in the capacity. -/
def shareRequestPolicy (maxAlloc : Int64) : CapacityRequestPolicy :=
  if maxAlloc < 1 then { default := 1 }
  else
    { default := 1
      validRange := some
        { min := 1
          max := maxAlloc
          step := if 2 ≤ maxAlloc then some 1 else none } }

/-- The taints of a tracked device: one when it is unhealthy. -/
def deviceTaints (td : TrackedDevice) : List DeviceTaint :=
  if td.status = .unhealthy then
    [{ key := Consts.taintUnhealthy
       value := td.taintValue
       effect := .noExecute
       timeAdded := if td.taintedAt ≠ 0 then some td.taintedAt else none }]
  else []

/-- The attributes of a device. -/
def deviceAttributes (d : Device) : GoMap DeviceAttribute :=
  let attrs : GoMap DeviceAttribute := ∅
  let attrs := attrs.insert Consts.attrType (.stringValue d.type)
  let attrs := attrs.insert Consts.attrVendor (.stringValue d.vendor)
  let attrs := attrs.insert Consts.attrModel (.stringValue d.model)
  let attrs := attrs.insert Consts.attrKMD (.stringValue d.kmd)
  let attrs := attrs.insert Consts.attrDeviceNode (.stringValue d.deviceNode)
  let attrs :=
    if d.deviceGIDKnown then attrs.insert Consts.attrDeviceGID (.intValue d.deviceGID) else attrs
  let attrs := if d.soc ≠ "" then attrs.insert Consts.attrSoC (.stringValue d.soc) else attrs
  let attrs :=
    if 0 < d.coreCount then attrs.insert Consts.attrCoreCount (.intValue d.coreCount) else attrs
  let attrs :=
    if 0 < d.shaderCores then attrs.insert Consts.attrShaderCores (.intValue d.shaderCores)
    else attrs
  let attrs :=
    if d.function ≠ "" then attrs.insert Consts.attrFunction (.stringValue d.function) else attrs
  if d.block ≠ "" then attrs.insert Consts.attrBlock (.stringValue d.block) else attrs

/-- The published form of a tracked device. -/
def toResourceDevice (td : TrackedDevice) : ResourceDevice :=
  { name := td.name
    attributes := deviceAttributes td.toDevice
    allowMultipleAllocations := true
    capacity := (∅ : GoMap DeviceCapacity).insert Consts.capacityShares
      { value := td.maxAllocations, requestPolicy := shareRequestPolicy td.maxAllocations }
    taints := deviceTaints td }

/-- The devices sorted by name. -/
def sortByName (devices : List TrackedDevice) : List TrackedDevice :=
  Slices.sortFunc (fun a b => Slices.compareStrings a.name b.name) devices

/-- One pool, named after the node, of one slice with the devices sorted by name. -/
def devicesToResources (nodeName : String) (devices : List TrackedDevice) : DriverResources :=
  { pools := (∅ : GoMap Pool).insert nodeName
      { slices := [{ devices := (sortByName devices).map toResourceDevice }] } }

/-- All devices of the published resources. -/
def DriverResources.devices (r : DriverResources) : List ResourceDevice :=
  r.pools.toList.flatMap fun p => p.2.slices.flatMap Slice.devices

/-- A device is published with a `NoExecute` taint. -/
def DriverResources.Tainted (r : DriverResources) (name : String) : Prop :=
  ∃ d ∈ r.devices, d.name = name ∧ ∃ taint ∈ d.taints, taint.effect = .noExecute

/-- The pools of the resources of a node. -/
theorem devicesToResources_pools (nodeName : String) (devices : List TrackedDevice) :
    (devicesToResources nodeName devices).pools.toList =
      [(nodeName, { slices := [{ devices := (sortByName devices).map toResourceDevice }] })] := by
  -- The entries of a map are known only up to order, which one entry leaves no room for.
  apply List.Perm.eq_singleton
  apply (List.perm_ext_iff_of_nodup ?_ (List.nodup_singleton _)).mpr
  · rintro ⟨k, v⟩
    rw [Std.ExtTreeMap.mem_toList_iff_getElem?_eq_some, devicesToResources,
      Std.ExtTreeMap.getElem?_insert]
    by_cases hk : nodeName = k
    · simp [hk, eq_comm]
    · simp [hk, Ne.symm hk]
  · have h := Std.ExtTreeMap.nodup_keys (t := (devicesToResources nodeName devices).pools)
    rw [← Std.ExtTreeMap.map_fst_toList_eq_keys] at h
    exact List.Nodup.of_map _ h

/-- The published devices of a node are its tracked devices, sorted by name. -/
theorem devices_devicesToResources (nodeName : String) (devices : List TrackedDevice) :
    (devicesToResources nodeName devices).devices = (sortByName devices).map toResourceDevice := by
  unfold DriverResources.devices
  rw [devicesToResources_pools]
  simp

/-- A device is among the published ones of a node exactly when a tracked device has that form. -/
theorem mem_devices_devicesToResources (nodeName : String) (devices : List TrackedDevice)
    (d : ResourceDevice) :
    d ∈ (devicesToResources nodeName devices).devices ↔
      ∃ td ∈ devices, toResourceDevice td = d := by
  rw [devices_devicesToResources]
  simp [List.mem_map, sortByName, (Slices.sortFunc_perm _ devices).mem_iff]

end RockchipDra.Plugin
