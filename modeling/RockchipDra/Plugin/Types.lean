import RockchipDra.Discovery.Types
import RockchipDra.Go.Maps

/-!
# The data of the kubelet plugin

The types of `cmd/kubeletplugin`: what a claim asks for, what is remembered of it, the tracked
devices with their health, and what is published. Of the Kubernetes and CDI types they have the
fields that the plugin reads or sets. Go's nil and empty slices are one value here, except for the
slice of the checkpoint, where the JSON tells them apart.

Code of third parties that the plugin calls is the structure `External`: functions of which nothing
is known beyond the documented behaviour that its fields state.
-/

namespace RockchipDra.Plugin

open Go Discovery

/-- `types.UID`. -/
abbrev UID := String

/-- `time.Time`, as the nanoseconds since the zero time. -/
abbrev Time := ℕ

/-! ## Claims -/

/-- One result of an allocation: a device of a driver for a request. -/
structure AllocationResult where
  request : String
  driver : String
  pool : String
  device : String
  shareID : Option UID := none
  deriving DecidableEq

/-- A resource claim, with the results of its allocation where it is allocated. -/
structure ResourceClaim where
  uid : UID
  allocation : Option (List AllocationResult)
  deriving DecidableEq

/-- A device prepared for a claim. -/
structure PreparedDevice where
  requestNames : List String
  poolName : String
  deviceName : String
  cdiDeviceIDs : List String
  shareID : Option UID
  discovered : Device
  deriving DecidableEq

/-- The file `checkpoint.json`: the slice of the prepared claims, where `none` is nil. -/
structure Checkpoint where
  slice : Option (List UID) := none
  deriving DecidableEq

/-- The prepared claims of a checkpoint. -/
def Checkpoint.preparedClaims (cp : Checkpoint) : List UID := cp.slice.getD []

/-- A claim appended to the prepared ones. -/
def Checkpoint.append (cp : Checkpoint) (uid : UID) : Checkpoint :=
  { slice := some (cp.preparedClaims ++ [uid]) }

/-- The prepared claims without one of them (`slices.DeleteFunc`). -/
def Checkpoint.delete (cp : Checkpoint) (uid : UID) : Checkpoint :=
  { slice := cp.slice.map fun claims => claims.filter (· ≠ uid) }

@[simp] theorem Checkpoint.preparedClaims_empty : ({} : Checkpoint).preparedClaims = [] := rfl

@[simp] theorem Checkpoint.preparedClaims_append (cp : Checkpoint) (uid : UID) :
    (cp.append uid).preparedClaims = cp.preparedClaims ++ [uid] := rfl

@[simp] theorem Checkpoint.preparedClaims_delete (cp : Checkpoint) (uid : UID) :
    (cp.delete uid).preparedClaims = cp.preparedClaims.filter (· ≠ uid) := by
  unfold Checkpoint.preparedClaims Checkpoint.delete
  cases cp.slice <;> rfl

theorem Checkpoint.delete_delete (cp : Checkpoint) (uid : UID) :
    (cp.delete uid).delete uid = cp.delete uid := by
  unfold Checkpoint.delete
  cases cp.slice with
  | none => rfl
  | some claims => simp [List.filter_filter]

/-- The file `claim-devices.json`: the devices of each claim when it was prepared. -/
structure ClaimDevicesFile where
  claims : GoMap (List Device) := ∅
  deriving DecidableEq

/-! ## Health -/

/-- `kubeletplugin.HealthStatus`; `unset` is the empty string of a zero value. -/
inductive HealthStatus where
  | unset
  | healthy
  | unhealthy
  | unknown
  deriving DecidableEq

/-- A discovered device and the health that the plugin last decided for it. -/
structure TrackedDevice extends Device where
  status : HealthStatus := .unset
  message : String := ""
  /-- The char device has been present at some reconcile. -/
  nodeSeen : Bool := false
  taintedAt : Time := 0
  taintValue : String := ""
  /-- No longer enumerated, and published for a prepared claim. -/
  retained : Bool := false
  deriving DecidableEq

/-- The health of one device in a report to the kubelet. -/
structure DeviceHealth where
  poolName : String
  deviceName : String
  health : HealthStatus
  lastUpdated : Time
  healthCheckTimeout : ℕ
  message : String
  deriving DecidableEq

/-! ## Published resources -/

/-- The value of a device attribute. -/
inductive DeviceAttribute where
  | stringValue (s : String)
  | intValue (i : Int64)
  deriving DecidableEq

/-- The range of a capacity request. -/
structure CapacityRequestPolicyRange where
  min : Int64
  max : Int64
  step : Option Int64 := none
  deriving DecidableEq

/-- How much of a capacity a claim may request. -/
structure CapacityRequestPolicy where
  default : Int64
  validRange : Option CapacityRequestPolicyRange := none
  deriving DecidableEq

/-- A capacity of a device. -/
structure DeviceCapacity where
  value : Int64
  requestPolicy : CapacityRequestPolicy
  deriving DecidableEq

/-- The effect of a taint. -/
inductive TaintEffect where
  | noSchedule
  | noExecute
  deriving DecidableEq

/-- A taint of a device. -/
structure DeviceTaint where
  key : String
  value : String
  effect : TaintEffect
  timeAdded : Option Time := none
  deriving DecidableEq

/-- `resourceapi.Device`: a device as it is published. -/
structure ResourceDevice where
  name : String
  attributes : GoMap DeviceAttribute
  allowMultipleAllocations : Bool
  capacity : GoMap DeviceCapacity
  taints : List DeviceTaint := []
  deriving DecidableEq

/-- `resourceslice.Slice`. -/
structure Slice where
  devices : List ResourceDevice
  deriving DecidableEq

/-- `resourceslice.Pool`. -/
structure Pool where
  slices : List Slice
  deriving DecidableEq

/-- `resourceslice.DriverResources`: what the driver publishes. -/
structure DriverResources where
  pools : GoMap Pool := ∅
  deriving DecidableEq

/-! ## CDI specs -/

/-- A device node injected into a container. -/
structure DeviceNodeEdit where
  path : String
  hostPath : String
  deriving DecidableEq

/-- The edits of one CDI device to a container. -/
structure ContainerEdits where
  env : List String
  deviceNodes : List DeviceNodeEdit := []
  deriving DecidableEq

/-- One device of a CDI spec. -/
structure SpecDevice where
  name : String
  containerEdits : ContainerEdits
  deriving DecidableEq

/-- A CDI spec. -/
structure Spec where
  version : String := ""
  kind : String
  devices : List SpecDevice
  deriving DecidableEq

/-! ## The plugin's state and what it calls -/

/-- The flags of a plugin process. -/
structure Flags where
  driverName : String
  nodeName : String
  mock : Bool := false
  discCfg : Config := {}
  deriving DecidableEq

/-- The memory of a plugin process. -/
structure DeviceState where
  flags : Flags
  driverResources : DriverResources := {}
  tracked : GoMap TrackedDevice := ∅
  deriving DecidableEq

/-- The loops of the plugin over maps. -/
inductive Loop where
  | pruneClaimDevices
  | claimedSnapshots
  | snapshots
  | trackedList
  | healthEqual
  deriving DecidableEq

/-- What one operation of the plugin finds outside: the answers of `os.Stat` on device nodes, the
clock, and the orders of the loops over maps. `time.Now` is never the zero time. The operation is
taken to read the clock once, while `markUnavailable` reads it for each device, so that the times of
one reconcile can be apart by as long as its loop takes. -/
structure Env where
  stat : String → Option FileInfo
  now : Time
  now_ne_zero : now ≠ 0
  order : MapOrder Loop

/-- The functions of third parties that the plugin calls. -/
structure External where
  /-- `json.Marshal` of the published resources, which has the third parties' own methods. -/
  marshalResources : DriverResources → Except String (List UInt8)
  /-- `cdispec.MinimumRequiredVersion`. -/
  minimumRequiredVersion : Spec → Except String String
  /-- The file that the CDI library keeps a spec in: `cdiapi.GenerateTransientSpecName` of a vendor,
  a class, and an identifier, with the extension that the library adds. -/
  transientSpecName : String → String → String → String
  /-- The validation of `cdiapi.Cache.WriteSpec`: the error of a spec that it refuses. -/
  refusesSpec : Spec → Option String

/-- An identifier that the CDI library takes over into the name of a file as it is. It replaces the
slashes of an identifier, and leaves an extension of its own in place. -/
structure PlainID (id : String) : Prop where
  slash : '/' ∉ id.toList
  yaml : ¬".yaml".toList <:+ id.toList
  json : ¬".json".toList <:+ id.toList

instance (id : String) : Decidable (PlainID id) :=
  decidable_of_iff ('/' ∉ id.toList ∧ ¬".yaml".toList <:+ id.toList ∧ ¬".json".toList <:+ id.toList)
    ⟨fun h => ⟨h.1, h.2.1, h.2.2⟩, fun h => ⟨h.slash, h.yaml, h.json⟩⟩

/-- The CDI library keeps one spec file for each plain identifier, as the UIDs of claims are. -/
def External.NamesApart (x : External) : Prop :=
  ∀ vendor class_, Set.InjOn (x.transientSpecName vendor class_) {id | PlainID id}

end RockchipDra.Plugin
