import RockchipDra.Go.Json.Codec
import RockchipDra.Plugin.Types

/-!
# The contents of the files

`checkpoint.json` and `claim-devices.json` as bytes. The structs have the keys of their tags, and a
device, which has no tags, has its field names as keys. What was written is read back, and no part
of a checkpoint that lacks its end can be read.
-/

namespace RockchipDra.Plugin

open Go Discovery Json

/-- The fields of a device. -/
def deviceFields : List (StructField Device) :=
  [.of "Name" .string Device.name fun d s => { d with name := s },
    .of "Type" .string Device.type fun d s => { d with type := s },
    .of "SoC" .string Device.soc fun d s => { d with soc := s },
    .of "Vendor" .string Device.vendor fun d s => { d with vendor := s },
    .of "Model" .string Device.model fun d s => { d with model := s },
    .of "KMD" .string Device.kmd fun d s => { d with kmd := s },
    .of "CoreCount" .int64 Device.coreCount fun d i => { d with coreCount := i },
    .of "ShaderCores" .int64 Device.shaderCores fun d i => { d with shaderCores := i },
    .of "DeviceNode" .string Device.deviceNode fun d s => { d with deviceNode := s },
    .of "MaxAllocations" .int64 Device.maxAllocations fun d i => { d with maxAllocations := i },
    .of "Function" .string Device.function fun d s => { d with function := s },
    .of "Block" .string Device.block fun d s => { d with block := s },
    .of "DeviceGID" .int64 Device.deviceGID fun d i => { d with deviceGID := i },
    .of "DeviceGIDKnown" .bool Device.deviceGIDKnown fun d b => { d with deviceGIDKnown := b }]

/-- Setting the fields of a device one after the other gives the device. -/
theorem deviceFields_set (d : Device) :
    deviceFields.foldlM (fun e f => f.set e (f.get d)) ({} : Device) = .ok d := by
  -- Each field still has its zero value when it is set.
  iterate 14 refine (foldlM_set_of (by rfl)).trans ?_
  rfl

/-- `discovery.Device` in JSON. -/
def deviceCodec : Codec Device := .struct deviceFields {} (by decide +kernel) deviceFields_set

/-- `checkpoint` in JSON. -/
def checkpointCodec : Codec Checkpoint :=
  .struct [.of "preparedClaims" (.slice .string) Checkpoint.slice fun _ s => { slice := s }] {}
    (by decide +kernel) fun cp => foldlM_set_of rfl

/-- `claimDevicesFile` in JSON. -/
def claimDevicesCodec : Codec ClaimDevicesFile :=
  .struct [.of "claims" (.map (.list deviceCodec)) ClaimDevicesFile.claims
    fun _ claims => { claims := claims }] {} (by decide +kernel) fun file => foldlM_set_of rfl

/-- The text of a checkpoint. -/
def Checkpoint.marshal (cp : Checkpoint) : Bytes := checkpointCodec.marshalIndent cp

/-- The text of the claim devices, which ends with a line break. -/
def ClaimDevicesFile.marshal (file : ClaimDevicesFile) : Bytes :=
  claimDevicesCodec.marshalIndent file ++ [0x0a]

/-- The checkpoint in a file. A file that does not exist is an empty checkpoint. -/
def decodeCheckpoint : Option Bytes → Except String Checkpoint
  | none => .ok {}
  | some data => checkpointCodec.unmarshal data

/-- The claim devices in a file. A file that does not exist has none. -/
def decodeClaimDevices : Option Bytes → Except String ClaimDevicesFile
  | none => .ok {}
  | some data => claimDevicesCodec.unmarshal data

/-- A checkpoint is read as it was written. -/
theorem decodeCheckpoint_marshal (cp : Checkpoint) :
    decodeCheckpoint (some cp.marshal) = .ok cp := by
  have hspace : ∀ b ∈ ([] : Bytes), isSpace b = true := by simp
  have h := checkpointCodec.unmarshal_marshalIndent cp hspace
  rw [List.append_nil] at h
  exact h

/-- The claim devices are read as they were written. -/
theorem decodeClaimDevices_marshal (file : ClaimDevicesFile) :
    decodeClaimDevices (some file.marshal) = .ok file :=
  claimDevicesCodec.unmarshal_marshalIndent file (by simp [isSpace])

/-- A checkpoint of which only a part was written is not read. -/
theorem decodeCheckpoint_take (cp : Checkpoint) {k : ℕ} (hk : k < cp.marshal.length) :
    decodeCheckpoint (some (cp.marshal.take k)) = .error syntaxError :=
  checkpointCodec.unmarshal_take rfl hk

end RockchipDra.Plugin
