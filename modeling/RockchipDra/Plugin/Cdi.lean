import RockchipDra.Plugin.Types
import RockchipDra.Go.Strings

/-!
# CDI specs of prepared claims

The pure part of `cmd/kubeletplugin/cdi.go`: the names of CDI devices and their container edits. One
spec file is written for each prepared claim, with one device for each prepared device.
-/

namespace RockchipDra.Plugin

open Go Discovery

/-- The class of the driver's CDI devices. -/
def cdiClass : String := "dra"

/-- The vendor of the driver's CDI devices. -/
def Flags.vendor (f : Flags) : String := "k8s." ++ f.driverName

/-- The kind of the driver's CDI specs. -/
def Flags.kind (f : Flags) : String := f.vendor ++ "/" ++ cdiClass

/-- `cdiparser.QualifiedName`. -/
def qualifiedName (vendor class_ name : String) : String := vendor ++ "/" ++ class_ ++ "=" ++ name

/-- The name of the CDI device of a claim's device. -/
def cdiDeviceName (claimUID deviceName shareID : String) : String :=
  let name := claimUID ++ "-" ++ deviceName
  if shareID ≠ "" then name ++ "-" ++ shareID else name

/-- A share identifier as text, empty where there is none. -/
def uidString (id : Option UID) : String := id.getD ""

/-- The CDI identifiers of a claim's device. -/
def getClaimDevices (f : Flags) (claimUID deviceName : String) (shareID : Option UID) :
    List String :=
  [qualifiedName f.vendor cdiClass (cdiDeviceName claimUID deviceName (uidString shareID))]

/-- What the environment variables of a device start with. -/
def cdiEnvPrefix (d : Device) : String :=
  let envName := "DRA_ROCKCHIP_" ++ Strings.toUpper d.type
  if d.block ≠ "" then envName ++ "_" ++ Strings.toUpper (Strings.replaceAll d.block '-' '_')
  else envName

/-- The container edits of a device. Its node is injected where it exists, except in mock mode. -/
def deviceEdits (stat : String → Option FileInfo) (d : Device) (mock : Bool) : ContainerEdits :=
  let env :=
    ["DRA_ROCKCHIP_SOC=" ++ d.soc,
     cdiEnvPrefix d ++ "_KMD=" ++ d.kmd,
     cdiEnvPrefix d ++ "_DEVICE=" ++ d.deviceNode]
  { env :=
      if d.deviceGIDKnown then env ++ [cdiEnvPrefix d ++ "_GID=" ++ toString d.deviceGID] else env
    deviceNodes :=
      if !mock && d.deviceNode ≠ "" && (stat d.deviceNode).isSome then
        [{ path := d.deviceNode, hostPath := d.deviceNode }]
      else [] }

/-- The CDI spec of a claim's prepared devices, without its version. -/
def claimSpec (f : Flags) (stat : String → Option FileInfo) (claimUID : String)
    (devices : List PreparedDevice) : Spec :=
  { kind := f.kind
    devices := devices.map fun device =>
      { name := cdiDeviceName claimUID device.deviceName (uidString device.shareID)
        containerEdits := deviceEdits stat device.discovered f.mock } }

end RockchipDra.Plugin
