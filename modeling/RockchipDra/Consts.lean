/-!
# The constants of `pkg/consts`

The driver's own identity, the attribute and taint texts that it publishes, and the texts that
discovery compares with what it reads from sysfs.
-/

namespace RockchipDra.Consts

/-- The capacity that caps the claims of one shared device. -/
def capacityShares : String := "shares"

/-- The share cap of a GPU that no flag overrides. -/
def defaultGPUMaxAllocations : Int64 := 8

/-- The share cap of a VPU that no flag overrides: one claim owns the node. -/
def defaultVPUMaxAllocations : Int64 := 1

/-- The share cap of an RGA that no flag overrides. -/
def defaultRGAMaxAllocations : Int64 := 1

/-- The key of the taint on a device that lost its kernel driver or its char device. -/
def taintUnhealthy : String := "dra.rockchip.com/unhealthy"

/-- The taint value of a char device that disappeared after it had been present. -/
def taintValueNodeMissing : String := "node-missing"

/-- The taint value of a device that is no longer enumerated while a claim is prepared. -/
def taintValueNotDiscovered : String := "not-discovered"

/-! ## Attribute names -/

def attrType : String := "type"
def attrSoC : String := "soc"
def attrVendor : String := "vendor"
def attrModel : String := "model"
def attrKMD : String := "kmd"
def attrCoreCount : String := "coreCount"
def attrShaderCores : String := "shaderCores"
def attrDeviceNode : String := "deviceNode"
def attrDeviceGID : String := "deviceGid"
def attrFunction : String := "function"
def attrBlock : String := "block"

/-! ## Device types, kernel drivers, functions, blocks, and vendors -/

def typeNPU : String := "npu"
def typeGPU : String := "gpu"
def typeVPU : String := "vpu"
def typeRGA : String := "rga"

def kmdRocket : String := "rocket"
def kmdPanthor : String := "panthor"
def kmdRkvdec : String := "rkvdec"
def kmdHantro : String := "hantro-vpu"
def kmdRGA : String := "rockchip-rga"

def functionDecode : String := "decode"
def functionEncode : String := "encode"

def blockRkvdec : String := "rkvdec"
def blockHantroDec : String := "hantro-dec"
def blockHantroEnc : String := "hantro-enc"
def blockHantroAV1 : String := "hantro-av1"

def vendorRockchip : String := "rockchip"
def vendorARM : String := "arm"

end RockchipDra.Consts
