import RockchipDra.Effect.Storage
import RockchipDra.Plugin.Cdi
import RockchipDra.Plugin.Reconcile

/-!
# Preparing, unpreparing, and reconciling

The operations of `cmd/kubeletplugin/state.go` and `reconcile.go` as programs over the stores: the
checkpoint, the claim devices, and the CDI specs. A program issues one command for each read and
each write of a store, in the order of the source, and stops at the first error. What happens
between two commands (a crash, a write of another process) and inside one (a fault) is left to the
machine that runs the program.

Log lines and metrics are left out.
-/

namespace RockchipDra.Plugin

open Go Discovery Effect

/-! ## Store commands -/

/-- The reads of the stores. -/
inductive StoreRead where
  | checkpoint
  | claimDevices

/-- What a read gives. -/
@[reducible] def StoreRead.Value : StoreRead → Type
  | .checkpoint => Checkpoint
  | .claimDevices => ClaimDevicesFile

/-- The writes of the stores. -/
inductive StoreWrite where
  | checkpoint (cp : Checkpoint)
  | claimDevices (file : ClaimDevicesFile)
  | spec (name : String) (spec : Spec)
  | removeSpec (name : String)

/-- The answers to the reads and writes of the stores. -/
abbrev StoreAnswer := Access.Answer (W := StoreWrite) StoreRead.Value

/-- Programs over the stores that can fail with an error text. -/
abbrev StoreM := StorageM StoreWrite StoreRead.Value

/-- Read the checkpoint. -/
def readCheckpoint : StoreM Checkpoint := StorageM.read StoreRead.checkpoint

/-- Write the checkpoint. -/
def writeCheckpoint (cp : Checkpoint) : StoreM Unit := StorageM.write (.checkpoint cp)

/-- Read the claim devices. -/
def readClaimDevices : StoreM ClaimDevicesFile := StorageM.read StoreRead.claimDevices

/-- Replace the claim devices. -/
def writeClaimDevices (file : ClaimDevicesFile) : StoreM Unit := StorageM.write (.claimDevices file)

/-- `fmt.Errorf("...: %w", err)`: the error of a program with a text before it. -/
def wrapError {α : Type} (text : String) (p : StoreM α) : StoreM α :=
  Fallible.mapError (fun e => text ++ ": " ++ e) p

/-! ## CDI specs -/

/-- The name of the spec file of a claim. -/
def specName (x : External) (f : Flags) (claimUID : UID) : String :=
  x.transientSpecName f.vendor cdiClass claimUID

/-- The spec files of two claims with plain UIDs have different names. -/
theorem specName_inj {x : External} (hx : x.NamesApart) {f : Flags} {u v : UID} (hu : PlainID u)
    (hv : PlainID v) : specName x f u = specName x f v ↔ u = v :=
  (hx f.vendor cdiClass).eq_iff hu hv

/-- The spec of a claim with its version, or the error of the CDI library that refuses it. -/
def buildSpec (x : External) (f : Flags) (stat : String → Option FileInfo) (claimUID : UID)
    (devices : List PreparedDevice) : Except String Spec :=
  let spec := claimSpec f stat claimUID devices
  match x.minimumRequiredVersion spec with
  | .error e => .error ("failed to get minimum required CDI spec version: " ++ e)
  | .ok version =>
    match x.refusesSpec { spec with version := version } with
    | some e => .error e
    | none => .ok { spec with version := version }

/-- A spec that is built is the spec of the devices with a version. -/
theorem buildSpec_eq_ok {x : External} {f : Flags} {stat : String → Option FileInfo} {u : UID}
    {devices : List PreparedDevice} {spec : Spec} (h : buildSpec x f stat u devices = .ok spec) :
    ∃ version, spec = { claimSpec f stat u devices with version := version } := by
  unfold buildSpec at h
  dsimp only at h
  split at h
  · cases h
  · split at h
    · cases h
    · exact ⟨_, (Except.ok.inj h).symm⟩

/-- Write the CDI spec of a claim. -/
def createClaimSpecFile (x : External) (f : Flags) (stat : String → Option FileInfo)
    (claimUID : UID) (devices : List PreparedDevice) : StoreM Unit := do
  let spec ← Fallible.ofExcept (buildSpec x f stat claimUID devices)
  StorageM.write (.spec (specName x f claimUID) spec)

/-- Remove the CDI spec of a claim. -/
def deleteClaimSpecFile (x : External) (f : Flags) (claimUID : UID) : StoreM Unit :=
  StorageM.write (.removeSpec (specName x f claimUID))

/-! ## Prepare and Unprepare -/

/-- The prepared device of an allocation result for a tracked device. -/
def preparedDevice (f : Flags) (claimUID : UID) (r : AllocationResult) (td : TrackedDevice) :
    PreparedDevice :=
  { requestNames := [r.request]
    poolName := r.pool
    deviceName := r.device
    cdiDeviceIDs := getClaimDevices f claimUID r.device r.shareID
    shareID := r.shareID
    discovered := td.toDevice }

/-- The prepared devices of this driver's results, in order; the first result that cannot be
prepared ends the loop. -/
def DeviceState.prepareResults (s : DeviceState) (env : Env) (claimUID : UID) :
    List AllocationResult → Except String (List PreparedDevice)
  | [] => .ok []
  | r :: rs =>
    -- The results of other drivers are passed over.
    if r.driver ≠ s.flags.driverName then s.prepareResults env claimUID rs
    else
      match s.tracked[r.device]? with
      | none => .error ("requested device is not allocatable: " ++ r.device)
      | some td =>
        match prepareError td s.flags.mock (s.deviceNodeExists env.stat td.deviceNode) with
        | some e => .error e
        | none =>
          match s.prepareResults env claimUID rs with
          | .error e => .error e
          | .ok rest => .ok (preparedDevice s.flags claimUID r td :: rest)

/-- The devices that a claim is to be prepared with. -/
def DeviceState.computeDevices (s : DeviceState) (env : Env) (claim : ResourceClaim) :
    Except String (List PreparedDevice) :=
  match claim.allocation with
  | none => .error "claim not yet allocated"
  | some results => s.prepareResults env claim.uid results

/-- A result is prepared as `p`: it names a tracked device that can be prepared. -/
def DeviceState.PreparesAs (s : DeviceState) (env : Env) (claimUID : UID) (r : AllocationResult)
    (p : PreparedDevice) : Prop :=
  ∃ td, s.tracked[r.device]? = some td ∧
    prepareError td s.flags.mock (s.deviceNodeExists env.stat td.deviceNode) = none ∧
    p = preparedDevice s.flags claimUID r td

/-- The results of one driver. -/
def ownResults (driverName : String) (results : List AllocationResult) : List AllocationResult :=
  results.filter (·.driver = driverName)

/-- The loop succeeds with the devices that this driver's results are prepared as, one by one. -/
theorem DeviceState.prepareResults_eq_ok_iff (s : DeviceState) (env : Env) (uid : UID)
    (results : List AllocationResult) (devices : List PreparedDevice) :
    s.prepareResults env uid results = .ok devices ↔
      List.Forall₂ (s.PreparesAs env uid) (ownResults s.flags.driverName results) devices := by
  induction results generalizing devices with
  | nil =>
    change Except.ok [] = Except.ok devices ↔ List.Forall₂ _ [] devices
    rw [Except.ok.injEq, List.forall₂_nil_left_iff, eq_comm]
  | cons r rs ih =>
    rw [prepareResults]
    split_ifs with hdriver
    · rw [ih]
      simp [ownResults, hdriver]
    · have hown : ownResults s.flags.driverName (r :: rs) =
          r :: ownResults s.flags.driverName rs := by
        simp [ownResults, not_not.mp hdriver]
      rw [hown, List.forall₂_cons_left_iff]
      -- The result is this driver's: its device is tracked and available, or the loop ends here.
      simp only [← ih, PreparesAs]
      cases htd : s.tracked[r.device]? with
      | none => simp
      | some td =>
        cases herr : prepareError td s.flags.mock (s.deviceNodeExists env.stat td.deviceNode) with
        | some e => simp [herr]
        | none => cases s.prepareResults env uid rs <;> simp [herr, eq_comm]

/-- Every prepared device belongs to a result for a tracked device that can be prepared. -/
theorem DeviceState.mem_prepareResults {s : DeviceState} {env : Env} {uid : UID}
    {results : List AllocationResult} {devices : List PreparedDevice}
    (h : s.prepareResults env uid results = .ok devices) {p : PreparedDevice} (hp : p ∈ devices) :
    ∃ r ∈ results, s.PreparesAs env uid r p := by
  rw [s.prepareResults_eq_ok_iff] at h
  obtain ⟨r, hr, hrp⟩ := Slices.exists_of_forall₂ h hp
  exact ⟨r, List.mem_of_mem_filter hr, hrp⟩

/-- The devices of prepared devices, as they are recorded. -/
def deviceSnapshots (prepared : List PreparedDevice) : List Device :=
  prepared.map PreparedDevice.discovered

/-- The CDI identifiers of prepared devices are those of their claim. -/
theorem DeviceState.cdiDeviceIDs_of_computeDevices {s : DeviceState} {env : Env}
    {claim : ResourceClaim} {devices : List PreparedDevice}
    (h : s.computeDevices env claim = .ok devices) {p : PreparedDevice} (hp : p ∈ devices) :
    p.cdiDeviceIDs = getClaimDevices s.flags claim.uid p.deviceName p.shareID := by
  unfold DeviceState.computeDevices at h
  cases hresults : claim.allocation with
  | none =>
    rw [hresults] at h
    cases h
  | some results =>
    rw [hresults] at h
    obtain ⟨r, -, td, -, -, rfl⟩ := DeviceState.mem_prepareResults h hp
    rfl

/-- A recorded device is the device of a tracked entry that can be prepared. -/
theorem DeviceState.mem_deviceSnapshots {s : DeviceState} {env : Env} {claim : ResourceClaim}
    {devices : List PreparedDevice} (h : s.computeDevices env claim = .ok devices) {d : Device}
    (hd : d ∈ deviceSnapshots devices) :
    ∃ (name : String) (td : TrackedDevice), s.tracked[name]? = some td ∧ td.toDevice = d ∧
      prepareError td s.flags.mock (s.deviceNodeExists env.stat td.deviceNode) = none := by
  obtain ⟨p, hp, rfl⟩ := List.mem_map.mp hd
  unfold DeviceState.computeDevices at h
  cases hresults : claim.allocation with
  | none =>
    rw [hresults] at h
    cases h
  | some results =>
    rw [hresults] at h
    obtain ⟨r, -, td, htd, herr, rfl⟩ := DeviceState.mem_prepareResults h hp
    exact ⟨r.device, td, htd, rfl, herr⟩

/-- Record the devices of a claim. -/
def recordClaimDevicesLocked (uid : UID) (devs : List Device) : StoreM Unit := do
  let file ← readClaimDevices
  writeClaimDevices { claims := file.claims.insert uid devs }

/-- Forget the devices of a claim. -/
def deleteClaimDevicesLocked (uid : UID) : StoreM Unit := do
  let file ← readClaimDevices
  if uid ∈ file.claims then
    writeClaimDevices { claims := file.claims.erase uid }

/-- Prepare a claim. The snapshot is recorded before the claim enters the checkpoint. -/
def DeviceState.prepare (x : External) (s : DeviceState) (env : Env) (claim : ResourceClaim) :
    StoreM (List PreparedDevice) := do
  let cp ← wrapError "unable to read checkpoint" readCheckpoint
  let prepared ← Fallible.ofExcept (s.computeDevices env claim)
  wrapError "unable to create CDI spec file for claim"
    (createClaimSpecFile x s.flags env.stat claim.uid prepared)
  wrapError "unable to record prepared devices"
    (recordClaimDevicesLocked claim.uid (deviceSnapshots prepared))
  -- A claim that is prepared already gets its spec and its snapshot again, but no second entry.
  if claim.uid ∉ cp.preparedClaims then
    wrapError "unable to write checkpoint" (writeCheckpoint (cp.append claim.uid))
  return prepared

/-- Unprepare a claim. It leaves the checkpoint before its snapshot is forgotten. -/
def DeviceState.unprepare (x : External) (s : DeviceState) (claimUID : UID) : StoreM Unit := do
  let cp ← wrapError "unable to read checkpoint" readCheckpoint
  wrapError "unable to delete CDI spec file for claim" (deleteClaimSpecFile x s.flags claimUID)
  wrapError "unable to write checkpoint" (writeCheckpoint (cp.delete claimUID))
  wrapError "unable to forget prepared devices" (deleteClaimDevicesLocked claimUID)

/-! ## Reconcile -/

/-- Update the tracked devices from what was found. -/
def DeviceState.applyDiscoveryLocked (x : External) (s : DeviceState) (env : Env)
    (found : List Device) : StoreM (ReconcileResult × DeviceState) := do
  let cp ← wrapError "read checkpoint" readCheckpoint
  let claims ← wrapError "read claim devices" readClaimDevices
  let pruned := pruneClaimDevices env.order cp claims
  -- The file is written only if something was pruned.
  if pruned.1 then
    wrapError "prune claim devices" (writeClaimDevices pruned.2)
  let snapshots := claimedSnapshots env.order cp pruned.2
  return s.publishNext x env (s.nextTracked env found snapshots)

/-- The memory of a process before its first reconcile. -/
def freshState (f : Flags) : DeviceState := { flags := f }

/-- The operations on a running plugin. A reconcile comes with what `Enumerate` returned. -/
inductive Op where
  | prepare (env : Env) (claim : ResourceClaim)
  | unprepare (uid : UID)
  | reconcile (env : Env) (found : List Device)

/-- A prepare. -/
def Op.isPrepare : Op → Bool
  | .prepare _ _ => true
  | .unprepare _ => false
  | .reconcile _ _ => false

/-- A reconcile. -/
def Op.isReconcile : Op → Bool
  | .prepare _ _ => false
  | .unprepare _ => false
  | .reconcile _ _ => true

/-- The claim that an operation is for. -/
def Op.uid : Op → Option UID
  | .prepare _ claim => some claim.uid
  | .unprepare uid => some uid
  | .reconcile _ _ => none

/-- An operation on a claim with a plain UID, or a reconcile. -/
def Op.Plain (op : Op) : Prop := ∀ uid ∈ op.uid, PlainID uid

/-- What an operation that succeeds returns. -/
inductive Outcome where
  | prepared (devices : List PreparedDevice)
  | unprepared
  | reconciled (result : ReconcileResult) (next : DeviceState)

/-- The program of an operation on the memory `s`. -/
def Op.program (x : External) (s : DeviceState) : Op → StoreM Outcome
  | .prepare env claim => do return .prepared (← s.prepare x env claim)
  | .unprepare uid => do
    s.unprepare x uid
    return .unprepared
  | .reconcile env found => do
    let r ← s.applyDiscoveryLocked x env found
    return .reconciled r.1 r.2

/-- The memory after an operation that succeeds: only a reconcile changes it. -/
def Outcome.memory (s : DeviceState) : Outcome → DeviceState
  | .prepared _ => s
  | .unprepared => s
  | .reconciled _ next => next

end RockchipDra.Plugin
