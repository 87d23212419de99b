import RockchipDra.Plugin.Host
import RockchipDra.Plugin.Session

/-!
# Preparing a claim, all or nothing

A prepare goes through the results of this driver in order. It succeeds exactly when each of them
names a tracked device that is available, and a result that is not leaves everything as it was. Four
lists come out of one that succeeds: the prepared devices, the recorded snapshots, the devices of
the CDI spec, and the devices that the kubelet is told. Each of them has one entry for each result,
in order (`DeviceState.prepareResults_eq_ok_iff`).
-/

namespace RockchipDra.Plugin

open Go Discovery Effect

/-! ## The answer to the kubelet -/

/-- `kubeletplugin.Device`: a prepared device as the kubelet is told. -/
structure KubeletDevice where
  requests : List String
  poolName : String
  deviceName : String
  cdiDeviceIDs : List String
  shareID : Option UID
  deriving DecidableEq

/-- What the kubelet is told of a prepared device. -/
def PreparedDevice.kubeletDevice (pd : PreparedDevice) : KubeletDevice :=
  { requests := pd.requestNames
    poolName := pd.poolName
    deviceName := pd.deviceName
    cdiDeviceIDs := pd.cdiDeviceIDs
    shareID := pd.shareID }

/-- Prepare a claim for the kubelet. -/
def DeviceState.prepareResourceClaim (x : External) (s : DeviceState) (env : Env)
    (claim : ResourceClaim) : StoreM (List KubeletDevice) := do
  let preparedDevices ←
    wrapError ("error preparing devices for claim " ++ claim.uid) (s.prepare x env claim)
  return preparedDevices.map PreparedDevice.kubeletDevice

/-! ## Devices that can be prepared -/

/-- A tracked device can be prepared: it is not unhealthy, and outside mock mode its node, if it has
one, exists and is no directory. -/
structure DeviceState.Available (s : DeviceState) (stat : String → Option FileInfo)
    (td : TrackedDevice) : Prop where
  status : td.status ≠ .unhealthy
  node : s.flags.mock = true ∨ td.deviceNode = "" ∨
    ∃ info, stat td.deviceNode = some info ∧ info.isDir = false

/-- A node exists outside mock mode. -/
theorem DeviceState.deviceNodeExists_iff {s : DeviceState} (hmock : s.flags.mock = false)
    (stat : String → Option FileInfo) {path : String} (hpath : path ≠ "") :
    s.deviceNodeExists stat path = true ↔ ∃ info, stat path = some info ∧ info.isDir = false := by
  unfold DeviceState.deviceNodeExists
  cases stat path <;> simp [hmock, hpath]

/-- There is no reason against a device exactly when it is available. -/
theorem DeviceState.prepareError_eq_none_iff (s : DeviceState) (stat : String → Option FileInfo)
    (td : TrackedDevice) :
    prepareError td s.flags.mock (s.deviceNodeExists stat td.deviceNode) = none ↔
      s.Available stat td := by
  unfold prepareError
  -- One case for each reason against the device, and one without any.
  split_ifs with hstatus hnode
  · exact iff_of_false (by simp) fun h => h.status hstatus
  · simp only [Bool.and_eq_true, Bool.not_eq_true', decide_eq_true_eq] at hnode
    obtain ⟨⟨hmock, hpath⟩, hmissing⟩ := hnode
    refine iff_of_false (by simp) fun h => ?_
    rcases h.node with h | h | h
    · exact absurd (hmock.symm.trans h) Bool.false_ne_true
    · exact hpath h
    · rw [← deviceNodeExists_iff hmock stat hpath, hmissing] at h
      exact absurd h Bool.false_ne_true
  · refine iff_of_true rfl ⟨hstatus, ?_⟩
    by_cases hmock : s.flags.mock = true
    · exact .inl hmock
    by_cases hpath : td.deviceNode = ""
    · exact .inr (.inl hpath)
    · rw [Bool.not_eq_true] at hmock
      refine .inr (.inr ((deviceNodeExists_iff hmock stat hpath).mp ?_))
      simpa [hmock, hpath] using hnode

/-- The node of an available device is injected outside mock mode. -/
theorem DeviceState.Available.deviceNodes {s : DeviceState} {stat : String → Option FileInfo}
    {td : TrackedDevice} (h : s.Available stat td) (hmock : s.flags.mock = false)
    (hpath : td.deviceNode ≠ "") :
    (deviceEdits stat td.toDevice s.flags.mock).deviceNodes =
      [{ path := td.deviceNode, hostPath := td.deviceNode }] := by
  rcases h.node with h | h | ⟨info, hinfo, -⟩
  · exact absurd (hmock.symm.trans h) Bool.false_ne_true
  · exact absurd h hpath
  · simp [deviceEdits, hmock, hpath, hinfo]

/-! ## What a prepare leaves -/

/-- What a prepare of the given results, all of them this driver's, returns and leaves. -/
structure DeviceState.Prepares (x : External) (s : DeviceState) (env : Env) (claimUID : UID)
    (results : List AllocationResult) (devices : List PreparedDevice) (τ : Store) : Prop where
  /-- The prepared devices. -/
  prepared : List.Forall₂ (fun r p => p.requestNames = [r.request] ∧ p.poolName = r.pool ∧
    p.deviceName = r.device ∧ p.shareID = r.shareID ∧
    ∃ td, s.tracked[r.device]? = some td ∧ p.discovered = td.toDevice) results devices
  /-- The devices that the kubelet is told. -/
  kubelet : List.Forall₂ (fun r k => k.requests = [r.request] ∧ k.poolName = r.pool ∧
    k.deviceName = r.device ∧ k.shareID = r.shareID ∧
    k.cdiDeviceIDs = getClaimDevices s.flags claimUID r.device r.shareID) results
    (devices.map PreparedDevice.kubeletDevice)
  /-- The recorded snapshots. -/
  snapshots : ∃ devs, τ.claimDevices.claims[claimUID]? = some devs ∧
    List.Forall₂ (fun r d => ∃ td, s.tracked[r.device]? = some td ∧ d = td.toDevice) results devs
  /-- The devices of the CDI spec, with their nodes. -/
  spec : ∃ spec, τ.specs[specName x s.flags claimUID]? = some spec ∧ spec.kind = s.flags.kind ∧
    List.Forall₂ (fun r d => d.name = cdiDeviceName claimUID r.device (uidString r.shareID) ∧
      ∃ td, s.tracked[r.device]? = some td ∧
        d.containerEdits = deviceEdits env.stat td.toDevice s.flags.mock ∧
        (s.flags.mock = false → td.deviceNode ≠ "" → d.containerEdits.deviceNodes =
          [{ path := td.deviceNode, hostPath := td.deviceNode }])) results spec.devices
  /-- The claim is prepared. -/
  checkpoint : claimUID ∈ τ.checkpoint.preparedClaims

section Prepare

variable {x : External} {s : DeviceState} {env : Env} {claim : ResourceClaim} {σ τ : Store}

/-- The devices of the spec that is written are those that were built. -/
theorem devices_buildSpec {f : Flags} {stat : String → Option FileInfo} {uid : UID}
    {devices : List PreparedDevice} {spec : Spec} (h : buildSpec x f stat uid devices = .ok spec) :
    spec.kind = f.kind ∧ spec.devices = (claimSpec f stat uid devices).devices := by
  obtain ⟨version, rfl⟩ := buildSpec_eq_ok h
  exact ⟨rfl, rfl⟩

/-- The four lists that come out of a prepare. -/
theorem prepares_of_preparesAs {results : List AllocationResult} {devices : List PreparedDevice}
    {uid : UID} {spec : Spec} (hdevices : List.Forall₂ (s.PreparesAs env uid) results devices)
    (hspec : buildSpec x s.flags env.stat uid devices = .ok spec) :
    s.Prepares x env uid results devices
      (σ.prepared uid (deviceSnapshots devices) (specName x s.flags uid) spec) := by
  obtain ⟨hkind, hspecDevices⟩ := devices_buildSpec hspec
  -- Each list is a map over the prepared devices, which correspond to the results one by one.
  constructor
  · refine hdevices.imp ?_
    rintro r p ⟨td, htd, -, rfl⟩
    exact ⟨rfl, rfl, rfl, rfl, td, htd, rfl⟩
  · rw [List.forall₂_map_right_iff]
    refine hdevices.imp ?_
    rintro r p ⟨td, htd, -, rfl⟩
    exact ⟨rfl, rfl, rfl, rfl, rfl⟩
  · refine ⟨deviceSnapshots devices, Std.ExtTreeMap.getElem?_insert_self, ?_⟩
    unfold deviceSnapshots
    rw [List.forall₂_map_right_iff]
    refine hdevices.imp ?_
    rintro r p ⟨td, htd, -, rfl⟩
    exact ⟨td, htd, rfl⟩
  · refine ⟨spec, Std.ExtTreeMap.getElem?_insert_self, hkind, ?_⟩
    rw [hspecDevices]
    unfold claimSpec
    rw [List.forall₂_map_right_iff]
    refine hdevices.imp ?_
    rintro r p ⟨td, htd, herr, rfl⟩
    rw [DeviceState.prepareError_eq_none_iff] at herr
    exact ⟨rfl, td, htd, rfl, herr.deviceNodes⟩
  · exact (σ.checkpoint.mem_add uid uid).mpr (.inr rfl)

/-- The lists of a claim whose devices and spec can be built. -/
theorem prepares_of_computeDevices {devices : List PreparedDevice} {spec : Spec}
    (hdevices : s.computeDevices env claim = .ok devices)
    (hspec : buildSpec x s.flags env.stat claim.uid devices = .ok spec) (σ : Store) :
    ∃ results, claim.allocation = some results ∧
      s.Prepares x env claim.uid (ownResults s.flags.driverName results) devices
        (σ.prepared claim.uid (deviceSnapshots devices) (specName x s.flags claim.uid) spec) := by
  unfold DeviceState.computeDevices at hdevices
  cases hresults : claim.allocation with
  | none =>
    rw [hresults] at hdevices
    cases hdevices
  | some results =>
    rw [hresults] at hdevices
    have hforall := (s.prepareResults_eq_ok_iff env claim.uid results devices).mp hdevices
    exact ⟨results, rfl, prepares_of_preparesAs hforall hspec⟩

/-- What a prepare left is left as long as the stores hold the same of its claim. -/
theorem DeviceState.Prepares.congr {uid : UID} {results : List AllocationResult}
    {devices : List PreparedDevice} (h : s.Prepares x env uid results devices σ)
    (hclaim : τ.claim x s.flags uid = σ.claim x s.flags uid) :
    s.Prepares x env uid results devices τ := by
  simp only [Store.claim, Prod.mk.injEq, decide_eq_decide] at hclaim
  obtain ⟨hmem, hentry, hspec⟩ := hclaim
  exact ⟨h.prepared, h.kubelet, hentry ▸ h.snapshots, hspec ▸ h.spec, hmem.mpr h.checkpoint⟩

/-- The devices of a claim can be computed exactly when it is allocated and the devices of this
driver's results are available. -/
theorem exists_computeDevices_iff (s : DeviceState) (env : Env) (claim : ResourceClaim) :
    (∃ devices, s.computeDevices env claim = .ok devices) ↔
      ∃ results, claim.allocation = some results ∧
        ∀ r ∈ ownResults s.flags.driverName results,
          ∃ td, s.tracked[r.device]? = some td ∧ s.Available env.stat td := by
  unfold DeviceState.computeDevices
  cases claim.allocation with
  | none => simp
  | some results =>
    simp only [s.prepareResults_eq_ok_iff, Option.some.injEq, exists_eq_left',
      Slices.exists_forall₂_iff]
    refine forall_congr' fun r => imp_congr_right fun _ => ?_
    simp only [DeviceState.PreparesAs, s.prepareError_eq_none_iff]
    constructor
    · rintro ⟨p, td, htd, havailable, -⟩
      exact ⟨td, htd, havailable⟩
    · rintro ⟨td, htd, havailable⟩
      exact ⟨_, td, htd, havailable, rfl⟩

/-- What the kubelet is told of a prepare that succeeds. -/
theorem eval_prepareResourceClaim {devices : List PreparedDevice}
    (h : (Op.prepare env claim).execute x s σ = (.ok (.prepared devices), τ)) :
    (s.prepareResourceClaim x env claim).run.eval reliableStore (fun _ => ()) σ =
      (.ok (devices.map PreparedDevice.kubeletDevice), τ) := by
  unfold Op.execute Op.program at h
  rw [Fallible.eval_bind_pure] at h
  unfold DeviceState.prepareResourceClaim wrapError
  rw [Fallible.eval_bind_pure, Fallible.eval_mapError]
  -- Both programs go on from the same run of `prepare`.
  generalize (s.prepare x env claim).run.eval reliableStore (fun _ => ()) σ = r at h ⊢
  obtain ⟨e | devices', τ'⟩ := r
  · cases h
  · cases h
    rfl

end Prepare

/-- **Prepare is all or nothing, and exact.** Where the CDI library accepts the spec that is built,
a prepare without I/O errors succeeds if and only if the claim is allocated and every result of this
driver names a tracked device that is available. If it fails, it leaves the stores as they were. If
it succeeds, the prepared devices, the answer to the kubelet, the recorded snapshots, and the
devices of the CDI spec correspond to the results of this driver one by one. It never changes the
memory. -/
theorem prepare_exact (x : External) (s : DeviceState) (env : Env) (claim : ResourceClaim)
    (σ : Store) (hcdi : ∀ devices, s.computeDevices env claim = .ok devices →
      ∃ spec, buildSpec x s.flags env.stat claim.uid devices = .ok spec) :
    ((∃ out τ, (Op.prepare env claim).execute x s σ = (.ok out, τ)) ↔
      ∃ results, claim.allocation = some results ∧
        ∀ r ∈ ownResults s.flags.driverName results,
          ∃ td, s.tracked[r.device]? = some td ∧ s.Available env.stat td) ∧
    (∀ e τ, (Op.prepare env claim).execute x s σ = (.error e, τ) → τ = σ) ∧
    (∀ out τ, (Op.prepare env claim).execute x s σ = (.ok out, τ) →
      ∃ results devices, claim.allocation = some results ∧ out = .prepared devices ∧
        s.Prepares x env claim.uid (ownResults s.flags.driverName results) devices τ ∧
        (s.prepareResourceClaim x env claim).run.eval reliableStore (fun _ => ()) σ =
          (.ok (devices.map PreparedDevice.kubeletDevice), τ)) ∧
    (∀ r τ, (Op.prepare env claim).execute x s σ = (r, τ) → resultMemory s r = s) := by
  rw [← exists_computeDevices_iff]
  -- Without I/O errors only the computation of the devices can fail, before any write.
  cases hdevices : s.computeDevices env claim with
  | error e =>
    rw [execute_prepare_error hdevices]
    refine ⟨iff_of_false ?_ ?_, ?_, ?_, ?_⟩
    · rintro ⟨out, τ, ⟨⟩⟩
    · rintro ⟨devices, ⟨⟩⟩
    · rintro e τ ⟨⟩
      rfl
    · rintro out τ ⟨⟩
    · rintro r τ ⟨⟩
      rfl
  | ok devices =>
    obtain ⟨spec, hspec⟩ := hcdi devices hdevices
    have hexec := execute_prepare (σ := σ) hdevices hspec
    have hanswer := eval_prepareResourceClaim hexec
    rw [hexec]
    refine ⟨iff_of_true ⟨_, _, rfl⟩ ⟨devices, rfl⟩, ?_, ?_, ?_⟩
    · rintro e τ ⟨⟩
    · rintro out τ ⟨⟩
      obtain ⟨results, hresults, hprepares⟩ := prepares_of_computeDevices hdevices hspec σ
      exact ⟨results, devices, hresults, rfl, hprepares, hanswer⟩
    · rintro r τ ⟨⟩
      rfl

/-- The memory of a process on the host that has found both decoders. -/
def hostState : DeviceState :=
  ((freshState hostFlags).reconcileFrom plainExternal (hostEnv 0 bothNodes) bothFound {}).2

/-- A claim for one of the decoders. -/
theorem prepare_exact_decoder : ∃ out τ,
    (Op.prepare (hostEnv 1 bothNodes) (hostClaim "a" "vpu-rkvdec-0")).execute plainExternal
      hostState {} = (.ok out, τ) := by
  refine (prepare_exact plainExternal _ _ _ _ fun _ _ => ⟨_, rfl⟩).1.mpr ⟨_, rfl, fun r hr => ?_⟩
  obtain rfl : r = ⟨"r", hostFlags.driverName, hostFlags.nodeName, "vpu-rkvdec-0", none⟩ := by
    simpa using List.mem_of_mem_filter hr
  refine ⟨{ hostDecoder "vpu-rkvdec-0" "/dev/video1" with
    status := .healthy
    nodeSeen := true }, ?_, ?_⟩
  · decide +kernel
  · exact ⟨by decide, .inr (.inr ⟨{}, by decide, rfl⟩)⟩

end RockchipDra.Plugin
