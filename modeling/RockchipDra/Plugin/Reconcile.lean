import RockchipDra.Plugin.Devices

/-!
# Deciding the health and the set of the tracked devices

The pure part of `cmd/kubeletplugin/reconcile.go`. `nextTracked` is the map that a reconcile builds
from what it found, what it tracked before, and the snapshots of the prepared claims.
`getElem?_nextTracked` says what it holds under each name: the assessment of the device that was
found last under that name, or else the retained entry of a claimed device. Everything that is
proved about reconciles starts from this equation.
-/

namespace RockchipDra.Plugin

open Go Discovery

/-- The kubelet's device-health timeout, in nanoseconds. -/
def healthLease : ℕ := 30 * 10 ^ 9

/-- Whether a device node exists. Mock devices always do; a device without a node never does. -/
def DeviceState.deviceNodeExists (s : DeviceState) (stat : String → Option FileInfo)
    (path : String) : Bool :=
  if s.flags.mock || path == "" then s.flags.mock
  else
    match stat path with
    | none => false
    | some info => !info.isDir

/-- Mark a device unhealthy. The time of a taint that it already has is kept. -/
def markUnavailable (now : Time) (td : TrackedDevice) (value message : String) : TrackedDevice :=
  { td with
    status := .unhealthy
    message := message
    taintValue := value
    taintedAt := if td.taintedAt = 0 then now else td.taintedAt }

/-- The entry of an enumerated device, from its previous entry and whether its node exists. -/
def assessEnumerated (now : Time) (d : Device) (prev : Option TrackedDevice) (nodeOK : Bool) :
    TrackedDevice :=
  let td : TrackedDevice := { toDevice := d }
  let td :=
    match prev with
    | none => td
    | some prev => { td with nodeSeen := prev.nodeSeen, taintedAt := prev.taintedAt }
  -- A healthy entry has an empty message, which `td` has from the start.
  if nodeOK then
    { td with nodeSeen := true, status := .healthy, taintedAt := 0, taintValue := "" }
  else if td.nodeSeen then
    markUnavailable now td Consts.taintValueNodeMissing "device node missing"
  else
    { td with
      status := .unknown
      message := "device node not yet present"
      taintedAt := 0
      taintValue := "" }

/-- The entry of a device that is retained for a claim, from its previous entry. After a restart
there is none, and the snapshot taken when the claim was prepared stands in for it. -/
def retainedEntry (now : Time) (prev : Option TrackedDevice) (snap : Device) : TrackedDevice :=
  let prev := prev.getD { toDevice := snap }
  { markUnavailable now prev Consts.taintValueNotDiscovered "device no longer discovered" with
    retained := true }

/-- One turn of the loop that prunes: the entry of a claim that is not prepared is deleted. -/
def pruneStep (cp : Checkpoint) (acc : Bool × ClaimDevicesFile) (uid : UID) :
    Bool × ClaimDevicesFile :=
  if uid ∈ cp.preparedClaims then acc else (true, { claims := acc.2.claims.erase uid })

/-- Drop the entries of claims that are not prepared. The flag tells whether there were any. -/
def pruneClaimDevices (o : MapOrder Loop) (cp : Checkpoint) (file : ClaimDevicesFile) :
    Bool × ClaimDevicesFile :=
  if file.claims.isEmpty then (false, file)
  else (o.order .pruneClaimDevices file.claims.keys).foldl (pruneStep cp) (false, file)

/-- The devices recorded for prepared claims, by name. -/
def claimedSnapshots (o : MapOrder Loop) (cp : Checkpoint) (file : ClaimDevicesFile) :
    GoMap Device :=
  (o.order .claimedSnapshots file.claims.keys).foldl (fun out uid =>
    if uid ∈ cp.preparedClaims then
      (file.claims.getD uid []).foldl (fun out d =>
        if d.name = "" then out else out.insert d.name d) out
    else out) ∅

/-- The devices found, by name. -/
def foundByName (found : List Device) : GoMap Device :=
  found.foldl (fun m d => m.insert d.name d) ∅

/-- The tracked devices after a reconcile. -/
def DeviceState.nextTracked (s : DeviceState) (env : Env) (found : List Device)
    (snapshots : GoMap Device) : GoMap TrackedDevice :=
  let next : GoMap TrackedDevice := found.foldl (fun next d => next.insert d.name
    (assessEnumerated env.now d s.tracked[d.name]? (s.deviceNodeExists env.stat d.deviceNode))) ∅
  -- What was found takes precedence over every snapshot of the same name.
  (env.order.order .snapshots snapshots.keys).foldl (fun next name =>
    if name ∈ foundByName found then next
    else
      match snapshots[name]? with
      | none => next
      | some snap => next.insert name (retainedEntry env.now s.tracked[name]? snap)) next

/-- The tracked devices as a list, in the order of the loop over the map. -/
def trackedList (o : MapOrder Loop) (m : GoMap TrackedDevice) : List TrackedDevice :=
  (o.order .trackedList m.keys).filterMap fun name => m[name]?

/-- Whether two maps report the same health, by the devices of the first. -/
def healthEqual (o : MapOrder Loop) (a b : GoMap TrackedDevice) : Bool :=
  -- With equal sizes it is enough to go through the names of one map.
  if a.size ≠ b.size then false
  else
    (o.order .healthEqual a.keys).all fun name =>
      match a[name]?, b[name]? with
      | some da, some db => da.status = db.status && da.message = db.message
      | _, _ => false

/-- Whether two sets of resources have the same JSON. -/
def resourcesEqual (x : External) (a b : DriverResources) : Bool :=
  -- Resources that cannot be marshalled count as changed.
  match x.marshalResources a, x.marshalResources b with
  | .ok aj, .ok bj => aj == bj
  | _, _ => false

/-- What a reconcile reports. -/
structure ReconcileResult where
  resourcesChanged : Bool
  healthChanged : Bool
  resources : DriverResources
  deriving DecidableEq

/-- The last part of a reconcile: compare the new map with the old one and take it over. -/
def DeviceState.publishNext (x : External) (s : DeviceState) (env : Env)
    (next : GoMap TrackedDevice) : ReconcileResult × DeviceState :=
  let resources := devicesToResources s.flags.nodeName (trackedList env.order next)
  ({ resourcesChanged := !resourcesEqual x s.driverResources resources
     healthChanged := !healthEqual env.order s.tracked next
     resources := resources },
   { s with tracked := next, driverResources := resources })

/-- The health of every tracked device, for the kubelet. -/
def DeviceState.healthReport (s : DeviceState) (env : Env) : List DeviceHealth :=
  (trackedList env.order s.tracked).map fun td =>
    { poolName := s.flags.nodeName
      deviceName := td.name
      health := if td.status = .unset then .unknown else td.status
      lastUpdated := env.now
      healthCheckTimeout := healthLease
      message := td.message }

/-- Why a tracked device cannot be prepared. -/
def prepareError (td : TrackedDevice) (mock nodeExists : Bool) : Option String :=
  if td.status = .unhealthy then
    some ("device " ++ td.name ++ " is unhealthy (" ++ Consts.taintUnhealthy ++ "=" ++
      td.taintValue ++ "): " ++ td.message)
  else if !mock && td.deviceNode ≠ "" && !nodeExists then
    some ("device " ++ td.name ++ " node " ++ td.deviceNode ++ " is not available")
  else none

/-! ## Entries describe the device that was assessed -/

@[simp] theorem markUnavailable_toDevice (now : Time) (td : TrackedDevice)
    (value message : String) :
    (markUnavailable now td value message).toDevice = td.toDevice := rfl

@[simp] theorem assessEnumerated_toDevice (now : Time) (d : Device) (prev : Option TrackedDevice)
    (nodeOK : Bool) : (assessEnumerated now d prev nodeOK).toDevice = d := by
  unfold assessEnumerated
  cases prev <;> dsimp only <;> split_ifs <;> rfl

@[simp] theorem retainedEntry_toDevice (now : Time) (prev : Option TrackedDevice) (snap : Device) :
    (retainedEntry now prev snap).toDevice = (prev.map TrackedDevice.toDevice).getD snap := by
  cases prev <;> rfl

/-! ## What the loops compute -/

/-- The device found last under a name. -/
def lastFound (found : List Device) (name : String) : Option Device :=
  found.reverse.find? fun d => d.name = name

/-- The device found last under a name has that name and was found. -/
theorem lastFound_eq_some {found : List Device} {name : String} {d : Device}
    (h : lastFound found name = some d) : d ∈ found ∧ d.name = name := by
  unfold lastFound at h
  have hname := List.find?_some h
  have hmem := List.mem_of_find?_eq_some h
  exact ⟨List.mem_reverse.mp hmem, by simpa using hname⟩

/-- A name is found exactly when a device of that name is. -/
theorem lastFound_isSome (found : List Device) (name : String) :
    (lastFound found name).isSome ↔ name ∈ found.map Device.name := by
  unfold lastFound
  rw [List.find?_isSome]
  simp

theorem getElem?_foundByName (found : List Device) (name : String) :
    (foundByName found)[name]? = lastFound found name := by
  simpa [foundByName, lastFound] using Maps.getElem?_foldl_insert Device.name id found ∅ name

/-- The entry under a name after a reconcile: the assessment of the device found last under it, or
else the retained entry of its snapshot. -/
theorem getElem?_nextTracked (s : DeviceState) (env : Env) (found : List Device)
    (snapshots : GoMap Device) (name : String) :
    (s.nextTracked env found snapshots)[name]? =
      match lastFound found name with
      | some d => some (assessEnumerated env.now d s.tracked[name]?
          (s.deviceNodeExists env.stat d.deviceNode))
      | none => (snapshots[name]?).map (retainedEntry env.now s.tracked[name]?) := by
  -- The second loop inserts at most one entry under each of its keys.
  let f : String → Option TrackedDevice := fun name =>
    if name ∈ foundByName found then none
    else (snapshots[name]?).map (retainedEntry env.now s.tracked[name]?)
  have hloop : ∀ next : GoMap TrackedDevice, ∀ name : String,
      (if name ∈ foundByName found then next
        else match snapshots[name]? with
          | none => next
          | some snap => next.insert name (retainedEntry env.now s.tracked[name]? snap))
      = (f name).elim next (next.insert name) := by
    intro next name
    by_cases hname : name ∈ foundByName found
    · simp [f, hname]
    · cases hsnap : snapshots[name]? <;> simp [f, hname, hsnap]
  -- Both loops are now folds of insertions, whose entries are known.
  unfold DeviceState.nextTracked
  simp only [hloop]
  rw [Maps.getElem?_foldl_update f, Maps.getElem?_foldl_insert]
  simp only [Maps.mem_order]
  have hfound : name ∈ foundByName found ↔ (lastFound found name).isSome := by
    rw [Std.ExtTreeMap.mem_iff_isSome_getElem?, getElem?_foundByName]
  change (if name ∈ snapshots then (f name).or (((lastFound found name).map _).or ∅[name]?)
    else ((lastFound found name).map _).or ∅[name]?) = _
  cases hlast : lastFound found name with
  | some d =>
    have hname := (lastFound_eq_some hlast).2
    have hf : f name = none := by
      simp only [f]
      rw [if_pos (hfound.mpr (by rw [hlast]; rfl))]
    simp [hf, hname]
  | none =>
    have hf : f name = (snapshots[name]?).map (retainedEntry env.now s.tracked[name]?) := by
      simp only [f]
      rw [if_neg]
      rw [hfound, hlast]
      simp
    by_cases hsnap : name ∈ snapshots
    · simp [hf, hsnap]
    · simp [hsnap]

/-- The flag of the pruning loop is set by the first claim that is not prepared. -/
theorem foldl_pruneStep_fst (cp : Checkpoint) (l : List UID) (acc : Bool × ClaimDevicesFile) :
    (l.foldl (pruneStep cp) acc).1 =
      (acc.1 || l.any fun uid => decide (uid ∉ cp.preparedClaims)) := by
  induction l generalizing acc with
  | nil => simp
  | cons uid l ih =>
    rw [List.foldl_cons, ih, List.any_cons]
    unfold pruneStep
    by_cases huid : uid ∈ cp.preparedClaims <;> simp [huid]

/-- The entries left by the pruning loop. -/
theorem foldl_pruneStep_snd (cp : Checkpoint) (l : List UID) (acc : Bool × ClaimDevicesFile) :
    (l.foldl (pruneStep cp) acc).2.claims =
      l.foldl (fun m uid => if decide (uid ∈ cp.preparedClaims) then m else m.erase uid)
        acc.2.claims := by
  induction l generalizing acc with
  | nil => rfl
  | cons uid l ih =>
    rw [List.foldl_cons, List.foldl_cons, ih]
    unfold pruneStep
    by_cases huid : uid ∈ cp.preparedClaims <;> simp [huid]

/-- What pruning leaves: the entries of the prepared claims. -/
theorem getElem?_pruneClaimDevices (o : MapOrder Loop) (cp : Checkpoint) (file : ClaimDevicesFile)
    (uid : UID) : (pruneClaimDevices o cp file).2.claims[uid]? =
      if uid ∈ cp.preparedClaims then file.claims[uid]? else none := by
  unfold pruneClaimDevices
  split_ifs with hempty huid huid
  · rfl
  · rw [Std.ExtTreeMap.isEmpty_iff] at hempty
    simp [hempty]
  · rw [foldl_pruneStep_snd, Maps.getElem?_foldl_erase]
    simp [huid]
  · rw [foldl_pruneStep_snd, Maps.getElem?_foldl_erase]
    simp only [Maps.mem_order]
    by_cases hmem : uid ∈ file.claims
    · simp [huid, hmem]
    · simp [hmem]

/-- Pruning reports a change exactly when the file has a claim that is not prepared. -/
theorem pruneClaimDevices_fst (o : MapOrder Loop) (cp : Checkpoint) (file : ClaimDevicesFile) :
    (pruneClaimDevices o cp file).1 = true ↔ ∃ uid ∈ file.claims, uid ∉ cp.preparedClaims := by
  unfold pruneClaimDevices
  split_ifs with hempty
  · rw [Std.ExtTreeMap.isEmpty_iff] at hempty
    simp [hempty]
  · rw [foldl_pruneStep_fst]
    simp [Maps.mem_order]

/-- Where pruning finds nothing to drop, it leaves the file as it is. -/
theorem pruneClaimDevices_unchanged {o : MapOrder Loop} {cp : Checkpoint} {file : ClaimDevicesFile}
    (h : ¬(pruneClaimDevices o cp file).1 = true) : (pruneClaimDevices o cp file).2 = file := by
  rw [pruneClaimDevices_fst] at h
  -- Every entry of the file belongs to a prepared claim, and such entries are kept.
  have hclaims : (pruneClaimDevices o cp file).2.claims = file.claims := by
    refine Std.ExtTreeMap.ext_getElem? fun uid => ?_
    rw [getElem?_pruneClaimDevices]
    split_ifs with huid
    · rfl
    · have hmem : uid ∉ file.claims := fun hmem => h ⟨uid, hmem, huid⟩
      rw [Std.ExtTreeMap.getElem?_eq_none hmem]
  calc (pruneClaimDevices o cp file).2 = ⟨(pruneClaimDevices o cp file).2.claims⟩ := rfl
    _ = file := by rw [hclaims]

/-- The prepared claims' devices with a name, in the order in which they are merged. -/
def claimedDevices (o : MapOrder Loop) (cp : Checkpoint) (file : ClaimDevicesFile) : List Device :=
  (o.order .claimedSnapshots file.claims.keys).flatMap fun uid =>
    if uid ∈ cp.preparedClaims then (file.claims.getD uid []).filter (·.name ≠ "") else []

/-- The devices that prepared claims recorded. -/
theorem mem_claimedDevices (o : MapOrder Loop) (cp : Checkpoint) (file : ClaimDevicesFile)
    (d : Device) : d ∈ claimedDevices o cp file ↔
      d.name ≠ "" ∧ ∃ uid ∈ cp.preparedClaims, ∃ devs, file.claims[uid]? = some devs ∧
        d ∈ devs := by
  unfold claimedDevices
  rw [List.mem_flatMap]
  constructor
  · rintro ⟨uid, huid, hd⟩
    rw [Maps.mem_order] at huid
    split_ifs at hd with hprep
    · obtain ⟨hd, hname⟩ := List.mem_filter.mp hd
      refine ⟨by simpa using hname, uid, hprep, file.claims.getD uid [], ?_, hd⟩
      rw [Std.ExtTreeMap.getD_eq_getD_getElem?] at hd ⊢
      obtain ⟨devs, hdevs⟩ := Option.isSome_iff_exists.mp
        (Std.ExtTreeMap.mem_iff_isSome_getElem?.mp huid)
      rw [hdevs]
      rfl
    · simp at hd
  · rintro ⟨hname, uid, hprep, devs, hdevs, hd⟩
    refine ⟨uid, ?_, ?_⟩
    · rw [Maps.mem_order, Std.ExtTreeMap.mem_iff_isSome_getElem?, hdevs]
      rfl
    · rw [if_pos hprep, Std.ExtTreeMap.getD_eq_getD_getElem?, hdevs]
      simp [hd, hname]

/-- The snapshots are the claimed devices, the one merged last under each name. -/
theorem getElem?_claimedSnapshots (o : MapOrder Loop) (cp : Checkpoint) (file : ClaimDevicesFile)
    (name : String) :
    (claimedSnapshots o cp file)[name]? = lastFound (claimedDevices o cp file) name := by
  -- The inner loop passes over devices without a name.
  have hskip : ∀ (l : List Device) (out : GoMap Device),
      l.foldl (fun out d => if d.name = "" then out else out.insert d.name d) out
      = (l.filter (·.name ≠ "")).foldl (fun out d => out.insert d.name d) out := by
    intro l
    induction l with
    | nil => intro out; rfl
    | cons d l ih =>
      intro out
      by_cases hd : d.name = "" <;> simp [hd, ih]
  -- The two nested loops are one loop over the concatenated lists.
  have hfold : ∀ (l : List UID) (out : GoMap Device),
      l.foldl (fun out uid =>
        if uid ∈ cp.preparedClaims then
          (file.claims.getD uid []).foldl (fun out d =>
            if d.name = "" then out else out.insert d.name d) out
        else out) out
      = (l.flatMap fun uid => if uid ∈ cp.preparedClaims then
          (file.claims.getD uid []).filter (·.name ≠ "") else []).foldl
            (fun out d => out.insert d.name d) out := by
    intro l
    induction l with
    | nil => intro out; rfl
    | cons uid l ih =>
      intro out
      rw [List.foldl_cons, List.flatMap_cons, List.foldl_append, ih]
      by_cases huid : uid ∈ cp.preparedClaims <;> simp only [huid, if_true, if_false, hskip,
        List.foldl_nil]
  unfold claimedSnapshots
  rw [hfold]
  exact getElem?_foundByName (claimedDevices o cp file) name

/-- Two maps report the same health exactly when they have the same names, with the same status and
message under each. -/
theorem healthEqual_iff (o : MapOrder Loop) (a b : GoMap TrackedDevice) :
    healthEqual o a b = true ↔ ∀ name : String,
      (a[name]?).map (fun td => (td.status, td.message)) =
        (b[name]?).map (fun td => (td.status, td.message)) := by
  -- What the loop says, for the names of the first map.
  have hkeys : healthEqual o a b = true ↔ a.size = b.size ∧ ∀ name ∈ a,
      (a[name]?).map (fun td => (td.status, td.message)) =
        (b[name]?).map (fun td => (td.status, td.message)) := by
    unfold healthEqual
    split_ifs with hsize
    · exact iff_of_false id fun h => hsize h.1
    · rw [not_not] at hsize
      rw [List.all_eq_true]
      simp only [Maps.mem_order, hsize, true_and]
      refine forall_congr' fun name => imp_congr_right fun hname => ?_
      obtain ⟨da, hda⟩ :=
        Option.isSome_iff_exists.mp (Std.ExtTreeMap.mem_iff_isSome_getElem?.mp hname)
      rw [hda]
      cases b[name]? with
      | none => simp
      | some db => simp
  rw [hkeys]
  constructor
  · rintro ⟨hsize, hall⟩ name
    by_cases hname : name ∈ a
    · exact hall name hname
    · -- The names of `a` are names of `b`, and there are as many.
      have hsub : a.keys.Subperm b.keys := by
        refine Std.ExtTreeMap.nodup_keys.subperm fun n hn => ?_
        rw [Std.ExtTreeMap.mem_keys] at hn ⊢
        have h := congrArg Option.isSome (hall n hn)
        rw [Option.isSome_map, Option.isSome_map, Std.ExtTreeMap.mem_iff_isSome_getElem?.mp hn] at h
        exact Std.ExtTreeMap.mem_iff_isSome_getElem?.mpr h.symm
      have hperm : a.keys.Perm b.keys := by
        refine hsub.perm_of_length_le ?_
        rw [Std.ExtTreeMap.length_keys, Std.ExtTreeMap.length_keys, hsize]
      have hname' : name ∉ b := by
        rw [← Std.ExtTreeMap.mem_keys, ← hperm.mem_iff, Std.ExtTreeMap.mem_keys]
        exact hname
      rw [Std.ExtTreeMap.getElem?_eq_none hname, Std.ExtTreeMap.getElem?_eq_none hname']
  · intro h
    refine ⟨?_, fun name _ => h name⟩
    have hperm : a.keys.Perm b.keys := by
      refine (List.perm_ext_iff_of_nodup Std.ExtTreeMap.nodup_keys Std.ExtTreeMap.nodup_keys).mpr ?_
      intro name
      rw [Std.ExtTreeMap.mem_keys, Std.ExtTreeMap.mem_keys, Std.ExtTreeMap.mem_iff_isSome_getElem?,
        Std.ExtTreeMap.mem_iff_isSome_getElem?]
      have hname := congrArg Option.isSome (h name)
      rw [Option.isSome_map, Option.isSome_map] at hname
      rw [hname]
    rw [← Std.ExtTreeMap.length_keys, ← Std.ExtTreeMap.length_keys, hperm.length_eq]

/-- Every entry stands under the name of its device. -/
def Keyed (m : GoMap TrackedDevice) : Prop :=
  ∀ (name : String) (td : TrackedDevice), m[name]? = some td → td.name = name

/-- A reconcile keeps the entries under the names of their devices. -/
theorem nextTracked_keyed {s : DeviceState} (hs : Keyed s.tracked) (env : Env) (found : List Device)
    (o : MapOrder Loop) (cp : Checkpoint) (file : ClaimDevicesFile) :
    Keyed (s.nextTracked env found (claimedSnapshots o cp file)) := by
  intro name td htd
  rw [getElem?_nextTracked, getElem?_claimedSnapshots] at htd
  cases hfound : lastFound found name with
  | some d =>
    rw [hfound] at htd
    obtain rfl := Option.some.inj htd
    rw [assessEnumerated_toDevice]
    exact (lastFound_eq_some hfound).2
  | none =>
    rw [hfound] at htd
    obtain ⟨snap, hsnap, rfl⟩ := Option.map_eq_some_iff.mp htd
    rw [retainedEntry_toDevice]
    -- A retained entry is the previous one, and only without it the snapshot.
    cases hprev : s.tracked[name]? with
    | some prev => exact hs name prev hprev
    | none => exact (lastFound_eq_some hsnap).2

/-- The entries of the list of tracked devices. -/
theorem mem_trackedList (o : MapOrder Loop) (m : GoMap TrackedDevice) (td : TrackedDevice) :
    td ∈ trackedList o m ↔ ∃ name : String, m[name]? = some td := by
  unfold trackedList
  rw [List.mem_filterMap]
  constructor
  · rintro ⟨name, -, h⟩
    exact ⟨name, h⟩
  · rintro ⟨name, h⟩
    refine ⟨name, ?_, h⟩
    rw [Maps.mem_order, Std.ExtTreeMap.mem_iff_isSome_getElem?, h]
    rfl

end RockchipDra.Plugin
