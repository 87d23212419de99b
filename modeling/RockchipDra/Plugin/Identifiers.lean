import RockchipDra.Discovery.Names
import RockchipDra.Plugin.Prepare

/-!
# CDI identifiers

The name of a CDI device joins the UID of the claim, the name of the device, and the share
identifier if there is one, with dashes, and all three may have dashes inside. Such names are told
apart because the names of enumerated devices are decoded uniquely in front of a dash
(`cdiDeviceName_inj`). UIDs of equal length are told apart by their length alone
(`cdiDeviceName_ne`).
-/

namespace RockchipDra.Plugin

open Go Discovery Effect

/-! ## Decoding names -/

/-- What follows the device in a name: nothing, or a dash and the share identifier. -/
def shareSuffix (shareID : String) : List Char := if shareID = "" then [] else '-' :: shareID.toList

theorem cdiDeviceName_toList (claimUID deviceName shareID : String) :
    (cdiDeviceName claimUID deviceName shareID).toList =
      claimUID.toList ++ ('-' :: (deviceName.toList ++ shareSuffix shareID)) := by
  unfold cdiDeviceName shareSuffix
  by_cases h : shareID = "" <;> simp [h]

theorem shareSuffix_head (shareID : String) : ∀ c ∈ (shareSuffix shareID).head?, ¬c.isDigit := by
  unfold shareSuffix
  split_ifs
  · simp
  · simp

theorem shareSuffix_inj {a b : String} (h : shareSuffix a = shareSuffix b) : a = b := by
  unfold shareSuffix at h
  split_ifs at h with ha hb hb
  · rw [ha, hb]
  · rw [List.cons.injEq, String.toList_inj] at h
    exact h.2

/-- In the names of one claim, a device with a proper name and its share identifier are read off. -/
theorem cdiDeviceName_inj {uid d d' share share' : String} (hd : IsDeviceName d)
    (hd' : IsDeviceName d') (h : cdiDeviceName uid d share = cdiDeviceName uid d' share') :
    d = d' ∧ share = share' := by
  have hlist := congrArg String.toList h
  rw [cdiDeviceName_toList, cdiDeviceName_toList] at hlist
  have htail := (List.cons.inj (List.append_cancel_left hlist)).2
  obtain ⟨hname, hsuffix⟩ :=
    hd.append_inj hd' (shareSuffix_head share) (shareSuffix_head share') htail
  exact ⟨hname, shareSuffix_inj hsuffix⟩

/-- Two texts of equal length, in characters or in bytes. -/
def SameLength (u v : String) : Prop := u.length = v.length ∨ u.utf8ByteSize = v.utf8ByteSize

/-- Texts of equal length that start a common text are equal. -/
theorem eq_of_append_eq {u v : String} (hlen : SameLength u v) {r r' : List Char}
    (h : u.toList ++ r = v.toList ++ r') : u = v := by
  -- Of two texts that start one text, one starts the other, and nothing follows in it.
  have heq : ∀ {u v : String}, SameLength u v → u.toList <+: v.toList → u = v := by
    rintro u v hlen ⟨w, hw⟩
    have hv : v = u ++ String.ofList w := by
      rw [← String.toList_inj, String.toList_append, String.toList_ofList, hw]
    have hw : String.ofList w = "" := by
      rcases hlen with hlen | hlen
      · rw [hv, String.length_append] at hlen
        exact String.length_eq_zero_iff.mp (by omega)
      · rw [hv, String.utf8ByteSize_append] at hlen
        exact String.utf8ByteSize_eq_zero_iff.mp (by omega)
    rw [hv, hw, String.append_empty]
  have hp : u.toList <+: v.toList ++ r' := ⟨r, h⟩
  rcases List.prefix_or_prefix_of_prefix hp (List.prefix_append v.toList r') with hp | hp
  · exact heq hlen hp
  · exact (heq (hlen.imp Eq.symm Eq.symm) hp).symm

/-- The names of two claims whose UIDs have equal length differ. -/
theorem cdiDeviceName_ne {u v : String} (huv : u ≠ v) (hlen : SameLength u v)
    (d d' share share' : String) : cdiDeviceName u d share ≠ cdiDeviceName v d' share' := by
  intro h
  have hlist := congrArg String.toList h
  rw [cdiDeviceName_toList, cdiDeviceName_toList] at hlist
  exact huv (eq_of_append_eq hlen hlist)

/-- Share identifiers that are not empty are told apart by their texts. -/
theorem uidString_inj {a b : Option UID} (ha : a ≠ some "") (hb : b ≠ some "")
    (h : uidString a = uidString b) : a = b := by
  cases a with
  | none =>
    cases b with
    | none => rfl
    | some b => exact absurd (congrArg some h.symm) hb
  | some a =>
    cases b with
    | none => exact absurd (congrArg some h) ha
    | some b => exact congrArg some h

/-! ## The identifiers of a claim -/

section Claim

variable {x : External} {s : DeviceState} {env : Env} {uid : UID} {results : List AllocationResult}
  {devices : List PreparedDevice}

/-- The devices and shares of prepared devices are those of this driver's results. -/
theorem map_device_prepareResults (h : s.prepareResults env uid results = .ok devices) :
    devices.map (fun p => (p.deviceName, p.shareID)) =
      (ownResults s.flags.driverName results).map fun r => (r.device, r.shareID) := by
  rw [s.prepareResults_eq_ok_iff] at h
  rw [eq_comm, ← List.forall₂_eq_eq_eq, List.forall₂_map_left_iff, List.forall₂_map_right_iff]
  refine h.imp ?_
  rintro r p ⟨td, -, -, rfl⟩
  rfl

/-- The identifiers of a prepared device. -/
theorem cdiDeviceIDs_prepareResults (h : s.prepareResults env uid results = .ok devices)
    {p : PreparedDevice} (hp : p ∈ devices) :
    p.cdiDeviceIDs = getClaimDevices s.flags uid p.deviceName p.shareID := by
  obtain ⟨r, -, td, -, -, rfl⟩ := DeviceState.mem_prepareResults h hp
  rfl

/-- The name of the CDI device of a prepared device. -/
def PreparedDevice.cdiName (uid : UID) (p : PreparedDevice) : String :=
  cdiDeviceName uid p.deviceName (uidString p.shareID)

/-- The names in a spec. -/
theorem map_name_buildSpec {f : Flags} {stat : String → Option FileInfo} {spec : Spec}
    (h : buildSpec x f stat uid devices = .ok spec) :
    spec.devices.map SpecDevice.name = devices.map (PreparedDevice.cdiName uid) := by
  rw [(devices_buildSpec h).2, claimSpec, List.map_map]
  rfl

/-- Prepared devices with proper names and different devices or shares have different CDI names. -/
theorem map_cdiName_nodup (hnames : ∀ p ∈ devices, IsDeviceName p.deviceName)
    (hshares : ∀ p ∈ devices, p.shareID ≠ some "")
    (hpairs : (devices.map fun p => (p.deviceName, p.shareID)).Nodup) :
    (devices.map (PreparedDevice.cdiName uid)).Nodup := by
  rw [List.Nodup, List.pairwise_map] at hpairs ⊢
  refine hpairs.imp_of_mem ?_
  intro p q hp hq hne heq
  obtain ⟨hname, hshare⟩ := cdiDeviceName_inj (hnames p hp) (hnames q hq) heq
  have hid := uidString_inj (hshares p hp) (hshares q hq) hshare
  exact hne (Prod.ext hname hid)

end Claim

/-- **CDI identifiers resolve uniquely.** For results whose devices have the names of an
enumeration, whose share identifiers are not empty, and no two of which have both in common, the
names in the CDI spec of the claim are all different. The CDI identifier of each prepared device is
the kind of the spec and the name of one device in it, the one with the edits of the prepared
device. The specs of two claims with UIDs of equal length have no name in common. -/
theorem cdi_identifiers_unique (x : External) (s : DeviceState) (env : Env) (uid : UID)
    (results : List AllocationResult) (devices : List PreparedDevice) (spec : Spec)
    (hdevices : s.prepareResults env uid results = .ok devices)
    (hspec : buildSpec x s.flags env.stat uid devices = .ok spec)
    (hnames : ∀ r ∈ ownResults s.flags.driverName results, IsDeviceName r.device)
    (hshares : ∀ r ∈ ownResults s.flags.driverName results, r.shareID ≠ some "")
    (hpairs : ((ownResults s.flags.driverName results).map fun r => (r.device, r.shareID)).Nodup) :
    (spec.devices.map SpecDevice.name).Nodup ∧
    (∀ p ∈ devices, ∃ d ∈ spec.devices, p.cdiDeviceIDs = [spec.kind ++ "=" ++ d.name] ∧
      d.containerEdits = deviceEdits env.stat p.discovered s.flags.mock ∧
      ∀ d' ∈ spec.devices, p.cdiDeviceIDs = [spec.kind ++ "=" ++ d'.name] → d' = d) ∧
    (∀ (v : UID) (f : Flags) (stat : String → Option FileInfo) (others : List PreparedDevice)
      (spec' : Spec), uid ≠ v → SameLength uid v → buildSpec x f stat v others = .ok spec' →
      (spec.devices.map SpecDevice.name).Disjoint (spec'.devices.map SpecDevice.name)) := by
  -- The hypotheses on the results carry over to the prepared devices.
  have hmap := map_device_prepareResults hdevices
  have hresult : ∀ p ∈ devices, ∃ r ∈ ownResults s.flags.driverName results,
      r.device = p.deviceName ∧ r.shareID = p.shareID := by
    intro p hp
    have hmem : (p.deviceName, p.shareID) ∈ devices.map fun p => (p.deviceName, p.shareID) :=
      List.mem_map_of_mem hp
    rw [hmap] at hmem
    simpa using hmem
  have hnodup : (spec.devices.map SpecDevice.name).Nodup := by
    rw [map_name_buildSpec hspec]
    refine map_cdiName_nodup ?_ ?_ (hmap ▸ hpairs)
    · intro p hp
      obtain ⟨r, hr, hname, -⟩ := hresult p hp
      exact hname ▸ hnames r hr
    · intro p hp
      obtain ⟨r, hr, -, hshare⟩ := hresult p hp
      exact hshare ▸ hshares r hr
  obtain ⟨hkind, hspecDevices⟩ := devices_buildSpec hspec
  refine ⟨hnodup, ?_, ?_⟩
  · intro p hp
    have hid : p.cdiDeviceIDs = [spec.kind ++ "=" ++ p.cdiName uid] := by
      rw [cdiDeviceIDs_prepareResults hdevices hp, hkind]
      rfl
    refine ⟨⟨p.cdiName uid, deviceEdits env.stat p.discovered s.flags.mock⟩, ?_, hid, rfl, ?_⟩
    · rw [hspecDevices]
      exact List.mem_map_of_mem hp
    · intro d hd hd'
      refine List.inj_on_of_nodup_map hnodup hd ?_ ?_
      · rw [hspecDevices]
        exact List.mem_map_of_mem hp
      · rw [hid] at hd'
        simpa [eq_comm] using hd'
  -- The names of another claim differ in the UIDs that they start with.
  · intro v f stat others spec' huv hlen hspec'
    rw [map_name_buildSpec hspec, map_name_buildSpec hspec', List.disjoint_left]
    intro name hname hname'
    obtain ⟨p, -, rfl⟩ := List.mem_map.mp hname
    obtain ⟨q, -, hq⟩ := List.mem_map.mp hname'
    exact cdiDeviceName_ne huv hlen _ _ _ _ hq.symm

/-- Two shares of one decoder, one of them without an identifier. -/
def sharedResults : List AllocationResult :=
  [{ request := "r", driver := hostFlags.driverName, pool := "node", device := "vpu-rkvdec-0" },
    { request := "r", driver := hostFlags.driverName, pool := "node", device := "vpu-rkvdec-0",
      shareID := some "1" }]

/-- The devices that they are prepared with. -/
def sharedDevices : List PreparedDevice :=
  sharedResults.map fun r => preparedDevice hostFlags "a" r
    { hostDecoder "vpu-rkvdec-0" "/dev/video1" with status := .healthy, nodeSeen := true }

/-- The two shares have different CDI names. -/
theorem cdi_identifiers_unique_shares :
    ((claimSpec hostFlags (hostEnv 1 bothNodes).stat "a" sharedDevices).devices.map
      SpecDevice.name).Nodup := by
  refine (cdi_identifiers_unique plainExternal hostState (hostEnv 1 bothNodes) "a" sharedResults
    sharedDevices _ (by decide +kernel) rfl ?_ (by decide) (by decide)).1
  intro r hr
  have hdevice :
      ∀ r ∈ sharedResults, r.device = "vpu-" ++ Consts.blockRkvdec ++ "-" ++ toString 0 := by
    decide
  rw [hdevice r (List.mem_of_mem_filter hr)]
  exact .vpu Consts.blockRkvdec (by decide) 0

end RockchipDra.Plugin
