import RockchipDra.Plugin.Naming

/-!
# The share policies of published devices

Every device is published with a capacity of shares, and with a policy that says how many of them a
claim may request. The scheduler refuses a whole slice over one policy that is not well formed.

`WellFormed` is what a policy has to satisfy, and it admits exactly the requests from one share up
to all of them. A capacity is the cap of a discovered device, which is positive whatever the
overrides are, or that of a snapshot, which was taken of such a device under an earlier
configuration (`published_shares_wellFormed`).
-/

namespace RockchipDra.Plugin

open Go Discovery Effect

/-- A request lies in a range, a whole number of steps above its minimum. -/
def CapacityRequestPolicyRange.Admits (range : CapacityRequestPolicyRange) (r : ℤ) : Prop :=
  range.min.toInt ≤ r ∧ r ≤ range.max.toInt ∧
    ∀ step, range.step = some step → step.toInt ∣ r - range.min.toInt

/-- A capacity with the range of its policy. -/
structure DeviceCapacity.WellFormedRange (c : DeviceCapacity) (range : CapacityRequestPolicyRange) :
    Prop where
  min_le_default : range.min.toInt ≤ c.requestPolicy.default.toInt
  default_le_max : c.requestPolicy.default.toInt ≤ range.max.toInt
  min_le_max : range.min.toInt ≤ range.max.toInt
  max_le_value : range.max.toInt ≤ c.value.toInt
  /-- A step leads from the minimum to a value within the capacity, steps lead to the maximum. -/
  step : ∀ step, range.step = some step →
    range.min.toInt + step.toInt ≤ c.value.toInt ∧ step.toInt ∣ range.max.toInt - range.min.toInt
  /-- The requests that are admitted are those from one up to the capacity. -/
  admits_iff : ∀ r, range.Admits r ↔ 1 ≤ r ∧ r ≤ c.value.toInt

/-- A capacity of at least one, with a default request of one in a range that fits it. -/
structure DeviceCapacity.WellFormed (c : DeviceCapacity) : Prop where
  one_le_value : 1 ≤ c.value.toInt
  default_eq_one : c.requestPolicy.default = 1
  validRange : ∃ range, c.requestPolicy.validRange = some range ∧ c.WellFormedRange range

/-- The policy of a positive cap is well formed. -/
theorem shareRequestPolicy_wellFormed {cap : Int64} (hcap : 0 < cap) :
    ({ value := cap, requestPolicy := shareRequestPolicy cap } : DeviceCapacity).WellFormed := by
  have hone : (1 : Int64).toInt = 1 := by decide
  have hpos : 1 ≤ cap.toInt := by
    rw [Int64.lt_iff_toInt_lt, Int64.toInt_zero] at hcap
    omega
  have hpolicy : shareRequestPolicy cap =
      ⟨1, some ⟨1, cap, if 2 ≤ cap then some 1 else none⟩⟩ := by
    unfold shareRequestPolicy
    rw [if_neg]
    rw [Int64.not_lt, Int64.le_iff_toInt_le, hone]
    exact hpos
  rw [hpolicy]
  refine ⟨hpos, rfl, _, rfl, ?_⟩
  refine ⟨le_of_eq rfl, hone.symm ▸ hpos, hone.symm ▸ hpos, le_rfl, ?_, ?_⟩
  · -- There is a step only where a second share exists.
    intro step hstep
    dsimp only at hstep ⊢
    split_ifs at hstep with htwo
    · obtain rfl := Option.some.inj hstep
      have htwo' : 2 ≤ cap.toInt := by
        rw [Int64.le_iff_toInt_le] at htwo
        exact htwo
      rw [hone]
      exact ⟨by omega, one_dvd _⟩
  · intro r
    unfold CapacityRequestPolicyRange.Admits
    dsimp only
    rw [hone]
    constructor
    · exact fun h => ⟨h.1, h.2.1⟩
    · rintro ⟨hmin, hmax⟩
      refine ⟨hmin, hmax, ?_⟩
      intro step hstep
      split_ifs at hstep
      obtain rfl := Option.some.inj hstep
      exact one_dvd _

/-- A published device has a well-formed capacity of shares. -/
def ResourceDevice.SharesWellFormed (d : ResourceDevice) : Prop :=
  ∃ c, d.capacity[Consts.capacityShares]? = some c ∧ c.WellFormed

/-- The published form of a device with a positive cap. -/
theorem toResourceDevice_sharesWellFormed {td : TrackedDevice} (h : 0 < td.maxAllocations) :
    (toResourceDevice td).SharesWellFormed :=
  ⟨_, Std.ExtTreeMap.getElem?_insert_self, shareRequestPolicy_wellFormed h⟩

/-- Every device has a positive cap, and what is to be published has well-formed policies. -/
structure SharesPublished (l : Ledger) (st : Option DeviceState) : Prop where
  caps : EachDevice (fun d => 0 < d.maxAllocations) l st
  published : ∀ s, st = some s → ∀ d ∈ s.driverResources.devices, d.SharesWellFormed

/-- With enumerations taken from sysfs trees or from mock mode, caps stay positive and policies well
formed. -/
theorem SharesPublished.transition {x : External} {l l' : Ledger} {st st' : Option DeviceState}
    (h : Transition x (fun s op _ => op.Discovers s) l st l' st') (hl : SharesPublished l st) :
    SharesPublished l' st' := by
  have hcaps : EachDevice (fun d => 0 < d.maxAllocations) l' st' := by
    refine EachDevice.transition ?_ h hl.caps
    rintro s env found l ⟨t, rfl⟩
    exact enumerate_maxAllocations t _
  refine ⟨hcaps, ?_⟩
  cases h with
  | idle => exact hl.published
  | command => exact hl.published
  | finish hserves _ hpost =>
    cases hpost with
    | failed => exact hl.published
    | prepared => cases hserves; exact hl.published
    | unprepared => cases hserves; exact hl.published
    | reconciled env found =>
      -- What is published are the devices that the reconcile has just begun to track.
      rintro _ ⟨⟩ d hd
      change d ∈ (DeviceState.reconcileFrom _ _ _ _ _).2.driverResources.devices at hd
      rw [DeviceState.reconcileFrom_driverResources, mem_devices_devicesToResources] at hd
      obtain ⟨td, htd, rfl⟩ := hd
      obtain ⟨name, hname⟩ := (mem_trackedList _ _ _).mp htd
      exact toResourceDevice_sharesWellFormed (hcaps.tracked _ rfl name td hname)
  | crash => rintro s ⟨⟩

/-- **Share policies.** In every state that prepares, unprepares, reconciles, and restarts reach,
whatever the configuration of each process and the trees that it finds, every device to be published
has at least one share, with a well-formed policy that admits exactly the requests from one share up
to all of them. I/O errors and crashes are allowed. -/
theorem published_shares_wellFormed (x : External) (es : List Event) (w : World)
    (hrun : run (World.step x) {} es = some w)
    (hstarts : Along (World.step x) (World.Starts fun s op _ => op.Discovers s) {} es)
    (s : DeviceState) (hs : w.state = some s) :
    ∀ d ∈ s.driverResources.devices, d.SharesWellFormed := by
  have hkeeps : w.Keeps x (fun s op _ => op.Discovers s) SharesPublished := by
    refine World.keeps_of_run (fun _ _ _ _ _ h => h) (fun _ _ _ _ h hl => hl.transition h)
      ⟨.init _, ?_⟩ hrun hstarts
    rintro s ⟨⟩
  exact hkeeps.2.published s hs

/-- A decoder is prepared for a claim, and the process restarts after the other one is unbound. -/
def restartEvents : List Event :=
  bootDecoders bothNodes ++ prepareDecoder "a" "vpu-rkvdec-1" ++
    [.crash, .boot hostFlags (hostEnv 0 bothNodes) secondFound, .command .none, .command .none,
      .finish]

/-- After the restart two devices are published, one of them from the snapshot of the claim. -/
theorem published_shares_wellFormed_restart : ∃ (w : World) (s : DeviceState),
    run (World.step plainExternal) {} restartEvents = some w ∧ w.state = some s ∧
    s.driverResources.devices.map ResourceDevice.name = ["vpu-rkvdec-0", "vpu-rkvdec-1"] ∧
    ∀ d ∈ s.driverResources.devices, d.SharesWellFormed := by
  have hend : (run (World.step plainExternal) {} restartEvents).bind (fun w => w.state.map fun s =>
      s.driverResources.devices.map ResourceDevice.name) =
      some ["vpu-rkvdec-0", "vpu-rkvdec-1"] := by decide +kernel
  have hfinds : findsDecoders restartEvents := by decide +kernel
  obtain ⟨w, hw, hnames⟩ := Option.bind_eq_some_iff.mp hend
  obtain ⟨s, hs, hnames⟩ := Option.map_eq_some_iff.mp hnames
  exact ⟨w, s, hw, hs, hnames, published_shares_wellFormed plainExternal restartEvents w hw
    (discovers_of_findsDecoders hfinds) s hs⟩

end RockchipDra.Plugin
