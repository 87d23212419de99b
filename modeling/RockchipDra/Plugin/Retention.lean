import RockchipDra.Plugin.Health

/-!
# A prepared claim keeps its devices

A claim enters the checkpoint after its devices are recorded, and leaves it before they are
forgotten. A reconcile drops recorded devices only for claims that are not in the checkpoint. So at
every moment, between any two commands, whatever command failed and wherever the process was killed,
every claim in the checkpoint has the devices that were recorded for it last, and a process that is
up publishes them.

The invariant is `Retained`. Each of its parts is checked against each kind of `Op.Step`; the part
about the tracked names also needs that entries stand under the names of their devices, since a
prepare looks a device up by the name in the claim and records the device of the entry.
-/

namespace RockchipDra.Plugin

open Go Discovery Effect

/-- A device of a name is among the published ones. -/
def DriverResources.Publishes (r : DriverResources) (name : String) : Prop :=
  ∃ d ∈ r.devices, d.name = name

/-- A device that a reconcile tracks is published. -/
theorem reconcileFrom_publishes {x : External} {s : DeviceState} (hs : Keyed s.tracked) (env : Env)
    (found : List Device) (σ : Store) {name : String}
    (hname : name ∈ (s.reconcileFrom x env found σ).2.tracked) :
    (s.reconcileFrom x env found σ).2.driverResources.Publishes name := by
  obtain ⟨td, htd⟩ := Option.isSome_iff_exists.mp
    (Std.ExtTreeMap.mem_iff_isSome_getElem?.mp hname)
  refine ⟨toResourceDevice td, ?_, ?_⟩
  · rw [DeviceState.reconcileFrom_driverResources, mem_devices_devicesToResources]
    exact ⟨td, (mem_trackedList _ _ _).mpr ⟨name, htd⟩, rfl⟩
  · exact nextTracked_keyed hs env found _ _ _ name td htd

/-- What every claim in the checkpoint can rely on. -/
structure Retained (l : Ledger) (st : Option DeviceState) : Prop where
  /-- Its devices are recorded, as the last prepare that got that far recorded them. -/
  recorded : ∀ uid ∈ l.checkpoint.preparedClaims, ∃ devs,
    l.claimDevices.claims[uid]? = some devs ∧ l.recorded uid = some devs
  /-- The process tracks each of them that has a name. -/
  tracked : ∀ s, st = some s → ∀ d, l.Claimed d → d.name ≠ "" → d.name ∈ s.tracked
  /-- Entries stand under the names of their devices. -/
  consistent : Consistent l st
  /-- What is tracked is published. -/
  published : ∀ s, st = some s → ∀ name ∈ s.tracked, s.driverResources.Publishes name

/-- The devices that a prepare records are tracked. -/
theorem mem_tracked_of_computeDevices {s : DeviceState} (hs : Keyed s.tracked) {env : Env}
    {claim : ResourceClaim} {devices : List PreparedDevice}
    (hdevices : s.computeDevices env claim = .ok devices) {d : Device}
    (hd : d ∈ deviceSnapshots devices) : d.name ∈ s.tracked := by
  obtain ⟨name, td, htd, rfl, -⟩ := DeviceState.mem_deviceSnapshots hdevices hd
  have hname : td.name = name := hs name td htd
  rw [hname, Std.ExtTreeMap.mem_iff_isSome_getElem?, htd]
  rfl

/-- A command leaves every prepared claim with recorded devices, the last ones. -/
theorem Op.Step.recorded {s : DeviceState} {op : Op} {l l' : Ledger} (h : op.Step s l l')
    (hl : ∀ uid ∈ l.checkpoint.preparedClaims, ∃ devs,
      l.claimDevices.claims[uid]? = some devs ∧ l.recorded uid = some devs) :
    ∀ uid ∈ l'.checkpoint.preparedClaims, ∃ devs,
      l'.claimDevices.claims[uid]? = some devs ∧ l'.recorded uid = some devs := by
  intro uid huid
  cases h with
  | idle => exact hl uid huid
  | specs => exact hl uid huid
  -- The claim of the prepare gets the devices that are noted, every other claim keeps its own.
  | record env claim devices _ hdevices =>
    by_cases hclaim : claim.uid = uid
    · subst hclaim
      exact ⟨deviceSnapshots devices, Std.ExtTreeMap.getElem?_insert_self, Function.update_self ..⟩
    · obtain ⟨devs, hdevs, hrecorded⟩ := hl uid huid
      refine ⟨devs, ?_, ?_⟩
      · rw [Std.ExtTreeMap.getElem?_insert, if_neg (by simpa using hclaim)]
        exact hdevs
      · exact (Function.update_of_ne (Ne.symm hclaim) _ _).trans hrecorded
  -- The claim that enters the checkpoint was recorded before.
  | commit env claim devices _ hdevices hclaims hrecorded =>
    rcases List.mem_append.mp huid with huid | huid
    · exact hl uid huid
    · obtain rfl := List.mem_singleton.mp huid
      exact ⟨_, hclaims, hrecorded⟩
  | release gone =>
    rw [Checkpoint.preparedClaims_delete] at huid
    exact hl uid (List.mem_of_mem_filter huid)
  | forget gone _ hgone =>
    -- The claim that is forgotten is not the prepared one.
    obtain ⟨devs, hdevs, hrecorded⟩ := hl uid huid
    have hne : gone ≠ uid := fun heq => hgone (heq ▸ huid)
    refine ⟨devs, ?_, hrecorded⟩
    rw [Std.ExtTreeMap.getElem?_erase, if_neg (by simpa using hne)]
    exact hdevs
  -- Only entries of claims that are not prepared are pruned.
  | prune env found =>
    obtain ⟨devs, hdevs, hrecorded⟩ := hl uid huid
    refine ⟨devs, ?_, hrecorded⟩
    rw [getElem?_pruneClaimDevices, if_pos huid]
    exact hdevs

/-- What is claimed after a command was claimed before, or is a device of the running prepare. -/
theorem Op.Step.claimed {s : DeviceState} {op : Op} {l l' : Ledger} (h : op.Step s l l')
    {d : Device} (hd : l'.Claimed d) :
    l.Claimed d ∨ ∃ env claim devices, op = .prepare env claim ∧
      s.computeDevices env claim = .ok devices ∧ d ∈ deviceSnapshots devices := by
  obtain ⟨uid, huid, devs, hdevs, hmem⟩ := hd
  cases h with
  | idle => exact .inl ⟨uid, huid, devs, hdevs, hmem⟩
  | specs => exact .inl ⟨uid, huid, devs, hdevs, hmem⟩
  | record env claim devices _ hdevices =>
    rw [Std.ExtTreeMap.getElem?_insert] at hdevs
    split_ifs at hdevs with hclaim
    · obtain rfl := Option.some.inj hdevs
      exact .inr ⟨env, claim, devices, rfl, hdevices, hmem⟩
    · exact .inl ⟨uid, huid, devs, hdevs, hmem⟩
  -- What the new claim holds is what the running prepare recorded.
  | commit env claim devices _ hdevices hclaims =>
    rcases List.mem_append.mp huid with huid | huid
    · exact .inl ⟨uid, huid, devs, hdevs, hmem⟩
    · obtain rfl := List.mem_singleton.mp huid
      obtain rfl := Option.some.inj (hdevs.symm.trans hclaims)
      exact .inr ⟨env, claim, devices, rfl, hdevices, hmem⟩
  | release gone =>
    rw [Checkpoint.preparedClaims_delete] at huid
    exact .inl ⟨uid, List.mem_of_mem_filter huid, devs, hdevs, hmem⟩
  | forget gone =>
    rw [Std.ExtTreeMap.getElem?_erase] at hdevs
    split_ifs at hdevs
    exact .inl ⟨uid, huid, devs, hdevs, hmem⟩
  | prune env found =>
    rw [getElem?_pruneClaimDevices, if_pos huid] at hdevs
    exact .inl ⟨uid, huid, devs, hdevs, hmem⟩

/-- A reconcile that returns leaves a memory that tracks and publishes every claimed device. -/
theorem Retained.reconciled {x : External} {l : Ledger} {st : Option DeviceState}
    (hl : Retained l st) {s : DeviceState} (hs : s.Consistent) (env : Env) (found : List Device) :
    Retained l (some (s.reconcileFrom x env found l.toStore).2) where
  recorded := hl.recorded
  tracked := by
    rintro _ ⟨⟩ d hd hname
    rw [DeviceState.mem_reconcileFrom_tracked]
    exact .inr ⟨hname, d, hd, rfl⟩
  consistent := by
    rintro _ ⟨⟩
    exact hs.reconcileFrom x env found _
  published := by
    rintro _ ⟨⟩ name hname
    exact reconcileFrom_publishes hs.keyed env found l.toStore hname

/-- Nothing that can happen to a process breaks the retention of its claims' devices. -/
theorem Retained.transition {x : External} {fit : DeviceState → Op → Ledger → Prop} {l l' : Ledger}
    {st st' : Option DeviceState} (h : Transition x fit l st l' st') (hl : Retained l st) :
    Retained l' st' := by
  cases h with
  | idle => exact hl
  | command hserves _ hstep =>
    refine ⟨hstep.recorded hl.recorded, ?_, hl.consistent, hl.published⟩
    intro s hs d hd hname
    rcases hstep.claimed hd with hd | ⟨env, claim, devices, rfl, hdevices, hd⟩
    · exact hl.tracked s hs d hd hname
    · -- Only a process that is up prepares, so the prepare works on its memory.
      cases hserves with
      | up s' =>
        obtain rfl := Option.some.inj hs
        exact mem_tracked_of_computeDevices (hl.consistent _ rfl).keyed hdevices hd
  -- Of the operations that return, only a reconcile replaces the memory.
  | finish hserves _ hpost =>
    cases hpost with
    | failed => exact hl
    | prepared => cases hserves; exact hl
    | unprepared => cases hserves; exact hl
    | reconciled env found => exact hl.reconciled (hserves.consistent hl.consistent) env found
  | crash =>
    refine ⟨hl.recorded, ?_, ?_, ?_⟩ <;> rintro s ⟨⟩

/-- There is nothing to retain at the start. -/
theorem Retained.init : Retained {} none := by
  refine ⟨?_, ?_, ?_, ?_⟩
  · rintro uid ⟨⟩
  all_goals rintro s ⟨⟩

/-- **Retention.** In every state that a process can reach from empty stores, with commands that
fail and with crashes and restarts between any two commands, every claim in the checkpoint has an
entry in the claim devices. The entry holds the devices of the last prepare of the claim that
reached its snapshot write, and a process that is up tracks and publishes each of them that has a
name. -/
theorem prepared_claims_retained (x : External) (w : World) (h : w.Reachable x) :
    ∀ uid ∈ w.ledger.checkpoint.preparedClaims, ∃ devs,
      w.ledger.claimDevices.claims[uid]? = some devs ∧ w.ledger.recorded uid = some devs ∧
      ∀ s, w.state = some s → ∀ d ∈ devs, d.name ≠ "" →
        d.name ∈ s.tracked ∧ s.driverResources.Publishes d.name := by
  -- The invariant holds of empty stores and is kept by every transition.
  have hretained : Retained w.ledger w.state :=
    (h.keeps (fun _ _ _ _ htransition hl => hl.transition htransition) Retained.init).2
  intro uid huid
  obtain ⟨devs, hdevs, hrecorded⟩ := hretained.recorded uid huid
  refine ⟨devs, hdevs, hrecorded, ?_⟩
  intro s hs d hd hname
  have htracked := hretained.tracked s hs d ⟨uid, huid, devs, hdevs, hd⟩ hname
  exact ⟨htracked, hretained.published s hs _ htracked⟩

/-- A claim is prepared, up to an error of the last write that took effect; then the process is
killed and comes up again on a host where the device is gone. -/
def retentionEvents : List Event :=
  [.boot hostFlags (hostEnv 0 ["/dev/video1"]) [hostDevice "vpu-rkvdec-0" "/dev/video1"],
    .command .none, .command .none, .finish,
    .start (.prepare (hostEnv 1 ["/dev/video1"]) (hostClaim "u" "vpu-rkvdec-0")),
    .command .none, .command .none, .command .none, .command .none,
    .command (.after "write checkpoint.json: input/output error"), .crash,
    .boot hostFlags (hostEnv 2 []) [], .command .none, .command .none, .finish]

/-- After these events the claim is in the checkpoint, and its device is recorded and published. -/
theorem prepared_claims_retained_events : ∃ (w : World) (s : DeviceState),
    run (World.step plainExternal) {} retentionEvents = some w ∧ w.state = some s ∧
    w.ledger.checkpoint.preparedClaims = ["u"] ∧
    w.ledger.claimDevices.claims["u"]? = some [hostDevice "vpu-rkvdec-0" "/dev/video1"] ∧
    w.ledger.recorded "u" = some [hostDevice "vpu-rkvdec-0" "/dev/video1"] ∧
    "vpu-rkvdec-0" ∈ s.tracked ∧ s.driverResources.Publishes "vpu-rkvdec-0" := by
  have hend : (run (World.step plainExternal) {} retentionEvents).bind (fun w =>
      w.state.map fun _ => (w.ledger.checkpoint.preparedClaims,
        w.ledger.claimDevices.claims["u"]?)) =
      some (["u"], some [hostDevice "vpu-rkvdec-0" "/dev/video1"]) := by
    decide +kernel
  simp only [Option.bind_eq_some_iff, Option.map_eq_some_iff, Prod.mk.injEq] at hend
  obtain ⟨w, hw, s, hs, huid, hclaims⟩ := hend
  obtain ⟨devs, hdevs, hrecorded, hpublished⟩ :=
    prepared_claims_retained plainExternal w ⟨_, hw⟩ "u" (by rw [huid]; simp)
  obtain rfl := Option.some.inj (hclaims.symm.trans hdevs)
  obtain ⟨htracked, hpublishes⟩ := hpublished s hs _ List.mem_cons_self (by decide)
  exact ⟨w, s, hw, hs, huid, hclaims, hrecorded, htracked, hpublishes⟩

end RockchipDra.Plugin
