import RockchipDra.Plugin.Health

/-!
# The set of published devices

A successful reconcile leaves three views of its devices: the map of tracked entries, the resources
to be published, and the health report. `Published` describes all three from what was found and what
the stores record for prepared claims, and `reconcile_publishes_exactly` proves it of every
successful reconcile of every run.

A device that is no longer enumerated is therefore dropped by the first reconcile after its last
claim is unprepared, and by nothing before: no other step of the process changes the tracked
devices.
-/

namespace RockchipDra.Plugin

open Go Discovery Effect

/-! ## The list of tracked devices -/

/-- Under the names of a consistent map stand devices of these names. -/
theorem map_name_filterMap {m : GoMap TrackedDevice} (hm : Keyed m) (names : List String)
    (hnames : ∀ name ∈ names, name ∈ m) :
    (names.filterMap fun name => m[name]?).map (fun td => td.name) = names := by
  induction names with
  | nil => rfl
  | cons name names ih =>
    have hname : name ∈ m := hnames name List.mem_cons_self
    obtain ⟨td, htd⟩ := Option.isSome_iff_exists.mp
      (Std.ExtTreeMap.mem_iff_isSome_getElem?.mp hname)
    -- No name is lost, since there is an entry under each, and the entry has that name.
    rw [List.filterMap_cons_some htd, List.map_cons, hm name td htd,
      ih fun n hn => hnames n (List.mem_cons_of_mem _ hn)]

/-- The names of the tracked devices, each once. -/
theorem map_name_trackedList {m : GoMap TrackedDevice} (hm : Keyed m) (o : MapOrder Loop) :
    ((trackedList o m).map fun td => td.name).Perm m.keys := by
  unfold trackedList
  rw [map_name_filterMap hm _ fun name hname => (Maps.mem_order o _ m name).mp hname]
  exact o.perm _ _

/-- The tracked devices sorted by name have their names in strictly increasing order. -/
theorem sortByName_increasing {m : GoMap TrackedDevice} (hm : Keyed m) (o : MapOrder Loop) :
    ((sortByName (trackedList o m)).map fun td => td.name).Pairwise (· < ·) := by
  have hnodup : ((trackedList o m).map fun td => td.name).Nodup :=
    (map_name_trackedList hm o).nodup_iff.mpr Std.ExtTreeMap.nodup_keys
  exact Slices.sortFunc_increasing (Slices.byKey_compareStrings _ _) hnodup

/-! ## Retained entries -/

/-- What tells a retained entry from one of an enumerated device. -/
def TrackedDevice.IsRetained (td : TrackedDevice) : Prop :=
  td.retained = true ∧ td.status = .unhealthy ∧ td.taintValue = Consts.taintValueNotDiscovered

theorem retainedEntry_isRetained (now : Time) (prev : Option TrackedDevice) (snap : Device) :
    (retainedEntry now prev snap).IsRetained := ⟨rfl, rfl, rfl⟩

/-- An assessed entry has neither the mark nor the taint of a retained one. -/
theorem assessEnumerated_not_retained (now : Time) (d : Device) (prev : Option TrackedDevice)
    (nodeOK : Bool) : (assessEnumerated now d prev nodeOK).retained = false ∧
      (assessEnumerated now d prev nodeOK).taintValue ≠ Consts.taintValueNotDiscovered := by
  -- The three forms of an assessed entry.
  cases nodeOK with
  | true =>
    rw [assessEnumerated_present]
    exact ⟨rfl, by dsimp only; decide⟩
  | false =>
    cases hseen : seenBefore prev with
    | true =>
      obtain ⟨p, -, -, heq⟩ := assessEnumerated_missing now d prev hseen
      rw [heq]
      exact ⟨rfl, by dsimp only; decide⟩
    | false =>
      rw [assessEnumerated_absent now d prev hseen]
      exact ⟨rfl, by dsimp only; decide⟩

/-! ## The three views -/

/-- The one slice of the one pool of a node. -/
def nodeResources (nodeName : String) (devices : List ResourceDevice) : List (String × Pool) :=
  [(nodeName, { slices := [{ devices := devices }] })]

/-- What a reconcile that found `found` leaves in the memory `s` over the stores `σ`. -/
structure Published (found : List Device) (σ : Store) (s : DeviceState) : Prop where
  /-- The tracked names are those that were found and those of devices that prepared claims
  record. -/
  names : ∀ name, name ∈ s.tracked ↔
    name ∈ found.map Device.name ∨ name ≠ "" ∧ ∃ d, σ.Claimed d ∧ d.name = name
  /-- Every entry stands under its name. -/
  keyed : ∀ (name : String) td, s.tracked[name]? = some td → td.name = name
  /-- The retained entries are those whose name was not found. -/
  retained : ∀ (name : String) td, s.tracked[name]? = some td →
    (td.IsRetained ↔ name ∉ found.map Device.name)
  /-- Each of their marks tells them apart. -/
  enumerated : ∀ (name : String) td, s.tracked[name]? = some td → name ∈ found.map Device.name →
    td.retained = false ∧ td.taintValue ≠ Consts.taintValueNotDiscovered
  /-- The resources are one pool of one slice, with the tracked devices in strictly increasing order
  of their names. -/
  resources : ∃ devices, s.driverResources.pools.toList = nodeResources s.flags.nodeName devices ∧
    (devices.map ResourceDevice.name).Pairwise (· < ·) ∧
    (∀ name, name ∈ devices.map ResourceDevice.name ↔ name ∈ s.tracked) ∧
    ∀ d ∈ devices, ∃ td, s.tracked[d.name]? = some td ∧ d = toResourceDevice td ∧
      (td.status = .unhealthy ↔ ∃ taint, d.taints = [taint] ∧ taint.effect = .noExecute) ∧
      (td.status ≠ .unhealthy ↔ d.taints = [])
  /-- The health report lists each tracked device once, with its status. -/
  report : ∀ env, ((s.healthReport env).map DeviceHealth.deviceName).Perm s.tracked.keys ∧
    ∀ h ∈ s.healthReport env, ∃ td, s.tracked[h.deviceName]? = some td ∧ h.health = td.status

/-- The taints of a published device. -/
theorem toResourceDevice_taints (td : TrackedDevice) :
    (td.status = .unhealthy ↔
      ∃ taint, (toResourceDevice td).taints = [taint] ∧ taint.effect = .noExecute) ∧
    (td.status ≠ .unhealthy ↔ (toResourceDevice td).taints = []) := by
  by_cases hstatus : td.status = .unhealthy
  · simp [toResourceDevice, deviceTaints, hstatus]
  · simp [toResourceDevice, deviceTaints, hstatus]

/-- A well-formed entry reports its own status. -/
theorem reported_status {td : TrackedDevice} (h : td.status ≠ .unset) :
    (if td.status = .unset then .unknown else td.status) = td.status := if_neg h

/-- No entry that a reconcile leaves has an unset status. -/
theorem reconcileFrom_status_ne {x : External} {s : DeviceState} {env : Env} {found : List Device}
    {σ : Store} {name : String} {td : TrackedDevice}
    (htd : (s.reconcileFrom x env found σ).2.tracked[name]? = some td) : td.status ≠ .unset := by
  rcases reconcileFrom_entry htd with ⟨d, -, rfl⟩ | ⟨-, snap, rfl⟩
  · rw [assessEnumerated_status]
    split_ifs <;> decide
  · rw [retainedEntry_status]
    decide

/-- The names of the published devices are those of the tracked ones. -/
theorem map_name_toResourceDevice (devices : List TrackedDevice) :
    (devices.map toResourceDevice).map ResourceDevice.name = devices.map fun td => td.name := by
  rw [List.map_map]
  rfl

/-- The views that a reconcile of a consistent memory leaves. -/
theorem DeviceState.Consistent.published {s : DeviceState} (hs : s.Consistent) (x : External)
    (env : Env) (found : List Device) (σ : Store) :
    Published found σ (s.reconcileFrom x env found σ).2 where
  names := DeviceState.mem_reconcileFrom_tracked x s env found σ
  keyed := (hs.reconcileFrom x env found σ).keyed
  retained := by
    intro name td htd
    rw [← lastFound_isSome]
    rcases reconcileFrom_entry htd with ⟨d, hd, rfl⟩ | ⟨hnone, snap, rfl⟩
    · rw [hd]
      refine iff_of_false (fun h => ?_) (by simp)
      exact absurd (h.1.symm.trans (assessEnumerated_not_retained _ _ _ _).1) (by decide)
    · rw [hnone]
      exact iff_of_true (retainedEntry_isRetained _ _ _) (by simp)
  enumerated := by
    intro name td htd hname
    rw [← lastFound_isSome] at hname
    rcases reconcileFrom_entry htd with ⟨d, -, rfl⟩ | ⟨hnone, -⟩
    · exact assessEnumerated_not_retained _ _ _ _
    · rw [hnone] at hname
      cases hname
  resources := by
    have hkeyed := (hs.reconcileFrom x env found σ).keyed
    refine ⟨_, devicesToResources_pools _ _, ?_, ?_, ?_⟩
    · rw [map_name_toResourceDevice]
      exact sortByName_increasing hkeyed env.order
    · intro name
      -- Sorting and listing permute the names of the map.
      have hperm : ((sortByName (trackedList env.order
          (s.reconcileFrom x env found σ).2.tracked)).map fun td => td.name).Perm _ :=
        ((Slices.sortFunc_perm _ _).map _).trans (map_name_trackedList hkeyed env.order)
      rw [map_name_toResourceDevice]
      exact hperm.mem_iff.trans Std.ExtTreeMap.mem_keys
    · intro d hd
      obtain ⟨td, htd, rfl⟩ := List.mem_map.mp hd
      have hmem : td ∈ trackedList env.order (s.reconcileFrom x env found σ).2.tracked :=
        (Slices.sortFunc_perm _ _).mem_iff.mp htd
      obtain ⟨name, hname⟩ := (mem_trackedList _ _ _).mp hmem
      obtain rfl : td.name = name := hkeyed name td hname
      obtain ⟨htaint, hnone⟩ := toResourceDevice_taints td
      exact ⟨td, hname, rfl, htaint, hnone⟩
  report := by
    intro env'
    have hkeyed := (hs.reconcileFrom x env found σ).keyed
    unfold DeviceState.healthReport
    refine ⟨?_, ?_⟩
    · rw [List.map_map]
      exact map_name_trackedList hkeyed env'.order
    · intro h hh
      obtain ⟨td, htd, rfl⟩ := List.mem_map.mp hh
      obtain ⟨name, hname⟩ := (mem_trackedList _ _ _).mp htd
      obtain rfl : td.name = name := hkeyed name td hname
      exact ⟨td, hname, reported_status (reconcileFrom_status_ne hname)⟩

/-- What a step does to the published devices. -/
structure World.PublishesExactly (w : World) (e : Event) (w' : World) : Prop where
  /-- After a successful reconcile, all views are as they should be. -/
  published : ∀ r, w.reconciled e = some r → ∃ s, w'.state = some s ∧
    Published r.found w'.ledger.toStore s
  /-- A successful reconcile drops a device that is not found once no prepared claim records it. -/
  dropped : ∀ r, w.reconciled e = some r → ∀ s, w'.state = some s → ∀ name,
    name ∉ r.found.map Device.name → (∀ d, w'.ledger.Claimed d → d.name ≠ name) → name ∉ s.tracked
  /-- Nothing else changes what is tracked and published. -/
  unchanged : w.reconciled e = none → w'.state = w.state ∨ e = .crash

/-- **Exact published set.** In every run, with faults, crashes, and restarts, every successful
reconcile leaves exactly the devices that were found and those that prepared claims record, in all
three views, and no other step changes them. -/
theorem reconcile_publishes_exactly (x : External) (es : List Event) :
    Along (World.step x) World.PublishesExactly {} es := by
  refine along_of_invariant (R := fun _ _ _ => True)
    (World.Keeps x (fun _ _ _ => True) Consistent) ?_ ?_ (World.keeps_consistent _)
    (along_of_forall (fun _ _ _ _ => trivial) _ _)
  · intro w e w' hw hstep _
    exact hw.consistent_step hstep
  · rintro w e w' ⟨hsound, hconsistent⟩ hstep -
    have hpublished : ∀ r, w.reconciled e = some r → w'.state = some r.after ∧
        Published r.found w'.ledger.toStore r.after := by
      intro r hr
      obtain ⟨hserves, hledger, hstate, hafter⟩ := hsound.reconciled hstep hr
      refine ⟨hstate, ?_⟩
      rw [hledger, hafter]
      exact (hserves.consistent hconsistent).published x r.env r.found _
    refine ⟨fun r hr => ⟨r.after, hpublished r hr⟩, ?_, hsound.memory_unchanged hstep⟩
    -- A name that is tracked was found or is claimed, and this one is neither.
    intro r hr s hs name hfound hclaimed hmem
    obtain ⟨hstate, hp⟩ := hpublished r hr
    obtain rfl := Option.some.inj (hs.symm.trans hstate)
    rcases (hp.names name).mp hmem with h | ⟨-, d, hd, hname⟩
    · exact hfound h
    · exact hclaimed d hd hname

end RockchipDra.Plugin
