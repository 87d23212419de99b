import RockchipDra.Plugin.Order
import RockchipDra.Plugin.Session

/-!
# What a restart of the plugin changes

The memory of a process is not stored. After a restart it is built again from an enumeration, from
the device nodes, and from the stores. `restart_changes` compares a reconcile of a process with the
first reconcile of a new one in its place, on the same stores, the same enumeration, and the same
nodes.

The new process tracks the same devices and leaves the same stores. It differs in unhealthy devices
only. A device whose node is missing was tainted since the node had been there; the new process has
not seen the node, takes it for one that is still to come, and publishes the device without a taint.
A device that is retained for a claim is retained again, as the claim recorded it and not as it was
enumerated last, and with a new time for its taint. If no device is unhealthy, the memories are
equal.
-/

namespace RockchipDra.Plugin

open Go Discovery Effect

/-- What becomes of the entry of a device when the process is restarted at a time. -/
inductive Restarted (σ : Store) (now : Time) (name : String) : TrackedDevice → TrackedDevice → Prop
  /-- An entry that is not unhealthy is as before. -/
  | same (td : TrackedDevice) (hstatus : td.status ≠ .unhealthy) : Restarted σ now name td td
  /-- A missing node becomes one that is not yet present. -/
  | nodeMissing (td : TrackedDevice) (hstatus : td.status = .unhealthy)
      (hvalue : td.taintValue = Consts.taintValueNodeMissing) :
      Restarted σ now name td
        { toDevice := td.toDevice, status := .unknown, message := "device node not yet present" }
  /-- A retained device becomes that of the claim. -/
  | retained (td : TrackedDevice) (snap : Device) (hretained : td.IsRetained)
      (hsnap : σ.Claimed snap) (hname : snap.name = name) :
      Restarted σ now name td (retainedEntry now none snap)

/-- The entry of an enumerated device, with and without a previous one. -/
theorem restarted_assessEnumerated (σ : Store) (now now' : Time) (name : String) (d : Device)
    (prev : Option TrackedDevice) (nodeOK : Bool) :
    Restarted σ now' name (assessEnumerated now d prev nodeOK)
      (assessEnumerated now' d none nodeOK) := by
  cases nodeOK with
  | true =>
    rw [assessEnumerated_present, assessEnumerated_present]
    exact .same _ nofun
  | false =>
    rw [assessEnumerated_absent now' d none rfl]
    cases hseen : seenBefore prev with
    | true =>
      obtain ⟨p, -, -, hentry⟩ := assessEnumerated_missing now d prev hseen
      rw [hentry]
      exact .nodeMissing _ rfl rfl
    | false =>
      rw [assessEnumerated_absent now d prev hseen]
      exact .same _ nofun

section Restart

variable {x : External} {s : DeviceState} {env env' : Env} {found : List Device} {σ : Store}

/-- The entries under a name after a reconcile and after a restart. -/
theorem restarted_reconcileFrom (hstat : env'.stat = env.stat) (name : String) :
    Option.Rel (Restarted σ env'.now name) ((s.reconcileFrom x env found σ).2.tracked[name]?)
      (((freshState s.flags).reconcileFrom x env' found σ).2.tracked[name]?) := by
  have hfresh : (freshState s.flags).tracked[name]? = none := by simp [freshState]
  have hnode : ∀ path, (freshState s.flags).deviceNodeExists env'.stat path =
      s.deviceNodeExists env.stat path := by
    intro path
    rw [hstat]
    rfl
  rw [DeviceState.reconcileFrom_tracked, DeviceState.reconcileFrom_tracked, getElem?_nextTracked,
    getElem?_nextTracked, hfresh]
  cases lastFound found name with
  | some d =>
    dsimp only
    rw [hnode]
    exact .some (restarted_assessEnumerated ..)
  | none =>
    -- The claims have a snapshot of the name in either order of the loops, or in none.
    have hsome :=
      isSome_claimedSnapshots_order env.order env'.order σ.checkpoint σ.claimDevices name
    dsimp only
    cases hsnap' : (claimedSnapshots env'.order σ.checkpoint σ.claimDevices)[name]? with
    | none =>
      have hnone : (claimedSnapshots env.order σ.checkpoint σ.claimDevices)[name]? = none := by
        rw [← Option.isNone_iff_eq_none, ← Option.not_isSome, hsome, hsnap']
        rfl
      rw [hnone]
      exact .none
    | some snap' =>
      rw [hsnap', Option.isSome_some, Option.isSome_iff_exists] at hsome
      obtain ⟨snap, hsnap⟩ := hsome
      rw [getElem?_claimedSnapshots] at hsnap'
      obtain ⟨hmem, hname⟩ := lastFound_eq_some hsnap'
      have hclaimed : σ.Claimed snap' := ((mem_claimedDevices _ _ _ _).mp hmem).2
      rw [hsnap]
      exact .some (.retained _ snap' (retainedEntry_isRetained ..) hclaimed hname)

/-- Without an unhealthy device the entries are the same. -/
theorem tracked_eq_of_restarted {m m' : GoMap TrackedDevice} {now : Time}
    (h : ∀ name : String, Option.Rel (Restarted σ now name) m[name]? m'[name]?)
    (hstatus : ∀ (name : String) td, m[name]? = some td → td.status ≠ .unhealthy) : m' = m := by
  refine Std.ExtTreeMap.ext_getElem? fun name => ?_
  have hname := h name
  generalize hm : m[name]? = a at hname ⊢
  generalize m'[name]? = b at hname ⊢
  cases hname with
  | none => rfl
  | @some td td' hrestarted =>
    have hne := hstatus name td hm
    cases hrestarted with
    | same => rfl
    | nodeMissing hunhealthy => exact absurd hunhealthy hne
    | retained snap hretained => exact absurd hretained.2.1 hne

end Restart

/-- **What a restart changes.** In every reachable state, whatever is enumerated, a reconcile of the
process and the first reconcile of a new process in its place leave the same stores and track the
same names, if the device nodes are the same. The entries differ only for a device whose node is
missing, which the new process reports as unknown and does not taint, and for a device retained for
a claim, which is published as the claim recorded it. If no device is unhealthy, the new process has
the memory of the old one. -/
theorem restart_changes (x : External) (w : World) (hw : w.Reachable x) (s : DeviceState)
    (hs : w.state = some s) (env env' : Env) (found : List Device) (hstat : env'.stat = env.stat) :
    ∃ r next r' next' τ,
      (Op.reconcile env found).execute x s w.ledger.toStore = (.ok (.reconciled r next), τ) ∧
      (Op.reconcile env' found).execute x (freshState s.flags) w.ledger.toStore =
        (.ok (.reconciled r' next'), τ) ∧
      (∀ name : String, Option.Rel (Restarted τ env'.now name) next.tracked[name]?
        next'.tracked[name]?) ∧
      ((∀ (name : String) td, next.tracked[name]? = some td → td.status ≠ .unhealthy) →
        next' = next) := by
  have hpruned := w.ledger.toStore.pruned_order env'.order env.order
  generalize hτ : w.ledger.toStore.pruned env.order = τ at hpruned
  have hongoing : (Op.reconcile env found).execute x s w.ledger.toStore =
      (.ok (.reconciled (s.reconcileFrom x env found τ).1
        (s.reconcileFrom x env found τ).2), τ) := by
    rw [execute_reconcile, hτ]
  have hrestart : (Op.reconcile env' found).execute x (freshState s.flags) w.ledger.toStore =
      (.ok (.reconciled ((freshState s.flags).reconcileFrom x env' found τ).1
        ((freshState s.flags).reconcileFrom x env' found τ).2), τ) := by
    rw [execute_reconcile, hpruned]
  have hrel : ∀ name : String, Option.Rel (Restarted τ env'.now name)
      (s.reconcileFrom x env found τ).2.tracked[name]?
      ((freshState s.flags).reconcileFrom x env' found τ).2.tracked[name]? :=
    restarted_reconcileFrom hstat
  refine ⟨_, _, _, _, τ, hongoing, hrestart, hrel, fun hstatus => ?_⟩
  -- The resources are those of the tracked devices, in whatever order these are listed.
  have htracked := tracked_eq_of_restarted hrel hstatus
  have hkeyed : Keyed (s.reconcileFrom x env found τ).2.tracked :=
    nextTracked_keyed (hw.consistent (.inl hs)).keyed env found env.order τ.checkpoint
      τ.claimDevices
  change (⟨s.flags, devicesToResources s.flags.nodeName (trackedList env'.order
      ((freshState s.flags).reconcileFrom x env' found τ).2.tracked),
    ((freshState s.flags).reconcileFrom x env' found τ).2.tracked⟩ : DeviceState) =
    ⟨s.flags, devicesToResources s.flags.nodeName (trackedList env.order
      (s.reconcileFrom x env found τ).2.tracked), (s.reconcileFrom x env found τ).2.tracked⟩
  rw [htracked, devicesToResources_order hkeyed s.flags.nodeName env'.order env.order]

/-- The health of a device in the memory that an operation leaves. -/
def Op.leaves (op : Op) (s : DeviceState) (σ : Store) (name : String) : Option HealthStatus :=
  match (op.execute plainExternal s σ).1 with
  | .ok (.reconciled _ next) => next.tracked[name]?.map TrackedDevice.status
  | _ => none

/-- A node disappears while the process is up. It reports the device as unhealthy, and after a
restart as unknown. -/
theorem restart_changes_missing_node : ∃ (w : World) (s : DeviceState),
    w.Reachable plainExternal ∧ w.state = some s ∧
    (Op.reconcile (hostEnv 2 ["/dev/video2"]) bothFound).leaves s w.ledger.toStore
      "vpu-rkvdec-0" = some .unhealthy ∧
    (Op.reconcile (hostEnv 3 ["/dev/video2"]) bothFound).leaves (freshState s.flags)
      w.ledger.toStore "vpu-rkvdec-0" = some .unknown ∧
    ∃ r next r' next' τ,
      (Op.reconcile (hostEnv 2 ["/dev/video2"]) bothFound).execute plainExternal s
        w.ledger.toStore = (.ok (.reconciled r next), τ) ∧
      (Op.reconcile (hostEnv 3 ["/dev/video2"]) bothFound).execute plainExternal
        (freshState s.flags) w.ledger.toStore = (.ok (.reconciled r' next'), τ) ∧
      ∀ name : String,
        Option.Rel (Restarted τ 4 name) next.tracked[name]? next'.tracked[name]? := by
  have hend : (run (World.step plainExternal) {} (bootDecoders bothNodes)).bind (fun w =>
      w.state.map fun s =>
        ((Op.reconcile (hostEnv 2 ["/dev/video2"]) bothFound).leaves s w.ledger.toStore
            "vpu-rkvdec-0",
          (Op.reconcile (hostEnv 3 ["/dev/video2"]) bothFound).leaves (freshState s.flags)
            w.ledger.toStore "vpu-rkvdec-0")) =
      some (some .unhealthy, some .unknown) := by decide +kernel
  obtain ⟨w, hw, hend⟩ := Option.bind_eq_some_iff.mp hend
  obtain ⟨s, hs, hend⟩ := Option.map_eq_some_iff.mp hend
  obtain ⟨hbefore, hafter⟩ := Prod.mk.inj hend
  have hreachable : w.Reachable plainExternal := ⟨bootDecoders bothNodes, hw⟩
  obtain ⟨r, next, r', next', τ, hongoing, hrestart, hrel, -⟩ := restart_changes plainExternal w
    hreachable s hs (hostEnv 2 ["/dev/video2"]) (hostEnv 3 ["/dev/video2"]) bothFound rfl
  exact ⟨w, s, hreachable, hs, hbefore, hafter, r, next, r', next', τ, hongoing, hrestart, hrel⟩

end RockchipDra.Plugin
