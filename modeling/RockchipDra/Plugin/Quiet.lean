import RockchipDra.Plugin.Order

/-!
# A node on which nothing changes

A reconcile that finds what the reconcile before it found changes nothing: it reports no change,
keeps the tracked devices with the times of their taints and the resources, and writes no store. The
entries are fixed points of `assessEnumerated` and `retainedEntry` after one application, the file
of the claim devices has been pruned, and the order in which devices are listed does not matter.
-/

namespace RockchipDra.Plugin

open Go Discovery Effect

/-! ## Entries that are assessed again -/

/-- The time of a taint is set once. -/
theorem taintTime_again {now : Time} (hnow : now ≠ 0) (now' before : Time) :
    (if (if before = 0 then now else before) = 0 then now'
      else if before = 0 then now else before) =
      if before = 0 then now else before :=
  if_neg (taintTime_ne_zero hnow before)

/-- An enumerated device that is assessed again, with the same answer about its node. -/
theorem assessEnumerated_again {now : Time} (hnow : now ≠ 0) (now' : Time) (d : Device)
    (prev : Option TrackedDevice) (nodeOK : Bool) :
    assessEnumerated now' d (some (assessEnumerated now d prev nodeOK)) nodeOK =
      assessEnumerated now d prev nodeOK := by
  cases nodeOK with
  | true => rw [assessEnumerated_present, assessEnumerated_present]
  -- A missing node is assessed by whether it was seen, which the entry remembers.
  | false =>
    cases hseen : seenBefore prev with
    | true =>
      obtain ⟨p, -, -, hentry⟩ := assessEnumerated_missing now d prev hseen
      rw [hentry]
      simp only [assessEnumerated, markUnavailable, taintTime_again hnow]
      rfl
    | false =>
      rw [assessEnumerated_absent now d prev hseen]
      rfl

/-- A device that is retained again. -/
theorem retainedEntry_again {now : Time} (hnow : now ≠ 0) (now' : Time)
    (prev : Option TrackedDevice) (snap snap' : Device) :
    retainedEntry now' (some (retainedEntry now prev snap)) snap' =
      retainedEntry now prev snap := by
  unfold retainedEntry markUnavailable
  dsimp only [Option.getD_some]
  rw [taintTime_again hnow]

/-! ## A reconcile after a reconcile -/

/-- A reconcile of `found` changes nothing, whichever of its commands fail. -/
structure DeviceState.Quiet (x : External) (s : DeviceState) (env : Env) (found : List Device)
    (σ : Store) : Prop where
  /-- It only reads. -/
  reads : ∀ faults, ∀ c ∈ (s.applyDiscoveryLocked x env found).run.commands faultyStore faults σ,
    ∃ r, c = .read r
  /-- The stores stay as they are. -/
  stores : ∀ faults, ((s.applyDiscoveryLocked x env found).run.eval faultyStore faults σ).2 = σ
  /-- If it succeeds, it reports no change and leaves the memory as it is. -/
  returns : ∀ faults r,
    ((s.applyDiscoveryLocked x env found).run.eval faultyStore faults σ).1 = .ok r →
      r.1.resourcesChanged = false ∧ r.1.healthChanged = false ∧ r.2 = s
  /-- Without an I/O error it succeeds. -/
  succeeds : ∃ r,
    ((s.applyDiscoveryLocked x env found).run.eval reliableStore (fun _ => ()) σ).1 = .ok r

section Reconcile

variable {x : External} {s : DeviceState} {env env' : Env} {found : List Device} {σ : Store}

/-- What a reconcile that succeeds returns and leaves, whatever may fail. -/
theorem applyDiscoveryLocked_faulty (x : External) (s : DeviceState) (env : Env)
    (found : List Device) (σ : Store) :
    (s.applyDiscoveryLocked x env found).Alone faultyStore (fun _ _ => True)
      (fun r τ => τ = σ.pruned env.order ∧ r = s.reconcileFrom x env found τ)
      (fun _ _ => True) σ := by
  refine Fallible.alone_bind (Fallible.alone_mapError (readCheckpoint_faulty trivial ?_))
  refine Fallible.alone_bind (Fallible.alone_mapError (readClaimDevices_faulty trivial ?_))
  change Fallible.Alone _ _ _ _
    (if (pruneClaimDevices env.order σ.checkpoint σ.claimDevices).1 then _ else _) _
  split_ifs with hpruned
  · exact Fallible.alone_bind (Fallible.alone_mapError
      (write_faulty trivial trivial (Fallible.alone_pure ⟨rfl, rfl⟩)))
  · refine Fallible.alone_pure ⟨(Store.pruned_eq_self hpruned).symm, ?_⟩
    rw [pruneClaimDevices_unchanged hpruned]
    rfl

/-- Pruned stores have nothing more to prune. -/
theorem pruneClaimDevices_pruned (o o' : MapOrder Loop) (σ : Store) :
    ¬(pruneClaimDevices o' (σ.pruned o).checkpoint (σ.pruned o).claimDevices).1 = true := by
  rw [pruneClaimDevices_fst]
  rintro ⟨uid, hmem, huid⟩
  have hnone : (σ.pruned o).claimDevices.claims[uid]? = none := by
    change (pruneClaimDevices o σ.checkpoint σ.claimDevices).2.claims[uid]? = none
    rw [getElem?_pruneClaimDevices]
    exact if_neg huid
  rw [Std.ExtTreeMap.mem_iff_isSome_getElem?, hnone] at hmem
  cases hmem

/-- Where there is nothing to prune, a reconcile reads the two files and writes nothing. -/
theorem commands_applyDiscoveryLocked (x : External) (s : DeviceState) (found : List Device)
    (faults : ℕ → Fault)
    (hpruned : ¬(pruneClaimDevices env.order σ.checkpoint σ.claimDevices).1 = true) :
    ∀ c ∈ (s.applyDiscoveryLocked x env found).run.commands faultyStore faults σ,
      ∃ r, c = .read r := by
  -- The two reads come first, and one that fails ends the program.
  change ∀ c ∈ (Prog.call (Access.read StoreRead.checkpoint) _).commands _ _ _, _
  rw [Prog.commands_call, List.forall_mem_cons]
  refine ⟨⟨_, rfl⟩, ?_⟩
  cases faults 0 with
  | before e => rintro c ⟨⟩
  | after e => rintro c ⟨⟩
  | none =>
    change ∀ c ∈ (Prog.call (Access.read StoreRead.claimDevices) _).commands _ _ _, _
    rw [Prog.commands_call, List.forall_mem_cons]
    refine ⟨⟨_, rfl⟩, ?_⟩
    cases faults 1 with
    | before e => rintro c ⟨⟩
    | after e => rintro c ⟨⟩
    | none =>
      change ∀ c ∈ Prog.commands _
        (if (pruneClaimDevices env.order σ.checkpoint σ.claimDevices).1 = true then _ else _) _ _, _
      rw [if_neg hpruned]
      rintro c ⟨⟩

/-- Devices that were assessed or retained are tracked as they are when the same is found again. -/
theorem DeviceState.nextTracked_again {snapshots snapshots' : GoMap Device} {next : DeviceState}
    (htracked : next.tracked = s.nextTracked env found snapshots)
    (hnode : ∀ path, next.deviceNodeExists env'.stat path = s.deviceNodeExists env.stat path)
    (hsnapshots : ∀ name : String, snapshots'[name]?.isSome = snapshots[name]?.isSome) :
    next.nextTracked env' found snapshots' = next.tracked := by
  refine Std.ExtTreeMap.ext_getElem? fun name => ?_
  rw [getElem?_nextTracked, htracked, getElem?_nextTracked]
  cases lastFound found name with
  | some d =>
    dsimp only
    rw [hnode, assessEnumerated_again env.now_ne_zero]
  | none =>
    dsimp only
    -- A retained entry does not look at its snapshot again, only at whether there is one.
    have hsome := hsnapshots name
    cases hsnap : snapshots[name]? with
    | none =>
      rw [hsnap] at hsome
      rw [Option.isSome_none, Option.isSome_eq_false_iff, Option.isNone_iff_eq_none] at hsome
      rw [hsome]
      rfl
    | some snap =>
      rw [hsnap] at hsome
      obtain ⟨snap', hsnap'⟩ := Option.isSome_iff_exists.mp hsome
      rw [hsnap', Option.map_some, Option.map_some, retainedEntry_again env.now_ne_zero]

/-- What is compared with itself has not changed. -/
theorem resourcesEqual_self {r : DriverResources} (hr : ∃ bytes, x.marshalResources r = .ok bytes) :
    resourcesEqual x r r = true := by
  obtain ⟨bytes, hr⟩ := hr
  unfold resourcesEqual
  rw [hr]
  exact beq_self_eq_true bytes

/-- After a reconcile, one that finds the same devices, nodes, and claims returns the same
memory. -/
theorem DeviceState.reconcileFrom_again (hs : Keyed s.tracked)
    (hnode : ∀ path, s.deviceNodeExists env'.stat path = s.deviceNodeExists env.stat path)
    (hmarshal : ∃ bytes,
      x.marshalResources (s.reconcileFrom x env found σ).2.driverResources = .ok bytes) :
    ((s.reconcileFrom x env found σ).2.reconcileFrom x env' found σ).1.resourcesChanged = false ∧
      ((s.reconcileFrom x env found σ).2.reconcileFrom x env' found σ).1.healthChanged = false ∧
      ((s.reconcileFrom x env found σ).2.reconcileFrom x env' found σ).2 =
        (s.reconcileFrom x env found σ).2 := by
  have hkeyed := nextTracked_keyed hs env found env.order σ.checkpoint σ.claimDevices
  have htracked := s.reconcileFrom_tracked x env found σ
  have hresources := s.reconcileFrom_driverResources x env found σ
  have hflags : (s.reconcileFrom x env found σ).2.flags = s.flags := rfl
  rw [← htracked] at hkeyed
  generalize (s.reconcileFrom x env found σ).2 = next at *
  have hnext : next.nextTracked env' found
      (claimedSnapshots env'.order σ.checkpoint σ.claimDevices) = next.tracked := by
    refine DeviceState.nextTracked_again htracked ?_ ?_
    · intro path
      rw [← hnode path]
      unfold DeviceState.deviceNodeExists
      rw [hflags]
    · exact isSome_claimedSnapshots_order env'.order env.order σ.checkpoint σ.claimDevices
  -- The same devices give the same resources, in whatever order they are listed.
  have hsame : devicesToResources next.flags.nodeName (trackedList env'.order next.tracked) =
      next.driverResources := by
    rw [hresources, hflags]
    exact devicesToResources_order hkeyed s.flags.nodeName env'.order env.order
  have hhealth : healthEqual env'.order next.tracked next.tracked = true :=
    (healthEqual_iff _ _ _).mpr fun _ => rfl
  unfold DeviceState.reconcileFrom DeviceState.publishNext
  dsimp only
  rw [hnext, hsame, hhealth, resourcesEqual_self hmarshal]
  exact ⟨rfl, rfl, rfl⟩

/-- A reconcile leaves a state in which one that finds the same changes nothing. -/
theorem DeviceState.quiet_reconcileFrom (hs : Keyed s.tracked)
    (hnode : ∀ path, s.deviceNodeExists env'.stat path = s.deviceNodeExists env.stat path)
    (hmarshal : ∃ bytes, x.marshalResources
      (s.reconcileFrom x env found (σ.pruned env.order)).2.driverResources = .ok bytes) :
    (s.reconcileFrom x env found (σ.pruned env.order)).2.Quiet x env' found
      (σ.pruned env.order) := by
  have hpruned := pruneClaimDevices_pruned env.order env'.order σ
  have hkept := Store.pruned_eq_self hpruned
  have hagain := s.reconcileFrom_again hs hnode hmarshal
  generalize (s.reconcileFrom x env found (σ.pruned env.order)).2 = next at hagain
  generalize σ.pruned env.order = τ at hpruned hkept hagain
  -- The stores are pruned, so that the second reconcile has nothing to write.
  have hreads := fun faults => commands_applyDiscoveryLocked x next found faults hpruned
  refine ⟨hreads, fun faults => eval_snd_of_reads (hreads faults), ?_, ?_⟩
  · intro faults r hr
    have hpost := (applyDiscoveryLocked_faulty x next env' found τ).eval faults
    rw [hr] at hpost
    obtain ⟨hτ, rfl⟩ := hpost
    rw [hτ, hkept]
    exact hagain
  · have hpost :=
      (applyDiscoveryLocked_executes (x := x) (s := next) (σ := τ) env' found).eval fun _ => ()
    cases hr :
        ((next.applyDiscoveryLocked x env' found).run.eval reliableStore (fun _ => ()) τ).1 with
    | ok r => exact ⟨r, rfl⟩
    | error e =>
      rw [hr] at hpost
      exact hpost.elim

end Reconcile

/-- **Quiescence.** In every reachable state, after a reconcile that succeeds, a reconcile that
finds the same devices and the same nodes, at whatever time, reports no change, keeps the tracked
devices and the resources, and writes no file. -/
theorem reconcile_quiescent (x : External) (w : World) (hw : w.Reachable x) (s : DeviceState)
    (hs : w.Memory s) (found : List Device) (env env' : Env)
    (hnode : ∀ path, s.deviceNodeExists env'.stat path = s.deviceNodeExists env.stat path)
    (faults : ℕ → Fault) (r : ReconcileResult) (next : DeviceState) (τ : Store)
    (hfirst : (s.applyDiscoveryLocked x env found).run.eval faultyStore faults w.ledger.toStore =
      (.ok (r, next), τ))
    (hmarshal : ∃ bytes, x.marshalResources next.driverResources = .ok bytes) :
    next.Quiet x env' found τ := by
  have hpost := (applyDiscoveryLocked_faulty x s env found w.ledger.toStore).eval faults
  rw [hfirst] at hpost
  obtain ⟨hτ, hr⟩ : τ = w.ledger.toStore.pruned env.order ∧
    (r, next) = s.reconcileFrom x env found τ := hpost
  obtain rfl : next = _ := congrArg Prod.snd hr
  subst hτ
  exact DeviceState.quiet_reconcileFrom (hw.consistent hs).keyed hnode hmarshal

/-- The first reconcile of a process that finds two decoders, and a later one. -/
theorem reconcile_quiescent_decoders :
    ((freshState hostFlags).reconcileFrom plainExternal (hostEnv 0 bothNodes) bothFound {}).2.Quiet
      plainExternal (hostEnv 7 bothNodes) bothFound {} :=
  reconcile_quiescent plainExternal {} ⟨[], rfl⟩ (freshState hostFlags) (.inr ⟨rfl, hostFlags, rfl⟩)
    bothFound (hostEnv 0 bothNodes) (hostEnv 7 bothNodes) (fun _ => rfl) (fun _ => .none) _ _ _ rfl
    ⟨_, rfl⟩

end RockchipDra.Plugin
