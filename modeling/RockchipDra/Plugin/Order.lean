import RockchipDra.Plugin.Published
import RockchipDra.Plugin.Session

/-!
# Reconciles and the order of Go's loops over maps

Five loops of a reconcile range over maps, in orders that the language leaves open. Pruning, the
list of tracked devices, and the comparison of healths do not depend on them: their results are
maps, sorted lists, and conjunctions. The merge of the snapshots does. A later claim replaces what
an earlier one recorded under the same name, and after a restart the merged snapshot is the device
that is published.

`orderIndependent_iff` says exactly when a reconcile does not depend on the orders: when the claims
that record a device under a name that is neither found nor tracked agree on it.
-/

namespace RockchipDra.Plugin

open Go Discovery Effect

/-! ## Loops whose order does not matter -/

/-- Pruning does not depend on the order of its loop. -/
theorem pruneClaimDevices_order (o o' : MapOrder Loop) (cp : Checkpoint) (file : ClaimDevicesFile) :
    pruneClaimDevices o cp file = pruneClaimDevices o' cp file := by
  -- Neither the flag nor the entries mention the order.
  have hflag : (pruneClaimDevices o cp file).1 = (pruneClaimDevices o' cp file).1 := by
    rw [Bool.eq_iff_iff, pruneClaimDevices_fst, pruneClaimDevices_fst]
  have hclaims :
      (pruneClaimDevices o cp file).2.claims = (pruneClaimDevices o' cp file).2.claims := by
    refine Std.ExtTreeMap.ext_getElem? fun uid => ?_
    rw [getElem?_pruneClaimDevices, getElem?_pruneClaimDevices]
  generalize pruneClaimDevices o cp file = p at hflag hclaims
  generalize pruneClaimDevices o' cp file = p' at hflag hclaims
  obtain ⟨b, ⟨claims⟩⟩ := p
  obtain ⟨b', ⟨claims'⟩⟩ := p'
  cases hflag
  cases hclaims
  rfl

/-- The resources of tracked devices do not depend on the order in which these are listed. -/
theorem devicesToResources_order {m : GoMap TrackedDevice} (hm : Keyed m) (nodeName : String)
    (o o' : MapOrder Loop) :
    devicesToResources nodeName (trackedList o m) =
      devicesToResources nodeName (trackedList o' m) := by
  have hperm : (trackedList o m).Perm (trackedList o' m) :=
    ((o.perm _ _).trans (o'.perm _ _).symm).filterMap _
  have hnodup : ((trackedList o m).map fun td => td.name).Nodup :=
    (map_name_trackedList hm o).nodup_iff.mpr Std.ExtTreeMap.nodup_keys
  -- The names are all different, so that sorting leaves one order only.
  have hsort : sortByName (trackedList o m) = sortByName (trackedList o' m) :=
    Slices.sortFunc_congr (Slices.byKey_compareStrings _ _) hperm hnodup
  unfold devicesToResources
  rw [hsort]

/-- The comparison of healths does not depend on the order of its loop. -/
theorem healthEqual_order (o o' : MapOrder Loop) (a b : GoMap TrackedDevice) :
    healthEqual o a b = healthEqual o' a b := by
  unfold healthEqual
  have hperm := (o.perm .healthEqual a.keys).trans (o'.perm .healthEqual a.keys).symm
  rw [hperm.all_eq]

/-- The last part of a reconcile does not depend on the orders of its loops. -/
theorem DeviceState.publishNext_order (x : External) (s : DeviceState) {next : GoMap TrackedDevice}
    (hnext : Keyed next) (env env' : Env) :
    s.publishNext x env next = s.publishNext x env' next := by
  unfold DeviceState.publishNext
  rw [devicesToResources_order hnext s.flags.nodeName env.order env'.order,
    healthEqual_order env.order env'.order]

/-! ## The merge of the snapshots -/

/-- The device that a prepared claim recorded last under a name. -/
def Store.snapshot (σ : Store) (name : String) (uid : UID) : Option Device :=
  if uid ∈ σ.checkpoint.preparedClaims then (σ.claimDevices.claims[uid]?).bind (lastFound · name)
  else none

theorem lastFound_append (l l' : List Device) (name : String) :
    lastFound (l ++ l') name = (lastFound l' name).or (lastFound l name) := by
  unfold lastFound
  rw [List.reverse_append, List.find?_append]

/-- The device found last in the lists of all claims is that of the last claim that has one. -/
theorem lastFound_flatMap (l : List UID) (g : UID → List Device) (name : String) :
    lastFound (l.flatMap g) name = l.reverse.findSome? fun uid => lastFound (g uid) name := by
  induction l with
  | nil => rfl
  | cons uid l ih =>
    rw [List.flatMap_cons, lastFound_append, ih, List.reverse_cons, List.findSome?_append]
    congr 1
    rw [List.findSome?_cons]
    cases lastFound (g uid) name <;> rfl

/-- Devices without a name do not count. -/
theorem lastFound_filter {name : String} (hname : name ≠ "") (l : List Device) :
    lastFound (l.filter (·.name ≠ "")) name = lastFound l name := by
  unfold lastFound
  rw [← List.filter_reverse, List.find?_filter]
  congr 1
  funext d
  by_cases hd : d.name = name
  · simp [hd, hname]
  · simp [hd]

/-- The merged snapshot of a name is that of the claim visited last. -/
theorem getElem?_claimedSnapshots_order (o : MapOrder Loop) (σ : Store) {name : String}
    (hname : name ≠ "") :
    (claimedSnapshots o σ.checkpoint σ.claimDevices)[name]? =
      (o.order .claimedSnapshots σ.claimDevices.claims.keys).reverse.findSome?
        (σ.snapshot name) := by
  rw [getElem?_claimedSnapshots, claimedDevices, lastFound_flatMap]
  congr 1
  funext uid
  unfold Store.snapshot
  split_ifs
  · rw [lastFound_filter hname, Std.ExtTreeMap.getD_eq_getD_getElem?]
    cases σ.claimDevices.claims[uid]? <;> rfl
  · rfl

theorem getElem?_claimedSnapshots_empty (o : MapOrder Loop) (σ : Store) :
    (claimedSnapshots o σ.checkpoint σ.claimDevices)[""]? = none := by
  rw [getElem?_claimedSnapshots, ← Option.not_isSome_iff_eq_none, lastFound_isSome, List.mem_map]
  rintro ⟨d, hd, hname⟩
  exact ((mem_claimedDevices _ _ _ _).mp hd).1 hname

/-- Values found in a list on which all that are found agree. -/
theorem findSome?_eq_of_agree {α β : Type} {f : α → Option β} {l l' : List α} (hperm : l.Perm l')
    (hagree : ∀ a b x y, f a = some x → f b = some y → x = y) : l.findSome? f = l'.findSome? f := by
  -- What is found in one list is found in the other, as any two that are found are equal.
  have hsome :
      ∀ {l l' : List α}, l.Perm l' → ∀ x, l.findSome? f = some x → l'.findSome? f = some x := by
    intro l l' hperm x hx
    obtain ⟨a, ha, hfa⟩ := List.exists_of_findSome?_eq_some hx
    cases hy : l'.findSome? f with
    | none =>
      rw [List.findSome?_eq_none_iff] at hy
      rw [hy a (hperm.mem_iff.mp ha)] at hfa
      cases hfa
    | some y =>
      obtain ⟨b, -, hfb⟩ := List.exists_of_findSome?_eq_some hy
      rw [hagree a b x y hfa hfb]
  cases hx : l.findSome? f with
  | some x => exact (hsome hperm x hx).symm
  | none =>
    cases hy : l'.findSome? f with
    | none => rfl
    | some y => rw [hsome hperm.symm y hy] at hx; cases hx

/-- A name is claimed in every order, whichever snapshot it gets. -/
theorem isSome_claimedSnapshots_order (o o' : MapOrder Loop) (cp : Checkpoint)
    (file : ClaimDevicesFile) (name : String) : (claimedSnapshots o cp file)[name]?.isSome =
      (claimedSnapshots o' cp file)[name]?.isSome := by
  rw [Bool.eq_iff_iff, getElem?_claimedSnapshots, getElem?_claimedSnapshots, lastFound_isSome,
    lastFound_isSome, List.mem_map, List.mem_map]
  simp only [mem_claimedDevices]

/-! ## When a reconcile does not depend on the orders -/

/-- Two reconciles that differ only in the orders of their loops return the same and leave the
same. -/
def DeviceState.OrderIndependent (x : External) (s : DeviceState) (found : List Device)
    (σ : Store) : Prop :=
  ∀ env env' : Env, env.stat = env'.stat → env.now = env'.now →
    (Op.reconcile env found).execute x s σ = (Op.reconcile env' found).execute x s σ

/-- The claims that record a device under a name that is neither found nor tracked agree on it. -/
def DeviceState.SnapshotsAgree (s : DeviceState) (found : List Device) (σ : Store) : Prop :=
  ∀ name, name ≠ "" → name ∉ found.map Device.name → name ∉ s.tracked →
    ∀ u v d d', σ.snapshot name u = some d → σ.snapshot name v = some d' → d = d'

section Reconcile

variable {x : External} {s : DeviceState} {env env' : Env} {found : List Device} {σ : Store}

theorem Store.pruned_order (σ : Store) (o o' : MapOrder Loop) : σ.pruned o = σ.pruned o' := by
  unfold Store.pruned
  rw [pruneClaimDevices_order o o']

/-- Pruning leaves what the prepared claims recorded. -/
theorem Store.snapshot_pruned (σ : Store) (o : MapOrder Loop) :
    (σ.pruned o).snapshot = σ.snapshot := by
  funext name uid
  unfold Store.snapshot
  change (if uid ∈ σ.checkpoint.preparedClaims then
    ((pruneClaimDevices o σ.checkpoint σ.claimDevices).2.claims[uid]?).bind _ else none) = _
  split_ifs with huid
  · rw [getElem?_pruneClaimDevices, if_pos huid]
  · rfl

/-- The merged snapshot of a name on whose snapshots the claims agree. -/
theorem claimedSnapshots_order {name : String} (hname : name ≠ "")
    (hagree : ∀ u v d d', σ.snapshot name u = some d → σ.snapshot name v = some d' → d = d')
    (o o' : MapOrder Loop) :
    (claimedSnapshots o σ.checkpoint σ.claimDevices)[name]? =
      (claimedSnapshots o' σ.checkpoint σ.claimDevices)[name]? := by
  rw [getElem?_claimedSnapshots_order o σ hname, getElem?_claimedSnapshots_order o' σ hname]
  refine findSome?_eq_of_agree ?_ hagree
  exact ((List.reverse_perm _).trans ((o.perm _ _).trans (o'.perm _ _).symm)).trans
    (List.reverse_perm _).symm

/-- Where the claims agree, the tracked devices do not depend on the orders. -/
theorem DeviceState.SnapshotsAgree.nextTracked (h : s.SnapshotsAgree found σ)
    (hstat : env.stat = env'.stat) (hnow : env.now = env'.now) :
    s.nextTracked env found (claimedSnapshots env.order σ.checkpoint σ.claimDevices) =
      s.nextTracked env' found (claimedSnapshots env'.order σ.checkpoint σ.claimDevices) := by
  refine Std.ExtTreeMap.ext_getElem? fun name => ?_
  rw [getElem?_nextTracked, getElem?_nextTracked, hstat, hnow]
  cases hfound : lastFound found name with
  | some d => rfl
  | none =>
    dsimp only
    cases hprev : s.tracked[name]? with
    | some prev =>
      -- The snapshot does not matter, only whether there is one.
      have hsome :=
        isSome_claimedSnapshots_order env.order env'.order σ.checkpoint σ.claimDevices name
      generalize (claimedSnapshots env.order σ.checkpoint σ.claimDevices)[name]? = a at hsome ⊢
      generalize (claimedSnapshots env'.order σ.checkpoint σ.claimDevices)[name]? = b at hsome ⊢
      cases a with
      | none => cases b with
        | none => rfl
        | some snap => cases hsome
      | some snap => cases b with
        | none => cases hsome
        | some snap' => rfl
    | none =>
      by_cases hname : name = ""
      · subst hname
        rw [getElem?_claimedSnapshots_empty, getElem?_claimedSnapshots_empty]
      · have hmissing : name ∉ found.map Device.name := by
          rw [← lastFound_isSome, hfound]
          simp
        have huntracked : name ∉ s.tracked := by
          rw [Std.ExtTreeMap.mem_iff_isSome_getElem?, hprev]
          simp
        rw [claimedSnapshots_order hname (h name hname hmissing huntracked) env.order env'.order]

/-- Loops over maps that visit one key last. -/
def orderWithLast (uid : String) : MapOrder Loop where
  order _ keys := if uid ∈ keys then keys.erase uid ++ [uid] else keys
  perm _ keys := by
    split_ifs with huid
    · exact (List.perm_append_comm.trans (List.perm_cons_erase huid).symm)
    · exact .refl _

/-- The claim that is visited last has its snapshot taken. -/
theorem claimedSnapshots_orderWithLast {name : String} (hname : name ≠ "") {uid : UID} {d : Device}
    (h : σ.snapshot name uid = some d) :
    (claimedSnapshots (orderWithLast uid) σ.checkpoint σ.claimDevices)[name]? = some d := by
  have huid : uid ∈ σ.claimDevices.claims.keys := by
    unfold Store.snapshot at h
    split_ifs at h
    obtain ⟨devs, hdevs, -⟩ := Option.bind_eq_some_iff.mp h
    rw [Std.ExtTreeMap.mem_keys, Std.ExtTreeMap.mem_iff_isSome_getElem?, hdevs]
    rfl
  rw [getElem?_claimedSnapshots_order _ _ hname]
  change ((if uid ∈ σ.claimDevices.claims.keys then _ else _ : List String).reverse).findSome? _ = _
  rw [if_pos huid, List.reverse_append, List.reverse_singleton, List.singleton_append,
    List.findSome?_cons, h]

/-- A reconcile does not depend on the orders of its loops if and only if the claims that record a
device under a name that is neither found nor tracked agree on it. -/
theorem orderIndependent_iff (hs : Keyed s.tracked) :
    s.OrderIndependent x found σ ↔ s.SnapshotsAgree found σ := by
  constructor
  · intro h name hname hmissing huntracked u v d d' hd hd'
    -- Two orders that visit either claim last make its snapshot the device that is retained.
    let env (uid : UID) : Env := ⟨fun _ => none, 1, one_ne_zero, orderWithLast uid⟩
    have hentry : ∀ uid d, σ.snapshot name uid = some d →
        (s.reconcileFrom x (env uid) found (σ.pruned (env uid).order)).2.tracked[name]? =
          some (retainedEntry 1 none d) := by
      intro uid d hd
      have hfound : lastFound found name = none := by
        rw [← Option.not_isSome_iff_eq_none, lastFound_isSome]
        exact hmissing
      rw [← Store.snapshot_pruned σ (env uid).order] at hd
      rw [DeviceState.reconcileFrom_tracked, getElem?_nextTracked, hfound,
        Std.ExtTreeMap.getElem?_eq_none huntracked]
      dsimp only
      rw [claimedSnapshots_orderWithLast hname hd]
      rfl
    have hsame := h (env u) (env v) rfl rfl
    rw [execute_reconcile, execute_reconcile] at hsame
    have hstate : (s.reconcileFrom x (env u) found (σ.pruned (env u).order)).2 =
        (s.reconcileFrom x (env v) found (σ.pruned (env v).order)).2 := by
      have hout := Except.ok.inj (congrArg Prod.fst hsame)
      exact (Outcome.reconciled.inj hout).2
    have hretained := hentry u d hd
    rw [hstate, hentry v d' hd'] at hretained
    exact (congrArg TrackedDevice.toDevice (Option.some.inj hretained)).symm
  · intro h env env' hstat hnow
    -- A reconcile looks at the stores after pruning, which keeps what prepared claims recorded.
    have h' : s.SnapshotsAgree found (σ.pruned env.order) := by
      unfold DeviceState.SnapshotsAgree
      rw [Store.snapshot_pruned]
      exact h
    have hkeyed := nextTracked_keyed hs env found env.order
      (σ.pruned env.order).checkpoint (σ.pruned env.order).claimDevices
    rw [execute_reconcile, execute_reconcile, ← σ.pruned_order env.order env'.order]
    unfold DeviceState.reconcileFrom
    rw [← h'.nextTracked hstat hnow, s.publishNext_order x hkeyed env env']

end Reconcile

/-- The memory that a reconcile works on: that of the process, or an empty one where a process
starts. -/
def World.Memory (w : World) (s : DeviceState) : Prop :=
  w.state = some s ∨ w.state = none ∧ ∃ f, s = freshState f

/-- The entries of a reachable memory stand under the names of their devices. -/
theorem World.Reachable.consistent {x : External} {w : World} (hw : w.Reachable x) {s : DeviceState}
    (hs : w.Memory s) : s.Consistent := by
  have hkeeps : w.Keeps x (fun _ _ _ => True) Consistent :=
    hw.keeps (fun _ _ _ _ h hl => hl.transition h) (by rintro s ⟨⟩)
  rcases hs with hs | ⟨-, f, rfl⟩
  · exact hkeeps.2 s hs
  · exact freshState_consistent f

/-- **Order of the loops.** In every reachable state, with every enumeration, a reconcile does not
depend on the orders in which Go iterates its maps if and only if the prepared claims that record a
device under a name that is neither found nor tracked agree on it. -/
theorem reconcile_order_independent_iff (x : External) (w : World) (hw : w.Reachable x)
    (s : DeviceState) (hs : w.Memory s) (found : List Device) :
    s.OrderIndependent x found w.ledger.toStore ↔ s.SnapshotsAgree found w.ledger.toStore :=
  orderIndependent_iff (hw.consistent hs).keyed

/-! ## Two snapshots of one name -/

/-- No I/O error. -/
def Event.isFaultless : Event → Bool
  | .command .none => true
  | .command _ => false
  | _ => true

/-- A claim is prepared with the first decoder. The decoder is unbound, so that its name passes to
the second one, and another claim is prepared with it. Then the process is stopped. -/
def twoSnapshotsEvents : List Event :=
  bootDecoders bothNodes ++ prepareDecoder "a" "vpu-rkvdec-0" ++
    reconcileDecoders bothNodes secondFound ++ [.finish] ++ prepareDecoder "b" "vpu-rkvdec-0" ++
      [.crash]

/-- The snapshots that the two claims leave. -/
theorem twoSnapshotsEvents_stores :
    (run (World.step plainExternal) {} twoSnapshotsEvents).map (fun w =>
      (w.state.isNone, (w.ledger.toStore.snapshot "vpu-rkvdec-0" "a").map Device.deviceNode,
        (w.ledger.toStore.snapshot "vpu-rkvdec-0" "b").map Device.deviceNode)) =
      some (true, some "/dev/video1", some "/dev/video2") := by
  decide +kernel

/-- After a restart that finds no device, the claims do not agree. -/
theorem twoSnapshotsEvents_disagree :
    ∃ w, run (World.step plainExternal) {} twoSnapshotsEvents = some w ∧
      w.Memory (freshState hostFlags) ∧
        ¬(freshState hostFlags).SnapshotsAgree [] w.ledger.toStore := by
  have hstores := twoSnapshotsEvents_stores
  rw [Option.map_eq_some_iff] at hstores
  obtain ⟨w, hw, hstores⟩ := hstores
  simp only [Prod.mk.injEq, Option.map_eq_some_iff] at hstores
  obtain ⟨hdown, ⟨d, hd, hnode⟩, d', hd', hnode'⟩ := hstores
  refine ⟨w, hw, .inr ⟨Option.isNone_iff_eq_none.mp hdown, hostFlags, rfl⟩, ?_⟩
  intro hagree
  -- The name is neither found nor tracked after the restart, and the two nodes differ.
  have heq := hagree "vpu-rkvdec-0" (by decide) (by simp) (by simp [freshState]) "a" "b" d d' hd hd'
  rw [heq, hnode'] at hnode
  exact absurd hnode (by decide)

/-- A restart after these events depends on the order. -/
theorem reconcile_order_independent_iff_decoders : ∃ w : World, w.Reachable plainExternal ∧
    w.Memory (freshState hostFlags) ∧
    ¬(freshState hostFlags).OrderIndependent plainExternal [] w.ledger.toStore := by
  obtain ⟨w, hw, hmemory, hdisagree⟩ := twoSnapshotsEvents_disagree
  refine ⟨w, ⟨_, hw⟩, hmemory, fun h => hdisagree ?_⟩
  exact (reconcile_order_independent_iff plainExternal w ⟨_, hw⟩ _ hmemory []).mp h

/-- It is not so that every reconcile in a state reached without I/O errors is independent of the
orders in which Go iterates its maps. -/
theorem snapshot_merge_depends_on_order :
    ¬∀ (x : External) (es : List Event) (w : World) (s : DeviceState) (found : List Device),
      (∀ e ∈ es, e.isFaultless = true) → run (World.step x) {} es = some w → w.Memory s →
        s.OrderIndependent x found w.ledger.toStore := by
  intro h
  obtain ⟨w, hw, hmemory, hdisagree⟩ := twoSnapshotsEvents_disagree
  have hfaultless : ∀ e ∈ twoSnapshotsEvents, e.isFaultless = true := by
    simp [twoSnapshotsEvents, bootDecoders, prepareDecoder, reconcileDecoders, Event.isFaultless]
  have hindependent := h plainExternal twoSnapshotsEvents w _ [] hfaultless hw hmemory
  exact hdisagree ((orderIndependent_iff (freshState_consistent hostFlags).keyed).mp hindependent)

end RockchipDra.Plugin
