import RockchipDra.Plugin.State

/-!
# The stores, and what one command of an operation does to them

`Store` holds the three stores, and `Ledger` adds to them an auxiliary record of what was prepared.

`Op.Step` says once what a single command of an operation can do to the stores when no other process
writes them, and `Op.Post` what holds when an operation returns. `Op.program_safe` proves both for
every operation, with every fault. All results about one process follow from these two relations and
do not look into the programs again.
-/

namespace RockchipDra.Plugin

open Go Discovery Effect

/-- The persistent stores. The CDI specs are kept by the name of their file. -/
structure Store where
  checkpoint : Checkpoint := {}
  claimDevices : ClaimDevicesFile := {}
  specs : GoMap Spec := ∅
  deriving DecidableEq

/-- What a read finds. -/
def Store.get (σ : Store) : (r : StoreRead) → r.Value
  | .checkpoint => σ.checkpoint
  | .claimDevices => σ.claimDevices

/-- The stores after a write. -/
def Store.put (σ : Store) : StoreWrite → Store
  | .checkpoint cp => { σ with checkpoint := cp }
  | .claimDevices file => { σ with claimDevices := file }
  | .spec name spec => { σ with specs := σ.specs.insert name spec }
  | .removeSpec name => { σ with specs := σ.specs.erase name }

/-- The stores when no command fails. -/
def reliableStore : Machine StoreAnswer Unit Store := reliable Store.get Store.put

/-- The stores when every command can fail. -/
def faultyStore : Machine StoreAnswer Fault Store := faulty Store.get Store.put

section Commands

variable {guar : Store → Store → Prop} {σ : Store}

theorem readCheckpoint_faulty {post : Checkpoint → Store → Prop} (hidle : guar σ σ)
    (h : post σ.checkpoint σ) :
    readCheckpoint.Alone faultyStore guar post (fun _ _ => True) σ :=
  alone_read_faulty (r := StoreRead.checkpoint) hidle h

theorem readClaimDevices_faulty {post : ClaimDevicesFile → Store → Prop} (hidle : guar σ σ)
    (h : post σ.claimDevices σ) :
    readClaimDevices.Alone faultyStore guar post (fun _ _ => True) σ :=
  alone_read_faulty (r := StoreRead.claimDevices) hidle h

theorem write_faulty {post : Unit → Store → Prop} {w : StoreWrite} (hidle : guar σ σ)
    (hstep : guar σ (σ.put w)) (h : post () (σ.put w)) :
    (StorageM.write (V := StoreRead.Value) w).Alone faultyStore guar post (fun _ _ => True) σ :=
  alone_write_faulty hidle hstep h

end Commands

/-- The stores with an auxiliary record of what was prepared. -/
structure Ledger extends Store where
  /-- The devices of the last prepare of each claim that reached its snapshot write. -/
  recorded : UID → Option (List Device) := fun _ => none

/-- What a snapshot write of an operation records: the claim and the devices of a prepare. -/
def Op.snapshot (s : DeviceState) : Op → Option (UID × List Device)
  | .prepare env claim =>
    match s.computeDevices env claim with
    | .ok devices => some (claim.uid, devices.map PreparedDevice.discovered)
    | .error _ => none
  | .unprepare _ => none
  | .reconcile _ _ => none

/-- The stores after a write, with a note taken when the claim devices are replaced. -/
def Ledger.put (note : Option (UID × List Device)) (l : Ledger) (w : StoreWrite) : Ledger :=
  { toStore := l.toStore.put w
    recorded :=
      match w with
      | .claimDevices _ =>
        note.elim l.recorded fun n => Function.update l.recorded n.1 (some n.2)
      | _ => l.recorded }

/-- The stores as one operation of a process uses them. Any command can fail. -/
def Op.machine (s : DeviceState) (op : Op) : Machine StoreAnswer Fault Ledger :=
  faulty (fun l => l.toStore.get) (Ledger.put (op.snapshot s))

/-! ## What one command can do -/

/-- What a reconcile returns when it finds the stores as they are. -/
def DeviceState.reconcileFrom (x : External) (s : DeviceState) (env : Env) (found : List Device)
    (σ : Store) : ReconcileResult × DeviceState :=
  s.publishNext x env (s.nextTracked env found
    (claimedSnapshots env.order σ.checkpoint σ.claimDevices))

/-- The tracked devices that a reconcile leaves. -/
theorem DeviceState.reconcileFrom_tracked (x : External) (s : DeviceState) (env : Env)
    (found : List Device) (σ : Store) : (s.reconcileFrom x env found σ).2.tracked =
      s.nextTracked env found (claimedSnapshots env.order σ.checkpoint σ.claimDevices) := rfl

/-- The resources that a reconcile leaves are those of the devices that it tracks. -/
theorem DeviceState.reconcileFrom_driverResources (x : External) (s : DeviceState) (env : Env)
    (found : List Device) (σ : Store) : (s.reconcileFrom x env found σ).2.driverResources =
      devicesToResources s.flags.nodeName
        (trackedList env.order (s.reconcileFrom x env found σ).2.tracked) := rfl

/-- A store records `d` for a claim that is prepared. -/
def Store.Claimed (σ : Store) (d : Device) : Prop :=
  ∃ uid ∈ σ.checkpoint.preparedClaims, ∃ devs, σ.claimDevices.claims[uid]? = some devs ∧ d ∈ devs

/-- The devices recorded for the prepared claims. -/
def Store.claimed (σ : Store) : List Device :=
  σ.checkpoint.preparedClaims.flatMap fun uid => σ.claimDevices.claims.getD uid []

theorem Store.mem_claimed (σ : Store) (d : Device) : d ∈ σ.claimed ↔ σ.Claimed d := by
  unfold Store.claimed Store.Claimed
  rw [List.mem_flatMap]
  refine exists_congr fun uid => and_congr_right fun _ => ?_
  rw [Std.ExtTreeMap.getD_eq_getD_getElem?]
  cases σ.claimDevices.claims[uid]? with
  | none => simp
  | some devs => simp

/-- After a reconcile the tracked names are those that were found and those of prepared claims. -/
theorem DeviceState.mem_reconcileFrom_tracked (x : External) (s : DeviceState) (env : Env)
    (found : List Device) (σ : Store) (name : String) :
    name ∈ (s.reconcileFrom x env found σ).2.tracked ↔
      name ∈ found.map Device.name ∨ name ≠ "" ∧ ∃ d, σ.Claimed d ∧ d.name = name := by
  -- A name has a snapshot if a prepared claim records a device of that name.
  have hclaimed : (lastFound (claimedDevices env.order σ.checkpoint σ.claimDevices) name).isSome ↔
      name ≠ "" ∧ ∃ d, σ.Claimed d ∧ d.name = name := by
    rw [lastFound_isSome, List.mem_map]
    constructor
    · rintro ⟨d, hd, rfl⟩
      rw [mem_claimedDevices] at hd
      exact ⟨hd.1, d, hd.2, rfl⟩
    · rintro ⟨hname, d, hd, rfl⟩
      exact ⟨d, (mem_claimedDevices _ _ _ _).mpr ⟨hname, hd⟩, rfl⟩
  rw [reconcileFrom_tracked, Std.ExtTreeMap.mem_iff_isSome_getElem?, getElem?_nextTracked,
    getElem?_claimedSnapshots, ← lastFound_isSome, ← hclaimed]
  cases lastFound found name with
  | some d => simp
  | none => simp

/-- What a single command of an operation can do to the stores. -/
inductive Op.Step (s : DeviceState) : Op → Ledger → Ledger → Prop
  /-- A read, or a write that fails before it takes effect. -/
  | idle (op : Op) (l : Ledger) : Step s op l l
  /-- A CDI spec is written or removed. -/
  | specs (op : Op) (l : Ledger) (specs : GoMap Spec) : Step s op l { l with specs := specs }
  /-- A prepare records its devices. -/
  | record (env : Env) (claim : ResourceClaim) (devices : List PreparedDevice) (l : Ledger)
      (hdevices : s.computeDevices env claim = .ok devices) :
      Step s (.prepare env claim) l
        { l with
          claimDevices :=
            { claims := l.claimDevices.claims.insert claim.uid (deviceSnapshots devices) }
          recorded := Function.update l.recorded claim.uid (some (deviceSnapshots devices)) }
  /-- A prepare enters its claim in the checkpoint, with its devices recorded. -/
  | commit (env : Env) (claim : ResourceClaim) (devices : List PreparedDevice) (l : Ledger)
      (hdevices : s.computeDevices env claim = .ok devices)
      (hclaims : l.claimDevices.claims[claim.uid]? = some (deviceSnapshots devices))
      (hrecorded : l.recorded claim.uid = some (deviceSnapshots devices)) :
      Step s (.prepare env claim) l { l with checkpoint := l.checkpoint.append claim.uid }
  /-- An unprepare takes its claim out of the checkpoint. -/
  | release (uid : UID) (l : Ledger) :
      Step s (.unprepare uid) l { l with checkpoint := l.checkpoint.delete uid }
  /-- An unprepare forgets the devices of a claim that is no longer prepared. -/
  | forget (uid : UID) (l : Ledger) (huid : uid ∉ l.checkpoint.preparedClaims) :
      Step s (.unprepare uid) l
        { l with claimDevices := { claims := l.claimDevices.claims.erase uid } }
  /-- A reconcile prunes the claims that are not prepared. -/
  | prune (env : Env) (found : List Device) (l : Ledger) :
      Step s (.reconcile env found) l
        { l with claimDevices := (pruneClaimDevices env.order l.checkpoint l.claimDevices).2 }

/-- What holds when an operation returns. -/
inductive Op.Post (x : External) (s : DeviceState) : Op → Except String Outcome → Ledger → Prop
  /-- An error says nothing about the stores. -/
  | failed (op : Op) (e : String) (l : Ledger) : Post x s op (.error e) l
  /-- A claim is prepared with the devices that were computed, and they are recorded. -/
  | prepared (env : Env) (claim : ResourceClaim) (devices : List PreparedDevice) (l : Ledger)
      (hdevices : s.computeDevices env claim = .ok devices)
      (hclaims : l.claimDevices.claims[claim.uid]? = some (deviceSnapshots devices))
      (huid : claim.uid ∈ l.checkpoint.preparedClaims) :
      Post x s (.prepare env claim) (.ok (.prepared devices)) l
  /-- An unprepared claim is not in the checkpoint. -/
  | unprepared (uid : UID) (l : Ledger) (huid : uid ∉ l.checkpoint.preparedClaims) :
      Post x s (.unprepare uid) (.ok .unprepared) l
  /-- A reconcile returns what follows from the stores as it leaves them. -/
  | reconciled (env : Env) (found : List Device) (l : Ledger) :
      Post x s (.reconcile env found)
        (.ok (.reconciled (s.reconcileFrom x env found l.toStore).1
          (s.reconcileFrom x env found l.toStore).2)) l

/-! ## The operations, command by command -/

section Programs

variable {x : External} {s : DeviceState} {l : Ledger}

/-- The note that a prepare takes when it replaces the claim devices. -/
theorem put_record {env : Env} {claim : ResourceClaim} {devices : List PreparedDevice}
    (hdevices : s.computeDevices env claim = .ok devices) (l : Ledger) (file : ClaimDevicesFile) :
    l.put ((Op.prepare env claim).snapshot s) (.claimDevices file) =
      { l with
        claimDevices := file
        recorded := Function.update l.recorded claim.uid (some (deviceSnapshots devices)) } := by
  have hnote : (Op.prepare env claim).snapshot s = some (claim.uid, deviceSnapshots devices) := by
    simp only [Op.snapshot, hdevices]
    rfl
  rw [hnote]
  rfl

/-- The commands of a prepare. -/
theorem prepare_alone (env : Env) (claim : ResourceClaim) :
    (s.prepare x env claim).Alone (Op.machine s (.prepare env claim))
      (Op.Step s (.prepare env claim))
      (fun devices t => Op.Post x s (.prepare env claim) (.ok (.prepared devices)) t)
      (fun _ _ => True) l := by
  refine Fallible.alone_bind (Fallible.alone_mapError (alone_read_faulty (.idle _ _) ?_))
  refine Fallible.alone_bind
    (Fallible.alone_ofExcept (fun devices hdevices => ?_) (fun _ _ => trivial))
  -- The CDI spec.
  refine Fallible.alone_bind (Fallible.alone_mapError
    (Fallible.alone_bind (Fallible.alone_ofExcept (fun spec _ => ?_) (fun _ _ => trivial))))
  refine alone_write_faulty (.idle _ _) (.specs _ _ _) ?_
  -- The snapshot.
  refine Fallible.alone_bind (Fallible.alone_mapError
    (Fallible.alone_bind (alone_read_faulty (.idle _ _) ?_)))
  refine alone_write_faulty (.idle _ _) ?_ ?_
  · rw [put_record hdevices]
    exact .record env claim devices _ hdevices
  -- The checkpoint, which is written if the claim is new.
  rw [put_record hdevices]
  have hclaims : ∀ claims : GoMap (List Device),
      (claims.insert claim.uid (deviceSnapshots devices))[claim.uid]? =
        some (deviceSnapshots devices) :=
    fun claims => Std.ExtTreeMap.getElem?_insert_self
  have hrecorded : ∀ recorded : UID → Option (List Device),
      Function.update recorded claim.uid (some (deviceSnapshots devices)) claim.uid =
        some (deviceSnapshots devices) :=
    fun recorded => Function.update_self _ _ _
  by_cases huid : claim.uid ∉ l.checkpoint.preparedClaims
  · change Fallible.Alone _ _ _ _ (if claim.uid ∉ l.checkpoint.preparedClaims then _ else _) _
    rw [if_pos huid]
    refine Fallible.alone_bind (Fallible.alone_mapError (alone_write_faulty (.idle _ _) ?_ ?_))
    · exact .commit env claim devices _ hdevices (hclaims _) (hrecorded _)
    · refine Fallible.alone_pure (.prepared env claim devices _ hdevices (hclaims _) ?_)
      change claim.uid ∈ (l.checkpoint.append claim.uid).preparedClaims
      simp
  · change Fallible.Alone _ _ _ _ (if claim.uid ∉ l.checkpoint.preparedClaims then _ else _) _
    rw [if_neg huid]
    refine Fallible.alone_pure (.prepared env claim devices _ hdevices (hclaims _) ?_)
    exact not_not.mp huid

/-- The commands of an unprepare. -/
theorem unprepare_alone (uid : UID) :
    (s.unprepare x uid).Alone (Op.machine s (.unprepare uid)) (Op.Step s (.unprepare uid))
      (fun _ t => Op.Post x s (.unprepare uid) (.ok .unprepared) t) (fun _ _ => True) l := by
  refine Fallible.alone_bind (Fallible.alone_mapError (alone_read_faulty (.idle _ _) ?_))
  refine Fallible.alone_bind
    (Fallible.alone_mapError (alone_write_faulty (.idle _ _) (.specs _ _ _) ?_))
  refine Fallible.alone_bind
    (Fallible.alone_mapError (alone_write_faulty (.idle _ _) (.release uid _) ?_))
  -- The claim has left the checkpoint; its snapshot is forgotten if there is one.
  have huid : uid ∉ (l.checkpoint.delete uid).preparedClaims := by simp
  refine Fallible.alone_mapError (Fallible.alone_bind (alone_read_faulty (.idle _ _) ?_))
  change Fallible.Alone _ _ _ _ (if uid ∈ l.claimDevices.claims then _ else _) _
  split_ifs
  · exact alone_write_faulty (.idle _ _) (.forget uid _ huid) (.unprepared uid _ huid)
  · exact Fallible.alone_pure (.unprepared uid _ huid)

/-- A reconcile that returns what follows from the stores. -/
theorem Op.Post.of_eq {env : Env} {found : List Device} {r : ReconcileResult × DeviceState}
    (h : r = s.reconcileFrom x env found l.toStore) :
    Op.Post x s (.reconcile env found) (.ok (.reconciled r.1 r.2)) l := by
  rw [h]
  exact .reconciled env found l

/-- The commands of a reconcile. -/
theorem applyDiscoveryLocked_alone (env : Env) (found : List Device) :
    (s.applyDiscoveryLocked x env found).Alone (Op.machine s (.reconcile env found))
      (Op.Step s (.reconcile env found))
      (fun r t => Op.Post x s (.reconcile env found) (.ok (.reconciled r.1 r.2)) t)
      (fun _ _ => True) l := by
  refine Fallible.alone_bind (Fallible.alone_mapError (alone_read_faulty (.idle _ _) ?_))
  refine Fallible.alone_bind (Fallible.alone_mapError (alone_read_faulty (.idle _ _) ?_))
  change Fallible.Alone _ _ _ _
    (if (pruneClaimDevices env.order l.checkpoint l.claimDevices).1 then _ else _) _
  -- What was pruned is written before the snapshots are merged, so both see the same claims.
  split_ifs with hpruned
  · refine Fallible.alone_bind (Fallible.alone_mapError
      (alone_write_faulty (.idle _ _) (.prune env found _) ?_))
    refine Fallible.alone_pure (Op.Post.of_eq ?_)
    unfold DeviceState.reconcileFrom
    rfl
  · refine Fallible.alone_pure (Op.Post.of_eq ?_)
    change s.publishNext x env (s.nextTracked env found (claimedSnapshots env.order l.checkpoint
      (pruneClaimDevices env.order l.checkpoint l.claimDevices).2)) = _
    rw [pruneClaimDevices_unchanged hpruned]
    rfl

/-- Every command of an operation is one of its steps, and it returns what `Op.Post` says. -/
theorem Op.program_safe (x : External) (s : DeviceState) (op : Op) (l : Ledger) :
    (op.program x s).run.Safe (op.machine s) Eq (op.Step s) (op.Post x s) l := by
  -- An operation adds nothing to its program but the constructor of what it returns.
  have halone : (op.program x s).Alone (op.machine s) (op.Step s)
      (fun out t => op.Post x s (.ok out) t) (fun _ _ => True) l := by
    cases op with
    | prepare env claim =>
      refine Fallible.alone_bind (Fallible.Safe.mono (fun _ _ h => h) ?_ (fun _ _ _ => trivial)
        (prepare_alone env claim))
      exact fun devices t h => Fallible.alone_pure h
    | unprepare uid =>
      refine Fallible.alone_bind (Fallible.Safe.mono (fun _ _ h => h) ?_ (fun _ _ _ => trivial)
        (unprepare_alone uid))
      exact fun _ t h => Fallible.alone_pure h
    | reconcile env found =>
      refine Fallible.alone_bind (Fallible.Safe.mono (fun _ _ h => h) ?_ (fun _ _ _ => trivial)
        (applyDiscoveryLocked_alone env found))
      exact fun r t h => Fallible.alone_pure h
  exact Fallible.Safe.run (halone.mono (fun _ _ h => h) (fun _ _ h => h)
    (fun e t _ => .failed op e t))

end Programs

end RockchipDra.Plugin
