import RockchipDra.Plugin.Store

/-!
# Operations without I/O errors

A process that runs one operation after the other, on stores in which no command fails and that no
other process writes. `Op.Executes` says all that an operation then does: what it returns, and the
stores that it leaves. What is proved about whole histories of such operations starts from it.
-/

namespace RockchipDra.Plugin

open Go Discovery Effect

/-! ## Histories of operations -/

/-- A process and the stores. -/
structure Session where
  state : DeviceState
  store : Store := {}

/-- What an operation returned. -/
abbrev Result := Except String Outcome

/-- The memory after an operation returned. An error leaves it as it was. -/
def resultMemory (s : DeviceState) : Result → DeviceState
  | .ok out => out.memory s
  | .error _ => s

/-- Run an operation to its end. -/
def Op.execute (x : External) (s : DeviceState) (σ : Store) (op : Op) : Result × Store :=
  (op.program x s).run.eval reliableStore (fun _ => ()) σ

/-- The stores in which no command fails are those in which every command could. -/
theorem eval_faultyStore_none {α : Type} (p : Prog StoreAnswer α) (σ : Store) :
    p.eval faultyStore (fun _ => .none) σ = p.eval reliableStore (fun _ => ()) σ := by
  induction p generalizing σ with
  | ret a => rfl
  | call c k ih => exact ih _ _

/-- The session after an operation, and what the operation returned. -/
def Session.exec (x : External) (p : Session) (op : Op) : Result × Session :=
  let r := op.execute x p.state p.store
  (r.1, { state := resultMemory p.state r.1, store := r.2 })

/-- The session after a list of operations, and the operations with what they returned. -/
def Session.run (x : External) (p : Session) : List Op → List (Op × Result) × Session
  | [] => ([], p)
  | op :: ops =>
    let r := p.exec x op
    let q := r.2.run x ops
    ((op, r.1) :: q.1, q.2)

@[simp] theorem Session.run_nil (x : External) (p : Session) : p.run x [] = ([], p) := rfl

@[simp] theorem Session.run_cons (x : External) (p : Session) (op : Op) (ops : List Op) :
    p.run x (op :: ops) =
      ((op, (p.exec x op).1) :: ((p.exec x op).2.run x ops).1, ((p.exec x op).2.run x ops).2) := rfl

/-- A history goes through the end of its first part. -/
theorem Session.run_append (x : External) (p : Session) (ops ops' : List Op) :
    p.run x (ops ++ ops') =
      ((p.run x ops).1 ++ ((p.run x ops).2.run x ops').1, ((p.run x ops).2.run x ops').2) := by
  induction ops generalizing p with
  | nil => rfl
  | cons op ops ih =>
      rw [List.cons_append, Session.run_cons, ih, Session.run_cons, List.cons_append]

/-! ## What an operation does -/

/-- A claim appended to the prepared ones, unless it is one of them. -/
def Checkpoint.add (cp : Checkpoint) (uid : UID) : Checkpoint :=
  if uid ∈ cp.preparedClaims then cp else cp.append uid

theorem Checkpoint.mem_add (cp : Checkpoint) (uid u : UID) :
    u ∈ (cp.add uid).preparedClaims ↔ u ∈ cp.preparedClaims ∨ u = uid := by
  unfold Checkpoint.add
  split_ifs with huid
  · constructor
    · exact Or.inl
    · rintro (h | rfl)
      · exact h
      · exact huid
  · simp

/-- The stores after a prepare. -/
def Store.prepared (σ : Store) (uid : UID) (devs : List Device) (name : String) (spec : Spec) :
    Store :=
  { checkpoint := σ.checkpoint.add uid
    claimDevices := { claims := σ.claimDevices.claims.insert uid devs }
    specs := σ.specs.insert name spec }

/-- The stores after an unprepare. -/
def Store.unprepared (σ : Store) (uid : UID) (name : String) : Store :=
  { checkpoint := σ.checkpoint.delete uid
    claimDevices := { claims := σ.claimDevices.claims.erase uid }
    specs := σ.specs.erase name }

/-- The stores after a reconcile. -/
def Store.pruned (σ : Store) (o : MapOrder Loop) : Store :=
  { σ with claimDevices := (pruneClaimDevices o σ.checkpoint σ.claimDevices).2 }

/-- Where there is nothing to prune, a reconcile leaves the stores as they are. -/
theorem Store.pruned_eq_self {σ : Store} {o : MapOrder Loop}
    (h : ¬(pruneClaimDevices o σ.checkpoint σ.claimDevices).1 = true) : σ.pruned o = σ := by
  unfold Store.pruned
  rw [pruneClaimDevices_unchanged h]

/-- What an operation on the memory `s` and the stores `σ` returns and leaves. -/
inductive Op.Executes (x : External) (s : DeviceState) (σ : Store) : Op → Result → Store → Prop
  /-- The claim cannot be prepared. -/
  | unavailable (env : Env) (claim : ResourceClaim) (e : String)
      (h : s.computeDevices env claim = .error e) : Executes x s σ (.prepare env claim) (.error e) σ
  /-- The CDI library refuses the spec of the claim. -/
  | refused (env : Env) (claim : ResourceClaim) (devices : List PreparedDevice) (e : String)
      (hdevices : s.computeDevices env claim = .ok devices)
      (hspec : buildSpec x s.flags env.stat claim.uid devices = .error e) :
      Executes x s σ (.prepare env claim)
        (.error ("unable to create CDI spec file for claim" ++ ": " ++ e)) σ
  /-- The claim is prepared. -/
  | prepared (env : Env) (claim : ResourceClaim) (devices : List PreparedDevice) (spec : Spec)
      (hdevices : s.computeDevices env claim = .ok devices)
      (hspec : buildSpec x s.flags env.stat claim.uid devices = .ok spec) :
      Executes x s σ (.prepare env claim) (.ok (.prepared devices))
        (σ.prepared claim.uid (deviceSnapshots devices) (specName x s.flags claim.uid) spec)
  /-- A claim is unprepared, whether it was prepared or not. -/
  | unprepared (uid : UID) :
      Executes x s σ (.unprepare uid) (.ok .unprepared)
        (σ.unprepared uid (specName x s.flags uid))
  /-- The tracked devices are updated, and the entries of unprepared claims are pruned. -/
  | reconciled (env : Env) (found : List Device) :
      Executes x s σ (.reconcile env found)
        (.ok (.reconciled (s.reconcileFrom x env found (σ.pruned env.order)).1
          (s.reconcileFrom x env found (σ.pruned env.order)).2))
        (σ.pruned env.order)

section Programs

variable {x : External} {s : DeviceState} {σ : Store}

theorem readCheckpoint_reliable {post : Checkpoint → Store → Prop} {fail : String → Store → Prop}
    (h : post σ.checkpoint σ) :
    readCheckpoint.Alone reliableStore (fun _ _ => True) post fail σ :=
  alone_read_reliable (r := StoreRead.checkpoint) trivial h

theorem readClaimDevices_reliable {post : ClaimDevicesFile → Store → Prop}
    {fail : String → Store → Prop} (h : post σ.claimDevices σ) :
    readClaimDevices.Alone reliableStore (fun _ _ => True) post fail σ :=
  alone_read_reliable (r := StoreRead.claimDevices) trivial h

theorem write_reliable {post : Unit → Store → Prop} {fail : String → Store → Prop} {w : StoreWrite}
    (h : post () (σ.put w)) :
    (StorageM.write (V := StoreRead.Value) w).Alone reliableStore (fun _ _ => True) post fail σ :=
  alone_write_reliable trivial h

/-- What a prepare does. -/
theorem prepare_executes (env : Env) (claim : ResourceClaim) :
    (s.prepare x env claim).Alone reliableStore (fun _ _ => True)
      (fun devices τ => Op.Executes x s σ (.prepare env claim) (.ok (.prepared devices)) τ)
      (fun e τ => Op.Executes x s σ (.prepare env claim) (.error e) τ) σ := by
  refine Fallible.alone_bind (Fallible.alone_mapError (readCheckpoint_reliable ?_))
  refine Fallible.alone_bind
    (Fallible.alone_ofExcept (fun devices hdevices => ?_) (fun e he => .unavailable env claim e he))
  refine Fallible.alone_bind (Fallible.alone_mapError (Fallible.alone_bind
    (Fallible.alone_ofExcept (fun spec hspec => ?_)
      (fun e he => .refused env claim devices e hdevices he))))
  -- Nothing fails after the spec is built.
  refine write_reliable ?_
  refine Fallible.alone_bind (Fallible.alone_mapError (Fallible.alone_bind
    (readClaimDevices_reliable (write_reliable ?_))))
  have hprepared :=
    Op.Executes.prepared (x := x) (s := s) (σ := σ) env claim devices spec hdevices hspec
  unfold Store.prepared Checkpoint.add at hprepared
  change Fallible.Alone _ _ _ _ (if claim.uid ∉ σ.checkpoint.preparedClaims then _ else _) _
  split_ifs with huid
  · rw [if_pos huid] at hprepared
    exact Fallible.alone_pure hprepared
  · rw [if_neg huid] at hprepared
    exact Fallible.alone_bind (Fallible.alone_mapError
      (write_reliable (Fallible.alone_pure hprepared)))

/-- What an unprepare does. -/
theorem unprepare_executes (uid : UID) :
    (s.unprepare x uid).Alone reliableStore (fun _ _ => True)
      (fun _ τ => Op.Executes x s σ (.unprepare uid) (.ok .unprepared) τ) (fun _ _ => False) σ := by
  refine Fallible.alone_bind (Fallible.alone_mapError (readCheckpoint_reliable ?_))
  refine Fallible.alone_bind (Fallible.alone_mapError (write_reliable ?_))
  refine Fallible.alone_bind (Fallible.alone_mapError (write_reliable ?_))
  refine Fallible.alone_mapError (Fallible.alone_bind (readClaimDevices_reliable ?_))
  have hunprepared := Op.Executes.unprepared (x := x) (s := s) (σ := σ) uid
  unfold Store.unprepared at hunprepared
  change Fallible.Alone _ _ _ _ (if uid ∈ σ.claimDevices.claims then _ else _) _
  -- Without an entry nothing is written, and erasing it would change nothing.
  split_ifs with huid
  · exact write_reliable hunprepared
  · rw [Maps.erase_of_not_mem huid] at hunprepared
    exact Fallible.alone_pure hunprepared

/-- What a reconcile does. -/
theorem applyDiscoveryLocked_executes (env : Env) (found : List Device) :
    (s.applyDiscoveryLocked x env found).Alone reliableStore (fun _ _ => True)
      (fun r τ => Op.Executes x s σ (.reconcile env found) (.ok (.reconciled r.1 r.2)) τ)
      (fun _ _ => False) σ := by
  refine Fallible.alone_bind (Fallible.alone_mapError (readCheckpoint_reliable ?_))
  refine Fallible.alone_bind (Fallible.alone_mapError (readClaimDevices_reliable ?_))
  change Fallible.Alone _ _ _ _
    (if (pruneClaimDevices env.order σ.checkpoint σ.claimDevices).1 then _ else _) _
  have hreconciled := Op.Executes.reconciled (x := x) (s := s) (σ := σ) env found
  -- Where nothing is pruned, nothing is written, and the stores are pruned as they are.
  split_ifs with hpruned
  · exact Fallible.alone_bind (Fallible.alone_mapError
      (write_reliable (Fallible.alone_pure hreconciled)))
  · refine Fallible.alone_pure ?_
    rw [Store.pruned_eq_self hpruned] at hreconciled
    rw [pruneClaimDevices_unchanged hpruned]
    exact hreconciled

/-- What an operation does. -/
theorem Op.executes (x : External) (s : DeviceState) (σ : Store) (op : Op) :
    op.Executes x s σ (op.execute x s σ).1 (op.execute x s σ).2 := by
  have halone : (op.program x s).Alone reliableStore (fun _ _ => True)
      (fun out τ => op.Executes x s σ (.ok out) τ)
        (fun e τ => op.Executes x s σ (.error e) τ) σ := by
    cases op with
    | prepare env claim =>
      refine Fallible.alone_bind (Fallible.Safe.mono (fun _ _ h => h) ?_ (fun _ _ h => h)
        (prepare_executes env claim))
      exact fun devices τ h => Fallible.alone_pure h
    | unprepare uid =>
      refine Fallible.alone_bind (Fallible.Safe.mono (fun _ _ h => h) ?_ (fun _ _ h => h.elim)
        (unprepare_executes uid))
      exact fun _ τ h => Fallible.alone_pure h
    | reconcile env found =>
      refine Fallible.alone_bind (Fallible.Safe.mono (fun _ _ h => h) ?_ (fun _ _ h => h.elim)
        (applyDiscoveryLocked_executes env found))
      exact fun r τ h => Fallible.alone_pure h
  have hsafe : (op.program x s).run.Safe reliableStore Eq (fun _ _ => True)
      (fun r τ => op.Executes x s σ r τ) σ :=
    Fallible.Safe.run (halone.mono (fun _ _ h => h) (fun _ _ h => h) (fun _ _ h => h))
  exact hsafe.eval fun _ => ()

/-- What a prepare of a claim that cannot be prepared returns and leaves. -/
theorem execute_prepare_error {env : Env} {claim : ResourceClaim} {e : String}
    (h : s.computeDevices env claim = .error e) :
    (Op.prepare env claim).execute x s σ = (.error e, σ) := by
  have hexec := Op.executes x s σ (.prepare env claim)
  generalize (Op.prepare env claim).execute x s σ = r at hexec
  obtain ⟨result, τ⟩ := r
  cases hexec with
  | unavailable _ _ e' h' =>
    rw [h] at h'
    rw [Except.error.inj h']
  | refused _ _ devices _ hdevices _ =>
    rw [h] at hdevices
    cases hdevices
  | prepared _ _ devices _ hdevices _ =>
    rw [h] at hdevices
    cases hdevices

/-- What a prepare returns and leaves where the CDI library refuses the spec. -/
theorem execute_prepare_refused {env : Env} {claim : ResourceClaim}
    {devices : List PreparedDevice} {e : String}
    (hdevices : s.computeDevices env claim = .ok devices)
    (hspec : buildSpec x s.flags env.stat claim.uid devices = .error e) :
    (Op.prepare env claim).execute x s σ =
      (.error ("unable to create CDI spec file for claim" ++ ": " ++ e), σ) := by
  have hexec := Op.executes x s σ (.prepare env claim)
  generalize (Op.prepare env claim).execute x s σ = r at hexec
  obtain ⟨result, τ⟩ := r
  cases hexec with
  | unavailable _ _ e' h =>
    rw [hdevices] at h
    cases h
  | refused _ _ devices' e' hdevices' hspec' =>
    rw [hdevices] at hdevices'
    obtain rfl := Except.ok.inj hdevices'
    rw [hspec] at hspec'
    rw [Except.error.inj hspec']
  | prepared _ _ devices' spec' hdevices' hspec' =>
    rw [hdevices] at hdevices'
    obtain rfl := Except.ok.inj hdevices'
    rw [hspec] at hspec'
    cases hspec'

/-- What a prepare returns and leaves where the CDI library accepts the spec. -/
theorem execute_prepare {env : Env} {claim : ResourceClaim} {devices : List PreparedDevice}
    {spec : Spec} (hdevices : s.computeDevices env claim = .ok devices)
    (hspec : buildSpec x s.flags env.stat claim.uid devices = .ok spec) :
    (Op.prepare env claim).execute x s σ = (.ok (.prepared devices),
      σ.prepared claim.uid (deviceSnapshots devices) (specName x s.flags claim.uid) spec) := by
  have hexec := Op.executes x s σ (.prepare env claim)
  generalize (Op.prepare env claim).execute x s σ = r at hexec
  obtain ⟨result, τ⟩ := r
  cases hexec with
  | unavailable _ _ e h =>
    rw [hdevices] at h
    cases h
  | refused _ _ devices' e hdevices' hspec' =>
    rw [hdevices] at hdevices'
    obtain rfl := Except.ok.inj hdevices'
    rw [hspec] at hspec'
    cases hspec'
  | prepared _ _ devices' spec' hdevices' hspec' =>
    rw [hdevices] at hdevices'
    obtain rfl := Except.ok.inj hdevices'
    rw [hspec] at hspec'
    obtain rfl := Except.ok.inj hspec'
    rfl

/-- What an unprepare returns and leaves. -/
theorem execute_unprepare (uid : UID) :
    (Op.unprepare uid).execute x s σ =
      (.ok .unprepared, σ.unprepared uid (specName x s.flags uid)) := by
  have hexec := Op.executes x s σ (.unprepare uid)
  generalize (Op.unprepare uid).execute x s σ = r at hexec
  obtain ⟨result, τ⟩ := r
  cases hexec with
  | unprepared => rfl

/-- What a reconcile returns and leaves. -/
theorem execute_reconcile (env : Env) (found : List Device) :
    (Op.reconcile env found).execute x s σ =
      (.ok (.reconciled (s.reconcileFrom x env found (σ.pruned env.order)).1
        (s.reconcileFrom x env found (σ.pruned env.order)).2), σ.pruned env.order) := by
  have hexec := Op.executes x s σ (.reconcile env found)
  generalize (Op.reconcile env found).execute x s σ = r at hexec
  obtain ⟨result, τ⟩ := r
  cases hexec with
  | reconciled => rfl

end Programs

/-! ## What the stores hold of a claim -/

/-- What the stores hold of a claim: whether it is in the checkpoint, its entry, and its spec. -/
def Store.claim (x : External) (f : Flags) (σ : Store) (u : UID) :
    Bool × Option (List Device) × Option Spec :=
  (decide (u ∈ σ.checkpoint.preparedClaims), σ.claimDevices.claims[u]?, σ.specs[specName x f u]?)

/-- A CDI device is the one of a claim's prepared device: the kubelet is told its name, and it makes
the edits of the discovered device. -/
structure PreparedDevice.Describes (f : Flags) (stat : String → Option FileInfo) (claimUID : UID)
    (p : PreparedDevice) (d : SpecDevice) : Prop where
  name : d.name = cdiDeviceName claimUID p.deviceName (uidString p.shareID)
  containerEdits : d.containerEdits = deviceEdits stat p.discovered f.mock
  cdiDeviceIDs : p.cdiDeviceIDs = [qualifiedName f.vendor cdiClass d.name]

/-- The stores hold a claim with the given devices: it is in the checkpoint, and its entry and its
spec are those of the devices, one by one and in order. -/
structure Store.Holds (x : External) (f : Flags) (stat : String → Option FileInfo) (uid : UID)
    (devices : List PreparedDevice) (σ : Store) : Prop where
  checkpoint : uid ∈ σ.checkpoint.preparedClaims
  claimDevices : σ.claimDevices.claims[uid]? = some (devices.map PreparedDevice.discovered)
  spec : ∃ spec, σ.specs[specName x f uid]? = some spec ∧ spec.kind = f.kind ∧
    List.Forall₂ (PreparedDevice.Describes f stat uid) devices spec.devices

section Holds

variable {x : External} {f : Flags} {stat : String → Option FileInfo} {uid : UID}
  {devices : List PreparedDevice} {spec : Spec}

/-- The devices of a spec that is built are those of the prepared devices, one by one. -/
theorem describes_of_buildSpec (hspec : buildSpec x f stat uid devices = .ok spec)
    (hids : ∀ d ∈ devices, d.cdiDeviceIDs = getClaimDevices f uid d.deviceName d.shareID) :
    spec.kind = f.kind ∧
      List.Forall₂ (PreparedDevice.Describes f stat uid) devices spec.devices := by
  obtain ⟨version, rfl⟩ := buildSpec_eq_ok hspec
  refine ⟨rfl, ?_⟩
  change List.Forall₂ _ devices (devices.map _)
  rw [List.forall₂_map_right_iff, List.forall₂_same]
  exact fun d hd => ⟨rfl, rfl, hids d hd⟩

/-- A prepare leaves its claim with the devices that it computed. -/
theorem Store.holds_prepared {s : DeviceState} {env : Env} {claim : ResourceClaim}
    (hdevices : s.computeDevices env claim = .ok devices)
    (hspec : buildSpec x s.flags env.stat claim.uid devices = .ok spec) (σ : Store) :
    (σ.prepared claim.uid (deviceSnapshots devices) (specName x s.flags claim.uid) spec).Holds x
      s.flags env.stat claim.uid devices where
  checkpoint := (σ.checkpoint.mem_add claim.uid claim.uid).mpr (.inr rfl)
  claimDevices := Std.ExtTreeMap.getElem?_insert_self
  spec := ⟨spec, Std.ExtTreeMap.getElem?_insert_self, describes_of_buildSpec hspec
    fun _ hd => DeviceState.cdiDeviceIDs_of_computeDevices hdevices hd⟩

end Holds

end RockchipDra.Plugin
