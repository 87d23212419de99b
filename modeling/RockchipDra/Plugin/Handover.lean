import RockchipDra.Effect.View
import RockchipDra.Plugin.Rolling
import RockchipDra.Plugin.Session

/-!
# What two instances serve together

Two plugin processes share the stores during a rolling update, as in `Rolling`. The helper lets one
of them serve a prepare or an unprepare at a time, and these are the only operations that write the
checkpoint and the CDI specs. A reconcile of the other process runs beside them and writes the claim
devices only. So whatever the interleaving, the prepares and unprepares of both processes return
what they return one after the other, and leave the checkpoint and the specs that they leave then
(`rolling_update_serves_serially`). An update of these two stores is never lost, unlike one of the
claim devices.
-/

namespace RockchipDra.Plugin

open Go Discovery Effect

/-- The two stores that a reconcile does not write. -/
def Store.callStores (σ : Store) : Checkpoint × GoMap Spec := (σ.checkpoint, σ.specs)

theorem Store.callStores_eq {σ τ : Store} :
    τ.callStores = σ.callStores ↔ τ.checkpoint = σ.checkpoint ∧ τ.specs = σ.specs :=
  Prod.mk_inj

theorem callStores_refl (σ : Store) : (fun σ τ : Store => τ.callStores = σ.callStores) σ σ := rfl

/-! ## The operations beside each other -/

section Operations

variable {x : External} {s : DeviceState} {σ : Store}

/-- An operation returns what it returns when it runs alone, and leaves these two stores as it
leaves them then. -/
def Op.Ends (x : External) (s : DeviceState) (σ : Store) (op : Op) (r : Result) (τ : Store) :
    Prop :=
  r = (op.execute x s σ).1 ∧ τ.callStores = (op.execute x s σ).2.callStores

theorem readCheckpoint_beside {post : Checkpoint → Store → Prop} {fail : String → Store → Prop}
    (h : post σ.checkpoint σ) :
    readCheckpoint.Beside reliableStore Store.callStores post fail σ :=
  beside_read (r := StoreRead.checkpoint) fun τ hτ => by
    change post τ.checkpoint σ
    rw [(Store.callStores_eq.mp hτ).1]
    exact h

theorem readClaimDevices_beside {post : ClaimDevicesFile → Store → Prop}
    {fail : String → Store → Prop} (h : ∀ file, post file σ) :
    readClaimDevices.Beside reliableStore Store.callStores post fail σ :=
  beside_read (r := StoreRead.claimDevices) fun _ _ => h _

/-- What a write does to the two stores depends on these alone. -/
theorem write_beside {post : Unit → Store → Prop} {fail : String → Store → Prop} {w : StoreWrite}
    (h : post () (σ.put w)) :
    (StorageM.write (V := StoreRead.Value) w).Beside reliableStore Store.callStores post fail
      σ := by
  refine beside_write (fun τ hτ => ?_) h
  obtain ⟨hcheckpoint, hspecs⟩ := Store.callStores_eq.mp hτ
  cases w <;> simp [Store.callStores, Store.put, hcheckpoint, hspecs]

/-- A prepare beside a process that writes the claim devices. -/
theorem prepare_beside (env : Env) (claim : ResourceClaim) :
    (s.prepare x env claim).Beside reliableStore Store.callStores
      (fun devices τ => (Op.prepare env claim).Ends x s σ (.ok (.prepared devices)) τ)
      (fun e τ => (Op.prepare env claim).Ends x s σ (.error e) τ) σ := by
  refine Fallible.beside_bind (Fallible.beside_mapError (readCheckpoint_beside ?_))
  refine Fallible.beside_bind (Fallible.beside_ofExcept (fun devices hdevices => ?_) fun e he => ?_)
  rotate_left
  · rw [Op.Ends, execute_prepare_error he]
    exact ⟨rfl, rfl⟩
  refine Fallible.beside_bind (Fallible.beside_mapError (Fallible.beside_bind
    (Fallible.beside_ofExcept (fun spec hspec => ?_) fun e he => ?_)))
  rotate_left
  · rw [Op.Ends, execute_prepare_refused hdevices he]
    exact ⟨rfl, rfl⟩
  -- Nothing fails after the spec is built, and what is read of the claim devices goes back there.
  refine write_beside ?_
  refine Fallible.beside_bind (Fallible.beside_mapError (Fallible.beside_bind
    (readClaimDevices_beside fun file => write_beside ?_)))
  have hexecute := execute_prepare (x := x) (σ := σ) hdevices hspec
  change Fallible.Beside _ _ _ _ (if claim.uid ∉ σ.checkpoint.preparedClaims then _ else _) _
  split_ifs with huid
  · refine Fallible.beside_pure ?_
    rw [Op.Ends, hexecute]
    refine ⟨rfl, ?_⟩
    simp [Store.callStores, Store.prepared, Store.put, Checkpoint.add, huid]
  · refine Fallible.beside_bind (Fallible.beside_mapError
      (write_beside (Fallible.beside_pure ?_)))
    rw [Op.Ends, hexecute]
    refine ⟨rfl, ?_⟩
    simp [Store.callStores, Store.prepared, Store.put, Checkpoint.add, huid]

/-- An unprepare beside a process that writes the claim devices. -/
theorem unprepare_beside (uid : UID) :
    (s.unprepare x uid).Beside reliableStore Store.callStores
      (fun _ τ => (Op.unprepare uid).Ends x s σ (.ok .unprepared) τ) (fun _ _ => False) σ := by
  refine Fallible.beside_bind (Fallible.beside_mapError (readCheckpoint_beside ?_))
  refine Fallible.beside_bind (Fallible.beside_mapError (write_beside ?_))
  refine Fallible.beside_bind (Fallible.beside_mapError (write_beside ?_))
  refine Fallible.beside_mapError (Fallible.beside_bind (readClaimDevices_beside fun file => ?_))
  change Fallible.Beside _ _ _ _ (if uid ∈ file.claims then _ else _) _
  have hends : ∀ τ : Store, τ.checkpoint = σ.checkpoint.delete uid →
      τ.specs = σ.specs.erase (specName x s.flags uid) →
      (Op.unprepare uid).Ends x s σ (.ok .unprepared) τ := by
    intro τ hcheckpoint hspecs
    rw [Op.Ends, execute_unprepare]
    exact ⟨rfl, Store.callStores_eq.mpr ⟨hcheckpoint, hspecs⟩⟩
  split_ifs
  · exact write_beside (hends _ rfl rfl)
  · exact Fallible.beside_pure (hends _ rfl rfl)

/-- A prepare or an unprepare that starts, beside a process that writes the claim devices. -/
theorem Op.beside (op : Op) (hop : op.isReconcile = false) {τ : Store}
    (hτ : τ.callStores = σ.callStores) :
    (op.program x s).run.Safe reliableStore (fun σ τ => τ.callStores = σ.callStores)
      (fun _ _ => True) (op.Ends x s σ) τ := by
  have hbeside : (op.program x s).Beside reliableStore Store.callStores
      (fun out υ => op.Ends x s σ (.ok out) υ) (fun e υ => op.Ends x s σ (.error e) υ) σ := by
    cases op with
    | prepare env claim =>
      refine Fallible.beside_bind ((prepare_beside env claim).mono ?_ fun _ _ h => h)
      exact fun devices υ h => Fallible.beside_pure h
    | unprepare uid =>
      refine Fallible.beside_bind ((unprepare_beside uid).mono ?_ fun _ _ h => h.elim)
      exact fun _ υ h => Fallible.beside_pure h
    | reconcile env found => cases hop
  refine Fallible.Safe.run (Fallible.Safe.mono (fun _ _ h => h) ?_ ?_ (hbeside τ hτ))
  · rintro out υ ⟨u, hu, hr, hstores⟩
    exact ⟨hr, hu.trans hstores⟩
  · rintro e υ ⟨u, hu, hr, hstores⟩
    exact ⟨hr, hu.trans hstores⟩

/-- A command that does not write the two stores. -/
def SparesCallStores : Access StoreRead StoreWrite → Prop
  | .read _ => True
  | .write (.claimDevices _) => True
  | .write _ => False

/-- A reconcile keeps the two stores, whatever another process does. -/
theorem reconcile_keeps (env : Env) (found : List Device) :
    ((Op.reconcile env found).program x s).run.Safe reliableStore (fun _ _ => True)
      (fun σ τ => τ.callStores = σ.callStores) (fun _ _ => True) σ := by
  have hread : ∀ r : StoreRead, (StorageM.read r : StoreM r.Value).run.Issues SparesCallStores :=
    fun r => ⟨trivial, fun _ => trivial⟩
  have hprogram : ((Op.reconcile env found).program x s).run.Issues SparesCallStores := by
    refine Fallible.issues_bind ?_ fun _ => trivial
    refine Fallible.issues_bind (Fallible.issues_mapError (hread .checkpoint)) fun cp => ?_
    refine Fallible.issues_bind (Fallible.issues_mapError (hread .claimDevices)) fun claims => ?_
    dsimp only
    split_ifs
    · exact Fallible.issues_bind (Fallible.issues_mapError ⟨trivial, fun _ => trivial⟩)
        fun _ => trivial
    · trivial
  refine hprogram.keeps fun c hc _ τ => ?_
  match c, hc with
  | .read _, _ => rfl
  | .write (.claimDevices _), _ => rfl

end Operations

/-! ## The calls of both processes -/

/-- The prepare or unprepare that returns with an event: on which memory, and with what. -/
def Node.returns (n : Node) : NodeEvent → Option (DeviceState × Op × Result)
  | .finish i =>
    match (n.process i).running with
    | some ⟨s, op, .ret r⟩ => if op.isReconcile then none else some (s, op, r)
    | _ => none
  | _ => none

/-- The prepares and unprepares that have returned, in order. -/
def Node.history (x : External) (n : Node) (es : List NodeEvent) :
    List (DeviceState × Op × Result) :=
  observed (Node.step x) Node.returns n es

/-- Operations run one after the other from empty stores, each on a memory of its own. -/
inductive ServedSerially (x : External) : List (DeviceState × Op × Result) → Store → Prop
  | nil : ServedSerially x [] {}
  | snoc (h : List (DeviceState × Op × Result)) (σ : Store) (s : DeviceState) (op : Op)
      (hσ : ServedSerially x h σ) :
      ServedSerially x (h ++ [(s, op, (op.execute x s σ).1)]) (op.execute x s σ).2

/-- What is left of a running operation: a reconcile keeps the two stores, and any other ends as if
it came next after those that have returned. -/
structure Task.Serial (x : External) (h : List (DeviceState × Op × Result)) (τ : Store) (t : Task) :
    Prop where
  reconcile : t.op.isReconcile = true → t.rest.Safe reliableStore (fun _ _ => True)
    (fun σ τ => τ.callStores = σ.callStores) (fun _ _ => True) τ
  call : t.op.isReconcile = false → ∃ σ, ServedSerially x h σ ∧
    t.rest.Safe reliableStore (fun σ τ => τ.callStores = σ.callStores) (fun _ _ => True)
      (t.op.Ends x t.memory σ) τ

/-- The invariant of the node. -/
structure Node.Serial (x : External) (h : List (DeviceState × Op × Result)) (n : Node) : Prop where
  lock : ∀ i, (n.process i).serving = true → (n.process !i).serving = false
  running : ∀ i t, (n.process i).running = some t → t.Serial x h n.store
  /-- While no call runs, the two stores are those after the calls that have returned. -/
  quiet : n.Quiet → ∃ σ, ServedSerially x h σ ∧ n.store.callStores = σ.callStores

section Events

variable {x : External} {h : List (DeviceState × Op × Result)} {n : Node} {i : Bool}

/-- A task serves unless it reconciles. -/
theorem Instance.serving_eq {p : Instance} {t : Task} (hp : p.running = some t) :
    p.serving = !t.op.isReconcile := by
  rw [Instance.serving, hp]
  rfl

/-- What the other process runs goes on if the two stores stay. -/
theorem Task.Serial.of_same {t : Task} {σ τ : Store} (ht : t.Serial x h σ)
    (hστ : τ.callStores = σ.callStores) : t.Serial x h τ where
  reconcile hop := (ht.reconcile hop).stable (fun _ _ _ _ _ => trivial) trivial
  call hop := by
    obtain ⟨σ₀, hσ₀, hsafe⟩ := ht.call hop
    exact ⟨σ₀, hσ₀, hsafe.stable (fun _ _ _ hab hbc => hbc.trans hab) hστ⟩

/-- A reconcile goes on whatever happens to the stores and whatever returns. -/
theorem Task.Serial.of_reconcile {t : Task} {σ : Store} (ht : t.Serial x h σ)
    (hop : t.op.isReconcile = true) (h' : List (DeviceState × Op × Result)) (τ : Store) :
    t.Serial x h' τ where
  reconcile _ := (ht.reconcile hop).stable (fun _ _ _ _ _ => trivial) trivial
  call hcall := by
    rw [hop] at hcall
    cases hcall

/-- Starting an operation keeps the invariant. -/
theorem Node.Serial.begin (hn : n.Serial x h) (s : DeviceState) (op : Op)
    (hidle : (n.process i).running = none)
    (hlock : op.isReconcile = true ∨ (n.process !i).serving = false) :
    (n.begin i (.start x s op)).Serial x h := by
  have hmine : (n.process i).serving = false := by rw [Instance.serving, hidle]; rfl
  have hself : ((n.begin i (.start x s op)).process i).serving = !op.isReconcile := by
    rw [Node.begin_self]
    rfl
  have hother : ((n.begin i (.start x s op)).process !i).serving = (n.process !i).serving := by
    rw [Node.begin_other]
    rfl
  refine ⟨?_, ?_, ?_⟩
  · intro j hserving
    rcases Bool.eq_or_eq_not j i with rfl | rfl
    · rw [hself] at hserving
      rw [hother]
      exact hlock.resolve_left (by simpa using hserving)
    · rw [hother] at hserving
      rw [Bool.not_not, hself]
      have hreconcile := hlock.resolve_right (by simp [hserving])
      simp [hreconcile]
  · intro j t ht
    rcases Bool.eq_or_eq_not j i with rfl | rfl
    · rw [Node.begin_self] at ht
      obtain rfl := Option.some.inj ht
      refine ⟨fun hop => ?_, fun hop => ?_⟩
      · cases op with
        | reconcile env found => exact reconcile_keeps env found
        | prepare env claim => cases hop
        | unprepare uid => cases hop
      · -- The lock is free, so that the stores are those after the calls that have returned.
        have hfree : (n.process !j).serving = false := by
          refine hlock.resolve_left ?_
          change op.isReconcile = false at hop
          simp [hop]
        have hquiet : n.Quiet := by
          intro k
          rcases Bool.eq_or_eq_not k j with rfl | rfl
          · exact hmine
          · exact hfree
        obtain ⟨σ, hσ, hstores⟩ := hn.quiet hquiet
        exact ⟨σ, hσ, op.beside hop hstores⟩
    · rw [Node.begin_other] at ht
      exact hn.running _ t ht
  · intro hquiet
    refine hn.quiet fun j => ?_
    rcases Bool.eq_or_eq_not j i with rfl | rfl
    · exact hmine
    · rw [← hother]
      exact hquiet _

/-- A command keeps the invariant. -/
theorem Node.Serial.command (hn : n.Serial x h) {s : DeviceState} {op : Op}
    {c : Access StoreRead StoreWrite} {k : StoreAnswer c → Prog StoreAnswer (Except String Outcome)}
    (hrunning : (n.process i).running = some ⟨s, op, .call c k⟩) :
    Node.Serial x h { n.set i { n.process i with
        running := some ⟨s, op, k (reliableStore c () n.store).1⟩ } with
      store := (reliableStore c () n.store).2 } := by
  have hmine := hn.running i _ hrunning
  -- No process starts or stops serving.
  have hserving : ∀ j, ((n.set i { n.process i with
      running := some ⟨s, op, k (reliableStore c () n.store).1⟩ }).process j).serving =
        (n.process j).serving := by
    intro j
    rcases Bool.eq_or_eq_not j i with rfl | rfl
    · rw [Node.set_self, Instance.serving_eq hrunning]
      rfl
    · rw [Node.set_other]
  refine ⟨?_, ?_, ?_⟩
  · intro j hj
    rw [hserving] at hj ⊢
    exact hn.lock j hj
  · intro j t ht
    rcases Bool.eq_or_eq_not j i with rfl | rfl
    · rw [Node.set_self] at ht
      obtain rfl := Option.some.inj ht
      refine ⟨fun hop => ?_, fun hop => ?_⟩
      · exact ((hmine.reconcile hop).step (fun _ => trivial) ()).2
      · obtain ⟨σ, hσ, hsafe⟩ := hmine.call hop
        exact ⟨σ, hσ, (hsafe.step callStores_refl ()).2⟩
    · rw [Node.set_other] at ht
      have hother := hn.running _ t ht
      cases hop : op.isReconcile with
      | true => exact hother.of_same ((hmine.reconcile hop).step (fun _ => trivial) ()).1
      | false =>
        -- Beside a call only a reconcile runs.
        have hlock := hn.lock i (by rw [Instance.serving_eq hrunning, hop]; rfl)
        rw [Instance.serving_eq ht, Bool.not_eq_false'] at hlock
        exact hother.of_reconcile hlock _ _
  · intro hquiet
    have hreconcile : op.isReconcile = true := by
      have hfree := hquiet i
      rw [hserving, Instance.serving_eq hrunning] at hfree
      simpa using hfree
    obtain ⟨σ, hσ, hstores⟩ := hn.quiet fun j => (hserving j).symm.trans (hquiet j)
    exact ⟨σ, hσ, (((hmine.reconcile hreconcile).step (fun _ => trivial) ()).1).trans hstores⟩

/-- The return of an operation keeps the invariant, with the operation added to what has returned if
it is a call. -/
theorem Node.Serial.finish (hn : n.Serial x h) {s : DeviceState} {op : Op} {r : Result}
    (hrunning : (n.process i).running = some ⟨s, op, .ret r⟩) {p : Instance}
    (hp : p.running = none) (served : UID → Option (List Device)) :
    Node.Serial x (h ++ (if op.isReconcile then none else some (s, op, r)).toList)
      { n.set i p with served := served } := by
  have hmine := hn.running i _ hrunning
  have hidle : p.serving = false := by rw [Instance.serving, hp]; rfl
  refine ⟨Node.lock_set_idle hp, ?_, ?_⟩
  · intro j t ht
    rcases Bool.eq_or_eq_not j i with rfl | rfl
    · rw [Node.set_self, hp] at ht
      cases ht
    · rw [Node.set_other] at ht
      have hother := hn.running _ t ht
      cases hop : op.isReconcile with
      | true =>
        rw [if_pos rfl, Option.toList_none, List.append_nil]
        exact hother
      | false =>
        have hlock := hn.lock i (by rw [Instance.serving_eq hrunning, hop]; rfl)
        rw [Instance.serving_eq ht, Bool.not_eq_false'] at hlock
        exact hother.of_reconcile hlock _ _
  · intro hquiet
    have hfree : (n.process !i).serving = false := by
      have h := hquiet (!i)
      rw [Node.set_other] at h
      exact h
    cases hop : op.isReconcile with
    | true =>
      rw [if_pos rfl, Option.toList_none, List.append_nil]
      refine hn.quiet fun j => ?_
      rcases Bool.eq_or_eq_not j i with rfl | rfl
      · rw [Instance.serving_eq hrunning, hop]
        rfl
      · exact hfree
    | false =>
      obtain ⟨σ, hσ, hsafe⟩ := hmine.call hop
      have hends : op.Ends x s σ r n.store := hsafe.done callStores_refl
      obtain ⟨rfl, hstores⟩ := hends
      exact ⟨_, hσ.snoc _ _ s op, hstores⟩

/-- Every event keeps the invariant. -/
theorem Node.Serial.step {e : NodeEvent} {n' : Node} (hn : n.Serial x h)
    (hstep : n.step x e = some n') : n'.Serial x (h ++ (n.returns e).toList) := by
  have hsilent (hnone : n.returns e = none) (hn' : n'.Serial x h) :
      n'.Serial x (h ++ (n.returns e).toList) := by
    rw [hnone, Option.toList_none, List.append_nil]
    exact hn'
  cases e with
  | boot i f env found =>
    simp only [Node.step, Option.isNone_iff_eq_none] at hstep
    split_ifs at hstep with hidle
    obtain rfl := Option.some.inj hstep
    exact hsilent rfl (hn.begin _ _ hidle.2 (.inl rfl))
  | start i op =>
    simp only [Node.step] at hstep
    split at hstep
    · next s hs hidle =>
      split_ifs at hstep with hlock
      obtain rfl := Option.some.inj hstep
      exact hsilent rfl (hn.begin s op hidle hlock)
    · cases hstep
  | command i =>
    simp only [Node.step] at hstep
    split at hstep
    · next s op c k hrunning =>
      obtain rfl := Option.some.inj hstep
      exact hsilent rfl (hn.command hrunning)
    · cases hstep
  | finish i =>
    simp only [Node.step] at hstep
    split at hstep
    · next s op r hrunning =>
      obtain rfl := Option.some.inj hstep
      have hreturns : n.returns (.finish i) = if op.isReconcile then none else some (s, op, r) := by
        rw [Node.returns, hrunning]
      rw [hreturns]
      exact hn.finish hrunning rfl _
    · cases hstep
  | stop i =>
    simp only [Node.step, Option.isNone_iff_eq_none] at hstep
    split_ifs at hstep with hidle
    obtain rfl := Option.some.inj hstep
    refine hsilent rfl ⟨Node.lock_set_idle rfl, ?_, ?_⟩
    · intro j t ht
      rcases Bool.eq_or_eq_not j i with rfl | rfl
      · rw [Node.set_self] at ht
        cases ht
      · rw [Node.set_other] at ht
        exact hn.running _ t ht
    · intro hquiet
      refine hn.quiet fun j => ?_
      rcases Bool.eq_or_eq_not j i with rfl | rfl
      · rw [Instance.serving, hidle]
        rfl
      · have h := hquiet (!i)
        rw [Node.set_other] at h
        exact h

end Events

/-- **The calls of both instances serialize.** In every interleaving of the reads and writes of two
processes, whenever no prepare and no unprepare is in progress, the prepares and unprepares of both
have returned what they return one after the other, in the order of their returns and each on the
memory of its process, and the checkpoint and the CDI specs are what they leave then. -/
theorem rolling_update_serves_serially (x : External) (es : List NodeEvent) (n : Node)
    (hrun : run (Node.step x) {} es = some n) (hquiet : n.Quiet) :
    ∃ σ, ServedSerially x (Node.history x {} es) σ ∧ n.store.checkpoint = σ.checkpoint ∧
      n.store.specs = σ.specs := by
  have hinit : Node.Serial x [] {} := by
    refine ⟨?_, ?_, fun _ => ⟨{}, .nil, rfl⟩⟩
    · rintro i ⟨⟩
    · rintro i t ⟨⟩
  have hn : n.Serial x (Node.history x {} es) :=
    run_observed (Node.Serial x) Node.returns (fun _ => True)
      (fun _ _ _ _ hn hstep _ => hn.step hstep) hinit hrun fun _ _ => trivial
  obtain ⟨σ, hσ, hstores⟩ := hn.quiet hquiet
  exact ⟨σ, hσ, Store.callStores_eq.mp hstores⟩

/-- The interleaving in which the snapshot of a claim is lost: the claim stays in the checkpoint, as
it was entered by its prepare. -/
theorem rolling_update_serves_serially_stale : ∃ (n : Node) (σ : Store),
    run (Node.step plainExternal) {} staleReconcile = some n ∧
    ServedSerially plainExternal (Node.history plainExternal {} staleReconcile) σ ∧
    n.store.checkpoint = σ.checkpoint ∧ σ.checkpoint.preparedClaims = ["u"] := by
  have hend : (run (Node.step plainExternal) {} staleReconcile).map
      (fun n => (n.store.checkpoint.preparedClaims, (n.process true).serving,
        (n.process false).serving)) = some (["u"], false, false) := by
    decide
  obtain ⟨n, hn, hvalues⟩ := Option.map_eq_some_iff.mp hend
  simp only [Prod.mk.injEq] at hvalues
  obtain ⟨hclaims, htrue, hfalse⟩ := hvalues
  obtain ⟨σ, hσ, hcheckpoint, -⟩ := rolling_update_serves_serially plainExternal staleReconcile n hn
    fun i => by cases i <;> assumption
  exact ⟨n, σ, hn, hσ, hcheckpoint, hcheckpoint ▸ hclaims⟩

end RockchipDra.Plugin
