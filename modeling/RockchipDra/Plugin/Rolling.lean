import RockchipDra.Plugin.Host

/-!
# Two instances over one set of stores

During a rolling update two plugin processes share the stores. The helper lets one of them serve a
prepare or an unprepare at a time, and each process runs one operation at a time. A reconcile of one
process may run at any time. It reads the checkpoint and the claim devices and may write the claim
devices back, so it can undo what a prepare of the other process recorded in between
(`rolling_update_loses_snapshot`).

Every claim keeps its devices as long as no reconcile that has met a prepare of the other process
writes the claim devices (`rolling_update_keeps_snapshots`). The proof is by rely and guarantee. A
reconcile leaves the checkpoint and the entries of prepared claims alone (`Prunes`), an unprepare
takes a claim away and leaves the entries of the others alone (`Calm`), and each is safe while the
other process does the other. A prepare is safe while the other process writes nothing.
-/

namespace RockchipDra.Plugin

open Go Discovery Effect

/-! ## The two processes -/

/-- One of the two processes. -/
structure Instance where
  state : Option DeviceState := none
  running : Option Task := none
  /-- The other process has been preparing a claim since the running operation started. -/
  met : Bool := false

/-- A prepare is running. -/
def Instance.preparing (p : Instance) : Bool := p.running.any fun t => t.op.isPrepare

/-- A prepare or an unprepare is running, under the lock of the helper. -/
def Instance.serving (p : Instance) : Bool := p.running.any fun t => !t.op.isReconcile

/-- Two processes and the stores that they share. -/
structure Node where
  store : Store := {}
  process : Bool → Instance := fun _ => {}
  /-- The devices of the last prepare of each claim that succeeded. -/
  served : UID → Option (List Device) := fun _ => none

/-- What can happen next, each to one of the processes. -/
inductive NodeEvent where
  | boot (i : Bool) (f : Flags) (env : Env) (found : List Device)
  | start (i : Bool) (op : Op)
  | command (i : Bool)
  | finish (i : Bool)
  | stop (i : Bool)

/-- The node with one of its processes changed. -/
def Node.set (n : Node) (i : Bool) (p : Instance) : Node :=
  { n with process := Function.update n.process i p }

/-- An operation starts in one process. It meets a prepare of the other, and a prepare is met by
what the other is running. -/
def Node.begin (n : Node) (i : Bool) (t : Task) : Node :=
  let mine := { n.process i with running := some t, met := (n.process !i).preparing }
  let other := { n.process !i with met := (n.process !i).met || t.op.isPrepare }
  (n.set (!i) other).set i mine

/-- What a finished operation leaves in the record of prepared devices. -/
def recordServed (op : Op) (r : Except String Outcome) (served : UID → Option (List Device)) :
    UID → Option (List Device) :=
  match op, r with
  | .prepare _ claim, .ok (.prepared devices) =>
    Function.update served claim.uid (some (devices.map PreparedDevice.discovered))
  | _, _ => served

/-- The node after an event, if the event is possible. -/
def Node.step (x : External) (n : Node) : NodeEvent → Option Node
  | .boot i f env found =>
    if (n.process i).state.isNone ∧ (n.process i).running.isNone then
      some (n.begin i (.start x (freshState f) (.reconcile env found)))
    else none
  | .start i op =>
    match (n.process i).state, (n.process i).running with
    | some s, none =>
      -- The helper's lock.
      if op.isReconcile ∨ (n.process !i).serving = false then some (n.begin i (.start x s op))
      else none
    | _, _ => none
  | .command i =>
    match (n.process i).running with
    | some ⟨s, op, .call c k⟩ =>
      let r := reliableStore c () n.store
      some { n.set i { n.process i with running := some ⟨s, op, k r.1⟩ } with store := r.2 }
    | _ => none
  | .finish i =>
    match (n.process i).running with
    | some ⟨s, op, .ret r⟩ =>
      some { n.set i { n.process i with
          state := memoryAfter s (n.process i).state r
          running := none } with
        served := recordServed op r n.served }
    | _ => none
  | .stop i =>
    if (n.process i).running.isNone then some (n.set i {}) else none

/-! ## What each operation does to the stores of the other process -/

/-- The checkpoint stays, and so do the entries of the prepared claims. -/
def Prunes (σ τ : Store) : Prop :=
  τ.checkpoint = σ.checkpoint ∧
    ∀ uid ∈ σ.checkpoint.preparedClaims, τ.claimDevices.claims[uid]? = σ.claimDevices.claims[uid]?

/-- Claims leave the checkpoint, and the entries of those that stay in it do not change. -/
def Calm (σ τ : Store) : Prop :=
  τ.checkpoint.preparedClaims ⊆ σ.checkpoint.preparedClaims ∧
    ∀ uid ∈ τ.checkpoint.preparedClaims, τ.claimDevices.claims[uid]? = σ.claimDevices.claims[uid]?

/-- Only the checkpoint's mark and the entry of one claim change. -/
def Touches (uid : UID) (σ τ : Store) : Prop :=
  ∀ u, u ≠ uid → u ∈ τ.checkpoint.preparedClaims → u ∈ σ.checkpoint.preparedClaims ∧
    τ.claimDevices.claims[u]? = σ.claimDevices.claims[u]?

theorem Prunes.refl (σ : Store) : Prunes σ σ := ⟨rfl, fun _ _ => rfl⟩

theorem Prunes.trans {σ τ υ : Store} (h : Prunes σ τ) (h' : Prunes τ υ) : Prunes σ υ := by
  refine ⟨h'.1.trans h.1, fun uid huid => ?_⟩
  have huid' : uid ∈ τ.checkpoint.preparedClaims := by
    rw [h.1]
    exact huid
  rw [h'.2 uid huid', h.2 uid huid]

theorem Calm.refl (σ : Store) : Calm σ σ := ⟨fun _ h => h, fun _ _ => rfl⟩

theorem Calm.trans {σ τ υ : Store} (h : Calm σ τ) (h' : Calm τ υ) : Calm σ υ := by
  refine ⟨fun uid huid => h.1 (h'.1 huid), fun uid huid => ?_⟩
  rw [h'.2 uid huid, h.2 uid (h'.1 huid)]

theorem Prunes.calm {σ τ : Store} (h : Prunes σ τ) : Calm σ τ := by
  refine ⟨fun uid huid => ?_, fun uid huid => ?_⟩
  · rw [h.1] at huid
    exact huid
  · rw [h.1] at huid
    exact h.2 uid huid

theorem Touches.refl (uid : UID) (σ : Store) : Touches uid σ σ := fun _ _ hu => ⟨hu, rfl⟩

/-- An unprepare is calm while the other process prunes. -/
theorem unprepare_calm (x : External) (s : DeviceState) (uid : UID) (σ : Store) :
    (s.unprepare x uid).Safe reliableStore Prunes Calm (fun _ _ => True) (fun _ _ => True) σ := by
  refine Fallible.safe_bind Prunes.refl (Fallible.safe_mapError Prunes.refl
    (safe_read_reliable fun τ _ => ⟨Calm.refl τ, ?_⟩))
  intro τ₁ h₁ τ₂ h₂
  have hcp₂ : τ₂.checkpoint = τ.checkpoint := h₂.1.trans h₁.1
  -- The spec is removed.
  refine Fallible.safe_bind Prunes.refl (Fallible.safe_mapError Prunes.refl
    (safe_write_reliable fun τ₃ h₃ => ⟨Calm.refl τ₃, ?_⟩))
  intro τ₄ h₄ τ₅ h₅
  have hcp₅ : τ₅.checkpoint = τ.checkpoint :=
    h₅.1.trans (h₄.1.trans (h₃.1.trans hcp₂))
  -- The checkpoint is still the one that was read, so writing it back takes only this claim away.
  refine Fallible.safe_bind Prunes.refl (Fallible.safe_mapError Prunes.refl
    (safe_write_reliable fun τ₆ h₆ => ⟨?_, ?_⟩))
  · refine ⟨?_, fun _ _ => rfl⟩
    intro u hu
    have hmem : u ∈ (τ.checkpoint.delete uid).preparedClaims := hu
    rw [Checkpoint.preparedClaims_delete] at hmem
    rw [h₆.1, hcp₅]
    exact List.mem_of_mem_filter hmem
  intro τ₇ h₇ τ₈ h₈
  have hcp₈ : τ₈.checkpoint = τ.checkpoint.delete uid := h₈.1.trans h₇.1
  have hgone : uid ∉ τ₈.checkpoint.preparedClaims := by
    rw [hcp₈]
    simp
  refine Fallible.safe_mapError Prunes.refl (Fallible.safe_bind Prunes.refl
    (safe_read_reliable fun τ₉ h₉ => ⟨Calm.refl τ₉, fun τ₁₀ h₁₀ => ?_⟩))
  change Fallible.Safe _ _ _ _ _ (if uid ∈ τ₉.claimDevices.claims then _ else _) _
  split_ifs
  · -- The entries of prepared claims are still those that were read; the erased one is not theirs.
    refine safe_write_reliable fun τ₁₁ h₁₁ => ⟨?_, fun _ _ _ _ => trivial⟩
    refine ⟨fun u hu => hu, fun u hu => ?_⟩
    have hu : u ∈ τ₁₁.checkpoint.preparedClaims := hu
    have hcp₁₁ : τ₁₁.checkpoint = τ₈.checkpoint := h₁₁.1.trans (h₁₀.1.trans h₉.1)
    have hu₈ : u ∈ τ₈.checkpoint.preparedClaims := by
      rw [← hcp₁₁]
      exact hu
    have hu₉ : u ∈ τ₉.checkpoint.preparedClaims := by
      rw [h₉.1]
      exact hu₈
    have hne : uid ≠ u := fun heq => hgone (heq ▸ hu₈)
    change (τ₉.claimDevices.claims.erase uid)[u]? = τ₁₁.claimDevices.claims[u]?
    rw [Std.ExtTreeMap.getElem?_erase, if_neg (by simpa using hne)]
    exact ((h₁₀.trans h₁₁).2 u hu₉).symm
  · exact Fallible.safe_pure fun _ _ _ _ => trivial

/-- A reconcile prunes while the other process is calm. -/
theorem applyDiscoveryLocked_prunes (x : External) (s : DeviceState) (env : Env)
    (found : List Device) (σ : Store) :
    (s.applyDiscoveryLocked x env found).Safe reliableStore Calm Prunes (fun _ _ => True)
      (fun _ _ => True) σ := by
  refine Fallible.safe_bind Calm.refl (Fallible.safe_mapError Calm.refl
    (safe_read_reliable fun τ _ => ⟨Prunes.refl τ, ?_⟩))
  intro τ₁ h₁ τ₂ h₂
  refine Fallible.safe_bind Calm.refl (Fallible.safe_mapError Calm.refl
    (safe_read_reliable fun τ₃ h₃ => ⟨Prunes.refl τ₃, ?_⟩))
  intro τ₄ h₄ τ₅ h₅
  change Fallible.Safe _ _ _ _ _
    (if (pruneClaimDevices env.order τ.checkpoint τ₃.claimDevices).1 then _ else _) _
  split_ifs
  · refine Fallible.safe_bind Calm.refl (Fallible.safe_mapError Calm.refl
      (safe_write_reliable fun τ₆ h₆ => ⟨?_, fun _ _ _ _ => ?_⟩))
    · -- Whatever is in the checkpoint now was in it when it was read.
      refine ⟨rfl, fun u hu => ?_⟩
      have hlater : Calm τ₃ τ₆ := (h₄.trans h₅).trans h₆
      have hread : u ∈ τ.checkpoint.preparedClaims :=
        ((h₁.trans h₂).trans h₃).1 (hlater.1 hu)
      change (pruneClaimDevices env.order τ.checkpoint τ₃.claimDevices).2.claims[u]? = _
      rw [getElem?_pruneClaimDevices, if_pos hread]
      exact (hlater.2 u hu).symm
    · exact Fallible.safe_pure fun _ _ => trivial
  · exact Fallible.safe_pure fun _ _ => trivial

/-- While the other process writes nothing, a prepare touches its own claim only. When it returns,
its devices are recorded, and when it fails nothing has changed for any claim. -/
theorem prepare_touches (x : External) (s : DeviceState) (env : Env) (claim : ResourceClaim)
    (σ : Store) : (s.prepare x env claim).Alone reliableStore (Touches claim.uid)
      (fun devices τ => τ.claimDevices.claims[claim.uid]? = some (deviceSnapshots devices))
      (fun _ τ => τ.checkpoint = σ.checkpoint ∧ τ.claimDevices = σ.claimDevices) σ := by
  refine Fallible.alone_bind (Fallible.alone_mapError (alone_read_reliable (Touches.refl _ σ) ?_))
  refine Fallible.alone_bind (Fallible.alone_ofExcept (fun devices _ => ?_) (fun _ _ => ⟨rfl, rfl⟩))
  refine Fallible.alone_bind (Fallible.alone_mapError (Fallible.alone_bind
    (Fallible.alone_ofExcept (fun spec _ => ?_) (fun _ _ => ⟨rfl, rfl⟩))))
  refine alone_write_reliable (fun u _ hu => ⟨hu, rfl⟩) ?_
  -- From here on nothing fails.
  refine Fallible.alone_bind (Fallible.alone_mapError (Fallible.alone_bind
    (alone_read_reliable (Touches.refl _ _) ?_)))
  have hclaims : (σ.claimDevices.claims.insert claim.uid (deviceSnapshots devices))[claim.uid]? =
      some (deviceSnapshots devices) := Std.ExtTreeMap.getElem?_insert_self
  refine alone_write_reliable ?_ ?_
  · intro u hu hmem
    refine ⟨hmem, ?_⟩
    change (σ.claimDevices.claims.insert claim.uid (deviceSnapshots devices))[u]? = _
    rw [Std.ExtTreeMap.getElem?_insert, if_neg (by simpa using hu.symm)]
    rfl
  change Fallible.Alone _ _ _ _ (if claim.uid ∉ σ.checkpoint.preparedClaims then _ else _) _
  split_ifs with huid
  · exact Fallible.alone_pure hclaims
  · refine Fallible.alone_bind (Fallible.alone_mapError
      (alone_write_reliable ?_ (Fallible.alone_pure hclaims)))
    intro u hu hmem
    have hmem : u ∈ (σ.checkpoint.append claim.uid).preparedClaims := hmem
    rw [Checkpoint.preparedClaims_append, List.mem_append, List.mem_singleton] at hmem
    exact ⟨hmem.resolve_right hu, rfl⟩

/-! ## The invariant of the node -/

/-- A claim in the checkpoint has the devices of its last prepare that succeeded. -/
def Kept (served : UID → Option (List Device)) (σ : Store) (uid : UID) : Prop :=
  uid ∈ σ.checkpoint.preparedClaims →
    ∃ devs, σ.claimDevices.claims[uid]? = some devs ∧ served uid = some devs

theorem Kept.of_calm {served : UID → Option (List Device)} {σ τ : Store} {uid : UID}
    (h : Kept served σ uid) (hcalm : Calm σ τ) : Kept served τ uid := by
  intro huid
  obtain ⟨devs, hdevs, hserved⟩ := h (hcalm.1 huid)
  exact ⟨devs, (hcalm.2 uid huid).trans hdevs, hserved⟩

/-- What a prepare leaves when it ends: its devices recorded, or the claim as it was. -/
def PrepareEnds (served : UID → Option (List Device)) (uid : UID) (r : Except String Outcome)
    (σ : Store) : Prop :=
  (∃ devices, r = .ok (.prepared devices) ∧
      σ.claimDevices.claims[uid]? = some (deviceSnapshots devices)) ∨
    ∃ e, r = .error e ∧ Kept served σ uid

/-- What is left of a running operation is safe against what the other process may do. A reconcile
that has met a prepare of the other process is not. -/
def Task.SafeIn (served : UID → Option (List Device)) (met : Bool) (σ : Store) (t : Task) : Prop :=
  match t.op with
  -- A prepare tolerates no other writer, an unprepare tolerates reconciles, and the other way
  -- round.
  | .prepare _ claim =>
    t.rest.Safe reliableStore Eq (Touches claim.uid) (PrepareEnds served claim.uid) σ
  | .unprepare _ => t.rest.Safe reliableStore Prunes Calm (fun _ _ => True) σ
  | .reconcile _ _ => met = false → t.rest.Safe reliableStore Calm Prunes (fun _ _ => True) σ

/-- The claim is being prepared by one of the processes. -/
def Node.Preparing (n : Node) (uid : UID) : Prop :=
  ∃ i t env claim, (n.process i).running = some t ∧ t.op = .prepare env claim ∧ claim.uid = uid

/-- The invariant of the node. -/
structure Node.Good (n : Node) : Prop where
  /-- What is left of each running operation is safe. -/
  safe : ∀ i t, (n.process i).running = some t →
    t.SafeIn n.served (n.process i).met n.store
  /-- The lock of the helper. -/
  lock : ∀ i, (n.process i).serving = true → (n.process !i).serving = false
  /-- Whatever runs beside a prepare has met it. -/
  met : ∀ i, (n.process i).preparing = true → (n.process !i).running.isSome →
    (n.process !i).met = true
  /-- Every claim that is not being prepared is kept. -/
  kept : ∀ uid, ¬n.Preparing uid → Kept n.served n.store uid

/-! ## Every event keeps the invariant -/

section Events

variable {n : Node} {i j : Bool}

theorem Node.set_self (p : Instance) : (n.set i p).process i = p := Function.update_self ..

theorem Node.set_other (p : Instance) : (n.set i p).process (!i) = n.process (!i) :=
  Function.update_of_ne (by cases i <;> decide) ..

theorem Node.begin_self (t : Task) : (n.begin i t).process i =
    { n.process i with running := some t, met := (n.process !i).preparing } := Node.set_self _

theorem Node.begin_other (t : Task) : (n.begin i t).process (!i) =
    { n.process !i with met := (n.process !i).met || t.op.isPrepare } :=
  (Node.set_other _).trans (Node.set_self _)

/-- An operation at its start is safe. A prepare relies on its claim being kept. -/
theorem Task.safeIn_start (x : External) (s : DeviceState) (op : Op)
    {served : UID → Option (List Device)} {met : Bool} {σ : Store}
    (hkept : op.isPrepare = true → ∀ uid, Kept served σ uid) :
    (Task.start x s op).SafeIn served met σ := by
  cases op with
  | prepare env claim =>
    refine Fallible.Safe.run (Fallible.alone_bind
      (Fallible.Safe.mono (fun _ _ h => h) ?_ ?_ (prepare_touches x s env claim σ)))
    · exact fun devices τ hdevices => Fallible.alone_pure (.inl ⟨devices, rfl, hdevices⟩)
    · rintro e τ ⟨hcp, hclaims⟩
      refine .inr ⟨e, rfl, ?_⟩
      have h := hkept rfl claim.uid
      unfold Kept at h ⊢
      rw [hcp, hclaims]
      exact h
  | unprepare uid =>
    refine Fallible.Safe.run (Fallible.safe_bind Prunes.refl
      (Fallible.Safe.mono (fun _ _ h => h) ?_ ?_ (unprepare_calm x s uid σ)))
    · exact fun _ _ _ => Fallible.safe_pure fun _ _ => trivial
    · exact fun _ _ _ _ _ => trivial
  | reconcile env found =>
    intro _
    refine Fallible.Safe.run (Fallible.safe_bind Calm.refl
      (Fallible.Safe.mono (fun _ _ h => h) ?_ ?_ (applyDiscoveryLocked_prunes x s env found σ)))
    · exact fun _ _ _ => Fallible.safe_pure fun _ _ => trivial
    · exact fun _ _ _ _ _ => trivial

/-- Beside an operation that starts, what the other process runs is safe: a prepare that starts is
met by it. -/
theorem Task.SafeIn.meets {served : UID → Option (List Device)} {met prepares : Bool} {σ : Store}
    {t : Task} (h : t.SafeIn served met σ) : t.SafeIn served (met || prepares) σ := by
  unfold Task.SafeIn at h ⊢
  cases hop : t.op with
  | prepare env claim => simpa [hop] using h
  | unprepare uid => simpa [hop] using h
  | reconcile env found =>
    rw [hop] at h
    intro hmet
    exact h (Bool.or_eq_false_iff.mp hmet).1

/-- A prepare that runs under the lock runs alone: no claim is being prepared at its start. -/
theorem Node.not_preparing (hidle : (n.process i).running = none)
    (hother : (n.process !i).serving = false) (uid : UID) : ¬n.Preparing uid := by
  rintro ⟨j, t, env, claim, hrunning, hop, -⟩
  rcases Bool.eq_or_eq_not j i with rfl | rfl
  · rw [hidle] at hrunning
    cases hrunning
  · simp [Instance.serving, hrunning, hop, Op.isReconcile] at hother

/-- Starting an operation keeps the invariant. -/
theorem Node.Good.begin (hn : n.Good) (x : External) (s : DeviceState) (op : Op)
    (hidle : (n.process i).running = none)
    (hlock : op.isReconcile = true ∨ (n.process !i).serving = false) :
    (n.begin i (.start x s op)).Good where
  safe := by
    intro j t ht
    rcases Bool.eq_or_eq_not j i with rfl | rfl
    · rw [Node.begin_self] at ht ⊢
      obtain rfl := Option.some.inj ht
      refine Task.safeIn_start x s op fun hprepare uid => hn.kept uid ?_
      refine Node.not_preparing hidle (hlock.resolve_left fun hreconcile => ?_) uid
      cases op <;> simp_all [Op.isPrepare, Op.isReconcile]
    · rw [Node.begin_other] at ht ⊢
      exact (hn.safe _ t ht).meets
  lock := by
    intro j hserving
    rcases Bool.eq_or_eq_not j i with rfl | rfl
    · rw [Node.begin_self] at hserving
      rw [Node.begin_other]
      refine hlock.resolve_left fun hreconcile => ?_
      simp [Instance.serving, Task.start, hreconcile] at hserving
    · rw [Node.begin_other] at hserving
      rw [Bool.not_not, Node.begin_self]
      -- A reconcile takes no lock, and anything else starts only when the lock is free.
      rcases hlock with hreconcile | hother
      · simp [Instance.serving, Task.start, hreconcile]
      · exact absurd (hserving.symm.trans hother) (by decide)
  met := by
    intro j hpreparing hrunning
    rcases Bool.eq_or_eq_not j i with rfl | rfl
    · rw [Node.begin_self] at hpreparing
      rw [Node.begin_other]
      have hprepare : op.isPrepare = true := by
        simpa [Instance.preparing, Task.start] using hpreparing
      simp [Task.start, hprepare]
    · rw [Node.begin_other] at hpreparing
      rw [Bool.not_not, Node.begin_self]
      exact hpreparing
  kept := by
    intro uid hfree
    refine hn.kept uid ?_
    rintro ⟨j, t, env, claim, hrunning, hop, huid⟩
    rcases Bool.eq_or_eq_not j i with rfl | rfl
    · rw [hidle] at hrunning
      cases hrunning
    · refine hfree ⟨!i, t, env, claim, ?_, hop, huid⟩
      rw [Node.begin_other]
      exact hrunning

/-- A process that becomes idle holds no lock. -/
theorem Node.lock_set_idle {p : Instance} (hp : p.running = none) (j : Bool)
    (hserving : ((n.set i p).process j).serving = true) :
    ((n.set i p).process !j).serving = false := by
  rcases Bool.eq_or_eq_not j i with rfl | rfl
  · rw [Node.set_self, Instance.serving, hp] at hserving
    cases hserving
  · rw [Bool.not_not, Node.set_self, Instance.serving, hp]
    rfl

/-- A process that becomes idle neither meets a prepare nor is met as one. -/
theorem Node.met_set_idle {p : Instance} (hp : p.running = none) (j : Bool)
    (hpreparing : ((n.set i p).process j).preparing = true)
    (hsome : ((n.set i p).process !j).running.isSome) : ((n.set i p).process !j).met = true := by
  rcases Bool.eq_or_eq_not j i with rfl | rfl
  · rw [Node.set_self, Instance.preparing, hp] at hpreparing
    cases hpreparing
  · rw [Bool.not_not, Node.set_self, hp] at hsome
    cases hsome

/-- Stopping an idle process keeps the invariant. -/
theorem Node.Good.stop (hn : n.Good) (hidle : (n.process i).running = none) :
    (n.set i {}).Good where
  safe := by
    intro j t ht
    rcases Bool.eq_or_eq_not j i with rfl | rfl
    · rw [Node.set_self] at ht
      cases ht
    · rw [Node.set_other] at ht ⊢
      exact hn.safe _ t ht
  lock := Node.lock_set_idle rfl
  met := Node.met_set_idle rfl
  kept := by
    intro uid hfree
    refine hn.kept uid ?_
    rintro ⟨j, t, env, claim, hrunning, hop, huid⟩
    rcases Bool.eq_or_eq_not j i with rfl | rfl
    · rw [hidle] at hrunning
      cases hrunning
    · refine hfree ⟨!i, t, env, claim, ?_, hop, huid⟩
      rw [Node.set_other]
      exact hrunning

/-- A command keeps the invariant if both operations stay safe and the claims stay kept. -/
theorem Node.Good.advance (hn : n.Good) {s : DeviceState} {op : Op}
    {rest rest' : Prog StoreAnswer (Except String Outcome)} {σ : Store}
    (hrunning : (n.process i).running = some ⟨s, op, rest⟩)
    (hmine : Task.SafeIn n.served (n.process i).met σ ⟨s, op, rest'⟩)
    (hother : ∀ t, (n.process !i).running = some t → t.SafeIn n.served (n.process !i).met σ)
    (hkept : ∀ uid, ¬n.Preparing uid → Kept n.served σ uid) :
    Node.Good { n.set i { n.process i with running := some ⟨s, op, rest'⟩ } with store := σ } where
  safe := by
    intro j t ht
    rcases Bool.eq_or_eq_not j i with rfl | rfl
    · dsimp only at ht ⊢
      rw [Node.set_self] at ht ⊢
      obtain rfl := Option.some.inj ht
      exact hmine
    · dsimp only at ht ⊢
      rw [Node.set_other] at ht ⊢
      exact hother t ht
  lock := by
    intro j hserving
    dsimp only at hserving ⊢
    rcases Bool.eq_or_eq_not j i with rfl | rfl
    · rw [Node.set_self] at hserving
      rw [Node.set_other]
      refine hn.lock _ ?_
      simpa [Instance.serving, hrunning] using hserving
    · rw [Node.set_other] at hserving
      rw [Bool.not_not, Node.set_self]
      have h := hn.lock _ hserving
      simpa [Instance.serving, hrunning] using h
  met := by
    intro j hpreparing hsome
    dsimp only at hpreparing hsome ⊢
    rcases Bool.eq_or_eq_not j i with rfl | rfl
    · rw [Node.set_self] at hpreparing
      rw [Node.set_other] at hsome ⊢
      refine hn.met _ ?_ hsome
      simpa [Instance.preparing, hrunning] using hpreparing
    · rw [Node.set_other] at hpreparing
      rw [Bool.not_not, Node.set_self]
      have h := hn.met _ hpreparing
      rw [Bool.not_not, hrunning] at h
      exact h rfl
  kept := by
    intro uid hfree
    refine hkept uid ?_
    rintro ⟨j, t, env, claim, ht, hop, huid⟩
    refine hfree ?_
    rcases Bool.eq_or_eq_not j i with rfl | rfl
    · rw [hrunning] at ht
      obtain rfl := Option.some.inj ht
      exact ⟨j, ⟨s, op, rest'⟩, env, claim, congrArg Instance.running (Node.set_self _), hop, huid⟩
    · exact ⟨!i, t, env, claim, (congrArg Instance.running (Node.set_other _)).trans ht, hop, huid⟩

/-- A running unprepare or reconcile is safe beside a reconcile that prunes. -/
theorem Task.SafeIn.of_prunes {served : UID → Option (List Device)} {met : Bool} {σ τ : Store}
    {t : Task} (h : t.SafeIn served met σ) (hprepare : t.op.isPrepare = false)
    (hστ : Prunes σ τ) : t.SafeIn served met τ := by
  unfold Task.SafeIn at h ⊢
  cases hop : t.op with
  | prepare env claim => simp [hop, Op.isPrepare] at hprepare
  | unprepare uid =>
    rw [hop] at h
    exact Prog.Safe.stable h (fun _ _ _ => Prunes.trans) hστ
  | reconcile env found =>
    rw [hop] at h
    exact fun hmet => (h hmet).stable (fun _ _ _ => Calm.trans) hστ.calm

/-- A running reconcile is safe beside an unprepare. -/
theorem Task.SafeIn.of_calm {served : UID → Option (List Device)} {met : Bool} {σ τ : Store}
    {t : Task} (h : t.SafeIn served met σ) (hreconcile : t.op.isReconcile = true)
    (hστ : Calm σ τ) : t.SafeIn served met τ := by
  unfold Task.SafeIn at h ⊢
  cases hop : t.op with
  | prepare env claim => simp [hop, Op.isReconcile] at hreconcile
  | unprepare uid => simp [hop, Op.isReconcile] at hreconcile
  | reconcile env found =>
    rw [hop] at h
    exact fun hmet => (h hmet).stable (fun _ _ _ => Calm.trans) hστ

/-- A reconcile that has met a prepare is not asked for anything. -/
theorem Task.SafeIn.of_met {served : UID → Option (List Device)} {σ : Store} {t : Task}
    (hreconcile : t.op.isReconcile = true) : t.SafeIn served true σ := by
  unfold Task.SafeIn
  cases hop : t.op with
  | prepare env claim => simp [hop, Op.isReconcile] at hreconcile
  | unprepare uid => simp [hop, Op.isReconcile] at hreconcile
  | reconcile env found => exact fun h => by cases h

/-- Beside a prepare or an unprepare runs a reconcile, if anything. -/
theorem Node.Good.reconciles_beside (hn : n.Good) (hserving : (n.process i).serving = true)
    {t : Task} (ht : (n.process !i).running = some t) : t.op.isReconcile = true := by
  have h := hn.lock i hserving
  simpa [Instance.serving, ht] using h

/-- A command keeps the invariant, unless a reconcile that has met a prepare writes. -/
theorem Node.Good.command (hn : n.Good) {s : DeviceState} {op : Op}
    {c : Access StoreRead StoreWrite} {k : StoreAnswer c → Prog StoreAnswer (Except String Outcome)}
    (hrunning : (n.process i).running = some ⟨s, op, .call c k⟩)
    (happart : ∀ w, c = .write w → op.isReconcile = true → (n.process i).met = false) :
    Node.Good { n.set i { n.process i with
        running := some ⟨s, op, k (reliableStore c () n.store).1⟩ } with
      store := (reliableStore c () n.store).2 } := by
  have hmine := hn.safe i _ hrunning
  cases op with
  | prepare env claim =>
    obtain ⟨htouches, hrest⟩ := Prog.Safe.step (fun _ => rfl) hmine ()
    refine hn.advance hrunning hrest ?_ ?_
    · -- Beside the prepare runs a reconcile at most, and it has met the prepare.
      intro t ht
      have hmet := hn.met i (by simp [Instance.preparing, hrunning, Op.isPrepare]) (by rw [ht]; rfl)
      rw [hmet]
      exact .of_met (hn.reconciles_beside (by simp [Instance.serving, hrunning, Op.isReconcile]) ht)
    · intro uid hfree huid
      have hne : uid ≠ claim.uid := fun heq => hfree ⟨i, _, env, claim, hrunning, rfl, heq.symm⟩
      obtain ⟨hmem, hsame⟩ := htouches uid hne huid
      obtain ⟨devs, hdevs, hserved⟩ := hn.kept uid hfree hmem
      exact ⟨devs, hsame.trans hdevs, hserved⟩
  | unprepare uid =>
    obtain ⟨hcalm, hrest⟩ := Prog.Safe.step Prunes.refl hmine ()
    refine hn.advance hrunning hrest ?_ fun uid hfree => (hn.kept uid hfree).of_calm hcalm
    intro t ht
    refine (hn.safe _ t ht).of_calm ?_ hcalm
    exact hn.reconciles_beside (by simp [Instance.serving, hrunning, Op.isReconcile]) ht
  | reconcile env found =>
    cases hmet : (n.process i).met with
    | false =>
      obtain ⟨hprunes, hrest⟩ := Prog.Safe.step Calm.refl (hmine hmet) ()
      refine hn.advance hrunning (fun _ => hrest) ?_ fun uid hfree =>
        (hn.kept uid hfree).of_calm hprunes.calm
      -- Nothing that has been met runs beside this reconcile, so what runs there is no prepare.
      intro t ht
      refine (hn.safe _ t ht).of_prunes ?_ hprunes
      by_contra hprepare
      have hpreparing : (n.process !i).preparing = true := by
        simpa [Instance.preparing, ht] using hprepare
      have hmet' := hn.met _ hpreparing
      rw [Bool.not_not, hrunning, hmet] at hmet'
      exact absurd (hmet' rfl) (by decide)
    | true =>
      -- It only reads.
      cases c with
      | write w => exact absurd (hmet.symm.trans (happart w rfl rfl)) (by decide)
      | read r =>
        refine hn.advance hrunning ?_ (hn.safe _) hn.kept
        rw [hmet]
        exact .of_met rfl

/-- Only a prepare that returns changes the record of prepared devices, and only for its claim. -/
theorem recordServed_of_ne {op : Op} {r : Except String Outcome}
    {served : UID → Option (List Device)} {uid : UID}
    (h : ∀ env claim, op = .prepare env claim → claim.uid ≠ uid) :
    recordServed op r served uid = served uid := by
  unfold recordServed
  split
  · next claim devices => exact Function.update_of_ne (h _ _ rfl).symm _ _
  · rfl

/-- The safety of anything but a prepare does not depend on the record of prepared devices. -/
theorem Task.SafeIn.of_not_prepare {served served' : UID → Option (List Device)} {met : Bool}
    {σ : Store} {t : Task} (h : t.SafeIn served met σ) (hprepare : t.op.isPrepare = false) :
    t.SafeIn served' met σ := by
  unfold Task.SafeIn at h ⊢
  cases hop : t.op with
  | prepare env claim => simp [hop, Op.isPrepare] at hprepare
  | unprepare uid => simpa [hop] using h
  | reconcile env found => simpa [hop] using h

/-- An operation that returns keeps the invariant. -/
theorem Node.Good.finish (hn : n.Good) {s : DeviceState} {op : Op} {r : Except String Outcome}
    {st : Option DeviceState} (hrunning : (n.process i).running = some ⟨s, op, .ret r⟩) :
    Node.Good { n.set i { n.process i with state := st, running := none } with
      served := recordServed op r n.served } where
  safe := by
    intro j t ht
    dsimp only at ht ⊢
    rcases Bool.eq_or_eq_not j i with rfl | rfl
    · rw [Node.set_self] at ht
      cases ht
    rw [Node.set_other] at ht ⊢
    cases op with
    | prepare env claim =>
      refine (hn.safe _ t ht).of_not_prepare ?_
      have hreconcile := hn.reconciles_beside
        (by simp [Instance.serving, hrunning, Op.isReconcile]) ht
      cases hop : t.op <;> simp_all [Op.isReconcile, Op.isPrepare]
    | unprepare uid => exact hn.safe _ t ht
    | reconcile env found => exact hn.safe _ t ht
  lock := Node.lock_set_idle rfl
  met := Node.met_set_idle rfl
  kept := by
    intro uid hfree
    -- Before, the claim was being prepared by the operation that returns, or not at all.
    by_cases hmine : ∃ env claim, op = .prepare env claim ∧ claim.uid = uid
    · obtain ⟨env, claim, rfl, rfl⟩ := hmine
      have hends : PrepareEnds n.served claim.uid r n.store := hn.safe i _ hrunning _ rfl
      rcases hends with ⟨devices, rfl, hdevices⟩ | ⟨e, rfl, hkept⟩
      -- The prepare has recorded the devices that it returns, and this is now the last one.
      · exact fun _ => ⟨_, hdevices, Function.update_self ..⟩
      · exact hkept
    · have hbefore : ¬n.Preparing uid := by
        rintro ⟨j, t, env, claim, ht, hop, huid⟩
        rcases Bool.eq_or_eq_not j i with rfl | rfl
        · rw [hrunning] at ht
          obtain rfl := Option.some.inj ht
          exact hmine ⟨env, claim, hop, huid⟩
        · exact hfree
            ⟨!i, t, env, claim, (congrArg Instance.running (Node.set_other _)).trans ht, hop, huid⟩
      have hserved : recordServed op r n.served uid = n.served uid :=
        recordServed_of_ne fun env claim hop huid => hmine ⟨env, claim, hop, huid⟩
      intro huid
      obtain ⟨devs, hdevs, hbefore⟩ := hn.kept uid hbefore huid
      exact ⟨devs, hdevs, hserved.trans hbefore⟩

end Events

/-! ## Runs of the node -/

/-- A reconcile is about to write the claim devices, and it has met a prepare of the other
process. -/
def Instance.overlapped (p : Instance) : Bool :=
  match p.running with
  | some ⟨_, op, .call (.write _) _⟩ => op.isReconcile && p.met
  | _ => false

/-- The next command is not the write of a reconcile that has met a prepare of the other process. -/
def Node.Apart (n : Node) (e : NodeEvent) (_ : Node) : Prop :=
  match e with
  | .command i => (n.process i).overlapped = false
  | _ => True

instance (n n' : Node) (e : NodeEvent) : Decidable (n.Apart e n') :=
  match e with
  | .command i => inferInstanceAs (Decidable ((n.process i).overlapped = false))
  | .boot _ _ _ _ => .isTrue trivial
  | .start _ _ => .isTrue trivial
  | .finish _ => .isTrue trivial
  | .stop _ => .isTrue trivial

/-- No prepare and no unprepare is in progress. -/
def Node.Quiet (n : Node) : Prop := ∀ i, (n.process i).serving = false

/-- Every claim in the checkpoint has the devices of its last prepare that succeeded. -/
def Node.KeepsSnapshots (n : Node) : Prop :=
  ∀ uid ∈ n.store.checkpoint.preparedClaims,
    ∃ devs, n.store.claimDevices.claims[uid]? = some devs ∧ n.served uid = some devs

/-- Every event keeps the invariant, unless a reconcile that has met a prepare writes. -/
theorem Node.Good.step {x : External} {n n' : Node} {e : NodeEvent} (hn : n.Good)
    (h : n.step x e = some n') (happart : n.Apart e n') : n'.Good := by
  cases e with
  | boot i f env found =>
    simp only [Node.step, Option.isNone_iff_eq_none] at h
    split_ifs at h with hidle
    obtain rfl := Option.some.inj h
    exact hn.begin x _ _ hidle.2 (.inl rfl)
  | start i op =>
    simp only [Node.step] at h
    split at h
    · next s hs hidle =>
      split_ifs at h with hlock
      obtain rfl := Option.some.inj h
      exact hn.begin x s op hidle hlock
    · cases h
  | command i =>
    simp only [Node.step] at h
    split at h
    · next s op c k hrunning =>
      obtain rfl := Option.some.inj h
      refine hn.command hrunning ?_
      rintro w rfl hreconcile
      have h : (n.process i).overlapped = false := happart
      simpa [Instance.overlapped, hrunning, hreconcile] using h
    · cases h
  | finish i =>
    simp only [Node.step] at h
    split at h
    · next s op r hrunning =>
      obtain rfl := Option.some.inj h
      exact hn.finish hrunning
    · cases h
  | stop i =>
    simp only [Node.step, Option.isNone_iff_eq_none] at h
    split_ifs at h with hidle
    obtain rfl := Option.some.inj h
    exact hn.stop hidle

/-- Empty stores without a process. -/
theorem Node.good_init : ({} : Node).Good where
  safe := by rintro i t ⟨⟩
  lock := by rintro i ⟨⟩
  met := by rintro i ⟨⟩
  kept := by rintro uid - ⟨⟩

/-- **Rolling update.** In every interleaving of the reads and writes of two processes in which no
reconcile that has met a prepare of the other process writes the claim devices, every claim in the
checkpoint has the devices of its last successful prepare whenever no prepare and no unprepare is in
progress. -/
theorem rolling_update_keeps_snapshots (x : External) (es : List NodeEvent) (n : Node)
    (hrun : run (Node.step x) {} es = some n) (happart : Along (Node.step x) Node.Apart {} es)
    (hquiet : n.Quiet) : n.KeepsSnapshots := by
  have hgood : n.Good :=
    Along.invariant Node.Good (fun _ _ _ hn hstep happart => hn.step hstep happart) happart
      Node.good_init hrun
  intro uid huid
  refine hgood.kept uid ?_ huid
  rintro ⟨i, t, env, claim, ht, hop, -⟩
  have h := hquiet i
  simp [Instance.serving, ht, hop, Op.isReconcile] at h

/-! ## Runs on a host with one device -/

/-- Two processes come up. -/
def bootBoth : List NodeEvent :=
  [.boot true hostFlags (hostEnv 0 ["/dev/video1"]) [hostDevice "vpu-rkvdec-0" "/dev/video1"],
    .command true, .command true, .finish true,
    .boot false hostFlags (hostEnv 0 ["/dev/video1"]) [hostDevice "vpu-rkvdec-0" "/dev/video1"],
    .command false, .command false, .finish false]

/-- A claim is prepared by the first process. -/
def prepareFirst (uid : UID) : List NodeEvent :=
  [.start true (.prepare (hostEnv 1 ["/dev/video1"]) (hostClaim uid "vpu-rkvdec-0")),
    .command true, .command true, .command true, .command true, .command true, .finish true]

/-- The first process prepares two claims and unprepares one of them. Once that claim is out of the
checkpoint, a reconcile of the second process prunes its devices, and the unprepare finds them
gone. -/
def apartEvents : List NodeEvent :=
  bootBoth ++ prepareFirst "u" ++ prepareFirst "v" ++
    [.start true (.unprepare "v"), .command true, .command true,
      .start false (.reconcile (hostEnv 2 []) []), .command true, .command false, .command false,
      .command false, .command true, .finish false, .finish true]

/-- After these events the other claim has its devices. -/
theorem rolling_update_keeps_snapshots_apart : ∃ n : Node,
    run (Node.step plainExternal) {} apartEvents = some n ∧
    n.store.checkpoint.preparedClaims = ["u"] ∧ n.store.claimDevices.claims["v"]? = none ∧
    n.KeepsSnapshots := by
  have hend : (run (Node.step plainExternal) {} apartEvents).map
      (fun n => (n.store.checkpoint.preparedClaims, n.store.claimDevices.claims["v"]?,
        (n.process true).serving, (n.process false).serving)) =
          some (["u"], none, false, false) := by
    decide +kernel
  obtain ⟨n, hn, hvalues⟩ := Option.map_eq_some_iff.mp hend
  simp only [Prod.mk.injEq] at hvalues
  obtain ⟨hcp, hclaims, htrue, hfalse⟩ := hvalues
  refine ⟨n, hn, hcp, hclaims, ?_⟩
  exact rolling_update_keeps_snapshots plainExternal apartEvents n hn (by decide +kernel)
    fun i => by cases i <;> assumption

/-- The second process reads the checkpoint, then the first one prepares a claim, then the second
one reads and prunes the claim devices. -/
def staleReconcile : List NodeEvent :=
  bootBoth ++
    [.start false (.reconcile (hostEnv 1 ["/dev/video1"])
      [hostDevice "vpu-rkvdec-0" "/dev/video1"]), .command false] ++
    prepareFirst "u" ++ [.command false, .command false, .finish false]

/-- It is not so that in every interleaving every claim in the checkpoint has its devices whenever
no prepare and no unprepare is in progress. -/
theorem rolling_update_loses_snapshot :
    ¬∀ (x : External) (es : List NodeEvent) (n : Node), run (Node.step x) {} es = some n →
      n.Quiet → n.KeepsSnapshots := by
  intro h
  -- The claim is in the checkpoint, its devices are gone, and nothing runs.
  have hend : (run (Node.step plainExternal) {} staleReconcile).map
      (fun n => (n.store.checkpoint.preparedClaims, n.store.claimDevices.claims["u"]?,
        (n.process true).serving, (n.process false).serving)) =
          some (["u"], none, false, false) := by
    decide
  obtain ⟨n, hn, hvalues⟩ := Option.map_eq_some_iff.mp hend
  simp only [Prod.mk.injEq] at hvalues
  obtain ⟨hcp, hclaims, htrue, hfalse⟩ := hvalues
  have hquiet : n.Quiet := fun i => by cases i <;> assumption
  obtain ⟨devs, hdevs, -⟩ := h plainExternal staleReconcile n hn hquiet "u" (by rw [hcp]; simp)
  rw [hclaims] at hdevs
  cases hdevs

end RockchipDra.Plugin
