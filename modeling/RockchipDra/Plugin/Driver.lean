import RockchipDra.Plugin.Host

/-!
# Publishing what a reconcile found

`NewDriver` and `reconcileAndPublish` of `cmd/kubeletplugin/driver.go`. A reconcile remembers the
resources that it computed in the memory of the process, and reports whether they differ from those
that it remembered before. The driver publishes them only if they do.

The stores, the enumeration and the kubelet helper answer arbitrarily here, so what other operations
do to the stores in between is covered. Of the helper it is assumed that a call that fails leaves in
place what was published before.
-/

namespace RockchipDra.Plugin

open Go Discovery Effect

/-! ## The driver's programs -/

/-- What the driver calls: the stores, its channel of health changes, and the kubelet helper. -/
inductive DriverCall where
  | store (c : Access StoreRead StoreWrite)
  | notifyHealth
  | publishResources (resources : DriverResources)

/-- What a call returns. -/
@[reducible] def DriverCall.Answer : DriverCall → Type
  | .store c => StoreAnswer c
  | .notifyHealth => Unit
  | .publishResources _ => Except String Unit

/-- A program over the stores as a part of a driver's program. -/
def onStores {α : Type} (p : StoreM α) : Prog DriverCall.Answer (Except String α) :=
  p.run.interp fun c => Prog.issue (DriverCall.store c)

/-- Enumerate the devices and update the tracked ones. -/
def DeviceState.reconcile (x : External) (s : DeviceState) (env : Env)
    (found : Except String (List Device)) : StoreM (ReconcileResult × DeviceState) := do
  let devices ← wrapError "enumerate devices" (Fallible.ofExcept found)
  s.applyDiscoveryLocked x env devices

/-- Start a driver: the first reconcile, and the first publication. -/
def newDriver (x : External) (f : Flags) (env : Env) (found : Except String (List Device)) :
    Prog DriverCall.Answer (Except String DeviceState) := do
  match ← onStores ((freshState f).reconcile x env found) with
  | .error err => return .error err
  -- What the first reconcile reports is not looked at: its resources are always published.
  | .ok (_, state) =>
    match ← Prog.issue (DriverCall.publishResources state.driverResources) with
    | .error err => return .error err
    | .ok () => return .ok state

/-- Reconcile, and publish the resources if they changed. It returns an error or nil, and the memory
that the reconcile left. -/
def reconcileAndPublish (x : External) (s : DeviceState) (env : Env)
    (found : Except String (List Device)) :
    Prog DriverCall.Answer (Except String Unit × DeviceState) := do
  match ← onStores (s.reconcile x env found) with
  -- The memory is replaced only by a reconcile that succeeds.
  | .error err => return (.error err, s)
  | .ok (result, next) =>
    if result.healthChanged then
      Prog.issue DriverCall.notifyHealth
    if !result.resourcesChanged then
      return (.ok (), next)
    -- The memory has the new resources already, whether or not they get published.
    let err ← Prog.issue (DriverCall.publishResources result.resources)
    return (err, next)

/-! ## What the driver talks to -/

/-- What a driver leaves behind outside: the resources published last, and whether its channel of
capacity one holds a health change. -/
structure Endpoint where
  published : DriverResources := {}
  healthChanged : Bool := false

/-- What the stores and the helper answer while a driver starts or reconciles once. It calls each of
them at most once. -/
structure Answers where
  checkpoint : Except String Checkpoint := .ok {}
  claimDevices : Except String ClaimDevicesFile := .ok {}
  write : Except String Unit := .ok ()
  publish : Except String Unit := .ok ()

/-- The endpoint after a publication returned. -/
def Endpoint.publish (t : Endpoint) (resources : DriverResources) : Except String Unit → Endpoint
  | .ok () => { t with published := resources }
  | .error _ => t

/-- Stores with arbitrary answers. -/
def anyStores : Machine StoreAnswer Answers Endpoint
  | .read .checkpoint, a, t => (a.checkpoint, t)
  | .read .claimDevices, a, t => (a.claimDevices, t)
  | .write _, a, t => (a.write, t)

/-- Stores and a helper with arbitrary answers. -/
def endpoint : Machine DriverCall.Answer Answers Endpoint
  | .store c, a, t => anyStores c a t
  | .notifyHealth, _, t => ((), { t with healthChanged := true })
  | .publishResources resources, a, t => (a.publish, t.publish resources a.publish)

/-- A node with a driver, while one is up. -/
structure DriverNode where
  state : Option DeviceState := none
  endpoint : Endpoint := {}

/-- What can happen next. -/
inductive DriverEvent where
  /-- A driver starts. -/
  | newDriver (f : Flags) (env : Env) (found : Except String (List Device)) (answers : Answers)
  /-- The loop of the driver reconciles once. -/
  | reconcileAndPublish (env : Env) (found : Except String (List Device)) (answers : Answers)
  /-- The driver is stopped or killed. -/
  | exit

/-- What a call of `reconcileAndPublish` returns, with the memory and the endpoint that it
leaves. -/
def DriverNode.call (x : External) (n : DriverNode) :
    DriverEvent → Option ((Except String Unit × DeviceState) × Endpoint)
  | .newDriver _ _ _ _ => none
  | .reconcileAndPublish env found answers =>
    n.state.map fun s =>
      (reconcileAndPublish x s env found).eval Plugin.endpoint (fun _ => answers) n.endpoint
  | .exit => none

/-- The node after an event, if the event is possible. -/
def DriverNode.step (x : External) (n : DriverNode) (e : DriverEvent) : Option DriverNode :=
  match e with
  -- A driver that fails to start leaves no memory.
  | .newDriver f env found answers =>
    if n.state.isNone then
      let r := (Plugin.newDriver x f env found).eval Plugin.endpoint (fun _ => answers) n.endpoint
      some { state := r.1.toOption, endpoint := r.2 }
    else none
  | .reconcileAndPublish _ _ _ => (n.call x e).map fun r => { state := some r.1.2, endpoint := r.2 }
  | .exit => some { n with state := none }

/-! ## What one call does -/

/-- The devices that a reconcile on the memory `s` tracks from then on, given what `Enumerate` found
and what the stores answer. There are none if one of these fails. -/
def DeviceState.nextFrom (s : DeviceState) (env : Env) (found : Except String (List Device))
    (a : Answers) : Option (GoMap TrackedDevice) :=
  match found, a.checkpoint, a.claimDevices with
  | .ok devices, .ok cp, .ok claims =>
    let pruned := pruneClaimDevices env.order cp claims
    if pruned.1 ∧ a.write.isOk = false then none
    else some (s.nextTracked env devices (claimedSnapshots env.order cp pruned.2))
  | _, _, _ => none

/-- The resources of these devices. -/
def DeviceState.resourcesFrom (s : DeviceState) (env : Env) (found : Except String (List Device))
    (a : Answers) : Option DriverResources :=
  (s.nextFrom env found a).map fun next =>
    devicesToResources s.flags.nodeName (trackedList env.order next)

/-- The ways in which a call of `reconcileAndPublish` ends: on the memory `s` and the endpoint `t`,
it returns `err`, and leaves the memory `next` and the endpoint `t'`. -/
inductive Publishes (x : External) (s : DeviceState) (env : Env)
    (found : Except String (List Device)) (a : Answers) (t : Endpoint) :
    Except String Unit → DeviceState → Endpoint → Prop
  /-- The reconcile failed. -/
  | failed (e : String) (h : s.nextFrom env found a = none) :
      Publishes x s env found a t (.error e) s t
  /-- The resources are those that were remembered, and nothing is published. -/
  | unchanged (next : DeviceState) (b : Bool)
      (hnext : s.resourcesFrom env found a = some next.driverResources)
      (h : resourcesEqual x s.driverResources next.driverResources = true) :
      Publishes x s env found a t (.ok ()) next { t with healthChanged := b }
  /-- The resources changed, and they are published if the helper succeeds. -/
  | changed (next : DeviceState) (b : Bool)
      (hnext : s.resourcesFrom env found a = some next.driverResources)
      (h : resourcesEqual x s.driverResources next.driverResources = false) :
      Publishes x s env found a t a.publish next
        (Endpoint.publish { t with healthChanged := b } next.driverResources a.publish)

/-- The resources that a reconcile reports are those that it remembers. -/
theorem DeviceState.publishNext_resources (x : External) (s : DeviceState) (env : Env)
    (next : GoMap TrackedDevice) :
    (s.publishNext x env next).1.resources = (s.publishNext x env next).2.driverResources := rfl

/-- A reconcile compares them with those that were remembered before. -/
theorem DeviceState.publishNext_resourcesChanged (x : External) (s : DeviceState) (env : Env)
    (next : GoMap TrackedDevice) :
    (s.publishNext x env next).1.resourcesChanged =
      !resourcesEqual x s.driverResources (s.publishNext x env next).2.driverResources := rfl

/-- What a reconcile does whose stores answer as in `a`. -/
theorem reconcile_answers (x : External) (s : DeviceState) (env : Env)
    (found : Except String (List Device)) (a : Answers) (t : Endpoint) :
    (s.reconcile x env found).Alone (fun c (_ : Unit) => anyStores c a) (fun _ _ => True)
      (fun r t' => t' = t ∧ ∃ next, s.nextFrom env found a = some next ∧
        r = s.publishNext x env next)
      (fun _ t' => t' = t ∧ s.nextFrom env found a = none) t := by
  refine Fallible.alone_bind (Fallible.alone_mapError
    (Fallible.alone_ofExcept (fun devices hdevices => ?_) (fun _ he => ⟨rfl, ?_⟩)))
  swap
  · rw [he]
    rfl
  refine Fallible.alone_bind (Fallible.alone_mapError
    (alone_read (r := StoreRead.checkpoint) fun _ =>
      ⟨trivial, fun cp (hcp : a.checkpoint = .ok cp) => ?_,
        fun _ (he : a.checkpoint = .error _) => ⟨rfl, ?_⟩⟩))
  swap
  · simp only [DeviceState.nextFrom, hdevices, he]
  refine Fallible.alone_bind (Fallible.alone_mapError
    (alone_read (r := StoreRead.claimDevices) fun _ =>
      ⟨trivial, fun claims (hclaims : a.claimDevices = .ok claims) => ?_,
        fun _ (he : a.claimDevices = .error _) => ⟨rfl, ?_⟩⟩))
  swap
  · simp only [DeviceState.nextFrom, hdevices, hcp, he]
  change Fallible.Alone _ _ _ _ (if (pruneClaimDevices env.order cp claims).1 then _ else _) _
  have hnext : s.nextFrom env found a =
      if (pruneClaimDevices env.order cp claims).1 ∧ a.write.isOk = false then none
      else some (s.nextTracked env devices
        (claimedSnapshots env.order cp (pruneClaimDevices env.order cp claims).2)) := by
    simp only [DeviceState.nextFrom, hdevices, hcp, hclaims]
  -- The claim devices are written only if something was pruned.
  split_ifs with hpruned
  · refine Fallible.alone_bind (Fallible.alone_mapError
      (alone_write (V := StoreRead.Value) fun _ =>
        ⟨trivial, fun _ (hok : a.write = .ok _) => ?_,
          fun _ (he : a.write = .error _) => ⟨rfl, ?_⟩⟩))
    · refine Fallible.alone_pure ⟨rfl, _, ?_, rfl⟩
      rw [hnext, hok]
      exact if_neg (by simp [Except.isOk, Except.toBool])
    · rw [hnext, he]
      exact if_pos ⟨hpruned, rfl⟩
  · refine Fallible.alone_pure ⟨rfl, _, ?_, rfl⟩
    rw [hnext]
    exact if_neg fun h => hpruned h.1

/-- What one call of `reconcileAndPublish` does. -/
theorem reconcileAndPublish_publishes (x : External) (s : DeviceState) (env : Env)
    (found : Except String (List Device)) (a : Answers) (t : Endpoint) :
    Publishes x s env found a t
      ((reconcileAndPublish x s env found).eval endpoint (fun _ => a) t).1.1
      ((reconcileAndPublish x s env found).eval endpoint (fun _ => a) t).1.2
      ((reconcileAndPublish x s env found).eval endpoint (fun _ => a) t).2 := by
  have hsafe : (reconcileAndPublish x s env found).Safe (fun c (_ : Unit) => endpoint c a) Eq
      (fun _ _ => True) (fun r t' => Publishes x s env found a t r.1 r.2 t') t := by
    refine Prog.Safe.bind (fun _ => rfl) (Prog.Safe.interp_issue DriverCall.store
      (Prog.Safe.mono (fun _ _ h => h) ?_ (reconcile_answers x s env found a t)))
    rintro (e | r) t' h
    · obtain ⟨rfl, hnone⟩ : t' = t ∧ s.nextFrom env found a = none := h
      rintro _ rfl
      exact .failed e hnone
    · obtain ⟨rfl, tracked, htracked, rfl⟩ : t' = t ∧ ∃ tracked,
        s.nextFrom env found a = some tracked ∧ r = s.publishNext x env tracked := h
      have hfound : s.resourcesFrom env found a =
          some (s.publishNext x env tracked).2.driverResources := by
        rw [DeviceState.resourcesFrom, htracked]
        rfl
      have hresources := s.publishNext_resources x env tracked
      have hchanged := s.publishNext_resourcesChanged x env tracked
      generalize s.publishNext x env tracked = r at hfound hresources hchanged
      obtain ⟨result, next⟩ := r
      -- The part after the notification, whatever that did to the channel.
      have hrest : ∀ b, Prog.Safe (fun c (_ : Unit) => endpoint c a) Eq (fun _ _ => True)
          (fun r t'' => Publishes x s env found a t' r.1 r.2 t'')
          (if !result.resourcesChanged then pure (.ok (), next)
            else do return (← Prog.issue (DriverCall.publishResources result.resources), next))
          { t' with healthChanged := b } := by
        intro b
        rw [hchanged, hresources, Bool.not_not]
        split_ifs with hequal
        · rintro _ rfl
          exact .unchanged next b hfound hequal
        · rintro _ rfl -
          refine ⟨trivial, ?_⟩
          rintro _ rfl
          exact .changed next b hfound (by simpa using hequal)
      change Prog.Safe (fun c (_ : Unit) => endpoint c a) Eq _ _
        (if result.healthChanged then _ else _) _
      split
      · rintro _ rfl -
        exact ⟨trivial, hrest true⟩
      · exact hrest t'.healthChanged
  rw [Prog.eval_const]
  exact hsafe.eval fun _ => ()

/-! ## No publication is lost -/

/-- Whenever a call returns nil, the resources published last have the JSON of those that the driver
remembers. -/
def DriverNode.UpToDate (x : External) (n : DriverNode) (e : DriverEvent) (n' : DriverNode) :
    Prop :=
  ∀ r, n.call x e = some r → r.1.1 = .ok () → ∀ s, n'.state = some s →
    x.marshalResources n'.endpoint.published = x.marshalResources s.driverResources

/-- A reconcile that finds resources with the JSON of those that the driver remembers, in what
`Enumerate` and the stores answer, is called only while these have the JSON of the resources
published last. -/
def DriverNode.NothingPending (x : External) (n : DriverNode) (e : DriverEvent) (_ : DriverNode) :
    Prop :=
  ∀ env found answers s resources, e = .reconcileAndPublish env found answers →
    n.state = some s → s.resourcesFrom env found answers = some resources →
    resourcesEqual x s.driverResources resources = true →
    x.marshalResources n.endpoint.published = x.marshalResources s.driverResources

/-- Resources are equal where they have the same JSON. -/
theorem resourcesEqual_iff (x : External) (a b : DriverResources) :
    resourcesEqual x a b = true ↔
      ∃ json, x.marshalResources a = .ok json ∧ x.marshalResources b = .ok json := by
  unfold resourcesEqual
  cases x.marshalResources a with
  | error e => simp
  | ok aj =>
    cases x.marshalResources b with
    | error e => simp
    | ok bj =>
      constructor
      · intro h
        exact ⟨aj, rfl, congrArg Except.ok (beq_iff_eq.mp h).symm⟩
      · rintro ⟨_, ⟨⟩, ⟨⟩⟩
        exact beq_self_eq_true aj

/-- A driver that has started has published what it remembers. -/
theorem newDriver_published (x : External) (f : Flags) (env : Env)
    (found : Except String (List Device)) (a : Answers) (t : Endpoint) {s : DeviceState}
    (h : ((newDriver x f env found).eval endpoint (fun _ => a) t).1 = .ok s) :
    ((newDriver x f env found).eval endpoint (fun _ => a) t).2.published = s.driverResources := by
  have hsafe : (newDriver x f env found).Safe (fun c (_ : Unit) => endpoint c a) Eq
      (fun _ _ => True) (fun r t' => ∀ s, r = .ok s → t'.published = s.driverResources) t := by
    refine Prog.Safe.bind (fun _ => rfl) (Prog.Safe.interp_issue DriverCall.store
      (Prog.Safe.mono (fun _ _ h => h) ?_ (reconcile_answers x (freshState f) env found a t)))
    rintro (e | ⟨result, state⟩) t' -
    · rintro _ rfl s ⟨⟩
    -- A publication that succeeds is that of the resources in the memory.
    · rintro _ rfl -
      refine ⟨trivial, ?_⟩
      obtain ⟨_, _, _, err | ok⟩ := a
      · rintro _ rfl s ⟨⟩
      · rintro _ rfl s ⟨⟩
        rfl
  rw [Prog.eval_const] at h ⊢
  exact hsafe.eval (fun _ => ()) s h

/-- A call is a step of the node. -/
theorem DriverNode.call_step {x : External} {n n' : DriverNode} {e : DriverEvent}
    {r : (Except String Unit × DeviceState) × Endpoint} (hstep : n.step x e = some n')
    (hr : n.call x e = some r) :
    ∃ env found a s, e = .reconcileAndPublish env found a ∧ n.state = some s ∧
      Publishes x s env found a n.endpoint r.1.1 r.1.2 r.2 ∧
      n' = { state := some r.1.2, endpoint := r.2 } := by
  cases e with
  | newDriver f env found answers => cases hr
  | exit => cases hr
  | reconcileAndPublish env found a =>
    have hn' : n' = { state := some r.1.2, endpoint := r.2 } := by
      change (n.call x _).map _ = some n' at hstep
      rw [hr] at hstep
      exact (Option.some.inj hstep).symm
    obtain ⟨s, hs, rfl⟩ := Option.map_eq_some_iff.mp hr
    exact ⟨env, found, a, s, rfl, hs, reconcileAndPublish_publishes x s env found a n.endpoint, hn'⟩

/-- A call that returns nil leaves the remembered resources published exactly if it publishes, or
nothing was pending before it. -/
theorem DriverNode.upToDate_iff {x : External} {n n' : DriverNode} {e : DriverEvent}
    (hstep : n.step x e = some n') : n.UpToDate x e n' ↔ n.NothingPending x e n' := by
  constructor
  · rintro hup env found a s resources rfl hs hresources hequal
    obtain ⟨r, hr, -⟩ := Option.map_eq_some_iff.mp hstep
    obtain ⟨_, _, _, s', hevent, hs', hpublishes, rfl⟩ := DriverNode.call_step hstep hr
    cases hevent
    obtain rfl := Option.some.inj (hs.symm.trans hs')
    have hup := hup r hr
    simp only [Option.some.injEq, forall_eq'] at hup
    -- The call finds the resources that were remembered, so it publishes nothing.
    generalize r.1.1 = err at hup hpublishes
    generalize r.1.2 = next at hup hpublishes
    generalize r.2 = t' at hup hpublishes
    cases hpublishes with
    | failed e hnone =>
      rw [DeviceState.resourcesFrom, hnone] at hresources
      cases hresources
    | unchanged next b hnext hsame =>
      obtain ⟨json, hbefore, hafter⟩ := (resourcesEqual_iff x _ _).mp hsame
      exact (hup rfl).trans (hafter.trans hbefore.symm)
    | changed next b hnext hdiffer =>
      obtain rfl := Option.some.inj (hresources.symm.trans hnext)
      rw [hequal] at hdiffer
      cases hdiffer
  · intro hpending r hr hnil
    obtain ⟨env, found, a, s, rfl, hs, hpublishes, rfl⟩ := DriverNode.call_step hstep hr
    have hpending := hpending env found a s
    simp only [Option.some.injEq, forall_eq']
    generalize r.1.1 = err at hnil hpublishes
    generalize r.1.2 = next at hpublishes
    generalize r.2 = t' at hpublishes
    cases hpublishes with
    | failed e hnone => cases hnil
    | unchanged next b hnext hsame =>
      obtain ⟨json, hbefore, hafter⟩ := (resourcesEqual_iff x _ _).mp hsame
      exact (hpending _ rfl hs hnext hsame).trans (hbefore.trans hafter.symm)
    | changed next b hnext hdiffer =>
      rw [hnil]
      rfl

/-- The helper publishes whatever it is given. -/
def DriverEvent.Published : DriverEvent → Prop
  | .newDriver _ _ _ answers => answers.publish = .ok ()
  | .reconcileAndPublish _ _ answers => answers.publish = .ok ()
  | .exit => True

/-- What a driver that is up remembers is published. -/
def DriverNode.InSync (x : External) (n : DriverNode) : Prop :=
  ∀ s, n.state = some s →
    x.marshalResources n.endpoint.published = x.marshalResources s.driverResources

/-- A step in which no publication fails keeps the published resources in step with the remembered
ones. -/
theorem DriverNode.InSync.step {x : External} {n n' : DriverNode} {e : DriverEvent}
    (hn : n.InSync x) (hstep : n.step x e = some n') (he : e.Published) : n'.InSync x := by
  cases e with
  | exit =>
    obtain rfl := Option.some.inj hstep
    rintro s ⟨⟩
  | newDriver f env found a =>
    change (if n.state.isNone then some _ else none) = some n' at hstep
    split_ifs at hstep
    obtain rfl := Option.some.inj hstep
    intro s hs
    cases hr : ((newDriver x f env found).eval Plugin.endpoint (fun _ => a) n.endpoint).1 with
    | error err =>
      rw [hr] at hs
      cases hs
    | ok state =>
      rw [hr] at hs
      obtain rfl := Option.some.inj hs
      exact congrArg x.marshalResources (newDriver_published x f env found a n.endpoint hr)
  | reconcileAndPublish env found a =>
    obtain ⟨r, hr, -⟩ := Option.map_eq_some_iff.mp hstep
    obtain ⟨_, _, _, s, hevent, hs, hpublishes, rfl⟩ := DriverNode.call_step hstep hr
    cases hevent
    have hsync := hn s hs
    have hpublish : a.publish = .ok () := he
    rintro _ ⟨⟩
    -- A call that fails has changed nothing, and one that finds no change leaves the same JSON.
    generalize r.1.1 = err at hpublishes
    generalize r.1.2 = next at hpublishes ⊢
    generalize r.2 = t' at hpublishes ⊢
    cases hpublishes with
    | failed e _ => exact hsync
    | unchanged next b _ hequal =>
      obtain ⟨json, hbefore, hafter⟩ := (resourcesEqual_iff x _ _).mp hequal
      exact hsync.trans (hbefore.trans hafter.symm)
    | changed next b _ _ =>
      rw [hpublish]
      rfl

/-- **No lost publication.** Along a run, every call that returns nil leaves the remembered
resources published if and only if no call whose enumeration and stores give unchanged resources
comes while the remembered resources are not the ones published last. If no `PublishResources`
fails, they are published at every moment. -/
theorem nil_means_published_iff (x : External) (es : List DriverEvent) :
    (Along (DriverNode.step x) (DriverNode.UpToDate x) {} es ↔
      Along (DriverNode.step x) (DriverNode.NothingPending x) {} es) ∧
    ((∀ e ∈ es, e.Published) →
      Along (DriverNode.step x) (fun _ _ n' => n'.InSync x) {} es) := by
  refine ⟨?_, fun hpublished => ?_⟩
  · refine along_congr (R := fun _ _ _ => True) (fun _ => True) (fun _ _ _ _ _ _ _ => trivial) ?_
      trivial (along_of_forall (fun _ _ _ _ => trivial) _ _)
    exact fun n e n' _ hstep _ => DriverNode.upToDate_iff hstep
  · refine along_of_invariant (R := fun _ e _ => e.Published) (DriverNode.InSync x)
      (fun _ _ _ hn hstep he => hn.step hstep he) (fun _ _ _ hn hstep he => hn.step hstep he) ?_
      (along_of_mem fun e he _ _ _ => hpublished e he)
    rintro s ⟨⟩

/-- A device appears, its publication fails once, and the next reconcile finds nothing new. -/
def lostPublicationEvents : List DriverEvent :=
  [.newDriver hostFlags (hostEnv 0 []) (.ok []) {},
    .reconcileAndPublish (hostEnv 1 bothNodes) (.ok bothFound)
      { publish := .error "connection refused" }]

/-- It is not so that along every run each call that returns nil leaves the remembered resources
published. -/
theorem publication_lost_silently :
    ¬∀ (x : External) (es : List DriverEvent),
      Along (DriverNode.step x) (DriverNode.UpToDate x) {} es := by
  intro h
  let e : DriverEvent := .reconcileAndPublish (hostEnv 2 bothNodes) (.ok bothFound) {}
  -- The last call returns nil, and what is published differs from what is remembered.
  have hlost : (run (DriverNode.step plainExternal) {} lostPublicationEvents).bind (fun n =>
      (n.call plainExternal e).bind fun r => (n.step plainExternal e).bind fun n' =>
        n'.state.map fun s => (r.1.1.isOk,
          resourcesEqual plainExternal n'.endpoint.published s.driverResources)) =
      some (true, false) := by
    decide +kernel
  simp only [Option.bind_eq_some_iff, Option.map_eq_some_iff, Prod.mk.injEq] at hlost
  obtain ⟨n, hn, r, hr, n', hn', s, hs, hok, hdiffer⟩ := hlost
  have hnil : r.1.1 = .ok () := by
    cases hr : r.1.1 with
    | error e =>
      rw [hr] at hok
      cases hok
    | ok u => rfl
  have hup := (h plainExternal (lostPublicationEvents ++ [e])).at_step hn hn' r hr hnil s hs
  have hequal := (resourcesEqual_iff plainExternal n'.endpoint.published s.driverResources).mpr
    ⟨_, hup, rfl⟩
  rw [hdiffer] at hequal
  cases hequal

end RockchipDra.Plugin
