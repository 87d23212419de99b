import RockchipDra.Plugin.Order
import RockchipDra.Plugin.Wakeups

/-!
# What is published while the goroutines interleave

The rediscovery loop is the only goroutine that publishes, and it publishes what a reconcile
returned after the mutex was given back. Calls come in between, and a publication may fail. From a
publication that succeeded on, as long as no later one fails, the resources published last are those
of the devices that are tracked, except between a reconcile that changed them and its publication
(`published_follows_tracked`). `NewDriver` publishes before it starts the loop, so that there is
such a publication before every other.
-/

namespace RockchipDra.Plugin

open Go Discovery Effect

/-! ## Publications of a process -/

/-- What the helper answers, if an event is a publication. -/
def Process.publication (p : Process) : ProcessEvent → Option (Except String Unit)
  | .loop .start => some (.ok ())
  | .loop (.publish err) =>
    match p.loop with
    | .publishing result => if result.resourcesChanged then some err else none
    | _ => none
  | _ => none

/-- What the loop has from a reconcile, up to its publication. -/
def Rediscovery.result : Rediscovery → Option ReconcileResult
  | .notifying result => some result
  | .publishing result => some result
  | _ => none

/-- A reconcile has changed the resources, and they are not published yet. -/
def Rediscovery.unpublished (loop : Rediscovery) : Bool := loop.result.any (·.resourcesChanged)

/-! ## The resources of the tracked devices -/

/-- The resources in the memory are those of the tracked devices, in whatever order these are
listed. -/
def DeviceState.ListsTracked (s : DeviceState) : Prop :=
  ∀ o, s.driverResources = devicesToResources s.flags.nodeName (trackedList o s.tracked)

/-- What holds of the memory of a process that is up. -/
structure DeviceState.Reconciled (s : DeviceState) : Prop extends s.Consistent where
  lists : s.ListsTracked

/-- A reconcile leaves the resources of the devices that it tracks. -/
theorem DeviceState.Consistent.reconciled {s : DeviceState} (hs : s.Consistent) (x : External)
    (env : Env) (found : List Device) (σ : Store) :
    (s.reconcileFrom x env found σ).2.Reconciled where
  toConsistent := hs.reconcileFrom x env found σ
  lists o := devicesToResources_order (hs.reconcileFrom x env found σ).keyed _ env.order o

/-- Whatever can happen, a process that is up has reconciled. -/
theorem reconciled_transition {x : External} {fit : DeviceState → Op → Ledger → Prop}
    {l l' : Ledger} {st st' : Option DeviceState} (h : Transition x fit l st l' st')
    (hst : ∀ s, st = some s → s.Reconciled) : ∀ s, st' = some s → s.Reconciled := by
  cases h with
  | idle => exact hst
  | command => exact hst
  | crash => rintro s ⟨⟩
  | finish hserves _ hpost =>
    cases hpost with
    | failed => exact hst
    | prepared => cases hserves; exact hst
    | unprepared => cases hserves; exact hst
    | reconciled env found =>
      rintro _ ⟨⟩
      have hmemory := hserves.consistent (l := l) fun s hs => (hst s hs).toConsistent
      exact hmemory.reconciled x env found _

/-! ## What every step keeps -/

/-- What holds of a process before, between, and after publications. -/
structure Process.Carries (x : External) (p : Process) : Prop extends p.Sound x where
  reconciled : p.world.Keeps x (fun _ _ _ => True) fun _ st => ∀ s, st = some s → s.Reconciled
  /-- The loop runs only in a process that is up. -/
  up : p.loop ≠ .notStarted → p.world.state.isSome = true
  /-- The loop carries the resources in the memory to their publication. -/
  carries : ∀ result, p.loop.result = some result → ∀ s, p.world.state = some s →
    result.resources = s.driverResources

/-- The resources published last have the JSON of those in the memory, unless these are yet to be
published. -/
def Process.InStep (x : External) (p : Process) : Prop :=
  p.loop.unpublished = false → ∀ s, p.world.state = some s →
    x.marshalResources p.endpoint.published = x.marshalResources s.driverResources

section Steps

variable {x : External} {p q : Process} {e : ProcessEvent}

/-- A process that has not started. -/
theorem Process.carries_init (x : External) (l : Ledger) :
    ({ world := { ledger := l } } : Process).Carries x where
  toSound := Process.sound_init l
  reconciled := by
    refine .init ?_
    rintro s ⟨⟩
  up := fun h => absurd rfl h
  carries := by rintro result ⟨⟩

/-- Only the rediscovery loop publishes. -/
theorem Process.stepWatch_published {e : WatchEvent} (h : p.stepWatch e = some q) :
    q.endpoint.published = p.endpoint.published := by
  cases e <;> simp only [Process.stepWatch] at h <;> split at h <;> cases h <;> rfl

/-- A call up to its return leaves the memory. -/
theorem Process.Sound.call_state {e : CallEvent} {w : World} (hp : p.Sound x)
    (h : p.world.step x e.event = some w) : w.state = p.world.state := by
  refine (hp.world.1.memory_unchanged h ?_).resolve_right ?_
  · cases e <;> rfl
  · cases e <;> simp [CallEvent.event]

/-- What the loop does outside of `Reconcile`, by the position in which it was. -/
inductive Process.Moves (p q : Process) : LoopEvent → Prop
  /-- `NewDriver` publishes and starts the loop. -/
  | start (s : DeviceState) (hs : p.world.state = some s) (hbefore : p.loop = .notStarted)
      (hafter : q.loop = .waiting) (hpublished : q.endpoint.published = s.driverResources) :
      p.Moves q .start
  /-- The loop moves on and publishes nothing. -/
  | silent (e : LoopEvent) (hsilent : p.publication (.loop e) = none) (hup : p.loop ≠ .notStarted)
      (hafter : q.loop ≠ .notStarted)
      (hresult : q.loop.result = none ∨ q.loop.result = p.loop.result)
      (hunpublished : p.loop.unpublished = false ∨ q.loop.unpublished = true)
      (hpublished : q.endpoint.published = p.endpoint.published) : p.Moves q e
  /-- The loop publishes changed resources. -/
  | publish (result : ReconcileResult) (err : Except String Unit)
      (hbefore : p.loop = .publishing result) (hchanged : result.resourcesChanged = true)
      (hafter : q.loop = .waiting)
      (hpublished : q.endpoint = p.endpoint.publish result.resources err) :
      p.Moves q (.publish err)

/-- Every step of the loop moves it. -/
theorem Process.stepLoop_moves {e : LoopEvent} (h : p.stepLoop x e = some q) : p.Moves q e := by
  cases e with
  | lock env found =>
    obtain ⟨hloop, w, -, rfl⟩ := Process.stepLoop_lock h
    exact .silent _ rfl (by simp [hloop]) (by simp) (.inl rfl) (.inl (by rw [hloop]; rfl)) rfl
  | start =>
    simp only [Process.stepLoop] at h
    split at h
    · next s hloop hs =>
      cases h
      exact .start s hs hloop rfl rfl
    · cases h
  | publish err =>
    simp only [Process.stepLoop] at h
    split at h
    · next result hloop =>
      split_ifs at h with hchanged
      · cases h
        exact .publish result err hloop hchanged rfl rfl
      · cases h
        refine .silent _ ?_ (by simp [hloop]) (by simp) (.inl rfl) (.inl ?_) rfl
        · simp [Process.publication, hloop, hchanged]
        · simp [hloop, Rediscovery.unpublished, Rediscovery.result, hchanged]
    · cases h
  | notifyHealth =>
    simp only [Process.stepLoop] at h
    split at h
    · next result hloop =>
      -- The loop keeps its result, so that it has to publish after the step if it had to before.
      have hkept : p.loop.unpublished = false ∨
          (Rediscovery.publishing result).unpublished = true := by
        rw [hloop]
        cases hchanged : result.resourcesChanged with
        | true => exact .inr hchanged
        | false => exact .inl hchanged
      split_ifs at h
      · cases h
        exact .silent _ rfl (by simp [hloop]) (by simp) (.inr (by rw [hloop]; rfl)) hkept rfl
      · cases h
        exact .silent _ rfl (by simp [hloop]) (by simp) (.inr (by rw [hloop]; rfl)) hkept rfl
    · cases h
  | _ =>
    simp only [Process.stepLoop, Option.ite_none_right_eq_some, Option.some.injEq] at h
    obtain ⟨hloop, rfl⟩ := h
    exact .silent _ rfl (by simp [hloop]) (by simp) (.inl rfl)
      (.inl (by simp [hloop, Rediscovery.unpublished, Rediscovery.result])) rfl

/-- After every step of its own the loop has started. -/
theorem Process.Moves.started {e : LoopEvent} (h : p.Moves q e) : q.loop ≠ .notStarted := by
  cases h with
  | start _ _ _ hafter =>
    rw [hafter]
    simp
  | silent _ _ _ hafter => exact hafter
  | publish _ _ _ _ hafter =>
    rw [hafter]
    simp

/-- Every step keeps what the loop carries. -/
theorem Process.Carries.step (hp : p.Carries x) (h : p.step x e = some q) : q.Carries x := by
  have hreconciled : q.world.Keeps x (fun _ _ _ => True)
      fun _ st => ∀ s, st = some s → s.Reconciled := by
    rcases Process.step_world h with hworld | ⟨e', -, hworld⟩
    · rw [hworld]
      exact hp.reconciled
    · exact hp.reconciled.step (fun _ _ _ _ _ _ => trivial)
        (fun _ _ _ _ ht hst => reconciled_transition ht hst) hworld fun _ _ _ => trivial
  -- A step that leaves the memory and the loop's result keeps the rest.
  have hkeep (hstate : q.world.state = p.world.state)
      (hup : q.loop ≠ .notStarted → p.loop ≠ .notStarted)
      (hresult : q.loop.result = none ∨ q.loop.result = p.loop.result) :
      (q.loop ≠ .notStarted → q.world.state.isSome = true) ∧
        ∀ result, q.loop.result = some result → ∀ s, q.world.state = some s →
          result.resources = s.driverResources := by
    rw [hstate]
    refine ⟨fun hloop => hp.up (hup hloop), fun result hcarried => ?_⟩
    rcases hresult with hnone | hsame
    · rw [hnone] at hcarried
      cases hcarried
    · exact hp.carries result (hsame ▸ hcarried)
  have hrest : (q.loop ≠ .notStarted → q.world.state.isSome = true) ∧
      ∀ result, q.loop.result = some result → ∀ s, q.world.state = some s →
        result.resources = s.driverResources := by
    cases e with
    | call e =>
      obtain ⟨w, hw, rfl⟩ := Process.act_eq_some h
      exact hkeep (hp.call_state hw) id (.inr rfl)
    | finish =>
      cases hp.finishes h with
      | other hbefore hafter hstate =>
        rcases hstate with hdown | hsame
        · -- A process that comes up has no loop yet.
          have hloop : p.loop = .notStarted := by
            by_contra hloop
            have hup := hp.up hloop
            rw [hdown] at hup
            cases hup
          rw [hafter, hloop]
          exact ⟨fun hstarted => absurd rfl hstarted, by rintro result ⟨⟩⟩
        · exact hkeep hsame (by rw [hafter]; exact id) (.inr (by rw [hafter]))
      | failed _ _ _ hbefore _ hafter hstate =>
        exact hkeep hstate (by rw [hbefore]; simp) (.inl (by rw [hafter]; rfl))
      | replaced env found s hbefore hs _ hafter hstate =>
        rw [hafter, hstate]
        refine ⟨fun _ => rfl, ?_⟩
        rintro _ ⟨⟩ _ ⟨⟩
        rfl
    | kickReconcile =>
      simp only [Process.step, Option.ite_none_right_eq_some, Option.some.injEq] at h
      obtain ⟨-, rfl⟩ := h
      exact hkeep rfl id (.inr rfl)
    | loop e =>
      have hstate := (Process.stepLoop_frame h).1
      cases Process.stepLoop_moves h with
      | start s hs _ hafter =>
        rw [hafter, hstate, hs]
        exact ⟨fun _ => rfl, by rintro result ⟨⟩⟩
      | silent _ _ hup _ hresult => exact hkeep hstate (fun _ => hup) hresult
      | publish result err hbefore _ hafter =>
        exact hkeep hstate (by rw [hbefore]; simp) (.inl (by rw [hafter]; rfl))
    | watch e =>
      obtain ⟨hworld, hloop, -⟩ := Process.stepWatch_frame h
      exact hkeep (by rw [hworld]) (by rw [hloop]; exact id) (.inr (by rw [hloop]))
  exact ⟨hp.toSound.step h, hreconciled, hrest.1, hrest.2⟩

/-- A publication that succeeds leaves what is in the memory published. -/
theorem Process.Carries.inStep_of_publication (hp : p.Carries x) (h : p.step x e = some q)
    (hok : p.publication e = some (.ok ())) : q.InStep x := by
  cases e with
  | loop e =>
    have hstate := (Process.stepLoop_frame h).1
    cases Process.stepLoop_moves h with
    | start s hs _ _ hpublished =>
      rintro - s' hs'
      rw [hstate, hs, Option.some.injEq] at hs'
      rw [hpublished, hs']
    | silent _ hsilent =>
      rw [hsilent] at hok
      cases hok
    | publish result err hbefore hchanged _ hpublished =>
      obtain rfl : err = .ok () := by
        simp only [Process.publication, hbefore, hchanged, if_true, Option.some.injEq] at hok
        exact hok
      rintro - s hs
      rw [hstate] at hs
      have hresources := hp.carries result (by rw [hbefore]; rfl) s hs
      rw [hpublished, ← hresources]
      rfl
  | _ => cases hok

/-- A step in which no publication fails keeps the published resources in step. -/
theorem Process.InStep.step (hp : p.Carries x) (hup : p.loop ≠ .notStarted) (hsync : p.InStep x)
    (h : p.step x e = some q) (hok : ∀ err, p.publication e ≠ some (.error err)) : q.InStep x := by
  have hkeep (hstate : q.world.state = p.world.state)
      (hunpublished : p.loop.unpublished = false ∨ q.loop.unpublished = true)
      (hpublished : q.endpoint.published = p.endpoint.published) : q.InStep x := by
    intro hq s hs
    rw [hpublished]
    refine hsync (hunpublished.resolve_right ?_) s (hstate ▸ hs)
    rw [hq]
    simp
  have hsame : ∀ loop : Rediscovery, loop.unpublished = false ∨ loop.unpublished = true := by
    intro loop
    cases loop.unpublished <;> simp
  cases e with
  | call e =>
    obtain ⟨w, hw, rfl⟩ := Process.act_eq_some h
    exact hkeep (hp.call_state hw) (hsame _) rfl
  | finish =>
    have hfinishes := hp.finishes h
    obtain ⟨op, r, w, -, -, hq⟩ := Process.step_finish h
    have hpublished : q.endpoint.published = p.endpoint.published := by rw [hq]
    cases hfinishes with
    | other _ hafter hstate =>
      rcases hstate with hdown | hstate
      · have hsome := hp.up hup
        rw [hdown] at hsome
        cases hsome
      · exact hkeep hstate (by rw [hafter]; exact hsame _) hpublished
    | failed _ _ _ hbefore _ _ hstate =>
      exact hkeep hstate (.inl (by rw [hbefore]; rfl)) hpublished
    | replaced env found s hbefore hs _ hafter hstate =>
      intro hq s' hs'
      rw [hstate, Option.some.injEq] at hs'
      -- Nothing is left to publish, so the reconcile has found resources with the same JSON.
      rw [hafter] at hq
      have hequal : resourcesEqual x s.driverResources s'.driverResources = true := by
        rw [← hs']
        simpa [Rediscovery.unpublished, Rediscovery.result, DeviceState.reconcileFrom,
          DeviceState.publishNext_resourcesChanged] using hq
      obtain ⟨json, hold, hnew⟩ := (resourcesEqual_iff x _ _).mp hequal
      have hbefore' : p.loop.unpublished = false := by rw [hbefore]; rfl
      calc x.marshalResources q.endpoint.published
          = x.marshalResources p.endpoint.published := by rw [hpublished]
        _ = x.marshalResources s.driverResources := hsync hbefore' s hs
        _ = x.marshalResources s'.driverResources := hold.trans hnew.symm
  | kickReconcile =>
    simp only [Process.step, Option.ite_none_right_eq_some, Option.some.injEq] at h
    obtain ⟨-, rfl⟩ := h
    exact hkeep rfl (hsame _) rfl
  | loop e =>
    have hstate := (Process.stepLoop_frame h).1
    have hmoves := Process.stepLoop_moves h
    cases hmoves with
    | start s hs hbefore => exact absurd hbefore hup
    | silent _ _ _ _ _ hunpublished hpublished => exact hkeep hstate hunpublished hpublished
    | publish result err hbefore hchanged =>
      cases err with
      | ok u =>
        refine hp.inStep_of_publication h ?_
        simp only [Process.publication, hbefore, hchanged, if_true]
      | error err =>
        refine absurd ?_ (hok err)
        simp only [Process.publication, hbefore, hchanged, if_true]
  | watch e =>
    obtain ⟨hworld, hloop, -⟩ := Process.stepWatch_frame h
    exact hkeep (by rw [hworld]) (by rw [hloop]; exact hsame _) (Process.stepWatch_published h)

/-- A loop that has started does not become one that has not. -/
theorem Process.Carries.started (hp : p.Carries x) (hup : p.loop ≠ .notStarted)
    (h : p.step x e = some q) : q.loop ≠ .notStarted := by
  cases e with
  | call e =>
    obtain ⟨w, -, rfl⟩ := Process.act_eq_some h
    exact hup
  | finish =>
    cases hp.finishes h with
    | other _ hafter =>
      rw [hafter]
      exact hup
    | failed _ _ _ _ _ hafter =>
      rw [hafter]
      simp
    | replaced _ _ _ _ _ _ hafter =>
      rw [hafter]
      simp
  | kickReconcile =>
    simp only [Process.step, Option.ite_none_right_eq_some, Option.some.injEq] at h
    obtain ⟨-, rfl⟩ := h
    exact hup
  | loop e => exact (Process.stepLoop_moves h).started
  | watch e =>
    rw [(Process.stepWatch_frame h).2.1]
    exact hup

end Steps

/-- **What is published is tracked.** From a publication that succeeded on, as long as no later one
fails, whatever the goroutines do: unless the loop is between a reconcile that changed the resources
and their publication, the resources published last have the JSON of those of the tracked
devices. -/
theorem published_follows_tracked (x : External) (l : Ledger) (es es' : List ProcessEvent)
    (e : ProcessEvent) (p₀ p₁ p : Process)
    (hrun : run (Process.step x) { world := { ledger := l } } es = some p₀)
    (hstep : p₀.step x e = some p₁) (hpublished : p₀.publication e = some (.ok ()))
    (hrest : run (Process.step x) p₁ es' = some p)
    (hok : Along (Process.step x) (fun p e _ => ∀ err, p.publication e ≠ some (.error err)) p₁ es')
    (hloop : p.loop.unpublished = false) :
    ∃ s, p.world.state = some s ∧ ∀ o, x.marshalResources p.endpoint.published =
      x.marshalResources (devicesToResources s.flags.nodeName (trackedList o s.tracked)) := by
  have hp₀ : p₀.Carries x := run_invariant (Process.Carries x) (fun _ _ _ hp h => hp.step h)
    (Process.carries_init x l) hrun
  have hinit : p₁.Carries x ∧ p₁.loop ≠ .notStarted ∧ p₁.InStep x := by
    refine ⟨hp₀.step hstep, ?_, hp₀.inStep_of_publication hstep hpublished⟩
    cases e with
    | loop e => exact (Process.stepLoop_moves hstep).started
    | _ => cases hpublished
  -- Every later step keeps all three.
  obtain ⟨hp, hup, hsync⟩ := hok.invariant
    (fun p => p.Carries x ∧ p.loop ≠ .notStarted ∧ p.InStep x)
    (fun _ _ _ ⟨hp, hup, hsync⟩ h hok => ⟨hp.step h, hp.started hup h, hsync.step hp hup h hok⟩)
    hinit hrest
  obtain ⟨s, hs⟩ := Option.isSome_iff_exists.mp (hp.up hup)
  refine ⟨s, hs, fun o => ?_⟩
  rw [hsync hloop s hs, (hp.reconciled.2 s hs).lists o]

/-- Both nodes disappear and the publication of the taints fails. One node comes back, and the loop
is about to publish again. -/
def failedPublication : List ProcessEvent :=
  [.call (.newDeviceState hostFlags (hostEnv 0 bothNodes) bothFound)] ++ smoothCommands 2 ++
    [.finish, .loop .start] ++
  [.loop .tick, .loop .reconcile, .loop (.lock (hostEnv 1 []) bothFound)] ++ smoothCommands 2 ++
    [.finish, .loop .notifyHealth, .loop (.publish (.error "connection refused"))] ++
  [.loop .tick, .loop .reconcile, .loop (.lock (hostEnv 2 ["/dev/video2"]) bothFound)] ++
    smoothCommands 2 ++ [.finish, .loop .notifyHealth]

/-- A claim is prepared while the loop waits. -/
def prepareAfterwards : List ProcessEvent :=
  [.call (.prepare (hostEnv 3 ["/dev/video2"]) (hostClaim "u" "vpu-rkvdec-1"))] ++
    smoothCommands 5 ++ [.finish]

/-- After a publication that failed, the next one brings the published resources up to date. -/
theorem published_follows_tracked_after_failure :
    ∃ p₀ p₁ p s, run (Process.step plainExternal) {} failedPublication = some p₀ ∧
      p₀.step plainExternal (.loop (.publish (.ok ()))) = some p₁ ∧
      run (Process.step plainExternal) p₁ prepareAfterwards = some p ∧ p.world.state = some s ∧
      ∀ o, plainExternal.marshalResources p.endpoint.published = plainExternal.marshalResources
        (devicesToResources s.flags.nodeName (trackedList o s.tracked)) := by
  have hrun : (run (Process.step plainExternal) {} failedPublication).bind (fun p₀ =>
      (p₀.step plainExternal (.loop (.publish (.ok ())))).bind fun p₁ =>
        (run (Process.step plainExternal) p₁ prepareAfterwards).map fun p =>
          (match p₀.loop with
            | .publishing result => result.resourcesChanged
            | _ => false, p.loop)) = some (true, .waiting) := by
    decide +kernel
  simp only [Option.bind_eq_some_iff, Option.map_eq_some_iff, Prod.mk.injEq] at hrun
  obtain ⟨p₀, hp₀, p₁, hp₁, p, hp, hchanged, hloop⟩ := hrun
  have hpublished : p₀.publication (.loop (.publish (.ok ()))) = some (.ok ()) := by
    simp only [Process.publication]
    split at hchanged
    · exact if_pos hchanged
    · cases hchanged
  -- No event of a call is a publication.
  have hok : Along (Process.step plainExternal)
      (fun p e _ => ∀ err, p.publication e ≠ some (.error err)) p₁ prepareAfterwards := by
    refine along_of_mem (fun e he p q _ err => ?_)
    have hcall : (∃ e', e = .call e') ∨ e = .finish := by
      simp only [prepareAfterwards, smoothCommands, List.mem_append, List.mem_singleton,
        List.mem_replicate] at he
      rcases he with (rfl | ⟨-, rfl⟩) | rfl
      · exact .inl ⟨_, rfl⟩
      · exact .inl ⟨_, rfl⟩
      · exact .inr rfl
    rcases hcall with ⟨e', rfl⟩ | rfl
    · rintro ⟨⟩
    · rintro ⟨⟩
  obtain ⟨s, hs, hsync⟩ := published_follows_tracked plainExternal {} failedPublication
    prepareAfterwards _ p₀ p₁ p hp₀ hp₁ hpublished hp hok (by rw [hloop]; rfl)
  exact ⟨p₀, p₁, p, s, hp₀, hp₁, hp, hs, hsync⟩

end RockchipDra.Plugin
