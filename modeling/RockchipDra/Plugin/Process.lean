import RockchipDra.Effect.Signal
import RockchipDra.Plugin.Driver
import RockchipDra.Plugin.Published

/-!
# The goroutines of a plugin process

The concurrent part of `cmd/kubeletplugin/driver.go`: the calls of the kubelet, the loop of
`runRediscovery`, and the loop of `WatchHealthStatus`. They share the state of the plugin, which a
mutex protects, and two channels of capacity one. A process is the `World` of its stores and its
memory, in which the operation that holds the mutex issues its commands one by one, together with
the channels and the positions of the goroutines. An event is a step of one of them, and every
interleaving of such steps is a run.

A ticker may fire at any time, a context may be done at any time, and a publication may fail. The
channels are made before any goroutine starts, so that the checks for a nil channel are left out. A
process that is killed takes all of this with it, so that a run is the history of one process up to
some moment.
-/

namespace RockchipDra.Plugin

open Go Discovery Effect

/-! ## Positions of the goroutines -/

/-- Where the loop of `runRediscovery` is. -/
inductive Rediscovery where
  /-- It has not started. -/
  | notStarted
  /-- In its select. -/
  | waiting
  /-- Past its select. -/
  | woken
  /-- In `Reconcile`, before it takes the mutex. -/
  | enumerating
  /-- In `Reconcile`, with the mutex. -/
  | applying
  /-- `Reconcile` has replaced the tracked devices, and `notifyHealth` has not finished. -/
  | notifying (result : ReconcileResult)
  /-- Past `notifyHealth`. -/
  | publishing (result : ReconcileResult)
  /-- It has returned. -/
  | stopped
  deriving DecidableEq

/-- Where the loop of `WatchHealthStatus` is. -/
inductive Watcher where
  /-- There is no such loop. -/
  | stopped
  /-- At the start of an iteration. -/
  | reading
  /-- In its first select, with a report to send. -/
  | sending (report : List DeviceHealth)
  /-- In its second select. -/
  | waiting
  deriving DecidableEq

/-- A plugin process with its stores. -/
structure Process where
  /-- The stores, the memory, and the operation that holds the mutex. -/
  world : World := {}
  /-- What is published, and the channel of health changes. -/
  endpoint : Endpoint := {}
  /-- The channel `reconcileNow` holds a token. -/
  reconcileNow : Bool := false
  /-- The number of calls between a successful `Unprepare` and the end of `kickReconcile`. -/
  kicking : ℕ := 0
  loop : Rediscovery := .notStarted
  watcher : Watcher := .stopped
  /-- The last report that was sent. -/
  sent : Option (List DeviceHealth) := none

/-! ## Steps -/

/-- The steps of the loop of `runRediscovery`. -/
inductive LoopEvent where
  /-- `NewDriver` has published the resources and starts the loop. -/
  | start
  /-- The ticker fires. -/
  | tick
  /-- The loop receives from `reconcileNow`. -/
  | receive
  /-- The loop calls `Reconcile`. -/
  | reconcile
  /-- `Enumerate` fails. -/
  | enumerateError (err : String)
  /-- `Reconcile` takes the mutex, with what `Enumerate` found. -/
  | lock (env : Env) (found : List Device)
  /-- The loop calls `notifyHealth` if the health changed. -/
  | notifyHealth
  /-- The loop publishes the resources if they changed. -/
  | publish (err : Except String Unit)
  /-- The context is done. -/
  | stop

/-- The steps of the loop of `WatchHealthStatus`. -/
inductive WatchEvent where
  /-- The loop starts. -/
  | start
  /-- The loop reads the report. -/
  | healthReport (env : Env)
  /-- The report is sent. -/
  | send
  /-- The loop receives from `healthChanged`. -/
  | receive
  /-- The resend ticker fires. -/
  | resend
  /-- The context is done. -/
  | stop

/-- The steps of the operations of calls, up to their return. -/
inductive CallEvent where
  /-- `NewDeviceState` reconciles with an empty memory. -/
  | newDeviceState (f : Flags) (env : Env) (found : List Device)
  /-- A call takes the mutex to prepare a claim. -/
  | prepare (env : Env) (claim : ResourceClaim)
  /-- A call takes the mutex to unprepare a claim. -/
  | unprepare (uid : UID)
  /-- The operation that holds the mutex issues its next command. -/
  | command (fault : Fault)

/-- The step of the stores and the memory. -/
def CallEvent.event : CallEvent → Event
  | .newDeviceState f env found => .boot f env found
  | .prepare env claim => .start (.prepare env claim)
  | .unprepare uid => .start (.unprepare uid)
  | .command fault => .command fault

/-- What can happen next in a process. -/
inductive ProcessEvent where
  /-- A step of an operation. -/
  | call (e : CallEvent)
  /-- The operation that holds the mutex returns. -/
  | finish
  /-- A call that has unprepared a claim runs `kickReconcile`. -/
  | kickReconcile
  /-- A step of the rediscovery loop. -/
  | loop (e : LoopEvent)
  /-- A step of the health loop. -/
  | watch (e : WatchEvent)

/-- The operation that returns, with what it returns. -/
def World.returned (w : World) : Option (Op × Except String Outcome) :=
  match w.running with
  | some ⟨_, op, .ret r⟩ => some (op, r)
  | _ => none

/-- A successful unprepare. -/
def Op.unprepared : Op → Except String Outcome → Option UID
  | .unprepare uid, .ok _ => some uid
  | _, _ => none

/-- Where the rediscovery loop is after an operation returned. The reconcile of `NewDeviceState` is
not one of the loop's. -/
def Rediscovery.resume (loop : Rediscovery) (op : Op) (r : Except String Outcome) : Rediscovery :=
  match op with
  | .prepare _ _ => loop
  | .unprepare _ => loop
  | .reconcile _ _ =>
    if loop = .applying then
      match r with
      | .ok (.reconciled result _) => .notifying result
      -- `reconcileAndPublish` returns the error, and `runRediscovery` only logs it.
      | _ => .waiting
    else loop

/-- The process after a step of its stores and memory. -/
def Process.act (x : External) (p : Process) (e : Event) : Option Process :=
  (p.world.step x e).map fun w => { p with world := w }

/-- The process after a step of the rediscovery loop. -/
def Process.stepLoop (x : External) (p : Process) : LoopEvent → Option Process
  -- `NewDriver` starts the loop only after its own publication has succeeded.
  | .start =>
    match p.loop, p.world.state with
    | .notStarted, some s =>
      some { p with loop := .waiting, endpoint := p.endpoint.publish s.driverResources (.ok ()) }
    | _, _ => none
  | .tick => if p.loop = .waiting then some { p with loop := .woken } else none
  | .receive =>
    if p.loop = .waiting ∧ p.reconcileNow then some { p with loop := .woken, reconcileNow := false }
    else none
  | .reconcile => if p.loop = .woken then some { p with loop := .enumerating } else none
  | .enumerateError _ => if p.loop = .enumerating then some { p with loop := .waiting } else none
  -- `Enumerate` has run without the mutex, so that calls may come in between.
  | .lock env found =>
    if p.loop = .enumerating then
      (p.act x (.start (.reconcile env found))).map fun q => { q with loop := .applying }
    else none
  | .notifyHealth =>
    match p.loop with
    | .notifying result =>
      -- A send to a full channel is dropped, and the token stays.
      if result.healthChanged then
        some { p with
          loop := .publishing result
          endpoint := { p.endpoint with healthChanged := true } }
      else some { p with loop := .publishing result }
    | _ => none
  | .publish err =>
    match p.loop with
    | .publishing result =>
      if result.resourcesChanged then
        some { p with loop := .waiting, endpoint := p.endpoint.publish result.resources err }
      else some { p with loop := .waiting }
    | _ => none
  | .stop => if p.loop = .waiting then some { p with loop := .stopped } else none

/-- The process after a step of the health loop. -/
def Process.stepWatch (p : Process) : WatchEvent → Option Process
  | .start =>
    if p.watcher = .stopped ∧ p.world.state.isSome then some { p with watcher := .reading }
    else none
  -- `healthReport` takes the mutex, which is free if no operation runs.
  | .healthReport env =>
    match p.watcher, p.world.state, p.world.running with
    | .reading, some s, none => some { p with watcher := .sending (s.healthReport env) }
    | _, _, _ => none
  | .send =>
    match p.watcher with
    | .sending report => some { p with watcher := .waiting, sent := some report }
    | _ => none
  | .receive =>
    if p.watcher = .waiting ∧ p.endpoint.healthChanged then
      some { p with watcher := .reading, endpoint := { p.endpoint with healthChanged := false } }
    else none
  | .resend => if p.watcher = .waiting then some { p with watcher := .reading } else none
  -- The context is looked at in both selects, and nowhere else.
  | .stop =>
    match p.watcher with
    | .sending _ => some { p with watcher := .stopped }
    | .waiting => some { p with watcher := .stopped }
    | _ => none

/-- The process after an event, if the event is possible. -/
def Process.step (x : External) (p : Process) : ProcessEvent → Option Process
  | .call e => p.act x e.event
  | .finish =>
    match p.world.returned with
    | none => none
    | some (op, r) => (p.act x .finish).map fun q =>
      { q with
        loop := q.loop.resume op r
        kicking := if (op.unprepared r).isSome then q.kicking + 1 else q.kicking }
  | .kickReconcile =>
    if 0 < p.kicking then some { p with reconcileNow := true, kicking := p.kicking - 1 } else none
  | .loop e => p.stepLoop x e
  | .watch e => p.stepWatch e

/-- The operation that returns with an event, with what it returns. -/
def Process.returns (p : Process) : ProcessEvent → Option (Op × Except String Outcome)
  | .finish => p.world.returned
  | _ => none

/-- From the return of `Reconcile` on, the loop does what is left of `reconcileAndPublish`, if no
other goroutine comes in between. -/
theorem Process.run_reconcileAndPublish {x : External} {s next : DeviceState} {env : Env}
    {found : Except String (List Device)} {result : ReconcileResult} {a : Answers} {t : Endpoint}
    {p : Process} (hloop : p.loop = .notifying result)
    (hreconcile : (onStores (s.reconcile x env found)).eval Plugin.endpoint (fun _ => a) t =
      (.ok (result, next), p.endpoint)) :
    (run (Process.step x) p [.loop .notifyHealth, .loop (.publish a.publish)]).map (fun q =>
      ((if result.resourcesChanged then a.publish else .ok (), next), q.endpoint)) =
        some ((reconcileAndPublish x s env found).eval Plugin.endpoint (fun _ => a) t) := by
  -- Evaluate the program of the call up to the return of `Reconcile`.
  have hbind : (reconcileAndPublish x s env found).eval Plugin.endpoint (fun _ => a) t = _ :=
    Prog.eval_bind_const _ _ _ _ _
  rw [hbind, hreconcile]
  obtain ⟨resourcesChanged, healthChanged, resources⟩ := result
  -- The rest of the program branches on the same two flags as the loop.
  cases healthChanged <;> cases resourcesChanged <;>
    simp [run, Process.step, Process.stepLoop, hloop] <;> rfl

/-! ## What holds in every process

The rediscovery loop holds the mutex exactly while a process that is up runs a reconcile. -/

/-- A process that is up runs a reconcile. -/
def World.reconciling (w : World) : Bool :=
  w.state.isSome && w.running.any fun t => t.op.isReconcile

/-- The memory is consistent, and the health of every tracked device has been decided. -/
structure DeviceState.Assessed (s : DeviceState) : Prop extends s.Consistent where
  status : ∀ (name : String) td, s.tracked[name]? = some td → td.status ≠ .unset

/-- An empty memory is assessed. -/
theorem freshState_assessed (f : Flags) : (freshState f).Assessed where
  toConsistent := freshState_consistent f
  status := by simp [freshState]

/-- A reconcile leaves an assessed memory. -/
theorem DeviceState.Assessed.reconcileFrom {s : DeviceState} (hs : s.Assessed) (x : External)
    (env : Env) (found : List Device) (σ : Store) :
    (s.reconcileFrom x env found σ).2.Assessed where
  toConsistent := hs.toConsistent.reconcileFrom x env found σ
  status := fun _ _ htd => reconcileFrom_status_ne htd

/-- What holds of a process. -/
structure Process.Sound (x : External) (p : Process) : Prop where
  /-- The running operation is sound, and the memory is assessed. -/
  world : p.world.Keeps x (fun _ _ _ => True) fun _ st => ∀ s, st = some s → s.Assessed
  /-- The loop holds the mutex while a process that is up runs a reconcile. -/
  mutex : p.world.reconciling = true ↔ p.loop = .applying

section Steps

variable {x : External} {p q : Process}

/-- A process that has not started is sound. -/
theorem Process.sound_init (l : Ledger) : ({ world := { ledger := l } } : Process).Sound x where
  world := by
    refine .init ?_
    rintro s ⟨⟩
  mutex := by simp [World.reconciling]

/-- What holds of the stores and the memory is kept by their steps. -/
theorem Process.Sound.act_world (hp : p.Sound x) {e : Event} {w : World}
    (h : p.world.step x e = some w) :
    w.Keeps x (fun _ _ _ => True) fun _ st => ∀ s, st = some s → s.Assessed :=
  hp.world.step (fun _ _ _ _ _ _ => trivial)
    (fun _ _ _ _ ht hst => ht.memory DeviceState.Assessed freshState_assessed
      (fun _ env found σ hs => hs.reconcileFrom x env found σ) hst) h fun _ _ _ => trivial

/-- A step of the stores and the memory leaves the rest of the process as it is. -/
theorem Process.act_eq_some {e : Event} (h : p.act x e = some q) :
    ∃ w, p.world.step x e = some w ∧ q = { p with world := w } := by
  obtain ⟨w, hw, rfl⟩ := Option.map_eq_some_iff.mp h
  exact ⟨w, hw, rfl⟩

/-- The health loop changes nothing but its own position, its reports, and its channel. -/
theorem Process.stepWatch_frame {e : WatchEvent} (h : p.stepWatch e = some q) :
    q.world = p.world ∧ q.loop = p.loop ∧ q.kicking = p.kicking ∧
      q.reconcileNow = p.reconcileNow := by
  cases e <;> simp only [Process.stepWatch] at h <;> split at h <;> cases h <;>
    exact ⟨rfl, rfl, rfl, rfl⟩

/-- The rediscovery loop takes the mutex. -/
theorem Process.stepLoop_lock {env : Env} {found : List Device}
    (h : p.stepLoop x (.lock env found) = some q) :
    p.loop = .enumerating ∧ ∃ w, p.world.step x (.start (.reconcile env found)) = some w ∧
      q = { p with world := w, loop := .applying } := by
  simp only [Process.stepLoop, Option.ite_none_right_eq_some, Option.map_eq_some_iff] at h
  obtain ⟨hloop, _, hact, rfl⟩ := h
  obtain ⟨w, hw, rfl⟩ := Process.act_eq_some hact
  exact ⟨hloop, w, hw, rfl⟩

/-- The rediscovery loop takes the mutex, or it moves on without the mutex. -/
theorem Process.stepLoop_cases {e : LoopEvent} (h : p.stepLoop x e = some q) :
    (∃ env found, e = .lock env found) ∨
      q.world = p.world ∧ p.loop ≠ .applying ∧ q.loop ≠ .applying := by
  cases e with
  | lock env found => exact .inl ⟨env, found, rfl⟩
  | _ =>
    refine .inr ?_
    simp only [Process.stepLoop] at h
    split at h <;> (try split at h) <;> cases h <;> simp_all

/-- The rediscovery loop leaves the memory and the health loop as they are. -/
theorem Process.stepLoop_frame {e : LoopEvent} (h : p.stepLoop x e = some q) :
    q.world.state = p.world.state ∧ q.watcher = p.watcher ∧ q.sent = p.sent := by
  cases e with
  | lock env found =>
    obtain ⟨-, w, hw, rfl⟩ := Process.stepLoop_lock h
    simp only [World.step] at hw
    split at hw <;> cases hw
    exact ⟨rfl, rfl, rfl⟩
  | _ =>
    simp only [Process.stepLoop] at h
    split at h <;> (try split at h) <;> cases h <;> exact ⟨rfl, rfl, rfl⟩

/-- What an operation that returns does to the process. -/
theorem Process.step_finish (h : p.step x .finish = some q) :
    ∃ op r w, p.world.returned = some (op, r) ∧ p.world.step x .finish = some w ∧
      q = { p with
        world := w
        loop := p.loop.resume op r
        kicking := if (op.unprepared r).isSome then p.kicking + 1 else p.kicking } := by
  simp only [Process.step] at h
  split at h
  · cases h
  · next op r hreturned =>
    obtain ⟨_, hact, rfl⟩ := Option.map_eq_some_iff.mp h
    obtain ⟨w, hw, rfl⟩ := Process.act_eq_some hact
    exact ⟨op, r, w, hreturned, hw, rfl⟩

/-! ## The mutex -/

variable {w w' : World}

/-- The operation that returns holds the mutex. -/
theorem World.returned_eq_some {op : Op} {r : Except String Outcome}
    (h : w.returned = some (op, r)) :
    ∃ s, w.running = some ⟨s, op, .ret r⟩ := by
  simp only [World.returned] at h
  split at h
  · next s op' r' hrunning =>
    cases h
    exact ⟨s, hrunning⟩
  · cases h

/-- An operation starts on the memory of a process that is up, when the mutex is free. -/
theorem World.reconciling_start {op : Op} (h : w.step x (.start op) = some w') :
    w.reconciling = false ∧ w'.reconciling = op.isReconcile := by
  simp only [World.step] at h
  split at h
  · next s hs hrunning =>
    cases h
    simp [World.reconciling, hs, hrunning, Task.start]
  · cases h

/-- A call does not take the mutex from the loop, or give it to the loop. -/
theorem World.reconciling_call {e : CallEvent} (h : w.step x e.event = some w') :
    w'.reconciling = w.reconciling := by
  cases e with
  | newDeviceState f env found =>
    -- A process that is not up has no loop.
    simp only [CallEvent.event, World.step, Option.ite_none_right_eq_some, Option.some.injEq] at h
    obtain ⟨⟨hstate, -⟩, rfl⟩ := h
    rw [Option.isNone_iff_eq_none] at hstate
    simp [World.reconciling, hstate]
  | prepare env claim =>
    obtain ⟨hbefore, hafter⟩ := World.reconciling_start h
    exact hafter.trans hbefore.symm
  | unprepare uid =>
    obtain ⟨hbefore, hafter⟩ := World.reconciling_start h
    exact hafter.trans hbefore.symm
  | command fault =>
    simp only [CallEvent.event, World.step] at h
    split at h
    · next s op c k hrunning =>
      cases h
      simp [World.reconciling, hrunning]
    · cases h

/-- An operation that returns gives the mutex back. -/
theorem World.reconciling_finish (h : w.step x .finish = some w') : w'.reconciling = false := by
  simp only [World.step] at h
  split at h
  · cases h
    simp [World.reconciling]
  · cases h

/-- A loop that does not hold the mutex stays where it is when an operation returns. -/
theorem Rediscovery.resume_of_ne {loop : Rediscovery} (h : loop ≠ .applying) (op : Op)
    (r : Except String Outcome) : loop.resume op r = loop := by
  cases op with
  | prepare env claim => rfl
  | unprepare uid => rfl
  | reconcile env found => exact if_neg h

/-- The ways in which an operation returns. -/
inductive Process.Finishes (x : External) (p q : Process) : Prop
  /-- The operation is not the loop's. It leaves the memory as it was, unless there was none. -/
  | other (hbefore : p.loop ≠ .applying) (hafter : q.loop = p.loop)
      (hstate : p.world.state = none ∨ q.world.state = p.world.state)
  /-- The reconcile of the loop fails. -/
  | failed (env : Env) (found : List Device) (err : String) (hbefore : p.loop = .applying)
      (hreturned : p.world.returned = some (.reconcile env found, .error err))
      (hafter : q.loop = .waiting) (hstate : q.world.state = p.world.state)
  /-- The reconcile of the loop replaces the memory. -/
  | replaced (env : Env) (found : List Device) (s : DeviceState) (hbefore : p.loop = .applying)
      (hs : p.world.state = some s)
      (hreturned : p.world.returned = some (.reconcile env found,
        .ok (.reconciled (s.reconcileFrom x env found p.world.ledger.toStore).1
          (s.reconcileFrom x env found p.world.ledger.toStore).2)))
      (hafter : q.loop = .notifying (s.reconcileFrom x env found p.world.ledger.toStore).1)
      (hstate : q.world.state = some (s.reconcileFrom x env found p.world.ledger.toStore).2)

/-- What an operation of a sound process that returns does. -/
theorem Process.Sound.finishes (hp : p.Sound x) (h : p.step x .finish = some q) :
    p.Finishes x q := by
  obtain ⟨op, r, w, hreturned, hw, rfl⟩ := Process.step_finish h
  obtain ⟨s, hrunning⟩ := World.returned_eq_some hreturned
  have hstate : w.state = memoryAfter s p.world.state r := by
    simp only [World.step, hrunning, Option.some.injEq] at hw
    rw [← hw]
  obtain ⟨hserves, -, hsafe⟩ := hp.world.1 _ hrunning
  -- The operation has met its specification, and whose it is follows from the mutex.
  have hpost : op.Post x s r p.world.ledger := hsafe.done fun _ => rfl
  have hmutex : p.world.state.isSome = true ∧ op.isReconcile = true ↔ p.loop = .applying := by
    rw [← hp.mutex, World.reconciling, hrunning]
    simp
  by_cases hloop : p.loop = .applying
  · obtain ⟨hup, hop⟩ := hmutex.mpr hloop
    cases hpost with
    | failed _ err =>
      obtain ⟨env, found, rfl⟩ : ∃ env found, op = .reconcile env found := by
        cases op with
        | reconcile env found => exact ⟨env, found, rfl⟩
        | _ => cases hop
      exact .failed env found err hloop hreturned (by simp [hloop, Rediscovery.resume]) hstate
    | prepared => cases hop
    | unprepared => cases hop
    | reconciled env found =>
      -- The reconcile of a process that is up works on the memory of that process.
      have hs : p.world.state = some s := by
        generalize p.world.state = st at hserves hup
        cases hserves with
        | up => rfl
        | booting => cases hup
      exact .replaced env found s hloop hs hreturned (by simp [hloop, Rediscovery.resume]) hstate
  · refine .other hloop (Rediscovery.resume_of_ne hloop op r) ?_
    -- A reconcile that is not the loop's is the first one.
    cases hpost with
    | failed => exact .inr hstate
    | prepared => exact .inr (hstate.trans (hserves.state_eq rfl).symm)
    | unprepared => exact .inr (hstate.trans (hserves.state_eq rfl).symm)
    | reconciled env found =>
      have hup : ¬p.world.state.isSome = true := fun hup => hloop (hmutex.mp ⟨hup, rfl⟩)
      exact .inl (by simpa using hup)

/-- Every step of a process keeps what holds of it. -/
theorem Process.Sound.step (hp : p.Sound x) {e : ProcessEvent} (h : p.step x e = some q) :
    q.Sound x := by
  have hmutex := hp.mutex
  cases e with
  | call e =>
    obtain ⟨w, hw, rfl⟩ := Process.act_eq_some h
    exact ⟨hp.act_world hw, by rw [← hmutex, World.reconciling_call hw]⟩
  -- The mutex is free again, and the loop has left the part in which it holds the mutex.
  | finish =>
    have hfinishes := hp.finishes h
    obtain ⟨op, r, w, -, hw, rfl⟩ := Process.step_finish h
    refine ⟨hp.act_world hw, iff_of_false (by simp [World.reconciling_finish hw]) ?_⟩
    cases hfinishes with
    | other hbefore hafter => rwa [hafter]
    | failed _ _ _ _ _ hafter =>
      rw [hafter]
      simp
    | replaced _ _ _ _ _ _ hafter =>
      rw [hafter]
      simp
  | kickReconcile =>
    simp only [Process.step, Option.ite_none_right_eq_some, Option.some.injEq] at h
    obtain ⟨-, rfl⟩ := h
    exact ⟨hp.world, hmutex⟩
  -- The loop takes the mutex, or it moves between two positions without it.
  | loop e =>
    rcases Process.stepLoop_cases h with ⟨env, found, rfl⟩ | ⟨hworld, hbefore, hafter⟩
    · obtain ⟨-, w, hw, rfl⟩ := Process.stepLoop_lock h
      exact ⟨hp.act_world hw, iff_of_true (World.reconciling_start hw).2 rfl⟩
    · refine ⟨by rw [hworld]; exact hp.world, ?_⟩
      rw [hworld, hmutex]
      exact iff_of_false hbefore hafter
  | watch e =>
    obtain ⟨hworld, hloop, -⟩ := Process.stepWatch_frame h
    exact ⟨by rw [hworld]; exact hp.world, by rw [hworld, hloop]; exact hmutex⟩

/-- A step of a process is a step of its stores and memory that is no kill, or leaves them. -/
theorem Process.step_world {e : ProcessEvent} (h : p.step x e = some q) :
    q.world = p.world ∨ ∃ e', e' ≠ .crash ∧ p.world.step x e' = some q.world := by
  cases e with
  | call e =>
    obtain ⟨w, hw, rfl⟩ := Process.act_eq_some h
    exact .inr ⟨e.event, by cases e <;> simp [CallEvent.event], hw⟩
  | finish =>
    obtain ⟨op, r, w, -, hw, rfl⟩ := Process.step_finish h
    exact .inr ⟨.finish, by simp, hw⟩
  | kickReconcile =>
    simp only [Process.step, Option.ite_none_right_eq_some, Option.some.injEq] at h
    obtain ⟨-, rfl⟩ := h
    exact .inl rfl
  | loop e =>
    rcases Process.stepLoop_cases h with ⟨env, found, rfl⟩ | ⟨hworld, -, -⟩
    · obtain ⟨-, w, hw, rfl⟩ := Process.stepLoop_lock h
      exact .inr ⟨.start (.reconcile env found), by simp, hw⟩
    · exact .inl hworld
  | watch e => exact .inl (Process.stepWatch_frame h).1

end Steps

end RockchipDra.Plugin
