import RockchipDra.Plugin.Publication

/-!
# The life of a plugin process

`RunPlugin` of `cmd/kubeletplugin/main.go`, with `NewDriver`, `Shutdown`, and `HandleError` of
`driver.go` and the metrics server of `pkg/metrics`. The main goroutine makes its directories,
starts the metrics server, and makes a driver, which reconciles once, starts the kubelet helper,
publishes, and starts the rediscovery loop. Then it waits until the context is done, by a signal or
by a fatal background error, waits for the loop to return, and stops the helper and the metrics
server.

The goroutines of `Process` run beside it. The helper calls them only between its start and its
stop, and the rediscovery loop returns only when the context is done.

* `shutdown_orderly`: resources are published only while the helper is up, the helper is stopped
  only after the loop has returned, and what `RunPlugin` leaves when it returns.
* `shutdown_completes`: from every state in which the context is done, the goroutines can get to the
  return of `RunPlugin` by themselves.
-/

namespace RockchipDra.Plugin

open Go Discovery Effect

/-! ## Starting up -/

/-- What `RunPlugin` is given. -/
structure PluginConfig where
  flags : Flags
  cdiRoot : String
  metricsPort : ℤ

/-- What `os.Stat` answers. -/
inductive StatAnswer where
  | ok (info : FileInfo)
  | notExist
  | failed (err : String)

/-- Make the directory of the plugin, and that of the CDI specs where it does not exist. -/
def makeDirectories (cdiRoot : String) (mkdir : Except String Unit) (stat : StatAnswer)
    (mkdirCDI : Except String Unit) : Except String Unit :=
  match mkdir with
  | .error err => .error err
  | .ok () =>
    match stat with
    | .notExist => mkdirCDI
    | .failed err => .error err
    | .ok info =>
      if info.isDir then .ok ()
      else .error ("path for cdi file generation is not a directory: " ++ cdiRoot)

/-- Start the metrics server: whether there is one, or the error of `net.Listen`. -/
def startServer (port : ℤ) (listen : Except String Unit) : Except String Bool :=
  if port < 0 then .ok false
  else
    match listen with
    | .error err => .error ("listen for metrics server at :" ++ toString port ++ ": " ++ err)
    | .ok () => .ok true

/-- The first reconcile of `NewDeviceState`, up to the mutex: the devices, or the error of the CDI
library or of the enumeration. -/
def firstDevices (cdi : Except String Unit) (found : Except String (List Device)) :
    Except String (List Device) :=
  match cdi, found with
  | .error err, _ => .error ("unable to create CDI handler: " ++ err)
  | .ok (), .error err => .error ("enumerate devices: " ++ err)
  | .ok (), .ok devices => .ok devices

/-! ## The main goroutine and what it starts -/

/-- Where the main goroutine is. -/
inductive Main where
  /-- Before the directories are made. -/
  | directories
  /-- Before the metrics server is started. -/
  | metrics
  /-- Before `NewDeviceState`. -/
  | newDeviceState
  /-- In the first reconcile, with the mutex. -/
  | reconciling
  /-- Before the helper is started. -/
  | startHelper
  /-- Before the first publication. -/
  | publish
  /-- `NewDriver` has returned, and the context is not known to be done. -/
  | waiting
  /-- In `Shutdown`, before the rediscovery loop is known to have returned. -/
  | joining
  /-- In `Shutdown`, before the helper is stopped. -/
  | stopping
  /-- Before the deferred stop of the metrics server. -/
  | leaving (err : Except String Unit)
  /-- `RunPlugin` has returned. -/
  | returned (err : Except String Unit)

/-- The kubelet helper or the metrics server. -/
inductive Service where
  | none
  | started
  /-- It listens no more, but connections were still open when its stop timed out. -/
  | closing
  | stopped
  deriving DecidableEq

/-- The metrics server after its `Stop` with an answer, if that is possible. -/
def Service.stop : Service → Except String Unit → Option Service
  | .started, .ok () => some .stopped
  | .started, .error _ => some .closing
  -- The `Stop` of a nil server.
  | server, .ok () => some server
  | _, .error _ => Option.none

/-- Why the context is done. -/
inductive Cause where
  | signal
  | fatal (err : String)
  deriving DecidableEq

/-- A plugin process with its main goroutine. -/
structure Daemon where
  process : Process := {}
  main : Main := .directories
  helper : Service := .none
  server : Service := .none
  /-- The cause of the context, if it is done. -/
  cause : Option Cause := none
  /-- The counter `fatal_background_errors_total`. -/
  fatalErrors : ℕ := 0

/-- What can happen next. -/
inductive DaemonEvent where
  | directories (mkdir : Except String Unit) (stat : StatAnswer) (mkdirCDI : Except String Unit)
  | startServer (listen : Except String Unit)
  | newDeviceState (cdi : Except String Unit) (env : Env) (found : Except String (List Device))
  | startHelper (err : Except String Unit)
  | publishResources (err : Except String Unit)
  /-- The main goroutine sees that the context is done. -/
  | done
  /-- The main goroutine sees that the rediscovery loop has returned. -/
  | join
  | stopHelper
  | stopServer (err : Except String Unit)
  /-- A signal arrives that `NotifyContext` catches. -/
  | signal
  /-- The helper reports an error of one of its goroutines. -/
  | handleError (err : String) (recoverable : Bool)
  /-- A step of the other goroutines. -/
  | process (e : ProcessEvent)

/-- A cause that ends the context counts as a fatal error. -/
def Cause.isFatal : Cause → Bool
  | .signal => false
  | .fatal _ => true

/-- The cause with which an event ends the context. -/
def DaemonEvent.cause : DaemonEvent → Option Cause
  | .signal => some .signal
  | .handleError err recoverable => if recoverable then none else some (.fatal err)
  | _ => none

/-- The steps of the other goroutines that are possible by the state of the main one. The helper
calls the driver only while it is up, and `NewDeviceState` and the start of the loop are steps of
the main goroutine. -/
def Daemon.allows (s : Daemon) : ProcessEvent → Bool
  | .call (.newDeviceState _ _ _) => false
  | .call (.prepare _ _) => s.helper = .started
  | .call (.unprepare _) => s.helper = .started
  | .loop .start => false
  | .loop .stop => s.cause.isSome
  | .watch .start => s.helper = .started
  | _ => true

/-- Where the main goroutine is after an operation returned. -/
def Main.resume (main : Main) (r : Except String Outcome) : Main :=
  match main with
  | .reconciling =>
    match r with
    | .ok _ => .startHelper
    | .error err => .leaving (.error err)
  | main => main

/-- Whether `NotifyContext` catches a signal. Before that and after `stop`, a signal ends the
process, as a crash does. -/
def Main.catches : Main → Bool
  | .directories => false
  | .joining => false
  | .stopping => false
  | .leaving (.ok ()) => false
  | .returned _ => false
  | _ => true

/-- The plugin after an event, if the event is possible. -/
def Daemon.step (x : External) (cfg : PluginConfig) (s : Daemon) : DaemonEvent → Option Daemon
  | .directories mkdir stat mkdirCDI =>
    match s.main with
    | .directories =>
      match makeDirectories cfg.cdiRoot mkdir stat mkdirCDI with
      | .error err => some { s with main := .returned (.error err) }
      | .ok () => some { s with main := .metrics }
    | _ => none
  | .startServer listen =>
    match s.main with
    | .metrics =>
      match Plugin.startServer cfg.metricsPort listen with
      | .error err => some { s with main := .returned (.error ("start metrics server: " ++ err)) }
      | .ok true => some { s with main := .newDeviceState, server := .started }
      -- A nil server, whose stop does nothing.
      | .ok false => some { s with main := .newDeviceState }
    | _ => none
  | .newDeviceState cdi env found =>
    match s.main with
    | .newDeviceState =>
      match firstDevices cdi found with
      | .error err => some { s with main := .leaving (.error err) }
      | .ok devices => (s.process.step x (.call (.newDeviceState cfg.flags env devices))).map
          fun p => { s with process := p, main := .reconciling }
    | _ => none
  | .startHelper err =>
    match s.main with
    | .startHelper =>
      match err with
      | .error err => some { s with main := .leaving (.error err) }
      | .ok () => some { s with main := .publish, helper := .started }
    | _ => none
  | .publishResources err =>
    match s.main with
    | .publish =>
      match err with
      -- The helper is not stopped.
      | .error err => some { s with main := .leaving (.error err) }
      | .ok () => (s.process.step x (.loop .start)).map
          fun p => { s with process := p, main := .waiting }
    | _ => none
  | .done =>
    match s.main with
    | .waiting => if s.cause.isSome then some { s with main := .joining } else none
    | _ => none
  | .join =>
    match s.main with
    | .joining => if s.process.loop = .stopped then some { s with main := .stopping } else none
    | _ => none
  | .stopHelper =>
    match s.main with
    | .stopping => some { s with main := .leaving (.ok ()), helper := .stopped }
    | _ => none
  | .stopServer stopErr =>
    match s.main with
    -- An error of the stop is only logged.
    | .leaving err => (s.server.stop stopErr).map
        fun server => { s with main := .returned err, server := server }
    | _ => none
  -- The first cause stays.
  | .signal =>
    if s.main.catches then some { s with cause := s.cause.or (some .signal) } else none
  | .handleError err recoverable =>
    if s.helper = .started then
      if recoverable then some s
      else some { s with
        cause := s.cause.or (some (.fatal err))
        fatalErrors := s.fatalErrors + 1 }
    else none
  | .process e =>
    if s.allows e then
      (s.process.step x e).map fun p => { s with
        process := p
        main := match s.process.returns e with
          | none => s.main
          | some (_, r) => s.main.resume r }
    else none

/-! ## What holds at each position of the main goroutine -/

/-- What `RunPlugin` leaves: after an error the rediscovery loop has not been started, and without
one the context is done, the loop has returned, and the helper is stopped. -/
def Daemon.Left (s : Daemon) : Except String Unit → Prop
  | .error _ => s.helper ≠ .stopped ∧ s.process.loop = .notStarted
  | .ok () => s.helper = .stopped ∧ s.process.loop = .stopped ∧ s.cause.isSome = true

/-- The helper, the metrics server, the rediscovery loop, and the context, by the position of the
main goroutine. -/
def Daemon.Orderly (s : Daemon) : Prop :=
  match s.main with
  | .directories => s.helper = .none ∧ s.server = .none ∧ s.process.loop = .notStarted
  | .metrics => s.helper = .none ∧ s.server = .none ∧ s.process.loop = .notStarted
  | .newDeviceState => s.helper = .none ∧ s.process.loop = .notStarted
  | .reconciling => s.helper = .none ∧ s.process.loop = .notStarted
  | .startHelper => s.helper = .none ∧ s.process.loop = .notStarted
  | .publish => s.helper = .started ∧ s.process.loop = .notStarted
  | .waiting => s.helper = .started ∧ s.process.loop ≠ .notStarted
  | .joining => s.helper = .started ∧ s.process.loop ≠ .notStarted ∧ s.cause.isSome = true
  | .stopping => s.helper = .started ∧ s.process.loop = .stopped ∧ s.cause.isSome = true
  | .leaving err => s.Left err
  | .returned err => s.server ≠ .started ∧ s.Left err

/-- A metrics server that is stopped listens no more, whatever the answer. -/
theorem Service.stop_ne_started {server server' : Service} {err : Except String Unit}
    (h : server.stop err = some server') : server' ≠ .started := by
  cases server <;> cases err <;> cases h <;> simp

/-- Only an error leaves connections open. -/
theorem Service.stop_closing {server : Service} {err : Except String Unit}
    (h : server.stop err = some .closing) : server = .closing ∨ ∃ e, err = .error e := by
  cases server <;> cases err <;> cases h <;> simp

/-- Every metrics server can be stopped. -/
theorem Service.stop_ok (server : Service) : ∃ server', server.stop (.ok ()) = some server' := by
  cases server <;> exact ⟨_, rfl⟩

section Loop

variable {x : External} {p q : Process} {e : ProcessEvent}

/-- Only `NewDriver` starts the loop. -/
theorem Process.loop_eq_notStarted (h : p.step x e = some q) (he : e ≠ .loop .start) :
    q.loop = .notStarted ↔ p.loop = .notStarted := by
  cases e with
  | call e =>
    obtain ⟨w, -, rfl⟩ := Process.act_eq_some h
    exact Iff.rfl
  | finish =>
    obtain ⟨op, r, w, -, -, rfl⟩ := Process.step_finish h
    by_cases hloop : p.loop = .applying
    · cases op with
      | reconcile env found =>
        simp only [Rediscovery.resume, hloop, if_true]
        split <;> simp
      | _ => exact Iff.rfl
    · dsimp only
      rw [Rediscovery.resume_of_ne hloop]
  | kickReconcile =>
    simp only [Process.step, Option.ite_none_right_eq_some, Option.some.injEq] at h
    obtain ⟨-, rfl⟩ := h
    exact Iff.rfl
  | loop e =>
    have hmoves := Process.stepLoop_moves h
    refine iff_of_false hmoves.started ?_
    cases hmoves with
    | start => exact absurd rfl he
    | silent _ _ hup => exact hup
    | publish result _ hbefore =>
      rw [hbefore]
      simp
  | watch e => rw [(Process.stepWatch_frame h).2.1]

/-- A loop that has returned stays so. -/
theorem Process.loop_stopped (h : p.step x e = some q) (hloop : p.loop = .stopped) :
    q.loop = .stopped := by
  cases e with
  | call e =>
    obtain ⟨w, -, rfl⟩ := Process.act_eq_some h
    exact hloop
  | finish =>
    obtain ⟨op, r, w, -, -, rfl⟩ := Process.step_finish h
    dsimp only
    rw [Rediscovery.resume_of_ne (by simp [hloop]), hloop]
  | kickReconcile =>
    simp only [Process.step, Option.ite_none_right_eq_some, Option.some.injEq] at h
    obtain ⟨-, rfl⟩ := h
    exact hloop
  | loop e =>
    -- No step of the loop is possible any more.
    change p.stepLoop x e = some q at h
    cases e <;> simp [Process.stepLoop, hloop] at h
  | watch e =>
    rw [(Process.stepWatch_frame h).2.1]
    exact hloop

end Loop

section Steps

variable {x : External} {cfg : PluginConfig} {s s' : Daemon} {e : DaemonEvent}

/-- What a step of the other goroutines does. -/
theorem Daemon.step_process {e : ProcessEvent} (h : s.step x cfg (.process e) = some s') :
    s.allows e = true ∧ ∃ p, s.process.step x e = some p ∧ s' = { s with
      process := p
      main := match s.process.returns e with
        | none => s.main
        | some (_, r) => s.main.resume r } := by
  simp only [Daemon.step, Option.ite_none_right_eq_some, Option.map_eq_some_iff] at h
  obtain ⟨hallows, p, hp, rfl⟩ := h
  exact ⟨hallows, p, hp, rfl⟩

/-- What every step does to the parts of the plugin that the position of the main goroutine does not
tell. -/
structure Daemon.Frame (x : External) (s : Daemon) (e : DaemonEvent) (s' : Daemon) : Prop where
  process : s'.process = s.process ∨ ∃ e', s.process.step x e' = some s'.process
  /-- The first cause stays. -/
  cause : s'.cause = s.cause.or e.cause
  fatalErrors : s'.fatalErrors = s.fatalErrors + (e.cause.any Cause.isFatal).toNat
  /-- Connections to the metrics server stay open only after an error of its stop. -/
  closing : s'.server = .closing → s.server = .closing ∨ ∃ err, e = .stopServer (.error err)

/-- An event without a cause. -/
theorem Daemon.Frame.of_cause_eq_none
    (hprocess : s'.process = s.process ∨ ∃ e', s.process.step x e' = some s'.process)
    (hnone : e.cause = none) (hcause : s'.cause = s.cause)
    (hfatal : s'.fatalErrors = s.fatalErrors)
    (hclosing : s'.server = .closing → s.server = .closing ∨ ∃ err, e = .stopServer (.error err)) :
    Daemon.Frame x s e s' :=
  ⟨hprocess, by rw [hcause, hnone, Option.or_none], by simp [hfatal, hnone], hclosing⟩

theorem Daemon.frame_of_step (h : s.step x cfg e = some s') : Daemon.Frame x s e s' := by
  cases e with
  | signal =>
    simp only [Daemon.step, Option.ite_none_right_eq_some, Option.some.injEq] at h
    obtain ⟨-, rfl⟩ := h
    exact ⟨.inl rfl, rfl, rfl, .inl⟩
  | handleError err recoverable =>
    simp only [Daemon.step] at h
    split_ifs at h with hhelper hrecoverable
    · cases h
      exact .of_cause_eq_none (.inl rfl) (if_pos hrecoverable) rfl rfl .inl
    · cases h
      have hcause : (DaemonEvent.handleError err recoverable).cause = some (.fatal err) :=
        if_neg hrecoverable
      exact ⟨.inl rfl, by rw [hcause], by rw [hcause]; rfl, .inl⟩
  | process e =>
    obtain ⟨-, p, hp, rfl⟩ := Daemon.step_process h
    exact .of_cause_eq_none (.inr ⟨e, hp⟩) rfl rfl rfl .inl
  | newDeviceState cdi env found =>
    simp only [Daemon.step] at h
    split at h
    · split at h
      · cases h
        exact .of_cause_eq_none (.inl rfl) rfl rfl rfl .inl
      · obtain ⟨p, hp, rfl⟩ := Option.map_eq_some_iff.mp h
        exact .of_cause_eq_none (.inr ⟨_, hp⟩) rfl rfl rfl .inl
    · cases h
  | publishResources err =>
    simp only [Daemon.step] at h
    split at h
    · split at h
      · cases h
        exact .of_cause_eq_none (.inl rfl) rfl rfl rfl .inl
      · obtain ⟨p, hp, rfl⟩ := Option.map_eq_some_iff.mp h
        exact .of_cause_eq_none (.inr ⟨_, hp⟩) rfl rfl rfl .inl
    · cases h
  | stopServer stopErr =>
    simp only [Daemon.step] at h
    split at h
    · obtain ⟨server, hstop, rfl⟩ := Option.map_eq_some_iff.mp h
      refine .of_cause_eq_none (.inl rfl) rfl rfl rfl ?_
      rintro rfl
      exact (Service.stop_closing hstop).imp_right fun ⟨err, herr⟩ => ⟨err, by rw [herr]⟩
    · cases h
  | startServer listen =>
    simp only [Daemon.step] at h
    split at h
    · split at h
      · cases h
        exact .of_cause_eq_none (.inl rfl) rfl rfl rfl .inl
      · cases h
        exact .of_cause_eq_none (.inl rfl) rfl rfl rfl fun hserver => nomatch hserver
      · cases h
        exact .of_cause_eq_none (.inl rfl) rfl rfl rfl .inl
    · cases h
  | _ =>
    simp only [Daemon.step] at h
    split at h <;> (try split at h) <;> cases h <;>
      exact .of_cause_eq_none (.inl rfl) rfl rfl rfl .inl

/-- What holds at a position holds at the one to which a return of an operation leads, with the loop
where the return leaves it. -/
theorem Daemon.Orderly.resume (hs : s.Orderly) {p : Process}
    (hnotStarted : p.loop = .notStarted ↔ s.process.loop = .notStarted)
    (hstopped : s.process.loop = .stopped → p.loop = .stopped)
    (r : Option (Op × Except String Outcome)) :
    Daemon.Orderly { s with
      process := p
      main := match r with
        | none => s.main
        | some (_, r) => s.main.resume r } := by
  -- Without a return, and at every position but one, the main goroutine stays where it is.
  have hsame : Daemon.Orderly { s with process := p } := by
    unfold Daemon.Orderly Daemon.Left at hs ⊢
    dsimp only
    cases hmain : s.main with
    | leaving err => cases err <;> simp_all
    | returned err => cases err <;> simp_all
    | _ => simp_all
  cases r with
  | none => exact hsame
  | some r =>
    cases hmain : s.main with
    | reconciling =>
      have hp : s.helper = .none ∧ p.loop = .notStarted := by
        simpa [Daemon.Orderly, hmain] using hsame
      cases hr : r.2 with
      | ok out => simpa [Daemon.Orderly, Main.resume, hr] using hp
      | error err => simp [Daemon.Orderly, Daemon.Left, Main.resume, hr, hp]
    | _ => simpa [Daemon.Orderly, Main.resume, hmain] using hsame

/-- A context that is done adds to what holds at a position. -/
theorem Daemon.Orderly.cause (hs : s.Orderly) {cause : Option Cause}
    (hcause : s.cause.isSome = true → cause.isSome = true) (fatalErrors : ℕ) :
    Daemon.Orderly { s with cause := cause, fatalErrors := fatalErrors } := by
  unfold Daemon.Orderly Daemon.Left at hs ⊢
  dsimp only
  cases hmain : s.main with
  | leaving err => cases err <;> simp_all
  | returned err => cases err <;> simp_all
  | _ => simp_all

/-- Every step keeps what holds at each position. -/
theorem Daemon.Orderly.step (hs : s.Orderly) (h : s.step x cfg e = some s') : s'.Orderly := by
  cases e with
  | directories mkdir stat mkdirCDI =>
    simp only [Daemon.step] at h
    split at h
    · next hmain =>
      simp only [Daemon.Orderly, hmain] at hs
      split at h <;> cases h <;> simp [Daemon.Orderly, Daemon.Left, hs]
    · cases h
  | startServer listen =>
    simp only [Daemon.step] at h
    split at h
    · next hmain =>
      simp only [Daemon.Orderly, hmain] at hs
      split at h <;> cases h <;> simp [Daemon.Orderly, Daemon.Left, hs]
    · cases h
  | newDeviceState cdi env found =>
    simp only [Daemon.step] at h
    split at h
    · next hmain =>
      simp only [Daemon.Orderly, hmain] at hs
      split at h
      · cases h
        simp [Daemon.Orderly, Daemon.Left, hs]
      · obtain ⟨p, hp, rfl⟩ := Option.map_eq_some_iff.mp h
        have hloop := (Process.loop_eq_notStarted hp (by simp)).mpr hs.2
        exact ⟨hs.1, hloop⟩
    · cases h
  | startHelper err =>
    simp only [Daemon.step] at h
    split at h
    · next hmain =>
      simp only [Daemon.Orderly, hmain] at hs
      split at h <;> cases h <;> simp [Daemon.Orderly, Daemon.Left, hs]
    · cases h
  | publishResources err =>
    simp only [Daemon.step] at h
    split at h
    · next hmain =>
      simp only [Daemon.Orderly, hmain] at hs
      split at h
      · cases h
        simp [Daemon.Orderly, Daemon.Left, hs]
      · obtain ⟨p, hp, rfl⟩ := Option.map_eq_some_iff.mp h
        have hstart : s.process.stepLoop x .start = some p := hp
        exact ⟨hs.1, (Process.stepLoop_moves hstart).started⟩
    · cases h
  | done =>
    simp only [Daemon.step] at h
    split at h
    · next hmain =>
      simp only [Daemon.Orderly, hmain] at hs
      split_ifs at h with hcause
      cases h
      exact ⟨hs.1, hs.2, hcause⟩
    · cases h
  | join =>
    simp only [Daemon.step] at h
    split at h
    · next hmain =>
      simp only [Daemon.Orderly, hmain] at hs
      split_ifs at h with hloop
      cases h
      exact ⟨hs.1, hloop, hs.2.2⟩
    · cases h
  | stopHelper =>
    simp only [Daemon.step] at h
    split at h
    · next hmain =>
      simp only [Daemon.Orderly, hmain] at hs
      cases h
      exact ⟨rfl, hs.2⟩
    · cases h
  | stopServer stopErr =>
    simp only [Daemon.step] at h
    split at h
    · next err hmain =>
      simp only [Daemon.Orderly, hmain] at hs
      obtain ⟨server, hserver, rfl⟩ := Option.map_eq_some_iff.mp h
      exact ⟨Service.stop_ne_started hserver, by cases err <;> exact hs⟩
    · cases h
  | signal =>
    simp only [Daemon.step, Option.ite_none_right_eq_some, Option.some.injEq] at h
    obtain ⟨-, rfl⟩ := h
    exact hs.cause (by simp) _
  | handleError err recoverable =>
    simp only [Daemon.step] at h
    split_ifs at h with hhelper hrecoverable
    · cases h
      exact hs
    · cases h
      exact hs.cause (by simp) _
  | process e =>
    obtain ⟨hallows, p, hp, rfl⟩ := Daemon.step_process h
    have he : e ≠ .loop .start := by
      rintro rfl
      cases hallows
    exact hs.resume (Process.loop_eq_notStarted hp he) (Process.loop_stopped hp) _

/-- The event is a publication. -/
def Daemon.publishes (s : Daemon) : DaemonEvent → Bool
  | .publishResources _ => true
  | .process e => (s.process.publication e).isSome
  | _ => false

/-- Resources are published only while the helper is up. -/
theorem Daemon.Orderly.publishes (hs : s.Orderly) (h : s.step x cfg e = some s')
    (he : s.publishes e = true) : s.helper = .started := by
  cases e with
  | publishResources err =>
    simp only [Daemon.step] at h
    split at h
    · next hmain =>
      simp only [Daemon.Orderly, hmain] at hs
      exact hs.1
    · cases h
  | process e =>
    obtain ⟨hallows, p, hp, -⟩ := Daemon.step_process h
    -- The loop is about to publish, so that it has started and has not returned.
    obtain ⟨result, hloop⟩ : ∃ result, s.process.loop = .publishing result := by
      change (s.process.publication e).isSome = true at he
      unfold Process.publication at he
      split at he
      · cases hallows
      · split at he
        · next result hloop => exact ⟨result, hloop⟩
        · cases he
      · cases he
    unfold Daemon.Orderly Daemon.Left at hs
    cases hmain : s.main with
    | leaving err => cases err <;> simp_all
    | returned err => cases err <;> simp_all
    | _ => simp_all
  | _ => cases he

/-- The helper is stopped only after the loop has returned. -/
theorem Daemon.Orderly.stopHelper (hs : s.Orderly) (h : s.step x cfg .stopHelper = some s') :
    s.process.loop = .stopped := by
  simp only [Daemon.step] at h
  split at h
  · next hmain =>
    simp only [Daemon.Orderly, hmain] at hs
    exact hs.2.1
  · cases h

/-- The context has the first of the causes that came up, and the fatal ones are counted. -/
def Daemon.Records (s : Daemon) (causes : List Cause) : Prop :=
  s.cause = causes.head? ∧ s.fatalErrors = causes.countP Cause.isFatal

/-- Every step records the cause that comes up with it. -/
theorem Daemon.Records.step {causes : List Cause} (hs : s.Records causes)
    (h : s.step x cfg e = some s') : s'.Records (causes ++ e.cause.toList) := by
  have hframe := Daemon.frame_of_step h
  refine ⟨?_, ?_⟩
  · rw [hframe.cause, hs.1, List.head?_append]
    cases e.cause <;> rfl
  · rw [hframe.fatalErrors, hs.2, List.countP_append]
    cases e.cause with
    | none => rfl
    | some c => cases c <;> rfl

end Steps

/-- **Orderly shutdown.** Along every run of a plugin, resources are published only while the helper
is up, and the helper is stopped only when the rediscovery loop has returned. The context has the
first cause that came up, and the fatal errors are counted. When `RunPlugin` has returned, the
metrics server listens no more, and it has closed its connections unless its stop failed; if
`RunPlugin` returned nil, the context is done, the rediscovery loop has returned, and the helper is
stopped; and if it returned an error, the loop has never been started. -/
theorem shutdown_orderly (x : External) (cfg : PluginConfig) (l : Ledger) (es : List DaemonEvent)
    (s : Daemon)
    (hrun : run (Daemon.step x cfg) { process := { world := { ledger := l } } } es = some s) :
    Along (Daemon.step x cfg) (fun s e _ => (s.publishes e = true → s.helper = .started) ∧
          (e = .stopHelper → s.process.loop = .stopped))
        { process := { world := { ledger := l } } } es ∧
      s.Records (es.filterMap DaemonEvent.cause) ∧
      (s.server = .closing → ∃ err, DaemonEvent.stopServer (.error err) ∈ es) ∧
      ∀ err, s.main = .returned err → s.server ≠ .started ∧ s.Left err := by
  have hinit : ({ process := { world := { ledger := l } } } : Daemon).Orderly := ⟨rfl, rfl, rfl⟩
  refine ⟨?_, ?_, ?_, ?_⟩
  · refine along_of_invariant Daemon.Orderly (R := fun _ _ _ => True)
      (fun _ _ _ hs h _ => hs.step h) (fun s e s' hs h _ => ⟨hs.publishes h, ?_⟩) hinit
      (along_of_forall (fun _ _ _ _ => trivial) _ _)
    rintro rfl
    exact hs.stopHelper h
  · have hrecords := run_observed (fun causes s => s.Records causes)
      (fun _ => DaemonEvent.cause) (fun _ => True) (fun _ _ _ _ hs h _ => hs.step h) (h := [])
      ⟨rfl, rfl⟩ hrun (fun _ _ => trivial)
    rw [observed_eq_filterMap hrun] at hrecords
    exact hrecords
  · have hclosing := run_observed
      (fun events (s : Daemon) => s.server = .closing →
        ∃ err, DaemonEvent.stopServer (.error err) ∈ events)
      (fun _ => some) (fun _ => True) ?_ (h := []) (by simp) hrun (fun _ _ => trivial)
    · rw [observed_eq_filterMap hrun, List.filterMap_some] at hclosing
      exact hclosing
    · intro events s e s' hs h _ hserver
      obtain hbefore | ⟨err, rfl⟩ := (Daemon.frame_of_step h).closing hserver
      · obtain ⟨err, herr⟩ := hs hbefore
        exact ⟨err, List.mem_append_left _ herr⟩
      · exact ⟨err, List.mem_append_right _ (by simp)⟩
  · intro err hmain
    have hs : s.Orderly := run_invariant Daemon.Orderly (fun _ _ _ hs h => hs.step h) hinit hrun
    simp only [Daemon.Orderly, hmain] at hs
    exact hs

/-- A plugin with the devices of the host comes up. -/
def comesUp : List DaemonEvent :=
  [.directories (.ok ()) .notExist (.ok ()), .startServer (.ok ()),
    .newDeviceState (.ok ()) (hostEnv 0 bothNodes) (.ok bothFound)] ++
  (smoothCommands 2).map .process ++
  [.process .finish, .startHelper (.ok ()), .publishResources (.ok ())]

/-- The loop is between its two halves of `Reconcile` when a background error ends the context, and
a signal arrives too late to be the cause. -/
def failsBetween : List DaemonEvent :=
  comesUp ++ [.process (.loop .tick), .process (.loop .reconcile),
    .handleError "connection lost" false, .signal, .done]

/-- The loop goes through the rest of its `Reconcile` before the plugin stops. -/
def stopsAfterwards : List DaemonEvent :=
  [.process (.loop (.lock (hostEnv 1 []) []))] ++ (smoothCommands 2).map .process ++
  [.process .finish, .process (.loop .notifyHealth), .process (.loop (.publish (.ok ()))),
    .process (.loop .stop), .join, .stopHelper, .stopServer (.error "context deadline exceeded")]

/-- A plugin with a metrics server. -/
def hostConfig : PluginConfig where
  flags := hostFlags
  cdiRoot := "/etc/cdi"
  metricsPort := 8081

/-- `RunPlugin` has returned nil. -/
def Main.returnedNil : Main → Bool
  | .returned err => err.isOk
  | _ => false

theorem Main.eq_of_returnedNil {main : Main} (h : main.returnedNil = true) :
    main = .returned (.ok ()) := by
  cases main with
  | returned err =>
    cases err with
    | ok _ => rfl
    | error _ => cases h
  | _ => cases h

/-- The context keeps the background error, and the last publication comes before the helper
stops. The stop of the metrics server times out. -/
theorem shutdown_orderly_after_error :
    ∃ s, run (Daemon.step plainExternal hostConfig) {} (failsBetween ++ stopsAfterwards) = some s ∧
      s.cause = some (.fatal "connection lost") ∧ s.fatalErrors = 1 ∧ s.helper = .stopped ∧
      s.process.loop = .stopped ∧ s.server ≠ .started := by
  have hrun : (run (Daemon.step plainExternal hostConfig) {} (failsBetween ++ stopsAfterwards)).map
      (fun s => s.main.returnedNil) = some true := by
    decide +kernel
  obtain ⟨s, hs, hmain⟩ := Option.map_eq_some_iff.mp hrun
  obtain ⟨-, hrecords, -, hreturned⟩ := shutdown_orderly plainExternal hostConfig {}
    (failsBetween ++ stopsAfterwards) s hs
  have hreturn : s.main = .returned (.ok ()) := Main.eq_of_returnedNil hmain
  obtain ⟨hserver, hhelper, hloop, -⟩ := hreturned _ hreturn
  exact ⟨s, hs, hrecords.1, hrecords.2, hhelper, hloop, hserver⟩

/-! ## The goroutines can get to the end -/

/-- A step of a goroutine that is already running, in which nothing fails. -/
def ProcessEvent.IsOwn : ProcessEvent → Prop
  | .call (.command fault) => fault = .none
  | .finish => True
  | .loop .start => False
  | .loop (.publish err) => err = .ok ()
  | .loop (.enumerateError _) => False
  | .loop _ => True
  | _ => False

section Progress

variable {x : External} {p : Process}

/-- The operation that holds the mutex can return. -/
theorem Process.Carries.canReach_finish (hp : p.Carries x) {t : Task}
    (hrunning : p.world.running = some t) :
    CanReach (Process.step x) ProcessEvent.IsOwn (fun q => ∃ p' : Process, p'.Carries x ∧
      p'.loop = p.loop ∧ p'.step x .finish = some q) p := by
  obtain ⟨s, op, rest⟩ := t
  -- By induction on what is left of its program.
  induction rest generalizing p with
  | ret r =>
    have hstep : ∃ q, p.step x .finish = some q := by
      simp [Process.step, World.returned, hrunning, Process.act, World.step]
    obtain ⟨q, hq⟩ := hstep
    exact CanReach.head (e := .finish) trivial hq (CanReach.refl ⟨p, hp, rfl, hq⟩)
  | call c k ih =>
    -- Whatever the command is answered, the rest can return.
    have hstep : p.step x (.call (.command .none)) = some { p with
        world := { p.world with
          ledger := (op.machine s c .none p.world.ledger).2
          running := some ⟨s, op, k (op.machine s c .none p.world.ledger).1⟩ } } := by
      simp [Process.step, Process.act, CallEvent.event, World.step, hrunning]
    exact CanReach.head (e := .call (.command .none)) rfl hstep (ih _ (hp.step hstep) rfl)

/-- A loop that waits can return. -/
theorem Process.canStop_waiting (hloop : p.loop = .waiting) :
    CanReach (Process.step x) ProcessEvent.IsOwn (fun q => q.loop = .stopped) p := by
  have hstep : p.step x (.loop .stop) = some { p with loop := .stopped } := by
    simp [Process.step, Process.stepLoop, hloop]
  exact CanReach.head (e := .loop .stop) trivial hstep (CanReach.refl rfl)

/-- A loop that publishes can return. -/
theorem Process.canStop_publishing {result : ReconcileResult}
    (hloop : p.loop = .publishing result) :
    CanReach (Process.step x) ProcessEvent.IsOwn (fun q => q.loop = .stopped) p := by
  obtain ⟨q, hq, hwaiting⟩ : ∃ q, p.step x (.loop (.publish (.ok ()))) = some q ∧
      q.loop = .waiting := by
    simp only [Process.step, Process.stepLoop, hloop]
    split_ifs
    · exact ⟨_, rfl, rfl⟩
    · exact ⟨_, rfl, rfl⟩
  exact CanReach.head (e := .loop (.publish (.ok ()))) rfl hq (Process.canStop_waiting hwaiting)

/-- A loop that is past `Reconcile` can return. -/
theorem Process.canStop_notifying {result : ReconcileResult} (hloop : p.loop = .notifying result) :
    CanReach (Process.step x) ProcessEvent.IsOwn (fun q => q.loop = .stopped) p := by
  obtain ⟨q, hq, hpublishing⟩ : ∃ q, p.step x (.loop .notifyHealth) = some q ∧
      q.loop = .publishing result := by
    simp only [Process.step, Process.stepLoop, hloop]
    split_ifs
    · exact ⟨_, rfl, rfl⟩
    · exact ⟨_, rfl, rfl⟩
  exact CanReach.head (e := .loop .notifyHealth) trivial hq (Process.canStop_publishing hpublishing)

/-- A loop that holds the mutex can return. -/
theorem Process.Carries.canStop_applying (hp : p.Carries x) (hloop : p.loop = .applying) :
    CanReach (Process.step x) ProcessEvent.IsOwn (fun q => q.loop = .stopped) p := by
  have hreconciling := hp.mutex.mpr hloop
  cases hrunning : p.world.running with
  | none => simp [World.reconciling, hrunning] at hreconciling
  | some t =>
    refine CanReach.trans (Process.Carries x) (fun _ _ _ hp h => hp.step h) hp
      (hp.canReach_finish hrunning) ?_
    rintro q - ⟨p', hp', hloop', hq⟩
    cases hp'.finishes hq with
    | other hbefore => exact absurd (hloop'.trans hloop) hbefore
    | failed _ _ _ _ _ hafter => exact Process.canStop_waiting hafter
    | replaced _ _ _ _ _ _ hafter => exact Process.canStop_notifying hafter

/-- A loop that enumerates can return, if the mutex is free. -/
theorem Process.Carries.canStop_enumerating (hp : p.Carries x) (hloop : p.loop = .enumerating)
    (hfree : p.world.running = none) :
    CanReach (Process.step x) ProcessEvent.IsOwn (fun q => q.loop = .stopped) p := by
  obtain ⟨s, hs⟩ := Option.isSome_iff_exists.mp (hp.up (by simp [hloop]))
  let env : Env := hostEnv 0 []
  obtain ⟨q, hq, hafter⟩ : ∃ q, p.step x (.loop (.lock env [])) = some q ∧ q.loop = .applying := by
    simp [Process.step, Process.stepLoop, hloop, Process.act, World.step, hs, hfree]
  exact CanReach.head (e := .loop (.lock env [])) trivial hq
    ((hp.step hq).canStop_applying hafter)

/-- A loop in `Reconcile` can return, whoever holds the mutex. -/
theorem Process.Carries.canStop_reconcile (hp : p.Carries x) (hloop : p.loop = .enumerating) :
    CanReach (Process.step x) ProcessEvent.IsOwn (fun q => q.loop = .stopped) p := by
  cases hrunning : p.world.running with
  | none => exact hp.canStop_enumerating hloop hrunning
  | some t =>
    -- The call that holds the mutex returns first.
    refine CanReach.trans (Process.Carries x) (fun _ _ _ hp h => hp.step h) hp
      (hp.canReach_finish hrunning) ?_
    rintro q hq ⟨p', hp', hloop', hstep⟩
    obtain ⟨op, r, w, -, hw, rfl⟩ := Process.step_finish hstep
    refine hq.canStop_enumerating ?_ ?_
    · dsimp only
      rw [Rediscovery.resume_of_ne (by simp [hloop', hloop]), hloop', hloop]
    · simp only [World.step] at hw
      split at hw <;> cases hw
      rfl

/-- A loop that has started can return. -/
theorem Process.Carries.canStop (hp : p.Carries x) (hup : p.loop ≠ .notStarted) :
    CanReach (Process.step x) ProcessEvent.IsOwn (fun q => q.loop = .stopped) p := by
  cases hloop : p.loop with
  | notStarted => exact absurd hloop hup
  | waiting => exact Process.canStop_waiting hloop
  | woken =>
    have hstep : p.step x (.loop .reconcile) = some { p with loop := .enumerating } := by
      simp [Process.step, Process.stepLoop, hloop]
    exact CanReach.head (e := .loop .reconcile) trivial hstep
      ((hp.step hstep).canStop_reconcile rfl)
  | enumerating => exact hp.canStop_reconcile hloop
  | applying => exact hp.canStop_applying hloop
  | notifying result => exact Process.canStop_notifying hloop
  | publishing result => exact Process.canStop_publishing hloop
  | stopped => exact CanReach.refl hloop

end Progress

/-- A step of a goroutine of the plugin that is already running, in which nothing fails. -/
def DaemonEvent.IsOwn : DaemonEvent → Prop
  | .done => True
  | .join => True
  | .stopHelper => True
  | .stopServer err => err = .ok ()
  | .process e => e.IsOwn
  | _ => False

section Shutdown

variable {x : External} {cfg : PluginConfig} {s : Daemon}

/-- While the main goroutine waits for the others, these go on by themselves. -/
theorem Daemon.run_process {es : List ProcessEvent} {q : Process} (hcause : s.cause.isSome = true)
    (hmain : ∀ r, s.main.resume r = s.main) (hes : ∀ e ∈ es, e.IsOwn)
    (hrun : run (Process.step x) s.process es = some q) :
    run (Daemon.step x cfg) s (es.map .process) = some { s with process := q } := by
  induction es generalizing s with
  | nil =>
    rw [run_nil, Option.some.injEq] at hrun
    rw [List.map_nil, run_nil, ← hrun]
  | cons e es ih =>
    rw [run_cons, Option.bind_eq_some_iff] at hrun
    obtain ⟨p, hp, hrun⟩ := hrun
    obtain ⟨he, hes⟩ := List.forall_mem_cons.mp hes
    have hallows : s.allows e = true := by
      unfold Daemon.allows
      split <;> first | rfl | exact hcause | exact he.elim
    have hstep : s.step x cfg (.process e) = some { s with process := p } := by
      simp only [Daemon.step, hallows, if_true, hp, Option.map_some, Option.some.injEq]
      cases s.process.returns e with
      | none => rfl
      | some r =>
        dsimp only
        rw [hmain]
    rw [List.map_cons, run_cons, hstep]
    exact ih (s := { s with process := p }) hcause hmain hes hrun

/-- The goroutines of a plugin keep what holds of a process. -/
theorem Daemon.step_carries {e : DaemonEvent} {s' : Daemon} (hs : s.process.Carries x)
    (h : s.step x cfg e = some s') : s'.process.Carries x := by
  rcases (Daemon.frame_of_step h).process with hsame | ⟨e', hstep⟩
  · rw [hsame]
    exact hs
  · exact hs.step hstep

/-- `NewDriver` has succeeded, and `RunPlugin` has not returned. -/
inductive Main.Up : Main → Prop
  | waiting : Up .waiting
  | joining : Up .joining
  | stopping : Up .stopping
  | leaving : Up (.leaving (.ok ()))

/-- After the helper is stopped, `RunPlugin` can return. -/
theorem Daemon.canReturn_leaving (hmain : s.main = .leaving (.ok ())) :
    CanReach (Daemon.step x cfg) DaemonEvent.IsOwn (fun q => q.main = .returned (.ok ())) s := by
  obtain ⟨server, hserver⟩ := s.server.stop_ok
  have hstep : s.step x cfg (.stopServer (.ok ())) =
      some { s with main := .returned (.ok ()), server := server } := by
    simp only [Daemon.step, hmain, hserver, Option.map_some]
  exact CanReach.head (e := .stopServer (.ok ())) rfl hstep (CanReach.refl rfl)

/-- After the rediscovery loop has returned, `RunPlugin` can return. -/
theorem Daemon.canReturn_stopping (hmain : s.main = .stopping) :
    CanReach (Daemon.step x cfg) DaemonEvent.IsOwn (fun q => q.main = .returned (.ok ())) s := by
  have hstep : s.step x cfg .stopHelper =
      some { s with main := .leaving (.ok ()), helper := .stopped } := by
    simp only [Daemon.step, hmain]
  exact CanReach.head (e := .stopHelper) trivial hstep (Daemon.canReturn_leaving rfl)

/-- Once the main goroutine knows that the context is done, `RunPlugin` can return. -/
theorem Daemon.canReturn_joining (hprocess : s.process.Carries x)
    (hup : s.process.loop ≠ .notStarted) (hcause : s.cause.isSome = true)
    (hmain : s.main = .joining) :
    CanReach (Daemon.step x cfg) DaemonEvent.IsOwn (fun q => q.main = .returned (.ok ())) s := by
  obtain ⟨es, q, hes, hrun, hloop⟩ := hprocess.canStop hup
  have hresume : ∀ r, s.main.resume r = s.main := by
    rw [hmain]
    exact fun _ => rfl
  have hothers : CanReach (Daemon.step x cfg) DaemonEvent.IsOwn
      (fun t => t.main = .joining ∧ t.process.loop = .stopped) s := by
    refine ⟨es.map .process, { s with process := q }, ?_, ?_, hmain, hloop⟩
    · intro e he
      obtain ⟨e', he', rfl⟩ := List.mem_map.mp he
      exact hes e' he'
    · exact Daemon.run_process hcause hresume hes hrun
  refine CanReach.trans (fun _ => True) (fun _ _ _ _ _ => trivial) trivial hothers ?_
  rintro t - ⟨htmain, htloop⟩
  have hjoin : t.step x cfg .join = some { t with main := .stopping } := by
    simp only [Daemon.step, htmain, htloop, if_true]
  exact CanReach.head (e := .join) trivial hjoin (Daemon.canReturn_stopping rfl)

end Shutdown

/-- **Shutdown can complete.** In every state of every run in which `NewDriver` has succeeded and
the context is done, whoever holds the mutex and wherever the goroutines are, they can get by
themselves to the return of nil from `RunPlugin`: without another call, with every command and
publication that is left succeeding, and through everything that they have begun. -/
theorem shutdown_completes (x : External) (cfg : PluginConfig) (l : Ledger) (es : List DaemonEvent)
    (s : Daemon)
    (hrun : run (Daemon.step x cfg) { process := { world := { ledger := l } } } es = some s)
    (hup : s.main.Up) (hcause : s.cause.isSome = true) :
    CanReach (Daemon.step x cfg) DaemonEvent.IsOwn (fun q => q.main = .returned (.ok ())) s := by
  have hprocess : s.process.Carries x :=
    run_invariant (fun s => s.process.Carries x) (fun _ _ _ hs h => Daemon.step_carries hs h)
      (Process.carries_init x l) hrun
  have hinit : Daemon.Orderly { process := { world := { ledger := l } } } := ⟨rfl, rfl, rfl⟩
  have hs : s.Orderly := run_invariant Daemon.Orderly (fun _ _ _ hs h => hs.step h) hinit hrun
  unfold Daemon.Orderly at hs
  generalize hmain : s.main = main at hs hup
  cases hup with
  | waiting =>
    have hdone : s.step x cfg .done = some { s with main := .joining } := by
      simp only [Daemon.step, hmain, hcause, if_true]
    exact CanReach.head (e := .done) trivial hdone
      (Daemon.canReturn_joining hprocess hs.2 hcause rfl)
  | joining => exact Daemon.canReturn_joining hprocess hs.2.1 hcause hmain
  | stopping => exact Daemon.canReturn_stopping hmain
  | leaving => exact Daemon.canReturn_leaving hmain

/-- The loop has enumerated and has not locked when the context ends. -/
theorem shutdown_completes_after_error :
    ∃ s, run (Daemon.step plainExternal hostConfig) {} failsBetween = some s ∧
      s.process.loop = .enumerating ∧
      CanReach (Daemon.step plainExternal hostConfig) DaemonEvent.IsOwn
        (fun q => q.main = .returned (.ok ())) s := by
  have hrun : (run (Daemon.step plainExternal hostConfig) {} failsBetween).map
      (fun s => (match s.main with
        | .joining => true
        | _ => false, s.cause.isSome, s.process.loop)) = some (true, true, .enumerating) := by
    decide +kernel
  simp only [Option.map_eq_some_iff, Prod.mk.injEq] at hrun
  obtain ⟨s, hs, hmain, hcause, hloop⟩ := hrun
  have hup : s.main.Up := by
    split at hmain
    · next heq => exact heq ▸ .joining
    · cases hmain
  exact ⟨s, hs, hloop, shutdown_completes plainExternal hostConfig {} failsBetween s hs hup hcause⟩

end RockchipDra.Plugin
