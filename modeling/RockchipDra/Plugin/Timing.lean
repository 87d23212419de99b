import RockchipDra.Effect.Ticker
import RockchipDra.Plugin.Lifecycle

/-!
# How old a health report gets

`WatchHealthStatus` sends a report whenever the health changes and at each tick of a ticker, and the
kubelet holds a device for unknown whose report is older than its `HealthCheckTimeout`.
`runRediscovery` reconciles at each tick of a ticker of its own, with the interval of a flag. Here
the goroutines of a `Process` run with a clock and these two tickers.

How long the work takes and how late a wake-up comes is not in the source, so that bounds on these
are assumed (`Pace`), and all runs that keep to them are considered.

* `health_lease_kept`: from the first report of a health loop on, the report sent last has not timed
  out.
* `health_report_recent`: the report sent last shows the outcome of a `Reconcile` that was called a
  bounded time ago.
-/

namespace RockchipDra.Plugin

open Go Discovery Effect

/-! ## The intervals -/

/-- How often `WatchHealthStatus` repeats the last report, in nanoseconds. -/
def healthResendInterval : ℕ := 15 * 10 ^ 9

/-- How often the plugin reads sysfs again, in nanoseconds, if the flag does not say. -/
def defaultDiscoveryInterval : ℕ := 10 * 10 ^ 9

/-- The interval of the rediscovery loop, from that of the flag. -/
def discoveryInterval (flag : ℤ) : ℕ := if flag ≤ 0 then defaultDiscoveryInterval else flag.toNat

/-! ## A process with a clock -/

/-- A `Reconcile` of the rediscovery loop: when it was called, and the memory that it left. -/
structure Scan where
  called : ℕ
  state : DeviceState

/-- A report that was read: from what, and the last reconcile of the loop before that. -/
structure Reading where
  env : Env
  state : DeviceState
  scan : Option Scan

/-- The report. -/
def Reading.report (k : Reading) : List DeviceHealth := k.state.healthReport k.env

/-- What is remembered of a run, which the code does not. -/
structure History where
  /-- When the rediscovery loop last called `Reconcile`. -/
  calling : ℕ := 0
  /-- The last of its calls that succeeded. -/
  scanned : Option Scan := none
  /-- The last report that the health loop has read. -/
  read : Option Reading := none
  /-- The last report that the health loop has sent. -/
  reported : Option Reading := none

/-- A process with a clock and the tickers of its loops. -/
structure Timed where
  process : Process := {}
  now : ℕ := 0
  /-- The ticker of `WatchHealthStatus`. -/
  resend : Ticker := {}
  /-- The ticker of `runRediscovery`. -/
  discovery : Ticker := {}
  history : History := {}

/-- What can happen next. -/
inductive TimedEvent where
  /-- Time passes. -/
  | elapse (d : ℕ)
  | fireResend
  | fireDiscovery
  | process (e : ProcessEvent)

/-- When an event reads the clock. -/
def ProcessEvent.time : ProcessEvent → Option Time
  | .call (.newDeviceState _ env _) => some env.now
  | .call (.prepare env _) => some env.now
  | .loop (.lock env _) => some env.now
  | .watch (.healthReport env) => some env.now
  | _ => none

/-- What an event does to the ticker of the health loop. -/
def ProcessEvent.resendAction : ProcessEvent → Ticker.Action
  | .watch .start => .start false
  | .watch .send => .rest
  | .watch .receive => .wake
  | .watch .resend => .receive
  | _ => .idle

/-- What a step does to the ticker of the rediscovery loop. -/
def ProcessEvent.discoveryAction (p q : Process) : ProcessEvent → Ticker.Action
  | .loop .start => .start true
  | .loop .tick => .receive
  | .loop .receive => .wake
  -- The loop is back in its select after an error, or after a publication.
  | _ => if p.loop ≠ .waiting ∧ q.loop = .waiting then .rest else .idle

/-- The history after a step at a time. -/
def History.next (now : ℕ) (p q : Process) (h : History) : ProcessEvent → History
  | .loop .reconcile => { h with calling := now }
  | .finish =>
    if p.loop = .applying ∧ q.loop ≠ .waiting then
      { h with scanned := q.world.state.map fun s => ⟨h.calling, s⟩ }
    else h
  | .watch .start => { h with read := none, reported := none }
  | .watch (.healthReport env) =>
    { h with read := p.world.state.map fun s => ⟨env, s, h.scanned⟩ }
  | .watch .send => { h with reported := h.read }
  | _ => h

/-- Whether the loop has started and has not returned. -/
def Rediscovery.runs : Rediscovery → Bool
  | .notStarted => false
  | .stopped => false
  | _ => true

/-- The process after an event, if the event is possible. -/
def Timed.step (x : External) (interval : ℕ) (s : Timed) : TimedEvent → Option Timed
  | .elapse d => some { s with now := s.now + d }
  -- A ticker is stopped with its loop.
  | .fireResend =>
    if s.process.watcher = .stopped then none
    else (s.resend.next healthResendInterval s.now .fire).map fun t => { s with resend := t }
  | .fireDiscovery =>
    if s.process.loop.runs then
      (s.discovery.next interval s.now .fire).map fun t => { s with discovery := t }
    else none
  | .process e =>
    if e.time = none ∨ e.time = some s.now then
      (s.process.step x e).bind fun q =>
        (s.resend.next healthResendInterval s.now e.resendAction).bind fun resend =>
          (s.discovery.next interval s.now (e.discoveryAction s.process q)).map fun discovery =>
            { process := q
              now := s.now
              resend := resend
              discovery := discovery
              history := s.history.next s.now s.process q e }
    else none

/-- Bounds on how long things take. -/
structure Pace where
  /-- For an iteration of the rediscovery loop. -/
  work : ℕ
  /-- For reading and sending a report. -/
  report : ℕ
  /-- From when a tick is due until the ticker sends. -/
  late : ℕ
  /-- From when there is a tick and a loop that waits until the loop takes it. -/
  delay : ℕ

/-- How far apart the iterations of the health loop begin. -/
def Pace.resendGap (pace : Pace) : ℕ :=
  Ticker.gap healthResendInterval pace.report pace.late pace.delay

/-- How far apart the iterations of the rediscovery loop begin. -/
def Pace.discoveryGap (pace : Pace) (interval : ℕ) : ℕ :=
  Ticker.gap interval pace.work pace.late pace.delay

/-- The health loop keeps to the bounds. -/
def Timed.ReportsPromptly (pace : Pace) (s : Timed) : Prop :=
  s.process.watcher ≠ .stopped → s.resend.Prompt pace.report pace.late pace.delay s.now

/-- The rediscovery loop keeps to the bounds. -/
def Timed.ScansPromptly (pace : Pace) (s : Timed) : Prop :=
  s.process.loop.runs = true → s.discovery.Prompt pace.work pace.late pace.delay s.now

instance (pace : Pace) (s : Timed) : Decidable (s.ReportsPromptly pace) :=
  inferInstanceAs (Decidable (_ → _))

instance (pace : Pace) (s : Timed) : Decidable (s.ScansPromptly pace) :=
  inferInstanceAs (Decidable (_ → _))

/-! ## Steps of the two loops -/

/-- What a step does to the health loop. -/
inductive Process.Watches (p q : Process) : ProcessEvent → Prop
  | start (hafter : q.watcher = .reading) : p.Watches q (.watch .start)
  | read (env : Env) (s : DeviceState) (hs : p.world.state = some s)
      (hbefore : p.watcher = .reading) (hafter : q.watcher = .sending (s.healthReport env))
      (hsent : q.sent = p.sent) :
      p.Watches q (.watch (.healthReport env))
  | send (report : List DeviceHealth) (hbefore : p.watcher = .sending report)
      (hafter : q.watcher = .waiting) (hsent : q.sent = some report) : p.Watches q (.watch .send)
  | wake (e : ProcessEvent) (haction : e.resendAction = .wake ∨ e.resendAction = .receive)
      (hhistory : ∀ now (h : History), h.next now p q e = h) (hbefore : p.watcher = .waiting)
      (hafter : q.watcher = .reading) (hsent : q.sent = p.sent) : p.Watches q e
  | stop (hafter : q.watcher = .stopped) : p.Watches q (.watch .stop)
  | other (e : ProcessEvent) (haction : e.resendAction = .idle)
      (hhistory : ∀ now (h : History), (h.next now p q e).read = h.read ∧
        (h.next now p q e).reported = h.reported)
      (hafter : q.watcher = p.watcher) (hsent : q.sent = p.sent) : p.Watches q e

section Loops

variable {x : External} {p q : Process} {e : ProcessEvent}

/-- Every step is one of these for the health loop. -/
theorem Process.step_watches (h : p.step x e = some q) : p.Watches q e := by
  cases e with
  | call e =>
    obtain ⟨w, -, rfl⟩ := Process.act_eq_some h
    exact .other _ rfl (fun _ _ => ⟨rfl, rfl⟩) rfl rfl
  | finish =>
    obtain ⟨op, r, w, -, -, rfl⟩ := Process.step_finish h
    refine .other _ rfl (fun now h => ?_) rfl rfl
    simp only [History.next]
    split_ifs
    · exact ⟨rfl, rfl⟩
    · exact ⟨rfl, rfl⟩
  | kickReconcile =>
    simp only [Process.step, Option.ite_none_right_eq_some, Option.some.injEq] at h
    obtain ⟨-, rfl⟩ := h
    exact .other _ rfl (fun _ _ => ⟨rfl, rfl⟩) rfl rfl
  | loop e =>
    obtain ⟨-, hwatcher, hsent⟩ := Process.stepLoop_frame h
    refine .other _ rfl (fun _ _ => ?_) hwatcher hsent
    cases e <;> exact ⟨rfl, rfl⟩
  | watch e =>
    cases e with
    | start =>
      simp only [Process.step, Process.stepWatch, Option.ite_none_right_eq_some,
        Option.some.injEq] at h
      obtain ⟨-, rfl⟩ := h
      exact .start rfl
    | healthReport env =>
      simp only [Process.step, Process.stepWatch] at h
      split at h
      · next s hwatcher hs hfree =>
        cases h
        exact .read env s hs hwatcher rfl rfl
      · cases h
    | send =>
      simp only [Process.step, Process.stepWatch] at h
      split at h
      · next report hwatcher =>
        cases h
        exact .send report hwatcher rfl rfl
      · cases h
    | receive =>
      simp only [Process.step, Process.stepWatch, Option.ite_none_right_eq_some,
        Option.some.injEq] at h
      obtain ⟨⟨hwatcher, -⟩, rfl⟩ := h
      exact .wake _ (.inl rfl) (fun _ _ => rfl) hwatcher rfl rfl
    | resend =>
      simp only [Process.step, Process.stepWatch, Option.ite_none_right_eq_some,
        Option.some.injEq] at h
      obtain ⟨hwatcher, rfl⟩ := h
      exact .wake _ (.inr rfl) (fun _ _ => rfl) hwatcher rfl rfl
    | stop =>
      simp only [Process.step, Process.stepWatch] at h
      split at h <;> cases h <;> exact .stop rfl

end Loops

/-! ## The age of the report sent last -/

/-- What holds of the health loop: its ticker is steady, the ticker and the loop agree on whether
the loop waits, and how old the report is that it is going to send, and the one that it has sent. -/
structure Timed.Leased (pace : Pace) (s : Timed) : Prop where
  steady : s.process.watcher ≠ .stopped →
    s.resend.Steady healthResendInterval pace.report pace.late s.now
  position : s.process.watcher ≠ .stopped →
    (s.resend.waiting.isSome = true ↔ s.process.watcher = .waiting)
  read : ∀ report, s.process.watcher = .sending report →
    ∃ k, s.history.read = some k ∧ k.report = report ∧ s.resend.woken ≤ k.env.now
  sent : s.process.watcher ≠ .stopped → ∀ k, s.history.reported = some k →
    s.process.sent = some k.report ∧
      s.resend.woken ≤ k.env.now + if s.process.watcher = .waiting then 0 else pace.resendGap

section Ages

variable {x : External} {interval : ℕ} {pace : Pace} {s t : Timed}

/-- What a step of the goroutines does to the clock and the tickers. -/
theorem Timed.step_process {e : ProcessEvent} (h : s.step x interval (.process e) = some t) :
    (e.time = none ∨ e.time = some s.now) ∧ s.process.step x e = some t.process ∧ t.now = s.now ∧
      s.resend.next healthResendInterval s.now e.resendAction = some t.resend ∧
      s.discovery.next interval s.now (e.discoveryAction s.process t.process) = some t.discovery ∧
      t.history = s.history.next s.now s.process t.process e := by
  simp only [Timed.step, Option.ite_none_right_eq_some, Option.bind_eq_some_iff,
    Option.map_eq_some_iff] at h
  obtain ⟨htime, q, hq, resend, hresend, discovery, hdiscovery, rfl⟩ := h
  exact ⟨htime, hq, rfl, hresend, hdiscovery, rfl⟩

/-- The report sent last was read at most so long ago. -/
theorem Timed.Leased.le_gap (hs : s.Leased pace) (hprompt : s.ReportsPromptly pace)
    (hup : s.process.watcher ≠ .stopped) {k : Reading} (hk : s.history.reported = some k) :
    s.now ≤ k.env.now + (pace.resendGap + pace.report) := by
  obtain ⟨-, hwoken⟩ := hs.sent hup k hk
  split_ifs at hwoken with hwaiting
  · have hgap := (hs.steady hup).le_gap (hprompt hup)
    change s.now ≤ s.resend.woken + pace.resendGap at hgap
    omega
  · -- The loop reads or sends the next report.
    have hwork : s.resend.waiting = none := by
      rw [← Option.not_isSome_iff_eq_none, hs.position hup]
      exact hwaiting
    have hworking := (hprompt hup).working hwork
    omega

/-- Every step keeps what holds of the health loop. -/
theorem Timed.Leased.step {e : TimedEvent} (hs : s.Leased pace) (hprompt : s.ReportsPromptly pace)
    (h : s.step x interval e = some t) : t.Leased pace := by
  cases e with
  | elapse d =>
    cases h
    exact ⟨fun hup => (hs.steady hup).mono (Nat.le_add_right _ _), hs.position, hs.read, hs.sent⟩
  | fireResend =>
    simp only [Timed.step, Option.ite_none_left_eq_some, Option.map_eq_some_iff] at h
    obtain ⟨hup, u, hu, rfl⟩ := h
    obtain ⟨hwoken, hwaiting⟩ := Ticker.next_fire hu
    refine ⟨fun _ => (hs.steady hup).next (hprompt hup) hu, ?_, ?_, ?_⟩
    · dsimp only
      rw [hwaiting]
      exact hs.position
    · dsimp only
      rw [hwoken]
      exact hs.read
    · dsimp only
      rw [hwoken]
      exact hs.sent
  | fireDiscovery =>
    simp only [Timed.step, Option.ite_none_right_eq_some, Option.map_eq_some_iff] at h
    obtain ⟨-, u, -, rfl⟩ := h
    exact ⟨hs.steady, hs.position, hs.read, hs.sent⟩
  | process e =>
    obtain ⟨htime, hstep, hnow, hresend, -, hhistory⟩ := Timed.step_process h
    cases Process.step_watches hstep with
    | start hafter =>
      -- A new ticker, and a stream that has sent nothing.
      have hreset : t.history.reported = none := by rw [hhistory]; rfl
      have hsteady : t.resend.Steady healthResendInterval pace.report pace.late t.now :=
        hnow ▸ Ticker.steady_start hresend
      have hworks : t.resend.waiting = none := by
        obtain h := Option.some.inj hresend
        rw [← h]
        rfl
      refine ⟨fun _ => hsteady, fun _ => ?_, ?_, ?_⟩
      · simp [hworks, hafter]
      · simp [hafter]
      · simp [hreset]
    | read env st hst hbefore hafter hsent =>
      have hup : s.process.watcher ≠ .stopped := by simp [hbefore]
      obtain hidle := Option.some.inj hresend
      have hread : t.history.read = some ⟨env, st, s.history.scanned⟩ := by
        rw [hhistory]
        simp [History.next, hst]
      have hreported : t.history.reported = s.history.reported := by rw [hhistory]; rfl
      have henv : env.now = s.now := by simpa [ProcessEvent.time] using htime
      refine ⟨fun _ => ?_, fun _ => ?_, ?_, ?_⟩
      · rw [hnow, ← hidle]
        exact hs.steady hup
      · have hposition := hs.position hup
        simp only [hbefore, hafter] at hposition ⊢
        rw [← hidle]
        simpa using hposition
      · intro report hreport
        rw [hafter, Watcher.sending.injEq] at hreport
        refine ⟨_, hread, hreport, ?_⟩
        dsimp only
        rw [← hidle, henv]
        exact (hs.steady hup).woken
      · intro _ k hk
        rw [hreported] at hk
        obtain ⟨hsentBefore, hwoken⟩ := hs.sent hup k hk
        refine ⟨hsent.trans hsentBefore, ?_⟩
        simp only [hbefore, hafter] at hwoken ⊢
        rw [← hidle]
        simpa using hwoken
    | send report hbefore hafter hsent =>
      have hup : s.process.watcher ≠ .stopped := by simp [hbefore]
      obtain ⟨k, hread, hreport, hage⟩ := hs.read report hbefore
      obtain ⟨hwoken, hwaiting⟩ := Ticker.next_rest hresend
      have hreported : t.history.reported = some k := by
        rw [hhistory, ← hread]
        rfl
      refine ⟨fun _ => ?_, fun _ => ?_, ?_, ?_⟩
      · rw [hnow]
        exact (hs.steady hup).next (hprompt hup) hresend
      · simp [hwaiting, hafter]
      · simp [hafter]
      · intro _ k' hk'
        obtain rfl := Option.some.inj (hreported.symm.trans hk')
        refine ⟨hsent.trans (by rw [hreport]), ?_⟩
        rw [if_pos hafter, hwoken]
        exact hage
    | wake _ haction hkeep hbefore hafter hsent =>
      have hup : s.process.watcher ≠ .stopped := by simp [hbefore]
      obtain ⟨hwoken, hwaiting⟩ := Ticker.next_wake haction hresend
      rw [hkeep] at hhistory
      refine ⟨fun _ => ?_, fun _ => ?_, ?_, ?_⟩
      · rw [hnow]
        exact (hs.steady hup).next (hprompt hup) hresend
      · simp [hwaiting, hafter]
      · simp [hafter]
      · intro _ k hk
        rw [hhistory] at hk
        obtain ⟨hsentBefore, hage⟩ := hs.sent hup k hk
        have hgap := (hs.steady hup).le_gap (hprompt hup)
        change s.now ≤ s.resend.woken + pace.resendGap at hgap
        refine ⟨hsent.trans hsentBefore, ?_⟩
        rw [if_pos hbefore] at hage
        rw [if_neg (by simp [hafter]), hwoken]
        omega
    | stop hafter =>
      refine ⟨fun hup => absurd hafter hup, fun hup => absurd hafter hup, ?_,
        fun hup => absurd hafter hup⟩
      simp [hafter]
    | other _ haction hkeep hafter hsent =>
      rw [haction] at hresend
      obtain hidle := Option.some.inj hresend
      obtain ⟨hread, hreported⟩ := hkeep s.now s.history
      rw [← hhistory] at hread hreported
      refine ⟨?_, ?_, ?_, ?_⟩
      · rw [hafter, hnow, ← hidle]
        exact hs.steady
      · rw [hafter, ← hidle]
        exact hs.position
      · rw [hafter, hread, ← hidle]
        exact hs.read
      · rw [hafter, hreported, hsent, ← hidle]
        exact hs.sent

end Ages

/-- **The lease is kept.** Let reading and sending a report take at most so long that, with the
delays of the ticker and of the wake-up, it fits into the lease beside the interval at which reports
are repeated. Then from the first report of a health loop on, at every moment up to the end of the
loop, no entry of the report sent last has timed out, whatever the other goroutines do. -/
theorem health_lease_kept (x : External) (interval : ℕ) (pace : Pace) (p : Process)
    (es : List TimedEvent) (s : Timed) (hpace : pace.resendGap + pace.report < healthLease)
    (hp : p.watcher = .stopped) (hrun : run (Timed.step x interval) { process := p } es = some s)
    (hprompt : Along (Timed.step x interval) (fun _ _ t => t.ReportsPromptly pace)
      { process := p } es)
    (hup : s.process.watcher ≠ .stopped) (hreported : s.history.reported.isSome = true) :
    ∃ report, s.process.sent = some report ∧
      ∀ d ∈ report, s.now < d.lastUpdated + d.healthCheckTimeout := by
  have hinit : Timed.Leased pace { process := p } :=
    ⟨fun hup => absurd hp hup, fun hup => absurd hp hup, by simp [hp], fun hup => absurd hp hup⟩
  obtain ⟨hs, hs'⟩ : s.Leased pace ∧ s.ReportsPromptly pace :=
    hprompt.invariant (fun s => s.Leased pace ∧ s.ReportsPromptly pace)
      (fun _ _ t hs h (ht : t.ReportsPromptly pace) => ⟨hs.1.step hs.2 h, ht⟩)
      ⟨hinit, fun hup => absurd hp hup⟩ hrun
  obtain ⟨k, hk⟩ := Option.isSome_iff_exists.mp hreported
  have hage := hs.le_gap hs' hup hk
  refine ⟨k.report, (hs.sent hup k hk).1, fun d hd => ?_⟩
  obtain ⟨td, -, rfl⟩ := List.mem_map.mp hd
  dsimp only
  omega

/-- A process comes up with its two loops, and the first report is sent. -/
def loopsUp : List TimedEvent :=
  .elapse 1 :: List.map .process
    ([.call (.newDeviceState hostFlags (hostEnv 0 bothNodes) bothFound)] ++ smoothCommands 2 ++
      [.finish, .loop .start, .watch .start, .watch (.healthReport (hostEnv 0 bothNodes)),
        .watch .send])

/-- The devices are gone when the rediscovery loop reads sysfs again. -/
def devicesGone : List TimedEvent :=
  .elapse (10 * 10 ^ 9) :: .fireDiscovery :: List.map .process
    ([.loop .tick, .loop .reconcile, .loop (.lock (hostEnv (10 * 10 ^ 9) []) [])] ++
      smoothCommands 2 ++ [.finish, .loop .notifyHealth, .loop (.publish (.ok ()))])

/-- The health loop sees the tick before it sees that the health changed. -/
def reportAgain : List TimedEvent :=
  [.elapse (5 * 10 ^ 9), .fireResend, .process (.watch .resend),
    .process (.watch (.healthReport (hostEnv (15 * 10 ^ 9) []))), .process (.watch .send),
    .elapse (4 * 10 ^ 9)]

/-- A second for everything. -/
def secondPace : Pace := ⟨10 ^ 9, 10 ^ 9, 10 ^ 9, 10 ^ 9⟩

/-- Fourteen seconds after a report, while the loop waits for its tick. -/
theorem health_lease_kept_while_waiting :
    ∃ s report, run (Timed.step plainExternal (10 * 10 ^ 9)) {}
        (loopsUp ++ devicesGone ++ [.elapse (4 * 10 ^ 9)]) = some s ∧
      s.process.sent = some report ∧ s.now = 14 * 10 ^ 9 + 1 ∧
      ∀ d ∈ report, s.now < d.lastUpdated + d.healthCheckTimeout := by
  have hrun : (run (Timed.step plainExternal (10 * 10 ^ 9)) {}
      (loopsUp ++ devicesGone ++ [.elapse (4 * 10 ^ 9)])).map (fun s =>
        (s.process.watcher, s.history.reported.isSome, s.now)) =
      some (.waiting, true, 14 * 10 ^ 9 + 1) := by
    decide +kernel
  simp only [Option.map_eq_some_iff, Prod.mk.injEq] at hrun
  obtain ⟨s, hs, hwatcher, hreported, hnow⟩ := hrun
  obtain ⟨report, hsent, hfresh⟩ := health_lease_kept plainExternal (10 * 10 ^ 9) secondPace {}
    (loopsUp ++ devicesGone ++ [.elapse (4 * 10 ^ 9)]) s (by decide) rfl hs (by decide +kernel)
    (by simp [hwatcher]) hreported
  exact ⟨s, report, hs, hsent, hnow, hfresh⟩

/-! ## How recent the report is -/

/-- What a step does to the rediscovery loop. -/
inductive Process.Rescans (p q : Process) : ProcessEvent → Prop
  | start (hbefore : p.loop = .notStarted) (hafter : q.loop = .waiting)
      (hstate : q.world.state = p.world.state) : p.Rescans q (.loop .start)
  | wake (e : ProcessEvent)
      (haction : e.discoveryAction p q = .wake ∨ e.discoveryAction p q = .receive)
      (hhistory : ∀ now (h : History), h.next now p q e = h) (hbefore : p.loop = .waiting)
      (hafter : q.loop = .woken) (hstate : q.world.state = p.world.state) : p.Rescans q e
  | reconcile (hbefore : p.loop = .woken) (hafter : q.loop = .enumerating)
      (hstate : q.world.state = p.world.state) : p.Rescans q (.loop .reconcile)
  | failed (e : ProcessEvent) (hbefore : p.loop = .enumerating ∨ p.loop = .applying)
      (hafter : q.loop = .waiting) : p.Rescans q e
  | lock (env : Env) (found : List Device) (hbefore : p.loop = .enumerating)
      (hafter : q.loop = .applying) (hstate : q.world.state = p.world.state) :
      p.Rescans q (.loop (.lock env found))
  | replaced (result : ReconcileResult) (hbefore : p.loop = .applying)
      (hafter : q.loop = .notifying result) : p.Rescans q .finish
  | notify (result : ReconcileResult) (hbefore : p.loop = .notifying result)
      (hafter : q.loop = .publishing result) (hstate : q.world.state = p.world.state) :
      p.Rescans q (.loop .notifyHealth)
  | publish (result : ReconcileResult) (err : Except String Unit)
      (hbefore : p.loop = .publishing result) (hafter : q.loop = .waiting)
      (hstate : q.world.state = p.world.state) : p.Rescans q (.loop (.publish err))
  | stop (hafter : q.loop = .stopped) (hstate : q.world.state = p.world.state) :
      p.Rescans q (.loop .stop)
  | other (e : ProcessEvent) (haction : e.discoveryAction p q = .idle)
      (hhistory : ∀ now (h : History), (h.next now p q e).calling = h.calling ∧
        (h.next now p q e).scanned = h.scanned)
      (hafter : q.loop = p.loop) (hstate : p.world.state = none ∨ q.world.state = p.world.state) :
      p.Rescans q e

section Loops

variable {x : External} {p q : Process} {e : ProcessEvent}

/-- Every step is one of these for the rediscovery loop. -/
theorem Process.Sound.step_rescans (hp : p.Sound x) (h : p.step x e = some q) : p.Rescans q e := by
  cases e with
  | call e =>
    obtain ⟨w, hw, rfl⟩ := Process.act_eq_some h
    exact .other _ (by simp [ProcessEvent.discoveryAction]) (fun _ _ => ⟨rfl, rfl⟩) rfl
      (.inr (hp.call_state hw))
  | finish =>
    cases hp.finishes h with
    | other hbefore hafter hstate =>
      refine .other _ ?_ (fun now h => ?_) hafter hstate
      · simp [ProcessEvent.discoveryAction, hafter]
      · simp [History.next, hbefore]
    | failed _ _ _ hbefore _ hafter => exact .failed _ (.inr hbefore) hafter
    | replaced _ _ _ hbefore _ _ hafter => exact .replaced _ hbefore hafter
  | kickReconcile =>
    simp only [Process.step, Option.ite_none_right_eq_some, Option.some.injEq] at h
    obtain ⟨-, rfl⟩ := h
    exact .other _ (by simp [ProcessEvent.discoveryAction]) (fun _ _ => ⟨rfl, rfl⟩) rfl (.inr rfl)
  | watch e =>
    obtain ⟨hworld, hloop, -, -⟩ := Process.stepWatch_frame h
    refine .other _ ?_ (fun _ _ => ?_) hloop (.inr (by rw [hworld]))
    · simp [ProcessEvent.discoveryAction, hloop]
    · cases e <;> exact ⟨rfl, rfl⟩
  | loop e =>
    obtain ⟨hstate, -, -⟩ := Process.stepLoop_frame h
    simp only [Process.step] at h
    cases e with
    | start =>
      simp only [Process.stepLoop] at h
      split at h
      · next s hbefore hs =>
        cases h
        exact .start hbefore rfl hstate
      · cases h
    | tick =>
      simp only [Process.stepLoop, Option.ite_none_right_eq_some, Option.some.injEq] at h
      obtain ⟨hbefore, rfl⟩ := h
      exact .wake _ (.inr rfl) (fun _ _ => rfl) hbefore rfl hstate
    | receive =>
      simp only [Process.stepLoop, Option.ite_none_right_eq_some, Option.some.injEq] at h
      obtain ⟨⟨hbefore, -⟩, rfl⟩ := h
      exact .wake _ (.inl rfl) (fun _ _ => rfl) hbefore rfl hstate
    | reconcile =>
      simp only [Process.stepLoop, Option.ite_none_right_eq_some, Option.some.injEq] at h
      obtain ⟨hbefore, rfl⟩ := h
      exact .reconcile hbefore rfl hstate
    | enumerateError err =>
      simp only [Process.stepLoop, Option.ite_none_right_eq_some, Option.some.injEq] at h
      obtain ⟨hbefore, rfl⟩ := h
      exact .failed _ (.inl hbefore) rfl
    | lock env found =>
      obtain ⟨hbefore, w, -, rfl⟩ := Process.stepLoop_lock h
      exact .lock env found hbefore rfl hstate
    | notifyHealth =>
      simp only [Process.stepLoop] at h
      split at h
      · next result hbefore =>
        split_ifs at h <;> cases h <;> exact .notify result hbefore rfl hstate
      · cases h
    | publish err =>
      simp only [Process.stepLoop] at h
      split at h
      · next result hbefore =>
        split_ifs at h <;> cases h <;> exact .publish result err hbefore rfl hstate
      · cases h
    | stop =>
      simp only [Process.stepLoop, Option.ite_none_right_eq_some, Option.some.injEq] at h
      obtain ⟨-, rfl⟩ := h
      exact .stop rfl hstate

end Loops

/-- The loop has been woken up and has not replaced the tracked devices yet. -/
def Rediscovery.scans : Rediscovery → Bool
  | .woken => true
  | .enumerating => true
  | .applying => true
  | _ => false

/-- A `Reconcile` of the loop fails in a step. -/
def Process.ReconcileFails (p q : Process) : Prop :=
  (p.loop = .enumerating ∨ p.loop = .applying) ∧ q.loop = .waiting

instance (p q : Process) : Decidable (p.ReconcileFails q) := inferInstanceAs (Decidable (_ ∧ _))

/-- What holds of the rediscovery loop: its ticker is steady, the ticker and the loop agree on
whether the loop waits, and how long ago the `Reconcile` was called from which the memory comes. -/
structure Timed.Recent (pace : Pace) (interval : ℕ) (s : Timed) : Prop where
  steady : s.process.loop.runs = true →
    s.discovery.Steady interval pace.work pace.late s.now
  position : s.process.loop.runs = true →
    (s.discovery.waiting.isSome = true ↔ s.process.loop = .waiting)
  calling : s.process.loop = .enumerating ∨ s.process.loop = .applying →
    s.discovery.woken ≤ s.history.calling
  state : ∀ c, s.history.scanned = some c →
    s.process.world.state = some c.state ∧ s.process.loop ≠ .notStarted
  called : s.process.loop.runs = true → ∀ c, s.history.scanned = some c →
    s.discovery.woken ≤ c.called + if s.process.loop.scans then pace.discoveryGap interval else 0

/-- What holds of the reports of the health loop, as long as the rediscovery loop runs: they show
the outcome of a `Reconcile` that was called a bounded time before they were read. -/
def Timed.Dated (pace : Pace) (interval : ℕ) (s : Timed) : Prop :=
  s.process.loop ≠ .stopped → ∀ k, s.history.read = some k ∨ s.history.reported = some k →
    ∀ c, k.scan = some c →
      k.state = c.state ∧ k.env.now ≤ c.called + (pace.discoveryGap interval + pace.work)

section Ages

variable {x : External} {interval : ℕ} {pace : Pace} {s t : Timed}

/-- The memory comes from a `Reconcile` that was called at most so long ago. -/
theorem Timed.Recent.le_gap (hs : s.Recent pace interval) (hprompt : s.ScansPromptly pace)
    (hruns : s.process.loop.runs = true) {c : Scan} (hc : s.history.scanned = some c) :
    s.now ≤ c.called + (pace.discoveryGap interval + pace.work) := by
  have hcalled := hs.called hruns c hc
  split_ifs at hcalled with hscans
  · have hworks : s.discovery.waiting = none := by
      rw [← Option.not_isSome_iff_eq_none, hs.position hruns]
      rintro hwaiting
      simp [hwaiting, Rediscovery.scans] at hscans
    have hworking := (hprompt hruns).working hworks
    omega
  · have hgap := (hs.steady hruns).le_gap (hprompt hruns)
    change s.now ≤ s.discovery.woken + pace.discoveryGap interval at hgap
    omega

/-- A step in which the loop goes on with its iteration. -/
theorem Timed.Recent.goes (hs : s.Recent pace interval) {p : Process} {h : History}
    {resend : Ticker} (hruns : s.process.loop.runs = true) (hbefore : s.process.loop ≠ .waiting)
    (hafter : p.loop.runs = true) (hwaiting : p.loop ≠ .waiting)
    (hcalling : p.loop = .enumerating ∨ p.loop = .applying → s.discovery.woken ≤ h.calling)
    (hstate : ∀ c, h.scanned = some c → p.world.state = some c.state)
    (hcalled : ∀ c, h.scanned = some c → s.discovery.woken ≤
      c.called + if p.loop.scans then pace.discoveryGap interval else 0) :
    Timed.Recent pace interval ⟨p, s.now, resend, s.discovery, h⟩ where
  steady := fun _ => hs.steady hruns
  position := fun _ => by simpa [hbefore, hwaiting] using hs.position hruns
  calling := hcalling
  state := fun c hc =>
    ⟨hstate c hc, fun (hnot : p.loop = _) => by simp [hnot, Rediscovery.runs] at hafter⟩
  called := fun _ => hcalled

/-- A step in which the loop goes on with its iteration, and the memory stays as it is. -/
theorem Timed.Recent.goes_on (hs : s.Recent pace interval) {p : Process} {h : History}
    {resend : Ticker} (hruns : s.process.loop.runs = true) (hbefore : s.process.loop ≠ .waiting)
    (hafter : p.loop.runs = true) (hwaiting : p.loop ≠ .waiting)
    (hcalling : p.loop = .enumerating ∨ p.loop = .applying → s.discovery.woken ≤ h.calling)
    (hstate : p.world.state = s.process.world.state) (hscanned : h.scanned = s.history.scanned)
    (hscans : p.loop.scans = s.process.loop.scans) :
    Timed.Recent pace interval ⟨p, s.now, resend, s.discovery, h⟩ := by
  refine hs.goes hruns hbefore hafter hwaiting hcalling ?_ ?_
  · intro c hc
    rw [hstate]
    exact (hs.state c (hscanned ▸ hc)).1
  · intro c hc
    rw [hscans]
    exact hs.called hruns c (hscanned ▸ hc)

/-- Every step keeps what holds of the rediscovery loop. -/
theorem Timed.Recent.step {e : TimedEvent} (hs : s.Recent pace interval)
    (hprompt : s.ScansPromptly pace) (hsound : s.process.Sound x)
    (h : s.step x interval e = some t) (hok : ¬s.process.ReconcileFails t.process) :
    t.Recent pace interval := by
  cases e with
  | elapse d =>
    cases h
    exact ⟨fun hruns => (hs.steady hruns).mono (Nat.le_add_right _ _), hs.position, hs.calling,
      hs.state, hs.called⟩
  | fireResend =>
    simp only [Timed.step, Option.ite_none_left_eq_some, Option.map_eq_some_iff] at h
    obtain ⟨-, u, -, rfl⟩ := h
    exact ⟨hs.steady, hs.position, hs.calling, hs.state, hs.called⟩
  | fireDiscovery =>
    simp only [Timed.step, Option.ite_none_right_eq_some, Option.map_eq_some_iff] at h
    obtain ⟨hruns, u, hu, rfl⟩ := h
    obtain ⟨hwoken, hwaiting⟩ := Ticker.next_fire hu
    refine ⟨fun _ => (hs.steady hruns).next (hprompt hruns) hu, ?_, ?_, hs.state, ?_⟩
    · dsimp only
      rw [hwaiting]
      exact hs.position
    · dsimp only
      rw [hwoken]
      exact hs.calling
    · dsimp only
      rw [hwoken]
      exact hs.called
  | process e =>
    obtain ⟨-, hstep, hnow, -, hdiscovery, hhistory⟩ := Timed.step_process h
    obtain ⟨q, now, resend, discovery, history⟩ := t
    dsimp only at hstep hnow hdiscovery hhistory hok
    subst hnow hhistory
    cases hsound.step_rescans hstep with
    | start hbefore hafter hstate =>
      have hnone : ∀ c, s.history.scanned ≠ some c := fun c hc => (hs.state c hc).2 hbefore
      refine ⟨fun _ => Ticker.steady_start hdiscovery, fun _ => ?_, ?_, ?_, ?_⟩
      · obtain hnew := Option.some.inj hdiscovery
        simp [← hnew, hafter]
      · simp [hafter]
      · exact fun c hc => absurd hc (hnone c)
      · exact fun _ c hc => absurd hc (hnone c)
    | wake _ haction hkeep hbefore hafter hstate =>
      have hruns : s.process.loop.runs = true := by rw [hbefore]; rfl
      obtain ⟨hwoken, hwaiting⟩ := Ticker.next_wake haction hdiscovery
      rw [hkeep]
      refine ⟨fun _ => (hs.steady hruns).next (hprompt hruns) hdiscovery, fun _ => ?_, ?_, ?_, ?_⟩
      · simp [hwaiting, hafter]
      · simp [hafter]
      · exact fun c hc => ⟨hstate.trans (hs.state c hc).1, by simp [hafter]⟩
      · intro _ c hc
        have hgap := (hs.steady hruns).le_gap (hprompt hruns)
        change s.now ≤ s.discovery.woken + pace.discoveryGap interval at hgap
        have hcalled := hs.called hruns c hc
        rw [hbefore] at hcalled
        dsimp only
        rw [hafter, hwoken]
        change s.discovery.woken ≤ c.called + 0 at hcalled
        change s.now ≤ c.called + pace.discoveryGap interval
        omega
    | reconcile hbefore hafter hstate =>
      have hruns : s.process.loop.runs = true := by rw [hbefore]; rfl
      have hidle : s.discovery = discovery := by
        simpa [ProcessEvent.discoveryAction, hbefore, hafter, Ticker.next] using hdiscovery
      subst hidle
      refine hs.goes_on hruns (by simp [hbefore]) (by rw [hafter]; rfl) (by simp [hafter]) ?_ hstate
        rfl (by rw [hbefore, hafter]; rfl)
      exact fun _ => (hs.steady hruns).woken
    | failed _ hbefore hafter => exact absurd ⟨hbefore, hafter⟩ hok
    | lock env found hbefore hafter hstate =>
      have hruns : s.process.loop.runs = true := by rw [hbefore]; rfl
      have hidle : s.discovery = discovery := by
        simpa [ProcessEvent.discoveryAction, hbefore, hafter, Ticker.next] using hdiscovery
      subst hidle
      refine hs.goes_on hruns (by simp [hbefore]) (by rw [hafter]; rfl) (by simp [hafter]) ?_ hstate
        rfl (by rw [hbefore, hafter]; rfl)
      exact fun _ => hs.calling (.inl hbefore)
    | replaced result hbefore hafter =>
      have hruns : s.process.loop.runs = true := by rw [hbefore]; rfl
      have hidle : s.discovery = discovery := by
        simpa [ProcessEvent.discoveryAction, hbefore, hafter, Ticker.next] using hdiscovery
      subst hidle
      -- The memory is now that of the `Reconcile` that the loop called in this iteration.
      have hscanned : ∀ c, (s.history.next s.now s.process q .finish).scanned = some c →
          q.world.state = some c.state ∧ c.called = s.history.calling := by
        intro c hc
        simp only [History.next, hbefore, hafter, ne_eq, reduceCtorEq, not_false_eq_true, and_self,
          if_true, Option.map_eq_some_iff] at hc
        obtain ⟨st, hst, rfl⟩ := hc
        exact ⟨hst, rfl⟩
      refine hs.goes hruns (by simp [hbefore]) (by rw [hafter]; rfl) (by simp [hafter]) ?_ ?_ ?_
      · simp [hafter]
      · exact fun c hc => (hscanned c hc).1
      · intro c hc
        rw [(hscanned c hc).2]
        exact (hs.calling (.inr hbefore)).trans (Nat.le_add_right _ _)
    | notify result hbefore hafter hstate =>
      have hruns : s.process.loop.runs = true := by rw [hbefore]; rfl
      have hidle : s.discovery = discovery := by
        simpa [ProcessEvent.discoveryAction, hbefore, hafter, Ticker.next] using hdiscovery
      subst hidle
      refine hs.goes_on hruns (by simp [hbefore]) (by rw [hafter]; rfl) (by simp [hafter]) ?_ hstate
        rfl (by rw [hbefore, hafter]; rfl)
      simp [hafter]
    | publish result err hbefore hafter hstate =>
      have hruns : s.process.loop.runs = true := by rw [hbefore]; rfl
      have hrest : ProcessEvent.discoveryAction s.process q (.loop (.publish err)) = .rest := by
        simp [ProcessEvent.discoveryAction, hbefore, hafter]
      rw [hrest] at hdiscovery
      obtain ⟨hwoken, hwaiting⟩ := Ticker.next_rest hdiscovery
      refine ⟨fun _ => (hs.steady hruns).next (hprompt hruns) hdiscovery, fun _ => ?_, ?_, ?_, ?_⟩
      · simp [hwaiting, hafter]
      · simp [hafter]
      · exact fun c hc => ⟨hstate.trans (hs.state c hc).1, by simp [hafter]⟩
      · intro _ c hc
        have hcalled := hs.called hruns c hc
        rw [hbefore] at hcalled
        dsimp only
        rw [hafter, hwoken]
        exact hcalled
    | stop hafter hstate =>
      have hstopped : ¬q.loop.runs = true := by simp [hafter, Rediscovery.runs]
      refine ⟨fun hruns => absurd hruns hstopped, fun hruns => absurd hruns hstopped, ?_, ?_,
        fun hruns => absurd hruns hstopped⟩
      · simp [hafter]
      · exact fun c hc => ⟨hstate.trans (hs.state c hc).1, by simp [hafter]⟩
    | other _ haction hkeep hafter hstate =>
      rw [haction] at hdiscovery
      obtain rfl := Option.some.inj hdiscovery
      obtain ⟨hcalling, hscanned⟩ := hkeep s.now s.history
      refine ⟨?_, ?_, ?_, ?_, ?_⟩
      · dsimp only
        rw [hafter]
        exact hs.steady
      · dsimp only
        rw [hafter]
        exact hs.position
      · dsimp only
        rw [hafter, hcalling]
        exact hs.calling
      · intro c hc
        obtain ⟨hst, hup⟩ := hs.state c (hscanned ▸ hc)
        refine ⟨?_, hafter ▸ hup⟩
        rcases hstate with hnone | hsame
        · cases hnone.symm.trans hst
        · exact hsame.trans hst
      · dsimp only
        rw [hafter, hscanned]
        exact hs.called

/-- Every step keeps what holds of the reports. -/
theorem Timed.Dated.step {e : TimedEvent} (hs : s.Dated pace interval)
    (hrecent : s.Recent pace interval) (hprompt : s.ScansPromptly pace)
    (h : s.step x interval e = some t) : t.Dated pace interval := by
  cases e with
  | elapse d =>
    cases h
    exact hs
  | fireResend =>
    simp only [Timed.step, Option.ite_none_left_eq_some, Option.map_eq_some_iff] at h
    obtain ⟨-, u, -, rfl⟩ := h
    exact hs
  | fireDiscovery =>
    simp only [Timed.step, Option.ite_none_right_eq_some, Option.map_eq_some_iff] at h
    obtain ⟨-, u, -, rfl⟩ := h
    exact hs
  | process e =>
    obtain ⟨htime, hstep, -, -, -, hhistory⟩ := Timed.step_process h
    intro hloop
    have hbefore : s.process.loop ≠ .stopped := fun hstopped =>
      hloop (Process.loop_stopped hstep hstopped)
    have hdated := hs hbefore
    intro k hk
    rw [hhistory] at hk
    cases Process.step_watches hstep with
    | start => rcases hk with hk | hk <;> cases hk
    | read env st hst hreading hafter hsent =>
      rcases hk with hk | hk
      · -- The report is read now, from the memory.
        simp only [History.next, hst, Option.map_some, Option.some.injEq] at hk
        subst hk
        intro c hc
        obtain ⟨hstate, hup⟩ := hrecent.state c hc
        have hruns : s.process.loop.runs = true := by
          cases hpos : s.process.loop <;> first | rfl | contradiction
        have henv : env.now = s.now := by simpa [ProcessEvent.time] using htime
        refine ⟨Option.some.inj (hst.symm.trans hstate), ?_⟩
        dsimp only
        rw [henv]
        exact hrecent.le_gap hprompt hruns hc
      · exact hdated k (.inr hk)
    | send report => exact hdated k (.inl (hk.elim id id))
    | wake _ _ hkeep =>
      rw [hkeep] at hk
      exact hdated k hk
    | stop => exact hdated k hk
    | other _ _ hkeep =>
      obtain ⟨hread, hreported⟩ := hkeep s.now s.history
      rw [hread, hreported] at hk
      exact hdated k hk

/-- What holds of a process at every moment of a run with a clock. -/
theorem Timed.step_sound {e : TimedEvent} (hs : s.process.Sound x)
    (h : s.step x interval e = some t) : t.process.Sound x := by
  cases e with
  | elapse d =>
    cases h
    exact hs
  | fireResend =>
    simp only [Timed.step, Option.ite_none_left_eq_some, Option.map_eq_some_iff] at h
    obtain ⟨-, u, -, rfl⟩ := h
    exact hs
  | fireDiscovery =>
    simp only [Timed.step, Option.ite_none_right_eq_some, Option.map_eq_some_iff] at h
    obtain ⟨-, u, -, rfl⟩ := h
    exact hs
  | process e => exact hs.step (Timed.step_process h).2.1

end Ages

/-- **Reported health is recent.** If the loops keep to the bounds and no `Reconcile` of the loop
fails, then at every moment at which both loops run, the report sent last is that of the memory
which a `Reconcile` left that was called at most the two gaps, and the work of both loops, ago, as
soon as a report has been sent that was read after the first `Reconcile` of the loop. -/
theorem health_report_recent (x : External) (flag : ℤ) (pace : Pace) (l : Ledger)
    (es : List TimedEvent) (s : Timed)
    (hrun : run (Timed.step x (discoveryInterval flag)) { process := { world := { ledger := l } } }
      es = some s)
    (hprompt : Along (Timed.step x (discoveryInterval flag)) (fun s _ t =>
        t.ReportsPromptly pace ∧ t.ScansPromptly pace ∧ ¬s.process.ReconcileFails t.process)
      { process := { world := { ledger := l } } } es)
    (hup : s.process.watcher ≠ .stopped) (hloop : s.process.loop ≠ .stopped) (k : Reading)
    (c : Scan) (hk : s.history.reported = some k) (hc : k.scan = some c) :
    s.process.sent = some (c.state.healthReport k.env) ∧
      s.now ≤ c.called + (pace.discoveryGap (discoveryInterval flag) + pace.work) +
        (pace.resendGap + pace.report) := by
  let inv : Timed → Prop := fun s => s.process.Sound x ∧ s.Leased pace ∧ s.ReportsPromptly pace ∧
    s.Recent pace (discoveryInterval flag) ∧ s.ScansPromptly pace ∧
    s.Dated pace (discoveryInterval flag)
  have hinit : inv { process := { world := { ledger := l } } } := by
    refine ⟨Process.sound_init l, ⟨?_, ?_, ?_, ?_⟩, ?_, ⟨?_, ?_, ?_, ?_, ?_⟩, ?_, ?_⟩
    all_goals simp [Timed.ReportsPromptly, Timed.ScansPromptly, Timed.Dated, Rediscovery.runs]
  have hstep : ∀ s e t, inv s → s.step x (discoveryInterval flag) e = some t →
      (t.ReportsPromptly pace ∧ t.ScansPromptly pace ∧ ¬s.process.ReconcileFails t.process) →
      inv t := by
    rintro s e t ⟨hsound, hleased, hreports, hrecent, hscans, hdated⟩ h ⟨hreports', hscans', hok⟩
    exact ⟨Timed.step_sound hsound h, hleased.step hreports h, hreports',
      hrecent.step hscans hsound h hok, hscans', hdated.step hrecent hscans h⟩
  obtain ⟨-, hleased, hreports, -, -, hdated⟩ := hprompt.invariant inv hstep hinit hrun
  obtain ⟨hstate, hscan⟩ := hdated hloop k (.inr hk) c hc
  have hage := hleased.le_gap hreports hup hk
  refine ⟨?_, ?_⟩
  · rw [← hstate]
    exact (hleased.sent hup k hk).1
  · calc s.now ≤ k.env.now + (pace.resendGap + pace.report) := hage
      _ ≤ _ := Nat.add_le_add_right hscan _

/-- The kubelet knows nine seconds later of a `Reconcile` that found no device. -/
theorem health_report_recent_after_loss :
    ∃ s k c, run (Timed.step plainExternal (discoveryInterval 0)) {}
        (loopsUp ++ devicesGone ++ reportAgain) = some s ∧
      s.history.reported = some k ∧ k.scan = some c ∧ c.called = 10 * 10 ^ 9 + 1 ∧
      s.process.sent = some (c.state.healthReport k.env) := by
  have hrun : (run (Timed.step plainExternal (discoveryInterval 0)) {}
      (loopsUp ++ devicesGone ++ reportAgain)).bind (fun s => s.history.reported.bind fun k =>
        k.scan.map fun c => (s.process.watcher, s.process.loop, c.called)) =
      some (.waiting, .waiting, 10 * 10 ^ 9 + 1) := by
    decide +kernel
  simp only [Option.bind_eq_some_iff, Option.map_eq_some_iff, Prod.mk.injEq] at hrun
  obtain ⟨s, hs, k, hk, c, hc, hwatcher, hloop, hcalled⟩ := hrun
  have hrecent := health_report_recent plainExternal 0 secondPace {}
    (loopsUp ++ devicesGone ++ reportAgain) s hs (by decide +kernel) (by simp [hwatcher])
    (by simp [hloop]) k c hk hc
  exact ⟨s, k, c, hs, hk, hc, hcalled, hrecent.1⟩

end RockchipDra.Plugin
