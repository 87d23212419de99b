import RockchipDra.Plugin.Process

/-!
# No lost wake-up

The two channels of a process drive its two loops. A call that has unprepared a claim kicks the
rediscovery loop over `reconcileNow`, and the rediscovery loop wakes up the health loop over
`healthChanged`. Both are signals in the sense of `Effect.Signal`, with any number of producers for
the first and one for the second, and the steps of a process are actions of both. So no kick is lost
(`reconcile_after_unprepare`), and a health loop that waits has sent the health that is tracked
(`last_report_current`).
-/

namespace RockchipDra.Plugin

open Go Discovery Effect

/-! ## Kicks -/

/-- The claim that a call has just unprepared, if the event is the return of such a call. -/
def Process.unprepared (p : Process) : ProcessEvent → Option UID
  | .finish => p.world.returned.bind fun returned => returned.1.unprepared returned.2
  | _ => none

/-- The channel `reconcileNow` as a signal: the loop reads when it calls `Reconcile`. -/
def Process.kickSignal (p : Process) : Signal :=
  { token := p.reconcileNow, senders := p.kicking, awake := p.loop = .woken }

/-- What an event does on `reconcileNow`. -/
def Process.kickAction (p : Process) : ProcessEvent → Signal.Action
  | .finish => if (p.unprepared .finish).isSome then .change else .idle
  | .kickReconcile => .send
  | .loop .tick => .timeout
  | .loop .receive => .receive
  | .loop .reconcile => .read
  | _ => .idle

section Kicks

variable {x : External} {p q : Process}

/-- Only the loop moves to or from the end of its select. -/
theorem Rediscovery.resume_eq_woken (loop : Rediscovery) (op : Op) (r : Except String Outcome) :
    loop.resume op r = .woken ↔ loop = .woken := by
  cases op with
  | prepare env claim => rfl
  | unprepare uid => rfl
  | reconcile env found =>
    simp only [Rediscovery.resume]
    split_ifs with hloop
    · subst hloop
      split <;> simp
    · rfl

/-- The steps of a process are actions on `reconcileNow`. -/
theorem Process.kick_drives (x : External) :
    Signal.Drives (Process.step x) (Process.Sound x) Process.kickSignal Process.kickAction where
  keeps := fun _ _ _ hp h => hp.step h
  next := by
    intro p e q _ h
    cases e with
    | call e =>
      obtain ⟨w, -, rfl⟩ := Process.act_eq_some h
      rfl
    -- A return is a change if a claim has been unprepared, and nothing else moves on this channel.
    | finish =>
      obtain ⟨op, r, w, hreturned, -, rfl⟩ := Process.step_finish h
      simp only [Process.kickAction, Process.unprepared, hreturned, Option.bind_some,
        Process.kickSignal, Rediscovery.resume_eq_woken]
      split_ifs <;> rfl
    | kickReconcile =>
      simp only [Process.step, Option.ite_none_right_eq_some, Option.some.injEq] at h
      obtain ⟨hkicking, rfl⟩ := h
      exact if_pos hkicking
    | loop e =>
      change p.stepLoop x e = some q at h
      cases e with
      -- The loop has read already, when it called `Reconcile`.
      | lock env found =>
        obtain ⟨hloop, w, -, rfl⟩ := Process.stepLoop_lock h
        simp [Process.kickAction, Process.kickSignal, Signal.next, hloop]
      | _ =>
        simp only [Process.stepLoop] at h
        split at h <;> (try split at h) <;> cases h <;>
          simp_all [Process.kickAction, Process.kickSignal, Signal.next]
    | watch e =>
      obtain ⟨-, hloop, hkicking, hnow⟩ := Process.stepWatch_frame h
      simp [Process.kickAction, Process.kickSignal, Signal.next, hloop, hkicking, hnow]

/-- The loop is in `Reconcile`. -/
def Rediscovery.reconciles : Rediscovery → Bool
  | .enumerating => true
  | .applying => true
  | _ => false

/-- The ways in which the loop returns from `Reconcile`. -/
inductive Process.Returns (p : Process) : ProcessEvent → Process → Prop
  /-- The enumeration fails. -/
  | enumerateError (err : String) (q : Process) : p.Returns (.loop (.enumerateError err)) q
  /-- A read or a write of a store fails. -/
  | failed (env : Env) (found : List Device) (err : String) (q : Process)
      (h : p.world.returned = some (.reconcile env found, .error err)) : p.Returns .finish q
  /-- The tracked devices are those that were found and those of the claims that are prepared. All
  others are dropped. -/
  | replaced (env : Env) (found : List Device) (result : ReconcileResult) (next : DeviceState)
      (q : Process)
      (h : p.world.returned = some (.reconcile env found, .ok (.reconciled result next)))
      (hstate : q.world.state = some next)
      (htracked : ∀ name : String, name ∈ next.tracked ↔ name ∈ found.map Device.name ∨
        name ≠ "" ∧ ∃ d, p.world.ledger.Claimed d ∧ d.name = name) : p.Returns .finish q

/-- The loop leaves `Reconcile` by returning from it. -/
theorem Process.Sound.returns {e : ProcessEvent} (hp : p.Sound x) (h : p.step x e = some q)
    (hbefore : p.loop.reconciles = true) (hafter : ¬q.loop.reconciles = true) : p.Returns e q := by
  have hmoved : q.loop ≠ p.loop := fun hloop => hafter (hloop ▸ hbefore)
  -- The loop is in `Reconcile` before the event and not after it, so that the event moves the loop.
  cases e with
  | call e =>
    obtain ⟨w, -, rfl⟩ := Process.act_eq_some h
    exact absurd rfl hmoved
  | finish =>
    cases hp.finishes h with
    | other _ hloop => exact absurd hloop hmoved
    | failed env found err _ hreturned => exact .failed env found err q hreturned
    | replaced env found s _ _ hreturned _ hstate =>
      exact .replaced env found _ _ q hreturned hstate
        (s.mem_reconcileFrom_tracked x env found p.world.ledger.toStore)
  | kickReconcile =>
    simp only [Process.step, Option.ite_none_right_eq_some, Option.some.injEq] at h
    obtain ⟨-, rfl⟩ := h
    exact absurd rfl hmoved
  | loop e =>
    change p.stepLoop x e = some q at h
    cases e with
    | lock env found =>
      obtain ⟨-, w, -, rfl⟩ := Process.stepLoop_lock h
      exact absurd rfl hafter
    | enumerateError err => exact .enumerateError err q
    | _ =>
      simp only [Process.stepLoop] at h
      split at h <;> (try split at h) <;> cases h <;> simp_all [Rediscovery.reconciles]
  | watch e => exact absurd (Process.stepWatch_frame h).2.1 hmoved

/-- A successful unprepare is an operation that returns. -/
theorem Process.unprepared_eq_some {e : ProcessEvent} {uid : UID} (h : p.unprepared e = some uid) :
    e = .finish ∧ ∃ out, p.world.returned = some (.unprepare uid, .ok out) := by
  cases e with
  | finish =>
    obtain ⟨⟨op, r⟩, hreturned, huid⟩ := Option.bind_eq_some_iff.mp h
    simp only [Op.unprepared] at huid
    split at huid <;> cases huid
    exact ⟨rfl, _, hreturned⟩
  | _ => cases h

/-- A claim that has been unprepared is not in the checkpoint. -/
theorem Process.Sound.not_mem_of_unprepared {e : ProcessEvent} {uid : UID} (hp : p.Sound x)
    (h : p.step x e = some q) (huid : p.unprepared e = some uid) :
    uid ∉ q.world.ledger.checkpoint.preparedClaims := by
  obtain ⟨rfl, out, hreturned⟩ := Process.unprepared_eq_some huid
  obtain ⟨s, hrunning⟩ := World.returned_eq_some hreturned
  obtain ⟨_, _, w, -, hw, rfl⟩ := Process.step_finish h
  obtain ⟨-, -, hsafe⟩ := hp.world.1 _ hrunning
  -- The operation has met its specification, on the stores that it leaves.
  have hpost : Op.Post x s (.unprepare uid) (.ok out) p.world.ledger := hsafe.done fun _ => rfl
  simp only [World.step, hrunning, Option.some.injEq] at hw
  subst hw
  cases hpost with
  | unprepared _ _ huid => exact huid

end Kicks

/-- **No lost kick.** Whenever the rediscovery loop waits, its channel is empty, and no call is
between a successful `Unprepare` and the end of its kick, the loop has called `Reconcile` after
every successful `Unprepare`, whose claim has then left the checkpoint. The call has returned.
Unless it failed, it has dropped every device that it did not find and that no prepared claim
holds. -/
theorem reconcile_after_unprepare (x : External) (l : Ledger) (es es' : List ProcessEvent)
    (e : ProcessEvent) (p₀ p₁ p : Process) (uid : UID)
    (hrun : run (Process.step x) { world := { ledger := l } } es = some p₀)
    (hstep : p₀.step x e = some p₁) (hunprepared : p₀.unprepared e = some uid)
    (hrest : run (Process.step x) p₁ es' = some p) (hwaiting : p.loop = .waiting)
    (hempty : p.reconcileNow = false) (hkicking : p.kicking = 0) :
    uid ∉ p₁.world.ledger.checkpoint.preparedClaims ∧
      Sometime (Process.step x) (fun _ e q es'' => e = .loop .reconcile ∧
        Sometime (Process.step x) (fun u e' u' _ => u.Returns e' u') q es'') p₁ es' := by
  have hp₀ : p₀.Sound x :=
    run_invariant (Process.Sound x) (fun _ _ _ hp h => hp.step h) (Process.sound_init l) hrun
  refine ⟨hp₀.not_mem_of_unprepared hstep hunprepared, ?_⟩
  -- The return of the call makes a read pending, and at the end nothing is pending.
  have hchange : p₀.kickAction e = .change := by
    obtain ⟨rfl, -⟩ := Process.unprepared_eq_some hunprepared
    simp [Process.kickAction, hunprepared]
  have hpending : p₁.kickSignal.Pending :=
    Signal.pending_of_next ((Process.kick_drives x).next p₀ e p₁ hp₀ hstep) (by simp [hchange])
      (by simp [hchange])
  have hsettled : ¬p.kickSignal.Pending :=
    Signal.not_pending hempty hkicking (by simp [Process.kickSignal, hwaiting])
  -- So the loop reads in between, and a read is a call of `Reconcile`.
  refine Sometime.mono ?_
    ((Process.kick_drives x).sometime_read (hp₀.step hstep) hpending hrest hsettled)
  rintro u e q es'' hq ⟨hu, hread, hq'⟩
  obtain rfl : e = .loop .reconcile := by
    unfold Process.kickAction at hread
    split at hread <;> (try split at hread) <;> cases hread
    rfl
  -- From here on the loop is in `Reconcile`, until it returns.
  have hloop : q.loop = .enumerating := by
    simp only [Process.step, Process.stepLoop, Option.ite_none_right_eq_some,
      Option.some.injEq] at hq
    rw [← hq.2]
  refine ⟨rfl, Sometime.mono ?_ (sometime_leaves (Process.Sound x) (fun _ _ _ hp h => hp.step h)
    (fun u => u.loop.reconciles = true) (hu.step hq) (by rw [hloop]; rfl)
    (by simp [hwaiting, Rediscovery.reconciles]) hq')⟩
  rintro v e' v' _ hv ⟨hsound, hbefore, hafter, -⟩
  exact hsound.returns hv hbefore hafter

/-- The operation that holds the mutex issues some commands, and none fails. -/
def smoothCommands (n : ℕ) : List ProcessEvent := List.replicate n (.call (.command .none))

/-- A process comes up and prepares a claim, and a call is about to return from unpreparing it. The
rediscovery loop has not started. -/
def earlyUnprepare : List ProcessEvent :=
  [.call (.newDeviceState hostFlags (hostEnv 0 bothNodes) bothFound)] ++ smoothCommands 2 ++
    [.finish] ++
  [.call (.prepare (hostEnv 1 bothNodes) (hostClaim "u" "vpu-rkvdec-0"))] ++ smoothCommands 5 ++
    [.finish] ++
  [.call (.unprepare "u")] ++ smoothCommands 5

/-- The call kicks the loop, which starts only then and reconciles once. -/
def lateLoop : List ProcessEvent :=
  [.kickReconcile, .loop .start, .loop .receive, .loop .reconcile,
    .loop (.lock (hostEnv 2 []) [])] ++
  smoothCommands 2 ++ [.finish, .loop .notifyHealth, .loop (.publish (.ok ()))]

/-- The kick of a call that returned before the loop started. -/
theorem reconcile_after_early_unprepare :
    ∃ p₀ p₁ p : Process, run (Process.step plainExternal) {} earlyUnprepare = some p₀ ∧
      p₀.step plainExternal .finish = some p₁ ∧
      run (Process.step plainExternal) p₁ lateLoop = some p ∧
      Sometime (Process.step plainExternal) (fun _ e q es => e = .loop .reconcile ∧
        Sometime (Process.step plainExternal) (fun u e' u' _ => u.Returns e' u') q es) p₁
          lateLoop := by
  have hrun : (run (Process.step plainExternal) {} earlyUnprepare).bind (fun p₀ =>
      (p₀.step plainExternal .finish).bind fun p₁ =>
        (run (Process.step plainExternal) p₁ lateLoop).map fun p =>
          (p₀.unprepared .finish, p.loop, p.reconcileNow, p.kicking)) =
      some (some "u", .waiting, false, 0) := by
    decide +kernel
  simp only [Option.bind_eq_some_iff, Option.map_eq_some_iff, Prod.mk.injEq] at hrun
  obtain ⟨p₀, hp₀, p₁, hp₁, p, hp, huid, hwaiting, hempty, hkicking⟩ := hrun
  refine ⟨p₀, p₁, p, hp₀, hp₁, hp, ?_⟩
  exact (reconcile_after_unprepare plainExternal {} earlyUnprepare lateLoop .finish p₀ p₁ p "u" hp₀
    hp₁ huid hp hwaiting hempty hkicking).2

/-! ## Health changes -/

/-- The loop has to notify the health loop. -/
def Rediscovery.notifies : Rediscovery → Bool
  | .notifying result => result.healthChanged
  | _ => false

/-- The report that the health loop read last, while it need not read again. -/
def Process.lastRead (p : Process) : Option (List DeviceHealth) :=
  match p.watcher with
  | .sending report => some report
  | .waiting => p.sent
  | _ => none

/-- The health loop reads before it waits again. -/
def Watcher.reads : Watcher → Bool
  | .stopped => true
  | .reading => true
  | .sending _ => false
  | .waiting => false

/-- The channel `healthChanged` as a signal: the health loop reads when it makes a report. -/
def Process.healthSignal (p : Process) : Signal :=
  { token := p.endpoint.healthChanged, senders := p.loop.notifies.toNat, awake := p.watcher.reads }

/-- What an event does on `healthChanged`. -/
def Process.healthAction (p : Process) : ProcessEvent → Signal.Action
  | .finish =>
    match p.world.returned with
    | some (op, r) => if (p.loop.resume op r).notifies = p.loop.notifies then .idle else .change
    | none => .idle
  | .loop .notifyHealth => if p.loop.notifies then .send else .idle
  | .watch (.healthReport _) => .read
  | .watch .receive => .receive
  | .watch .resend => .timeout
  | .watch .stop => .timeout
  | _ => .idle

/-- The name, the status, and the message of every tracked device. -/
def DeviceState.health (s : DeviceState) : GoMap (HealthStatus × String) :=
  s.tracked.map fun _ td => (td.status, td.message)

/-- A report has exactly the tracked devices, with their statuses and messages. -/
def DeviceState.Shows (s : DeviceState) (report : List DeviceHealth) : Prop :=
  (report.map fun h => (h.deviceName, h.health, h.message)).Perm s.health.toList

/-- The health loop has read what is tracked. -/
def Process.Current (p : Process) : Prop :=
  ∃ s report, p.world.state = some s ∧ p.lastRead = some report ∧ s.Shows report

section Health

variable {x : External} {p q : Process} {s : DeviceState}

theorem DeviceState.getElem?_health (s : DeviceState) (name : String) :
    s.health[name]? = (s.tracked[name]?).map fun td => (td.status, td.message) := by
  unfold DeviceState.health
  rw [Std.ExtTreeMap.getElem?_map]

/-- Where no change of health is reported, every device has the health that it had. -/
theorem DeviceState.health_reconcileFrom {env : Env} {found : List Device} {σ : Store}
    (h : (s.reconcileFrom x env found σ).1.healthChanged = false) :
    (s.reconcileFrom x env found σ).2.health = s.health := by
  have hequal : healthEqual env.order s.tracked (s.reconcileFrom x env found σ).2.tracked = true :=
    (Bool.not_eq_false_eq_eq_true _).mp h
  refine Std.ExtTreeMap.ext_getElem? fun name => ?_
  rw [DeviceState.getElem?_health, DeviceState.getElem?_health]
  exact ((healthEqual_iff _ _ _).mp hequal name).symm

/-- A report shows what is tracked. -/
theorem DeviceState.Assessed.shows_healthReport (hs : s.Assessed) (env : Env) :
    s.Shows (s.healthReport env) := by
  -- Both lists name every device once, so that it is enough to compare their members.
  have hnames : ((s.healthReport env).map fun h => h.deviceName).Nodup := by
    rw [DeviceState.healthReport, List.map_map]
    exact (map_name_trackedList hs.keyed env.order).nodup_iff.mpr Std.ExtTreeMap.nodup_keys
  have hkeys : (s.health.toList.map Prod.fst).Nodup := by
    rw [Std.ExtTreeMap.map_fst_toList_eq_keys]
    exact Std.ExtTreeMap.nodup_keys
  refine (List.perm_ext_iff_of_nodup ?_ hkeys.of_map).mpr ?_
  · refine List.Nodup.of_map Prod.fst ?_
    rw [List.map_map]
    exact hnames
  · rintro ⟨name, status, message⟩
    rw [Std.ExtTreeMap.mem_toList_iff_getElem?_eq_some, DeviceState.getElem?_health,
      Option.map_eq_some_iff, DeviceState.healthReport, List.map_map, List.mem_map]
    constructor
    -- The report has the name in the entry, which is the key of the entry.
    · rintro ⟨td, htd, hentry⟩
      obtain ⟨name', hname'⟩ := (mem_trackedList _ _ _).mp htd
      have hkey := hs.keyed name' td hname'
      have hstatus := hs.status name' td hname'
      simp only [Function.comp_apply, if_neg hstatus, Prod.mk.injEq] at hentry
      obtain ⟨hname, hrest⟩ := hentry
      exact ⟨td, by rw [← hname, hkey]; exact hname', by rw [← hrest.1, ← hrest.2]⟩
    · rintro ⟨td, htd, hentry⟩
      refine ⟨td, (mem_trackedList _ _ _).mpr ⟨name, htd⟩, ?_⟩
      simp only [Function.comp_apply, if_neg (hs.status name td htd), hs.keyed name td htd, hentry]

/-- A publication leaves the channel as it is. -/
theorem Endpoint.publish_healthChanged (t : Endpoint) (resources : DriverResources)
    (err : Except String Unit) : (t.publish resources err).healthChanged = t.healthChanged := by
  cases err <;> rfl

/-- The steps of a process are actions on `healthChanged`. -/
theorem Process.health_drives (x : External) :
    Signal.Drives (Process.step x) (Process.Sound x) Process.healthSignal Process.healthAction where
  keeps := fun _ _ _ hp h => hp.step h
  next := by
    intro p e q _ h
    cases e with
    | call e =>
      obtain ⟨w, -, rfl⟩ := Process.act_eq_some h
      rfl
    | finish =>
      -- A return is a change if the loop has to notify after it and did not before.
      obtain ⟨op, r, w, hreturned, -, rfl⟩ := Process.step_finish h
      simp only [Process.healthAction, hreturned, Process.healthSignal]
      split_ifs with hsame
      · rw [hsame]
        rfl
      · -- A loop that has to notify does not hold the mutex.
        cases hnotifies : p.loop.notifies with
        | true =>
          have hloop : p.loop ≠ .applying := by
            intro hloop
            rw [hloop] at hnotifies
            cases hnotifies
          rw [Rediscovery.resume_of_ne hloop] at hsame
          exact absurd rfl hsame
        | false =>
          rw [hnotifies, Bool.not_eq_false] at hsame
          rw [hsame]
          rfl
    | kickReconcile =>
      simp only [Process.step, Option.ite_none_right_eq_some, Option.some.injEq] at h
      obtain ⟨-, rfl⟩ := h
      rfl
    | loop e =>
      change p.stepLoop x e = some q at h
      cases e with
      | lock env found =>
        obtain ⟨hloop, w, -, rfl⟩ := Process.stepLoop_lock h
        simp [Process.healthAction, Process.healthSignal, Signal.next, hloop, Rediscovery.notifies]
      | _ =>
        simp only [Process.stepLoop] at h
        split at h <;> (try split at h) <;> cases h <;>
          simp_all [Process.healthAction, Process.healthSignal, Signal.next, Rediscovery.notifies,
            Endpoint.publish_healthChanged]
    | watch e =>
      change p.stepWatch e = some q at h
      cases e <;> simp only [Process.stepWatch] at h <;> split at h <;> cases h <;>
        simp_all [Process.healthAction, Process.healthSignal, Signal.next, Watcher.reads]

/-- While the parties are idle, what the health loop has read stays current. -/
theorem Process.Current.idle {e : ProcessEvent} (hp : p.Sound x) (h : p.step x e = some q)
    (hidle : p.healthAction e = .idle) (hcurrent : p.Current) : q.Current := by
  obtain ⟨s, report, hs, hread, hshows⟩ := hcurrent
  -- Most events leave the memory and the health loop as they are.
  have hkeep (hstate : q.world.state = p.world.state) (hlast : q.lastRead = p.lastRead) :
      q.Current := ⟨s, report, hstate.trans hs, hlast.trans hread, hshows⟩
  cases e with
  | call e =>
    obtain ⟨w, hw, rfl⟩ := Process.act_eq_some h
    refine hkeep ((hp.world.1.memory_unchanged hw ?_).resolve_right ?_) rfl
    · cases e <;> rfl
    · cases e <;> simp [CallEvent.event]
  | finish =>
    have hfinishes := hp.finishes h
    obtain ⟨op, r, w, hreturned, -, hq⟩ := Process.step_finish h
    have hlast : q.lastRead = p.lastRead := by rw [hq]; rfl
    cases hfinishes with
    | other _ _ hstate => exact hkeep (hstate.resolve_left (by simp [hs])) hlast
    | failed _ _ _ _ _ _ hstate => exact hkeep hstate hlast
    | replaced env found s' hbefore hs' _ hafter hstate =>
      -- The loop does not have to notify, so the reconcile has left the health of every device.
      obtain rfl := Option.some.inj (hs.symm.trans hs')
      have hloop : p.loop.resume op r = q.loop := by rw [hq]
      have hhealth :
          (s.reconcileFrom x env found p.world.ledger.toStore).1.healthChanged = false := by
        simp only [Process.healthAction, hreturned] at hidle
        rw [hloop, hafter, hbefore] at hidle
        split_ifs at hidle with hsame
        exact hsame
      refine ⟨_, report, hstate, hlast.trans hread, ?_⟩
      rw [DeviceState.Shows, DeviceState.health_reconcileFrom hhealth]
      exact hshows
  | kickReconcile =>
    simp only [Process.step, Option.ite_none_right_eq_some, Option.some.injEq] at h
    obtain ⟨-, rfl⟩ := h
    exact hkeep rfl rfl
  | loop e =>
    obtain ⟨hstate, hwatcher, hsent⟩ := Process.stepLoop_frame h
    exact hkeep hstate (by rw [Process.lastRead, Process.lastRead, hwatcher, hsent])
  | watch e =>
    refine hkeep (by rw [(Process.stepWatch_frame h).1]) ?_
    change p.stepWatch e = some q at h
    cases e <;> simp only [Process.stepWatch] at h <;> split at h <;> cases h <;>
      simp_all [Process.healthAction, Process.lastRead]

/-- After a read the health loop has read what is tracked. -/
theorem Process.current_of_read {e : ProcessEvent} (hp : p.Sound x) (h : p.step x e = some q)
    (hread : p.healthAction e = .read) : q.Current := by
  obtain ⟨env, rfl⟩ : ∃ env, e = .watch (.healthReport env) := by
    unfold Process.healthAction at hread
    split at hread <;> (try split at hread) <;> (try split at hread) <;> cases hread
    exact ⟨_, rfl⟩
  simp only [Process.step, Process.stepWatch] at h
  split at h
  · next s _ hs _ =>
    cases h
    exact ⟨s, _, hs, rfl, (hp.world.2 s hs).shows_healthReport env⟩
  · cases h

end Health

/-- **No lost health wake-up.** Whenever the health loop waits, its channel is empty, and the
rediscovery loop is not between replacing the tracked devices and the end of `notifyHealth`, the
last report that was sent has exactly the tracked devices, with their statuses and messages. -/
theorem last_report_current (x : External) (l : Ledger) (es : List ProcessEvent) (p : Process)
    (hrun : run (Process.step x) { world := { ledger := l } } es = some p)
    (hwaiting : p.watcher = .waiting) (hempty : p.endpoint.healthChanged = false)
    (hloop : ∀ result, p.loop ≠ .notifying result) :
    ∃ s report, p.world.state = some s ∧ p.sent = some report ∧
      (report.map fun h => (h.deviceName, h.health, h.message)).Perm s.health.toList := by
  have hnotifies : p.loop.notifies = false := by
    cases hp : p.loop with
    | notifying result => exact absurd hp (hloop result)
    | _ => rfl
  -- Nothing is pending at the end, so that what was read last is current.
  have hsettled : ¬p.healthSignal.Pending :=
    Signal.not_pending hempty (by simp [Process.healthSignal, hnotifies])
      (by simp [Process.healthSignal, hwaiting, Watcher.reads])
  have hcurrent := (Process.health_drives x).current_or_pending Process.Current
    (fun _ _ _ hp h hread => Process.current_of_read hp h hread)
    (fun _ _ _ hp h hidle hcurrent => hcurrent.idle hp h hidle)
    (Process.sound_init l) (.inr (.inr (.inr rfl))) hrun
  obtain ⟨s, report, hs, hread, hshows⟩ := hcurrent.resolve_right hsettled
  rw [Process.lastRead, hwaiting] at hread
  exact ⟨s, report, hs, hread, hshows⟩

/-- A turn of the rediscovery loop that finds both decoders, with the given nodes. -/
def turnDecoders (now : Time) (nodes : List String) : List ProcessEvent :=
  [.loop .tick, .loop .reconcile, .loop (.lock (hostEnv now nodes) bothFound)] ++
    smoothCommands 2 ++
  [.finish, .loop .notifyHealth, .loop (.publish (.ok ()))]

/-- While the health loop sends a report, the health changes twice. The second notification is
dropped, and the health loop wakes up once. -/
def coalescedChanges : List ProcessEvent :=
  [.call (.newDeviceState hostFlags (hostEnv 0 bothNodes) bothFound)] ++ smoothCommands 2 ++
  [.finish, .loop .start, .watch .start, .watch (.healthReport (hostEnv 1 []))] ++
  turnDecoders 2 [] ++ turnDecoders 3 ["/dev/video2"] ++
  [.watch .send, .watch .receive, .watch (.healthReport (hostEnv 4 [])), .watch .send]

/-- The report after two changes that came with one wake-up. -/
theorem last_report_coalesced :
    ∃ p : Process, run (Process.step plainExternal) {} coalescedChanges = some p ∧
      ∃ s report, p.world.state = some s ∧ p.sent = some report ∧
        (report.map fun h => (h.deviceName, h.health, h.message)).Perm s.health.toList := by
  have hrun : (run (Process.step plainExternal) {} coalescedChanges).map (fun p =>
      (p.watcher, p.endpoint.healthChanged, p.loop)) = some (.waiting, false, .waiting) := by
    decide +kernel
  simp only [Option.map_eq_some_iff, Prod.mk.injEq] at hrun
  obtain ⟨p, hp, hwaiting, hempty, hloop⟩ := hrun
  exact ⟨p, hp, last_report_current plainExternal {} coalescedChanges p hp hwaiting hempty
    (fun result => by simp [hloop])⟩

end RockchipDra.Plugin
