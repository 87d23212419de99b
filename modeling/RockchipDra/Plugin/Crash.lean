import RockchipDra.Plugin.Disk
import RockchipDra.Plugin.Host

/-!
# Kills at any point, and what they leave on the disk

A process that runs its operations as programs of system calls, with every fault. It can be killed
between two calls and inside one. The claim devices survive every kill. The checkpoint does not
survive a kill inside its `os.WriteFile`: the file has been truncated by then, and no proper part of
its text can be read.

* `Op.program_between`: the stores hold the checkpoint from before or from after an interrupted
  operation.
* `restart_possible_iff`: a restart is possible at every point of a run if and only if no
  `os.WriteFile` of the run is cut short.
-/

namespace RockchipDra.Plugin

open Go Discovery Effect Json

/-! ## What an interrupted operation leaves in the checkpoint -/

/-- The checkpoint is the one from before an operation on the stores `σ`, or the one from after
it. -/
def Op.Between (x : External) (s : DeviceState) (op : Op) (σ τ : Store) : Prop :=
  τ.checkpoint = σ.checkpoint ∨ τ.checkpoint = (op.execute x s σ).2.checkpoint

section Programs

variable {x : External} {s : DeviceState} {σ : Store}

/-- The commands of a prepare. -/
theorem prepare_between (env : Env) (claim : ResourceClaim) :
    (s.prepare x env claim).Alone faultyStore
      (fun _ τ => (Op.prepare env claim).Between x s σ τ)
      (fun _ _ => True) (fun _ _ => True) σ := by
  refine Fallible.alone_bind (Fallible.alone_mapError (alone_read_faulty (.inl rfl) ?_))
  refine Fallible.alone_bind
    (Fallible.alone_ofExcept (fun devices hdevices => ?_) (fun _ _ => trivial))
  refine Fallible.alone_bind (Fallible.alone_mapError
    (Fallible.alone_bind (Fallible.alone_ofExcept (fun spec hspec => ?_) (fun _ _ => trivial))))
  refine alone_write_faulty (.inl rfl) (.inl rfl) ?_
  refine Fallible.alone_bind (Fallible.alone_mapError
    (Fallible.alone_bind (alone_read_faulty (.inl rfl) ?_)))
  refine alone_write_faulty (.inl rfl) (.inl rfl) ?_
  change Fallible.Alone _ _ _ _ (if claim.uid ∉ σ.checkpoint.preparedClaims then _ else _) _
  split_ifs with huid
  · exact Fallible.alone_pure trivial
  · -- Only here the checkpoint changes.
    refine Fallible.alone_bind
      (Fallible.alone_mapError (alone_write_faulty (.inl rfl) (.inr ?_) ?_))
    · rw [execute_prepare hdevices hspec]
      change σ.checkpoint.append claim.uid = σ.checkpoint.add claim.uid
      rw [Checkpoint.add, if_neg huid]
    · exact Fallible.alone_pure trivial

/-- The commands of an unprepare. -/
theorem unprepare_between (uid : UID) :
    (s.unprepare x uid).Alone faultyStore (fun _ τ => (Op.unprepare uid).Between x s σ τ)
      (fun _ _ => True) (fun _ _ => True) σ := by
  -- From the write of the checkpoint on it is the one that the operation leaves.
  have hafter : ∀ τ : Store, τ.checkpoint = σ.checkpoint.delete uid →
      (Op.unprepare uid).Between x s σ τ := by
    intro τ hτ
    refine .inr (hτ.trans ?_)
    rw [execute_unprepare]
    rfl
  refine Fallible.alone_bind (Fallible.alone_mapError (alone_read_faulty (.inl rfl) ?_))
  refine Fallible.alone_bind (Fallible.alone_mapError (alone_write_faulty (.inl rfl) (.inl rfl) ?_))
  refine Fallible.alone_bind
    (Fallible.alone_mapError (alone_write_faulty (.inl rfl) (hafter _ rfl) ?_))
  refine Fallible.alone_mapError (Fallible.alone_bind (alone_read_faulty (hafter _ rfl) ?_))
  change Fallible.Alone _ _ _ _ (if uid ∈ σ.claimDevices.claims then _ else _) _
  split_ifs
  · exact alone_write_faulty (hafter _ rfl) (hafter _ rfl) trivial
  · exact Fallible.alone_pure trivial

/-- The commands of a reconcile. -/
theorem applyDiscoveryLocked_between (env : Env) (found : List Device) :
    (s.applyDiscoveryLocked x env found).Alone faultyStore
      (fun _ τ => (Op.reconcile env found).Between x s σ τ)
      (fun _ _ => True) (fun _ _ => True) σ := by
  refine Fallible.alone_bind (Fallible.alone_mapError (alone_read_faulty (.inl rfl) ?_))
  refine Fallible.alone_bind (Fallible.alone_mapError (alone_read_faulty (.inl rfl) ?_))
  change Fallible.Alone _ _ _ _
    (if (pruneClaimDevices env.order σ.checkpoint σ.claimDevices).1 then _ else _) _
  split_ifs
  · refine Fallible.alone_bind (Fallible.alone_mapError
      (alone_write_faulty (.inl rfl) (.inl rfl) ?_))
    exact Fallible.alone_pure trivial
  · exact Fallible.alone_pure trivial

/-- At every cut of an operation, with every fault, the checkpoint is the one from before or the one
from after it. -/
theorem Op.program_between (x : External) (s : DeviceState) (op : Op) (σ : Store) :
    (op.program x s).run.Safe faultyStore Eq (fun _ τ => op.Between x s σ τ)
      (fun _ _ => True) σ := by
  have halone : (op.program x s).Alone faultyStore (fun _ τ => op.Between x s σ τ)
      (fun _ _ => True) (fun _ _ => True) σ := by
    cases op with
    | prepare env claim =>
      exact Fallible.alone_bind (Fallible.Safe.mono (fun _ _ h => h)
        (fun _ _ _ => Fallible.alone_pure trivial) (fun _ _ h => h) (prepare_between env claim))
    | unprepare uid =>
      exact Fallible.alone_bind (Fallible.Safe.mono (fun _ _ h => h)
        (fun _ _ _ => Fallible.alone_pure trivial) (fun _ _ h => h) (unprepare_between uid))
    | reconcile env found =>
      exact Fallible.alone_bind (Fallible.Safe.mono (fun _ _ h => h)
        (fun _ _ _ => Fallible.alone_pure trivial) (fun _ _ h => h)
        (applyDiscoveryLocked_between env found))
  exact Fallible.Safe.run (halone.mono (fun _ _ h => h) (fun _ _ h => h) (fun _ _ h => h))

end Programs

/-! ## A process on a disk -/

/-- An operation that is under way: the memory it works on, and the disk on which it started. -/
structure Pending where
  memory : DeviceState
  op : Op
  before : Disk

/-- A running operation with what is left of its program. -/
structure DiskTask extends Pending where
  rest : Prog FileAnswer (Except String Outcome)

/-- An operation at its start. -/
def DiskTask.start (x : External) (s : DeviceState) (op : Op) (d : Disk) : DiskTask :=
  ⟨⟨s, op, d⟩, (op.program x s).run.interp lower⟩

/-- The disk, the memory of the process if it is up, and the running operation. -/
structure DiskWorld where
  disk : Disk := {}
  state : Option DeviceState := none
  running : Option DiskTask := none

/-- What can happen next. -/
inductive DiskEvent where
  /-- A process starts: `NewDeviceState` runs on an empty memory. -/
  | boot (f : Flags) (env : Env) (found : List Device)
  /-- The process starts an operation. -/
  | start (op : Op)
  /-- The running operation issues its next system call. -/
  | command (choice : Choice)
  /-- The running operation returns. -/
  | finish
  /-- The process is killed between two system calls. -/
  | kill
  /-- The process is killed inside its next system call. -/
  | killInside (choice : Choice)

/-- The world after an event, if the event is possible. -/
def DiskWorld.step (x : External) (w : DiskWorld) : DiskEvent → Option DiskWorld
  | .boot f env found =>
    if w.state.isNone ∧ w.running.isNone then
      some { w with running := some (.start x (freshState f) (.reconcile env found) w.disk) }
    else none
  | .start op =>
    match w.state, w.running with
    | some s, none => some { w with running := some (.start x s op w.disk) }
    | _, _ => none
  | .command choice =>
    match w.running with
    | some ⟨p, .call c k⟩ =>
      let r := Plugin.disk c choice w.disk
      some { w with disk := r.2, running := some ⟨p, k r.1⟩ }
    | _ => none
  | .finish =>
    match w.running with
    | some ⟨p, .ret r⟩ => some { w with state := memoryAfter p.memory w.state r, running := none }
    | _ => none
  | .kill => some { disk := w.disk }
  -- The effect of the call stays on the disk, and its answer is lost.
  | .killInside choice =>
    match w.running with
    | some ⟨_, .call c _⟩ => some { disk := (Plugin.disk c choice w.disk).2 }
    | _ => none

/-- The system call that the running operation issues next. -/
def DiskWorld.next (w : DiskWorld) : Option (Access FileQuery FileAction) :=
  match w.running with
  | some ⟨_, .call c _⟩ => some c
  | _ => none

/-- What happens to the system call of an event. -/
def DiskEvent.choice : DiskEvent → Option Choice
  | .command choice => some choice
  | .killInside choice => some choice
  | .boot _ _ _ => none
  | .start _ => none
  | .finish => none
  | .kill => none

/-! ## Restarts -/

/-- What `readCheckpoint` returns on a disk where no system call fails. -/
def Disk.readCheckpoint (d : Disk) : Except String Checkpoint :=
  (File.readCheckpoint.run.eval disk (fun _ => {}) d).1

/-- What `readClaimDevices` returns on a disk where no system call fails. -/
def Disk.readClaimDevices (d : Disk) : Except String ClaimDevicesFile :=
  (File.readClaimDevices.run.eval disk (fun _ => {}) d).1

/-- What an operation returns and leaves that runs to its end on a disk where no system call
fails. -/
def Op.onDisk (x : External) (s : DeviceState) (op : Op) (suffix : String) (d : Disk) :
    Except String Outcome × Disk :=
  ((op.program x s).run.interp lower).eval disk (fun _ => ⟨.ok, suffix⟩) d

/-- A checkpoint that an interrupted operation may leave: the one from before the operation or the
one from after it. No claim has lost its mark but one that was being unprepared. -/
structure Pending.Keeps (x : External) (p : Pending) (cp : Checkpoint) : Prop where
  between : p.before.readCheckpoint = .ok cp ∨
    ∀ suffix, tempPattern ++ suffix ∉ p.before.files →
      (p.op.onDisk x p.memory suffix p.before).2.readCheckpoint = .ok cp
  others : ∀ old, p.before.readCheckpoint = .ok old → ∀ uid ∈ old.preparedClaims,
    p.op ≠ .unprepare uid → uid ∈ cp.preparedClaims

/-- A disk from which a process can restart: both files can be read, the checkpoint is one that the
interrupted operation may leave, and `NewDeviceState` does not fail. -/
structure Recoverable (x : External) (interrupted : Option Pending) (d : Disk) : Prop where
  checkpoint : ∃ cp, d.readCheckpoint = .ok cp ∧ ∀ p, interrupted = some p → p.Keeps x cp
  claimDevices : ∃ file, d.readClaimDevices = .ok file
  restarts : ∀ f env found suffix, tempPattern ++ suffix ∉ d.files →
    ∃ out, ((Op.reconcile env found).onDisk x (freshState f) suffix d).1 = .ok out

/-- A process can restart from the disk as an event leaves it, whether the event is a kill or the
process is killed right after it. -/
def DiskWorld.Recovers (x : External) (w : DiskWorld) (_ : DiskEvent) (w' : DiskWorld) : Prop :=
  Recoverable x (w.running.map DiskTask.toPending) w'.disk

/-- The event cuts no `os.WriteFile` short, by a kill or by an error: where it has truncated the
file, all data get written. -/
def DiskWorld.Untorn (w : DiskWorld) (e : DiskEvent) (_ : DiskWorld) : Prop :=
  ∀ c choice, w.next = some c → e.choice = some choice → torn c choice = false

section Restarts

variable {x : External} {d : Disk} {σ τ : Store}

theorem Disk.readCheckpoint_eq (d : Disk) :
    d.readCheckpoint = decodeCheckpoint d.files[driverPluginCheckpointFile]? := rfl

/-- An operation on a disk where nothing fails does what it does to the stores on the disk. -/
theorem Op.onDisk_execute (s : DeviceState) (op : Op) {suffix : String} (h : Ready suffix d σ) :
    (op.onDisk x s suffix d).1 = (op.execute x s σ).1 ∧
      Ready suffix (op.onDisk x s suffix d).2 (op.execute x s σ).2 :=
  Prog.eval_interp (Ready suffix) (fun c _ _ hready => eval_lower suffix c hready) _ h

/-- A process can start on a disk that holds stores. -/
theorem Stored.restarts (h : Stored d σ) (f : Flags) (env : Env) (found : List Device)
    {suffix : String} (hfree : tempPattern ++ suffix ∉ d.files) :
    ∃ out, ((Op.reconcile env found).onDisk x (freshState f) suffix d).1 = .ok out := by
  rw [(Op.onDisk_execute (freshState f) _ ⟨h, hfree⟩).1]
  have hexecutes := Op.executes x (freshState f) σ (.reconcile env found)
  generalize (Op.reconcile env found).execute x (freshState f) σ = r at hexecutes
  obtain ⟨result, τ⟩ := r
  cases hexecutes with
  | reconciled => exact ⟨_, rfl⟩

/-- An operation takes no claim out of the checkpoint but one that it unprepares. -/
theorem Op.execute_keeps (s : DeviceState) (op : Op) {uid : UID}
    (huid : uid ∈ σ.checkpoint.preparedClaims) (hop : op ≠ .unprepare uid) :
    uid ∈ (op.execute x s σ).2.checkpoint.preparedClaims := by
  have h := Op.executes x s σ op
  generalize op.execute x s σ = r at h
  obtain ⟨result, τ⟩ := r
  cases h with
  | unavailable => exact huid
  | refused => exact huid
  | prepared env claim devices spec _ _ =>
    change uid ∈ (σ.checkpoint.add claim.uid).preparedClaims
    unfold Checkpoint.add
    split_ifs
    · exact huid
    · simp [huid]
  | unprepared other =>
    change uid ∈ (σ.checkpoint.delete other).preparedClaims
    have hne : uid ≠ other := fun heq => hop (heq ▸ rfl)
    simp [huid, hne]
  | reconciled => exact huid

/-- The checkpoint from before or from after an operation is one that it may leave. -/
theorem Pending.keeps {p : Pending} (hbefore : Stored p.before σ)
    (hbetween : p.op.Between x p.memory σ τ) : p.Keeps x τ.checkpoint where
  between := by
    rcases hbetween with hsame | hafter
    · exact .inl (hsame ▸ hbefore.checkpoint)
    · refine .inr fun suffix hfree => ?_
      rw [hafter]
      exact (Op.onDisk_execute p.memory p.op ⟨hbefore, hfree⟩).2.checkpoint
  others := by
    intro old hold uid huid hop
    obtain rfl : σ.checkpoint = old := Except.ok.inj (hbefore.checkpoint.symm.trans hold)
    rcases hbetween with hsame | hafter
    · exact hsame ▸ huid
    · exact hafter ▸ Op.execute_keeps p.memory p.op huid hop

/-- A disk that holds stores is one from which a process can restart. -/
theorem Stored.recoverable (h : Stored d τ) {interrupted : Option Pending}
    (hkeeps : ∀ p, interrupted = some p → p.Keeps x τ.checkpoint) :
    Recoverable x interrupted d where
  checkpoint := ⟨_, h.checkpoint, hkeeps⟩
  claimDevices := ⟨_, h.claimDevices⟩
  restarts f env found _ hfree := h.restarts f env found hfree

/-- A checkpoint that is cut short cannot be read. -/
theorem not_recoverable_of_torn {c : Access FileQuery FileAction} {choice : Choice}
    (hwrites : WritesCheckpoint c) (htorn : torn c choice = true) (interrupted : Option Pending) :
    ¬Recoverable x interrupted (disk c choice d).2 := by
  intro h
  obtain ⟨cp, hcp, -⟩ := h.checkpoint
  obtain ⟨fate, suffix⟩ := choice
  -- Only an `os.WriteFile` that stops within its data is torn.
  cases c with
  | read q => cases htorn
  | write a =>
    cases a with
    | writeFile name data =>
      obtain ⟨rfl, written, rfl⟩ := hwrites name data rfl
      cases fate with
      | ok => cases htorn
      | before err => cases htorn
      | after err => cases htorn
      | part k err =>
        -- A proper part of the text of a checkpoint cannot be decoded.
        have hk : k < written.marshal.length := by simpa [torn] using htorn
        have hfile : (disk (.write (.writeFile driverPluginCheckpointFile written.marshal))
            ⟨.part k err, suffix⟩ d).2.files[driverPluginCheckpointFile]? =
              some (written.marshal.take k) := Std.ExtTreeMap.getElem?_insert_self
        rw [Disk.readCheckpoint_eq, hfile, decodeCheckpoint_take written hk] at hcp
        cases hcp
    | write => cases htorn
    | chmod => cases htorn
    | close => cases htorn
    | rename => cases htorn
    | remove => cases htorn
    | writeSpec => cases htorn
    | removeSpec => cases htorn

end Restarts

/-! ## Runs -/

section Runs

variable {x : External} {d : Disk}

/-- The disk holds stores whose checkpoint is from before or from after the operation. -/
def Pending.Between (x : External) (p : Pending) (σ : Store) (d : Disk) : Prop :=
  ∃ τ, Stored d τ ∧ p.op.Between x p.memory σ τ

/-- What the running operation and the rest of its program satisfy on the disk. -/
structure DiskTask.Sound (x : External) (d : Disk) (t : DiskTask) (σ : Store) : Prop where
  before : Stored t.before σ
  between : t.Between x σ d
  safe : t.rest.Safe untornDisk Eq (fun _ d' => t.Between x σ d') (fun _ _ => True) d
  issues : t.rest.Issues WritesCheckpoint

/-- The disk holds stores, and the running operation is sound. -/
structure DiskWorld.Sound (x : External) (w : DiskWorld) : Prop where
  stored : ∃ σ, Stored w.disk σ
  running : ∀ t, w.running = some t → ∃ σ, t.Sound x w.disk σ

/-- An operation at its start is sound. -/
theorem DiskTask.sound_start {σ : Store} (h : Stored d σ) (s : DeviceState) (op : Op) :
    (DiskTask.start x s op d).Sound x d σ where
  before := h
  between := ⟨σ, h, .inl rfl⟩
  safe := (Prog.Safe.interp Stored (fun c _ _ hd => lower_safe c hd) h (.inl rfl)
    (op.program_between x s σ)).mono (fun _ _ h => h) fun _ _ _ => trivial
  issues := Prog.issues_interp lower_issues _

/-- The disk under a running operation is one from which a process can restart. -/
theorem Pending.Between.recoverable {p : Pending} {σ : Store} (hbefore : Stored p.before σ)
    (h : p.Between x σ d) : Recoverable x (some p) d := by
  obtain ⟨τ, hτ, hbetween⟩ := h
  refine hτ.recoverable ?_
  rintro _ ⟨⟩
  exact Pending.keeps hbefore hbetween

/-- A system call of a sound operation that is not torn. -/
theorem DiskTask.Sound.call {p : Pending} {c : Access FileQuery FileAction}
    {k : FileAnswer c → Prog FileAnswer (Except String Outcome)} {σ : Store} {choice : Choice}
    (h : DiskTask.Sound x d ⟨p, .call c k⟩ σ) (htorn : torn c choice = false) :
    DiskTask.Sound x (disk c choice d).2 ⟨p, k (disk c choice d).1⟩ σ := by
  obtain ⟨hguar, hsafe⟩ := h.safe.step (fun _ => rfl) choice
  rw [untornDisk_of_torn_eq_false htorn] at hguar hsafe
  exact ⟨h.before, hguar, hsafe, h.issues.2 _⟩

/-- An event that cuts no `os.WriteFile` short leaves a disk from which a process can restart. -/
theorem DiskWorld.step_sound {w w' : DiskWorld} {e : DiskEvent} (hw : w.Sound x)
    (h : w.step x e = some w') (huntorn : w.Untorn e w') : w'.Sound x ∧ w.Recovers x e w' := by
  obtain ⟨⟨σ, hσ⟩, hrunning⟩ := hw
  have hstart :
      ∀ s op, ({ w with running := some (.start x s op w.disk) } : DiskWorld).Sound x := by
    refine fun s op => ⟨⟨σ, hσ⟩, ?_⟩
    rintro _ ⟨⟩
    exact ⟨σ, DiskTask.sound_start hσ s op⟩
  -- An event without a system call leaves the disk, and with it what can be read.
  have hidle : ∀ w' : DiskWorld, w'.disk = w.disk → w.Recovers x e w' := by
    intro w' hw'
    unfold DiskWorld.Recovers
    rw [hw']
    cases hrun : w.running with
    | none => exact hσ.recoverable (by rintro p ⟨⟩)
    | some t =>
      obtain ⟨σ', ht⟩ := hrunning t hrun
      exact ht.between.recoverable ht.before
  -- A call that is made, whether or not the process survives it.
  have hcall : ∀ p c k choice, w.running = some ⟨p, .call c k⟩ → e.choice = some choice →
      ∃ σ', DiskTask.Sound x (Plugin.disk c choice w.disk).2
        ⟨p, k (Plugin.disk c choice w.disk).1⟩ σ' := by
    intro p c k choice hrun hchoice
    obtain ⟨σ', ht⟩ := hrunning _ hrun
    refine ⟨σ', ht.call (huntorn c choice ?_ hchoice)⟩
    simp only [DiskWorld.next, hrun]
  cases e with
  | boot f env found =>
    simp only [DiskWorld.step] at h
    split_ifs at h
    obtain rfl := Option.some.inj h
    exact ⟨hstart _ _, hidle _ rfl⟩
  | start op =>
    simp only [DiskWorld.step] at h
    split at h
    · obtain rfl := Option.some.inj h
      exact ⟨hstart _ _, hidle _ rfl⟩
    · cases h
  | command choice =>
    simp only [DiskWorld.step] at h
    split at h
    · next p c k hrun =>
      obtain rfl := Option.some.inj h
      obtain ⟨σ', ht'⟩ := hcall p c k choice hrun rfl
      obtain ⟨τ, hτ, -⟩ := ht'.between
      refine ⟨⟨⟨τ, hτ⟩, ?_⟩, ?_⟩
      · rintro _ ⟨⟩
        exact ⟨σ', ht'⟩
      · unfold DiskWorld.Recovers
        rw [hrun]
        exact ht'.between.recoverable ht'.before
    · cases h
  | finish =>
    simp only [DiskWorld.step] at h
    split at h
    · obtain rfl := Option.some.inj h
      exact ⟨⟨⟨σ, hσ⟩, by rintro t ⟨⟩⟩, hidle _ rfl⟩
    · cases h
  | kill =>
    obtain rfl := Option.some.inj h
    exact ⟨⟨⟨σ, hσ⟩, by rintro t ⟨⟩⟩, hidle _ rfl⟩
  | killInside choice =>
    simp only [DiskWorld.step] at h
    split at h
    · next p c k hrun =>
      obtain rfl := Option.some.inj h
      obtain ⟨σ', ht'⟩ := hcall p c k choice hrun rfl
      obtain ⟨τ, hτ, -⟩ := ht'.between
      refine ⟨⟨⟨τ, hτ⟩, by rintro t ⟨⟩⟩, ?_⟩
      unfold DiskWorld.Recovers
      rw [hrun]
      exact ht'.between.recoverable ht'.before
    · cases h

/-- An event that cuts an `os.WriteFile` short leaves a disk from which no process can restart. -/
theorem DiskWorld.untorn_of_recovers {w w' : DiskWorld} {e : DiskEvent} (hw : w.Sound x)
    (h : w.step x e = some w') (hrecovers : w.Recovers x e w') : w.Untorn e w' := by
  intro c choice hnext hchoice
  rw [← Bool.not_eq_true]
  intro htorn
  -- The call is the next one of the running operation, and it has been made.
  unfold DiskWorld.next at hnext
  split at hnext
  · next p c' k hrun =>
    obtain rfl := Option.some.inj hnext
    obtain ⟨σ, ht⟩ := hw.running _ hrun
    have hdisk : w'.disk = (Plugin.disk c' choice w.disk).2 := by
      cases e with
      | command choice' =>
        obtain rfl := Option.some.inj hchoice
        simp only [DiskWorld.step, hrun] at h
        obtain rfl := Option.some.inj h
        rfl
      | killInside choice' =>
        obtain rfl := Option.some.inj hchoice
        simp only [DiskWorld.step, hrun] at h
        obtain rfl := Option.some.inj h
        rfl
      | boot => cases hchoice
      | start => cases hchoice
      | finish => cases hchoice
      | kill => cases hchoice
    unfold DiskWorld.Recovers at hrecovers
    rw [hdisk] at hrecovers
    exact not_recoverable_of_torn ht.issues.1 htorn _ hrecovers
  · cases hnext

/-- **Restarts.** Along a run from an empty disk, a process can restart at every point if and only
if no `os.WriteFile` is cut short, by a kill or by an error, when the file has been truncated and
before all of its data are written. -/
theorem restart_possible_iff (x : External) (es : List DiskEvent) :
    Along (DiskWorld.step x) (DiskWorld.Recovers x) {} es ↔
      Along (DiskWorld.step x) DiskWorld.Untorn {} es := by
  refine along_congr (R := fun _ _ _ => True) (DiskWorld.Sound x) ?_ ?_ ?_
    (along_of_forall (fun _ _ _ _ => trivial) _ _)
  · intro w e w' hw hstep _ huntorn
    exact (DiskWorld.step_sound hw hstep huntorn).1
  · intro w e w' hw hstep _
    exact ⟨DiskWorld.untorn_of_recovers hw hstep, fun h => (DiskWorld.step_sound hw hstep h).2⟩
  · exact ⟨⟨{}, stored_empty⟩, by rintro t ⟨⟩⟩

end Runs

/-! ## A torn checkpoint -/

/-- A kill. -/
def DiskEvent.isKill : DiskEvent → Bool
  | .kill => true
  | .killInside _ => true
  | _ => false

/-- System calls that do not fail. -/
def systemCalls (n : ℕ) : List DiskEvent := List.replicate n (.command {})

/-- A process starts, prepares one claim, and is killed while it prepares another one: the
`os.WriteFile` of the checkpoint has truncated the file. -/
def tornCheckpointEvents : List DiskEvent :=
  [.boot hostFlags (hostEnv 0 bothNodes) bothFound] ++ systemCalls 2 ++ [.finish] ++
  [.start (.prepare (hostEnv 1 bothNodes) (hostClaim "a" "vpu-rkvdec-0"))] ++ systemCalls 9 ++
    [.finish] ++
  [.start (.prepare (hostEnv 1 bothNodes) (hostClaim "b" "vpu-rkvdec-1"))] ++ systemCalls 8

/-- It is not so that a process can restart after every kill. -/
theorem checkpoint_torn_by_kill :
    ¬∀ (x : External) (es : List DiskEvent),
      Along (DiskWorld.step x) (fun w e w' => e.isKill = true → w.Recovers x e w') {} es := by
  intro h
  let e : DiskEvent := .killInside { fate := .part 0 "killed" }
  -- The kill comes when the file has been truncated and nothing has been written.
  have htorn : (run (DiskWorld.step plainExternal) {} tornCheckpointEvents).bind (fun w =>
      (w.step plainExternal e).map fun w' => w'.disk.readCheckpoint.isOk) = some false := by
    decide +kernel
  simp only [Option.bind_eq_some_iff, Option.map_eq_some_iff] at htorn
  obtain ⟨w, hw, w', hw', hread⟩ := htorn
  obtain ⟨cp, hcp, -⟩ :=
    ((h plainExternal (tornCheckpointEvents ++ [e])).at_step hw hw' rfl).checkpoint
  rw [hcp] at hread
  cases hread

end RockchipDra.Plugin
