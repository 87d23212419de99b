import RockchipDra.Effect.Run
import RockchipDra.Plugin.Store

/-!
# One plugin process, with faults, crashes, and restarts

`World` is the persistent stores, the memory of the process if there is one, and the operation that
is running. The mutex of the plugin's state lets one operation run at a time. An event starts an
operation, lets it issue its next command (which may fail), lets it return, or kills the process. A
process comes up through `NewDeviceState`, which is a reconcile on an empty memory.

`Transition` is the same system with its programs taken away: what a command can do and what holds
at the end of an operation, by `Op.Step` and `Op.Post`. Every step of a world is a transition
(`World.step_transition`), so invariants of transitions are invariants of the plugin. What is
assumed of the operations that are started is a predicate `fit`.
-/

namespace RockchipDra.Plugin

open Go Discovery Effect

/-- An operation that is running: the memory it works on, and what is left of its program. -/
structure Task where
  memory : DeviceState
  op : Op
  rest : Prog StoreAnswer (Except String Outcome)

/-- An operation at its start. -/
def Task.start (x : External) (s : DeviceState) (op : Op) : Task := ⟨s, op, (op.program x s).run⟩

/-- The stores, the memory of the process if it is up, and the running operation. -/
structure World where
  ledger : Ledger := {}
  state : Option DeviceState := none
  running : Option Task := none

/-- What can happen next. -/
inductive Event where
  /-- A process starts: `NewDeviceState` runs on an empty memory. -/
  | boot (f : Flags) (env : Env) (found : List Device)
  /-- The process starts an operation. -/
  | start (op : Op)
  /-- The running operation issues its next command. -/
  | command (fault : Fault)
  /-- The running operation returns. -/
  | finish
  /-- The process is killed. -/
  | crash

/-- The memory after an operation on `s` returned. An error leaves it as it was. -/
def memoryAfter (s : DeviceState) (before : Option DeviceState) : Except String Outcome →
    Option DeviceState
  | .ok out => some (out.memory s)
  | .error _ => before

/-- The world after an event, if the event is possible. -/
def World.step (x : External) (w : World) : Event → Option World
  | .boot f env found =>
    if w.state.isNone ∧ w.running.isNone then
      some { w with running := some (.start x (freshState f) (.reconcile env found)) }
    else none
  | .start op =>
    match w.state, w.running with
    | some s, none => some { w with running := some (.start x s op) }
    | _, _ => none
  -- The write of a command that fails may have taken effect.
  | .command fault =>
    match w.running with
    | some ⟨s, op, .call c k⟩ =>
      let r := op.machine s c fault w.ledger
      some { w with ledger := r.2, running := some ⟨s, op, k r.1⟩ }
    | _ => none
  | .finish =>
    match w.running with
    | some ⟨s, _, .ret r⟩ => some { w with state := memoryAfter s w.state r, running := none }
    | _ => none
  | .crash => some { w with state := none, running := none }

/-- The operation that an event starts, with the memory it works on. -/
def World.starts (w : World) : Event → Option (DeviceState × Op)
  | .boot f env found => some (freshState f, .reconcile env found)
  | .start op => w.state.map fun s => (s, op)
  | .command _ => none
  | .finish => none
  | .crash => none

/-! ## Transitions -/

/-- The operation `op` may run on the memory `s` when the memory of the process is `st`. -/
inductive Serves : Option DeviceState → DeviceState → Op → Prop
  | up (s : DeviceState) (op : Op) : Serves (some s) s op
  | booting (f : Flags) (env : Env) (found : List Device) :
      Serves none (freshState f) (.reconcile env found)

/-- Prepares and unprepares run on the memory of a process that is up. -/
theorem Serves.state_eq {st : Option DeviceState} {s : DeviceState} {op : Op} (h : Serves st s op)
    (hop : op.isReconcile = false) : st = some s := by
  cases h with
  | up => rfl
  | booting => cases hop

/-- What an event can do to the stores and the memory. The operations that run satisfy `fit` with
the stores as they are. -/
inductive Transition (x : External) (fit : DeviceState → Op → Ledger → Prop) :
    Ledger → Option DeviceState → Ledger → Option DeviceState → Prop
  /-- An operation starts. -/
  | idle (l : Ledger) (st : Option DeviceState) : Transition x fit l st l st
  /-- The running operation issues a command. -/
  | command {l l' : Ledger} {st : Option DeviceState} {s : DeviceState} {op : Op}
      (hserves : Serves st s op) (hfit : fit s op l) (hstep : op.Step s l l') :
      Transition x fit l st l' st
  /-- The running operation returns. -/
  | finish {l : Ledger} {st : Option DeviceState} {s : DeviceState} {op : Op}
      {r : Except String Outcome} (hserves : Serves st s op) (hfit : fit s op l)
      (hpost : op.Post x s r l) : Transition x fit l st l (memoryAfter s st r)
  /-- The process is killed. -/
  | crash (l : Ledger) (st : Option DeviceState) : Transition x fit l st l none

/-- A property of the memory that holds of an empty one and that every reconcile keeps is kept by
every transition. -/
theorem Transition.memory {x : External} {fit : DeviceState → Op → Ledger → Prop} {l l' : Ledger}
    {st st' : Option DeviceState} (I : DeviceState → Prop) (hfresh : ∀ f, I (freshState f))
    (hreconcile : ∀ s env found σ, I s → I (s.reconcileFrom x env found σ).2)
    (h : Transition x fit l st l' st') (hst : ∀ s, st = some s → I s) :
    ∀ s, st' = some s → I s := by
  cases h with
  | idle => exact hst
  | command => exact hst
  | finish hserves _ hpost =>
    cases hpost with
    | failed => exact hst
    | prepared => cases hserves; exact hst
    | unprepared => cases hserves; exact hst
    | reconciled env found =>
      rintro _ ⟨⟩
      refine hreconcile _ env found _ ?_
      cases hserves with
      | up => exact hst _ rfl
      | booting f => exact hfresh f
  | crash => rintro s ⟨⟩

/-- What the running operation and the rest of its program satisfy. -/
structure Task.Sound (x : External) (fit : DeviceState → Op → Ledger → Prop) (l : Ledger)
    (st : Option DeviceState) (t : Task) : Prop where
  serves : Serves st t.memory t.op
  fits : fit t.memory t.op l
  safe : t.rest.Safe (t.op.machine t.memory) Eq (t.op.Step t.memory) (t.op.Post x t.memory) l

/-- The running operation is sound. -/
def World.Sound (x : External) (fit : DeviceState → Op → Ledger → Prop) (w : World) : Prop :=
  ∀ t, w.running = some t → t.Sound x fit w.ledger w.state

/-- Every operation that starts satisfies `fit` with the stores as they are then. -/
def World.Starts (fit : DeviceState → Op → Ledger → Prop) (w : World) (e : Event) (_ : World) :
    Prop :=
  ∀ s op, w.starts e = some (s, op) → fit s op w.ledger

section Steps

variable {x : External} {fit : DeviceState → Op → Ledger → Prop} {w w' : World} {e : Event}

/-- An operation at its start is sound. -/
theorem World.sound_start {s : DeviceState} {op : Op} (hserves : Serves w.state s op)
    (hfit : fit s op w.ledger) :
    ({ w with running := some (.start x s op) } : World).Sound x fit := by
  rintro t ht
  obtain rfl : Task.start x s op = t := by simpa using ht
  exact ⟨hserves, hfit, Op.program_safe x s op w.ledger⟩

/-- A step of a sound world is a transition and leaves a sound world, if the commands of an
operation keep what it satisfied at its start. -/
theorem World.step_transition (hkeep : ∀ s op l l', op.Step s l l' → fit s op l → fit s op l')
    (hw : w.Sound x fit) (hstarts : w.Starts fit e w') (h : w.step x e = some w') :
    w'.Sound x fit ∧ Transition x fit w.ledger w.state w'.ledger w'.state := by
  cases e with
  | boot f env found =>
    simp only [World.step, Option.isNone_iff_eq_none] at h
    split_ifs at h with hup
    obtain rfl := Option.some.inj h
    refine ⟨World.sound_start ?_ (hstarts _ _ rfl), .idle _ _⟩
    rw [hup.1]
    exact .booting f env found
  | start op =>
    simp only [World.step] at h
    split at h
    · next s hs hrunning =>
      obtain rfl := Option.some.inj h
      have hstart : w.starts (.start op) = some (s, op) := by
        simp only [World.starts, hs, Option.map]
      refine ⟨World.sound_start ?_ (hstarts s op hstart), .idle _ _⟩
      rw [hs]
      exact .up s op
    · cases h
  -- The program is safe, so that its next command is a step, and so is the rest after it.
  | command fault =>
    simp only [World.step] at h
    split at h
    · next s op c k hrunning =>
      obtain rfl := Option.some.inj h
      obtain ⟨hserves, hfit, hsafe⟩ := hw _ hrunning
      obtain ⟨hstep, hrest⟩ := hsafe.step (fun _ => rfl) fault
      refine ⟨?_, .command hserves hfit hstep⟩
      rintro t ht
      obtain rfl := Option.some.inj ht
      exact ⟨hserves, hkeep _ _ _ _ hstep hfit, hrest⟩
    · cases h
  -- A program that has returned satisfies its postcondition.
  | finish =>
    simp only [World.step] at h
    split at h
    · next s op r hrunning =>
      obtain rfl := Option.some.inj h
      obtain ⟨hserves, hfit, hsafe⟩ := hw _ hrunning
      refine ⟨?_, .finish hserves hfit (hsafe.done fun _ => rfl)⟩
      rintro t ht
      cases ht
    · cases h
  | crash =>
    obtain rfl := Option.some.inj h
    refine ⟨?_, .crash _ _⟩
    rintro t ht
    cases ht

end Steps

/-! ## Runs from empty stores -/

/-- A world that a run from empty stores reaches. -/
def World.Reachable (x : External) (w : World) : Prop := ∃ es, run (World.step x) {} es = some w

section Runs

variable {x : External} {fit : DeviceState → Op → Ledger → Prop}
  {inv : Ledger → Option DeviceState → Prop}

/-- A world is sound and satisfies an invariant of its stores and memory. -/
def World.Keeps (x : External) (fit : DeviceState → Op → Ledger → Prop)
    (inv : Ledger → Option DeviceState → Prop) (w : World) : Prop :=
  w.Sound x fit ∧ inv w.ledger w.state

/-- What every transition keeps, every step keeps. -/
theorem World.Keeps.step (hkeep : ∀ s op l l', op.Step s l l' → fit s op l → fit s op l')
    (htransition : ∀ l st l' st', Transition x fit l st l' st' → inv l st → inv l' st')
    {w w' : World} {e : Event} (hw : w.Keeps x fit inv) (h : w.step x e = some w')
    (hstarts : w.Starts fit e w') : w'.Keeps x fit inv := by
  -- The programs do not matter any more, only what a transition can do.
  obtain ⟨hsound, hstep⟩ := World.step_transition hkeep hw.1 hstarts h
  exact ⟨hsound, htransition _ _ _ _ hstep hw.2⟩

/-- Stores without a process are sound. -/
theorem World.Keeps.init {l : Ledger} (hinit : inv l none) :
    ({ ledger := l } : World).Keeps x fit inv := by
  refine ⟨?_, hinit⟩
  rintro t ⟨⟩

/-- What holds of the stores before a process runs and is kept by every transition holds in every
world that is reached by operations that satisfy `fit`. -/
theorem World.keeps_of_run (hkeep : ∀ s op l l', op.Step s l l' → fit s op l → fit s op l')
    (htransition : ∀ l st l' st', Transition x fit l st l' st' → inv l st → inv l' st') {l : Ledger}
    (hinit : inv l none) {es : List Event} {w : World}
    (hrun : run (World.step x) { ledger := l } es = some w)
    (hstarts : Along (World.step x) (World.Starts fit) { ledger := l } es) : w.Keeps x fit inv :=
  hstarts.invariant (World.Keeps x fit inv)
    (fun _ _ _ hw hstep hP => hw.step hkeep htransition hstep hP) (.init hinit) hrun

/-- What holds of empty stores without a process and is kept by every transition holds in every
reachable world. -/
theorem World.Reachable.keeps
    (htransition : ∀ l st l' st', Transition x (fun _ _ _ => True) l st l' st' → inv l st →
      inv l' st')
    (hinit : inv {} none) {w : World} (h : w.Reachable x) : w.Keeps x (fun _ _ _ => True) inv := by
  obtain ⟨es, hrun⟩ := h
  refine World.keeps_of_run (fun _ _ _ _ _ _ => trivial) htransition hinit hrun ?_
  exact along_of_forall (fun _ _ _ _ _ _ _ => trivial) _ _

end Runs

/-! ## Reconciles that return -/

/-- A successful reconcile: the memory that it worked on, what it found outside, and the memory that
it leaves. -/
structure Reconciliation where
  before : DeviceState
  env : Env
  found : List Device
  after : DeviceState

/-- The reconcile whose success an event reports. -/
def World.reconciled (w : World) : Event → Option Reconciliation
  | .finish =>
    match w.running with
    | some ⟨s, .reconcile env found, .ret (.ok (.reconciled _ next))⟩ => some ⟨s, env, found, next⟩
    | _ => none
  | .boot _ _ _ => none
  | .start _ => none
  | .command _ => none
  | .crash => none

/-- A reconcile that returns leaves the stores as they are and takes over the memory that follows
from them. -/
theorem World.Sound.reconciled {x : External} {fit : DeviceState → Op → Ledger → Prop}
    {w w' : World} {e : Event} {r : Reconciliation} (hw : w.Sound x fit) (h : w.step x e = some w')
    (hr : w.reconciled e = some r) :
    Serves w.state r.before (.reconcile r.env r.found) ∧ w'.ledger = w.ledger ∧
      w'.state = some r.after ∧
      r.after = (r.before.reconcileFrom x r.env r.found w.ledger.toStore).2 := by
  cases e with
  | finish =>
    simp only [World.reconciled] at hr
    split at hr
    · next s env found result next hrunning =>
      obtain rfl := Option.some.inj hr
      obtain ⟨hserves, -, hsafe⟩ := hw _ hrunning
      simp only [World.step, hrunning, Option.some.injEq] at h
      subst h
      have hpost : Op.Post x s (.reconcile env found) (.ok (.reconciled result next)) w.ledger :=
        hsafe.done fun _ => rfl
      cases hpost with
      | reconciled => exact ⟨hserves, rfl, rfl, rfl⟩
    · cases hr
  | boot => cases hr
  | start => cases hr
  | command => cases hr
  | crash => cases hr

/-- Only a successful reconcile and a crash change the memory. -/
theorem World.Sound.memory_unchanged {x : External} {fit : DeviceState → Op → Ledger → Prop}
    {w w' : World} {e : Event} (hw : w.Sound x fit) (h : w.step x e = some w')
    (hr : w.reconciled e = none) : w'.state = w.state ∨ e = .crash := by
  cases e with
  | boot f env found =>
    simp only [World.step] at h
    split_ifs at h
    obtain rfl := Option.some.inj h
    exact .inl rfl
  | start op =>
    simp only [World.step] at h
    split at h
    · obtain rfl := Option.some.inj h
      exact .inl rfl
    · cases h
  | command fault =>
    simp only [World.step] at h
    split at h
    · obtain rfl := Option.some.inj h
      exact .inl rfl
    · cases h
  | finish =>
    simp only [World.step] at h
    split at h
    · next s op result hrunning =>
      obtain rfl := Option.some.inj h
      obtain ⟨hserves, -, hsafe⟩ := hw _ hrunning
      refine .inl ?_
      have hpost : op.Post x s result w.ledger := hsafe.done fun _ => rfl
      -- An error leaves the memory, and so do a prepare and an unprepare of a process that is up.
      cases hpost with
      | failed => rfl
      | prepared => exact (hserves.state_eq rfl).symm
      | unprepared => exact (hserves.state_eq rfl).symm
      | reconciled env found => simp [World.reconciled, hrunning] at hr
    · cases h
  | crash => exact .inr rfl

end RockchipDra.Plugin
