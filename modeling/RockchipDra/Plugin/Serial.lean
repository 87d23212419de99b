import RockchipDra.Plugin.Session
import RockchipDra.Plugin.Wakeups

/-!
# The goroutines of a process do one operation after the other

`Process` lets the goroutines of a plugin interleave command by command. `Serially` is the plugin as
its callers may think of it: every operation runs to its end, alone, on the memory and the stores
that the one before it left. The two agree (`goroutines_serialize`). Whatever the interleaving, what
the operations of a process return and leave is what they return and leave in the order of their
returns, with the faults that their commands met. Where no command fails, this is the `Session` in
which the histories of the plugin are studied.
-/

namespace RockchipDra.Plugin

open Go Discovery Effect

/-! ## Serial histories -/

/-- The operations of a history with what they returned, one after the other, from the stores `σ`
without a process to the memory and the stores at the end. Their commands meet faults in `P`. -/
inductive Serially (x : External) (P : Fault → Prop) (σ : Store) :
    List (Op × Result) → Option DeviceState → Store → Prop
  | nil : Serially x P σ [] none σ
  | snoc {history : List (Op × Result)} {st : Option DeviceState} {τ υ : Store} {s : DeviceState}
      {op : Op} {r : Result} {faults : ℕ → Fault} (h : Serially x P σ history st τ)
      (hserves : Serves st s op) (hfaults : ∀ n, P (faults n))
      (heval : (op.program x s).run.eval faultyStore faults τ = (r, υ)) :
      Serially x P σ (history ++ [(op, r)]) (memoryAfter s st r) υ

/-- A serial history without faults is a session, from the first reconcile on. -/
theorem Serially.session {x : External} {σ τ : Store} {history : List (Op × Result)}
    {st : Option DeviceState} (h : Serially x (· = .none) σ history st τ) :
    (st = none → history = [] ∧ τ = σ) ∧
      ∀ s, st = some s → ∃ f ops, (⟨freshState f, σ⟩ : Session).run x ops = (history, ⟨s, τ⟩) := by
  induction h with
  | nil =>
    refine ⟨fun _ => ⟨rfl, rfl⟩, ?_⟩
    rintro s ⟨⟩
  | @snoc history st τ υ s op r faults h hserves hfaults heval ih =>
    obtain ⟨hdown, hup⟩ := ih
    have hnone : faults = fun _ => .none := funext hfaults
    -- The operation is executed as in a session.
    have hexecute : op.execute x s τ = (r, υ) := by
      rw [Op.execute, ← eval_faultyStore_none, ← hnone, heval]
    cases hserves with
    | up _ op =>
      refine ⟨?_, ?_⟩
      · intro hst
        cases r <;> cases hst
      · intro next hnext
        obtain ⟨f, ops, hrun⟩ := hup s rfl
        have hnext : next = resultMemory s r := by
          cases r with
          | ok out => exact (Option.some.inj hnext).symm
          | error e => exact (Option.some.inj hnext).symm
        refine ⟨f, ops ++ [op], ?_⟩
        rw [Session.run_append, hrun, Session.run_cons, Session.exec, hexecute, hnext]
        rfl
    | booting f env found =>
      obtain ⟨rfl, rfl⟩ := hdown rfl
      -- The reconcile of a process that comes up does not fail where its commands do not.
      have hr : r = _ := (congrArg Prod.fst hexecute).symm.trans
        (congrArg Prod.fst (execute_reconcile env found))
      subst hr
      refine ⟨?_, ?_⟩
      · rintro ⟨⟩
      · rintro _ ⟨⟩
        refine ⟨f, [.reconcile env found], ?_⟩
        rw [Session.run_cons, Session.exec, hexecute]
        rfl

/-! ## Steps of the stores and the memory -/

/-- A command on the stores of one operation does to them what it does to the stores alone. -/
theorem Op.machine_faultyStore (s : DeviceState) (op : Op) (c : Access StoreRead StoreWrite)
    (fault : Fault) (l : Ledger) :
    (op.machine s c fault l).1 = (faultyStore c fault l.toStore).1 ∧
      (op.machine s c fault l).2.toStore = (faultyStore c fault l.toStore).2 := by
  cases c with
  | read r => cases fault <;> exact ⟨rfl, rfl⟩
  | write w => cases fault <;> exact ⟨rfl, rfl⟩

/-- What is left of a running operation ends, on the stores `υ` as they are now, as the whole of it
does on the stores `τ` on which it started. -/
def Task.Resumes (x : External) (P : Fault → Prop) (t : Task) (τ υ : Store) : Prop :=
  ∀ faults, (∀ n, P (faults n)) → ∃ faults', (∀ n, P (faults' n)) ∧
    (t.op.program x t.memory).run.eval faultyStore faults' τ = t.rest.eval faultyStore faults υ

/-- The operations that have returned are a serial history, and the one that is running started
where it ends. -/
def World.Serial (x : External) (P : Fault → Prop) (σ : Store) (history : List (Op × Result))
    (w : World) : Prop :=
  ∃ τ, Serially x P σ history w.state τ ∧ (w.running = none → w.ledger.toStore = τ) ∧
    ∀ t, w.running = some t → Serves w.state t.memory t.op ∧ t.Resumes x P τ w.ledger.toStore

/-- The operation that returns with an event, with what it returns. -/
def World.returns (w : World) : Event → Option (Op × Result)
  | .finish => w.returned
  | _ => none

section Steps

variable {x : External} {P : Fault → Prop} {σ : Store} {history : List (Op × Result)} {w w' : World}

/-- An operation starts where the history ends. -/
theorem World.Serial.start (h : w.Serial x P σ history) (hrunning : w.running = none)
    {s : DeviceState} {op : Op} (hserves : Serves w.state s op) :
    ({ w with running := some (.start x s op) } : World).Serial x P σ history := by
  obtain ⟨τ, hserial, hidle, -⟩ := h
  refine ⟨τ, hserial, ?_, ?_⟩
  · rintro ⟨⟩
  · rintro _ ⟨⟩
    refine ⟨hserves, fun faults hfaults => ⟨faults, hfaults, ?_⟩⟩
    have hτ : w.ledger.toStore = τ := hidle hrunning
    change _ = ((op.program x s).run).eval faultyStore faults w.ledger.toStore
    rw [hτ]
    rfl

/-- Every step but a kill extends the serial history by the operation that returns. -/
theorem World.Serial.step {e : Event} (hnone : P .none) (h : w.Serial x P σ history)
    (hstep : w.step x e = some w') (hfault : ∀ fault, e = .command fault → P fault)
    (hcrash : e ≠ .crash) : w'.Serial x P σ (history ++ (w.returns e).toList) := by
  cases e with
  | boot f env found =>
    simp only [World.step, Option.isNone_iff_eq_none] at hstep
    split_ifs at hstep with hdown
    obtain rfl := Option.some.inj hstep
    have hserves : Serves w.state (freshState f) (.reconcile env found) := by
      rw [hdown.1]
      exact .booting f env found
    simpa [World.returns] using h.start hdown.2 hserves
  | start op =>
    simp only [World.step] at hstep
    split at hstep
    · next s hs hrunning =>
      obtain rfl := Option.some.inj hstep
      have hserves : Serves w.state s op := by
        rw [hs]
        exact .up s op
      simpa [World.returns] using h.start hrunning hserves
    · cases hstep
  | command fault =>
    simp only [World.step] at hstep
    split at hstep
    · next s op c k hrunning =>
      obtain rfl := Option.some.inj hstep
      obtain ⟨τ, hserial, -, htask⟩ := h
      obtain ⟨hserves, hresumes⟩ := htask _ hrunning
      obtain ⟨hanswer, hstore⟩ := Op.machine_faultyStore s op c fault w.ledger
      refine ⟨τ, by simpa [World.returns] using hserial, ?_, ?_⟩
      · rintro ⟨⟩
      -- The command is the first of those that were left, and its fault is the first of theirs.
      · rintro _ ⟨⟩
        refine ⟨hserves, fun faults hfaults => ?_⟩
        have hall : ∀ n : ℕ, P (n.casesOn fault faults) := by
          rintro (_ | n)
          · exact hfault fault rfl
          · exact hfaults n
        obtain ⟨faults', hfaults', heval⟩ := hresumes (fun n => n.casesOn fault faults) hall
        refine ⟨faults', hfaults', heval.trans ?_⟩
        dsimp only
        rw [hanswer, hstore]
        rfl
    · cases hstep
  | finish =>
    simp only [World.step] at hstep
    split at hstep
    · next s op r hrunning =>
      obtain rfl := Option.some.inj hstep
      obtain ⟨τ, hserial, -, htask⟩ := h
      obtain ⟨hserves, hresumes⟩ := htask _ hrunning
      -- Nothing is left of the operation, so the whole of it has returned `r`.
      obtain ⟨faults, hfaults, heval⟩ := hresumes (fun _ => .none) fun _ => hnone
      have hreturns : w.returns .finish = some (op, r) := by
        simp [World.returns, World.returned, hrunning]
      rw [hreturns]
      refine ⟨w.ledger.toStore, hserial.snoc hserves hfaults heval, fun _ => rfl, ?_⟩
      rintro t ⟨⟩
    · cases hstep
  | crash => exact absurd rfl hcrash

end Steps

/-! ## Runs of a process -/

/-- The operations that return along a run, with what they return, in order. -/
def Process.history (x : External) (p : Process) (es : List ProcessEvent) : List (Op × Result) :=
  observed (Process.step x) Process.returns p es

section Runs

variable {x : External} {P : Fault → Prop} {σ : Store} {history : List (Op × Result)}
  {p q : Process}

/-- Every step of a process extends the serial history by the operation that returns. -/
theorem Process.serial_step {e : ProcessEvent} (hnone : P .none)
    (h : p.world.Serial x P σ history) (hstep : p.step x e = some q)
    (hfault : ∀ fault, e = .call (.command fault) → P fault) :
    q.world.Serial x P σ (history ++ (p.returns e).toList) := by
  cases e with
  | call e =>
    obtain ⟨w, hw, rfl⟩ := Process.act_eq_some hstep
    have hserial := h.step hnone hw ?_ ?_
    · cases e <;> exact hserial
    · intro fault he
      cases e with
      | command fault' =>
        cases he
        exact hfault fault rfl
      | _ => cases he
    · cases e <;> simp [CallEvent.event]
  | finish =>
    obtain ⟨op, r, w, -, hw, rfl⟩ := Process.step_finish hstep
    exact h.step hnone hw (by rintro _ ⟨⟩) (by rintro ⟨⟩)
  | kickReconcile =>
    simp only [Process.step, Option.ite_none_right_eq_some, Option.some.injEq] at hstep
    obtain ⟨-, rfl⟩ := hstep
    simpa [Process.returns] using h
  | loop e =>
    rcases Process.stepLoop_cases hstep with ⟨env, found, rfl⟩ | ⟨hworld, -, -⟩
    · obtain ⟨-, w, hw, rfl⟩ := Process.stepLoop_lock hstep
      exact h.step hnone hw (by rintro _ ⟨⟩) (by rintro ⟨⟩)
    · rw [hworld]
      simpa [Process.returns] using h
  | watch e =>
    rw [(Process.stepWatch_frame hstep).1]
    simpa [Process.returns] using h

end Runs

/-- Whenever no operation holds the mutex, the operations that have returned are a serial history,
with faults among those that the run has. -/
theorem Process.serially {x : External} {P : Fault → Prop} {l : Ledger} {es : List ProcessEvent}
    {p : Process} (hrun : run (Process.step x) { world := { ledger := l } } es = some p)
    (hidle : p.world.running = none) (hnone : P .none)
    (hfaults : ∀ fault, .call (.command fault) ∈ es → P fault) :
    Serially x P l.toStore (Process.history x { world := { ledger := l } } es) p.world.state
      p.world.ledger.toStore := by
  have hinit : ({ ledger := l } : World).Serial x P l.toStore [] := by
    refine ⟨l.toStore, .nil, fun _ => rfl, ?_⟩
    rintro t ⟨⟩
  obtain ⟨τ, hτ, hstore, -⟩ := run_observed (fun h p => p.world.Serial x P l.toStore h)
    Process.returns (fun e => ∀ fault, e = .call (.command fault) → P fault)
    (fun h p e q hp hstep he => Process.serial_step hnone hp hstep he) hinit hrun
    (fun e he fault heq => hfaults fault (heq ▸ he))
  rw [hstore hidle]
  exact hτ

/-- **The goroutines serialize.** Whenever no operation holds the mutex, the operations of a process
have returned what they return, and left the memory and the stores that they leave, one after the
other in the order of their returns, each alone and with faults that the run has. If no command of
the run fails, this is a session. -/
theorem goroutines_serialize (x : External) (l : Ledger) (es : List ProcessEvent) (p : Process)
    (hrun : run (Process.step x) { world := { ledger := l } } es = some p)
    (hidle : p.world.running = none) :
    Serially x (fun fault => fault = .none ∨ .call (.command fault) ∈ es) l.toStore
        (Process.history x { world := { ledger := l } } es) p.world.state p.world.ledger.toStore ∧
      ((∀ fault, .call (.command fault) ∈ es → fault = .none) → ∀ s, p.world.state = some s →
        ∃ f ops, (⟨freshState f, l.toStore⟩ : Session).run x ops =
          (Process.history x { world := { ledger := l } } es, ⟨s, p.world.ledger.toStore⟩)) := by
  refine ⟨Process.serially hrun hidle (.inl rfl) fun fault hfault => .inr hfault,
    fun hfaults s hs => ?_⟩
  have hserial := Process.serially (P := (· = .none)) hrun hidle rfl hfaults
  exact hserial.session.2 s hs

/-- The loop enumerates and finds nothing, and before it takes the mutex, a call prepares a claim on
a device that was found before. -/
def prepareDuringEnumerate : List ProcessEvent :=
  [.call (.newDeviceState hostFlags (hostEnv 0 bothNodes) bothFound)] ++ smoothCommands 2 ++
    [.finish, .loop .start, .loop .tick, .loop .reconcile] ++
  [.call (.prepare (hostEnv 1 bothNodes) (hostClaim "u" "vpu-rkvdec-0"))] ++ smoothCommands 5 ++
    [.finish] ++
  [.loop (.lock (hostEnv 2 []) [])] ++ smoothCommands 2 ++ [.finish]

/-- The claim is prepared first, and the reconcile then retains its device. -/
theorem prepare_during_enumerate_serializes :
    ∃ p s f ops, run (Process.step plainExternal) {} prepareDuringEnumerate = some p ∧
      p.world.state = some s ∧ s.tracked.keys = ["vpu-rkvdec-0"] ∧
      (⟨freshState f, {}⟩ : Session).run plainExternal ops =
        (Process.history plainExternal {} prepareDuringEnumerate,
          ⟨s, p.world.ledger.toStore⟩) := by
  have hrun : (run (Process.step plainExternal) {} prepareDuringEnumerate).bind (fun p =>
      p.world.state.map fun s => (p.world.running.isNone, s.tracked.keys)) =
      some (true, ["vpu-rkvdec-0"]) := by
    decide +kernel
  simp only [Option.bind_eq_some_iff, Option.map_eq_some_iff, Prod.mk.injEq,
    Option.isNone_iff_eq_none] at hrun
  obtain ⟨p, hp, s, hs, hidle, hkeys⟩ := hrun
  have hfaults : ∀ fault, .call (.command fault) ∈ prepareDuringEnumerate → fault = .none := by
    intro fault hfault
    simpa [prepareDuringEnumerate, smoothCommands] using hfault
  obtain ⟨f, ops, hsession⟩ :=
    (goroutines_serialize plainExternal {} prepareDuringEnumerate p hp hidle).2 hfaults s hs
  exact ⟨p, s, f, ops, hp, hs, hkeys, hsession⟩

end RockchipDra.Plugin
