import RockchipDra.Effect.Refine
import RockchipDra.Plugin.Crash
import RockchipDra.Plugin.Retention
import RockchipDra.Plugin.Serial

/-!
# The files refine the stores

`World` runs the operations on stores in which every command takes effect in one step. `DiskWorld`
runs the same operations as programs of system calls on files, with kills inside a call. Every run
of the second in which no `os.WriteFile` is cut short is a run of the first (`disk_refines_stores`):
the same operations return the same in the same order, the memory is the same, and the files hold
the stores. A system call within a command is no step at all, and a kill within a command is a crash
before or after it.

So what is known of the stores is known of the bytes on the disk. The devices of every claim in
`checkpoint.json` are in `claim-devices.json` and published (`disk_claims_retained`), and a
reconcile that returns has removed what failed and interrupted operations left there
(`reconcile_heals_disk`).
-/

namespace RockchipDra.Plugin

open Go Discovery Effect Prog

/-! ## One command -/

/-- A disk holds the stores of a ledger. -/
def Holds (d : Disk) (l : Ledger) : Prop := Stored d l.toStore

/-- The program of a command does what the command does to the stores. -/
theorem lower_translates (s : DeviceState) (op : Op) (c : Access StoreRead StoreWrite) (d : Disk)
    (l : Ledger) (h : Holds d l) : Translates (op.machine s) untornDisk Holds c (lower c) d l := by
  have hafter : ∀ x d', Stored d' (faultyStore c x l.toStore).2 →
      Holds d' (op.machine s c x l).2 := by
    intro x d' hd'
    rw [Holds, (Op.machine_faultyStore s op c x l).2]
    exact hd'
  refine (lower_safe c h).mono ?_ ?_
  · rintro - d' (hbefore | ⟨x, hd'⟩)
    · exact .inl hbefore
    · exact .inr ⟨x, hafter x d' hd'⟩
  · rintro r d' ⟨x, rfl, hd'⟩
    exact ⟨x, (Op.machine_faultyStore s op c x l).1, hafter x d' hd'⟩

/-- The program of a command starts with a system call. -/
theorem lower_eq_call (c : Access StoreRead StoreWrite) : ∃ b j, lower c = .call b j :=
  match c with
  | .read .checkpoint => ⟨_, _, rfl⟩
  | .read .claimDevices => ⟨_, _, rfl⟩
  | .write (.checkpoint _) => ⟨_, _, rfl⟩
  | .write (.claimDevices _) => ⟨_, _, rfl⟩
  | .write (.spec _ _) => ⟨_, _, rfl⟩
  | .write (.removeSpec _) => ⟨_, _, rfl⟩

/-! ## The simulation -/

/-- The process on the disk does what the process on the stores does. The running operations are the
same, and what is left of the one on the disk translates what is left of the other. -/
inductive DiskWorld.Refines : DiskWorld → World → Prop
  | idle {d : Disk} {st : Option DeviceState} {l : Ledger} (h : Holds d l) :
      Refines ⟨d, st, none⟩ ⟨l, st, none⟩
  | busy {d : Disk} {st : Option DeviceState} {l : Ledger} {p : Pending}
      {rest : Prog FileAnswer Result} {rest' : Prog StoreAnswer Result}
      (h : UnderWay (p.op.machine p.memory) untornDisk Holds lower rest d rest' l) :
      Refines ⟨d, st, some ⟨p, rest⟩⟩ ⟨l, st, some ⟨p.memory, p.op, rest'⟩⟩

/-- The operation that returns with an event, with what it returns. -/
def DiskWorld.returns (w : DiskWorld) : DiskEvent → Option (Op × Result)
  | .finish =>
    match w.running with
    | some ⟨p, .ret r⟩ => some (p.op, r)
    | _ => none
  | _ => none

/-- The operations of a run that have returned, with what they returned. -/
def DiskWorld.history (x : External) (w : DiskWorld) (es : List DiskEvent) : List (Op × Result) :=
  observed (DiskWorld.step x) DiskWorld.returns w es

/-- The same of a run on the stores. -/
def World.history (x : External) (w : World) (es : List Event) : List (Op × Result) :=
  observed (World.step x) World.returns w es

section Simulation

variable {x : External} {w w' : DiskWorld} {W : World}

/-- An operation at its start. -/
theorem DiskWorld.refines_start {d : Disk} {l : Ledger} (h : Holds d l) (st : Option DeviceState)
    (s : DeviceState) (op : Op) :
    DiskWorld.Refines ⟨d, st, some (.start x s op d)⟩ ⟨l, st, some (.start x s op)⟩ :=
  .busy (p := ⟨s, op, d⟩) (UnderWay.start (lower_translates s op) lower_eq_call h _)

/-- A disk under a process holds the stores, perhaps after one more command. -/
theorem DiskWorld.Refines.holds (h : w.Refines W) :
    ∃ Es W', run (World.step x) W Es = some W' ∧ Holds w.disk W'.ledger ∧ W'.state = w.state ∧
      W'.running.map (fun t => (t.memory, t.op)) = w.running.map (fun t => (t.memory, t.op)) ∧
      W.history x Es = [] := by
  cases h with
  | idle h => exact ⟨[], _, rfl, h, rfl, rfl, rfl⟩
  | busy h =>
    rcases h.cut with hbefore | ⟨c, k, fault, rfl, hafter⟩
    · exact ⟨[], _, rfl, hbefore, rfl, rfl, rfl⟩
    · exact ⟨[.command fault], _, rfl, hafter, rfl, rfl, rfl⟩

/-- A system call is no step of the other process, or its next command. -/
theorem DiskWorld.Refines.call {d : Disk} {st : Option DeviceState} {p : Pending}
    {b : Access FileQuery FileAction} {j : FileAnswer b → Prog FileAnswer Result} {choice : Choice}
    (h : DiskWorld.Refines ⟨d, st, some ⟨p, .call b j⟩⟩ W) (htorn : torn b choice = false) :
    ∃ Es W', run (World.step x) W Es = some W' ∧ W.history x Es = [] ∧
      DiskWorld.Refines
        ⟨(Plugin.disk b choice d).2, st, some ⟨p, j (Plugin.disk b choice d).1⟩⟩ W' := by
  cases h with
  | busy h =>
    have hstep := h.step (lower_translates p.memory p.op) lower_eq_call choice
    rw [untornDisk_of_torn_eq_false htorn] at hstep
    rcases hstep with hwithin | ⟨c, k, fault, rfl, hdone⟩
    · exact ⟨[], _, rfl, rfl, .busy hwithin⟩
    · exact ⟨[.command fault], _, rfl, rfl, .busy hdone⟩

/-- A process that is killed leaves a disk that holds the stores, perhaps after one more command. -/
theorem DiskWorld.Refines.killed (h : w.Refines W) :
    ∃ Es W', run (World.step x) W Es = some W' ∧ W.history x Es = [] ∧
      DiskWorld.Refines { disk := w.disk } W' := by
  obtain ⟨Es, W', hrun, hholds, -, -, hhistory⟩ := h.holds (x := x)
  refine ⟨Es ++ [.crash], { W' with state := none, running := none }, ?_, ?_, .idle hholds⟩
  · rw [run_append, hrun]
    rfl
  · rw [World.history, observed_append hrun]
    exact (List.append_eq_nil_iff).mpr ⟨hhistory, rfl⟩

/-- Every step on the disk that cuts no `os.WriteFile` short is matched on the stores. -/
theorem DiskWorld.Refines.step {e : DiskEvent} (h : w.Refines W) (hstep : w.step x e = some w')
    (huntorn : w.Untorn e w') :
    ∃ Es W', run (World.step x) W Es = some W' ∧ w'.Refines W' ∧
      W.history x Es = (w.returns e).toList := by
  cases e with
  | boot f env found =>
    simp only [DiskWorld.step, Option.isNone_iff_eq_none] at hstep
    split_ifs at hstep with hdown
    obtain rfl := Option.some.inj hstep
    cases h with
    | idle h =>
      obtain rfl := hdown.1
      exact ⟨[.boot f env found], _, rfl, DiskWorld.refines_start h _ _ _, rfl⟩
    | busy => cases hdown.2
  | start op =>
    cases h with
    | @idle d st l h =>
      cases st with
      | none => cases hstep
      | some s =>
        obtain rfl := Option.some.inj hstep
        exact ⟨[.start op], _, rfl, DiskWorld.refines_start h _ _ _, rfl⟩
    | @busy d st _ _ _ _ _ =>
      cases st with
      | none => cases hstep
      | some s => cases hstep
  | command choice =>
    simp only [DiskWorld.step] at hstep
    split at hstep
    · next p b j hrunning =>
      obtain ⟨d, st, _⟩ := w
      obtain rfl := hrunning
      obtain rfl := Option.some.inj hstep
      obtain ⟨Es, W', hrun, hhistory, hrefines⟩ := h.call (huntorn b choice rfl rfl)
      exact ⟨Es, W', hrun, hrefines, hhistory⟩
    · cases hstep
  | finish =>
    simp only [DiskWorld.step] at hstep
    split at hstep
    · next p r hrunning =>
      obtain ⟨d, st, _⟩ := w
      obtain rfl := hrunning
      obtain rfl := Option.some.inj hstep
      cases h with
      | busy h =>
        obtain ⟨rfl, hholds⟩ := h.done
        exact ⟨[.finish], _, rfl, .idle hholds, rfl⟩
    · cases hstep
  | kill =>
    obtain rfl := Option.some.inj hstep
    obtain ⟨Es, W', hrun, hhistory, hrefines⟩ := h.killed (x := x)
    exact ⟨Es, W', hrun, hrefines, hhistory⟩
  | killInside choice =>
    -- The system call is made, and then the process is killed.
    simp only [DiskWorld.step] at hstep
    split at hstep
    · next p b j hrunning =>
      obtain ⟨d, st, _⟩ := w
      obtain rfl := hrunning
      obtain rfl := Option.some.inj hstep
      obtain ⟨Es, V, hrun, hhistory, hcall⟩ := h.call (x := x) (huntorn b choice rfl rfl)
      obtain ⟨Es', W', hrun', hhistory', hrefines⟩ := hcall.killed (x := x)
      refine ⟨Es ++ Es', W', ?_, hrefines, ?_⟩
      · rw [run_append, hrun]
        exact hrun'
      · rw [World.history, observed_append hrun]
        exact (List.append_eq_nil_iff).mpr ⟨hhistory, hhistory'⟩
    · cases hstep

/-- Empty files hold empty stores. -/
theorem DiskWorld.refines_init : DiskWorld.Refines {} {} := .idle stored_empty

/-- The same of runs. -/
theorem DiskWorld.refines_run {es : List DiskEvent} (hrun : run (DiskWorld.step x) {} es = some w)
    (huntorn : Along (DiskWorld.step x) DiskWorld.Untorn {} es) :
    ∃ Es W, run (World.step x) {} Es = some W ∧ w.Refines W ∧
      World.history x {} Es = DiskWorld.history x {} es :=
  run_simulates DiskWorld.Refines DiskWorld.returns World.returns
    (fun _ _ _ _ h hstep huntorn => h.step hstep huntorn) DiskWorld.refines_init hrun huntorn

end Simulation

/-! ## Refinement -/

/-- **The files refine the stores.** Take a run on the disk from empty files, with failing system
calls and with kills between and inside them, in which no `os.WriteFile` is cut short. There is a
run on the stores from empty ones in which the same operations return the same in the same order. It
ends with the same memory and the same running operation, and the files hold its stores. -/
theorem disk_refines_stores (x : External) (es : List DiskEvent) (w : DiskWorld)
    (hrun : run (DiskWorld.step x) {} es = some w)
    (huntorn : Along (DiskWorld.step x) DiskWorld.Untorn {} es) :
    ∃ Es W, run (World.step x) {} Es = some W ∧
      World.history x {} Es = DiskWorld.history x {} es ∧ W.state = w.state ∧
      W.running.map (fun t => (t.memory, t.op)) = w.running.map (fun t => (t.memory, t.op)) ∧
      Stored w.disk W.ledger.toStore := by
  obtain ⟨Es, V, hV, hrefines, hhistory⟩ := DiskWorld.refines_run hrun huntorn
  -- Where the last command has taken effect on the disk already, it is made on the stores as well.
  obtain ⟨Es', W, hW, hholds, hstate, hrunning, hquiet⟩ := hrefines.holds (x := x)
  refine ⟨Es ++ Es', W, ?_, ?_, hstate, hrunning, hholds⟩
  · rw [run_append, hV]
    exact hW
  · rw [← hhistory, World.history, observed_append hV]
    exact (congrArg _ hquiet).trans (List.append_nil _)

/-- A call that is not cut short within its data is not torn. -/
theorem torn_of_whole {c : Access FileQuery FileAction} {choice : Choice}
    (h : ∀ k err, choice.fate ≠ .part k err) : torn c choice = false := by
  unfold torn
  split
  · next k err suffix => exact absurd rfl (h k err)
  · rfl

/-- No call of an event is cut short within its data. -/
def DiskEvent.whole (e : DiskEvent) : Bool :=
  match e.choice with
  | some ⟨.part _ _, _⟩ => false
  | _ => true

/-- A run in which no call is cut short within its data. -/
theorem untorn_of_whole {x : External} {w : DiskWorld} {es : List DiskEvent}
    (h : es.all DiskEvent.whole = true) : Along (DiskWorld.step x) DiskWorld.Untorn w es := by
  rw [List.all_eq_true] at h
  refine along_of_mem fun e he w w' _ c choice _ hchoice => torn_of_whole fun k err hfate => ?_
  have hwhole := h e he
  obtain ⟨fate, suffix⟩ := choice
  obtain rfl : fate = .part k err := hfate
  simp [DiskEvent.whole, hchoice] at hwhole

/-- A process prepares one claim and is killed while it prepares another one, when the new claim
devices are in place and the claim is not in the checkpoint. A second process comes up. -/
def killedEvents : List DiskEvent :=
  [.boot hostFlags (hostEnv 0 bothNodes) bothFound] ++ systemCalls 2 ++ [.finish] ++
  [.start (.prepare (hostEnv 1 bothNodes) (hostClaim "a" "vpu-rkvdec-0"))] ++ systemCalls 9 ++
    [.finish] ++
  [.start (.prepare (hostEnv 1 bothNodes) (hostClaim "b" "vpu-rkvdec-1"))] ++ systemCalls 7 ++
    [.killInside { fate := .after "killed" }] ++
  [.boot hostFlags (hostEnv 2 []) []] ++ systemCalls 7

/-- The three operations that return do so on the stores as well. -/
theorem disk_refines_stores_killed : ∃ w Es W,
    run (DiskWorld.step plainExternal) {} (killedEvents ++ [.finish]) = some w ∧
    run (World.step plainExternal) {} Es = some W ∧
    World.history plainExternal {} Es =
      DiskWorld.history plainExternal {} (killedEvents ++ [.finish]) ∧
    (World.history plainExternal {} Es).length = 3 ∧ W.state = w.state ∧
    Stored w.disk W.ledger.toStore := by
  have hend : (run (DiskWorld.step plainExternal) {} (killedEvents ++ [.finish])).isSome = true :=
    by decide +kernel
  have hlength : (DiskWorld.history plainExternal {} (killedEvents ++ [.finish])).length = 3 := by
    decide +kernel
  obtain ⟨w, hw⟩ := Option.isSome_iff_exists.mp hend
  obtain ⟨Es, W, hW, hhistory, hstate, -, hstored⟩ :=
    disk_refines_stores plainExternal _ w hw (untorn_of_whole (by decide))
  exact ⟨w, Es, W, hw, hW, hhistory, hhistory ▸ hlength, hstate, hstored⟩

/-! ## What the files keep -/

/-- **Retention on the disk.** At every point of a run in which no `os.WriteFile` is cut short, both
files can be read. Every claim in the checkpoint has an entry in the claim devices, and a process
that is up tracks and publishes each device of the entry that has a name. -/
theorem disk_claims_retained (x : External) (es : List DiskEvent) (w : DiskWorld)
    (hrun : run (DiskWorld.step x) {} es = some w)
    (huntorn : Along (DiskWorld.step x) DiskWorld.Untorn {} es) :
    ∃ cp file, w.disk.readCheckpoint = .ok cp ∧ w.disk.readClaimDevices = .ok file ∧
      ∀ uid ∈ cp.preparedClaims, ∃ devs, file.claims[uid]? = some devs ∧
        ∀ s, w.state = some s → ∀ d ∈ devs, d.name ≠ "" →
          d.name ∈ s.tracked ∧ s.driverResources.Publishes d.name := by
  obtain ⟨Es, V, hV, hrefines, -⟩ := DiskWorld.refines_run hrun huntorn
  obtain ⟨Es', W, hW, hholds, hstate, -, -⟩ := hrefines.holds (x := x)
  have hreachable : W.Reachable x := by
    refine ⟨Es ++ Es', ?_⟩
    rw [run_append, hV]
    exact hW
  have hretained : Retained W.ledger W.state :=
    (hreachable.keeps (fun _ _ _ _ htransition hl => hl.transition htransition) Retained.init).2
  refine ⟨_, _, hholds.checkpoint, hholds.claimDevices, fun uid huid => ?_⟩
  obtain ⟨devs, hdevs, -⟩ := hretained.recorded uid huid
  refine ⟨devs, hdevs, fun s hs d hd hname => ?_⟩
  have htracked :=
    hretained.tracked s (hstate.trans hs) d ⟨uid, huid, devs, hdevs, hd⟩ hname
  exact ⟨htracked, hretained.published s (hstate.trans hs) _ htracked⟩

/-- The claim that was prepared before the kill keeps its device, which is gone by then. -/
theorem disk_claims_retained_killed : ∃ w cp file s devs,
    run (DiskWorld.step plainExternal) {} (killedEvents ++ [.finish]) = some w ∧
    w.disk.readCheckpoint = .ok cp ∧ w.disk.readClaimDevices = .ok file ∧ w.state = some s ∧
    cp.preparedClaims = ["a"] ∧ file.claims["a"]? = some devs ∧
    ∀ d ∈ devs, d.name ≠ "" → d.name ∈ s.tracked ∧ s.driverResources.Publishes d.name := by
  have hend : (run (DiskWorld.step plainExternal) {} (killedEvents ++ [.finish])).map (fun w =>
      (w.state.isSome, (w.disk.readCheckpoint.map Checkpoint.preparedClaims).toOption)) =
        some (true, some ["a"]) := by
    decide +kernel
  obtain ⟨w, hw, hup⟩ := Option.map_eq_some_iff.mp hend
  simp only [Prod.mk.injEq] at hup
  obtain ⟨s, hs⟩ := Option.isSome_iff_exists.mp hup.1
  obtain ⟨cp, file, hcp, hfile, hretained⟩ :=
    disk_claims_retained plainExternal _ w hw (untorn_of_whole (by decide))
  have hclaims : cp.preparedClaims = ["a"] := by
    have h := hup.2
    rw [hcp] at h
    exact Option.some.inj h
  obtain ⟨devs, hdevs, hpublished⟩ := hretained "a" (by rw [hclaims]; simp)
  exact ⟨w, cp, file, s, devs, hw, hcp, hfile, hs, hclaims, hdevs, hpublished s hs⟩

/-! ## What a reconcile repairs -/

/-- No entry of the claim devices is of a claim that is not prepared. -/
def Store.NoOrphans (σ : Store) : Prop :=
  ∀ uid ∈ σ.claimDevices.claims, uid ∈ σ.checkpoint.preparedClaims

section Repair

variable {x : External}

/-- What the programs of the operations establish when they run alone holds whenever one has
returned. -/
theorem World.returned_post {Q : DeviceState → Op → Result → Ledger → Prop}
    (hQ : ∀ s (op : Op) l, (op.program x s).run.Safe (op.machine s) Eq (op.Step s) (Q s op) l)
    {Es : List Event} {W : World} (hrun : run (World.step x) {} Es = some W) {s : DeviceState}
    {op : Op} {r : Result} (hrunning : W.running = some ⟨s, op, .ret r⟩) : Q s op r W.ledger := by
  -- What is left of the running operation establishes it.
  have hsafe : ∀ t, W.running = some t →
      t.rest.Safe (t.op.machine t.memory) Eq (t.op.Step t.memory) (Q t.memory t.op) W.ledger := by
    refine run_invariant (fun W : World => ∀ t, W.running = some t →
      t.rest.Safe (t.op.machine t.memory) Eq (t.op.Step t.memory) (Q t.memory t.op) W.ledger)
      ?_ (by rintro t ⟨⟩) hrun
    intro V e V' hV hstep
    cases e with
    | boot f env found =>
      simp only [World.step] at hstep
      split_ifs at hstep
      obtain rfl := Option.some.inj hstep
      rintro _ ⟨⟩
      exact hQ _ _ _
    | start op' =>
      simp only [World.step] at hstep
      split at hstep
      · obtain rfl := Option.some.inj hstep
        rintro _ ⟨⟩
        exact hQ _ _ _
      · cases hstep
    | command fault =>
      simp only [World.step] at hstep
      split at hstep
      · next s' op' c k hrunning' =>
        obtain rfl := Option.some.inj hstep
        rintro _ ⟨⟩
        exact ((hV _ hrunning').step (fun _ => rfl) fault).2
      · cases hstep
    | finish =>
      simp only [World.step] at hstep
      split at hstep
      · obtain rfl := Option.some.inj hstep
        rintro t ⟨⟩
      · cases hstep
    | crash =>
      obtain rfl := Option.some.inj hstep
      rintro t ⟨⟩
  exact (hsafe _ hrunning).done fun _ => rfl

/-- Pruned claim devices have no entries of claims that are not prepared. -/
theorem noOrphans_pruned (σ : Store) (o : MapOrder Loop) : (σ.pruned o).NoOrphans := by
  intro uid huid
  by_contra hne
  have hentry : (σ.pruned o).claimDevices.claims[uid]? = none := by
    refine (getElem?_pruneClaimDevices o σ.checkpoint σ.claimDevices uid).trans (if_neg hne)
  rw [Std.ExtTreeMap.mem_iff_isSome_getElem?, hentry] at huid
  cases huid

/-- A reconcile that succeeds leaves no entry of a claim that is not prepared. -/
theorem applyDiscoveryLocked_noOrphans (s : DeviceState) (env : Env) (found : List Device)
    (l : Ledger) :
    (s.applyDiscoveryLocked x env found).Alone ((Op.reconcile env found).machine s)
      (Op.Step s (.reconcile env found)) (fun _ l' => l'.NoOrphans) (fun _ _ => True) l := by
  refine Fallible.alone_bind (Fallible.alone_mapError (alone_read_faulty (.idle _ _) ?_))
  refine Fallible.alone_bind (Fallible.alone_mapError (alone_read_faulty (.idle _ _) ?_))
  change Fallible.Alone _ _ _ _
    (if (pruneClaimDevices env.order l.checkpoint l.claimDevices).1 then _ else _) _
  have hpruned := noOrphans_pruned l.toStore env.order
  split_ifs with hchanged
  · exact Fallible.alone_bind (Fallible.alone_mapError
      (alone_write_faulty (.idle _ _) (.prune env found _) (Fallible.alone_pure hpruned)))
  · rw [Store.pruned_eq_self hchanged] at hpruned
    exact Fallible.alone_pure hpruned

/-- What a reconcile has established when it returns without an error. -/
def Reconciles (_ : DeviceState) (op : Op) (r : Result) (l : Ledger) : Prop :=
  op.isReconcile = true → r.isOk = true → l.NoOrphans

theorem reconciles (s : DeviceState) (op : Op) (l : Ledger) :
    (op.program x s).run.Safe (op.machine s) Eq (op.Step s) (Reconciles s op) l := by
  cases op with
  | reconcile env found =>
    have halone : ((Op.reconcile env found).program x s).Alone ((Op.reconcile env found).machine s)
        (Op.Step s (.reconcile env found)) (fun _ l' => l'.NoOrphans) (fun _ _ => True) l := by
      refine Fallible.alone_bind (Fallible.Safe.mono (fun _ _ h => h) ?_ (fun _ _ h => h)
        (applyDiscoveryLocked_noOrphans s env found l))
      exact fun _ _ h => Fallible.alone_pure h
    refine Fallible.Safe.run (halone.mono (fun _ _ h => h) (fun _ _ h _ _ => h) ?_)
    intro e l' _ _ hok
    cases hok
  | prepare env claim =>
    refine (Op.program_safe x s _ l).mono (fun _ _ h => h) ?_
    intro r l' _ hop
    cases hop
  | unprepare uid =>
    refine (Op.program_safe x s _ l).mono (fun _ _ h => h) ?_
    intro r l' _ hop
    cases hop

/-- **Repair.** When a reconcile returns without an error, in a run on the disk in which no
`os.WriteFile` is cut short, both files can be read and list the same claims, whatever failed and
wherever processes were killed before. -/
theorem reconcile_heals_disk (x : External) (es : List DiskEvent) (w : DiskWorld)
    (hrun : run (DiskWorld.step x) {} es = some w)
    (huntorn : Along (DiskWorld.step x) DiskWorld.Untorn {} es) (env : Env) (found : List Device)
    (out : Outcome) (hreturns : w.returns .finish = some (.reconcile env found, .ok out)) :
    ∃ cp file, w.disk.readCheckpoint = .ok cp ∧ w.disk.readClaimDevices = .ok file ∧
      ∀ uid, uid ∈ file.claims ↔ uid ∈ cp.preparedClaims := by
  obtain ⟨Es, W, hW, hrefines, -⟩ := DiskWorld.refines_run hrun huntorn
  have hretained : Retained W.ledger W.state :=
    (World.Reachable.keeps (fun _ _ _ _ htransition hl => hl.transition htransition) Retained.init
      ⟨Es, hW⟩).2
  cases hrefines with
  | idle => cases hreturns
  | @busy d st l p rest rest' h =>
    cases rest with
    | call => cases hreturns
    | ret r =>
      obtain ⟨hop, rfl⟩ := Prod.mk.inj (Option.some.inj hreturns)
      obtain ⟨rfl, hholds⟩ := h.done
      -- The reconcile has pruned what is not prepared, and what is prepared has been retained.
      have hheals : Reconciles p.memory p.op (.ok out) l := World.returned_post reconciles hW rfl
      refine ⟨_, _, hholds.checkpoint, hholds.claimDevices,
        fun uid => ⟨fun huid => ?_, fun huid => ?_⟩⟩
      · exact hheals (by rw [hop]; rfl) rfl uid huid
      · obtain ⟨devs, hdevs, -⟩ := hretained.recorded uid huid
        rw [Std.ExtTreeMap.mem_iff_isSome_getElem?, hdevs]
        rfl

/-- The second process removes what the killed one left of its claim. -/
theorem reconcile_heals_disk_killed : ∃ w cp file,
    run (DiskWorld.step plainExternal) {} killedEvents = some w ∧
    w.disk.readCheckpoint = .ok cp ∧ w.disk.readClaimDevices = .ok file ∧
    (∀ uid, uid ∈ file.claims ↔ uid ∈ cp.preparedClaims) ∧ "b" ∉ file.claims := by
  have hend : (run (DiskWorld.step plainExternal) {} killedEvents).map (fun w =>
      ((w.returns .finish).map fun r => (r.1.isReconcile, r.2.isOk),
        (w.disk.readCheckpoint.map Checkpoint.preparedClaims).toOption)) =
          some (some (true, true), some ["a"]) := by
    decide +kernel
  obtain ⟨w, hw, hup⟩ := Option.map_eq_some_iff.mp hend
  simp only [Prod.mk.injEq, Option.map_eq_some_iff] at hup
  obtain ⟨⟨⟨op, r⟩, hreturns, hop, hok⟩, hread⟩ := hup
  cases op with
  | prepare => cases hop
  | unprepare => cases hop
  | reconcile env found =>
    cases r with
    | error => cases hok
    | ok out =>
      obtain ⟨cp, file, hcp, hfile, hheals⟩ := reconcile_heals_disk plainExternal _ w hw
        (untorn_of_whole (by decide)) env found out hreturns
      refine ⟨w, cp, file, hw, hcp, hfile, hheals, ?_⟩
      rw [hcp] at hread
      have hclaims : cp.preparedClaims = ["a"] := Option.some.inj hread
      rw [hheals, hclaims]
      decide

end Repair

end RockchipDra.Plugin
