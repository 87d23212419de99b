import RockchipDra.Plugin.Retry
import RockchipDra.Plugin.Serial

/-!
# The requests of the kubelet

`PrepareResourceClaims` and `UnprepareResourceClaims` of `cmd/kubeletplugin/driver.go`. A request is
a program over the calls that it makes: it goes through its claims in order, takes the mutex for one
at a time, and puts each result under the UID of its claim. A claim that fails does not end the
request. `Serving` runs such a program in a process, with the rediscovery loop and the health loop
going on, and with every fault of every command, and is a run of that process
(`Serving.run_process`). The helper serves one request at a time, so that only reconciles come in
between.

What the answer says holds when it is given: it has the UIDs of the request, a claim that is
answered as prepared is in all three stores with the devices of its allocation
(`prepare_answer_holds`), and one that is answered as unprepared is in none of them
(`unprepare_answer_holds`). Both loops are a `ClaimLoop`, and one invariant serves for both.
-/

namespace RockchipDra.Plugin

open Go Discovery Effect

/-! ## The programs of the requests -/

/-- The calls of a request: the operations on the state of the plugin, and `kickReconcile`. -/
inductive ClaimCall where
  | prepare (claim : ResourceClaim)
  | unprepare (uid : UID)
  | kickReconcile

/-- What a call returns. -/
@[reducible] def ClaimCall.Answer : ClaimCall → Type
  | .prepare _ => Except String (List PreparedDevice)
  | .unprepare _ => Except String Unit
  | .kickReconcile => Unit

/-- Programs over the calls of a request. -/
abbrev ClaimM := Prog ClaimCall.Answer

/-- `kubeletplugin.PrepareResult`: the devices, or the error. -/
abbrev PrepareResult := Except String (List KubeletDevice)

/-- The result for a claim, from what `Prepare` returned. -/
def prepareResult (uid : UID) : Except String (List PreparedDevice) → PrepareResult
  | .error err => .error ("error preparing devices for claim " ++ uid ++ ": " ++ err)
  | .ok preparedDevices => .ok (preparedDevices.map PreparedDevice.kubeletDevice)

/-- Prepare a claim of a request. -/
def prepareResourceClaim (claim : ResourceClaim) : ClaimM PrepareResult :=
  .call (.prepare claim) fun r => .ret (prepareResult claim.uid r)

/-- Unprepare a claim of a request. After a success the rediscovery loop is woken, so that a
retained device need not wait for the next poll. -/
def unprepareResourceClaim (uid : UID) : ClaimM (Except String Unit) :=
  .call (.unprepare uid) fun
    | .error err => .ret (.error ("error unpreparing devices for claim " ++ uid ++ ": " ++ err))
    | .ok () => .call .kickReconcile fun _ => .ret (.ok ())

/-- The loop of a request over its claims, with the results so far. A later result takes the place
of an earlier one of the same UID. -/
def forClaims {γ β : Type} (uid : γ → UID) (serve : γ → ClaimM β) :
    List γ → GoMap β → ClaimM (GoMap β)
  | [], result => .ret result
  | claim :: claims, result => do
    let r ← serve claim
    forClaims uid serve claims (result.insert (uid claim) r)

/-- Prepare the claims of a request. -/
def prepareResourceClaims (claims : List ResourceClaim) : ClaimM (GoMap PrepareResult) :=
  forClaims ResourceClaim.uid prepareResourceClaim claims ∅

/-- Unprepare the claims of a request, of which only the UIDs are used. -/
def unprepareResourceClaims (claims : List UID) : ClaimM (GoMap (Except String Unit)) :=
  forClaims id unprepareResourceClaim claims ∅

/-- A prepare of a single claim that runs alone returns the same result. -/
theorem DeviceState.eval_prepareResourceClaim_eq (x : External) (s : DeviceState) (env : Env)
    (claim : ResourceClaim) (f : Fault) (σ : Store) :
    ((s.prepareResourceClaim x env claim).run.eval faultyStore (fun _ => f) σ).1 =
      prepareResult claim.uid ((s.prepare x env claim).run.eval faultyStore (fun _ => f) σ).1 := by
  unfold DeviceState.prepareResourceClaim wrapError
  rw [Fallible.eval_bind_pure, Fallible.eval_mapError]
  generalize (s.prepare x env claim).run.eval faultyStore (fun _ => f) σ = r
  obtain ⟨err | devices, τ⟩ := r
  · simp only [Except.mapError, Except.map, prepareResult]
  · rfl

/-! ## A process that serves a request -/

/-- The operation that a call takes the mutex for. -/
def ClaimCall.op (env : Env) : ClaimCall → Option Op
  | .prepare claim => some (.prepare env claim)
  | .unprepare uid => some (.unprepare uid)
  | .kickReconcile => none

/-- What a call returns when its operation has returned. -/
def ClaimCall.answer : (c : ClaimCall) → Result → Option c.Answer
  | .prepare _, .ok (.prepared devices) => some (.ok devices)
  | .prepare _, .error err => some (.error err)
  | .unprepare _, .ok .unprepared => some (.ok ())
  | .unprepare _, .error err => some (.error err)
  | _, _ => none

/-- What is left of a request when an operation returns. The reconciles are not the request's. -/
def ClaimM.resume {α : Type} (op : Op) (r : Result) : ClaimM α → ClaimM α
  | .ret a => .ret a
  | .call c k =>
    if op.isReconcile then .call c k
    else
      match c.answer r with
      | some a => k a
      | none => .call c k

/-- A process that serves a request. -/
structure Serving (α : Type) where
  process : Process
  /-- What is left of the request. -/
  rest : ClaimM α
  /-- The operations for which the request has taken the mutex, with the memory of the process at
  that moment. -/
  locks : List (DeviceState × Op) := []

/-- What can happen while a request is served. -/
inductive ServingEvent where
  /-- The request takes the mutex for its next claim. -/
  | lock (env : Env)
  /-- The operation that holds the mutex issues its next command. -/
  | command (fault : Fault)
  /-- The operation that holds the mutex returns. -/
  | finish
  /-- The request runs `kickReconcile`. -/
  | kickReconcile
  /-- A step of the rediscovery loop. -/
  | loop (e : LoopEvent)
  /-- A step of the health loop. -/
  | watch (e : WatchEvent)

/-- The process that serves a request after an event, if the event is possible. -/
def Serving.step {α : Type} (x : External) (v : Serving α) : ServingEvent → Option (Serving α)
  | .lock env =>
    match v.rest, v.process.world.state with
    | .call c _, some s => (c.op env).bind fun op => (v.process.act x (.start op)).map fun p =>
      { v with process := p, locks := v.locks ++ [(s, op)] }
    | _, _ => none
  | .command fault =>
    (v.process.step x (.call (.command fault))).map fun p => { v with process := p }
  | .finish =>
    match v.process.world.returned with
    | some (op, r) => (v.process.step x .finish).map fun p =>
      { v with process := p, rest := v.rest.resume op r }
    | none => none
  | .kickReconcile =>
    match v.rest with
    | .call .kickReconcile k => (v.process.step x .kickReconcile).map fun p =>
      { v with process := p, rest := k () }
    | _ => none
  | .loop e => (v.process.step x (.loop e)).map fun p => { v with process := p }
  | .watch e => (v.process.step x (.watch e)).map fun p => { v with process := p }

/-- Every step of a process that serves a request is a step of the process. -/
theorem Serving.step_process {α : Type} {x : External} {v v' : Serving α} {e : ServingEvent}
    (h : v.step x e = some v') : ∃ e', v.process.step x e' = some v'.process := by
  cases e with
  | lock env =>
    simp only [Serving.step] at h
    split at h
    · next c k s hrest hs =>
      simp only [Option.bind_eq_some_iff, Option.map_eq_some_iff] at h
      obtain ⟨op, hop, p, hp, rfl⟩ := h
      cases c with
      | prepare claim =>
        cases hop
        exact ⟨.call (.prepare env claim), hp⟩
      | unprepare uid =>
        cases hop
        exact ⟨.call (.unprepare uid), hp⟩
      | kickReconcile => cases hop
    · cases h
  | command fault =>
    obtain ⟨p, hp, rfl⟩ := Option.map_eq_some_iff.mp h
    exact ⟨_, hp⟩
  | finish =>
    simp only [Serving.step] at h
    split at h
    · obtain ⟨p, hp, rfl⟩ := Option.map_eq_some_iff.mp h
      exact ⟨_, hp⟩
    · cases h
  | kickReconcile =>
    simp only [Serving.step] at h
    split at h
    · obtain ⟨p, hp, rfl⟩ := Option.map_eq_some_iff.mp h
      exact ⟨_, hp⟩
    · cases h
  | loop e =>
    obtain ⟨p, hp, rfl⟩ := Option.map_eq_some_iff.mp h
    exact ⟨_, hp⟩
  | watch e =>
    obtain ⟨p, hp, rfl⟩ := Option.map_eq_some_iff.mp h
    exact ⟨_, hp⟩

/-- Serving a request is a run of the process. -/
theorem Serving.run_process {α : Type} {x : External} {v v' : Serving α} {es : List ServingEvent}
    (h : run (Serving.step x) v es = some v') :
    ∃ es', run (Process.step x) v.process es' = some v'.process := by
  induction es generalizing v with
  | nil =>
    rw [run_nil, Option.some.injEq] at h
    exact ⟨[], by rw [run_nil, h]⟩
  | cons e es ih =>
    rw [run_cons, Option.bind_eq_some_iff] at h
    obtain ⟨u, hu, h⟩ := h
    obtain ⟨e', he'⟩ := Serving.step_process hu
    obtain ⟨es', hes'⟩ := ih h
    exact ⟨e' :: es', by rw [run_cons, he', Option.bind_some, hes']⟩

/-! ## What an operation leaves of the claims, with every fault -/

/-- A reconcile forgets nothing of a claim that is prepared, and records nothing of any. -/
structure Store.KeepsClaims (σ τ : Store) : Prop where
  checkpoint : τ.checkpoint = σ.checkpoint
  specs : τ.specs = σ.specs
  claimDevices : ∀ v, τ.claimDevices.claims[v]? = σ.claimDevices.claims[v]? ∨
    v ∉ σ.checkpoint.preparedClaims ∧ τ.claimDevices.claims[v]? = none

theorem Store.KeepsClaims.refl (σ : Store) : σ.KeepsClaims σ := ⟨rfl, rfl, fun _ => .inl rfl⟩

section Operations

variable {x : External} {σ τ : Store} {f : Flags} {u : UID}

/-- A prepared claim stays what it is, -/
theorem Store.KeepsClaims.claim_prepared (h : σ.KeepsClaims τ)
    (hu : u ∈ σ.checkpoint.preparedClaims) : τ.claim x f u = σ.claim x f u := by
  unfold Store.claim
  rw [h.checkpoint, h.specs]
  rcases h.claimDevices u with hsame | ⟨hnot, -⟩
  · rw [hsame]
  · exact absurd hu hnot

/-- and one that is in no store does not come back. -/
theorem Store.KeepsClaims.claim_gone (h : σ.KeepsClaims τ)
    (hu : σ.claim x f u = (false, none, none)) : τ.claim x f u = (false, none, none) := by
  simp only [Store.claim, Prod.mk.injEq, decide_eq_false_iff_not] at hu ⊢
  obtain ⟨hmem, hdevs, hspec⟩ := hu
  refine ⟨h.checkpoint ▸ hmem, ?_, h.specs ▸ hspec⟩
  rcases h.claimDevices u with hsame | ⟨-, hnone⟩
  · rw [hsame, hdevs]
  · exact hnone

/-- Every command of a reconcile keeps the claims, and the memory that it leaves has the flags. -/
theorem reconcile_faulty (x : External) (s : DeviceState) (env : Env) (found : List Device)
    (σ : Store) :
    ((Op.reconcile env found).program x s).Alone faultyStore Store.KeepsClaims
      (fun out _ => (out.memory s).flags = s.flags) (fun _ _ => True) σ := by
  refine Fallible.alone_bind (Fallible.alone_bind (Fallible.alone_mapError
    (readCheckpoint_faulty (Store.KeepsClaims.refl σ) ?_)))
  refine Fallible.alone_bind (Fallible.alone_mapError
    (readClaimDevices_faulty (Store.KeepsClaims.refl σ) ?_))
  change Fallible.Alone _ _ _ _
    (if (pruneClaimDevices env.order σ.checkpoint σ.claimDevices).1 then _ else _) _
  split_ifs
  · refine Fallible.alone_bind (Fallible.alone_mapError (write_faulty (Store.KeepsClaims.refl σ)
      ?_ (Fallible.alone_pure (Fallible.alone_pure rfl))))
    refine ⟨rfl, rfl, fun v => ?_⟩
    change (pruneClaimDevices env.order σ.checkpoint σ.claimDevices).2.claims[v]? = _ ∨ _ ∧
      (pruneClaimDevices env.order σ.checkpoint σ.claimDevices).2.claims[v]? = _
    rw [getElem?_pruneClaimDevices]
    by_cases hv : v ∈ σ.checkpoint.preparedClaims
    · exact .inl (if_pos hv)
    · exact .inr ⟨hv, if_neg hv⟩
  · exact Fallible.alone_pure (Fallible.alone_pure rfl)

/-- What a command of an operation spares: a prepare or an unprepare the other claims, and a
reconcile all of them. -/
def Op.Spares (x : External) (s : DeviceState) (op : Op) (σ τ : Store) : Prop :=
  match op.uid with
  | none => σ.KeepsClaims τ
  | some uid => τ.others uid (specName x s.flags uid) = σ.others uid (specName x s.flags uid)

/-- What holds at the end of an operation: a success keeps the flags and settles the claim. -/
def Op.Returns (x : External) (s : DeviceState) (op : Op) (r : Result) (τ : Store) : Prop :=
  ∀ out, r = .ok out → (out.memory s).flags = s.flags ∧ ∀ uid ∈ op.uid, op.Settles x s uid out τ

/-- Every command of an operation spares the claims that are not its own. -/
theorem Op.program_spares (x : External) (s : DeviceState) (op : Op) (σ : Store) :
    (op.program x s).run.Safe faultyStore Eq (op.Spares x s) (op.Returns x s) σ := by
  -- A prepare and an unprepare that succeed have settled their claim, so they are not reconciles.
  have hsettled : ∀ uid out τ, op.uid = some uid → op.Settles x s uid out τ →
      op.Returns x s (.ok out) τ := by
    rintro uid out τ huid hout _ ⟨⟩
    refine ⟨?_, fun v hv => ?_⟩
    · cases out with
      | prepared devices => rfl
      | unprepared => rfl
      | reconciled result next => cases op <;> exact hout.elim
    · rw [huid] at hv
      cases hv
      exact hout
  cases op with
  | reconcile env found =>
    refine Fallible.Safe.run (Fallible.Safe.mono (fun _ _ h => h) ?_ ?_
      (reconcile_faulty x s env found σ))
    · rintro out τ hflags _ ⟨⟩
      exact ⟨hflags, by rintro _ ⟨⟩⟩
    · rintro e τ - _ ⟨⟩
  | prepare env claim =>
    refine Fallible.Safe.run (Fallible.Safe.mono (fun _ _ h => h)
      (fun out τ h => hsettled _ out τ rfl h) ?_ ((Op.prepare env claim).attempt_faulty x s rfl σ))
    rintro e τ - _ ⟨⟩
  | unprepare uid =>
    refine Fallible.Safe.run (Fallible.Safe.mono (fun _ _ h => h)
      (fun out τ h => hsettled _ out τ rfl h) ?_ ((Op.unprepare uid).attempt_faulty x s rfl σ))
    rintro e τ - _ ⟨⟩

/-! ## The operation that holds the mutex -/

/-- What is left of the operation that holds the mutex spares the claims that are not its own. -/
def World.Spares (x : External) (w : World) : Prop :=
  ∀ t, w.running = some t → Serves w.state t.memory t.op ∧
    t.rest.Safe faultyStore Eq (t.op.Spares x t.memory) (t.op.Returns x t.memory) w.ledger.toStore

variable {w w' : World}

/-- A command spares the claims that are not its operation's. -/
theorem World.Spares.command (hw : w.Spares x) {fault : Fault}
    (h : w.step x (.command fault) = some w') :
    ∃ s op p p', w.running = some ⟨s, op, p⟩ ∧ w'.running = some ⟨s, op, p'⟩ ∧
      w'.state = w.state ∧ op.Spares x s w.ledger.toStore w'.ledger.toStore ∧ w'.Spares x := by
  simp only [World.step] at h
  split at h
  · next s op c k hrunning =>
    obtain rfl := Option.some.inj h
    obtain ⟨hserves, hsafe⟩ := hw _ hrunning
    obtain ⟨hspares, hrest⟩ := hsafe.step (fun _ => rfl) fault
    obtain ⟨hanswer, hstore⟩ := Op.machine_faultyStore s op c fault w.ledger
    refine ⟨s, op, _, _, hrunning, rfl, rfl, ?_, ?_⟩
    · dsimp only
      rw [hstore]
      exact hspares
    · rintro _ ⟨⟩
      refine ⟨hserves, ?_⟩
      dsimp only
      rw [hstore, hanswer]
      exact hrest
  · cases h

/-- An operation that returns has reached its end, and leaves the stores as they are. -/
theorem World.Spares.finish (hw : w.Spares x) (h : w.step x .finish = some w') :
    ∃ s op r, w.running = some ⟨s, op, .ret r⟩ ∧ Serves w.state s op ∧
      op.Returns x s r w.ledger.toStore ∧
      w' = { w with state := memoryAfter s w.state r, running := none } := by
  simp only [World.step] at h
  split at h
  · next s op r hrunning =>
    obtain ⟨hserves, hsafe⟩ := hw _ hrunning
    exact ⟨s, op, r, hrunning, hserves, hsafe.done fun _ => rfl, (Option.some.inj h).symm⟩
  · cases h

/-- An operation starts when the mutex is free, on the memory of a process that is up. -/
theorem World.step_start {op : Op} (h : w.step x (.start op) = some w') :
    ∃ s, w.state = some s ∧ w.running = none ∧
      w' = { w with running := some (.start x s op) } := by
  simp only [World.step] at h
  split at h
  · next s hs hrunning => exact ⟨s, hs, hrunning, (Option.some.inj h).symm⟩
  · cases h

/-- Every step keeps this so. -/
theorem World.Spares.step (hw : w.Spares x) {e : Event} (h : w.step x e = some w') :
    w'.Spares x := by
  cases e with
  | boot env found =>
    simp only [World.step, Option.isNone_iff_eq_none] at h
    split_ifs at h with hdown
    obtain rfl := Option.some.inj h
    rintro _ ⟨⟩
    refine ⟨?_, Op.program_spares x _ _ _⟩
    dsimp only
    rw [hdown.1]
    exact .booting ..
  | start op =>
    obtain ⟨s, hs, -, rfl⟩ := World.step_start h
    rintro _ ⟨⟩
    refine ⟨?_, Op.program_spares x s op _⟩
    dsimp only
    rw [hs]
    exact .up s op
  | command fault =>
    obtain ⟨s, op, p, p', -, -, -, -, hw'⟩ := hw.command h
    exact hw'
  | finish =>
    obtain ⟨s, op, r, -, -, -, rfl⟩ := hw.finish h
    rintro t ⟨⟩
  | crash =>
    obtain rfl := Option.some.inj h
    rintro t ⟨⟩

end Operations

/-- Every process spares the claims that are not its running operation's. -/
theorem Process.spares_step {x : External} {p q : Process} {e : ProcessEvent}
    (hp : p.world.Spares x) (h : p.step x e = some q) : q.world.Spares x := by
  rcases Process.step_world h with hworld | ⟨e', -, hstep⟩
  · rw [hworld]
    exact hp
  · exact hp.step hstep

theorem Process.spares_of_run {x : External} {l : Ledger} {es : List ProcessEvent} {p : Process}
    (h : run (Process.step x) { world := { ledger := l } } es = some p) : p.world.Spares x :=
  run_invariant (fun p => p.world.Spares x) (fun _ _ _ hp hstep => Process.spares_step hp hstep)
    (by rintro t ⟨⟩) h

/-! ## The loop over the claims of a request -/

/-- The loop of a request over its claims: what it calls for a claim, how it goes on, and what its
result says of the stores. The flags of the process are `f`. -/
structure ClaimLoop (x : External) (f : Flags) (γ β : Type) where
  uid : γ → UID
  call : γ → ClaimCall
  /-- What follows the call. -/
  answered : (c : γ) → (call c).Answer → ClaimM β
  /-- The operation of the call. -/
  op : Env → γ → Op
  /-- What a result says of its claim, given the operations for which the mutex was taken. -/
  Says : List (DeviceState × Op) → Store → UID → β → Prop
  op_uid : ∀ env c, (op env c).uid = some (uid c)
  call_op : ∀ env c, (call c).op env = some (op env c)
  call_ne : ∀ c, call c ≠ .kickReconcile
  /-- When the operation has returned, the call is answered. The result follows, after
  `kickReconcile` or at once, and what it says holds. -/
  settles : ∀ {s env c r σ}, s.flags = f → (op env c).Returns x s r σ →
    ∃ a b, (call c).answer r = some a ∧
      (answered c a = .ret b ∨ answered c a = .call .kickReconcile fun _ => .ret b) ∧
      ∀ locks, (s, op env c) ∈ locks → Says locks σ (uid c) b
  mono : ∀ {locks locks' σ u b}, locks ⊆ locks' → Says locks σ u b → Says locks' σ u b
  /-- What a result says goes on to hold while the claim is spared. -/
  stable : ∀ {locks σ τ u b}, σ.KeepsClaims τ ∨ τ.claim x f u = σ.claim x f u →
    Says locks σ u b → Says locks τ u b

section ClaimLoop

variable {x : External} {f : Flags} {γ β : Type} (L : ClaimLoop x f γ β)

/-- What is left of the request. -/
def ClaimLoop.program (claims : List γ) (result : GoMap β) : ClaimM (GoMap β) :=
  forClaims L.uid (fun c => .call (L.call c) (L.answered c)) claims result

/-- A request that has a claim to serve does not run `kickReconcile` first. -/
theorem ClaimLoop.program_ne_kick {c : γ} {todo : List γ} {result : GoMap β}
    {k : Unit → ClaimM (GoMap β)}
    (h : (.call .kickReconcile k : ClaimM (GoMap β)) = L.program (c :: todo) result) : False := by
  have hcall : ClaimCall.kickReconcile = L.call c := (Prog.call.inj h).1
  exact L.call_ne c hcall.symm

/-- The claims that have been served, each by an operation of its own, and their results. -/
structure ClaimLoop.Served (locks : List (DeviceState × Op)) (done : List γ) (result : GoMap β) :
    Prop where
  locks : List.Forall₂ (fun l c => ∃ env, l.2 = L.op env c) locks done
  keys : ∀ u, u ∈ result ↔ u ∈ done.map L.uid

variable {L}

/-- One more claim is served. -/
theorem ClaimLoop.Served.snoc {locks : List (DeviceState × Op)} {done : List γ} {result : GoMap β}
    (h : L.Served locks done result) (s : DeviceState) (env : Env) (c : γ) (b : β) :
    L.Served (locks ++ [(s, L.op env c)]) (done ++ [c]) (result.insert (L.uid c) b) where
  locks := List.rel_append h.locks (.cons ⟨env, rfl⟩ .nil)
  keys u := by
    rw [Std.ExtTreeMap.mem_iff_isSome_getElem?, Maps.getElem?_insert, List.map_append,
      List.mem_append, ← h.keys, Std.ExtTreeMap.mem_iff_isSome_getElem?]
    by_cases hu : L.uid c = u
    · simp [hu]
    · simp [hu, Ne.symm hu]

variable (L)

/-- Where a request is. -/
inductive ClaimLoop.At (claims : List γ) (v : Serving (GoMap β)) : Prop
  /-- Between two claims, where it has not taken the mutex, perhaps before `kickReconcile`. -/
  | between (done todo : List γ) (result : GoMap β) (hclaims : claims = done ++ todo)
      (hserved : L.Served v.locks done result)
      (hrest : v.rest = L.program todo result ∨
        v.rest = .call .kickReconcile fun _ => L.program todo result)
      (hrunning : ∀ t, v.process.world.running = some t → t.op.isReconcile = true)
      (hentry : ∀ u b, result[u]? = some b → L.Says v.locks v.process.world.ledger.toStore u b)
  /-- In the operation of a claim, which may undo what an earlier result says of this claim. -/
  | within (done : List γ) (c : γ) (todo : List γ) (result : GoMap β)
      (locks : List (DeviceState × Op)) (s : DeviceState) (env : Env)
      (p : Prog StoreAnswer Result) (hclaims : claims = done ++ c :: todo)
      (hserved : L.Served locks done result) (hlocks : v.locks = locks ++ [(s, L.op env c)])
      (hrest : v.rest = L.program (c :: todo) result)
      (hrunning : v.process.world.running = some ⟨s, L.op env c, p⟩)
      (hentry : ∀ u ≠ L.uid c, ∀ b, result[u]? = some b →
        L.Says v.locks v.process.world.ledger.toStore u b)

/-- What holds of a process that serves a request. -/
structure ClaimLoop.Inv (claims : List γ) (v : Serving (GoMap β)) : Prop where
  spares : v.process.world.Spares x
  up : ∃ s, v.process.world.state = some s ∧ s.flags = f
  position : L.At claims v

theorem isReconcile_of_uid {op : Op} {uid : UID} (h : op.uid = some uid) :
    op.isReconcile = false := by
  cases op with
  | prepare env claim => rfl
  | unprepare v => rfl
  | reconcile env found => cases h

theorem uid_of_isReconcile {op : Op} (h : op.isReconcile = true) : op.uid = none := by
  cases op with
  | prepare env claim => cases h
  | unprepare v => cases h
  | reconcile env found => rfl

/-- The return of a reconcile answers nothing. -/
theorem ClaimM.resume_of_isReconcile {α : Type} {op : Op} (h : op.isReconcile = true) (r : Result)
    (rest : ClaimM α) : rest.resume op r = rest := by
  cases rest with
  | ret a => rfl
  | call c k => exact if_pos h

/-- The return of the operation of a claim answers the call for it. -/
theorem ClaimLoop.resume_program {c : γ} {todo : List γ} {result : GoMap β} {env : Env} {r : Result}
    {a : (L.call c).Answer} (h : (L.call c).answer r = some a) :
    (L.program (c :: todo) result).resume (L.op env c) r =
      (L.answered c a).bind fun b => L.program todo (result.insert (L.uid c) b) := by
  change (if (L.op env c).isReconcile then _ else _) = _
  rw [isReconcile_of_uid (L.op_uid env c), h]
  rfl

/-- The result of a claim is new, and the other ones hold as before. -/
theorem ClaimLoop.says_insert {locks : List (DeviceState × Op)} {σ : Store} {c : γ} {b : β}
    {result : GoMap β} (hnew : L.Says locks σ (L.uid c) b)
    (hentry : ∀ u ≠ L.uid c, ∀ b, result[u]? = some b → L.Says locks σ u b) (u : UID) (b' : β)
    (h : (result.insert (L.uid c) b)[u]? = some b') : L.Says locks σ u b' := by
  rw [Maps.getElem?_insert] at h
  split_ifs at h with hu
  · obtain rfl := Option.some.inj h
    subst hu
    exact hnew
  · exact hentry u (Ne.symm hu) b' h

variable {L} {claims : List γ} {v v' : Serving (GoMap β)}

/-- The steps of the process that leave the mutex, the stores and the memory as they are. -/
theorem ClaimLoop.Inv.frame (h : L.Inv claims v) {p : Process}
    (hworld : p.world = v.process.world) : L.Inv claims { v with process := p } := by
  obtain ⟨hspares, hup, hat⟩ := h
  refine ⟨by rw [hworld]; exact hspares, by rw [hworld]; exact hup, ?_⟩
  cases hat with
  | between done todo result hclaims hserved hrest hrunning hentry =>
    exact .between done todo result hclaims hserved hrest (by rw [hworld]; exact hrunning)
      (by rw [hworld]; exact hentry)
  | within done c todo result locks s env p hclaims hserved hlocks hrest hrunning hentry =>
    exact .within done c todo result locks s env p hclaims hserved hlocks hrest
      (by rw [hworld]; exact hrunning) (by rw [hworld]; exact hentry)

/-- The rediscovery loop takes the mutex, if the request has not. -/
theorem ClaimLoop.Inv.reconcile (h : L.Inv claims v) {p : Process} {env : Env}
    {found : List Device} {w : World}
    (hstep : v.process.world.step x (.start (.reconcile env found)) = some w)
    (hworld : p.world = w) : L.Inv claims { v with process := p } := by
  obtain ⟨hspares, hup, hat⟩ := h
  have hspares' := hspares.step hstep
  obtain ⟨s, -, hfree, rfl⟩ := World.step_start hstep
  refine ⟨by rw [hworld]; exact hspares', by rw [hworld]; exact hup, ?_⟩
  cases hat with
  | between done todo result hclaims hserved hrest hrunning hentry =>
    refine .between done todo result hclaims hserved hrest ?_ (by rw [hworld]; exact hentry)
    rw [hworld]
    rintro _ ⟨⟩
    rfl
  | within done c todo result locks s env p hclaims hserved hlocks hrest hrunning hentry =>
    rw [hfree] at hrunning
    cases hrunning

/-- The request takes the mutex for its next claim. -/
theorem ClaimLoop.Inv.lock (h : L.Inv claims v) {env : Env}
    (hstep : v.step x (.lock env) = some v') : L.Inv claims v' := by
  obtain ⟨hspares, ⟨s, hs, hflags⟩, hat⟩ := h
  simp only [Serving.step, hs] at hstep
  split at hstep
  · next c k s' hrest hs' =>
    cases hs'
    simp only [Option.bind_eq_some_iff, Option.map_eq_some_iff] at hstep
    obtain ⟨op, hop, p, hp, rfl⟩ := hstep
    obtain ⟨w, hw, rfl⟩ := Process.act_eq_some hp
    have hspares' := hspares.step hw
    obtain ⟨s', hs', hfree, rfl⟩ := World.step_start hw
    obtain rfl := Option.some.inj (hs.symm.trans hs')
    cases hat with
    | between done todo result hclaims hserved hrest' hrunning hentry =>
      rcases hrest' with hrest' | hrest'
      · cases todo with
        | nil => cases hrest.symm.trans hrest'
        | cons c' todo =>
          cases hrest.symm.trans hrest'
          obtain rfl := Option.some.inj (hop.symm.trans (L.call_op env c'))
          refine ⟨hspares', ⟨s, hs, hflags⟩, .within done c' todo result v.locks s env _ hclaims
            hserved rfl hrest rfl ?_⟩
          exact fun u _ b hb => L.mono (List.subset_append_left _ _) (hentry u b hb)
      · cases hrest.symm.trans hrest'
        cases hop
    | within done c todo result locks s env p hclaims hserved hlocks hrest hrunning hentry =>
      rw [hfree] at hrunning
      cases hrunning
  · cases hstep

/-- A command spares what the results say. -/
theorem ClaimLoop.Inv.command (hx : x.NamesApart) (hplain : ∀ c ∈ claims, PlainID (L.uid c))
    (h : L.Inv claims v) {fault : Fault} (hstep : v.step x (.command fault) = some v') :
    L.Inv claims v' := by
  obtain ⟨hspares, ⟨s₀, hs₀, hflags₀⟩, hat⟩ := h
  obtain ⟨p, hp, rfl⟩ := Option.map_eq_some_iff.mp hstep
  obtain ⟨w, hw, rfl⟩ := Process.act_eq_some hp
  obtain ⟨s, op, rest, rest', hrunning, hrunning', hstate, hop, hspares'⟩ := hspares.command hw
  refine ⟨hspares', ⟨s₀, hstate.trans hs₀, hflags₀⟩, ?_⟩
  cases hat with
  | between done todo result hclaims hserved hrest hreconcile hentry =>
    have hreconcile' : op.isReconcile = true := hreconcile _ hrunning
    simp only [Op.Spares, uid_of_isReconcile hreconcile'] at hop
    refine .between done todo result hclaims hserved hrest ?_
      fun u b hb => L.stable (.inl hop) (hentry u b hb)
    intro t ht
    cases hrunning'.symm.trans ht
    exact hreconcile'
  | within done c todo result locks s' env p' hclaims hserved hlocks hrest hrunning'' hentry =>
    cases hrunning.symm.trans hrunning''
    simp only [Op.Spares, L.op_uid] at hop
    refine .within done c todo result locks s env rest' hclaims hserved hlocks hrest hrunning' ?_
    -- The other results are for other claims of the request, which the operation spares.
    intro u hu b hb
    refine L.stable (.inr ?_) (hentry u hu b hb)
    have hserves := (hspares _ hrunning).1.state_eq (isReconcile_of_uid (L.op_uid env c))
    obtain rfl := Option.some.inj (hs₀.symm.trans hserves)
    rw [hflags₀] at hop
    have hmem : u ∈ result := by
      rw [Std.ExtTreeMap.mem_iff_isSome_getElem?, hb]
      rfl
    obtain ⟨c', hc', rfl⟩ := List.mem_map.mp ((hserved.keys u).mp hmem)
    refine Store.claim_of_others hx hop (hplain c ?_) (hplain c' ?_) hu
    · rw [hclaims]
      simp
    · rw [hclaims]
      simp [hc']

/-- An operation that returns answers the call of the request, unless it is a reconcile. -/
theorem ClaimLoop.Inv.finish (h : L.Inv claims v) (hstep : v.step x .finish = some v') :
    L.Inv claims v' := by
  obtain ⟨hspares, ⟨s₀, hs₀, hflags₀⟩, hat⟩ := h
  simp only [Serving.step] at hstep
  split at hstep
  · next op' r' hreturned =>
    obtain ⟨p, hp, rfl⟩ := Option.map_eq_some_iff.mp hstep
    obtain ⟨-, -, w, -, hw, rfl⟩ := Process.step_finish hp
    have hspares' := hspares.step hw
    obtain ⟨s, op, r, hrunning, hserves, hends, rfl⟩ := hspares.finish hw
    simp only [World.returned, hrunning, Option.some.injEq, Prod.mk.injEq] at hreturned
    obtain ⟨rfl, rfl⟩ := hreturned
    -- The operation ran on the memory of the process, and a success leaves the flags.
    obtain rfl : s₀ = s := by
      rw [hs₀] at hserves
      cases hserves
      rfl
    have hup : ∃ s', memoryAfter s₀ v.process.world.state r = some s' ∧ s'.flags = f := by
      cases r with
      | ok out => exact ⟨_, rfl, (hends out rfl).1.trans hflags₀⟩
      | error e => exact ⟨s₀, hs₀, hflags₀⟩
    refine ⟨hspares', hup, ?_⟩
    cases hat with
    | between done todo result hclaims hserved hrest hreconcile hentry =>
      refine .between done todo result hclaims hserved ?_ ?_ hentry
      · dsimp only
        rw [ClaimM.resume_of_isReconcile (hreconcile _ hrunning)]
        exact hrest
      · rintro t ⟨⟩
    | within done c todo result locks s env p hclaims hserved hlocks hrest hrunning' hentry =>
      cases hrunning.symm.trans hrunning'
      obtain ⟨a, b, hanswer, hanswered, hsaid⟩ := L.settles hflags₀ hends
      refine .between (done ++ [c]) todo (result.insert (L.uid c) b) (by simp [hclaims]) ?_ ?_ ?_
        (L.says_insert (hsaid _ (by simp [hlocks])) hentry)
      · dsimp only
        rw [hlocks]
        exact hserved.snoc s₀ env c b
      · dsimp only
        rw [hrest, L.resume_program hanswer]
        rcases hanswered with hanswered | hanswered
        · rw [hanswered]
          exact .inl rfl
        · rw [hanswered]
          exact .inr rfl
      · rintro t ⟨⟩
  · cases hstep

/-- Every step of a process that serves a request keeps what holds of it. -/
theorem ClaimLoop.Inv.step (hx : x.NamesApart) (hplain : ∀ c ∈ claims, PlainID (L.uid c))
    (h : L.Inv claims v) {e : ServingEvent} (hstep : v.step x e = some v') : L.Inv claims v' := by
  cases e with
  | lock env => exact h.lock hstep
  | command fault => exact h.command hx hplain hstep
  | finish => exact h.finish hstep
  | kickReconcile =>
    simp only [Serving.step] at hstep
    split at hstep
    · next k hrest =>
      obtain ⟨p, hp, rfl⟩ := Option.map_eq_some_iff.mp hstep
      simp only [Process.step, Option.ite_none_right_eq_some, Option.some.injEq] at hp
      obtain ⟨-, rfl⟩ := hp
      obtain ⟨hspares, hup, hat⟩ := h
      refine ⟨hspares, hup, ?_⟩
      cases hat with
      | between done todo result hclaims hserved hrest' hrunning hentry =>
        rcases hrest' with hrest' | hrest'
        · cases todo with
          | nil => cases hrest.symm.trans hrest'
          | cons c todo => exact (L.program_ne_kick (hrest.symm.trans hrest')).elim
        · cases hrest.symm.trans hrest'
          exact .between done todo result hclaims hserved (.inl rfl) hrunning hentry
      | within done c todo result locks s env p hclaims hserved hlocks hrest' hrunning hentry =>
        exact (L.program_ne_kick (hrest.symm.trans hrest')).elim
    · cases hstep
  | loop e =>
    obtain ⟨p, hp, rfl⟩ := Option.map_eq_some_iff.mp hstep
    rcases Process.stepLoop_cases hp with ⟨env, found, rfl⟩ | ⟨hworld, -, -⟩
    · obtain ⟨-, w, hw, rfl⟩ := Process.stepLoop_lock hp
      exact h.reconcile hw rfl
    · exact h.frame hworld
  | watch e =>
    obtain ⟨p, hp, rfl⟩ := Option.map_eq_some_iff.mp hstep
    exact h.frame (Process.stepWatch_frame hp).1

end ClaimLoop

/-! ## Preparing and unpreparing the claims of a request -/

/-- What a result of a prepare says of its claim. Devices say that the claim was prepared with the
flags `f` by one of the operations `locks`: they are the devices of its allocation, as the memory of
this operation tracked them, and all three stores hold the claim with exactly these. -/
def PreparedAs (x : External) (f : Flags) (locks : List (DeviceState × Op)) (σ : Store)
    (uid : UID) : PrepareResult → Prop
  | .error e => ∃ err, e = "error preparing devices for claim " ++ uid ++ ": " ++ err
  | .ok devices => ∃ s env claim results prepared, (s, Op.prepare env claim) ∈ locks ∧
      claim.uid = uid ∧ s.flags = f ∧ claim.allocation = some results ∧
      devices = prepared.map PreparedDevice.kubeletDevice ∧
      σ.Holds x f env.stat uid prepared ∧
      s.Prepares x env uid (ownResults f.driverName results) prepared σ

/-- What a result of an unprepare says of its claim: without an error, it is in none of the
stores. -/
def UnpreparedAs (x : External) (f : Flags) (σ : Store) (uid : UID) : Except String Unit → Prop
  | .error e => ∃ err, e = "error unpreparing devices for claim " ++ uid ++ ": " ++ err
  | .ok () => σ.claim x f uid = (false, none, none)

section Loops

variable {x : External} {f : Flags} {σ τ : Store} {uid : UID}

/-- What the stores hold of a claim depends on the claim alone. -/
theorem Store.Holds.congr {stat : String → Option FileInfo} {devices : List PreparedDevice}
    (h : σ.Holds x f stat uid devices) (hclaim : τ.claim x f uid = σ.claim x f uid) :
    τ.Holds x f stat uid devices := by
  simp only [Store.claim, Prod.mk.injEq, decide_eq_decide] at hclaim
  obtain ⟨hmem, hentry, hspec⟩ := hclaim
  exact ⟨hmem.mpr h.checkpoint, hentry.trans h.claimDevices, hspec ▸ h.spec⟩

/-- What is said of a prepared claim holds while the claim is spared, -/
theorem PreparedAs.stable {locks : List (DeviceState × Op)} {r : PrepareResult}
    (hspared : σ.KeepsClaims τ ∨ τ.claim x f uid = σ.claim x f uid)
    (h : PreparedAs x f locks σ uid r) : PreparedAs x f locks τ uid r := by
  cases r with
  | error e => exact h
  | ok devices =>
    obtain ⟨s, env, claim, results, prepared, hlock, huid, rfl, hresults, hdevices, hholds,
      hprepares⟩ := h
    have hclaim : τ.claim x s.flags uid = σ.claim x s.flags uid :=
      hspared.elim (fun hkeeps => hkeeps.claim_prepared hholds.checkpoint) id
    exact ⟨s, env, claim, results, prepared, hlock, huid, rfl, hresults, hdevices,
      hholds.congr hclaim, hprepares.congr hclaim⟩

/-- and so does what is said of an unprepared one. -/
theorem UnpreparedAs.stable {r : Except String Unit}
    (hspared : σ.KeepsClaims τ ∨ τ.claim x f uid = σ.claim x f uid)
    (h : UnpreparedAs x f σ uid r) : UnpreparedAs x f τ uid r := by
  cases r with
  | error e => exact h
  | ok _ => exact hspared.elim (fun hkeeps => hkeeps.claim_gone h) fun hclaim => hclaim.trans h

end Loops

/-- The loop of `PrepareResourceClaims`. -/
def prepareLoop (x : External) (f : Flags) : ClaimLoop x f ResourceClaim PrepareResult where
  uid := ResourceClaim.uid
  call := .prepare
  answered claim r := .ret (prepareResult claim.uid r)
  op := .prepare
  Says := PreparedAs x f
  op_uid _ _ := rfl
  call_op _ _ := rfl
  call_ne _ := nofun
  settles := by
    rintro s env claim (err | out) σ hflags hends
    · exact ⟨_, _, rfl, .inl rfl, fun _ _ => ⟨err, rfl⟩⟩
    · have hsettles := (hends out rfl).2 claim.uid rfl
      cases out with
      | prepared devices =>
        obtain ⟨hholds, results, hresults, hprepares⟩ := hsettles
        subst hflags
        exact ⟨_, _, rfl, .inl rfl, fun locks hlock =>
          ⟨s, env, claim, results, devices, hlock, rfl, rfl, hresults, rfl, hholds, hprepares⟩⟩
      | unprepared => exact hsettles.elim
      | reconciled result next => exact hsettles.elim
  mono := by
    rintro locks locks' σ u (err | devices) hsub h
    · exact h
    · obtain ⟨s, env, claim, results, prepared, hlock, hrest⟩ := h
      exact ⟨s, env, claim, results, prepared, hsub hlock, hrest⟩
  stable := PreparedAs.stable

/-- The loop of `UnprepareResourceClaims`. -/
def unprepareLoop (x : External) (f : Flags) : ClaimLoop x f UID (Except String Unit) where
  uid := id
  call := .unprepare
  answered uid
    | .error err => .ret (.error ("error unpreparing devices for claim " ++ uid ++ ": " ++ err))
    | .ok () => .call .kickReconcile fun _ => .ret (.ok ())
  op _ := .unprepare
  Says _ := UnpreparedAs x f
  op_uid _ _ := rfl
  call_op _ _ := rfl
  call_ne _ := nofun
  settles := by
    rintro s env uid (err | out) σ hflags hends
    · exact ⟨_, _, rfl, .inl rfl, fun _ _ => ⟨err, rfl⟩⟩
    · have hsettles := (hends out rfl).2 uid rfl
      cases out with
      | prepared devices => exact hsettles.elim
      | unprepared =>
        refine ⟨_, .ok (), rfl, .inr rfl, fun _ _ => ?_⟩
        have hgone : σ = σ.unprepared uid (specName x s.flags uid) := hsettles
        change σ.claim x f uid = (false, none, none)
        rw [hgone, ← hflags]
        simp [Store.claim, Store.unprepared]
      | reconciled result next => exact hsettles.elim
  mono _ h := h
  stable := UnpreparedAs.stable

/-- The answer to a request, once nothing is left of it. -/
def Serving.answer {α : Type} (v : Serving α) : Option α :=
  match v.rest with
  | .ret a => some a
  | .call _ _ => none

/-- When a request is answered, each of its claims has been served, the answer has a result for each
of them and for no other, and what the results say holds. -/
theorem ClaimLoop.answer_holds {x : External} (hx : x.NamesApart) {l : Ledger}
    {es : List ProcessEvent} {p : Process} {s : DeviceState}
    (hp : run (Process.step x) { world := { ledger := l } } es = some p)
    (hup : p.world.state = some s)
    (hfree : ∀ t, p.world.running = some t → t.op.isReconcile = true) {γ β : Type}
    (L : ClaimLoop x s.flags γ β) {claims : List γ} (hplain : ∀ c ∈ claims, PlainID (L.uid c))
    {es' : List ServingEvent} {v : Serving (GoMap β)}
    (hv : run (Serving.step x) { process := p, rest := L.program claims ∅ } es' = some v)
    {answer : GoMap β} (hanswer : v.answer = some answer) :
    List.Forall₂ (fun l c => ∃ env, l.2 = L.op env c) v.locks claims ∧
      (∀ u, u ∈ answer ↔ u ∈ claims.map L.uid) ∧
      ∀ u b, answer[u]? = some b → L.Says v.locks v.process.world.ledger.toStore u b := by
  have hinit : L.Inv claims { process := p, rest := L.program claims ∅ } :=
    ⟨Process.spares_of_run hp, ⟨s, hup, rfl⟩,
      .between [] claims ∅ rfl ⟨.nil, by simp⟩ (.inl rfl) hfree (by simp)⟩
  obtain ⟨-, -, hat⟩ :=
    run_invariant (L.Inv claims) (fun _ _ _ h hstep => h.step hx hplain hstep) hinit hv
  unfold Serving.answer at hanswer
  split at hanswer
  · next a hrest =>
    obtain rfl := Option.some.inj hanswer
    -- Only a request without claims to serve and without an operation under way has returned.
    cases hat with
    | between done todo result hclaims hserved hrest' hrunning hentry =>
      rcases hrest' with hrest' | hrest'
      · cases todo with
        | nil =>
          cases hrest.symm.trans hrest'
          rw [List.append_nil] at hclaims
          exact ⟨hclaims ▸ hserved.locks, hclaims ▸ hserved.keys, hentry⟩
        | cons c todo => cases hrest.symm.trans hrest'
      · cases hrest.symm.trans hrest'
    | within done c todo result locks s env p hclaims hserved hlocks hrest' hrunning hentry =>
      cases hrest.symm.trans hrest'
  · cases hanswer

/-- **The answer to a prepare holds.** A process that is up serves a `PrepareResourceClaims` with
plain UIDs, with reconciles in between and with every fault of every command. Once the request is
answered, it has taken the mutex once for each of its claims, in order, and the answer has an entry
for each of their UIDs and for no other. Every entry with devices has the devices of the allocation
of a claim of the request as they were tracked when the claim was prepared, and all three stores
hold the claim with exactly these. -/
theorem prepare_answer_holds (x : External) (hx : x.NamesApart) (l : Ledger)
    (es : List ProcessEvent) (p : Process) (s : DeviceState) (claims : List ResourceClaim)
    (es' : List ServingEvent) (v : Serving (GoMap PrepareResult)) (answer : GoMap PrepareResult)
    (hp : run (Process.step x) { world := { ledger := l } } es = some p)
    (hup : p.world.state = some s)
    (hfree : ∀ t, p.world.running = some t → t.op.isReconcile = true)
    (hclaims : ∀ claim ∈ claims, PlainID claim.uid)
    (hv : run (Serving.step x) { process := p, rest := prepareResourceClaims claims } es' = some v)
    (hanswer : v.answer = some answer) :
    List.Forall₂ (fun l claim => ∃ env, l.2 = .prepare env claim) v.locks claims ∧
    (∀ uid, uid ∈ answer ↔ ∃ claim ∈ claims, claim.uid = uid) ∧
    ∀ uid r, answer[uid]? = some r →
      PreparedAs x s.flags v.locks v.process.world.ledger.toStore uid r := by
  obtain ⟨hlocks, hkeys, hentry⟩ :=
    (prepareLoop x s.flags).answer_holds hx hp hup hfree hclaims hv hanswer
  exact ⟨hlocks, fun uid => (hkeys uid).trans List.mem_map, hentry⟩

/-- A process comes up with its rediscovery loop. -/
def processUp : List ProcessEvent :=
  [.call (.newDeviceState hostFlags (hostEnv 0 bothNodes) bothFound)] ++ smoothCommands 2 ++
    [.finish, .loop .start]

/-- Commands of a process that serves a request, without faults. -/
def servedCommands (n : ℕ) : List ServingEvent := List.replicate n (.command .none)

/-- Two claims, of which the second one asks for a device that there is not. -/
def twoClaims : List ResourceClaim := [hostClaim "u" "vpu-rkvdec-0", hostClaim "v" "vpu-rkvenc-0"]

/-- They are served, and a reconcile that finds nothing comes in between. -/
def servesTwo : List ServingEvent :=
  [.lock (hostEnv 1 bothNodes)] ++ servedCommands 5 ++
    [.finish, .loop .tick, .loop .reconcile, .loop (.lock (hostEnv 2 []) [])] ++ servedCommands 2 ++
    [.finish, .lock (hostEnv 3 [])] ++ servedCommands 1 ++ [.finish]

/-- The first claim is prepared, and stays so although the second one fails. -/
theorem prepare_answer_holds_partly : ∃ (p : Process) (v : Serving (GoMap PrepareResult))
    (answer : GoMap PrepareResult),
    run (Process.step plainExternal) {} processUp = some p ∧
    run (Serving.step plainExternal) { process := p, rest := prepareResourceClaims twoClaims }
      servesTwo = some v ∧
    v.answer = some answer ∧
    answer["u"]? = some (.ok [hostPrepared.kubeletDevice]) ∧
    PreparedAs plainExternal hostFlags v.locks v.process.world.ledger.toStore "u"
      (.ok [hostPrepared.kubeletDevice]) ∧
    ∃ err, answer["v"]? = some (.error err) := by
  have hend : (run (Process.step plainExternal) {} processUp).bind (fun p =>
      (run (Serving.step plainExternal) { process := p, rest := prepareResourceClaims twoClaims }
        servesTwo).bind fun v => v.answer.map fun answer =>
          ((p.world.state.map DeviceState.flags, p.world.running.isNone),
            answer["u"]?, answer["v"]?.map Except.isOk)) =
      some ((some hostFlags, true), some (.ok [hostPrepared.kubeletDevice]), some false) := by
    decide +kernel
  simp only [Option.bind_eq_some_iff, Option.map_eq_some_iff, Prod.mk.injEq,
    Option.isNone_iff_eq_none] at hend
  obtain ⟨p, hp, v, hv, answer, hanswer, ⟨⟨s, hs, hflags⟩, hidle⟩, hu, r, hr, herr⟩ := hend
  obtain ⟨-, -, hholds⟩ := prepare_answer_holds plainExternal plainExternal_namesApart {} processUp
    p s twoClaims servesTwo v answer hp hs (by simp [hidle]) (by decide) hv hanswer
  refine ⟨p, v, answer, hp, hv, hanswer, hu, hflags ▸ hholds "u" _ hu, ?_⟩
  cases r with
  | error err => exact ⟨err, hr⟩
  | ok devices => cases herr

/-- **The answer to an unprepare holds.** A process that is up serves an `UnprepareResourceClaims`
with plain UIDs, with reconciles in between and with every fault of every command. Once the request
is answered, it has taken the mutex once for each of its claims, in order, the answer has an entry
for each of their UIDs and for no other, and every claim without an error is in none of the
stores. -/
theorem unprepare_answer_holds (x : External) (hx : x.NamesApart) (l : Ledger)
    (es : List ProcessEvent) (p : Process) (s : DeviceState) (claims : List UID)
    (es' : List ServingEvent) (v : Serving (GoMap (Except String Unit)))
    (answer : GoMap (Except String Unit))
    (hp : run (Process.step x) { world := { ledger := l } } es = some p)
    (hup : p.world.state = some s)
    (hfree : ∀ t, p.world.running = some t → t.op.isReconcile = true)
    (hclaims : ∀ uid ∈ claims, PlainID uid)
    (hv : run (Serving.step x) { process := p, rest := unprepareResourceClaims claims } es' =
      some v)
    (hanswer : v.answer = some answer) :
    List.Forall₂ (fun l uid => l.2 = .unprepare uid) v.locks claims ∧
    (∀ uid, uid ∈ answer ↔ uid ∈ claims) ∧
    ∀ uid r, answer[uid]? = some r →
      UnpreparedAs x s.flags v.process.world.ledger.toStore uid r := by
  obtain ⟨hlocks, hkeys, hentry⟩ :=
    (unprepareLoop x s.flags).answer_holds hx hp hup hfree hclaims hv hanswer
  refine ⟨hlocks.imp ?_, fun uid => (hkeys uid).trans (by simp [unprepareLoop]), hentry⟩
  rintro l uid ⟨_, hop⟩
  exact hop

/-- A process that has prepared a claim. -/
def processPrepared : List ProcessEvent :=
  processUp ++ [.call (.prepare (hostEnv 1 bothNodes) (hostClaim "u" "vpu-rkvdec-0"))] ++
    smoothCommands 5 ++ [.finish]

/-- A request to unprepare two claims is served, and the checkpoint cannot be read for the first. -/
def servesFailing : List ServingEvent :=
  [.lock (hostEnv 2 []), .command (.before "input/output error"), .finish,
    .lock (hostEnv 3 [])] ++ servedCommands 5 ++ [.finish, .kickReconcile]

/-- The second claim is unprepared although the first one fails. -/
theorem unprepare_answer_holds_partly : ∃ (p : Process) (v : Serving (GoMap (Except String Unit)))
    (answer : GoMap (Except String Unit)),
    run (Process.step plainExternal) {} processPrepared = some p ∧
    "u" ∈ p.world.ledger.checkpoint.preparedClaims ∧
    run (Serving.step plainExternal) { process := p, rest := unprepareResourceClaims ["v", "u"] }
      servesFailing = some v ∧
    v.answer = some answer ∧ (∃ err, answer["v"]? = some (.error err)) ∧
    answer["u"]? = some (.ok ()) ∧
    v.process.world.ledger.toStore.claim plainExternal hostFlags "u" = (false, none, none) := by
  have hend : (run (Process.step plainExternal) {} processPrepared).bind (fun p =>
      (run (Serving.step plainExternal)
        { process := p, rest := unprepareResourceClaims ["v", "u"] } servesFailing).bind fun v =>
          v.answer.map fun answer =>
            ((p.world.state.map DeviceState.flags, p.world.running.isNone,
              p.world.ledger.checkpoint.preparedClaims),
              answer["u"]?, answer["v"]?.map Except.isOk)) =
      some ((some hostFlags, true, ["u"]), some (.ok ()), some false) := by
    decide +kernel
  simp only [Option.bind_eq_some_iff, Option.map_eq_some_iff, Prod.mk.injEq,
    Option.isNone_iff_eq_none] at hend
  obtain ⟨p, hp, v, hv, answer, hanswer, ⟨⟨s, hs, hflags⟩, hidle, hprepared⟩, hu, r, hr, herr⟩ :=
    hend
  obtain ⟨-, -, hholds⟩ := unprepare_answer_holds plainExternal plainExternal_namesApart {}
    processPrepared p s ["v", "u"] servesFailing v answer hp hs (by simp [hidle]) (by decide) hv
    hanswer
  refine ⟨p, v, answer, hp, by simp [hprepared], hv, hanswer, ?_, hu, hflags ▸ hholds "u" _ hu⟩
  cases r with
  | error err => exact ⟨err, hr⟩
  | ok _ => cases herr

end RockchipDra.Plugin
