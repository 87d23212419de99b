import RockchipDra.Plugin.Agreement
import RockchipDra.Plugin.Cleanup
import RockchipDra.Plugin.Prepare

/-!
# Trying again after failures

The kubelet repeats a prepare or an unprepare that failed, and a new process repeats one that was
cut. `Store.prepared` is where a prepare leads, and each of its commands keeps this state fixed
(`prepare_faulty`), as `Store.unprepared` is for an unprepare. So attempts that failed or were cut
at any point, followed by one that succeeds, leave what the last one alone would have left
(`prepare_retry_exact`).

No attempt touches what the stores hold of other claims (`Store.others`). So after any number of
attempts to prepare or unprepare a claim, by whatever memory and with whatever faults, the first one
that succeeds leaves the other claims as they were before the first attempt (`claim_attempts_end`).
-/

namespace RockchipDra.Plugin

open Go Discovery Effect

/-! ## What the stores hold of the other claims -/

/-- The stores without one claim, whose spec has the given name. -/
def Store.others (σ : Store) (uid : UID) (name : String) :
    List UID × GoMap (List Device) × GoMap Spec :=
  (σ.checkpoint.preparedClaims.filter (· ≠ uid), σ.claimDevices.claims.erase uid,
    σ.specs.erase name)

@[simp] theorem Store.others_prepared (σ : Store) (uid : UID) (devs : List Device) (name : String)
    (spec : Spec) : (σ.prepared uid devs name spec).others uid name = σ.others uid name := by
  have hclaims : (σ.checkpoint.add uid).preparedClaims.filter (· ≠ uid) =
      σ.checkpoint.preparedClaims.filter (· ≠ uid) := by
    unfold Checkpoint.add
    split_ifs
    · rfl
    · simp
  unfold Store.others Store.prepared
  rw [hclaims, Maps.erase_insert, Maps.erase_insert]

@[simp] theorem Store.others_unprepared (σ : Store) (uid : UID) (name : String) :
    (σ.unprepared uid name).others uid name = σ.others uid name := by
  unfold Store.others Store.unprepared
  rw [Maps.erase_erase, Maps.erase_erase, Checkpoint.preparedClaims_delete, List.filter_filter]
  simp

/-- What the stores hold of another claim is part of what they hold of the others. -/
theorem Store.claim_of_others {x : External} (hx : x.NamesApart) {f : Flags} {uid v : UID}
    {σ τ : Store} (h : τ.others uid (specName x f uid) = σ.others uid (specName x f uid))
    (huid : PlainID uid) (hplain : PlainID v) (hv : v ≠ uid) :
    τ.claim x f v = σ.claim x f v := by
  simp only [Store.others, Prod.mk.injEq] at h
  obtain ⟨hclaims, hdevices, hspecs⟩ := h
  have hmem : v ∈ τ.checkpoint.preparedClaims ↔ v ∈ σ.checkpoint.preparedClaims := by
    have hfilter := congrArg (v ∈ ·) hclaims
    simpa [hv] using hfilter
  have hentry : τ.claimDevices.claims[v]? = σ.claimDevices.claims[v]? := by
    have herase := congrArg (·[v]?) hdevices
    simpa only [Maps.getElem?_erase, if_neg hv.symm] using herase
  have hname : specName x f uid ≠ specName x f v :=
    fun heq => hv ((specName_inj hx huid hplain).mp heq).symm
  have hspec : τ.specs[specName x f v]? = σ.specs[specName x f v]? := by
    have herase := congrArg (·[specName x f v]?) hspecs
    simpa only [Maps.getElem?_erase, if_neg hname] using herase
  simp only [Store.claim, hmem, hentry, hspec]

/-- An unprepare of stores that hold the same of the other claims takes away the claim alone. -/
theorem Store.forgets_of_others {x : External} {f : Flags} {uid : UID} {σ τ : Store}
    (h : τ.others uid (specName x f uid) = σ.others uid (specName x f uid)) :
    Store.Forgets x f uid σ (τ.unprepared uid (specName x f uid)) := by
  have hτ := τ.forgets_unprepared x f uid
  have hothers := h
  simp only [Store.others, Prod.mk.injEq] at h
  obtain ⟨hclaims, hdevices, hspecs⟩ := h
  refine ⟨hτ.checkpoint, hτ.claimDevices, hτ.spec, ?_, ?_, ?_, ?_⟩
  · rw [hτ.others_checkpoint, hclaims]
  · intro v hv
    change (τ.claimDevices.claims.erase uid)[v]? = _
    rw [hdevices, Maps.getElem?_erase, if_neg hv.symm]
  · intro hx huid v hv hplain
    rw [hτ.others_spec hx huid v hv hplain]
    exact congrArg (·.2.2) (Store.claim_of_others hx hothers huid hplain hv)
  · intro name hname
    change (τ.specs.erase _)[name]? = _
    rw [hspecs, Maps.getElem?_erase, if_neg hname.symm]

/-! ## The attempts of a prepare -/

section Prepare

variable {x : External} {s : DeviceState} {env : Env} {claim : ResourceClaim}
  {devices : List PreparedDevice} {spec : Spec}

/-- Every command of a prepare keeps the state that it leads to, and one that succeeds is there. -/
theorem prepare_faulty (hdevices : s.computeDevices env claim = .ok devices)
    (hspec : buildSpec x s.flags env.stat claim.uid devices = .ok spec) (σ : Store) :
    (s.prepare x env claim).Alone faultyStore
      (fun σ τ =>
        τ.prepared claim.uid (deviceSnapshots devices) (specName x s.flags claim.uid) spec =
          σ.prepared claim.uid (deviceSnapshots devices) (specName x s.flags claim.uid) spec)
      (fun out τ => out = devices ∧
        τ = σ.prepared claim.uid (deviceSnapshots devices) (specName x s.flags claim.uid) spec)
      (fun _ _ => True) σ := by
  refine Fallible.alone_bind (Fallible.alone_mapError (readCheckpoint_faulty rfl ?_))
  refine Fallible.alone_bind (Fallible.alone_ofExcept (fun out hout => ?_) (fun _ _ => trivial))
  obtain rfl := Except.ok.inj (hdevices.symm.trans hout)
  refine Fallible.alone_bind (Fallible.alone_mapError (Fallible.alone_bind
    (Fallible.alone_ofExcept (fun out hout => ?_) (fun _ _ => trivial))))
  obtain rfl := Except.ok.inj (hspec.symm.trans hout)
  -- Each write does a part of what is still to be done.
  refine write_faulty rfl ?_ ?_
  · unfold Store.prepared Store.put
    dsimp only
    rw [Maps.insert_insert]
  refine Fallible.alone_bind (Fallible.alone_mapError (Fallible.alone_bind
    (readClaimDevices_faulty rfl (write_faulty rfl ?_ ?_))))
  · unfold Store.prepared Store.put
    dsimp only
    rw [Maps.insert_insert]
  change Fallible.Alone _ _ _ _ (if claim.uid ∉ σ.checkpoint.preparedClaims then _ else _) _
  split_ifs with huid
  · refine Fallible.alone_pure ⟨rfl, ?_⟩
    simp [Store.prepared, Store.put, Checkpoint.add, huid]
  · refine Fallible.alone_bind (Fallible.alone_mapError
      (write_faulty rfl ?_ (Fallible.alone_pure ⟨rfl, ?_⟩)))
    · simp [Store.prepared, Store.put, Checkpoint.add, huid]
    · simp [Store.prepared, Store.put, Checkpoint.add, huid]

/-- A prepare that cannot be done writes nothing and does not succeed. -/
theorem prepare_refused_faulty
    (h : ∀ devices spec, s.computeDevices env claim = .ok devices →
      buildSpec x s.flags env.stat claim.uid devices ≠ .ok spec) (σ : Store) :
    (s.prepare x env claim).Alone faultyStore (fun σ τ => τ = σ) (fun _ _ => False)
      (fun _ _ => True) σ := by
  refine Fallible.alone_bind (Fallible.alone_mapError (readCheckpoint_faulty rfl ?_))
  refine Fallible.alone_bind (Fallible.alone_ofExcept (fun devices hdevices => ?_)
    (fun _ _ => trivial))
  refine Fallible.alone_bind (Fallible.alone_mapError (Fallible.alone_bind
    (Fallible.alone_ofExcept (fun spec hspec => ?_) (fun _ _ => trivial))))
  exact absurd hspec (h devices spec hdevices)

/-- The same of the operation. -/
theorem program_prepare_faulty (hdevices : s.computeDevices env claim = .ok devices)
    (hspec : buildSpec x s.flags env.stat claim.uid devices = .ok spec) (σ : Store) :
    ((Op.prepare env claim).program x s).Alone faultyStore
      (fun σ τ =>
        τ.prepared claim.uid (deviceSnapshots devices) (specName x s.flags claim.uid) spec =
          σ.prepared claim.uid (deviceSnapshots devices) (specName x s.flags claim.uid) spec)
      (fun out τ => out = .prepared devices ∧
        τ = σ.prepared claim.uid (deviceSnapshots devices) (specName x s.flags claim.uid) spec)
      (fun _ _ => True) σ := by
  refine Fallible.alone_bind (Fallible.Safe.mono (fun _ _ h => h) ?_ (fun _ _ _ => trivial)
    (prepare_faulty hdevices hspec σ))
  rintro out τ ⟨rfl, hτ⟩
  exact Fallible.alone_pure ⟨rfl, hτ⟩

theorem program_prepare_refused_faulty
    (h : ∀ devices spec, s.computeDevices env claim = .ok devices →
      buildSpec x s.flags env.stat claim.uid devices ≠ .ok spec) (σ : Store) :
    ((Op.prepare env claim).program x s).Alone faultyStore (fun σ τ => τ = σ) (fun _ _ => False)
      (fun _ _ => True) σ := by
  refine Fallible.alone_bind (Fallible.Safe.mono (fun _ _ h => h) ?_ (fun _ _ _ => trivial)
    (prepare_refused_faulty h σ))
  exact fun _ _ hfalse => hfalse.elim

end Prepare

/-- **A prepare that is retried is exact.** Attempts to prepare a claim that failed, or were cut at
any command, followed by one that succeeds, leave the stores that one prepare without faults leaves,
and that one succeeds too. -/
theorem prepare_retry_exact (x : External) (s : DeviceState) (env : Env) (claim : ResourceClaim)
    (σ τ : Store)
    (h : Fallible.Retries faultyStore ((Op.prepare env claim).program x s) σ τ) :
    ∃ devices, (Op.prepare env claim).execute x s σ = (.ok (.prepared devices), τ) := by
  by_cases hpossible : ∃ devices spec, s.computeDevices env claim = .ok devices ∧
      buildSpec x s.flags env.stat claim.uid devices = .ok spec
  · obtain ⟨devices, spec, hdevices, hspec⟩ := hpossible
    have hgoal := h.reaches fun σ => Fallible.Safe.mono (fun _ _ h => h) (fun _ _ h => h.2)
      (fun _ _ h => h) (program_prepare_faulty hdevices hspec σ)
    exact ⟨devices, by rw [execute_prepare hdevices hspec, hgoal]⟩
  · -- No attempt succeeds, and none writes anything.
    have hrefused : ∀ devices spec, s.computeDevices env claim = .ok devices →
        buildSpec x s.flags env.stat claim.uid devices ≠ .ok spec :=
      fun devices spec hdevices hspec => hpossible ⟨devices, spec, hdevices, hspec⟩
    induction h with
    | @success f σ τ a heval =>
      have hpost := (program_prepare_refused_faulty hrefused σ).eval f
      rw [heval] at hpost
      exact hpost.elim
    | @failure f σ τ υ e heval rest ih =>
      have hkept := (program_prepare_refused_faulty hrefused σ).eval_eq f (g := id)
      rw [heval] at hkept
      obtain rfl : τ = σ := hkept
      exact ih
    | @cut f σ υ n rest ih =>
      have hkept : ((Op.prepare env claim).program x s).run.after faultyStore f n σ = σ :=
        (program_prepare_refused_faulty hrefused σ).after_eq f n (g := id)
      rw [hkept] at ih
      exact ih

/-- The write of the checkpoint takes effect and answers with an error. -/
def lateFault (n : ℕ) : Fault := if n = 4 then .after "input/output error" else .none

/-- What such a prepare leaves. -/
def afterLateFault : Store :=
  ((hostPrepare.program plainExternal hostState).run.eval faultyStore lateFault {}).2

/-- The claim is in the checkpoint already when it is prepared again. -/
theorem prepare_retry_exact_late : ∃ τ devices,
    "u" ∈ afterLateFault.checkpoint.preparedClaims ∧
    hostPrepare.execute plainExternal hostState {} = (.ok (.prepared devices), τ) ∧
    τ.checkpoint.preparedClaims = ["u"] := by
  have hfirst : ∃ err, (hostPrepare.program plainExternal hostState).run.eval faultyStore lateFault
      {} = (.error err, afterLateFault) := by
    have hfails : ((hostPrepare.program plainExternal hostState).run.eval faultyStore lateFault
        {}).1.isOk = false := by decide +kernel
    unfold afterLateFault
    generalize (hostPrepare.program plainExternal hostState).run.eval _ _ _ = r at hfails
    obtain ⟨err | out, τ⟩ := r
    · exact ⟨err, rfl⟩
    · cases hfails
  have hsecond : ∃ out, (hostPrepare.program plainExternal hostState).run.eval faultyStore
      (fun _ => .none) afterLateFault = (.ok out,
        ((hostPrepare.program plainExternal hostState).run.eval faultyStore (fun _ => .none)
          afterLateFault).2) := by
    have hsucceeds : ((hostPrepare.program plainExternal hostState).run.eval faultyStore
        (fun _ => .none) afterLateFault).1.isOk = true := by decide +kernel
    generalize (hostPrepare.program plainExternal hostState).run.eval _ _ _ = r at hsucceeds ⊢
    obtain ⟨err | out, τ⟩ := r
    · cases hsucceeds
    · exact ⟨out, rfl⟩
  obtain ⟨err, hfirst⟩ := hfirst
  obtain ⟨out, hsecond⟩ := hsecond
  obtain ⟨devices, hexecute⟩ := prepare_retry_exact plainExternal hostState _ _ {} _
    (.failure hfirst (.success hsecond))
  refine ⟨_, devices, by decide +kernel, hexecute, by decide +kernel⟩

/-! ## Attempts of whatever kind -/

/-- One attempt of a process with the flags `f` to prepare or unprepare a claim. It ends, with or
without an error, or is cut after some of its commands. -/
inductive Attempt (x : External) (f : Flags) (uid : UID) (σ : Store) : Store → Prop
  | ended (s : DeviceState) (op : Op) (faults : ℕ → Fault) (hs : s.flags = f)
      (hop : op.uid = some uid) :
      Attempt x f uid σ ((op.program x s).run.eval faultyStore faults σ).2
  | cut (s : DeviceState) (op : Op) (faults : ℕ → Fault) (n : ℕ) (hs : s.flags = f)
      (hop : op.uid = some uid) :
      Attempt x f uid σ ((op.program x s).run.after faultyStore faults n σ)

/-- What the stores hold of a claim after an attempt that succeeds. -/
def Op.Settles (x : External) (s : DeviceState) (uid : UID) : Op → Outcome → Store → Prop
  | .prepare env claim, .prepared devices, τ => τ.Holds x s.flags env.stat uid devices ∧
    ∃ results, claim.allocation = some results ∧
      s.Prepares x env uid (ownResults s.flags.driverName results) devices τ
  | .unprepare _, .unprepared, τ => τ = τ.unprepared uid (specName x s.flags uid)
  | _, _, _ => False

/-- Every command of an attempt keeps what the stores hold of the other claims, and an attempt that
succeeds settles its claim. -/
theorem Op.attempt_faulty (x : External) (s : DeviceState) (op : Op) {uid : UID}
    (hop : op.uid = some uid) (σ : Store) :
    (op.program x s).Alone faultyStore
      (fun σ τ => τ.others uid (specName x s.flags uid) = σ.others uid (specName x s.flags uid))
      (op.Settles x s uid) (fun _ _ => True) σ := by
  cases op with
  | prepare env claim =>
    obtain rfl := Option.some.inj hop
    by_cases hpossible : ∃ devices spec, s.computeDevices env claim = .ok devices ∧
        buildSpec x s.flags env.stat claim.uid devices = .ok spec
    · obtain ⟨devices, spec, hdevices, hspec⟩ := hpossible
      refine Fallible.Safe.mono ?_ ?_ (fun _ _ h => h) (program_prepare_faulty hdevices hspec σ)
      · intro σ τ hgoal
        have hothers := congrArg (·.others claim.uid (specName x s.flags claim.uid)) hgoal
        simpa using hothers
      · rintro out τ ⟨rfl, rfl⟩
        exact ⟨σ.holds_prepared hdevices hspec, prepares_of_computeDevices hdevices hspec σ⟩
    · refine Fallible.Safe.mono ?_ ?_ (fun _ _ h => h) (program_prepare_refused_faulty
        (fun devices spec hdevices hspec => hpossible ⟨devices, spec, hdevices, hspec⟩) σ)
      · rintro σ τ rfl
        rfl
      · exact fun _ _ hfalse => hfalse.elim
  | unprepare v =>
    obtain rfl := Option.some.inj hop
    refine Fallible.Safe.mono ?_ ?_ (fun _ _ h => h) (program_unprepare_faulty x s v σ)
    · intro σ τ hgoal
      have hothers := congrArg (·.others v (specName x s.flags v)) hgoal
      simpa using hothers
    · rintro out τ ⟨rfl, rfl⟩
      exact (Store.unprepared_unprepared _ _ _).symm
  | reconcile env found => cases hop

/-- No attempt touches what the stores hold of the other claims. -/
theorem Attempt.others {x : External} {f : Flags} {uid : UID} {σ τ : Store}
    (h : Attempt x f uid σ τ) :
    τ.others uid (specName x f uid) = σ.others uid (specName x f uid) := by
  cases h with
  | ended s op faults hs hop =>
    subst hs
    exact (op.attempt_faulty x s hop σ).eval_eq faults
  | cut s op faults n hs hop =>
    subst hs
    exact (op.attempt_faulty x s hop σ).after_eq faults n

/-- **Attempts on a claim end well.** After any number of attempts to prepare or unprepare a claim,
each with its own memory and its own faults, failed, cut, or successful, a prepare that succeeds
leaves the claim in all three stores with exactly the devices of its allocation, an unprepare that
succeeds leaves it in none, and the other claims are as they were before the first attempt. The UIDs
of the claims are plain, so that the CDI library keeps one spec file for each. -/
theorem claim_attempts_end (x : External) (hx : x.NamesApart) (s : DeviceState) (uid : UID)
    (huid : PlainID uid) (σ σ' : Store)
    (h : Relation.ReflTransGen (Attempt x s.flags uid) σ σ') :
    (∀ env claim faults devices τ, claim.uid = uid →
      ((Op.prepare env claim).program x s).run.eval faultyStore faults σ' =
        (.ok (.prepared devices), τ) →
      τ.Holds x s.flags env.stat uid devices ∧
      (∃ results, claim.allocation = some results ∧
        s.Prepares x env uid (ownResults s.flags.driverName results) devices τ) ∧
      ∀ v ≠ uid, PlainID v → τ.claim x s.flags v = σ.claim x s.flags v) ∧
    (∀ faults τ, ((Op.unprepare uid).program x s).run.eval faultyStore faults σ' =
        (.ok .unprepared, τ) →
      Store.Forgets x s.flags uid σ τ ∧
      ∀ v ≠ uid, PlainID v → τ.claim x s.flags v = σ.claim x s.flags v) := by
  -- Every attempt, the last one too, keeps the other claims.
  have hothers : ∀ τ, Attempt x s.flags uid σ' τ → τ.others uid (specName x s.flags uid) =
      σ.others uid (specName x s.flags uid) := by
    intro τ hτ
    have hall := h.tail hτ
    clear h hτ
    induction hall with
    | refl => rfl
    | tail _ hlast ih => rw [hlast.others, ih]
  have hclaim : ∀ τ, Attempt x s.flags uid σ' τ → ∀ v ≠ uid, PlainID v →
      τ.claim x s.flags v = σ.claim x s.flags v :=
    fun τ hτ v hv hplain => Store.claim_of_others hx (hothers τ hτ) huid hplain hv
  refine ⟨?_, ?_⟩
  · rintro env claim faults devices τ rfl heval
    have hattempt := Attempt.ended (σ := σ') (x := x) s (.prepare env claim) faults rfl rfl
    have hsettles := ((Op.prepare env claim).attempt_faulty x s rfl σ').eval faults
    rw [heval] at hattempt hsettles
    obtain ⟨hholds, hprepares⟩ := hsettles
    exact ⟨hholds, hprepares, hclaim τ hattempt⟩
  · intro faults τ heval
    have hattempt := Attempt.ended (σ := σ') (x := x) s (.unprepare uid) faults rfl rfl
    have hsettles := ((Op.unprepare uid).attempt_faulty x s rfl σ').eval faults
    rw [heval] at hattempt hsettles
    have hgone : τ = τ.unprepared uid (specName x s.flags uid) := hsettles
    refine ⟨?_, hclaim τ hattempt⟩
    rw [hgone]
    exact Store.forgets_of_others (hothers τ hattempt)

/-- A prepare that failed late is repeated or taken back. -/
theorem claim_attempts_end_late : ∃ τ τ', "u" ∈ afterLateFault.checkpoint.preparedClaims ∧
    (hostPrepare.program plainExternal hostState).run.eval faultyStore (fun _ => .none)
      afterLateFault = (.ok (.prepared [hostPrepared]), τ) ∧
    τ.Holds plainExternal hostFlags (hostEnv 1 bothNodes).stat "u" [hostPrepared] ∧
    ((Op.unprepare "u").program plainExternal hostState).run.eval faultyStore (fun _ => .none)
      afterLateFault = (.ok .unprepared, τ') ∧
    Store.Forgets plainExternal hostFlags "u" {} τ' := by
  have hdevices : hostState.computeDevices (hostEnv 1 bothNodes) (hostClaim "u" "vpu-rkvdec-0") =
      .ok [hostPrepared] := by
    decide +kernel
  have hprepare := execute_prepare (x := plainExternal) (σ := afterLateFault) hdevices rfl
  have hunprepare := execute_unprepare (x := plainExternal) (s := hostState) (σ := afterLateFault)
    "u"
  rw [Op.execute, ← eval_faultyStore_none] at hprepare hunprepare
  have hends := claim_attempts_end plainExternal plainExternal_namesApart hostState "u" (by decide)
    {} afterLateFault (.single (.ended hostState hostPrepare lateFault rfl rfl))
  exact ⟨_, _, by decide +kernel, hprepare, (hends.1 _ _ _ _ _ rfl hprepare).1, hunprepare,
    (hends.2 _ _ hunprepare).1⟩

end RockchipDra.Plugin
