import RockchipDra.Plugin.Host
import RockchipDra.Plugin.Session

/-!
# The three stores agree, and claims are independent

What the stores are for is simple: they remember, for each claim, what it was last prepared with.
`Holdings` is this abstract store, with one entry for each claim. A successful prepare writes the
entry of its claim, a successful unprepare clears it, and nothing else touches it. `Represents` says
that the checkpoint, the claim devices and the CDI specs are three images of it, and
`Represents.executes` that every operation keeps this so.

Whatever the history, the entry of a claim depends only on the last operation that succeeded on it
(`holdings_apply`), and the results follow.
-/

namespace RockchipDra.Plugin

open Go Discovery Effect

/-! ## What the claims hold -/

/-- What a prepared claim holds: its devices, and the device nodes at the time. -/
structure Holding where
  stat : String → Option FileInfo
  devices : List PreparedDevice

/-- What each claim holds. -/
abbrev Holdings := UID → Option Holding

/-- Whether an operation is a prepare or an unprepare that succeeded on a claim. -/
def serves (u : UID) : Op × Result → Bool
  | (.prepare _ claim, .ok (.prepared _)) => claim.uid = u
  | (.unprepare uid, .ok .unprepared) => uid = u
  | _ => false

/-- What its claim holds after a prepare or an unprepare that succeeded. -/
def holding : Op × Result → Option Holding
  | (.prepare env _, .ok (.prepared devices)) => some ⟨env.stat, devices⟩
  | _ => none

/-- What the claims hold after an operation. -/
def Holdings.after (h : Holdings) (e : Op × Result) : Holdings := fun u =>
  if serves u e then holding e else h u

/-- What the claims hold after a history that starts with none prepared. -/
def holdings (log : List (Op × Result)) : Holdings := log.foldl Holdings.after fun _ => none

/-- The last operation of a history that succeeded on a claim. -/
def lastServed (u : UID) (log : List (Op × Result)) : Option (Op × Result) :=
  (log.filter (serves u)).getLast?

/-- What follows an operation leaves it the last one on a claim unless it succeeds on the claim. -/
theorem lastServed_concat (u : UID) (log : List (Op × Result)) (e : Op × Result) :
    lastServed u (log ++ [e]) = if serves u e then some e else lastServed u log := by
  unfold lastServed
  rw [List.filter_append]
  cases he : serves u e <;> simp [he]

/-- What a claim holds depends only on the last operation that succeeded on it. -/
theorem holdings_apply (log : List (Op × Result)) (u : UID) :
    holdings log u = (lastServed u log).bind holding := by
  -- By induction on the history from its end: the last operation decides, or does not matter.
  induction log using List.reverseRecOn with
  | nil => rfl
  | append_singleton log e ih =>
    rw [lastServed_concat]
    change (List.foldl Holdings.after _ (log ++ [e])) u = _
    rw [List.foldl_append]
    change (if serves u e then holding e else holdings log u) = _
    rw [ih]
    split_ifs <;> rfl

/-! ## The stores represent what the claims hold -/

/-- The stores are images of what the claims hold. -/
structure Represents (x : External) (f : Flags) (σ : Store) (h : Holdings) : Prop where
  nodup : σ.checkpoint.preparedClaims.Nodup
  checkpoint : ∀ u, u ∈ σ.checkpoint.preparedClaims ↔ (h u).isSome
  claimDevices : ∀ u : UID, σ.claimDevices.claims[u]? = (h u).map fun p => deviceSnapshots p.devices
  specs : ∀ u, PlainID u → σ.specs[specName x f u]? =
    (h u).bind fun p => (buildSpec x f p.stat u p.devices).toOption
  plain : ∀ u p, h u = some p → PlainID u
  built : ∀ u p, h u = some p → ∃ spec, buildSpec x f p.stat u p.devices = .ok spec
  ids : ∀ u p, h u = some p → ∀ d ∈ p.devices,
    d.cdiDeviceIDs = getClaimDevices f u d.deviceName d.shareID

/-- Empty stores represent that no claim is prepared. -/
theorem represents_empty (x : External) (f : Flags) : Represents x f {} fun _ => none where
  nodup := List.nodup_nil
  checkpoint u := by simp
  claimDevices u := rfl
  specs u _ := rfl
  plain u p h := by cases h
  built u p h := by cases h
  ids u p h := by cases h

theorem Checkpoint.nodup_add {cp : Checkpoint} (h : cp.preparedClaims.Nodup) (uid : UID) :
    (cp.add uid).preparedClaims.Nodup := by
  unfold Checkpoint.add
  split_ifs with huid
  · exact h
  · rw [Checkpoint.preparedClaims_append]
    exact List.nodup_append.mpr ⟨h, List.nodup_singleton uid, by
      rintro a ha b hb rfl
      exact huid (List.mem_singleton.mp hb ▸ ha)⟩

section Executes

variable {x : External} {s : DeviceState} {σ : Store} {h : Holdings}

/-- A prepare that succeeds writes the entry of its claim. -/
theorem Represents.prepared (hrep : Represents x s.flags σ h) (hx : x.NamesApart) (env : Env)
    (claim : ResourceClaim) (hplain : PlainID claim.uid) {devices : List PreparedDevice}
    {spec : Spec} (hdevices : s.computeDevices env claim = .ok devices)
    (hspec : buildSpec x s.flags env.stat claim.uid devices = .ok spec) :
    Represents x s.flags
      (σ.prepared claim.uid (deviceSnapshots devices) (specName x s.flags claim.uid) spec)
      (h.after (.prepare env claim, .ok (.prepared devices))) := by
  -- Every store is updated at the claim of the prepare and nowhere else.
  have hafter : ∀ u, h.after (.prepare env claim, .ok (.prepared devices)) u =
      if claim.uid = u then some ⟨env.stat, devices⟩ else h u := by
    intro u
    simp [Holdings.after, serves, holding]
  refine ⟨Checkpoint.nodup_add hrep.nodup _, fun u => ?_, fun u => ?_, fun u hu => ?_,
    fun u p hp => ?_, fun u p hp => ?_, fun u p hp => ?_⟩
  · change u ∈ (σ.checkpoint.add claim.uid).preparedClaims ↔ _
    rw [hafter, Checkpoint.mem_add, hrep.checkpoint]
    by_cases hu : claim.uid = u
    · simp [hu]
    · simp [hu, Ne.symm hu]
  · change (σ.claimDevices.claims.insert claim.uid (deviceSnapshots devices))[u]? = _
    rw [hafter, Maps.getElem?_insert, hrep.claimDevices]
    split_ifs <;> rfl
  · change (σ.specs.insert (specName x s.flags claim.uid) spec)[specName x s.flags u]? = _
    rw [hafter, Maps.getElem?_insert, hrep.specs u hu]
    simp only [specName_inj hx hplain hu]
    split_ifs with heq
    · subst heq
      simp [hspec, Except.toOption]
    · rfl
  · rw [hafter] at hp
    split_ifs at hp with hu
    · exact hu ▸ hplain
    · exact hrep.plain u p hp
  · rw [hafter] at hp
    split_ifs at hp with hu
    · obtain rfl := Option.some.inj hp
      exact ⟨spec, hu ▸ hspec⟩
    · exact hrep.built u p hp
  · rw [hafter] at hp
    split_ifs at hp with hu
    · obtain rfl := Option.some.inj hp
      subst hu
      exact fun d hd => DeviceState.cdiDeviceIDs_of_computeDevices hdevices hd
    · exact hrep.ids u p hp

/-- An unprepare clears the entry of its claim. -/
theorem Represents.unprepared (hrep : Represents x s.flags σ h) (hx : x.NamesApart) {uid : UID}
    (hplain : PlainID uid) :
    Represents x s.flags (σ.unprepared uid (specName x s.flags uid))
      (h.after (.unprepare uid, .ok .unprepared)) := by
  have hafter : ∀ u, h.after (.unprepare uid, .ok .unprepared) u =
      if uid = u then none else h u := by
    intro u
    simp [Holdings.after, serves, holding]
  have hheld : ∀ u p, h.after (.unprepare uid, .ok .unprepared) u = some p → h u = some p := by
    intro u p hp
    rw [hafter] at hp
    split_ifs at hp
    exact hp
  refine ⟨?_, fun u => ?_, fun u => ?_, fun u hu => ?_, fun u p hp => hrep.plain u p (hheld u p hp),
    fun u p hp => hrep.built u p (hheld u p hp), fun u p hp => hrep.ids u p (hheld u p hp)⟩
  · change (σ.checkpoint.delete uid).preparedClaims.Nodup
    rw [Checkpoint.preparedClaims_delete]
    exact hrep.nodup.filter _
  · change u ∈ (σ.checkpoint.delete uid).preparedClaims ↔ _
    rw [Checkpoint.preparedClaims_delete, List.mem_filter, hrep.checkpoint, hafter]
    by_cases hu : uid = u
    · simp [hu]
    · simp [hu, Ne.symm hu]
  · change (σ.claimDevices.claims.erase uid)[u]? = _
    rw [Maps.getElem?_erase, hrep.claimDevices, hafter]
    split_ifs <;> rfl
  · change (σ.specs.erase (specName x s.flags uid))[specName x s.flags u]? = _
    rw [Maps.getElem?_erase, hrep.specs u hu, hafter]
    simp only [specName_inj hx hplain hu]
    split_ifs <;> rfl

/-- A reconcile prunes nothing: only prepared claims have entries. -/
theorem Represents.pruned (hrep : Represents x s.flags σ h) (o : MapOrder Loop) :
    σ.pruned o = σ := by
  have hkept : ¬(pruneClaimDevices o σ.checkpoint σ.claimDevices).1 = true := by
    rw [pruneClaimDevices_fst]
    rintro ⟨u, hu, hunprepared⟩
    rw [Std.ExtTreeMap.mem_iff_isSome_getElem?, hrep.claimDevices, Option.isSome_map] at hu
    exact hunprepared ((hrep.checkpoint u).mpr hu)
  unfold Store.pruned
  rw [pruneClaimDevices_unchanged hkept]

/-- Every operation keeps the stores images of what the claims hold. -/
theorem Represents.executes (hrep : Represents x s.flags σ h) (hx : x.NamesApart) {op : Op}
    (hop : op.Plain) {r : Result} {τ : Store} (hexec : op.Executes x s σ r τ) :
    Represents x s.flags τ (h.after (op, r)) := by
  cases hexec with
  | unavailable env claim e _ => exact hrep
  | refused env claim devices e _ _ => exact hrep
  | prepared env claim devices spec hdevices hspec =>
    exact hrep.prepared hx env claim (hop _ rfl) hdevices hspec
  | unprepared uid => exact hrep.unprepared hx (hop _ rfl)
  | reconciled env found =>
    rw [hrep.pruned]
    exact hrep

/-- No operation changes the flags of its process. -/
theorem Op.Executes.flags {op : Op} {r : Result} {τ : Store} (hexec : op.Executes x s σ r τ) :
    (resultMemory s r).flags = s.flags := by
  cases hexec <;> rfl

end Executes

/-- A whole history keeps the stores images of what the claims hold. -/
theorem Represents.run {x : External} (hx : x.NamesApart) {p : Session} {h : Holdings}
    (hrep : Represents x p.state.flags p.store h) {ops : List Op} (hops : ∀ op ∈ ops, op.Plain) :
    (p.run x ops).2.state.flags = p.state.flags ∧
      Represents x p.state.flags (p.run x ops).2.store
        ((p.run x ops).1.foldl Holdings.after h) := by
  induction ops generalizing p h with
  | nil => exact ⟨rfl, hrep⟩
  | cons op ops ih =>
    -- One operation, then the rest of the history from the session that it leaves.
    have hexec := Op.executes x p.state p.store op
    have hflags : (p.exec x op).2.state.flags = p.state.flags := hexec.flags
    have hnext := hrep.executes hx (hops op List.mem_cons_self) hexec
    obtain ⟨hrest, hrep⟩ := ih (p := (p.exec x op).2) (hflags ▸ hnext)
      fun op hop => hops op (List.mem_cons_of_mem _ hop)
    exact ⟨hrest.trans hflags, hflags ▸ hrep⟩

/-- After a history that starts on empty stores, they are images of what the claims hold. -/
theorem represents_holdings {x : External} (hx : x.NamesApart) (s : DeviceState) {ops : List Op}
    (hops : ∀ op ∈ ops, op.Plain) :
    Represents x s.flags (Session.run x { state := s } ops).2.store
      (holdings (Session.run x { state := s } ops).1) :=
  (Represents.run hx (p := { state := s }) (represents_empty x s.flags) hops).2

/-! ## Agreement -/

/-- The three stores agree with each other and with a history. -/
structure StoresAgree (x : External) (f : Flags) (σ : Store) (log : List (Op × Result)) : Prop where
  /-- No claim is in the checkpoint twice. -/
  nodup : σ.checkpoint.preparedClaims.Nodup
  claimDevices : ∀ u, u ∈ σ.checkpoint.preparedClaims ↔ u ∈ σ.claimDevices.claims
  specs : ∀ u, PlainID u → (u ∈ σ.checkpoint.preparedClaims ↔ specName x f u ∈ σ.specs)
  /-- A claim is in the stores if the last operation that succeeded on it was a prepare. -/
  last : ∀ u, u ∈ σ.checkpoint.preparedClaims ↔
    ∃ env claim devices, lastServed u log = some (.prepare env claim, .ok (.prepared devices))
  /-- What they hold of the claim is what this prepare returned. -/
  devices : ∀ u env claim devices,
    lastServed u log = some (.prepare env claim, .ok (.prepared devices)) →
      σ.Holds x f env.stat u devices

/-- An entry of a history that leaves its claim with something is a prepare. -/
theorem holding_eq_some {e : Op × Result} {p : Holding} :
    holding e = some p ↔
      ∃ env claim, e = (.prepare env claim, .ok (.prepared p.devices)) ∧ p.stat = env.stat := by
  constructor
  · intro h
    unfold holding at h
    split at h
    · obtain rfl := Option.some.inj h
      exact ⟨_, _, rfl, rfl⟩
    · cases h
  · rintro ⟨env, claim, rfl, hstat⟩
    cases p
    cases hstat
    rfl

/-- What the stores hold of a claim is the image of what the claim holds. -/
theorem Represents.claim {x : External} {f : Flags} {σ : Store} {h : Holdings}
    (hrep : Represents x f σ h) {u : UID} (hu : PlainID u) :
    σ.claim x f u = ((h u).isSome, (h u).map fun p => deviceSnapshots p.devices,
      (h u).bind fun p => (buildSpec x f p.stat u p.devices).toOption) := by
  unfold Store.claim
  rw [hrep.claimDevices, hrep.specs u hu]
  congr 1
  rw [Bool.eq_iff_iff, decide_eq_true_iff, hrep.checkpoint]

/-- Stores that represent what a history left agree. -/
theorem Represents.agree {x : External} {f : Flags} {σ : Store} {log : List (Op × Result)}
    (hrep : Represents x f σ (holdings log)) : StoresAgree x f σ log where
  nodup := hrep.nodup
  claimDevices u := by
    rw [hrep.checkpoint, Std.ExtTreeMap.mem_iff_isSome_getElem?, hrep.claimDevices,
      Option.isSome_map]
  specs u hplain := by
    rw [hrep.checkpoint, Std.ExtTreeMap.mem_iff_isSome_getElem?, hrep.specs u hplain]
    cases hu : holdings log u with
    | none => simp
    | some p =>
      obtain ⟨spec, hspec⟩ := hrep.built u p hu
      simp [hspec, Except.toOption]
  last u := by
    rw [hrep.checkpoint, holdings_apply, Option.isSome_iff_exists]
    simp only [Option.bind_eq_some_iff, holding_eq_some]
    constructor
    · rintro ⟨p, e, he, env, claim, rfl, -⟩
      exact ⟨env, claim, p.devices, he⟩
    · rintro ⟨env, claim, devices, he⟩
      exact ⟨⟨env.stat, devices⟩, _, he, env, claim, rfl, rfl⟩
  devices u env claim devices hlast := by
    have hu : holdings log u = some ⟨env.stat, devices⟩ := by
      rw [holdings_apply, hlast]
      rfl
    obtain ⟨spec, hspec⟩ := hrep.built u _ hu
    refine ⟨?_, ?_, spec, ?_, describes_of_buildSpec hspec (hrep.ids u _ hu)⟩
    · rw [hrep.checkpoint, hu]
      rfl
    · rw [hrep.claimDevices, hu]
      rfl
    · rw [hrep.specs u (hrep.plain u _ hu), hu]
      simp [hspec, Except.toOption]

/-! ## Preparing again -/

/-- Which devices a claim gets depends only on the flags, the tracked devices and the nodes. -/
theorem DeviceState.computeDevices_congr {s s' : DeviceState} {env env' : Env}
    (claim : ResourceClaim) (hflags : s'.flags = s.flags) (htracked : s'.tracked = s.tracked)
    (hstat : env'.stat = env.stat) :
    s'.computeDevices env' claim = s.computeDevices env claim := by
  have hresults : ∀ results, s'.prepareResults env' claim.uid results =
      s.prepareResults env claim.uid results := by
    intro results
    induction results with
    | nil => rfl
    | cons r rs ih =>
      simp only [DeviceState.prepareResults, DeviceState.deviceNodeExists, hflags, htracked, hstat,
        ih]
  unfold DeviceState.computeDevices
  cases claim.allocation with
  | none => rfl
  | some results => exact hresults results

/-- A prepare whose devices and spec can be built succeeds. -/
theorem Session.exec_prepare {x : External} {p : Session} {env : Env} {claim : ResourceClaim}
    {devices : List PreparedDevice} {spec : Spec}
    (hdevices : p.state.computeDevices env claim = .ok devices)
    (hspec : buildSpec x p.state.flags env.stat claim.uid devices = .ok spec) :
    p.exec x (.prepare env claim) = (.ok (.prepared devices),
      { state := p.state
        store := p.store.prepared claim.uid (deviceSnapshots devices)
          (specName x p.state.flags claim.uid) spec }) := by
  unfold Session.exec
  rw [execute_prepare hdevices hspec]
  rfl

/-- A prepare of a claim that holds what the prepare computes changes nothing. -/
theorem Represents.prepare_again {x : External} {p : Session} {h : Holdings}
    (hrep : Represents x p.state.flags p.store h) {env : Env} {claim : ResourceClaim}
    {devices : List PreparedDevice} (hdevices : p.state.computeDevices env claim = .ok devices)
    (hholds : h claim.uid = some ⟨env.stat, devices⟩) :
    p.exec x (.prepare env claim) = (.ok (.prepared devices), p) := by
  obtain ⟨spec, hspec⟩ := hrep.built _ _ hholds
  have hclaims := hrep.claimDevices claim.uid
  have hspecs := hrep.specs claim.uid (hrep.plain _ _ hholds)
  have hmem := (hrep.checkpoint claim.uid).mpr (by rw [hholds]; rfl)
  rw [hholds] at hclaims hspecs
  simp only [Option.bind_some, hspec, Except.toOption] at hspecs
  -- Each store already has what the prepare would write.
  rw [Session.exec_prepare hdevices hspec]
  unfold Store.prepared Checkpoint.add
  rw [if_pos hmem, Maps.insert_of_getElem? hclaims, Maps.insert_of_getElem? hspecs]

/-- A prepare that succeeds returns what it computed, and leaves the memory as it was. -/
theorem Session.exec_prepared {x : External} {p q : Session} {env : Env} {claim : ResourceClaim}
    {devices : List PreparedDevice}
    (h : p.exec x (.prepare env claim) = (.ok (.prepared devices), q)) :
    p.state.computeDevices env claim = .ok devices ∧ q.state = p.state := by
  have hexec := Op.executes x p.state p.store (.prepare env claim)
  unfold Session.exec at h
  generalize (Op.prepare env claim).execute x p.state p.store = r at hexec h
  obtain ⟨result, store⟩ := r
  cases hexec with
  | unavailable _ _ e herr => cases h
  | refused _ _ devices' e hdevices' herr => cases h
  | prepared _ _ devices' spec' hdevices' hspec' =>
    cases h
    exact ⟨hdevices', rfl⟩

/-- An operation with which a claim was served is the last one on it, if none succeeds on it
later. -/
theorem lastServed_append {u : UID} {log rest : List (Op × Result)} (h : lastServed u rest = none) :
    lastServed u (log ++ rest) = lastServed u log := by
  unfold lastServed at h ⊢
  rw [List.getLast?_eq_none_iff] at h
  rw [List.filter_append, h, List.append_nil]

/-- **The three stores agree, and claims are independent.** After every history of operations
without I/O errors that starts on empty stores, on claims of which the CDI library keeps one spec
file each:

* the stores agree with each other and with the last operation that succeeded on each claim;
* what they hold of a claim is the same after any other history with the same last operation on it,
  whatever came in between on other claims, failed, or reconciled;
* a prepare that succeeded, repeated while the tracked devices and the nodes are the same and
  nothing else succeeded on its claim, returns the same devices and changes no store. -/
theorem claim_stores_agree (x : External) (hx : x.NamesApart) (s : DeviceState) (ops : List Op)
    (hops : ∀ op ∈ ops, op.Plain) :
    StoresAgree x s.flags (Session.run x { state := s } ops).2.store
        (Session.run x { state := s } ops).1 ∧
      (∀ (s' : DeviceState) (ops' : List Op) (u : UID), s'.flags = s.flags →
        (∀ op ∈ ops', op.Plain) → PlainID u →
        lastServed u (Session.run x { state := s' } ops').1 =
          lastServed u (Session.run x { state := s } ops).1 →
        (Session.run x { state := s' } ops').2.store.claim x s.flags u =
          (Session.run x { state := s } ops).2.store.claim x s.flags u) ∧
      ∀ (env env' : Env) (claim : ResourceClaim) (devices : List PreparedDevice) (p : Session)
        (rest : List Op), PlainID claim.uid → (∀ op ∈ rest, op.Plain) →
        (Session.run x { state := s } ops).2.exec x (.prepare env claim) =
          (.ok (.prepared devices), p) →
        lastServed claim.uid (p.run x rest).1 = none →
        (p.run x rest).2.state.tracked = p.state.tracked → env'.stat = env.stat →
        (p.run x rest).2.exec x (.prepare env' claim) =
          (.ok (.prepared devices), (p.run x rest).2) := by
  refine ⟨(represents_holdings hx s hops).agree, ?_, ?_⟩
  · intro s' ops' u hflags hops' hu hlast
    have hrep' := represents_holdings hx s' hops'
    rw [hflags] at hrep'
    rw [hrep'.claim hu, (represents_holdings hx s hops).claim hu, holdings_apply, holdings_apply,
      hlast]
  · intro env env' claim devices p rest hclaim hrest hexec hlast htracked hstat
    -- The whole history, with the prepare and what follows it.
    have hrun : Session.run x { state := s } (ops ++ .prepare env claim :: rest) =
        ((Session.run x { state := s } ops).1 ++
          (.prepare env claim, .ok (.prepared devices)) :: (p.run x rest).1, (p.run x rest).2) := by
      rw [Session.run_append, Session.run_cons, hexec]
    have hall : ∀ op ∈ ops ++ .prepare env claim :: rest, op.Plain := by
      intro op hop
      rcases List.mem_append.mp hop with hop | hop
      · exact hops op hop
      · rcases List.mem_cons.mp hop with rfl | hop
        · rintro _ ⟨⟩
          exact hclaim
        · exact hrest op hop
    obtain ⟨hflags, hrep⟩ :=
      Represents.run hx (p := { state := s }) (represents_empty x s.flags) hall
    rw [hrun] at hflags hrep
    obtain ⟨hdevices, hstate⟩ := Session.exec_prepared hexec
    have hbefore := (Represents.run hx (p := { state := s }) (represents_empty x s.flags) hops).1
    -- The claim holds what the first prepare computed, and the second one computes the same.
    refine Represents.prepare_again (hflags ▸ hrep) ?_ ?_
    · rw [← hdevices]
      exact DeviceState.computeDevices_congr claim (hflags.trans hbefore.symm)
        (htracked.trans (congrArg DeviceState.tracked hstate)) hstat
    · change holdings _ claim.uid = _
      rw [holdings_apply, List.append_cons, lastServed_append hlast, lastServed_concat, hstat,
        if_pos (by simp [serves])]
      rfl

/-- The session of a process on the host that has found both decoders. -/
def hostSession : Session :=
  (Session.run plainExternal { state := freshState hostFlags }
    [.reconcile (hostEnv 0 bothNodes) bothFound]).2

/-- On a host with both decoders a prepare succeeds, its claim has the decoder recorded and in its
spec, and repeating it changes nothing. -/
theorem claim_stores_agree_host : ∃ (p : Session) (spec : Spec),
    hostSession.exec plainExternal hostPrepare = (.ok (.prepared [hostPrepared]), p) ∧
    p.store.claimDevices.claims["u"]? = some [hostDecoder "vpu-rkvdec-0" "/dev/video1"] ∧
    p.store.specs[specName plainExternal hostFlags "u"]? = some spec ∧
    List.Forall₂ (PreparedDevice.Describes hostFlags (hostEnv 1 bothNodes).stat "u") [hostPrepared]
      spec.devices ∧
    p.exec plainExternal (.prepare (hostEnv 2 bothNodes) (hostClaim "u" "vpu-rkvdec-0")) =
      (.ok (.prepared [hostPrepared]), p) := by
  have hdevices : hostSession.state.computeDevices (hostEnv 1 bothNodes)
      (hostClaim "u" "vpu-rkvdec-0") = .ok [hostPrepared] := by
    decide +kernel
  have hexec := Session.exec_prepare (x := plainExternal) hdevices rfl
  -- The reconcile and the prepare are a history of plain operations.
  have hreconcile : Op.Plain (.reconcile (hostEnv 0 bothNodes) bothFound) := by rintro _ ⟨⟩
  have hagree := (claim_stores_agree plainExternal plainExternal_namesApart (freshState hostFlags)
    [.reconcile (hostEnv 0 bothNodes) bothFound, hostPrepare]
    (List.forall_mem_cons.mpr ⟨hreconcile, List.forall_mem_singleton.mpr hostPrepare_plain⟩)).1
  have hagain := (claim_stores_agree plainExternal plainExternal_namesApart (freshState hostFlags)
    [.reconcile (hostEnv 0 bothNodes) bothFound] (List.forall_mem_singleton.mpr hreconcile)).2.2
  obtain ⟨-, hentry, spec, hspec, -, hdescribes⟩ := hagree.devices "u" _ _ [hostPrepared] (by
    change lastServed "u" [_, (_, (hostSession.exec plainExternal hostPrepare).1)] = _
    rw [show hostSession.exec plainExternal hostPrepare = _ from hexec]
    rfl)
  refine ⟨_, spec, hexec, hentry, hspec, hdescribes, ?_⟩
  exact hagain (hostEnv 1 bothNodes) (hostEnv 2 bothNodes) (hostClaim "u" "vpu-rkvdec-0")
    [hostPrepared] _ [] (by decide) (by simp) hexec rfl rfl rfl

end RockchipDra.Plugin
