import RockchipDra.Plugin.Retention

/-!
# Names of devices and the hardware behind them

Discovery names the video nodes by ordinals that it counts anew at every poll, and claims and
retained devices keep the names that they were given. When a node disappears while a sibling
remains, the sibling takes over its name. Two things that one would expect then fail:

* a node that a prepared claim holds under one name can be prepared for another claim under another
  name (`node_prepared_under_two_names`);
* the name of a claimed device can come to mean another node without the device being reported
  unhealthy (`name_taken_over_unnoticed`).

The first cannot happen as long as no enumeration gives a node that a prepared claim holds a name
other than the recorded one (`prepared_nodes_distinct`). For the second, `claimed_name_stable_iff`
says exactly which reconciles keep the meaning of a claimed name.
-/

namespace RockchipDra.Plugin

open Go Discovery Effect

/-! ## One name for each node -/

/-- The devices found do not give a node that a prepared claim holds another name. -/
def Op.KeepsNames (l : Ledger) : Op → Prop
  | .prepare _ _ => True
  | .unprepare _ => True
  | .reconcile _ found =>
    ∀ d ∈ found, ∀ e, l.Claimed e → d.deviceNode = e.deviceNode → d.name = e.name

/-- What is claimed after a command of a reconcile was claimed before. -/
theorem Op.Step.claimed_of_reconcile {s : DeviceState} {env : Env} {found : List Device}
    {l l' : Ledger} (h : (Op.reconcile env found).Step s l l') {d : Device} (hd : l'.Claimed d) :
    l.Claimed d := by
  rcases h.claimed hd with hd | ⟨env', claim, devices, hop, -⟩
  · exact hd
  · cases hop

/-- The commands of an operation keep what holds of the devices it found. -/
theorem Op.KeepsNames.step {s : DeviceState} {op : Op} {l l' : Ledger} (hstep : op.Step s l l')
    (h : op.KeepsNames l) : op.KeepsNames l' := by
  cases op with
  | prepare env claim => trivial
  | unprepare uid => trivial
  | reconcile env found =>
    intro d hd e he
    exact h d hd e (hstep.claimed_of_reconcile he)

/-- Devices on one node have one name. -/
def SameName (d e : Device) : Prop := d.deviceNode = e.deviceNode → d.name = e.name

/-- The nodes of prepared claims have one name each, and so have those that a process would
prepare. -/
structure NodesNamed (l : Ledger) (st : Option DeviceState) : Prop where
  /-- Recorded devices of prepared claims. -/
  claimed : ∀ d e, l.Claimed d → l.Claimed e → SameName d e
  /-- Tracked devices that can be prepared, and recorded ones. -/
  usable : ∀ s, st = some s → ∀ (name : String) td, s.tracked[name]? = some td →
    td.status ≠ .unhealthy → ∀ e, l.Claimed e → SameName td.toDevice e
  /-- Tracked devices that can be prepared. -/
  tracked : ∀ s, st = some s → ∀ (name name' : String) td td', s.tracked[name]? = some td →
    s.tracked[name']? = some td' → td.status ≠ .unhealthy → td'.status ≠ .unhealthy →
    SameName td.toDevice td'.toDevice

/-- A device that can be prepared is not unhealthy. -/
theorem status_ne_of_prepareError {td : TrackedDevice} {mock nodeExists : Bool}
    (h : prepareError td mock nodeExists = none) : td.status ≠ .unhealthy := by
  intro hstatus
  simp [prepareError, hstatus] at h

/-- A device that a command adds to the claimed ones is a tracked device that can be prepared. -/
theorem Op.Step.claimed_tracked {s : DeviceState} {op : Op} {l l' : Ledger} (h : op.Step s l l')
    {d : Device} (hd : l'.Claimed d) :
    l.Claimed d ∨ op.isPrepare = true ∧ ∃ (name : String) (td : TrackedDevice),
      s.tracked[name]? = some td ∧ td.toDevice = d ∧ td.status ≠ .unhealthy := by
  rcases h.claimed hd with hd | ⟨env, claim, devices, rfl, hdevices, hd⟩
  · exact .inl hd
  · obtain ⟨name, td, htd, hdev, herr⟩ := DeviceState.mem_deviceSnapshots hdevices hd
    exact .inr ⟨rfl, name, td, htd, hdev, status_ne_of_prepareError herr⟩

/-- An entry of a reconcile that is not unhealthy is that of a device that was found. -/
theorem mem_found_of_status_ne {x : External} {s : DeviceState} {env : Env} {found : List Device}
    {σ : Store} {name : String} {td : TrackedDevice}
    (htd : (s.reconcileFrom x env found σ).2.tracked[name]? = some td)
    (hstatus : td.status ≠ .unhealthy) : td.toDevice ∈ found := by
  rw [DeviceState.reconcileFrom_tracked, getElem?_nextTracked] at htd
  cases hfound : lastFound found name with
  | some d =>
    rw [hfound] at htd
    obtain rfl := Option.some.inj htd
    rw [assessEnumerated_toDevice]
    exact (lastFound_eq_some hfound).1
  | none =>
    rw [hfound] at htd
    obtain ⟨snap, -, rfl⟩ := Option.map_eq_some_iff.mp htd
    exact absurd rfl hstatus

/-- Devices of one enumeration on one node are one device. -/
theorem sameName_of_enumerate (t : Tree) (cfg : Config) {d e : Device} (hd : d ∈ enumerate t cfg)
    (he : e ∈ enumerate t cfg) : SameName d e := by
  intro hnode
  rw [List.inj_on_of_nodup_map (enumerate_nodes_nodup t cfg) hd he hnode]

/-- As long as no enumeration gives a claimed node another name, nothing breaks the naming. -/
theorem NodesNamed.transition {x : External} {l l' : Ledger} {st st' : Option DeviceState}
    (h : Transition x (fun s op l => op.Discovers s ∧ op.KeepsNames l) l st l' st')
    (hl : NodesNamed l st) : NodesNamed l' st' := by
  cases h with
  | idle => exact hl
  | command hserves _ hstep =>
    refine ⟨?_, ?_, hl.tracked⟩
    · intro d e hd he
      -- Each of the two devices was claimed before, or is tracked and not unhealthy.
      rcases hstep.claimed_tracked hd with hd | ⟨hprepare, name, td, htd, rfl, hstatus⟩
      · rcases hstep.claimed_tracked he with he | ⟨hprepare, name', td', htd', rfl, hstatus'⟩
        · exact hl.claimed d e hd he
        · cases hserves with
          | up => exact fun hnode =>
              (hl.usable _ rfl name' td' htd' hstatus' d hd hnode.symm).symm
          | booting => cases hprepare
      · cases hserves with
        | booting => cases hprepare
        | up =>
          rcases hstep.claimed_tracked he with he | ⟨-, name', td', htd', rfl, hstatus'⟩
          · exact hl.usable _ rfl name td htd hstatus e he
          · exact hl.tracked _ rfl name name' td td' htd htd' hstatus hstatus'
    · rintro s hs name td htd hstatus e he
      rcases hstep.claimed_tracked he with he | ⟨hprepare, name', td', htd', rfl, hstatus'⟩
      · exact hl.usable s hs name td htd hstatus e he
      · cases hserves with
        | booting => cases hprepare
        | up =>
          obtain rfl := Option.some.inj hs
          exact hl.tracked _ rfl name name' td td' htd htd' hstatus hstatus'
  | finish hserves hfit hpost =>
    cases hpost with
    | failed => exact hl
    | prepared => cases hserves; exact hl
    | unprepared => cases hserves; exact hl
    | reconciled env found =>
      -- An entry that is not unhealthy is a device of the enumeration, which keeps claimed names.
      obtain ⟨⟨t, ht⟩, hnames⟩ := hfit
      refine ⟨hl.claimed, ?_, ?_⟩
      · rintro _ ⟨⟩ name td htd hstatus e he
        exact hnames _ (mem_found_of_status_ne htd hstatus) e he
      · rintro _ ⟨⟩ name name' td td' htd htd' hstatus hstatus'
        have hmem := mem_found_of_status_ne htd hstatus
        have hmem' := mem_found_of_status_ne htd' hstatus'
        rw [ht] at hmem hmem'
        exact sameName_of_enumerate t _ hmem hmem'
  | crash =>
    refine ⟨hl.claimed, ?_, ?_⟩ <;> rintro s ⟨⟩

/-- Two devices recorded for prepared claims under different names have different nodes. -/
def World.NodesDistinct (w : World) : Prop :=
  ∀ d e, w.ledger.Claimed d → w.ledger.Claimed e → d.name ≠ e.name → d.deviceNode ≠ e.deviceNode

/-- **Exclusive nodes.** If every reconcile starts with an enumeration that gives no node of a
prepared claim a name other than the recorded one, then at every moment the devices recorded for
prepared claims under different names have different nodes. I/O errors and crashes are allowed. -/
theorem prepared_nodes_distinct (x : External) (es : List Event) (w : World)
    (hrun : run (World.step x) {} es = some w)
    (hstarts : Along (World.step x)
      (World.Starts fun s op l => op.Discovers s ∧ op.KeepsNames l) {} es) : w.NodesDistinct := by
  -- What is assumed of a reconcile at its start holds until it returns.
  have hkeeps : w.Keeps x (fun s op l => op.Discovers s ∧ op.KeepsNames l) NodesNamed := by
    refine World.keeps_of_run ?_ (fun _ _ _ _ h hl => hl.transition h) ?_ hrun hstarts
    · rintro s op l l' hstep ⟨hdiscovers, hnames⟩
      exact ⟨hdiscovers, hnames.step hstep⟩
    · refine ⟨?_, ?_, ?_⟩
      · rintro d e ⟨uid, ⟨⟩, -⟩
      all_goals rintro s ⟨⟩
  intro d e hd he hname hnode
  exact hname (hkeeps.2.claimed d e hd he hnode)

/-! ## Runs on a host with two decoders -/

/-- Whether a reconcile gives a node that a prepared claim holds another name. -/
def Op.keepsNamesBool (l : Ledger) : Op → Bool
  | .prepare _ _ => true
  | .unprepare _ => true
  | .reconcile _ found =>
    found.all fun d => l.claimed.all fun e => d.deviceNode ≠ e.deviceNode ∨ d.name = e.name

theorem Op.keepsNames_of_bool {l : Ledger} {op : Op} (h : op.keepsNamesBool l = true) :
    op.KeepsNames l := by
  cases op with
  | prepare env claim => trivial
  | unprepare uid => trivial
  | reconcile env found =>
    intro d hd e he hnode
    have he' : e ∈ l.claimed := (Store.mem_claimed _ _).mpr he
    have h := List.all_eq_true.mp (List.all_eq_true.mp h d hd) e he'
    rw [decide_eq_true_eq] at h
    exact h.resolve_left fun hne => hne hnode

/-- Both decoders are prepared, each for a claim of its own. -/
def exclusiveEvents : List Event :=
  bootDecoders bothNodes ++ prepareDecoder "a" "vpu-rkvdec-1" ++
    reconcileDecoders bothNodes bothFound ++ [.finish] ++ prepareDecoder "b" "vpu-rkvdec-0"

/-- After these events two claims are prepared, with different nodes. -/
theorem prepared_nodes_distinct_events : ∃ w : World,
    run (World.step plainExternal) {} exclusiveEvents = some w ∧
    w.ledger.checkpoint.preparedClaims = ["a", "b"] ∧ w.NodesDistinct := by
  have hend : (run (World.step plainExternal) {} exclusiveEvents).map
      (fun w => w.ledger.checkpoint.preparedClaims) = some ["a", "b"] := by decide +kernel
  obtain ⟨w, hw, hcp⟩ := Option.map_eq_some_iff.mp hend
  refine ⟨w, hw, hcp, prepared_nodes_distinct plainExternal exclusiveEvents w hw ?_⟩
  have hstarts : Along (World.step plainExternal)
      (fun w e _ => (w.starts e).all (fun p =>
        p.2.findsDecoders p.1 && p.2.keepsNamesBool w.ledger) = true) {} exclusiveEvents := by
    decide +kernel
  refine hstarts.mono fun w e _ _ h s op hop => ?_
  rw [hop, Option.all_some, Bool.and_eq_true] at h
  exact ⟨Op.discovers_of_findsDecoders h.1, Op.keepsNames_of_bool h.2⟩

/-- A claim holds the second decoder. The first one is unbound, the second one takes over its name,
and another claim is prepared with that name. -/
def sharedNodeEvents : List Event :=
  bootDecoders bothNodes ++ prepareDecoder "a" "vpu-rkvdec-1" ++
    reconcileDecoders bothNodes secondFound ++ [.finish] ++ prepareDecoder "b" "vpu-rkvdec-0"

/-- It is not so that in every run of one process, without I/O errors and with every enumeration
taken from a sysfs tree, prepared claims hold different nodes under different names. -/
theorem node_prepared_under_two_names :
    ¬∀ (x : External) (es : List Event) (w : World), run (World.step x) {} es = some w →
      (∀ e ∈ es, e.isSmooth) →
      Along (World.step x) (World.Starts fun s op _ => op.Discovers s) {} es → w.NodesDistinct := by
  intro h
  -- The claims hold the node of the second decoder under its old and its new name.
  have hend : (run (World.step plainExternal) {} sharedNodeEvents).map
      (fun w => w.ledger.claimed) = some [hostDecoder "vpu-rkvdec-1" "/dev/video2",
        hostDecoder "vpu-rkvdec-0" "/dev/video2"] := by decide +kernel
  obtain ⟨w, hw, hclaimed⟩ := Option.map_eq_some_iff.mp hend
  have hfinds : findsDecoders sharedNodeEvents := by decide +kernel
  have hdistinct := h plainExternal sharedNodeEvents w hw (by decide)
    (discovers_of_findsDecoders hfinds)
  have hmem : ∀ d, d ∈ w.ledger.claimed → w.ledger.Claimed d :=
    fun d hd => (Store.mem_claimed _ d).mp hd
  rw [hclaimed] at hmem
  exact hdistinct _ _ (hmem (hostDecoder "vpu-rkvdec-1" "/dev/video2") (by simp))
    (hmem (hostDecoder "vpu-rkvdec-0" "/dev/video2") (by simp)) (by decide) rfl

/-! ## What all devices have in common -/

/-- Every device that a prepared claim records or that a process tracks satisfies `P`. -/
structure EachDevice (P : Device → Prop) (l : Ledger) (st : Option DeviceState) : Prop where
  claimed : ∀ d, l.Claimed d → P d
  tracked : ∀ s, st = some s → ∀ (name : String) td, s.tracked[name]? = some td → P td.toDevice

/-- What a reconcile tracks satisfies `P` if what it finds, what it tracked, and what prepared
claims record does. -/
theorem reconcileFrom_each {P : Device → Prop} {x : External} {s : DeviceState} {env : Env}
    {found : List Device} {σ : Store} (hfound : ∀ d ∈ found, P d)
    (htracked : ∀ (name : String) td, s.tracked[name]? = some td → P td.toDevice)
    (hclaimed : ∀ d, σ.Claimed d → P d) {name : String} {td : TrackedDevice}
    (htd : (s.reconcileFrom x env found σ).2.tracked[name]? = some td) : P td.toDevice := by
  rw [DeviceState.reconcileFrom_tracked, getElem?_nextTracked, getElem?_claimedSnapshots] at htd
  cases hlast : lastFound found name with
  | some d =>
    rw [hlast] at htd
    obtain rfl := Option.some.inj htd
    rw [assessEnumerated_toDevice]
    exact hfound d (lastFound_eq_some hlast).1
  | none =>
    rw [hlast] at htd
    obtain ⟨snap, hsnap, rfl⟩ := Option.map_eq_some_iff.mp htd
    rw [retainedEntry_toDevice]
    -- A retained entry is the previous one, and after a restart the snapshot of a claim.
    cases hprev : s.tracked[name]? with
    | some prev => exact htracked name prev hprev
    | none =>
      have hmem := (mem_claimedDevices _ _ _ _).mp (lastFound_eq_some hsnap).1
      exact hclaimed snap hmem.2

/-- What every enumerated device satisfies, every device satisfies. -/
theorem EachDevice.transition {P : Device → Prop} {x : External}
    {fit : DeviceState → Op → Ledger → Prop}
    (hfit : ∀ s env found l, fit s (.reconcile env found) l → ∀ d ∈ found, P d) {l l' : Ledger}
    {st st' : Option DeviceState} (h : Transition x fit l st l' st') (hl : EachDevice P l st) :
    EachDevice P l' st' := by
  cases h with
  | idle => exact hl
  | command hserves _ hstep =>
    refine ⟨?_, hl.tracked⟩
    intro d hd
    rcases hstep.claimed_tracked hd with hd | ⟨hprepare, name, td, htd, rfl, -⟩
    · exact hl.claimed d hd
    · cases hserves with
      | up => exact hl.tracked _ rfl name td htd
      | booting => cases hprepare
  | finish hserves hop hpost =>
    cases hpost with
    | failed => exact hl
    | prepared => cases hserves; exact hl
    | unprepared => cases hserves; exact hl
    | reconciled env found =>
      refine ⟨hl.claimed, ?_⟩
      rintro _ ⟨⟩ name td htd
      refine reconcileFrom_each (hfit _ env found _ hop) ?_ hl.claimed htd
      cases hserves with
      | up => exact hl.tracked _ rfl
      | booting f => intro name td htd; simp [freshState] at htd
  | crash =>
    refine ⟨hl.claimed, ?_⟩
    rintro s ⟨⟩

/-- Nothing is claimed or tracked at the start. -/
theorem EachDevice.init (P : Device → Prop) : EachDevice P {} none := by
  refine ⟨?_, ?_⟩
  · rintro d ⟨uid, ⟨⟩, -⟩
  · rintro s ⟨⟩

/-! ## The node behind a claimed name -/

/-- Claimed and tracked devices have names. -/
structure Named (l : Ledger) (st : Option DeviceState) : Prop where
  consistent : Consistent l st
  claimed : ∀ d, l.Claimed d → d.name ≠ ""
  tracked : ∀ s, st = some s → ∀ (name : String) td, s.tracked[name]? = some td → td.name ≠ ""

/-- With enumerations taken from sysfs trees, everything has a name. -/
theorem Named.transition {x : External} {l l' : Ledger} {st st' : Option DeviceState}
    (h : Transition x (fun s op _ => op.Discovers s) l st l' st') (hl : Named l st) :
    Named l' st' := by
  have heach : EachDevice (fun d => d.name ≠ "") l' st' := by
    refine EachDevice.transition ?_ h ⟨hl.claimed, hl.tracked⟩
    rintro s env found l ⟨t, rfl⟩
    exact enumerate_name_ne t _
  exact ⟨hl.consistent.transition h, heach.claimed, heach.tracked⟩

/-- After a successful reconcile, the name of every claimed device is tracked on the node that the
claim was given, or the device is unhealthy and tainted. -/
def World.NamesKeepNodes (w : World) (e : Event) (w' : World) : Prop :=
  ∀ r, w.reconciled e = some r → ∀ s, w'.state = some s → ∀ d, w'.ledger.Claimed d →
    ∃ td, s.tracked[d.name]? = some td ∧
      (td.deviceNode = d.deviceNode ∨
        td.status = .unhealthy ∧ s.driverResources.Tainted d.name)

/-- When a successful reconcile finds a device of the name of a claimed one, it has the node that
the claim was given, or its node is missing and the previous entry has seen its node. -/
def World.FindsClaimedNodes (w : World) (e : Event) (_ : World) : Prop :=
  ∀ r, w.reconciled e = some r → ∀ d, w.ledger.Claimed d → ∀ f, lastFound r.found d.name = some f →
    f.deviceNode = d.deviceNode ∨
      r.before.deviceNodeExists r.env.stat f.deviceNode = false ∧
        seenBefore r.before.tracked[d.name]? = true

/-- For one claimed device: what is tracked under its name after a reconcile, by what was found. -/
theorem names_keep_node_iff {x : External} {s : DeviceState} (hs : s.Consistent) (env : Env)
    (found : List Device) {σ : Store} {d : Device} (hd : σ.Claimed d) (hname : d.name ≠ "") :
    (∃ td, (s.reconcileFrom x env found σ).2.tracked[d.name]? = some td ∧
      (td.deviceNode = d.deviceNode ∨ td.status = .unhealthy ∧
        (s.reconcileFrom x env found σ).2.driverResources.Tainted d.name)) ↔
    ∀ f, lastFound found d.name = some f → f.deviceNode = d.deviceNode ∨
      s.deviceNodeExists env.stat f.deviceNode = false ∧ seenBefore s.tracked[d.name]? = true := by
  have hmem : d.name ∈ (s.reconcileFrom x env found σ).2.tracked :=
    (DeviceState.mem_reconcileFrom_tracked x s env found σ d.name).mpr (.inr ⟨hname, d, hd, rfl⟩)
  obtain ⟨td, htd⟩ := Option.isSome_iff_exists.mp (Std.ExtTreeMap.mem_iff_isSome_getElem?.mp hmem)
  -- A claimed device is always tracked, so there is one entry to speak of.
  have hunique : ∀ P : TrackedDevice → Prop,
      (∃ td, (s.reconcileFrom x env found σ).2.tracked[d.name]? = some td ∧ P td) ↔ P td := by
    intro P
    constructor
    · rintro ⟨td', htd', h⟩
      obtain rfl := Option.some.inj (htd.symm.trans htd')
      exact h
    · exact fun h => ⟨td, htd, h⟩
  rw [hunique, reconcileFrom_tainted hs htd, and_self]
  rcases reconcileFrom_entry htd with ⟨f, hf, rfl⟩ | ⟨hf, snap, rfl⟩
  · -- Found: the entry is unhealthy exactly when the node is missing and was seen.
    have hstatus : (assessEnumerated env.now f s.tracked[d.name]?
        (s.deviceNodeExists env.stat f.deviceNode)).status = .unhealthy ↔
        s.deviceNodeExists env.stat f.deviceNode = false ∧
          seenBefore s.tracked[d.name]? = true := by
      rw [assessEnumerated_status]
      cases s.deviceNodeExists env.stat f.deviceNode <;>
        cases seenBefore s.tracked[d.name]? <;> simp
    rw [hstatus, assessEnumerated_toDevice, hf]
    constructor
    · rintro h _ ⟨⟩
      exact h
    · exact fun h => h f rfl
  · -- Not found: the entry is retained.
    rw [hf]
    exact ⟨fun _ _ h => (by cases h), fun _ => .inr rfl⟩

/-- **Meaning of a claimed name.** Along a run with enumerations taken from sysfs trees, every
claimed name keeps its node or is reported unhealthy if and only if every successful reconcile that
finds a device of the name of a claimed one finds it on the node that the claim was given, or finds
its node missing after it had been seen. -/
theorem claimed_name_stable_iff (x : External) (es : List Event)
    (hstarts : Along (World.step x) (World.Starts fun s op _ => op.Discovers s) {} es) :
    Along (World.step x) World.NamesKeepNodes {} es ↔
      Along (World.step x) World.FindsClaimedNodes {} es := by
  refine along_congr (World.Keeps x (fun s op _ => op.Discovers s) Named) ?_ ?_ ?_ hstarts
  · intro w e w' hw hstep hstart _
    exact hw.step (fun _ _ _ _ _ h => h) (fun _ _ _ _ h hl => hl.transition h) hstep hstart
  · rintro w e w' ⟨hsound, hnamed⟩ hstep -
    refine forall_congr' fun r => forall_congr' fun hr => ?_
    obtain ⟨hserves, hledger, hstate, hafter⟩ := hsound.reconciled hstep hr
    have hbefore := hserves.consistent hnamed.consistent
    rw [hledger, hstate, hafter]
    constructor
    · intro h d hd
      exact (names_keep_node_iff hbefore r.env r.found hd (hnamed.claimed d hd)).mp (h _ rfl d hd)
    · rintro h _ ⟨⟩ d hd
      exact (names_keep_node_iff hbefore r.env r.found hd (hnamed.claimed d hd)).mpr (h d hd)
  · have hinit := EachDevice.init fun d => d.name ≠ ""
    refine .init ⟨?_, hinit.claimed, hinit.tracked⟩
    rintro s ⟨⟩

/-- A claim holds the first decoder. The decoder is unbound, and the second one is found under its
name by a reconcile that is about to return. -/
def takeoverEvents : List Event :=
  bootDecoders bothNodes ++ prepareDecoder "u" "vpu-rkvdec-0" ++
    reconcileDecoders bothNodes secondFound

/-- Along these events the claimed name keeps its node exactly when it is found on it. -/
theorem claimed_name_stable_takeover :
    (run (World.step plainExternal) {} (takeoverEvents ++ [.finish])).isSome ∧
    (Along (World.step plainExternal) World.NamesKeepNodes {} (takeoverEvents ++ [.finish]) ↔
      Along (World.step plainExternal) World.FindsClaimedNodes {}
        (takeoverEvents ++ [.finish])) := by
  have hfinds : findsDecoders (takeoverEvents ++ [.finish]) := by decide +kernel
  exact
    ⟨by decide +kernel, claimed_name_stable_iff plainExternal _ (discovers_of_findsDecoders hfinds)⟩

/-- It is not so that along every run, without I/O errors and with every enumeration taken from a
sysfs tree, every claimed name keeps its node or is reported unhealthy. -/
theorem name_taken_over_unnoticed :
    ¬∀ (x : External) (es : List Event), (∀ e ∈ es, e.isSmooth) →
      Along (World.step x) (World.Starts fun s op _ => op.Discovers s) {} es →
      Along (World.step x) World.NamesKeepNodes {} es := by
  intro h
  have hfinds : findsDecoders (takeoverEvents ++ [.finish]) := by decide +kernel
  have hkeeps := h plainExternal (takeoverEvents ++ [.finish]) (by decide)
    (discovers_of_findsDecoders hfinds)
  -- The world before the reconcile returns, and what is tracked after it.
  have hbefore : (run (World.step plainExternal) {} takeoverEvents).bind (fun w =>
      (w.reconciled .finish).bind fun _ => (w.step plainExternal .finish).bind fun w' =>
        w'.state.map fun s => (w'.ledger.claimed,
          s.tracked["vpu-rkvdec-0"]?.map fun td => (td.deviceNode, td.status))) =
      some ([hostDecoder "vpu-rkvdec-0" "/dev/video1"], some ("/dev/video2", .healthy)) := by
    decide +kernel
  simp only [Option.bind_eq_some_iff, Option.map_eq_some_iff, Prod.mk.injEq] at hbefore
  obtain ⟨w, hw, r, hr, w', hw', s, hs, hclaimed, td, htd, hnode, hstatus⟩ := hbefore
  obtain ⟨td', htd', hor⟩ := hkeeps.at_step hw hw' r hr s hs
    (hostDecoder "vpu-rkvdec-0" "/dev/video1")
    ((Store.mem_claimed _ _).mp (by rw [hclaimed]; simp))
  obtain rfl := Option.some.inj (htd.symm.trans htd')
  rcases hor with hsame | ⟨hunhealthy, -⟩
  · rw [hnode] at hsame
    exact absurd hsame (by decide)
  · rw [hstatus] at hunhealthy
    cases hunhealthy

end RockchipDra.Plugin
