import RockchipDra.Plugin.Host

/-!
# The health of tracked devices

A reconcile builds every entry anew, from the device that was found or from the previous entry of a
device that is retained. `TrackedDevice.WellFormed` is what holds of every entry, whichever way it
was built, and `Follows` is what holds between an entry and the one that an earlier reconcile left
under the same name: a device that stays unhealthy keeps the time of its taint, one that becomes
unhealthy is tainted at the time of the reconcile, and a node that was seen stays seen.

A missing node is reported as unhealthy only if a reconcile has seen the node before, and a prepare
does not count as seeing it. So the loss of a claimed node can go unreported
(`claimed_node_loss_unreported`). `claimed_node_loss_reported_iff` says exactly when it is reported.
-/

namespace RockchipDra.Plugin

open Go Discovery Effect

/-! ## Entries -/

/-- What holds of every entry that a reconcile leaves. -/
structure TrackedDevice.WellFormed (td : TrackedDevice) : Prop where
  /-- An unhealthy device is tainted with one of two values, and only an unhealthy device is. -/
  taintValue : td.status = .unhealthy ↔
    td.taintValue = Consts.taintValueNodeMissing ∨ td.taintValue = Consts.taintValueNotDiscovered
  /-- The taint has a time, and without a taint there is none. -/
  taintedAt : td.status = .unhealthy ↔ td.taintedAt ≠ 0
  /-- The node of a healthy device is there, and nothing is to be said about it. -/
  healthy : td.status = .healthy → td.nodeSeen = true ∧ td.message = ""
  /-- The node of a device of unknown health was never seen, and the device is not tainted. -/
  unknown : td.status = .unknown → td.nodeSeen = false ∧ td.taintValue = "" ∧ deviceTaints td = []
  /-- Only a node that was seen can be missing. -/
  nodeMissing : td.taintValue = Consts.taintValueNodeMissing → td.nodeSeen = true

/-- What holds between the entry before a reconcile, if there is one, and the entry after it. -/
structure Follows (now : Time) (prev : Option TrackedDevice) (td : TrackedDevice) : Prop where
  /-- A device that stays unhealthy keeps the time of its taint. -/
  stays : ∀ p, prev = some p → p.status = .unhealthy → td.status = .unhealthy →
    td.taintedAt = p.taintedAt
  /-- A device that becomes unhealthy, or is unhealthy when it is first tracked, is tainted now. -/
  becomes : (∀ p, prev = some p → p.status ≠ .unhealthy) → td.status = .unhealthy →
    td.taintedAt = now
  /-- A node that was seen stays seen. -/
  seen : ∀ p, prev = some p → p.nodeSeen = true → td.nodeSeen = true

/-- Whether a previous entry has seen its node. -/
def seenBefore (prev : Option TrackedDevice) : Bool := prev.any (·.nodeSeen)

/-- The time of a taint is never the zero time. -/
theorem taintTime_ne_zero {now : Time} (hnow : now ≠ 0) (before : Time) :
    (if before = 0 then now else before) ≠ 0 := by
  split_ifs with h
  · exact hnow
  · exact h

section Entries

variable (now : Time) (d : Device) (prev : Option TrackedDevice)

/-- An enumerated device whose node exists. -/
theorem assessEnumerated_present : assessEnumerated now d prev true =
    { toDevice := d, status := .healthy, nodeSeen := true } := by
  cases prev <;> rfl

/-- An enumerated device whose node is missing and was seen before. -/
theorem assessEnumerated_missing (h : seenBefore prev = true) :
    ∃ p, prev = some p ∧ p.nodeSeen = true ∧ assessEnumerated now d prev false =
      { toDevice := d, status := .unhealthy, message := "device node missing", nodeSeen := true,
        taintedAt := if p.taintedAt = 0 then now else p.taintedAt,
        taintValue := Consts.taintValueNodeMissing } := by
  cases prev with
  | none => cases h
  | some p =>
    have hseen : p.nodeSeen = true := h
    refine ⟨p, rfl, hseen, ?_⟩
    simp [assessEnumerated, markUnavailable, hseen]

/-- An enumerated device whose node is missing and was never seen. -/
theorem assessEnumerated_absent (h : seenBefore prev = false) : assessEnumerated now d prev false =
    { toDevice := d, status := .unknown, message := "device node not yet present" } := by
  cases prev with
  | none => rfl
  | some p =>
    have hseen : p.nodeSeen = false := h
    simp [assessEnumerated, hseen]

/-- The health of an enumerated device. -/
theorem assessEnumerated_status (nodeOK : Bool) : (assessEnumerated now d prev nodeOK).status =
    if nodeOK then .healthy else if seenBefore prev then .unhealthy else .unknown := by
  cases nodeOK with
  | true => rw [assessEnumerated_present]; rfl
  | false =>
    cases hseen : seenBefore prev with
    | true =>
      obtain ⟨p, -, -, heq⟩ := assessEnumerated_missing now d prev hseen
      rw [heq]
      rfl
    | false => rw [assessEnumerated_absent now d prev hseen]; rfl

/-- Every assessment of an enumerated device is well formed. -/
theorem assessEnumerated_wellFormed (hnow : now ≠ 0) (nodeOK : Bool) :
    (assessEnumerated now d prev nodeOK).WellFormed := by
  -- The node is there, was there before, or was never seen.
  cases nodeOK with
  | true =>
    rw [assessEnumerated_present]
    constructor <;> simp [Consts.taintValueNodeMissing, Consts.taintValueNotDiscovered]
  | false =>
    cases hseen : seenBefore prev with
    | true =>
      obtain ⟨p, -, -, heq⟩ := assessEnumerated_missing now d prev hseen
      rw [heq]
      have htime := taintTime_ne_zero hnow p.taintedAt
      constructor <;> simp [htime]
    | false =>
      rw [assessEnumerated_absent now d prev hseen]
      constructor <;>
        simp [Consts.taintValueNodeMissing, Consts.taintValueNotDiscovered, deviceTaints]

/-- The entry of a retained device is unhealthy. -/
theorem retainedEntry_status : (retainedEntry now prev d).status = .unhealthy := rfl

/-- Every entry of a retained device is well formed. -/
theorem retainedEntry_wellFormed (hnow : now ≠ 0) : (retainedEntry now prev d).WellFormed := by
  have htime := taintTime_ne_zero hnow (prev.getD { toDevice := d }).taintedAt
  constructor <;>
    simp [retainedEntry, markUnavailable, Consts.taintValueNodeMissing,
      Consts.taintValueNotDiscovered, htime]

/-- The time of a taint that is set or kept. -/
theorem taintTime_follows (hprev : ∀ p, prev = some p → p.WellFormed) {before : Time}
    (hbefore : before = prev.elim 0 TrackedDevice.taintedAt) {td : TrackedDevice}
    (htd : td.status = .unhealthy → td.taintedAt = if before = 0 then now else before)
    (hseen : ∀ p, prev = some p → p.nodeSeen = true → td.nodeSeen = true) :
    Follows now prev td where
  stays := by
    rintro p rfl hp hstatus
    -- A well-formed unhealthy entry has a time, which is therefore kept.
    have hne : p.taintedAt ≠ 0 := (hprev p rfl).taintedAt.mp hp
    have hbefore : before = p.taintedAt := hbefore
    rw [htd hstatus, hbefore, if_neg hne]
  becomes := by
    intro hne hstatus
    -- Without an unhealthy entry there is no time yet.
    have hzero : before = 0 := by
      cases hprev' : prev with
      | none =>
        rw [hbefore, hprev']
        rfl
      | some p =>
        rw [hbefore, hprev']
        by_contra hp
        exact hne p hprev' ((hprev p hprev').taintedAt.mpr hp)
    rw [htd hstatus, if_pos hzero]
  seen := hseen

/-- The assessment of an enumerated device follows its previous entry. -/
theorem assessEnumerated_follows (hprev : ∀ p, prev = some p → p.WellFormed) (nodeOK : Bool) :
    Follows now prev (assessEnumerated now d prev nodeOK) := by
  refine taintTime_follows now prev hprev rfl ?_ ?_
  · intro hstatus
    cases nodeOK with
    | true =>
      rw [assessEnumerated_present] at hstatus
      cases hstatus
    | false =>
      -- Only a missing node that was seen makes the entry unhealthy.
      cases hseen : seenBefore prev with
      | true =>
        obtain ⟨p, rfl, -, heq⟩ := assessEnumerated_missing now d prev hseen
        rw [heq]
        rfl
      | false =>
        rw [assessEnumerated_absent now d prev hseen] at hstatus
        cases hstatus
  · rintro p rfl hp
    cases nodeOK with
    | true => rw [assessEnumerated_present]
    | false =>
      obtain ⟨q, -, -, heq⟩ := assessEnumerated_missing now d (some p) hp
      rw [heq]

/-- The entry of a retained device follows its previous entry. -/
theorem retainedEntry_follows (hprev : ∀ p, prev = some p → p.WellFormed) :
    Follows now prev (retainedEntry now prev d) := by
  refine taintTime_follows now prev hprev rfl ?_ ?_
  · intro _
    cases prev <;> rfl
  · rintro p rfl hp
    exact hp

end Entries

/-! ## The memory of a process -/

/-- Entries stand under the names of their devices and are well formed. -/
structure DeviceState.Consistent (s : DeviceState) : Prop where
  keyed : Keyed s.tracked
  entries : ∀ (name : String) td, s.tracked[name]? = some td → td.WellFormed

/-- An empty memory is consistent. -/
theorem freshState_consistent (f : Flags) : (freshState f).Consistent := by
  constructor <;> simp [Keyed, freshState]

section Reconcile

variable {x : External} {s : DeviceState} {env : Env} {found : List Device} {σ : Store}
  {name : String} {td : TrackedDevice}

/-- An entry that a reconcile leaves was assessed or retained. -/
theorem reconcileFrom_entry (htd : (s.reconcileFrom x env found σ).2.tracked[name]? = some td) :
    (∃ d, lastFound found name = some d ∧ td = assessEnumerated env.now d s.tracked[name]?
        (s.deviceNodeExists env.stat d.deviceNode)) ∨
      lastFound found name = none ∧ ∃ snap, td = retainedEntry env.now s.tracked[name]? snap := by
  rw [DeviceState.reconcileFrom_tracked, getElem?_nextTracked] at htd
  -- What was found is assessed, and only a name that was not found can be retained.
  cases hfound : lastFound found name with
  | some d =>
    rw [hfound] at htd
    exact .inl ⟨d, rfl, (Option.some.inj htd).symm⟩
  | none =>
    rw [hfound] at htd
    obtain ⟨snap, -, rfl⟩ := Option.map_eq_some_iff.mp htd
    exact .inr ⟨rfl, snap, rfl⟩

/-- A reconcile leaves a consistent memory. -/
theorem DeviceState.Consistent.reconcileFrom (hs : s.Consistent) (x : External) (env : Env)
    (found : List Device) (σ : Store) : (s.reconcileFrom x env found σ).2.Consistent where
  keyed := nextTracked_keyed hs.keyed env found _ _ _
  entries := by
    intro name td htd
    rcases reconcileFrom_entry htd with ⟨d, -, rfl⟩ | ⟨-, snap, rfl⟩
    · exact assessEnumerated_wellFormed _ _ _ env.now_ne_zero _
    · exact retainedEntry_wellFormed _ _ _ env.now_ne_zero

/-- Every entry that a reconcile leaves follows the one it found under its name. -/
theorem DeviceState.Consistent.follows (hs : s.Consistent)
    (htd : (s.reconcileFrom x env found σ).2.tracked[name]? = some td) :
    Follows env.now s.tracked[name]? td := by
  rcases reconcileFrom_entry htd with ⟨d, -, rfl⟩ | ⟨-, snap, rfl⟩
  · exact assessEnumerated_follows _ _ _ (hs.entries name) _
  · exact retainedEntry_follows _ _ _ (hs.entries name)

/-- A process has a consistent memory. -/
def Consistent (_ : Ledger) (st : Option DeviceState) : Prop := ∀ s, st = some s → s.Consistent

/-- An operation runs on a consistent memory. -/
theorem Serves.consistent {l : Ledger} {st : Option DeviceState} {op : Op}
    (hserves : Serves st s op) (h : Consistent l st) : s.Consistent := by
  cases hserves with
  | up => exact h s rfl
  | booting f => exact freshState_consistent f

/-- Nothing that can happen makes the memory inconsistent. -/
theorem Consistent.transition {fit : DeviceState → Op → Ledger → Prop} {l l' : Ledger}
    {st st' : Option DeviceState} (h : Transition x fit l st l' st') (hl : Consistent l st) :
    Consistent l' st' :=
  h.memory DeviceState.Consistent freshState_consistent
    (fun _ env found σ hs => hs.reconcileFrom x env found σ) hl

/-- A world without a process is consistent. -/
theorem World.keeps_consistent (l : Ledger) :
    World.Keeps x (fun _ _ _ => True) Consistent { ledger := l } := by
  refine .init ?_
  rintro s ⟨⟩

/-- Every step keeps a world consistent. -/
theorem World.Keeps.consistent_step {w w' : World} {e : Event}
    (hw : w.Keeps x (fun _ _ _ => True) Consistent) (hstep : w.step x e = some w') :
    w'.Keeps x (fun _ _ _ => True) Consistent :=
  hw.step (fun _ _ _ _ _ _ => trivial) (fun _ _ _ _ h hl => hl.transition h) hstep
    fun _ _ _ => trivial

end Reconcile

/-! ## The lifecycle of taints -/

/-- What a step does to the health of the tracked devices. -/
structure World.KeepsTaints (w : World) (e : Event) (w' : World) : Prop where
  /-- Every entry is well formed. -/
  entries :
    ∀ s, w'.state = some s → ∀ (name : String) td, s.tracked[name]? = some td → td.WellFormed
  /-- A successful reconcile works on the memory that the last one left, or on an empty one. -/
  before : ∀ r, w.reconciled e = some r →
    w.state = some r.before ∨ w.state = none ∧ r.before.tracked = ∅
  /-- The memory it leaves is the memory of the process. -/
  after : ∀ r, w.reconciled e = some r → w'.state = some r.after
  /-- Its entries follow those that it found. -/
  follows : ∀ r, w.reconciled e = some r → ∀ (name : String) td, r.after.tracked[name]? = some td →
    Follows r.env.now r.before.tracked[name]? td
  /-- Nothing else changes the memory of a process. -/
  unchanged : w.reconciled e = none → w'.state = w.state ∨ e = .crash

/-- **Taint lifecycle.** In every run, from any stores, every tracked device is well formed in every
state, and every successful reconcile leaves entries that follow those of the one before: a device
that stays unhealthy keeps the time of its taint, a device that becomes unhealthy is tainted at the
time of the reconcile, and a node that was seen stays seen. -/
theorem taint_lifecycle (x : External) (l : Ledger) (es : List Event) :
    Along (World.step x) World.KeepsTaints { ledger := l } es := by
  refine along_of_invariant (R := fun _ _ _ => True) _
    (fun _ _ _ hw hstep _ => World.Keeps.consistent_step hw hstep) ?_ (World.keeps_consistent l)
    (along_of_forall (fun _ _ _ _ => trivial) _ _)
  intro w e w' hw hstep _
  have hconsistent' := (World.Keeps.consistent_step hw hstep).2
  obtain ⟨hsound, hconsistent⟩ := hw
  refine ⟨fun s hs => (hconsistent' s hs).entries, ?_, ?_, ?_, hsound.memory_unchanged hstep⟩
  · intro r hr
    obtain ⟨hserves, -⟩ := hsound.reconciled hstep hr
    generalize w.state = st at hserves ⊢
    generalize r.before = s at hserves ⊢
    cases hserves with
    | up => exact .inl rfl
    | booting f => exact .inr ⟨rfl, rfl⟩
  · intro r hr
    exact (hsound.reconciled hstep hr).2.2.1
  · intro r hr name td htd
    obtain ⟨hserves, -, -, hafter⟩ := hsound.reconciled hstep hr
    rw [hafter] at htd
    exact (hserves.consistent hconsistent).follows htd

/-! ## The loss of a claimed node -/

/-- After a reconcile the unhealthy devices are the tainted ones. -/
theorem reconcileFrom_tainted {x : External} {s : DeviceState} (hs : s.Consistent) {env : Env}
    {found : List Device} {σ : Store} {name : String} {td : TrackedDevice}
    (htd : (s.reconcileFrom x env found σ).2.tracked[name]? = some td) :
    (s.reconcileFrom x env found σ).2.driverResources.Tainted name ↔ td.status = .unhealthy := by
  have hkeyed := (hs.reconcileFrom x env found σ).keyed
  unfold DriverResources.Tainted
  simp only [DeviceState.reconcileFrom_driverResources, mem_devices_devicesToResources,
    mem_trackedList]
  constructor
  · rintro ⟨_, ⟨td', ⟨name', htd'⟩, rfl⟩, hname, taint, htaint, -⟩
    -- The published device of this name is that of the entry under this name.
    have hname' : name' = name := (hkeyed name' td' htd').symm.trans hname
    subst hname'
    obtain rfl := Option.some.inj (htd.symm.trans htd')
    by_contra hstatus
    simp [toResourceDevice, deviceTaints, hstatus] at htaint
  · intro hstatus
    refine ⟨toResourceDevice td, ⟨td, ⟨name, htd⟩, rfl⟩, hkeyed name td htd, ?_⟩
    simp [toResourceDevice, deviceTaints, hstatus]

/-- After a successful reconcile of a process that does not mock its devices, a claimed device with
a node whose char device was found missing is unhealthy and tainted. -/
def World.ReportsLoss (w : World) (e : Event) (w' : World) : Prop :=
  ∀ r, w.reconciled e = some r → r.before.flags.mock = false → ∀ s, w'.state = some s →
    ∀ d, w'.ledger.Claimed d → d.deviceNode ≠ "" → ∀ td, s.tracked[d.name]? = some td →
      r.before.deviceNodeExists r.env.stat td.deviceNode = false →
      td.status = .unhealthy ∧ s.driverResources.Tainted d.name

/-- Whenever a successful reconcile finds a device of the name of a claimed one and its node is
missing, the previous entry under that name has seen its node. -/
def World.SawClaimedNodes (w : World) (e : Event) (_ : World) : Prop :=
  ∀ r, w.reconciled e = some r → r.before.flags.mock = false →
    ∀ d, w.ledger.Claimed d → d.deviceNode ≠ "" → ∀ f, lastFound r.found d.name = some f →
      r.before.deviceNodeExists r.env.stat f.deviceNode = false →
      seenBefore r.before.tracked[d.name]? = true

/-- **Loss of a claimed node.** Along a run the loss of every claimed node is reported if and only
if, whenever a reconcile finds a device of the name of a claimed one with its node missing, the
previous entry of that name has seen its node. -/
theorem claimed_node_loss_reported_iff (x : External) (es : List Event) :
    Along (World.step x) World.ReportsLoss {} es ↔
      Along (World.step x) World.SawClaimedNodes {} es := by
  refine along_congr (R := fun _ _ _ => True)
    (World.Keeps x (fun _ _ _ => True) Consistent) ?_ ?_ (World.keeps_consistent _)
    (along_of_forall (fun _ _ _ _ => trivial) _ _)
  · intro w e w' hw hstep _ _
    exact hw.consistent_step hstep
  · rintro w e w' ⟨hsound, hconsistent⟩ hstep -
    refine forall_congr' fun r => forall_congr' fun hr => forall_congr' fun _ => ?_
    obtain ⟨hserves, hledger, hstate, hafter⟩ := hsound.reconciled hstep hr
    have hbefore := hserves.consistent hconsistent
    rw [hledger, hstate]
    constructor
    · -- The entry of the device that was found is not of unknown health.
      intro h d hd hnode f hf hmissing
      have htd : r.after.tracked[d.name]? = some (assessEnumerated r.env.now f
          r.before.tracked[d.name]? (r.before.deviceNodeExists r.env.stat f.deviceNode)) := by
        rw [hafter, DeviceState.reconcileFrom_tracked, getElem?_nextTracked, hf]
      obtain ⟨hstatus, -⟩ := h _ rfl d hd hnode _ htd
        (by rw [assessEnumerated_toDevice]; exact hmissing)
      rw [assessEnumerated_status, hmissing] at hstatus
      by_contra hseen
      simp [hseen] at hstatus
    · rintro h _ ⟨⟩ d hd hnode td htd hmissing
      rw [hafter] at htd ⊢
      rw [reconcileFrom_tainted hbefore htd, and_self]
      rcases reconcileFrom_entry htd with ⟨f, hf, rfl⟩ | ⟨-, snap, rfl⟩
      · rw [assessEnumerated_toDevice] at hmissing
        rw [assessEnumerated_status, hmissing, h d hd hnode f hf hmissing]
        rfl
      · rfl

/-- The process comes up before the nodes exist. They appear, a claim is prepared, they disappear,
and a reconcile is about to return. -/
def lostNodeEvents : List Event :=
  bootDecoders [] ++ prepareDecoder "u" "vpu-rkvdec-0" ++ reconcileDecoders [] bothFound

/-- It is not so that along every run, without I/O errors and with every enumeration taken from a
sysfs tree, the loss of a claimed node is reported. -/
theorem claimed_node_loss_unreported :
    ¬∀ (x : External) (es : List Event), (∀ e ∈ es, e.isSmooth) →
      Along (World.step x) (World.Starts fun s op _ => op.Discovers s) {} es →
      Along (World.step x) World.ReportsLoss {} es := by
  intro h
  have hfinds : findsDecoders (lostNodeEvents ++ [.finish]) := by decide +kernel
  have hreports := h plainExternal (lostNodeEvents ++ [.finish]) (by decide)
    (discovers_of_findsDecoders hfinds)
  -- The world before the reconcile returns, and what it returns.
  have hbefore : (run (World.step plainExternal) {} lostNodeEvents).bind (fun w =>
      (w.reconciled .finish).bind fun r => (w.step plainExternal .finish).bind fun w' =>
        w'.state.map fun s => (r.before.flags.mock,
          r.before.deviceNodeExists r.env.stat "/dev/video1", w'.ledger.claimed,
          s.tracked["vpu-rkvdec-0"]?.map fun td => (td.deviceNode, td.status))) =
      some (false, false, [hostDecoder "vpu-rkvdec-0" "/dev/video1"],
        some ("/dev/video1", .unknown)) := by
    decide +kernel
  simp only [Option.bind_eq_some_iff, Option.map_eq_some_iff, Prod.mk.injEq] at hbefore
  obtain ⟨w, hw, r, hr, w', hw', s, hs, hmock, hmissing, hclaimed, td, htd, hnode, hstatus⟩ :=
    hbefore
  have hloss := hreports.at_step hw hw' r hr hmock s hs (hostDecoder "vpu-rkvdec-0" "/dev/video1")
    ((Store.mem_claimed _ _).mp (by rw [hclaimed]; simp)) (by decide) td htd
    (by rw [hnode]; exact hmissing)
  rw [hstatus] at hloss
  cases hloss.1

end RockchipDra.Plugin
