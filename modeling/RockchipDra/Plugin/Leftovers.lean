import RockchipDra.Effect.Strict
import RockchipDra.Plugin.Refinement

/-!
# What failures leave on the disk

Every fault of a system call is allowed here, `os.WriteFile` being cut short among them. An
operation stops at its first error (`Op.program_strict`), and so it never goes on from what a failed
write has left.

* `torn_checkpoint_permanent`: once the checkpoint cannot be read, no operation of any process
  succeeds and the disk does not change any more.
* `claim_devices_whole`: the claim devices are at every moment as a complete write has left them.
* `temporary_files_bounded`: an operation that succeeds leaves no temporary file behind, and one
  that fails or is killed leaves at most one.
-/

namespace RockchipDra.Plugin

open Go Discovery Effect Json

/-! ## Operations stop at their first error -/

section Operations

variable {x : External} {s : DeviceState}

theorem prepare_strict (env : Env) (claim : ResourceClaim) :
    Strict (s.prepare x env claim).run := by
  refine strict_bind (strict_mapError (strict_read _)) fun cp => ?_
  refine strict_bind (p := Fallible.ofExcept _) trivial fun devices => ?_
  refine strict_bind (strict_mapError (strict_bind (p := Fallible.ofExcept _) trivial
    fun spec => strict_write _)) fun _ => ?_
  refine strict_bind (strict_mapError (strict_bind (strict_read _) fun file => strict_write _))
    fun _ => ?_
  change Strict (ExceptT.run (if claim.uid ∉ cp.preparedClaims then _ else _))
  split_ifs
  · trivial
  · exact strict_bind (strict_mapError (strict_write _)) fun _ => trivial

theorem unprepare_strict (uid : UID) : Strict (s.unprepare x uid).run := by
  refine strict_bind (strict_mapError (strict_read _)) fun cp => ?_
  refine strict_bind (strict_mapError (strict_write _)) fun _ => ?_
  refine strict_bind (strict_mapError (strict_write _)) fun _ => ?_
  refine strict_mapError (strict_bind (strict_read _) fun file => ?_)
  change Strict (ExceptT.run (if uid ∈ file.claims then _ else _))
  split_ifs
  · exact strict_write _
  · trivial

theorem applyDiscoveryLocked_strict (env : Env) (found : List Device) :
    Strict (s.applyDiscoveryLocked x env found).run := by
  refine strict_bind (strict_mapError (strict_read _)) fun cp => ?_
  refine strict_bind (strict_mapError (strict_read _)) fun file => ?_
  change Strict (ExceptT.run (if (pruneClaimDevices env.order cp file).1 then _ else _))
  split_ifs
  · exact strict_bind (strict_mapError (strict_write _)) fun _ => trivial
  · trivial

/-- An operation stops at its first error. -/
theorem Op.program_strict (x : External) (s : DeviceState) (op : Op) :
    Strict (op.program x s).run := by
  cases op with
  | prepare env claim => exact strict_bind (prepare_strict env claim) fun _ => trivial
  | unprepare uid => exact strict_bind (unprepare_strict uid) fun _ => trivial
  | reconcile env found =>
    exact strict_bind (applyDiscoveryLocked_strict env found) fun _ => trivial

/-- An operation reads the checkpoint first. -/
theorem Op.program_eq_call (x : External) (s : DeviceState) (op : Op) :
    ∃ k, (op.program x s).run = .call (.read .checkpoint) k := by
  cases op with
  | prepare env claim => exact ⟨_, rfl⟩
  | unprepare uid => exact ⟨_, rfl⟩
  | reconcile env found => exact ⟨_, rfl⟩

end Operations

/-! ## System calls with every fault -/

section Rules

variable {d : Disk} {guar : Disk → Disk → Prop} {fail : String → Disk → Prop}

/-- A query leaves the disk as it was or takes effect. -/
theorem alone_query_disk {q : FileQuery} {post : q.Value → Disk → Prop}
    (hidle : guar d d ∧ ∀ e, fail e d)
    (hdone : ∀ suffix, guar d (d.query suffix q).2 ∧ ∀ e, fail e (d.query suffix q).2)
    (hok : ∀ suffix v, (d.query suffix q).1 = .ok v → post v (d.query suffix q).2) :
    (StorageM.read (W := FileAction) q).Alone disk guar post fail d := by
  refine alone_read fun choice => ?_
  obtain ⟨fate, suffix⟩ := choice
  cases fate with
  | ok => exact ⟨(hdone suffix).1, hok suffix, fun e _ => (hdone suffix).2 e⟩
  | before err => exact alone_failed hidle
  | part k err => exact alone_failed hidle
  | after err => exact alone_failed (hdone suffix)

/-- An action leaves the disk as it was, takes effect, or takes effect with a part of its data. -/
theorem alone_action_disk {a : FileAction} {post : Unit → Disk → Prop}
    (hidle : guar d d ∧ ∀ e, fail e d)
    (hdone : guar d (d.act a).2 ∧ ∀ e, fail e (d.act a).2)
    (hok : (d.act a).1 = .ok () → post () (d.act a).2)
    (hcut : ∀ k b, a.cut k = some b → guar d (d.act b).2 ∧ ∀ e, fail e (d.act b).2) :
    (StorageM.write (V := FileQuery.Value) a).Alone disk guar post fail d := by
  refine alone_write fun choice => ?_
  obtain ⟨fate, suffix⟩ := choice
  cases fate with
  | ok => exact ⟨hdone.1, fun _ => hok, fun e _ => hdone.2 e⟩
  | before err => exact alone_failed hidle
  | after err => exact alone_failed hdone
  | part k err =>
    have hpart : disk (.write a) ⟨.part k err, suffix⟩ d =
        (.error err, (a.cut k).elim d fun b => (d.act b).2) := rfl
    rw [hpart]
    cases hb : a.cut k with
    | none => exact alone_failed hidle
    | some b => exact alone_failed (hcut k b hb)

end Rules

/-! ## Temporary files -/

/-- The files in the directory of the plugin beside the checkpoint and the claim devices. -/
def Disk.temporary (d : Disk) : GoMap Bytes :=
  (d.files.erase driverPluginCheckpointFile).erase claimDevicesFileName

section Temporary

variable {d : Disk} {name : String}

theorem Disk.getElem?_temporary (d : Disk) (name : String) :
    d.temporary[name]? = if claimDevicesFileName = name then none
      else if driverPluginCheckpointFile = name then none else d.files[name]? := by
  rw [Disk.temporary, Maps.getElem?_erase, Maps.getElem?_erase]

theorem Disk.temporary_insert (hname : TempName name) (data : Bytes) :
    ({ d with files := d.files.insert name data } : Disk).temporary =
      d.temporary.insert name data := by
  refine Std.ExtTreeMap.ext_getElem? fun a => ?_
  rw [Maps.getElem?_insert, Disk.getElem?_temporary, Disk.getElem?_temporary, Maps.getElem?_insert]
  by_cases ha : name = a
  · subst ha
    rw [if_neg hname.2.symm, if_neg hname.1.symm, if_pos rfl, if_pos rfl]
  · rw [if_neg ha, if_neg ha]

theorem Disk.temporary_erase (d : Disk) (name : String) :
    ({ d with files := d.files.erase name } : Disk).temporary = d.temporary.erase name := by
  refine Std.ExtTreeMap.ext_getElem? fun a => ?_
  rw [Maps.getElem?_erase, Disk.getElem?_temporary, Disk.getElem?_temporary, Maps.getElem?_erase]
  split_ifs <;> rfl

/-- Writing one of the two files is no matter of the temporary ones. -/
theorem Disk.temporary_insert_of_not (hname : ¬TempName name) (data : Bytes) :
    ({ d with files := d.files.insert name data } : Disk).temporary = d.temporary := by
  refine Std.ExtTreeMap.ext_getElem? fun a => ?_
  rw [Disk.getElem?_temporary, Disk.getElem?_temporary, Maps.getElem?_insert]
  split_ifs with hdevices hcheckpoint ha
  · rfl
  · rfl
  · subst ha
    exact absurd ⟨fun h => hcheckpoint h.symm, fun h => hdevices h.symm⟩ hname
  · rfl

/-- A name of a temporary file that is not taken. -/
theorem Disk.not_mem_temporary (h : name ∉ d.files) : name ∉ d.temporary := by
  unfold Disk.temporary
  simp [h]

end Temporary

/-! ## What a command leaves at every cut -/

/-- The checkpoint can be read. -/
def Disk.Readable (d : Disk) : Prop :=
  ∃ cp, decodeCheckpoint d.files[driverPluginCheckpointFile]? = .ok cp

/-- The claim devices, if there are any, are as a complete write has left them. -/
def Disk.Whole (d : Disk) : Prop :=
  ∀ data, d.files[claimDevicesFileName]? = some data →
    ∃ file : ClaimDevicesFile, data = file.marshal

/-- What a command that started on a disk leaves at every cut and with every error: complete claim
devices, and at most one temporary file more. -/
structure Disk.Cut (d d' : Disk) : Prop where
  whole : d.Whole → d'.Whole
  temporary : d'.temporary.size ≤ d.temporary.size + 1

/-- What it leaves when it succeeds. -/
structure Disk.Done (d d' : Disk) : Prop where
  readable : d.Readable → d'.Readable
  whole : d.Whole → d'.Whole
  temporary : d'.temporary.size ≤ d.temporary.size

/-- Where a command that started on a disk issues its calls: the checkpoint is as it was. -/
structure Disk.Within (d d' : Disk) : Prop extends Disk.Cut d d' where
  checkpoint : d'.files[driverPluginCheckpointFile]? = d.files[driverPluginCheckpointFile]?

/-- A call of a command that started on `d`. -/
def Disk.Issues (d a b : Disk) : Prop :=
  a.files[driverPluginCheckpointFile]? = d.files[driverPluginCheckpointFile]? ∧ d.Cut b

section Commands

variable {d d' : Disk} {name : String}

theorem Disk.Done.cut (h : d.Done d') : d.Cut d' where
  whole := h.whole
  temporary := h.temporary.trans (Nat.le_succ _)

theorem Disk.Done.refl (d : Disk) : d.Done d := ⟨fun h => h, fun h => h, le_refl _⟩

theorem Disk.Within.refl (d : Disk) : d.Within d := ⟨(Disk.Done.refl d).cut, rfl⟩

theorem Disk.Within.issues {a b : Disk} (ha : d.Within a) (hb : d.Within b) : d.Issues a b :=
  ⟨ha.checkpoint, hb.toCut⟩

/-- A command has made a temporary file with some data, and nothing else. -/
structure Disk.Stages (d d' : Disk) (name : String) (data : Bytes) : Prop where
  temp : TempName name
  fresh : name ∉ d.temporary
  checkpoint : d'.files[driverPluginCheckpointFile]? = d.files[driverPluginCheckpointFile]?
  claimDevices : d'.files[claimDevicesFileName]? = d.files[claimDevicesFileName]?
  temporary : d'.temporary = d.temporary.insert name data

/-- The file that a command has made. -/
theorem Disk.Stages.getElem? {data : Bytes} (h : d.Stages d' name data) :
    d'.files[name]? = some data := by
  have hfile := d'.getElem?_temporary name
  rw [h.temporary, Maps.getElem?_insert, if_pos rfl, if_neg h.temp.2.symm,
    if_neg h.temp.1.symm] at hfile
  exact hfile.symm

theorem Disk.Stages.within {data : Bytes} (h : d.Stages d' name data) : d.Within d' where
  whole hd := by
    intro data' hdata
    rw [h.claimDevices] at hdata
    exact hd data' hdata
  temporary := by
    rw [h.temporary]
    exact Std.ExtTreeMap.size_insert_le
  checkpoint := h.checkpoint

/-- Writing to the file. -/
theorem Disk.Stages.write {data : Bytes} (h : d.Stages d' name data) (data' : Bytes) :
    d.Stages { d' with files := d'.files.insert name data' } name data' where
  temp := h.temp
  fresh := h.fresh
  checkpoint := by
    rw [Maps.getElem?_insert, if_neg h.temp.1]
    exact h.checkpoint
  claimDevices := by
    rw [Maps.getElem?_insert, if_neg h.temp.2]
    exact h.claimDevices
  temporary := by
    rw [Disk.temporary_insert h.temp, h.temporary]
    refine Std.ExtTreeMap.ext_getElem? fun a => ?_
    rw [Maps.getElem?_insert, Maps.getElem?_insert, Maps.getElem?_insert]
    split_ifs <;> rfl

/-- A new file. -/
theorem Disk.stages_createTemp {suffix : String} (h : tempPattern ++ suffix ∉ d.files) :
    d.Stages { d with files := d.files.insert (tempPattern ++ suffix) [] } (tempPattern ++ suffix)
      [] where
  temp := tempName_append suffix
  fresh := Disk.not_mem_temporary h
  checkpoint := by rw [Maps.getElem?_insert, if_neg (tempName_append suffix).1]
  claimDevices := by rw [Maps.getElem?_insert, if_neg (tempName_append suffix).2]
  temporary := Disk.temporary_insert (tempName_append suffix) []

/-- The rename that completes a write of the claim devices. -/
theorem Disk.Stages.rename {file : ClaimDevicesFile} (h : d.Stages d' name file.marshal) :
    d.Done (d'.act (.rename name claimDevicesFileName)).2 ∧
      d.Within (d'.act (.rename name claimDevicesFileName)).2 := by
  have hrename : (d'.act (.rename name claimDevicesFileName)).2 =
      { d' with files := (d'.files.erase name).insert claimDevicesFileName file.marshal } := by
    simp only [Disk.act, h.getElem?]
  have hcheckpoint : ((d'.files.erase name).insert claimDevicesFileName
      file.marshal)[driverPluginCheckpointFile]? = d.files[driverPluginCheckpointFile]? := by
    rw [Maps.getElem?_insert, if_neg (by decide), Maps.getElem?_erase, if_neg h.temp.1]
    exact h.checkpoint
  have hdone : d.Done
      { d' with files := (d'.files.erase name).insert claimDevicesFileName file.marshal } := by
    refine ⟨fun hd => ?_, fun _ data hdata => ?_, ?_⟩
    · obtain ⟨cp, hcp⟩ := hd
      exact ⟨cp, by rw [hcheckpoint, hcp]⟩
    · rw [Maps.getElem?_insert, if_pos rfl] at hdata
      exact ⟨file, (Option.some.inj hdata).symm⟩
    · -- The temporary files are those from before the write.
      have htemporary : ({ d' with
          files := (d'.files.erase name).insert claimDevicesFileName file.marshal } :
            Disk).temporary = d.temporary := by
        have herase := Disk.temporary_erase d' name
        rw [h.temporary, Maps.erase_insert, Maps.erase_of_not_mem h.fresh] at herase
        rw [← herase]
        exact Disk.temporary_insert_of_not (d := { d' with files := d'.files.erase name })
          (fun hname => hname.2 rfl) _
      exact le_of_eq (congrArg Std.ExtTreeMap.size htemporary)
  rw [hrename]
  exact ⟨hdone, hdone.cut, hcheckpoint⟩

/-- Removing a temporary file. -/
theorem Disk.Within.remove (h : d.Within d') (hname : TempName name) :
    d.Within (d'.act (.remove name)).2 := by
  rw [Disk.act]
  split_ifs
  · refine ⟨⟨fun hd data hdata => ?_, ?_⟩, ?_⟩
    · rw [Maps.getElem?_erase, if_neg hname.2] at hdata
      exact h.whole hd data hdata
    · rw [Disk.temporary_erase]
      exact Std.ExtTreeMap.size_erase_le.trans h.temporary
    · rw [Maps.getElem?_erase, if_neg hname.1]
      exact h.checkpoint
  · exact h

/-- Writing the checkpoint, or a part of it. -/
theorem Disk.cut_writeFile (d : Disk) (data : Bytes) :
    d.Cut { d with files := d.files.insert driverPluginCheckpointFile data } where
  whole hd := by
    intro data' hdata
    rw [Maps.getElem?_insert, if_neg (by decide)] at hdata
    exact hd data' hdata
  temporary := by
    rw [Disk.temporary_insert_of_not fun hname => hname.1 rfl]
    exact Nat.le_succ _

/-- A file is filled, with every fault. -/
theorem File.stage_leaves {data data' : Bytes} (h : d.Stages d' name data) :
    (Fallible.onError (StorageM.write (.close name)) (do
      StorageM.write (.write name data')
      StorageM.write (.chmod name)) : FileM Unit).Alone disk d.Issues
      (fun _ a => d.Stages a name data') (fun _ a => d.Within a) d' := by
  -- Closing the file after an error changes nothing.
  have hclose : ∀ a, d.Within a → (StorageM.write (V := FileQuery.Value)
      (FileAction.close name)).Alone disk d.Issues (fun _ b => d.Within b)
      (fun _ b => d.Within b) a :=
    fun a ha => alone_action_disk ⟨ha.issues ha, fun _ => ha⟩ ⟨ha.issues ha, fun _ => ha⟩
      (fun _ => ha) (by rintro k b ⟨⟩)
  refine Fallible.alone_onError (Fallible.alone_bind ?_)
  have hwrite := h.write data'
  refine alone_action_disk ⟨h.within.issues h.within, fun _ => hclose _ h.within⟩
    ⟨h.within.issues hwrite.within, fun _ => hclose _ hwrite.within⟩ (fun _ => ?_) ?_
  · exact alone_action_disk
      ⟨hwrite.within.issues hwrite.within, fun _ => hclose _ hwrite.within⟩
      ⟨hwrite.within.issues hwrite.within, fun _ => hclose _ hwrite.within⟩ (fun _ => hwrite)
      (by rintro k b ⟨⟩)
  -- A write that stops within its data leaves a shorter file.
  · rintro k _ ⟨⟩
    have hcut := (h.write (data'.take k)).within
    exact ⟨h.within.issues hcut, fun _ => hclose _ hcut⟩

/-- The claim devices are written, with every fault. -/
theorem File.writeClaimDevices_leaves (d : Disk) (file : ClaimDevicesFile) :
    (File.writeClaimDevices file).Alone disk d.Issues (fun _ d' => d.Done d')
      (fun _ d' => d.Within d') d := by
  have hcreate : ∀ suffix, d.Within (d.query suffix (.createTemp tempPattern)).2 := by
    intro suffix
    rw [Disk.query]
    split_ifs with hfree
    · exact Disk.Within.refl d
    · exact (Disk.stages_createTemp hfree).within
  refine Fallible.alone_bind (alone_query_disk
    ⟨(Disk.Within.refl d).issues (Disk.Within.refl d), fun _ => Disk.Within.refl d⟩
    (fun suffix => ⟨(Disk.Within.refl d).issues (hcreate suffix), fun _ => hcreate suffix⟩) ?_)
  intro suffix name hname
  have hstages : d.Stages (d.query suffix (.createTemp tempPattern)).2 name [] := by
    rw [Disk.query] at hname ⊢
    split_ifs at hname ⊢ with hfree
    cases hname
    exact Disk.stages_createTemp hfree
  generalize (d.query suffix (.createTemp tempPattern)).2 = a at hstages
  have htemp := hstages.temp
  -- The deferred removal keeps what holds after an error.
  refine Fallible.alone_onError (Fallible.Safe.mono (fun _ _ h => h) (fun _ _ h => h)
    (fun _ b hb => alone_action_disk ⟨hb.issues hb, fun _ => hb⟩
      ⟨hb.issues (hb.remove htemp), fun _ => hb.remove htemp⟩ (fun _ => hb.remove htemp)
      (by rintro k c ⟨⟩)) ?_)
  refine Fallible.alone_bind (Fallible.Safe.mono (fun _ _ h => h) ?_ (fun _ _ h => h)
    (File.stage_leaves hstages))
  intro _ b hb
  refine Fallible.alone_bind (alone_action_disk ⟨hb.within.issues hb.within, fun _ => hb.within⟩
    ⟨hb.within.issues hb.within, fun _ => hb.within⟩ (fun _ => ?_) (by rintro k c ⟨⟩))
  obtain ⟨hdone, hwithin⟩ := hb.rename
  exact alone_action_disk ⟨hb.within.issues hb.within, fun _ => hb.within⟩
    ⟨hb.within.issues hwithin, fun _ => hwithin⟩ (fun _ => hdone) (by rintro k c ⟨⟩)

/-- What the program of a command leaves, with every fault and at every cut. -/
theorem lower_leaves (c : Access StoreRead StoreWrite) (d : Disk) :
    (lower c).Safe disk Eq d.Issues
      (fun r d' => d.Done d' ∨ Access.succeeded r = false ∧ d.Cut d') d := by
  have hrefl : d.Issues d d ∧ ∀ _ : String, d.Cut d :=
    ⟨⟨rfl, (Disk.Done.refl d).cut⟩, fun _ => (Disk.Done.refl d).cut⟩
  have hread : ∀ {r : StoreRead} {p : FileM r.Value},
      p.Alone disk d.Issues (fun _ d' => d.Done d') (fun _ d' => d.Cut d') d →
      Prog.Safe disk Eq d.Issues (fun (a : StoreAnswer (.read r)) d' =>
        d.Done d' ∨ Access.succeeded a = false ∧ d.Cut d') p.run d :=
    fun hp => Fallible.Safe.run (hp.mono (fun _ _ h => h) (fun _ _ h => .inl h)
      fun _ _ h => .inr ⟨rfl, h⟩)
  have hwrite : ∀ {w : StoreWrite} {p : FileM Unit},
      p.Alone disk d.Issues (fun _ d' => d.Done d') (fun _ d' => d.Cut d') d →
      Prog.Safe disk Eq d.Issues (fun (a : StoreAnswer (.write w)) d' =>
        d.Done d' ∨ Access.succeeded a = false ∧ d.Cut d') p.run d :=
    fun hp => Fallible.Safe.run (hp.mono (fun _ _ h => h) (fun _ _ h => .inl h)
      fun _ _ h => .inr ⟨rfl, h⟩)
  -- Reading a file changes nothing, whether it can be decoded or not.
  have hfile : ∀ {α : Type} (name : String) (decode : Option Bytes → Except String α),
      (StorageM.read (.readFile name) >>= fun data => Fallible.ofExcept (decode data) :
        FileM α).Alone disk d.Issues (fun _ d' => d.Done d') (fun _ d' => d.Cut d') d := by
    intro α name decode
    refine Fallible.alone_bind (alone_query_disk hrefl (fun _ => hrefl) fun _ _ _ => ?_)
    exact Fallible.alone_ofExcept (fun _ _ => Disk.Done.refl d)
      (fun _ _ => (Disk.Done.refl d).cut)
  -- A spec is no file of the directory.
  have hspec : ∀ (a : FileAction) (specs : GoMap Spec), (d.act a).2 = { d with specs := specs } →
      (∀ k, a.cut k = none) → (StorageM.write a : FileM Unit).Alone disk d.Issues
        (fun _ d' => d.Done d') (fun _ d' => d.Cut d') d := by
    intro a specs hact hcut
    have hdone : d.Done (d.act a).2 := by
      rw [hact]
      exact ⟨fun h => h, fun h => h, le_refl _⟩
    refine alone_action_disk hrefl ⟨⟨rfl, hdone.cut⟩, fun _ => hdone.cut⟩ (fun _ => hdone) ?_
    intro k b hb
    rw [hcut k] at hb
    cases hb
  match c with
  | .read .checkpoint =>
    exact hread (r := .checkpoint) (hfile driverPluginCheckpointFile decodeCheckpoint)
  | .read .claimDevices =>
    exact hread (r := .claimDevices) (hfile claimDevicesFileName decodeClaimDevices)
  | .write (.checkpoint cp) =>
    refine hwrite (alone_action_disk hrefl ?_ (fun _ => ?_) ?_)
    · exact ⟨⟨rfl, d.cut_writeFile _⟩, fun _ => d.cut_writeFile _⟩
    · have hcut := d.cut_writeFile cp.marshal
      refine ⟨fun _ => ⟨cp, ?_⟩, hcut.whole, ?_⟩
      · change decodeCheckpoint (d.files.insert driverPluginCheckpointFile
          cp.marshal)[driverPluginCheckpointFile]? = _
        rw [Maps.getElem?_insert, if_pos rfl, decodeCheckpoint_marshal]
      · change (Disk.temporary
          { d with files := d.files.insert driverPluginCheckpointFile cp.marshal }).size ≤ _
        rw [Disk.temporary_insert_of_not fun hname => hname.1 rfl]
    · rintro k _ ⟨⟩
      exact ⟨⟨rfl, d.cut_writeFile _⟩, fun _ => d.cut_writeFile _⟩
  | .write (.claimDevices file) =>
    exact hwrite ((File.writeClaimDevices_leaves d file).mono (fun _ _ h => h) (fun _ _ h => h)
      fun _ _ h => h.toCut)
  | .write (.spec name spec) => exact hwrite (hspec _ _ rfl fun _ => rfl)
  | .write (.removeSpec name) => exact hwrite (hspec _ _ rfl fun _ => rfl)

end Commands

/-! ## Steps -/

/-- What an event can do. -/
inductive DiskWorld.Moves (x : External) (w : DiskWorld) : DiskEvent → DiskWorld → Prop
  | boot (f : Flags) (env : Env) (found : List Device) (hrunning : w.running = none) :
      Moves x w (.boot f env found)
        { w with running := some (.start x (freshState f) (.reconcile env found) w.disk) }
  | start (s : DeviceState) (op : Op) (hrunning : w.running = none) :
      Moves x w (.start op) { w with running := some (.start x s op w.disk) }
  | command (p : Pending) (c : Access FileQuery FileAction)
      (k : FileAnswer c → Prog FileAnswer Result) (choice : Choice)
      (hrunning : w.running = some ⟨p, .call c k⟩) :
      Moves x w (.command choice)
        { w with
          disk := (Plugin.disk c choice w.disk).2
          running := some ⟨p, k (Plugin.disk c choice w.disk).1⟩ }
  | finish (p : Pending) (r : Result) (hrunning : w.running = some ⟨p, .ret r⟩) :
      Moves x w .finish { w with state := memoryAfter p.memory w.state r, running := none }
  | kill : Moves x w .kill { disk := w.disk }
  | killInside (p : Pending) (c : Access FileQuery FileAction)
      (k : FileAnswer c → Prog FileAnswer Result) (choice : Choice)
      (hrunning : w.running = some ⟨p, .call c k⟩) :
      Moves x w (.killInside choice) { disk := (Plugin.disk c choice w.disk).2 }

/-- Every step is one of these. -/
theorem DiskWorld.moves_of_step {x : External} {w w' : DiskWorld} {e : DiskEvent}
    (h : w.step x e = some w') : w.Moves x e w' := by
  cases e with
  | boot f env found =>
    simp only [DiskWorld.step, Option.isNone_iff_eq_none] at h
    split_ifs at h with hdown
    obtain rfl := Option.some.inj h
    exact .boot f env found hdown.2
  | start op =>
    simp only [DiskWorld.step] at h
    split at h
    · next s hs hrunning =>
      obtain rfl := Option.some.inj h
      exact .start s op hrunning
    · cases h
  | command choice =>
    simp only [DiskWorld.step] at h
    split at h
    · next p c k hrunning =>
      obtain rfl := Option.some.inj h
      exact .command p c k choice hrunning
    · cases h
  | finish =>
    simp only [DiskWorld.step] at h
    split at h
    · next p r hrunning =>
      obtain rfl := Option.some.inj h
      exact .finish p r hrunning
    · cases h
  | kill =>
    obtain rfl := Option.some.inj h
    exact .kill
  | killInside choice =>
    simp only [DiskWorld.step] at h
    split at h
    · next p c k hrunning =>
      obtain rfl := Option.some.inj h
      exact .killInside p c k choice hrunning
    · cases h

/-! ## An unreadable checkpoint -/

/-- A call on a disk whose checkpoint cannot be read changes nothing. -/
def Disk.Frozen (a b : Disk) : Prop := ¬a.Readable → b = a

/-- An operation that returns on such a disk returns an error. -/
def FailsUnreadable (r : Result) (d : Disk) : Prop := ¬d.Readable → ∃ e, r = .error e

section Frozen

variable {x : External}

/-- The calls of an operation that starts on a disk whose checkpoint can be read. -/
theorem Op.frozen_of_readable (s : DeviceState) (op : Op) {d : Disk} (hd : d.Readable) :
    ((op.program x s).run.interp lower).Safe disk Eq Disk.Frozen FailsUnreadable d := by
  -- Every call of a command is issued on a readable disk, and only a failing one leaves another.
  have hlower : ∀ c d, d.Readable → (lower c).Safe disk Eq Disk.Frozen
      (fun r d' => d'.Readable ∨ Access.succeeded r = false ∧ True) d := by
    intro c d ⟨cp, hcp⟩
    refine (lower_leaves c d).mono ?_ ?_
    · intro a b hissues hunreadable
      refine absurd ⟨cp, ?_⟩ hunreadable
      rw [hissues.1, hcp]
    · rintro r d' (hdone | ⟨hfails, -⟩)
      · exact .inl (hdone.readable ⟨cp, hcp⟩)
      · exact .inr ⟨hfails, trivial⟩
  refine ((op.program_strict x s).safe_interp hlower hd).mono (fun _ _ h => h) ?_
  rintro r d' (hreadable | ⟨herror, -⟩) hunreadable
  · exact absurd hreadable hunreadable
  · exact herror

/-- The calls of an operation that starts on another disk: it reads the checkpoint and fails. -/
theorem Op.frozen_of_unreadable (s : DeviceState) (op : Op) {d : Disk} (hd : ¬d.Readable) :
    ((op.program x s).run.interp lower).Safe disk Eq Disk.Frozen FailsUnreadable d := by
  obtain ⟨k, hk⟩ := op.program_eq_call x s
  have hstrict := op.program_strict x s
  rw [hk] at hstrict ⊢
  rw [Prog.interp_call]
  refine Prog.Safe.bind (fun _ => rfl) ?_
  have hread : File.readCheckpoint.Alone disk Disk.Frozen (fun _ _ => False) (fun _ _ => True)
      d := by
    refine Fallible.alone_bind (alone_query_disk ⟨fun _ => rfl, fun _ => trivial⟩
      (fun _ => ⟨fun _ => rfl, fun _ => trivial⟩) ?_)
    rintro suffix _ ⟨⟩
    exact Fallible.alone_ofExcept (fun cp hcp => hd ⟨cp, hcp⟩) (fun _ _ => trivial)
  refine Fallible.Safe.run (hread.mono (fun _ _ h => h) (fun _ _ h => h.elim) ?_)
  intro e d' _
  obtain ⟨e', he'⟩ := (hstrict (.error e)).1 rfl
  rw [he']
  rintro _ rfl _
  exact ⟨e', rfl⟩

/-- The calls of an operation on any disk. -/
theorem Op.frozen (s : DeviceState) (op : Op) (d : Disk) :
    ((op.program x s).run.interp lower).Safe disk Eq Disk.Frozen FailsUnreadable d := by
  by_cases hd : d.Readable
  · exact op.frozen_of_readable s hd
  · exact op.frozen_of_unreadable s hd

/-- What is left of the running operation changes nothing once the checkpoint cannot be read. -/
def DiskWorld.Freezes (w : DiskWorld) : Prop :=
  ∀ t, w.running = some t → t.rest.Safe Plugin.disk Eq Disk.Frozen FailsUnreadable w.disk

/-- Every step keeps this. -/
theorem DiskWorld.Freezes.step {w w' : DiskWorld} {e : DiskEvent} (hw : w.Freezes)
    (h : w.step x e = some w') : w'.Freezes := by
  cases DiskWorld.moves_of_step h with
  | boot f env found =>
    rintro _ ⟨⟩
    exact Op.frozen _ _ _
  | start s op =>
    rintro _ ⟨⟩
    exact Op.frozen _ _ _
  | command p c k choice hrunning =>
    rintro _ ⟨⟩
    exact ((hw _ hrunning).step (fun _ => rfl) choice).2
  | finish => rintro t ⟨⟩
  | kill => rintro t ⟨⟩
  | killInside => rintro t ⟨⟩

/-- A step from a disk whose checkpoint cannot be read. -/
theorem DiskWorld.Freezes.unchanged {w w' : DiskWorld} {e : DiskEvent} (hw : w.Freezes)
    (hdisk : ¬w.disk.Readable) (h : w.step x e = some w') :
    w'.disk = w.disk ∧ (w'.state = w.state ∨ w'.state = none) ∧
      ∀ r, w.returns e = some r → ∃ err, r.2 = .error err := by
  cases DiskWorld.moves_of_step h with
  | boot => exact ⟨rfl, .inl rfl, by rintro r ⟨⟩⟩
  | start => exact ⟨rfl, .inl rfl, by rintro r ⟨⟩⟩
  | command p c k choice hrunning =>
    exact ⟨((hw _ hrunning).step (fun _ => rfl) choice).1 hdisk, .inl rfl, by rintro r ⟨⟩⟩
  | finish p r hrunning =>
    obtain ⟨err, rfl⟩ := (hw _ hrunning).done (fun _ => rfl) hdisk
    refine ⟨rfl, .inl rfl, fun r hr => ?_⟩
    simp only [DiskWorld.returns, hrunning] at hr
    obtain rfl := Option.some.inj hr
    exact ⟨err, rfl⟩
  | kill => exact ⟨rfl, .inr rfl, by rintro r ⟨⟩⟩
  | killInside p c k choice hrunning =>
    exact ⟨((hw _ hrunning).step (fun _ => rfl) choice).1 hdisk, .inr rfl, by rintro r ⟨⟩⟩

end Frozen

/-- **A torn checkpoint is permanent.** From any point of a run at which the checkpoint cannot be
read, whatever happens then, with restarts and with system calls that fail or succeed: the disk does
not change, no process takes over a new memory, and every operation that returns has failed. -/
theorem torn_checkpoint_permanent (x : External) (es es' : List DiskEvent) (w w' : DiskWorld)
    (hrun : run (DiskWorld.step x) {} es = some w) (htorn : ∀ cp, w.disk.readCheckpoint ≠ .ok cp)
    (hrun' : run (DiskWorld.step x) w es' = some w') :
    w'.disk = w.disk ∧ (w'.state = w.state ∨ w'.state = none) ∧
      ∀ r ∈ DiskWorld.history x w es', ∃ err, r.2 = .error err := by
  have hunreadable : ¬w.disk.Readable := fun ⟨cp, hcp⟩ => htorn cp hcp
  have hfreezes : w.Freezes :=
    run_invariant DiskWorld.Freezes (fun _ _ _ h hstep => h.step hstep) (by rintro t ⟨⟩) hrun
  -- What has been returned since then, and the world as it is now.
  have hinv := run_observed (fun (h : List (Op × Result)) (v : DiskWorld) =>
      v.Freezes ∧ v.disk = w.disk ∧ (v.state = w.state ∨ v.state = none) ∧
        ∀ r ∈ h, ∃ err, r.2 = .error err) DiskWorld.returns (fun _ => True) (h := []) (s := w)
    (fun h v e v' hv hstep _ => ?_) ⟨hfreezes, rfl, .inl rfl, by simp⟩ hrun' fun _ _ => trivial
  · exact ⟨hinv.2.1, hinv.2.2.1, hinv.2.2.2⟩
  · obtain ⟨hvfreezes, hdisk, hstate, hfailed⟩ := hv
    obtain ⟨hdisk', hstate', hreturns⟩ := hvfreezes.unchanged (hdisk ▸ hunreadable) hstep
    refine ⟨hvfreezes.step hstep, hdisk'.trans hdisk, ?_, ?_⟩
    · rcases hstate' with hsame | hnone
      · rw [hsame]
        exact hstate
      · exact .inr hnone
    · intro r hr
      rcases List.mem_append.mp hr with hr | hr
      · exact hfailed r hr
      · exact hreturns r (Option.mem_toList.mp hr)

/-- The write of the checkpoint is cut short by a kill, when the file has been truncated. -/
def tornEvents : List DiskEvent :=
  tornCheckpointEvents ++ [.killInside { fate := .part 0 "killed" }]

/-- A process comes up where no system call fails. -/
def tornRestart : List DiskEvent :=
  [.boot hostFlags (hostEnv 2 bothNodes) bothFound] ++ systemCalls 1 ++ [.finish]

/-- The process that comes up after the kill fails, and the disk stays as the kill left it. -/
theorem torn_checkpoint_permanent_kill : ∃ w w' r,
    run (DiskWorld.step plainExternal) {} tornEvents = some w ∧
    run (DiskWorld.step plainExternal) w tornRestart = some w' ∧
    w'.disk = w.disk ∧ w'.state = none ∧
    DiskWorld.history plainExternal w tornRestart = [r] ∧ ∃ err, r.2 = .error err := by
  have hend : (run (DiskWorld.step plainExternal) {} tornEvents).bind (fun w =>
      (run (DiskWorld.step plainExternal) w tornRestart).map fun w' =>
        (w.disk.readCheckpoint.isOk, w'.state.isNone,
          (DiskWorld.history plainExternal w tornRestart).length)) = some (false, true, 1) := by
    decide +kernel
  simp only [Option.bind_eq_some_iff, Option.map_eq_some_iff, Prod.mk.injEq,
    Option.isNone_iff_eq_none, List.length_eq_one_iff] at hend
  obtain ⟨w, hw, w', hw', hread, hdown, r, hr⟩ := hend
  have htorn : ∀ cp, w.disk.readCheckpoint ≠ .ok cp := by
    intro cp hcp
    rw [hcp] at hread
    cases hread
  obtain ⟨hdisk, -, hfailed⟩ := torn_checkpoint_permanent plainExternal _ _ w w' hw htorn hw'
  exact ⟨w, w', r, hw, hw', hdisk, hdown, hr, hfailed r (by rw [hr]; simp)⟩

/-! ## Whole claim devices -/

section Whole

variable {x : External}

/-- The claim devices are whole at every cut of an operation. -/
theorem Op.keeps_whole (s : DeviceState) (op : Op) {d : Disk} (hd : d.Whole) :
    ((op.program x s).run.interp lower).Safe disk Eq (fun _ b => b.Whole) (fun _ _ => True) d := by
  have hlower : ∀ c d, d.Whole → (lower c).Safe disk Eq (fun _ b => b.Whole)
      (fun r d' => d'.Whole ∨ Access.succeeded r = false ∧ d'.Whole) d := by
    intro c d hd
    refine (lower_leaves c d).mono (fun _ b hb => hb.2.whole hd) ?_
    rintro r d' (hdone | ⟨hfails, hcut⟩)
    · exact .inl (hdone.whole hd)
    · exact .inr ⟨hfails, hcut.whole hd⟩
  exact ((op.program_strict x s).safe_interp hlower hd).mono (fun _ _ h => h) fun _ _ _ => trivial

/-- The claim devices are whole, and the running operation keeps them so. -/
def DiskWorld.KeepsWhole (w : DiskWorld) : Prop :=
  w.disk.Whole ∧ ∀ t, w.running = some t →
    t.rest.Safe Plugin.disk Eq (fun _ b => b.Whole) (fun _ _ => True) w.disk

theorem DiskWorld.KeepsWhole.step {w w' : DiskWorld} {e : DiskEvent} (hw : w.KeepsWhole)
    (h : w.step x e = some w') : w'.KeepsWhole := by
  obtain ⟨hwhole, hrest⟩ := hw
  cases DiskWorld.moves_of_step h with
  | boot f env found =>
    refine ⟨hwhole, ?_⟩
    rintro _ ⟨⟩
    exact Op.keeps_whole _ _ hwhole
  | start s op =>
    refine ⟨hwhole, ?_⟩
    rintro _ ⟨⟩
    exact Op.keeps_whole _ _ hwhole
  | command p c k choice hrunning =>
    obtain ⟨hcall, hsafe⟩ := (hrest _ hrunning).step (fun _ => rfl) choice
    refine ⟨hcall, ?_⟩
    rintro _ ⟨⟩
    exact hsafe
  | finish => exact ⟨hwhole, by rintro t ⟨⟩⟩
  | kill => exact ⟨hwhole, by rintro t ⟨⟩⟩
  | killInside p c k choice hrunning =>
    exact ⟨((hrest _ hrunning).step (fun _ => rfl) choice).1, by rintro t ⟨⟩⟩

end Whole

/-- **The claim devices are never torn.** At every point of every run from an empty disk, with
system calls cut short and kills inside them, the claim devices are the complete text of a file, if
there are any, and can be read. -/
theorem claim_devices_whole (x : External) (es : List DiskEvent) (w : DiskWorld)
    (hrun : run (DiskWorld.step x) {} es = some w) :
    (∀ data, w.disk.files[claimDevicesFileName]? = some data →
      ∃ file : ClaimDevicesFile, data = file.marshal) ∧
    ∃ file, w.disk.readClaimDevices = .ok file := by
  have hinit : DiskWorld.KeepsWhole {} := by
    refine ⟨fun data hdata => ?_, by rintro t ⟨⟩⟩
    change (∅ : GoMap Bytes)[claimDevicesFileName]? = _ at hdata
    rw [Std.ExtTreeMap.getElem?_empty] at hdata
    cases hdata
  have hwhole :=
    (run_invariant DiskWorld.KeepsWhole (fun _ _ _ h hstep => h.step hstep) hinit hrun).1
  refine ⟨hwhole, ?_⟩
  change ∃ file, decodeClaimDevices w.disk.files[claimDevicesFileName]? = .ok file
  cases hdata : w.disk.files[claimDevicesFileName]? with
  | none => exact ⟨_, rfl⟩
  | some data =>
    obtain ⟨file, rfl⟩ := hwhole data hdata
    exact ⟨file, decodeClaimDevices_marshal file⟩

/-- The kill that tears the checkpoint leaves the claim devices of both claims. -/
theorem claim_devices_whole_torn : ∃ w file,
    run (DiskWorld.step plainExternal) {} tornEvents = some w ∧
    w.disk.readCheckpoint.isOk = false ∧ w.disk.readClaimDevices = .ok file ∧
    file.claims.keys = ["a", "b"] := by
  have hend : (run (DiskWorld.step plainExternal) {} tornEvents).map (fun w =>
      (w.disk.readCheckpoint.isOk,
        (w.disk.readClaimDevices.map fun file => file.claims.keys).toOption)) =
          some (false, some ["a", "b"]) := by
    decide +kernel
  obtain ⟨w, hw, htorn⟩ := Option.map_eq_some_iff.mp hend
  simp only [Prod.mk.injEq] at htorn
  obtain ⟨-, file, hfile⟩ := claim_devices_whole plainExternal _ w hw
  have hkeys := htorn.2
  rw [hfile] at hkeys
  exact ⟨w, file, hw, htorn.1, hfile, Option.some.inj hkeys⟩

/-! ## Bounded leftovers -/

/-- An operation ends with an error or with a kill. -/
def DiskWorld.interrupted (w : DiskWorld) : DiskEvent → Option Unit
  | .finish =>
    match w.running with
    | some ⟨_, .ret (.error _)⟩ => some ()
    | _ => none
  | .kill => w.running.map fun _ => ()
  | .killInside _ => w.running.map fun _ => ()
  | _ => none

section Bounded

variable {x : External}

/-- An operation makes at most one temporary file more, and none if it succeeds. -/
theorem Op.keeps_bound (s : DeviceState) (op : Op) {d : Disk} {n : ℕ}
    (hd : d.temporary.size ≤ n) :
    ((op.program x s).run.interp lower).Safe disk Eq (fun _ b => b.temporary.size ≤ n + 1)
      (fun r d' => d'.temporary.size ≤ n ∨ (∃ e, r = .error e) ∧ d'.temporary.size ≤ n + 1) d := by
  have hlower : ∀ c (d : Disk), d.temporary.size ≤ n →
      (lower c).Safe disk Eq (fun _ b => b.temporary.size ≤ n + 1) (fun r d' =>
        d'.temporary.size ≤ n ∨ Access.succeeded r = false ∧ d'.temporary.size ≤ n + 1) d := by
    intro c d hd
    have hcut : ∀ b, d.Cut b → b.temporary.size ≤ n + 1 :=
      fun b hb => hb.temporary.trans (Nat.add_le_add_right hd 1)
    refine (lower_leaves c d).mono (fun _ b hb => hcut b hb.2) ?_
    rintro r d' (hdone | ⟨hfails, hd'⟩)
    · exact .inl (hdone.temporary.trans hd)
    · exact .inr ⟨hfails, hcut d' hd'⟩
  exact (op.program_strict x s).safe_interp hlower hd

/-- A running operation has made at most one temporary file more, and will have made none if it
succeeds. -/
structure DiskTask.Tidy (t : DiskTask) (d : Disk) : Prop where
  size : d.temporary.size ≤ t.before.temporary.size + 1
  rest : t.rest.Safe Plugin.disk Eq (fun _ b => b.temporary.size ≤ t.before.temporary.size + 1)
    (fun r d' => d'.temporary.size ≤ t.before.temporary.size ∨
      (∃ e, r = .error e) ∧ d'.temporary.size ≤ t.before.temporary.size + 1) d

theorem DiskTask.tidy_start (s : DeviceState) (op : Op) (d : Disk) :
    (DiskTask.start x s op d).Tidy d :=
  ⟨Nat.le_succ _, op.keeps_bound s le_rfl⟩

/-- There are at most as many temporary files as there were interrupted operations, and perhaps one
of the operation that is running. -/
structure DiskWorld.Bounded (h : List Unit) (w : DiskWorld) : Prop where
  idle : w.running = none → w.disk.temporary.size ≤ h.length
  busy : ∀ t, w.running = some t → t.before.temporary.size ≤ h.length ∧ t.Tidy w.disk

/-- Where nothing runs. -/
theorem DiskWorld.Bounded.of_idle {h : List Unit} {w : DiskWorld} (hrunning : w.running = none)
    (hsize : w.disk.temporary.size ≤ h.length) : w.Bounded h := by
  refine ⟨fun _ => hsize, fun t ht => ?_⟩
  rw [hrunning] at ht
  cases ht

/-- Where an operation runs. -/
theorem DiskWorld.Bounded.size {h : List Unit} {w : DiskWorld} (hw : w.Bounded h) {t : DiskTask}
    (hrunning : w.running = some t) : w.disk.temporary.size ≤ h.length + 1 := by
  obtain ⟨hbefore, htidy⟩ := hw.busy t hrunning
  exact htidy.size.trans (Nat.add_le_add_right hbefore 1)

/-- An operation at its start. -/
theorem DiskWorld.Bounded.begin {h : List Unit} {w : DiskWorld} (hw : w.Bounded h)
    (hrunning : w.running = none) (s : DeviceState) (op : Op) :
    ({ w with running := some (.start x s op w.disk) } : DiskWorld).Bounded h := by
  refine ⟨by rintro ⟨⟩, ?_⟩
  rintro _ ⟨⟩
  exact ⟨hw.idle hrunning, DiskTask.tidy_start s op w.disk⟩

/-- An operation that returns without an error has left no temporary file. -/
def DiskWorld.LeavesNone (w : DiskWorld) (e : DiskEvent) (_ : DiskWorld) : Prop :=
  e = .finish → ∀ p out, w.running = some ⟨p, .ret (.ok out)⟩ →
    w.disk.temporary.size ≤ p.before.temporary.size

theorem DiskWorld.Bounded.leavesNone {h : List Unit} {w : DiskWorld} (hw : w.Bounded h)
    {p : Pending} {out : Outcome} (hrunning : w.running = some ⟨p, .ret (.ok out)⟩) :
    w.disk.temporary.size ≤ p.before.temporary.size := by
  rcases (hw.busy _ hrunning).2.rest.done (fun _ => rfl) with hsize | ⟨⟨e, he⟩, -⟩
  · exact hsize
  · cases he

theorem DiskWorld.Bounded.step {h : List Unit} {w w' : DiskWorld} {e : DiskEvent}
    (hw : w.Bounded h) (hstep : w.step x e = some w') :
    w'.Bounded (h ++ (w.interrupted e).toList) := by
  cases DiskWorld.moves_of_step hstep with
  | boot f env found hrunning => simpa [DiskWorld.interrupted] using hw.begin hrunning _ _
  | start s op hrunning => simpa [DiskWorld.interrupted] using hw.begin hrunning s op
  | command p c k choice hrunning =>
    obtain ⟨hbefore, htidy⟩ := hw.busy _ hrunning
    obtain ⟨hcall, hrest⟩ := htidy.rest.step (fun _ => rfl) choice
    have hnone : h ++ (w.interrupted (.command choice)).toList = h := List.append_nil h
    rw [hnone]
    refine ⟨by rintro ⟨⟩, ?_⟩
    rintro _ ⟨⟩
    exact ⟨hbefore, hcall, hrest⟩
  | finish p r hrunning =>
    refine .of_idle rfl ?_
    change w.disk.temporary.size ≤ _
    cases r with
    | error err =>
      simp only [DiskWorld.interrupted, hrunning]
      simpa using hw.size hrunning
    | ok out =>
      have hsize := (hw.leavesNone hrunning).trans (hw.busy _ hrunning).1
      simpa [DiskWorld.interrupted, hrunning] using hsize
  | kill =>
    refine .of_idle rfl ?_
    change w.disk.temporary.size ≤ _
    cases hrunning : w.running with
    | none => simpa [DiskWorld.interrupted, hrunning] using hw.idle hrunning
    | some t => simpa [DiskWorld.interrupted, hrunning] using hw.size hrunning
  | killInside p c k choice hrunning =>
    refine .of_idle rfl ?_
    obtain ⟨hbefore, htidy⟩ := hw.busy _ hrunning
    have hcall := (htidy.rest.step (fun _ => rfl) choice).1.trans (Nat.add_le_add_right hbefore 1)
    simpa [DiskWorld.interrupted, hrunning] using hcall

theorem DiskWorld.bounded_init : DiskWorld.Bounded [] {} := .of_idle rfl (by decide)

end Bounded

/-- **Leftovers are bounded.** At every point of every run from an empty disk, there are no more
temporary files than operations that ended with an error or with a kill, and one of the operation
that is running. Along the run, an operation that succeeds leaves no more of them than there were
when it started. -/
theorem temporary_files_bounded (x : External) (es : List DiskEvent) (w : DiskWorld)
    (hrun : run (DiskWorld.step x) {} es = some w) :
    w.disk.temporary.size ≤
      (observed (DiskWorld.step x) DiskWorld.interrupted {} es).length +
        (if w.running.isSome then 1 else 0) ∧
    Along (DiskWorld.step x) DiskWorld.LeavesNone {} es := by
  refine ⟨?_, ?_⟩
  · have hbounded := run_observed DiskWorld.Bounded DiskWorld.interrupted (fun _ => True)
      (fun _ _ _ _ hw hstep _ => hw.step hstep) DiskWorld.bounded_init hrun fun _ _ => trivial
    rw [List.nil_append] at hbounded
    cases hrunning : w.running with
    | none => simpa using hbounded.idle hrunning
    | some t => simpa using hbounded.size hrunning
  · -- Whatever was interrupted before, the bound on the running operation is its own.
    refine along_of_invariant (fun w => ∃ h, DiskWorld.Bounded h w) (R := fun _ _ _ => True)
      ?_ ?_ ⟨[], DiskWorld.bounded_init⟩ (along_of_forall (fun _ _ _ _ => trivial) _ _)
    · rintro w e w' ⟨h, hw⟩ hstep -
      exact ⟨_, hw.step hstep⟩
    · rintro w e w' ⟨h, hw⟩ - - - p out hrunning
      exact hw.leavesNone hrunning

/-- Two processes are killed one after the other while they write the claim devices. -/
def killedWrites : List DiskEvent :=
  [.boot hostFlags (hostEnv 0 bothNodes) bothFound] ++ systemCalls 2 ++ [.finish] ++
  [.start (.prepare (hostEnv 1 bothNodes) (hostClaim "a" "vpu-rkvdec-0"))] ++ systemCalls 4 ++
    [.kill] ++
  [.boot hostFlags (hostEnv 2 bothNodes) bothFound] ++ systemCalls 2 ++ [.finish] ++
  [.start (.prepare (hostEnv 3 bothNodes) (hostClaim "a" "vpu-rkvdec-0"))] ++ systemCalls 3 ++
    [.command { suffix := "1" }, .kill]

/-- Each of them leaves a temporary file, which is as many as there can be. The reconciles before
them leave none. -/
theorem temporary_files_bounded_kills : ∃ w,
    run (DiskWorld.step plainExternal) {} killedWrites = some w ∧ w.running = none ∧
    w.disk.temporary.size ≤
      (observed (DiskWorld.step plainExternal) DiskWorld.interrupted {} killedWrites).length ∧
    w.disk.temporary.size = 2 ∧
    (observed (DiskWorld.step plainExternal) DiskWorld.interrupted {} killedWrites).length = 2 ∧
    Along (DiskWorld.step plainExternal) DiskWorld.LeavesNone {} killedWrites := by
  have hend : (run (DiskWorld.step plainExternal) {} killedWrites).map (fun w =>
      (w.running.isNone, w.disk.temporary.size)) = some (true, 2) := by
    decide +kernel
  have hlength : (observed (DiskWorld.step plainExternal) DiskWorld.interrupted {}
      killedWrites).length = 2 := by
    decide +kernel
  obtain ⟨w, hw, hleft⟩ := Option.map_eq_some_iff.mp hend
  simp only [Prod.mk.injEq, Option.isNone_iff_eq_none] at hleft
  obtain ⟨hbound, hnone⟩ := temporary_files_bounded plainExternal killedWrites w hw
  rw [hleft.1] at hbound
  exact ⟨w, hw, hleft.1, hbound, hleft.2, hlength, hnone⟩

end RockchipDra.Plugin
