import RockchipDra.Plugin.Codec
import RockchipDra.Plugin.Session

/-!
# The stores as files

The reads and writes of the stores are programs over system calls: `readCheckpoint`,
`writeCheckpoint`, `readClaimDevices`, and `writeClaimDevices` of `cmd/kubeletplugin/state.go`. The
checkpoint is written in place. The claim devices go to a temporary file that is then renamed.

Every system call can fail, before or after it took effect, and a write of data can stop after any
number of bytes. A rename is atomic. The CDI library writes its spec files under a temporary name as
well, and its calls are single actions here.

`Stored` says that a disk holds given stores. As long as no `os.WriteFile` is cut short, a command
on the stores and its program of system calls do the same: `lower_safe` at every cut and with every
fault, and `eval_lower` where nothing fails.
-/

namespace RockchipDra.Plugin

open Go Discovery Effect Json

/-! ## System calls -/

/-- The name of the checkpoint in the directory of the plugin. -/
def driverPluginCheckpointFile : String := "checkpoint.json"

/-- The name of the claim devices in the directory of the plugin. -/
def claimDevicesFileName : String := "claim-devices.json"

/-- The pattern of the temporary files, before its star. -/
def tempPattern : String := "." ++ claimDevicesFileName ++ "-"

/-- The system calls that return something. -/
inductive FileQuery where
  | readFile (name : String)
  | createTemp (pattern : String)

/-- What they return: the data of a file, if the file exists, and the name of a new file. -/
@[reducible] def FileQuery.Value : FileQuery → Type
  | .readFile _ => Option Bytes
  | .createTemp _ => String

/-- The system calls that return only an error or nil. -/
inductive FileAction where
  | writeFile (name : String) (data : Bytes)
  | write (name : String) (data : Bytes)
  | chmod (name : String)
  | close (name : String)
  | rename (oldName newName : String)
  | remove (name : String)
  | writeSpec (name : String) (spec : Spec)
  | removeSpec (name : String)

/-- The answers to system calls. -/
abbrev FileAnswer := Access.Answer (W := FileAction) FileQuery.Value

/-- Programs of system calls. -/
abbrev FileM := StorageM FileAction FileQuery.Value

/-! ## The programs -/

namespace File

/-- Read the checkpoint. -/
def readCheckpoint : FileM Checkpoint := do
  let data ← StorageM.read (.readFile driverPluginCheckpointFile)
  Fallible.ofExcept (decodeCheckpoint data)

/-- Write the checkpoint. -/
def writeCheckpoint (cp : Checkpoint) : FileM Unit :=
  StorageM.write (.writeFile driverPluginCheckpointFile cp.marshal)

/-- Read the claim devices. -/
def readClaimDevices : FileM ClaimDevicesFile := do
  let data ← StorageM.read (.readFile claimDevicesFileName)
  Fallible.ofExcept (decodeClaimDevices data)

/-- Replace the claim devices. The temporary file is closed after an error that comes before the
file was closed, and it is removed after every error. -/
def writeClaimDevices (file : ClaimDevicesFile) : FileM Unit := do
  let tmpName ← StorageM.read (.createTemp tempPattern)
  -- The deferred removal, which is switched off after the rename.
  Fallible.onError (StorageM.write (.remove tmpName)) do
    Fallible.onError (StorageM.write (.close tmpName)) do
      StorageM.write (.write tmpName file.marshal)
      StorageM.write (.chmod tmpName)
    StorageM.write (.close tmpName)
    StorageM.write (.rename tmpName claimDevicesFileName)

end File

/-- A read or write of a store as a program of system calls. -/
def lower : (c : Access StoreRead StoreWrite) → Prog FileAnswer (StoreAnswer c)
  | .read .checkpoint => File.readCheckpoint.run
  | .read .claimDevices => File.readClaimDevices.run
  | .write (.checkpoint cp) => (File.writeCheckpoint cp).run
  | .write (.claimDevices file) => (File.writeClaimDevices file).run
  | .write (.spec name spec) => (StorageM.write (.writeSpec name spec) : FileM Unit).run
  | .write (.removeSpec name) => (StorageM.write (.removeSpec name) : FileM Unit).run

/-- A command that writes no file in place but the checkpoint, and that one with a checkpoint. -/
def WritesCheckpoint (c : Access FileQuery FileAction) : Prop :=
  ∀ name data, c = .write (.writeFile name data) →
    name = driverPluginCheckpointFile ∧ ∃ cp : Checkpoint, data = cp.marshal

/-- A query, or an action that is no `os.WriteFile`. -/
theorem issues_other {a : FileAction} (h : ∀ name data, a ≠ .writeFile name data) :
    (StorageM.write a : FileM Unit).run.Issues WritesCheckpoint := by
  refine ⟨?_, fun _ => trivial⟩
  rintro name data ⟨⟩
  exact absurd rfl (h name data)

/-- Only the checkpoint is written in place. -/
theorem lower_issues (c : Access StoreRead StoreWrite) : (lower c).Issues WritesCheckpoint := by
  have hread : ∀ q : FileQuery, (StorageM.read q : FileM q.Value).run.Issues WritesCheckpoint :=
    fun q => ⟨by rintro name data ⟨⟩, fun _ => trivial⟩
  match c with
  | .read .checkpoint => exact Fallible.issues_bind (hread _) fun _ => trivial
  | .read .claimDevices => exact Fallible.issues_bind (hread _) fun _ => trivial
  | .write (.checkpoint cp) =>
    refine ⟨?_, fun _ => trivial⟩
    rintro name data ⟨⟩
    exact ⟨rfl, cp, rfl⟩
  | .write (.claimDevices file) =>
    -- The claim devices are written to an open temporary file, not by `os.WriteFile`.
    refine Fallible.issues_bind (hread _) fun tmpName => ?_
    refine Fallible.issues_onError (issues_other (by rintro _ _ ⟨⟩))
      (Fallible.issues_bind ?_ fun _ => Fallible.issues_bind (issues_other (by rintro _ _ ⟨⟩))
        fun _ => issues_other (by rintro _ _ ⟨⟩))
    exact Fallible.issues_onError (issues_other (by rintro _ _ ⟨⟩))
      (Fallible.issues_bind (issues_other (by rintro _ _ ⟨⟩))
        fun _ => issues_other (by rintro _ _ ⟨⟩))
  | .write (.spec name spec) => exact issues_other (by rintro _ _ ⟨⟩)
  | .write (.removeSpec name) => exact issues_other (by rintro _ _ ⟨⟩)

/-! ## The disk -/

/-- The files in the directory of the plugin, and the CDI specs. -/
structure Disk where
  files : GoMap Bytes := ∅
  specs : GoMap Spec := ∅

/-- How a system call ends. -/
inductive Fate where
  | ok
  /-- It fails before it took effect. -/
  | before (err : String)
  /-- It fails when a number of bytes have been written. -/
  | part (written : ℕ) (err : String)
  /-- It fails after it took effect. -/
  | after (err : String)

/-- What happens to a system call: how it ends, and the random part of the last name that
`os.CreateTemp` tries. -/
structure Choice where
  fate : Fate := .ok
  suffix : String := ""

/-- A query that does not fail. `os.CreateTemp` gives up where its last name is taken as well. -/
def Disk.query (d : Disk) (suffix : String) : (q : FileQuery) → Except String q.Value × Disk
  | .readFile name => (.ok d.files[name]?, d)
  | .createTemp pattern =>
    if pattern ++ suffix ∈ d.files then (.error "file exists", d)
    else (.ok (pattern ++ suffix), { d with files := d.files.insert (pattern ++ suffix) [] })

/-- An action that does not fail. -/
def Disk.act (d : Disk) : FileAction → Except String Unit × Disk
  | .writeFile name data => (.ok (), { d with files := d.files.insert name data })
  | .write name data => (.ok (), { d with files := d.files.insert name data })
  | .chmod _ => (.ok (), d)
  | .close _ => (.ok (), d)
  -- A rename replaces the file in one step.
  | .rename oldName newName =>
    match d.files[oldName]? with
    | none => (.error "no such file or directory", d)
    | some data => (.ok (), { d with files := (d.files.erase oldName).insert newName data })
  | .remove name =>
    if name ∈ d.files then (.ok (), { d with files := d.files.erase name })
    else (.error "no such file or directory", d)
  | .writeSpec name spec => (.ok (), { d with specs := d.specs.insert name spec })
  | .removeSpec name => (.ok (), { d with specs := d.specs.erase name })

/-- An action of whose data only the first bytes are written. `os.WriteFile` has truncated the file
by then. -/
def FileAction.cut (k : ℕ) : FileAction → Option FileAction
  | .writeFile name data => some (.writeFile name (data.take k))
  | .write name data => some (.write name (data.take k))
  | _ => none

/-- The disk on which every system call can fail. -/
def disk : Machine FileAnswer Choice Disk
  | .read q, ⟨.ok, suffix⟩, d => d.query suffix q
  | .read _, ⟨.before err, _⟩, d => (.error err, d)
  | .read _, ⟨.part _ err, _⟩, d => (.error err, d)
  | .read q, ⟨.after err, suffix⟩, d => (.error err, (d.query suffix q).2)
  | .write a, ⟨.ok, _⟩, d => d.act a
  | .write _, ⟨.before err, _⟩, d => (.error err, d)
  | .write a, ⟨.part k err, _⟩, d => (.error err, (a.cut k).elim d fun a => (d.act a).2)
  | .write a, ⟨.after err, _⟩, d => (.error err, (d.act a).2)

/-- An `os.WriteFile` that ends, with an error or with the process, when the file has been truncated
and before all of its data are written. -/
def torn : Access FileQuery FileAction → Choice → Bool
  | .write (.writeFile _ data), ⟨.part k _, _⟩ => k < data.length
  | _, _ => false

/-- The disk on which no `os.WriteFile` is cut short. -/
def untornDisk : Machine FileAnswer Choice Disk :=
  fun c x d => if torn c x then disk c { x with fate := .ok } d else disk c x d

theorem untornDisk_of_torn_eq_false {c : Access FileQuery FileAction} {x : Choice}
    (h : torn c x = false) (d : Disk) : untornDisk c x d = disk c x d := by
  unfold untornDisk
  rw [h]
  rfl

section Rules

variable {d : Disk} {guar : Disk → Disk → Prop} {fail : String → Disk → Prop}

/-- A system call that fails. -/
theorem alone_failed {α : Type} {post : α → Disk → Prop} {t : Disk} {err : String}
    (h : guar d t ∧ ∀ e, fail e t) :
    guar d t ∧ (∀ v, (.error err : Except String α) = .ok v → post v t) ∧
      ∀ e, (.error err : Except String α) = .error e → fail e t := by
  refine ⟨h.1, ?_, fun e _ => h.2 e⟩
  rintro v ⟨⟩

/-- A query leaves the disk as it was or takes effect. -/
theorem alone_query {q : FileQuery} {post : q.Value → Disk → Prop}
    (hidle : guar d d ∧ ∀ e, fail e d)
    (hdone : ∀ suffix, guar d (d.query suffix q).2 ∧ ∀ e, fail e (d.query suffix q).2)
    (hok : ∀ suffix v, (d.query suffix q).1 = .ok v → post v (d.query suffix q).2) :
    (StorageM.read (W := FileAction) q).Alone untornDisk guar post fail d := by
  refine alone_read fun x => ?_
  rw [untornDisk_of_torn_eq_false (by rfl)]
  obtain ⟨fate, suffix⟩ := x
  cases fate with
  | ok => exact ⟨(hdone suffix).1, hok suffix, fun e _ => (hdone suffix).2 e⟩
  | before err => exact alone_failed hidle
  | part k err => exact alone_failed hidle
  | after err => exact alone_failed (hdone suffix)

/-- An action leaves the disk as it was or takes effect, and only a write to an open file can stop
within its data. -/
theorem alone_action {a : FileAction} {post : Unit → Disk → Prop} (hidle : guar d d ∧ ∀ e, fail e d)
    (hdone : guar d (d.act a).2 ∧ ∀ e, fail e (d.act a).2)
    (hok : (d.act a).1 = .ok () → post () (d.act a).2)
    (hpart : ∀ name data, a = .write name data → ∀ k,
      guar d (d.act (.write name (data.take k))).2 ∧
        ∀ e, fail e (d.act (.write name (data.take k))).2) :
    (StorageM.write (V := FileQuery.Value) a).Alone untornDisk guar post fail d := by
  refine alone_write fun x => ?_
  obtain ⟨fate, suffix⟩ := x
  have hact : guar d (d.act a).2 ∧ (∀ v, (d.act a).1 = .ok v → post v (d.act a).2) ∧
      ∀ e, (d.act a).1 = .error e → fail e (d.act a).2 :=
    ⟨hdone.1, fun _ => hok, fun e _ => hdone.2 e⟩
  cases fate with
  | ok =>
    rw [untornDisk_of_torn_eq_false (by cases a <;> rfl)]
    exact hact
  | before err =>
    rw [untornDisk_of_torn_eq_false (by cases a <;> rfl)]
    exact alone_failed hidle
  | after err =>
    rw [untornDisk_of_torn_eq_false (by cases a <;> rfl)]
    exact alone_failed hdone
  | part k err =>
    -- The disk at hand does not tear: such a call succeeds there.
    cases htorn : torn (.write a) ⟨.part k err, suffix⟩ with
    | true =>
      have hwhole : untornDisk (.write a) ⟨.part k err, suffix⟩ d = d.act a := by
        unfold untornDisk
        rw [htorn]
        rfl
      rw [hwhole]
      exact hact
    | false =>
      rw [untornDisk_of_torn_eq_false htorn]
      cases a with
      | writeFile name data =>
        -- All data are written, and the error comes after that.
        have hk : data.length ≤ k := by simpa [torn] using htorn
        have hcut : disk (.write (.writeFile name data)) ⟨.part k err, suffix⟩ d =
            (.error err, (d.act (.writeFile name data)).2) := by
          change (_, (d.act (.writeFile name (data.take k))).2) = _
          rw [List.take_of_length_le hk]
        rw [hcut]
        exact alone_failed hdone
      | write name data => exact alone_failed (hpart name data rfl k)
      | chmod => exact alone_failed hidle
      | close => exact alone_failed hidle
      | rename => exact alone_failed hidle
      | remove => exact alone_failed hidle
      | writeSpec => exact alone_failed hidle
      | removeSpec => exact alone_failed hidle

end Rules

/-! ## What a disk holds -/

/-- A disk that holds the stores. -/
structure Stored (d : Disk) (σ : Store) : Prop where
  checkpoint : decodeCheckpoint d.files[driverPluginCheckpointFile]? = .ok σ.checkpoint
  claimDevices : decodeClaimDevices d.files[claimDevicesFileName]? = .ok σ.claimDevices
  specs : d.specs = σ.specs

/-- An empty disk holds empty stores. -/
theorem stored_empty : Stored {} {} := ⟨rfl, rfl, rfl⟩

/-- A name that is not one of the two files. -/
def TempName (name : String) : Prop :=
  name ≠ driverPluginCheckpointFile ∧ name ≠ claimDevicesFileName

/-- The names of temporary files start with a dot. -/
theorem tempName_append (suffix : String) : TempName (tempPattern ++ suffix) := by
  constructor
  · intro h
    have hchars := congrArg String.toList h
    rw [String.toList_append] at hchars
    exact absurd (List.cons.inj hchars).1 (by decide)
  · intro h
    have hchars := congrArg String.toList h
    rw [String.toList_append] at hchars
    exact absurd (List.cons.inj hchars).1 (by decide)

namespace Stored

variable {d : Disk} {σ : Store} {name : String}

/-- What a temporary file contains does not matter. -/
theorem insert_temp (h : Stored d σ) (hname : TempName name) (data : Bytes) :
    Stored { d with files := d.files.insert name data } σ where
  checkpoint := by rw [Maps.getElem?_insert, if_neg hname.1, h.checkpoint]
  claimDevices := by rw [Maps.getElem?_insert, if_neg hname.2, h.claimDevices]
  specs := h.specs

/-- A temporary file can be removed. -/
theorem erase_temp (h : Stored d σ) (hname : TempName name) :
    Stored { d with files := d.files.erase name } σ where
  checkpoint := by rw [Maps.getElem?_erase, if_neg hname.1, h.checkpoint]
  claimDevices := by rw [Maps.getElem?_erase, if_neg hname.2, h.claimDevices]
  specs := h.specs

/-- A checkpoint that is written in place. -/
theorem insert_checkpoint (h : Stored d σ) (cp : Checkpoint) :
    Stored { d with files := d.files.insert driverPluginCheckpointFile cp.marshal }
      { σ with checkpoint := cp } where
  checkpoint := by rw [Maps.getElem?_insert, if_pos rfl, decodeCheckpoint_marshal]
  claimDevices := by rw [Maps.getElem?_insert, if_neg (by decide), h.claimDevices]
  specs := h.specs

/-- Claim devices that replace the file. -/
theorem insert_claimDevices (h : Stored d σ) (file : ClaimDevicesFile) :
    Stored { d with files := d.files.insert claimDevicesFileName file.marshal }
      { σ with claimDevices := file } where
  checkpoint := by rw [Maps.getElem?_insert, if_neg (by decide), h.checkpoint]
  claimDevices := by rw [Maps.getElem?_insert, if_pos rfl, decodeClaimDevices_marshal]
  specs := h.specs

/-- A disk holds no more than one value of the stores. -/
theorem unique {τ : Store} (hσ : Stored d σ) (hτ : Stored d τ) : σ = τ := by
  have hcheckpoint := Except.ok.inj (hσ.checkpoint.symm.trans hτ.checkpoint)
  have hclaimDevices := Except.ok.inj (hσ.claimDevices.symm.trans hτ.claimDevices)
  have hspecs := hσ.specs.symm.trans hτ.specs
  cases σ
  cases τ
  cases hcheckpoint
  cases hclaimDevices
  cases hspecs
  rfl

end Stored

/-! ## The programs against the commands -/

section Simulation

variable {d : Disk} {σ : Store}

/-- Reading the checkpoint. -/
theorem File.readCheckpoint_alone (h : Stored d σ) :
    File.readCheckpoint.Alone untornDisk (fun _ d' => Stored d' σ)
      (fun cp d' => cp = σ.checkpoint ∧ Stored d' σ) (fun _ d' => Stored d' σ) d := by
  refine Fallible.alone_bind (alone_query ⟨h, fun _ => h⟩ (fun _ => ⟨h, fun _ => h⟩) ?_)
  rintro suffix _ ⟨⟩
  refine Fallible.alone_ofExcept (fun cp hcp => ⟨?_, h⟩) (fun _ _ => h)
  exact Except.ok.inj (hcp.symm.trans h.checkpoint)

/-- Reading the claim devices. -/
theorem File.readClaimDevices_alone (h : Stored d σ) :
    File.readClaimDevices.Alone untornDisk (fun _ d' => Stored d' σ)
      (fun file d' => file = σ.claimDevices ∧ Stored d' σ) (fun _ d' => Stored d' σ) d := by
  refine Fallible.alone_bind (alone_query ⟨h, fun _ => h⟩ (fun _ => ⟨h, fun _ => h⟩) ?_)
  rintro suffix _ ⟨⟩
  refine Fallible.alone_ofExcept (fun file hfile => ⟨?_, h⟩) (fun _ _ => h)
  exact Except.ok.inj (hfile.symm.trans h.claimDevices)

/-- The disk holds the stores from before or from after a write. -/
def HoldsEither (σ : Store) (w : StoreWrite) (d : Disk) : Prop := Stored d σ ∨ Stored d (σ.put w)

/-- A program that writes a store: at every cut and after every error the disk holds the stores from
before or from after the write, and where it succeeds those from after it. -/
def Writes (σ : Store) (w : StoreWrite) (p : FileM Unit) (d : Disk) : Prop :=
  p.Alone untornDisk (fun _ d' => HoldsEither σ w d') (fun _ d' => Stored d' (σ.put w))
    (fun _ d' => HoldsEither σ w d') d

/-- A single action that writes a store. -/
theorem writes_action {w : StoreWrite} {a : FileAction} (h : Stored d σ)
    (hact : Stored (d.act a).2 (σ.put w)) (hwrite : ∀ name data, a ≠ .write name data) :
    Writes σ w (StorageM.write a) d :=
  alone_action ⟨.inl h, fun _ => .inl h⟩ ⟨.inr hact, fun _ => .inr hact⟩ (fun _ => hact)
    fun name data ha => absurd ha (hwrite name data)

/-- Cleaning up after an error keeps what the disk holds. -/
theorem either_action {w : StoreWrite} {a : FileAction} (h : HoldsEither σ w d)
    (hact : HoldsEither σ w (d.act a).2) (hwrite : ∀ name data, a ≠ .write name data) :
    (StorageM.write (V := FileQuery.Value) a).Alone untornDisk (fun _ d' => HoldsEither σ w d')
      (fun _ d' => HoldsEither σ w d') (fun _ d' => HoldsEither σ w d') d :=
  alone_action ⟨h, fun _ => h⟩ ⟨hact, fun _ => hact⟩ (fun _ => hact)
    fun name data ha => absurd ha (hwrite name data)

theorem HoldsEither.remove {w : StoreWrite} {name : String} (h : HoldsEither σ w d)
    (hname : TempName name) : HoldsEither σ w (d.act (.remove name)).2 := by
  rw [Disk.act]
  split_ifs
  · exact h.imp (fun h => h.erase_temp hname) (fun h => h.erase_temp hname)
  · exact h

/-- The stores are as before, and the temporary file has the data. -/
def Staged (σ : Store) (name : String) (data : Bytes) (d : Disk) : Prop :=
  Stored d σ ∧ d.files[name]? = some data

/-- Filling the temporary file. -/
theorem stages {w : StoreWrite} {name : String} (h : Stored d σ) (hname : TempName name)
    (data : Bytes) :
    (Fallible.onError (StorageM.write (.close name)) (do
      StorageM.write (.write name data)
      StorageM.write (.chmod name)) : FileM Unit).Alone untornDisk (fun _ d' => HoldsEither σ w d')
      (fun _ d' => Staged σ name data d') (fun _ d' => HoldsEither σ w d') d := by
  have hclose : ∀ d', HoldsEither σ w d' → (StorageM.write (V := FileQuery.Value)
      (FileAction.close name)).Alone untornDisk (fun _ d' => HoldsEither σ w d')
      (fun _ d' => HoldsEither σ w d') (fun _ d' => HoldsEither σ w d') d' :=
    fun d' hd' => either_action hd' hd' (by rintro _ _ ⟨⟩)
  refine Fallible.alone_onError (Fallible.alone_bind ?_)
  have hwrite := h.insert_temp hname data
  refine alone_action ⟨.inl h, fun _ => hclose _ (.inl h)⟩
    ⟨.inl hwrite, fun _ => hclose _ (.inl hwrite)⟩ (fun _ => ?_) ?_
  · have hstaged : Staged σ name data (d.act (.write name data)).2 :=
      ⟨hwrite, Std.ExtTreeMap.getElem?_insert_self⟩
    exact alone_action ⟨.inl hwrite, fun _ => hclose _ (.inl hwrite)⟩
      ⟨.inl hwrite, fun _ => hclose _ (.inl hwrite)⟩ (fun _ => hstaged) (by rintro _ _ ⟨⟩)
  -- A write that stops within its data leaves only a temporary file behind.
  · rintro _ _ ⟨⟩ k
    have hcut := h.insert_temp hname (data.take k)
    exact ⟨.inl hcut, fun _ => hclose _ (.inl hcut)⟩

/-- Writing the claim devices. -/
theorem File.writeClaimDevices_writes (h : Stored d σ) (file : ClaimDevicesFile) :
    Writes σ (.claimDevices file) (File.writeClaimDevices file) d := by
  -- A new temporary file does not touch the stores.
  have hcreate : ∀ suffix, Stored (d.query suffix (.createTemp tempPattern)).2 σ := by
    intro suffix
    rw [Disk.query]
    split_ifs
    · exact h
    · exact h.insert_temp (tempName_append suffix) []
  refine Fallible.alone_bind (alone_query ⟨.inl h, fun _ => .inl h⟩
    (fun suffix => ⟨.inl (hcreate suffix), fun _ => .inl (hcreate suffix)⟩) ?_)
  intro suffix name hname
  have htemp : TempName name := by
    rw [Disk.query] at hname
    split_ifs at hname
    cases hname
    exact tempName_append suffix
  refine Fallible.alone_onError (Fallible.Safe.mono (fun _ _ h => h) (fun _ _ h => h)
    (fun _ _ h => either_action h (h.remove htemp) (by rintro _ _ ⟨⟩)) ?_)
  refine Fallible.alone_bind (Fallible.Safe.mono (fun _ _ h => h) ?_ (fun _ _ h => h)
    (stages (hcreate suffix) htemp file.marshal))
  rintro - d' ⟨hstored, hdata⟩
  -- Closing the file changes nothing, and the rename replaces the claim devices in one step.
  refine Fallible.alone_bind (alone_action ⟨.inl hstored, fun _ => .inl hstored⟩
    ⟨.inl hstored, fun _ => .inl hstored⟩ (fun _ => ?_) (by rintro _ _ ⟨⟩))
  refine writes_action hstored ?_ (by rintro _ _ ⟨⟩)
  have hrename : (d'.act (.rename name claimDevicesFileName)).2 =
      { d' with files := (d'.files.erase name).insert claimDevicesFileName file.marshal } := by
    simp only [Disk.act, hdata]
  change Stored (d'.act (.rename name claimDevicesFileName)).2 _
  rw [hrename]
  exact (hstored.erase_temp htemp).insert_claimDevices file

/-- A command on the stores and its program of system calls, with every fault and at every cut: the
disk holds the stores from before or from after the command, and in the end an answer of the command
with the stores that it leaves. -/
theorem lower_safe (c : Access StoreRead StoreWrite) (h : Stored d σ) :
    (lower c).Safe untornDisk Eq
      (fun _ d' => Stored d' σ ∨ ∃ x, Stored d' (faultyStore c x σ).2)
      (fun r d' => ∃ x, (faultyStore c x σ).1 = r ∧ Stored d' (faultyStore c x σ).2) d := by
  -- A program that reads a store answers with its value or an error.
  have hread : ∀ {r : StoreRead} {p : FileM r.Value}, p.Alone untornDisk (fun _ d' => Stored d' σ)
      (fun v d' => v = σ.get r ∧ Stored d' σ) (fun _ d' => Stored d' σ) d →
      Prog.Safe untornDisk Eq
        (fun _ d' => Stored d' σ ∨ ∃ x, Stored d' (faultyStore (.read r) x σ).2)
        (fun a d' => ∃ x, (faultyStore (.read r) x σ).1 = a ∧
          Stored d' (faultyStore (.read r) x σ).2) p.run d := by
    intro r p hp
    refine Fallible.Safe.run (hp.mono (fun _ _ h => .inl h) ?_ ?_)
    · rintro _ d' ⟨rfl, hd'⟩
      exact ⟨.none, rfl, hd'⟩
    · intro e d' hd'
      exact ⟨.before e, rfl, hd'⟩
  -- A program that writes a store fails before or after the write took effect.
  have hwrite : ∀ {w : StoreWrite} {p : FileM Unit}, Writes σ w p d →
      Prog.Safe untornDisk Eq
        (fun _ d' => Stored d' σ ∨ ∃ x, Stored d' (faultyStore (.write w) x σ).2)
        (fun a d' => ∃ x, (faultyStore (.write w) x σ).1 = a ∧
          Stored d' (faultyStore (.write w) x σ).2) p.run d := by
    intro w p hp
    refine Fallible.Safe.run (hp.mono (fun _ _ h => h.imp_right fun h => ⟨.none, h⟩) ?_ ?_)
    · intro _ d' hd'
      exact ⟨.none, rfl, hd'⟩
    · rintro e d' (hd' | hd')
      · exact ⟨.before e, rfl, hd'⟩
      · exact ⟨.after e, rfl, hd'⟩
  match c with
  | .read .checkpoint => exact hread (r := .checkpoint) (File.readCheckpoint_alone h)
  | .read .claimDevices => exact hread (r := .claimDevices) (File.readClaimDevices_alone h)
  | .write (.checkpoint cp) =>
    exact hwrite (writes_action h (h.insert_checkpoint cp) (by rintro _ _ ⟨⟩))
  | .write (.claimDevices file) => exact hwrite (File.writeClaimDevices_writes h file)
  | .write (.spec name spec) =>
    refine hwrite (writes_action h ?_ (by rintro _ _ ⟨⟩))
    exact ⟨h.checkpoint, h.claimDevices, congrArg (·.insert name spec) h.specs⟩
  | .write (.removeSpec name) =>
    refine hwrite (writes_action h ?_ (by rintro _ _ ⟨⟩))
    exact ⟨h.checkpoint, h.claimDevices, congrArg (·.erase name) h.specs⟩

/-- A disk that holds the stores, with a name free for a temporary file. -/
structure Ready (suffix : String) (d : Disk) (σ : Store) : Prop extends Stored d σ where
  free : tempPattern ++ suffix ∉ d.files

/-- A free name stays free where another file is written. -/
theorem free_insert {suffix name : String} {files : GoMap Bytes}
    (hfree : tempPattern ++ suffix ∉ files) (hname : tempPattern ++ suffix ≠ name) (data : Bytes) :
    tempPattern ++ suffix ∉ files.insert name data := by
  rw [Std.ExtTreeMap.mem_insert, compare_eq_iff_eq]
  rintro (rfl | hmem)
  · exact hname rfl
  · exact hfree hmem

/-- Writing the claim devices where nothing fails. -/
theorem File.eval_writeClaimDevices {suffix : String} (hfree : tempPattern ++ suffix ∉ d.files)
    (file : ClaimDevicesFile) :
    (File.writeClaimDevices file).run.eval disk (fun _ => ⟨.ok, suffix⟩) d =
      (.ok (), { d with
        files := (((d.files.insert (tempPattern ++ suffix) []).insert (tempPattern ++ suffix)
          file.marshal).erase (tempPattern ++ suffix)).insert claimDevicesFileName
          file.marshal }) := by
  simp [File.writeClaimDevices, Fallible.onError, StorageM.read, StorageM.write, ExceptT.run,
    ExceptT.mk, bind, ExceptT.bind, ExceptT.bindCont, Prog.issue, disk, Disk.query, Disk.act, hfree]

/-- A command on the stores and its program of system calls where nothing fails. -/
theorem eval_lower (suffix : String) (c : Access StoreRead StoreWrite) (h : Ready suffix d σ) :
    ((lower c).eval disk (fun _ => ⟨.ok, suffix⟩) d).1 = (reliableStore c () σ).1 ∧
      Ready suffix ((lower c).eval disk (fun _ => ⟨.ok, suffix⟩) d).2 (reliableStore c () σ).2 := by
  match c with
  | .read .checkpoint => exact ⟨h.checkpoint, h⟩
  | .read .claimDevices => exact ⟨h.claimDevices, h⟩
  | .write (.checkpoint cp) =>
    exact ⟨rfl, h.insert_checkpoint cp, free_insert h.free (tempName_append suffix).1 _⟩
  | .write (.claimDevices file) =>
    have htemp := tempName_append suffix
    have heval : (lower (.write (.claimDevices file))).eval disk (fun _ => ⟨.ok, suffix⟩) d = _ :=
      File.eval_writeClaimDevices h.free file
    have hstaged := ((h.insert_temp htemp []).insert_temp htemp file.marshal).erase_temp htemp
    rw [heval]
    exact ⟨rfl, hstaged.insert_claimDevices file, free_insert (by simp) htemp.2 _⟩
  | .write (.spec name spec) =>
    exact ⟨rfl, ⟨h.checkpoint, h.claimDevices, congrArg (·.insert name spec) h.specs⟩, h.free⟩
  | .write (.removeSpec name) =>
    exact ⟨rfl, ⟨h.checkpoint, h.claimDevices, congrArg (·.erase name) h.specs⟩, h.free⟩

end Simulation

end RockchipDra.Plugin
