import RockchipDra.Plugin.Session

/-!
# Unpreparing from any state of the stores

An unprepare removes the spec of its claim, then takes the claim out of the checkpoint, then forgets
its devices. `Store.unprepared` is where it leads, from whatever the stores hold: each of its
commands keeps this state fixed (`unprepare_faulty`), so an unprepare that failed or was cut at any
point leads to the same state when it is retried.
-/

namespace RockchipDra.Plugin

open Go Discovery Effect

/-! ## What an unprepare leads to -/

/-- The stores `τ` are `σ` without the claim `uid`. -/
structure Store.Forgets (x : External) (f : Flags) (uid : UID) (σ τ : Store) : Prop where
  /-- The claim is not prepared, -/
  checkpoint : uid ∉ τ.checkpoint.preparedClaims
  /-- has no devices recorded, -/
  claimDevices : uid ∉ τ.claimDevices.claims
  /-- and has no CDI spec. -/
  spec : specName x f uid ∉ τ.specs
  /-- The other claims are prepared as before, in the same order, -/
  others_checkpoint : τ.checkpoint.preparedClaims = σ.checkpoint.preparedClaims.filter (· ≠ uid)
  /-- with the same devices -/
  others_claimDevices : ∀ v ≠ uid, τ.claimDevices.claims[v]? = σ.claimDevices.claims[v]?
  /-- and the same CDI specs, as far as the CDI library keeps the files of claims apart. -/
  others_spec : x.NamesApart → PlainID uid → ∀ v ≠ uid, PlainID v →
    τ.specs[specName x f v]? = σ.specs[specName x f v]?
  /-- No other file of the CDI directory is touched. -/
  others_file : ∀ name ≠ specName x f uid, τ.specs[name]? = σ.specs[name]?

theorem Store.forgets_unprepared (x : External) (f : Flags) (uid : UID) (σ : Store) :
    Store.Forgets x f uid σ (σ.unprepared uid (specName x f uid)) := by
  -- One file is removed.
  have hfile : ∀ name ≠ specName x f uid,
      (σ.unprepared uid (specName x f uid)).specs[name]? = σ.specs[name]? := by
    intro name hname
    change (σ.specs.erase _)[name]? = _
    rw [Maps.getElem?_erase, if_neg hname.symm]
  constructor
  · change uid ∉ (σ.checkpoint.delete uid).preparedClaims
    simp
  · change uid ∉ σ.claimDevices.claims.erase uid
    simp
  · change specName x f uid ∉ σ.specs.erase (specName x f uid)
    simp
  · exact σ.checkpoint.preparedClaims_delete uid
  · intro v hv
    change (σ.claimDevices.claims.erase uid)[v]? = _
    rw [Maps.getElem?_erase, if_neg hv.symm]
  · intro hx huid v hv hplain
    exact hfile _ fun h => hv ((specName_inj hx hplain huid).mp h)
  · exact hfile

section Unprepare

variable {x : External} {s : DeviceState} {uid : UID}

/-- Unpreparing twice is unpreparing once. -/
theorem Store.unprepared_unprepared (σ : Store) (uid : UID) (name : String) :
    (σ.unprepared uid name).unprepared uid name = σ.unprepared uid name := by
  unfold Store.unprepared
  dsimp only
  rw [Checkpoint.delete_delete, Maps.erase_erase, Maps.erase_erase]

/-- Every command of an unprepare keeps the state that it leads to, and one that succeeds is
there. -/
theorem unprepare_faulty (x : External) (s : DeviceState) (uid : UID) (σ : Store) :
    (s.unprepare x uid).Alone faultyStore
      (fun σ τ => τ.unprepared uid (specName x s.flags uid) =
        σ.unprepared uid (specName x s.flags uid))
      (fun _ τ => τ = σ.unprepared uid (specName x s.flags uid)) (fun _ _ => True) σ := by
  -- Reads leave the stores. Each write does a part of what is still to be done.
  refine Fallible.alone_bind (Fallible.alone_mapError (readCheckpoint_faulty rfl ?_))
  refine Fallible.alone_bind (Fallible.alone_mapError (write_faulty rfl ?_ ?_))
  · unfold Store.unprepared Store.put
    dsimp only
    rw [Maps.erase_erase]
  refine Fallible.alone_bind (Fallible.alone_mapError (write_faulty rfl ?_ ?_))
  · unfold Store.unprepared Store.put
    dsimp only
    rw [Checkpoint.delete_delete]
  refine Fallible.alone_mapError (Fallible.alone_bind (readClaimDevices_faulty rfl ?_))
  change Fallible.Alone _ _ _ _ (if uid ∈ σ.claimDevices.claims then _ else _) _
  split_ifs with huid
  · refine write_faulty rfl ?_ rfl
    unfold Store.unprepared Store.put
    dsimp only
    rw [Maps.erase_erase]
  -- No devices are recorded, and there is nothing to forget.
  · refine Fallible.alone_pure ?_
    unfold Store.unprepared Store.put
    dsimp only
    rw [Maps.erase_of_not_mem huid]

/-- The same of the operation, which returns the memory as it was. -/
theorem program_unprepare_faulty (x : External) (s : DeviceState) (uid : UID) (σ : Store) :
    ((Op.unprepare uid).program x s).Alone faultyStore
      (fun σ τ => τ.unprepared uid (specName x s.flags uid) =
        σ.unprepared uid (specName x s.flags uid))
      (fun out τ => out = .unprepared ∧ τ = σ.unprepared uid (specName x s.flags uid))
      (fun _ _ => True) σ := by
  refine Fallible.alone_bind (Fallible.Safe.mono (fun _ _ h => h) ?_ (fun _ _ _ => trivial)
    (unprepare_faulty x s uid σ))
  exact fun _ τ h => Fallible.alone_pure ⟨rfl, h⟩

end Unprepare

/-- **Unprepare cleans up.** From whatever the stores hold, an unprepare that returns nil, whatever
fails, leaves the stores without the claim and otherwise as they were, and leaves the memory.
Without I/O errors it returns nil, and once more when it is repeated, which changes nothing.
Attempts that fail or are cut at any command, retried until one succeeds, lead to the same
stores. -/
theorem unprepare_cleans_up (x : External) (s : DeviceState) (uid : UID) (σ : Store) :
    (∀ faults out τ,
      ((Op.unprepare uid).program x s).run.eval faultyStore faults σ = (.ok out, τ) →
        Store.Forgets x s.flags uid σ τ ∧ out.memory s = s ∧
          (Op.unprepare uid).execute x s τ = (.ok .unprepared, τ)) ∧
    (∃ τ, (Op.unprepare uid).execute x s σ = (.ok .unprepared, τ) ∧
      ∀ τ', Fallible.Retries faultyStore ((Op.unprepare uid).program x s) σ τ' → τ' = τ) := by
  refine ⟨?_, _, execute_unprepare uid, ?_⟩
  · intro faults out τ h
    obtain ⟨rfl, rfl⟩ : out = .unprepared ∧ τ = σ.unprepared uid (specName x s.flags uid) := by
      have hpost := (program_unprepare_faulty x s uid σ).eval faults
      rw [h] at hpost
      exact hpost
    refine ⟨σ.forgets_unprepared x s.flags uid, rfl, ?_⟩
    rw [execute_unprepare, Store.unprepared_unprepared]
  -- Every attempt keeps the state that an unprepare leads to, and the last one is there.
  · intro τ' h
    refine h.reaches fun σ => Fallible.Safe.mono (fun _ _ h => h) ?_ (fun _ _ h => h)
      (program_unprepare_faulty x s uid σ)
    exact fun _ _ h => h.2

end RockchipDra.Plugin
