import RockchipDra.Effect.Storage

/-!
# Programs that stop at their first error

A program over a storage is *strict* if it ends with an error as soon as one of its commands answers
with an error. Reads and writes are strict, and so is what is built from them in sequence. When the
commands of a strict program are translated, whatever a failing translation leaves behind is what
the program leaves (`Strict.safe_interp`): it never goes on from there.
-/

namespace RockchipDra.Effect

variable {Q W : Type} {V : Q → Type} {α β : Type}

/-- A command was answered without an error. -/
def Access.succeeded : {c : Access Q W} → Access.Answer V c → Bool
  | .read _, .ok _ => true
  | .read _, .error _ => false
  | .write _, .ok _ => true
  | .write _, .error _ => false

/-- An error of a command ends the program with an error. -/
def Strict : Prog (Access.Answer (W := W) V) (Except String α) → Prop
  | .ret _ => True
  | .call _ k => ∀ r, (Access.succeeded r = false → ∃ e, k r = .ret (.error e)) ∧ Strict (k r)

theorem strict_read (r : Q) : Strict (StorageM.read (W := W) (V := V) r).run := by
  rintro (e | a)
  · exact ⟨fun _ => ⟨e, rfl⟩, trivial⟩
  · exact ⟨fun h => Bool.noConfusion h, trivial⟩

theorem strict_write (w : W) : Strict (StorageM.write (V := V) w).run := by
  rintro (e | a)
  · exact ⟨fun _ => ⟨e, rfl⟩, trivial⟩
  · exact ⟨fun h => Bool.noConfusion h, trivial⟩

/-- A sequence of strict programs. -/
theorem strict_bind {p : StorageM W V α} {f : α → StorageM W V β} (hp : Strict p.run)
    (hf : ∀ a, Strict (f a).run) : Strict (p >>= f).run := by
  change Strict (Prog.bind p.run _)
  generalize p.run = q at hp
  induction q with
  | ret r =>
    cases r with
    | ok a => exact hf a
    | error e => trivial
  | call c k ih =>
    intro r
    obtain ⟨hfails, hrest⟩ := hp r
    refine ⟨fun h => ?_, ih r hrest⟩
    obtain ⟨e, he⟩ := hfails h
    exact ⟨e, congrArg (fun q => Prog.bind q _) he⟩

/-- Changing the errors of a program does not change when it ends. -/
theorem strict_mapError {f : String → String} {p : StorageM W V α} (hp : Strict p.run) :
    Strict (Fallible.mapError f p).run := by
  change Strict (Prog.bind p.run _)
  generalize p.run = q at hp
  induction q with
  | ret r => trivial
  | call c k ih =>
    intro r
    obtain ⟨hfails, hrest⟩ := hp r
    refine ⟨fun h => ?_, ih r hrest⟩
    obtain ⟨e, he⟩ := hfails h
    exact ⟨f e, congrArg (fun q => Prog.bind q _) he⟩

/-- The translation of a strict program. Each command of it is translated by a program that keeps
`guar` and that leaves `inv`, or `fail` where it answers with an error. So the program keeps `guar`,
and it leaves `inv`, or `fail` where it ends with an error. -/
theorem Strict.safe_interp {D χ τ : Type} {S : D → Type} {n : Machine S χ τ}
    {t : (c : Access Q W) → Prog S (Access.Answer V c)} {guar : τ → τ → Prop} {inv fail : τ → Prop}
    (ht : ∀ c d, inv d → (t c).Safe n Eq guar
      (fun r d' => inv d' ∨ Access.succeeded r = false ∧ fail d') d)
    {p : Prog (Access.Answer (W := W) V) (Except String α)} (hp : Strict p) {d : τ} (hd : inv d) :
    (p.interp t).Safe n Eq guar (fun r d' => inv d' ∨ (∃ e, r = .error e) ∧ fail d') d := by
  induction p generalizing d with
  | ret r =>
    rintro _ rfl
    exact .inl hd
  | call c k ih =>
    refine Prog.Safe.bind (fun _ => rfl) ((ht c d hd).mono (fun _ _ h => h) ?_)
    rintro r d' (hinv | ⟨hfails, hfail⟩)
    · exact ih r (hp r).2 hinv
    · obtain ⟨e, he⟩ := (hp r).1 hfails
      rw [he]
      rintro _ rfl
      exact .inr ⟨⟨e, rfl⟩, hfail⟩

end RockchipDra.Effect
