import RockchipDra.Effect.Fallible

/-!
# Programs over a storage that can fail

The commands are reads and writes of a storage. `reliable` is the storage that does what it is told.
In `faulty` every command can end with an error: a read answers the error, and a write answers it
either before or after it took effect, so that a caller cannot tell the two apart.
-/

namespace RockchipDra.Effect

variable {Q W : Type} {V : Q → Type} {α χ σ : Type}

/-- Reads and writes of a storage. -/
inductive Access (Q W : Type) where
  | read (r : Q)
  | write (w : W)

/-- The answer to a command: what was read, or that the write is done, or an error text. -/
@[reducible] def Access.Answer (V : Q → Type) : Access Q W → Type
  | .read r => Except String (V r)
  | .write _ => Except String Unit

/-- Fallible programs over the reads and writes of a storage. -/
abbrev StorageM (W : Type) (V : Q → Type) := Fallible (Access.Answer (W := W) V) String

namespace StorageM

/-- Read. -/
def read (r : Q) : StorageM W V (V r) := ExceptT.mk (Prog.issue (Access.read r))

/-- Write. -/
def write (w : W) : StorageM W V Unit := ExceptT.mk (Prog.issue (Access.write w))

end StorageM

/-- What happens to a command: nothing unusual, or an error before or after it took effect. -/
inductive Fault where
  | none
  | before (err : String)
  | after (err : String)
  deriving DecidableEq

/-- The storage in which every command can fail. -/
def faulty (get : σ → (r : Q) → V r) (put : σ → W → σ) :
    Machine (Access.Answer (W := W) V) Fault σ
  | .read r, .none, s => (.ok (get s r), s)
  | .read _, .before err, s => (.error err, s)
  | .read _, .after err, s => (.error err, s)
  | .write w, .none, s => (.ok (), put s w)
  -- The two failures of a write answer alike and leave different storages.
  | .write _, .before err, s => (.error err, s)
  | .write w, .after err, s => (.error err, put s w)

/-- The storage in which no command fails. -/
def reliable (get : σ → (r : Q) → V r) (put : σ → W → σ) :
    Machine (Access.Answer (W := W) V) Unit σ :=
  fun c _ s => faulty get put c .none s

section Rules

variable {get : σ → (r : Q) → V r} {put : σ → W → σ} {rely guar : σ → σ → Prop} {s : σ}
  {fail : String → σ → Prop}

/-- A read from a faulty storage changes nothing, and answers what was there if it answers. -/
theorem safe_read_faulty {r : Q} {post : V r → σ → Prop} (hfail : ∀ e t, fail e t)
    (h : ∀ t, rely s t → guar t t ∧ ∀ t', rely t t' → post (get t r) t') :
    (StorageM.read (W := W) r).Safe (faulty get put) rely guar post fail s := by
  intro t ht fault
  obtain ⟨hguar, hpost⟩ := h t ht
  cases fault with
  | none => exact ⟨hguar, hpost⟩
  | before e => exact ⟨hguar, fun t' _ => hfail e t'⟩
  | after e => exact ⟨hguar, fun t' _ => hfail e t'⟩

/-- A write to a faulty storage takes effect or not, and if it answers it took effect. -/
theorem safe_write_faulty {w : W} {post : Unit → σ → Prop} (hfail : ∀ e t, fail e t)
    (h : ∀ t, rely s t → guar t t ∧ guar t (put t w) ∧ ∀ t', rely (put t w) t' → post () t') :
    (StorageM.write (V := V) w).Safe (faulty get put) rely guar post fail s := by
  intro t ht fault
  obtain ⟨hidle, hguar, hpost⟩ := h t ht
  cases fault with
  | none => exact ⟨hguar, hpost⟩
  | before e => exact ⟨hidle, fun t' _ => hfail e t'⟩
  | after e => exact ⟨hguar, fun t' _ => hfail e t'⟩

/-- A read from a reliable storage answers what is there. -/
theorem safe_read_reliable {r : Q} {post : V r → σ → Prop}
    (h : ∀ t, rely s t → guar t t ∧ ∀ t', rely t t' → post (get t r) t') :
    (StorageM.read (W := W) r).Safe (reliable get put) rely guar post fail s :=
  fun t ht _ => h t ht

/-- A write to a reliable storage takes effect. -/
theorem safe_write_reliable {w : W} {post : Unit → σ → Prop}
    (h : ∀ t, rely s t → guar t (put t w) ∧ ∀ t', rely (put t w) t' → post () t') :
    (StorageM.write (V := V) w).Safe (reliable get put) rely guar post fail s :=
  fun t ht _ => h t ht

/-- A read by a program that runs alone, on any machine. -/
theorem alone_read {m : Machine (Access.Answer (W := W) V) χ σ} {r : Q} {post : V r → σ → Prop}
    (h : ∀ x, guar s (m (.read r) x s).2 ∧
      (∀ a, (m (.read r) x s).1 = .ok a → post a (m (.read r) x s).2) ∧
      ∀ e, (m (.read r) x s).1 = .error e → fail e (m (.read r) x s).2) :
    (StorageM.read (W := W) r).Alone m guar post fail s := by
  rintro _ rfl x
  obtain ⟨hguar, hok, herr⟩ := h x
  refine ⟨hguar, ?_⟩
  change Fallible.Alone m guar post fail (Fallible.ofExcept (m (.read r) x s).1) _
  exact Fallible.alone_ofExcept hok herr

/-- A write by a program that runs alone, on any machine. -/
theorem alone_write {m : Machine (Access.Answer (W := W) V) χ σ} {w : W} {post : Unit → σ → Prop}
    (h : ∀ x, guar s (m (.write w) x s).2 ∧
      (∀ a, (m (.write w) x s).1 = .ok a → post a (m (.write w) x s).2) ∧
      ∀ e, (m (.write w) x s).1 = .error e → fail e (m (.write w) x s).2) :
    (StorageM.write (V := V) w).Alone m guar post fail s := by
  rintro _ rfl x
  obtain ⟨hguar, hok, herr⟩ := h x
  refine ⟨hguar, ?_⟩
  change Fallible.Alone m guar post fail (Fallible.ofExcept (m (.write w) x s).1) _
  exact Fallible.alone_ofExcept hok herr

/-- A read of a faulty storage by a program that runs alone and whose errors do not matter. -/
theorem alone_read_faulty {r : Q} {post : V r → σ → Prop} (hidle : guar s s)
    (hok : post (get s r) s) :
    (StorageM.read (W := W) r).Alone (faulty get put) guar post (fun _ _ => True) s := by
  refine safe_read_faulty (fun _ _ => trivial) ?_
  rintro _ rfl
  refine ⟨hidle, ?_⟩
  rintro _ rfl
  exact hok

/-- A write to a faulty storage by a program that runs alone and whose errors do not matter. -/
theorem alone_write_faulty {w : W} {post : Unit → σ → Prop} (hidle : guar s s)
    (hstep : guar s (put s w)) (hok : post () (put s w)) :
    (StorageM.write (V := V) w).Alone (faulty get put) guar post (fun _ _ => True) s := by
  refine safe_write_faulty (fun _ _ => trivial) ?_
  rintro _ rfl
  refine ⟨hidle, hstep, ?_⟩
  rintro _ rfl
  exact hok

/-- A read of a reliable storage by a program that runs alone. -/
theorem alone_read_reliable {r : Q} {post : V r → σ → Prop} (hidle : guar s s)
    (hok : post (get s r) s) :
    (StorageM.read (W := W) r).Alone (reliable get put) guar post fail s := by
  refine safe_read_reliable ?_
  rintro _ rfl
  refine ⟨hidle, ?_⟩
  rintro _ rfl
  exact hok

/-- A write to a reliable storage by a program that runs alone. -/
theorem alone_write_reliable {w : W} {post : Unit → σ → Prop} (hstep : guar s (put s w))
    (hok : post () (put s w)) :
    (StorageM.write (V := V) w).Alone (reliable get put) guar post fail s := by
  refine safe_write_reliable ?_
  rintro _ rfl
  refine ⟨hstep, ?_⟩
  rintro _ rfl
  exact hok

/-- A run that only reads leaves the storage as it is. -/
theorem eval_snd_of_reads {p : Prog (Access.Answer (W := W) V) α} {f : ℕ → Fault} {s : σ}
    (h : ∀ c ∈ p.commands (faulty get put) f s, ∃ r, c = .read r) :
    (p.eval (faulty get put) f s).2 = s := by
  induction p generalizing f s with
  | ret a => rfl
  | call c k ih =>
    rw [Prog.commands_call, List.forall_mem_cons] at h
    obtain ⟨⟨r, rfl⟩, hrest⟩ := h
    have hread : (faulty get put (.read r : Access Q W) (f 0) s).2 = s := by
      cases f 0 <;> rfl
    rw [hread] at hrest
    rw [Prog.eval_call, hread]
    exact ih _ hrest

end Rules

end RockchipDra.Effect
