import RockchipDra.Effect.Run
import RockchipDra.Effect.Safe

/-!
# Refinement between two levels of commands

`Prog.interp` replaces every command of a program by a program over smaller commands. `UnderWay`
relates what is left of such a translation to what is left of the program: the small program is
within the translation of the next command, or both have returned. A small command stays within the
translation or completes it (`UnderWay.step`), and at every cut the state stands for the one before
the next command or for one after it (`UnderWay.cut`).

`run_simulates` carries a step-by-step simulation to whole runs. One step may be matched by any
number of steps, and what is observed of the two runs is the same.
-/

namespace RockchipDra.Effect

/-! ## Translated programs -/

namespace Prog

variable {C D : Type} {R : C → Type} {S : D → Type} {α χ ψ σ τ : Type} {m : Machine R χ σ}
  {n : Machine S ψ τ} {rel : τ → σ → Prop} {t : (c : C) → Prog S (R c)}

/-- From the state `d`, a program over small commands does what the command `c` does in the state
`s`: at every cut the state stands for the one before or for one after the command, and in the end
for the one that belongs to the answer. -/
def Translates (m : Machine R χ σ) (n : Machine S ψ τ) (rel : τ → σ → Prop) (c : C)
    (p : Prog S (R c)) (d : τ) (s : σ) : Prop :=
  p.Safe n Eq (fun _ d' => rel d' s ∨ ∃ x, rel d' (m c x s).2)
    (fun r d' => ∃ x, (m c x s).1 = r ∧ rel d' (m c x s).2) d

/-- What is left of a translation in the state `d`, against what is left of the program in the state
`s`. -/
inductive UnderWay (m : Machine R χ σ) (n : Machine S ψ τ) (rel : τ → σ → Prop)
    (t : (c : C) → Prog S (R c)) : Prog S α → τ → Prog R α → σ → Prop
  /-- Both have returned. -/
  | returned {a : α} {d : τ} {s : σ} (hrel : rel d s) : UnderWay m n rel t (.ret a) d (.ret a) s
  /-- The next command of the program is being translated. -/
  | within {c : C} {b : D} {j : S b → Prog S (R c)} {k : R c → Prog R α} {d : τ} {s : σ}
      (hsafe : Translates m n rel c (.call b j) d s) (hcut : rel d s ∨ ∃ x, rel d (m c x s).2) :
      UnderWay m n rel t (.call b fun r => (j r).bind fun a => (k a).interp t) d (.call c k) s

/-- A translation at its start. -/
theorem UnderWay.start (hsim : ∀ c d s, rel d s → Translates m n rel c (t c) d s)
    (hcall : ∀ c, ∃ b j, t c = .call b j) {d : τ} {s : σ} (hrel : rel d s) (p : Prog R α) :
    UnderWay m n rel t (p.interp t) d p s := by
  cases p with
  | ret a => exact .returned hrel
  | call c k =>
    obtain ⟨b, j, htc⟩ := hcall c
    have hsafe := hsim c d s hrel
    rw [htc] at hsafe
    rw [interp_call, htc]
    exact .within hsafe (.inl hrel)

/-- A small command stays within the translation of the next command, or completes it. -/
theorem UnderWay.step (hsim : ∀ c d s, rel d s → Translates m n rel c (t c) d s)
    (hcall : ∀ c, ∃ b j, t c = .call b j) {b : D} {l : S b → Prog S α} {d : τ} {p : Prog R α}
    {s : σ} (h : UnderWay m n rel t (.call b l) d p s) (y : ψ) :
    UnderWay m n rel t (l (n b y d).1) (n b y d).2 p s ∨
      ∃ c k x, p = .call c k ∧
        UnderWay m n rel t (l (n b y d).1) (n b y d).2 (k (m c x s).1) (m c x s).2 := by
  cases h with
  | @within c _ j k _ _ hsafe hcut =>
    obtain ⟨hguar, hrest⟩ := hsafe.step (fun _ => rfl) y
    dsimp only
    generalize j (n b y d).1 = q at hrest
    cases q with
    | call b' j' => exact .inl (.within hrest hguar)
    | ret r =>
      -- The translation has returned its answer, so the program goes on with it.
      obtain ⟨x, rfl, hrel⟩ := hrest.done fun _ => rfl
      exact .inr ⟨c, k, x, rfl, .start hsim hcall hrel _⟩

/-- At a cut the state stands for the one before or for one after the next command. -/
theorem UnderWay.cut {q : Prog S α} {d : τ} {p : Prog R α} {s : σ}
    (h : UnderWay m n rel t q d p s) :
    rel d s ∨ ∃ c k x, p = .call c k ∧ rel d (m c x s).2 := by
  cases h with
  | returned hrel => exact .inl hrel
  | @within c _ _ k _ _ _ hcut => exact hcut.imp_right fun ⟨x, hx⟩ => ⟨c, k, x, rfl, hx⟩

/-- A translation that has returned. -/
theorem UnderWay.done {a : α} {d : τ} {p : Prog R α} {s : σ}
    (h : UnderWay m n rel t (.ret a) d p s) : p = .ret a ∧ rel d s := by
  cases h with
  | returned hrel => exact ⟨rfl, hrel⟩

end Prog

/-! ## Runs -/

variable {σ τ ε δ ο : Type} {step : σ → ε → Option σ} {step' : τ → δ → Option τ}

/-- Where every step with a property is matched by some steps at the other level, with the same
observations, so is every run that has the property along it. -/
theorem run_simulates {P : σ → ε → σ → Prop} (rel : σ → τ → Prop) (obs : σ → ε → Option ο)
    (obs' : τ → δ → Option ο)
    (hsim : ∀ s e s' t, rel s t → step s e = some s' → P s e s' →
      ∃ es' t', run step' t es' = some t' ∧ rel s' t' ∧
        observed step' obs' t es' = (obs s e).toList)
    {s s' : σ} {t : τ} {es : List ε} (hrel : rel s t) (hrun : run step s es = some s')
    (hP : Along step P s es) :
    ∃ es' t', run step' t es' = some t' ∧ rel s' t' ∧
      observed step' obs' t es' = observed step obs s es := by
  induction es generalizing s t with
  | nil =>
    rw [run_nil, Option.some.injEq] at hrun
    exact ⟨[], t, rfl, hrun ▸ hrel, rfl⟩
  | cons e es ih =>
    rw [run_cons, Option.bind_eq_some_iff] at hrun
    obtain ⟨u, hu, hrun⟩ := hrun
    obtain ⟨hPu, hrest⟩ := hP u hu
    obtain ⟨es₁, v, hv, huv, hobs₁⟩ := hsim s e u t hrel hu hPu
    obtain ⟨es₂, t', ht', hs', hobs₂⟩ := ih huv hrun hrest
    refine ⟨es₁ ++ es₂, t', ?_, hs', ?_⟩
    · rw [run_append, hv]
      exact ht'
    · rw [observed_append hv, hobs₁, hobs₂, observed, hu]

end RockchipDra.Effect
