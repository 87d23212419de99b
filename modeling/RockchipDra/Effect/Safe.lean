import RockchipDra.Effect.Prog

/-!
# Safety of a program at every cut and under interference

`Prog.Safe` is the proof rule for programs that share their state with others and that may be
stopped between any two commands. Before each command the state may move along `rely`, which covers
what the others do. Each command of the program must then move it along `guar`, and at the end
`post` must hold whatever the others still do.

A program that runs alone has equality as its `rely`. An invariant that every cut of the program
must keep is a `guar` that asks for it after every command.
-/

namespace RockchipDra.Effect.Prog

variable {C : Type} {R : C → Type} {α β χ σ : Type} {m : Machine R χ σ}
  {rely guar guar' : σ → σ → Prop} {post post' : α → σ → Prop}

/-- From the state `s`, with the state moving along `rely` between its commands, every command of
the program moves the state along `guar`, and its result satisfies `post`. -/
def Safe (m : Machine R χ σ) (rely guar : σ → σ → Prop) (post : α → σ → Prop) :
    Prog R α → σ → Prop
  | .ret a, s => ∀ s', rely s s' → post a s'
  | .call c k, s => ∀ s', rely s s' → ∀ x,
      guar s' (m c x s').2 ∧ (k (m c x s').1).Safe m rely guar post (m c x s').2

/-- What the others do keeps a program safe. -/
theorem Safe.stable {p : Prog R α} {s s' : σ} (h : p.Safe m rely guar post s)
    (htrans : ∀ a b c, rely a b → rely b c → rely a c) (hs : rely s s') :
    p.Safe m rely guar post s' := by
  cases p with
  | ret a => exact fun t ht => h t (htrans _ _ _ hs ht)
  | call c k => exact fun t ht => h t (htrans _ _ _ hs ht)

/-- A command of a safe program meets its guarantee and leaves a safe program. -/
theorem Safe.step (hrefl : ∀ a, rely a a) {c : C} {k : R c → Prog R α} {s : σ}
    (h : (call c k).Safe m rely guar post s) (x : χ) :
    guar s (m c x s).2 ∧ (k (m c x s).1).Safe m rely guar post (m c x s).2 :=
  h s (hrefl s) x

/-- A safe program that has returned meets its postcondition. -/
theorem Safe.done (hrefl : ∀ a, rely a a) {a : α} {s : σ}
    (h : (ret a : Prog R α).Safe m rely guar post s) : post a s :=
  h s (hrefl s)

/-- A safe program stays safe for a weaker guarantee and a weaker postcondition. -/
theorem Safe.mono (hguar : ∀ a b, guar a b → guar' a b) (hpost : ∀ a s, post a s → post' a s)
    {p : Prog R α} {s : σ} (h : p.Safe m rely guar post s) : p.Safe m rely guar' post' s := by
  induction p generalizing s with
  | ret a => exact fun t ht => hpost a t (h t ht)
  | call c k ih =>
    intro t ht x
    obtain ⟨hg, hk⟩ := h t ht x
    exact ⟨hguar _ _ hg, ih _ hk⟩

/-- A composition is safe when its first part is, with a postcondition from which the rest is. -/
theorem Safe.bind (hrefl : ∀ a, rely a a) {p : Prog R α} {f : α → Prog R β} {post : β → σ → Prop}
    {s : σ} (h : p.Safe m rely guar (fun a t => (f a).Safe m rely guar post t) s) :
    (p.bind f).Safe m rely guar post s := by
  induction p generalizing s with
  | ret a => exact h s (hrefl s)
  | call c k ih =>
    intro t ht x
    obtain ⟨hg, hk⟩ := h t ht x
    exact ⟨hg, ih _ hk⟩

/-- A program whose commands are issued under other names is safe where the program is safe on the
commands so named. -/
theorem Safe.interp_issue {D : Type} {S : D → Type} (name : C → D) {n : Machine S χ σ}
    {p : Prog (fun c => S (name c)) α} {s : σ} (h : p.Safe (fun c => n (name c)) rely guar post s) :
    (p.interp fun c => issue (name c)).Safe n rely guar post s := by
  induction p generalizing s with
  | ret a => exact h
  | call c k ih =>
    intro t ht x
    obtain ⟨hg, hk⟩ := h t ht x
    exact ⟨hg, ih _ hk⟩

/-- A program that runs alone and keeps `inv` is safe when each of its commands is translated. Here
`rel` relates the states of the two machines, and at every cut of a translation the state stands for
the one before or for one after the command. -/
theorem Safe.interp {D τ ψ : Type} {S : D → Type} {n : Machine S ψ τ} (rel : τ → σ → Prop)
    {inv : σ → Prop} {t : (c : C) → Prog S (R c)}
    (hsim : ∀ c d s, rel d s → (t c).Safe n Eq (fun _ d' => rel d' s ∨ ∃ x, rel d' (m c x s).2)
      (fun r d' => ∃ x, (m c x s).1 = r ∧ rel d' (m c x s).2) d)
    {p : Prog R α} {d : τ} {s : σ} (hrel : rel d s) (hs : inv s)
    (h : p.Safe m Eq (fun _ s' => inv s') post s) :
    (p.interp t).Safe n Eq (fun _ d' => ∃ s', rel d' s' ∧ inv s')
      (fun a d' => ∃ s', rel d' s' ∧ post a s') d := by
  induction p generalizing d s with
  | ret a =>
    rintro _ rfl
    exact ⟨s, hrel, h s rfl⟩
  | call c k ih =>
    -- The state is `inv` on both sides of the command, so it is at every cut of its translation.
    refine Safe.bind (fun _ => rfl) (Safe.mono ?_ ?_ (hsim c d s hrel))
    · rintro - d' (hbefore | ⟨x, hafter⟩)
      · exact ⟨s, hbefore, hs⟩
      · exact ⟨_, hafter, (h s rfl x).1⟩
    · rintro r d' ⟨x, rfl, hafter⟩
      exact ih _ hafter (h s rfl x).1 (h s rfl x).2

/-- A program that runs alone reaches its postcondition. -/
theorem Safe.eval {p : Prog R α} {s : σ} (h : p.Safe m Eq guar post s) (f : ℕ → χ) :
    post (p.eval m f s).1 (p.eval m f s).2 := by
  induction p generalizing s f with
  | ret a => exact h s rfl
  | call c k ih => exact ih _ (h s rfl (f 0)).2 _

/-- What every command of a program that runs alone keeps is kept at the end. -/
theorem Safe.eval_eq {γ : Type} {g : σ → γ} {p : Prog R α} {s : σ}
    (h : p.Safe m Eq (fun s t => g t = g s) post s) (f : ℕ → χ) : g (p.eval m f s).2 = g s := by
  induction p generalizing s f with
  | ret a => rfl
  | call c k ih =>
    obtain ⟨hg, hk⟩ := h s rfl (f 0)
    exact (ih _ hk _).trans hg

/-- What every command of a program that runs alone keeps is kept at every cut. -/
theorem Safe.after_eq {γ : Type} {g : σ → γ} {p : Prog R α} {s : σ}
    (h : p.Safe m Eq (fun s t => g t = g s) post s) (f : ℕ → χ) (n : ℕ) :
    g (p.after m f n s) = g s := by
  induction p generalizing s f n with
  | ret a => rw [after_ret]
  | call c k ih =>
    cases n with
    | zero => rw [after_zero]
    | succ n =>
      obtain ⟨hg, hk⟩ := h s rfl (f 0)
      exact (ih _ hk _ n).trans hg

end RockchipDra.Effect.Prog
