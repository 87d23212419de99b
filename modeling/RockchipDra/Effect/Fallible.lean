import RockchipDra.Effect.Safe

/-!
# Programs that can fail

A fallible program ends with a value or with an error. The rules say how `Prog.Safe` passes through
the ways of building one: a single command, a value or an error known beforehand, a sequence that
stops at the first error, and an error with a text before it.
-/

namespace RockchipDra.Effect

variable {C : Type} {R : C → Type} {E α β χ σ : Type} {m : Machine R χ σ}
  {rely guar : σ → σ → Prop}

/-- Programs over commands that can fail with an error. -/
abbrev Fallible (R : C → Type) (E : Type) := ExceptT E (Prog R)

namespace Fallible

/-- A result known beforehand. -/
def ofExcept (r : Except E α) : Fallible R E α := ExceptT.mk (pure r)

/-- A program whose errors are changed. -/
def mapError (f : E → E) (p : Fallible R E α) : Fallible R E α :=
  ExceptT.mk (p.run >>= fun r => pure (r.mapError f))

/-- A program that is followed by a cleanup where it fails. The result of the cleanup is ignored. -/
def onError (cleanup : Fallible R E β) (p : Fallible R E α) : Fallible R E α :=
  ExceptT.mk (p.run >>= fun r =>
    match r with
    | .ok a => pure (.ok a)
    | .error e => cleanup.run >>= fun _ => pure (.error e))

/-- Every command of a fallible program keeps `guar`, a value that it returns satisfies `post`, and
an error that it returns satisfies `fail`. -/
def Safe (m : Machine R χ σ) (rely guar : σ → σ → Prop) (post : α → σ → Prop) (fail : E → σ → Prop)
    (p : Fallible R E α) (s : σ) : Prop :=
  p.run.Safe m rely guar (fun r t => r.rec (fun e => fail e t) (fun a => post a t)) s

variable {post : α → σ → Prop} {fail : E → σ → Prop}

theorem safe_pure {a : α} {s : σ} (h : ∀ t, rely s t → post a t) :
    (pure a : Fallible R E α).Safe m rely guar post fail s := h

theorem safe_ofExcept {r : Except E α} {s : σ} (hok : ∀ a, r = .ok a → ∀ t, rely s t → post a t)
    (herr : ∀ e, r = .error e → ∀ t, rely s t → fail e t) :
    (ofExcept r : Fallible R E α).Safe m rely guar post fail s := by
  cases r with
  | ok a => exact hok a rfl
  | error e => exact herr e rfl

/-- In a sequence, what holds after the first part is what the second one starts from. -/
theorem safe_bind (hrefl : ∀ a, rely a a) {p : Fallible R E α} {f : α → Fallible R E β}
    {post : β → σ → Prop} {s : σ}
    (h : p.Safe m rely guar (fun a t => (f a).Safe m rely guar post fail t)
      (fun e t => ∀ t', rely t t' → fail e t') s) :
    (p >>= f).Safe m rely guar post fail s := by
  refine Prog.Safe.bind hrefl (Prog.Safe.mono (fun _ _ h => h) ?_ h)
  intro r t hr
  cases r with
  | ok a => exact hr
  | error e => exact hr

theorem safe_mapError (hrefl : ∀ a, rely a a) {f : E → E} {p : Fallible R E α} {s : σ}
    (h : p.Safe m rely guar (fun a t => ∀ t', rely t t' → post a t')
      (fun e t => ∀ t', rely t t' → fail (f e) t') s) :
    (mapError f p).Safe m rely guar post fail s := by
  refine Prog.Safe.bind hrefl (Prog.Safe.mono (fun _ _ h => h) ?_ h)
  intro r t hr
  cases r with
  | ok a => exact hr
  | error e => exact hr

/-- A weaker postcondition. -/
theorem Safe.mono {guar' : σ → σ → Prop} {post' : α → σ → Prop} {fail' : E → σ → Prop}
    (hguar : ∀ a b, guar a b → guar' a b) (hpost : ∀ a t, post a t → post' a t)
    (hfail : ∀ e t, fail e t → fail' e t) {p : Fallible R E α} {s : σ}
    (h : p.Safe m rely guar post fail s) :
    p.Safe m rely guar' post' fail' s := by
  refine Prog.Safe.mono hguar ?_ h
  intro r t hr
  cases r with
  | ok a => exact hpost a t hr
  | error e => exact hfail e t hr

/-- A condition on results, read as one on values and one on errors. -/
theorem Safe.run {Q : Except E α → σ → Prop} {p : Fallible R E α} {s : σ}
    (h : p.Safe m rely guar (fun a t => Q (.ok a) t) (fun e t => Q (.error e) t) s) :
    Prog.Safe m rely guar Q (ExceptT.run p) s := by
  refine Prog.Safe.mono (fun _ _ h => h) ?_ h
  intro r t hr
  cases r with
  | ok a => exact hr
  | error e => exact hr

/-! ## Running a fallible program to its end -/

/-- Changing the errors of a program changes nothing else. -/
theorem eval_mapError (m : Machine R χ σ) (f : E → E) (p : Fallible R E α) (x : χ) (s : σ) :
    (mapError f p).run.eval m (fun _ => x) s =
      ((p.run.eval m (fun _ => x) s).1.mapError f, (p.run.eval m (fun _ => x) s).2) :=
  Prog.eval_bind_const m p.run _ x s

/-- A function of the result changes nothing else. -/
theorem eval_bind_pure (m : Machine R χ σ) (f : α → β) (p : Fallible R E α) (x : χ) (s : σ) :
    (p >>= fun a => pure (f a)).run.eval m (fun _ => x) s =
      ((p.run.eval m (fun _ => x) s).1.map f, (p.run.eval m (fun _ => x) s).2) := by
  refine (Prog.eval_bind_const m p.run _ x s).trans ?_
  cases (p.run.eval m (fun _ => x) s).1 <;> rfl

/-! ## The commands of a fallible program -/

theorem issues_bind {P : C → Prop} {p : Fallible R E α} {f : α → Fallible R E β}
    (hp : p.run.Issues P) (hf : ∀ a, (f a).run.Issues P) : (p >>= f).run.Issues P := by
  refine Prog.Issues.bind hp ?_
  rintro (e | a)
  · trivial
  · exact hf a

theorem issues_mapError {P : C → Prop} {f : E → E} {p : Fallible R E α} (hp : p.run.Issues P) :
    (mapError f p).run.Issues P :=
  Prog.Issues.bind hp fun _ => trivial

theorem issues_onError {P : C → Prop} {cleanup : Fallible R E β} {p : Fallible R E α}
    (hcleanup : cleanup.run.Issues P) (hp : p.run.Issues P) :
    (onError cleanup p).run.Issues P := by
  refine Prog.Issues.bind hp ?_
  rintro (e | a)
  · exact Prog.Issues.bind hcleanup fun _ => trivial
  · trivial

/-! ## Programs that run alone

Where no one else changes the state, the rules need not say what others do in between. -/

/-- Every command of a program that runs alone keeps `guar`, a value that it returns satisfies
`post`, and an error that it returns satisfies `fail`. -/
def Alone (m : Machine R χ σ) (guar : σ → σ → Prop) (post : α → σ → Prop) (fail : E → σ → Prop)
    (p : Fallible R E α) (s : σ) : Prop :=
  p.Safe m Eq guar post fail s

theorem alone_pure {a : α} {s : σ} (h : post a s) :
    (pure a : Fallible R E α).Alone m guar post fail s :=
  safe_pure fun _ ht => ht ▸ h

theorem alone_ofExcept {r : Except E α} {s : σ} (hok : ∀ a, r = .ok a → post a s)
    (herr : ∀ e, r = .error e → fail e s) :
    (ofExcept r : Fallible R E α).Alone m guar post fail s :=
  safe_ofExcept (fun a ha _ ht => ht ▸ hok a ha) (fun e he _ ht => ht ▸ herr e he)

theorem alone_bind {p : Fallible R E α} {f : α → Fallible R E β} {post : β → σ → Prop} {s : σ}
    (h : p.Alone m guar (fun a t => (f a).Alone m guar post fail t) fail s) :
    (p >>= f).Alone m guar post fail s :=
  safe_bind (fun _ => rfl)
    (Safe.mono (fun _ _ h => h) (fun _ _ h => h) (fun _ _ h _ ht => ht ▸ h) h)

theorem alone_mapError {f : E → E} {p : Fallible R E α} {s : σ}
    (h : p.Alone m guar post (fun e t => fail (f e) t) s) :
    (mapError f p).Alone m guar post fail s :=
  safe_mapError (fun _ => rfl)
    (Safe.mono (fun _ _ h => h) (fun _ _ h _ ht => ht ▸ h) (fun _ _ h _ ht => ht ▸ h) h)

/-- Where a program fails, what holds then is what its cleanup starts from. -/
theorem alone_onError {cleanup : Fallible R E β} {p : Fallible R E α} {s : σ}
    (h : p.Alone m guar post
      (fun e t => cleanup.Alone m guar (fun _ t' => fail e t') (fun _ t' => fail e t') t) s) :
    (onError cleanup p).Alone m guar post fail s := by
  refine Prog.Safe.bind (fun _ => rfl) (Prog.Safe.mono (fun _ _ h => h) ?_ h)
  rintro (e | a) t hr
  -- Whether the cleanup succeeds or not, the error of the program is returned.
  · refine Prog.Safe.bind (fun _ => rfl) (Prog.Safe.mono (fun _ _ h => h) ?_ hr)
    rintro (_ | _) t' ht' _ rfl
    · exact ht'
    · exact ht'
  · rintro _ rfl
    exact hr

/-! ## Programs that are retried -/

/-- Attempts of a program, each on the state that the one before it left, until one succeeds. An
attempt that does not succeed has failed, or was cut after some of its commands. -/
inductive Retries (m : Machine R χ σ) (p : Fallible R E α) : σ → σ → Prop
  | success {f : ℕ → χ} {s t : σ} {a : α} (h : p.run.eval m f s = (.ok a, t)) : Retries m p s t
  | failure {f : ℕ → χ} {s t u : σ} {e : E} (h : p.run.eval m f s = (.error e, t))
      (rest : Retries m p t u) : Retries m p s u
  | cut {f : ℕ → χ} {s u : σ} (n : ℕ) (rest : Retries m p (p.run.after m f n s) u) :
      Retries m p s u

/-- Where every command keeps the state that a success leads to, the attempts lead to it. -/
theorem Retries.reaches {p : Fallible R E α} {goal : σ → σ}
    (hp : ∀ s, p.Alone m (fun s t => goal t = goal s) (fun _ t => t = goal s) (fun _ _ => True) s)
    {s t : σ} (h : Retries m p s t) : t = goal s := by
  induction h with
  | @success f s t a h =>
    have hpost := (hp s).eval f
    rw [h] at hpost
    exact hpost
  -- A failed or cut attempt changes the state but not the goal, which the later ones reach.
  | @failure f s t u e h rest ih =>
    have hkept := (hp s).eval_eq f
    rw [h] at hkept
    rw [ih, hkept]
  | @cut f s u n rest ih => rw [ih, (hp s).after_eq f n]

end Fallible

end RockchipDra.Effect
