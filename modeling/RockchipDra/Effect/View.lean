import RockchipDra.Effect.Storage

/-!
# Programs beside others that keep a view of the state

A program runs while others change the state, and all that it can count on is that they keep a view
of it, a function of the state. `Fallible.Beside` is the proof rule: it reasons about the program as
if it ran alone on some state with the same view. A command fits in if what it does to the view
depends on the view alone.
-/

namespace RockchipDra.Effect

variable {C : Type} {R : C → Type} {α β χ σ γ E : Type} {m : Machine R χ σ} {view : σ → γ}
  {post : α → σ → Prop} {fail : E → σ → Prop} {s : σ}

/-- A program whose commands keep the view keeps it, whatever the others do. -/
theorem Prog.Issues.keeps {P : C → Prop} {p : Prog R α} (hp : p.Issues P)
    (hm : ∀ c, P c → ∀ x s, view (m c x s).2 = view s) :
    p.Safe m (fun _ _ => True) (fun s t => view t = view s) (fun _ _ => True) s := by
  induction p generalizing s with
  | ret a => exact fun _ _ => trivial
  | call c k ih => exact fun t _ x => ⟨hm c hp.1 x t, ih _ (hp.2 _)⟩

/-- On every state with the view of `s`, beside others that keep the view, the program ends in a
state with the view of one that satisfies the postcondition. -/
def Fallible.Beside (m : Machine R χ σ) (view : σ → γ) (post : α → σ → Prop) (fail : E → σ → Prop)
    (p : Fallible R E α) (s : σ) : Prop :=
  ∀ t, view t = view s → p.Safe m (fun a b => view b = view a) (fun _ _ => True)
    (fun a t => ∃ u, view t = view u ∧ post a u) (fun e t => ∃ u, view t = view u ∧ fail e u) t

namespace Fallible

theorem beside_pure {a : α} (h : post a s) :
    Fallible.Beside m view post fail (pure a : Fallible R E α) s :=
  fun _ ht => safe_pure fun _ ht' => ⟨s, ht'.trans ht, h⟩

theorem beside_ofExcept {r : Except E α} (hok : ∀ a, r = .ok a → post a s)
    (herr : ∀ e, r = .error e → fail e s) :
    Fallible.Beside m view post fail (ofExcept r : Fallible R E α) s :=
  fun _ ht => safe_ofExcept (fun a ha _ ht' => ⟨s, ht'.trans ht, hok a ha⟩)
    (fun e he _ ht' => ⟨s, ht'.trans ht, herr e he⟩)

theorem beside_bind {p : Fallible R E α} {f : α → Fallible R E β} {post : β → σ → Prop}
    (h : p.Beside m view (fun a u => (f a).Beside m view post fail u) fail s) :
    (p >>= f).Beside m view post fail s := by
  intro t ht
  have hrefl : ∀ a : σ, (fun a b => view b = view a) a a := fun _ => rfl
  refine safe_bind hrefl (Safe.mono (fun _ _ h => h) ?_ ?_ (h t ht))
  · rintro a t' ⟨u, hu, hf⟩
    exact hf t' hu
  · rintro e t' ⟨u, hu, hfail⟩ t'' ht''
    exact ⟨u, ht''.trans hu, hfail⟩

theorem beside_mapError {f : E → E} {p : Fallible R E α}
    (h : p.Beside m view post (fun e u => fail (f e) u) s) :
    (mapError f p).Beside m view post fail s := by
  intro t ht
  have hrefl : ∀ a : σ, (fun a b => view b = view a) a a := fun _ => rfl
  refine safe_mapError hrefl (Safe.mono (fun _ _ h => h) ?_ ?_ (h t ht))
  · rintro a t' ⟨u, hu, hpost⟩ t'' ht''
    exact ⟨u, ht''.trans hu, hpost⟩
  · rintro e t' ⟨u, hu, hfail⟩ t'' ht''
    exact ⟨u, ht''.trans hu, hfail⟩

theorem Beside.mono {post' : α → σ → Prop} {fail' : E → σ → Prop} {p : Fallible R E α}
    (h : p.Beside m view post fail s) (hpost : ∀ a u, post a u → post' a u)
    (hfail : ∀ e u, fail e u → fail' e u) : p.Beside m view post' fail' s := by
  intro t ht
  refine Safe.mono (fun _ _ h => h) ?_ ?_ (h t ht)
  · rintro a t' ⟨u, hu, hpost'⟩
    exact ⟨u, hu, hpost a u hpost'⟩
  · rintro e t' ⟨u, hu, hfail'⟩
    exact ⟨u, hu, hfail e u hfail'⟩

end Fallible

section Storage

variable {Q W : Type} {V : Q → Type} {get : σ → (r : Q) → V r} {put : σ → W → σ}
  {fail : String → σ → Prop}

/-- A read answers what some state with the same view has. -/
theorem beside_read {r : Q} {post : V r → σ → Prop} (h : ∀ t, view t = view s → post (get t r) s) :
    (StorageM.read (W := W) r).Beside (reliable get put) view post fail s := by
  intro t ht
  refine safe_read_reliable fun t' ht' => ⟨trivial, fun t'' ht'' => ?_⟩
  exact ⟨s, ht''.trans (ht'.trans ht), h t' (ht'.trans ht)⟩

/-- A write that does to the view what the view determines. -/
theorem beside_write {w : W} {post : Unit → σ → Prop}
    (hput : ∀ t, view t = view s → view (put t w) = view (put s w)) (h : post () (put s w)) :
    (StorageM.write (V := V) w).Beside (reliable get put) view post fail s := by
  intro t ht
  refine safe_write_reliable fun t' ht' => ⟨trivial, fun t'' ht'' => ?_⟩
  exact ⟨put s w, ht''.trans (hput t' (ht'.trans ht)), h⟩

end Storage

end RockchipDra.Effect
