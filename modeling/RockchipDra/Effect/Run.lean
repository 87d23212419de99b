import Mathlib.Tactic

/-!
# Runs of a transition function

A system is a function that takes a state and an event to the next state, where the event is
possible. `run` follows a list of events. An invariant that every step keeps holds at the end of
every run. `Along` says that a property of single steps holds at every step of a run, and `Sometime`
that it holds at one of them. `observed` collects what is seen of a run from outside. `CanReach`
says that some run with events of a given kind leads to a state with a property.
-/

namespace RockchipDra.Effect

variable {σ ε : Type} {step : σ → ε → Option σ}

/-- The state after a list of events, where each is possible in its turn. -/
def run (step : σ → ε → Option σ) : σ → List ε → Option σ
  | s, [] => some s
  | s, e :: es => (step s e).bind fun t => run step t es

@[simp] theorem run_nil (s : σ) : run step s [] = some s := rfl

@[simp] theorem run_cons (s : σ) (e : ε) (es : List ε) :
    run step s (e :: es) = (step s e).bind fun t => run step t es := rfl

/-- A run goes through the end of its first part. -/
theorem run_append (s : σ) (es es' : List ε) :
    run step s (es ++ es') = (run step s es).bind fun t => run step t es' := by
  induction es generalizing s with
  | nil => rfl
  | cons e es ih =>
    rw [List.cons_append, run_cons, run_cons]
    cases step s e with
    | none => rfl
    | some t => exact ih t

/-- What holds at the start and is kept by every step holds at the end of every run. -/
theorem run_invariant (inv : σ → Prop) (hstep : ∀ s e t, inv s → step s e = some t → inv t)
    {s t : σ} {es : List ε} (hs : inv s) (h : run step s es = some t) : inv t := by
  induction es generalizing s with
  | nil =>
    rw [run_nil, Option.some.injEq] at h
    exact h ▸ hs
  | cons e es ih =>
    rw [run_cons, Option.bind_eq_some_iff] at h
    obtain ⟨u, hu, h⟩ := h
    exact ih (hstep s e u hs hu) h

/-- A property of single steps at every step of a run. -/
def Along (step : σ → ε → Option σ) (P : σ → ε → σ → Prop) : σ → List ε → Prop
  | _, [] => True
  | s, e :: es => ∀ t, step s e = some t → P s e t ∧ Along step P t es

/-- What holds of every step holds along every run. -/
theorem along_of_forall {P : σ → ε → σ → Prop} (h : ∀ s e t, step s e = some t → P s e t) (s : σ)
    (es : List ε) : Along step P s es := by
  induction es generalizing s with
  | nil => trivial
  | cons e es ih => exact fun t ht => ⟨h s e t ht, ih t⟩

/-- What holds of every step with an event of a run holds along the run. -/
theorem along_of_mem {P : σ → ε → σ → Prop} {es : List ε}
    (h : ∀ e ∈ es, ∀ s t, step s e = some t → P s e t) {s : σ} : Along step P s es := by
  induction es generalizing s with
  | nil => trivial
  | cons e es ih =>
    obtain ⟨he, hes⟩ := List.forall_mem_cons.mp h
    exact fun t ht => ⟨he s t ht, ih hes⟩

instance decidableAlong {P : σ → ε → σ → Prop} [∀ s e t, Decidable (P s e t)] :
    ∀ s es, Decidable (Along step P s es)
  | _, [] => .isTrue trivial
  | s, e :: es =>
    match hstep : step s e with
    | none => .isTrue fun t ht => by cases hstep.symm.trans ht
    | some t =>
      have : Decidable (Along step P t es) := decidableAlong t es
      decidable_of_iff (P s e t ∧ Along step P t es)
        ⟨fun h u hu => Option.some.inj (hstep.symm.trans hu) ▸ h, fun h => h t hstep⟩

/-- What holds at the start and is kept by every step with a property holds at the end of every run
that has the property along it. -/
theorem Along.invariant {P : σ → ε → σ → Prop} (inv : σ → Prop)
    (hstep : ∀ s e t, inv s → step s e = some t → P s e t → inv t) {s t : σ} {es : List ε}
    (halong : Along step P s es) (hs : inv s) (h : run step s es = some t) : inv t := by
  induction es generalizing s with
  | nil =>
    rw [run_nil, Option.some.injEq] at h
    exact h ▸ hs
  | cons e es ih =>
    rw [run_cons, Option.bind_eq_some_iff] at h
    obtain ⟨u, hu, h⟩ := h
    obtain ⟨hP, hrest⟩ := halong u hu
    exact ih hrest (hstep s e u hs hu hP) h

/-- Along a run with a property, at the states that an invariant allows, two properties hold
together if they are equivalent there. The invariant has to be kept only where they hold. -/
theorem along_congr {P Q R : σ → ε → σ → Prop} (inv : σ → Prop)
    (hstep : ∀ s e t, inv s → step s e = some t → R s e t → Q s e t → inv t)
    (hPQ : ∀ s e t, inv s → step s e = some t → R s e t → (P s e t ↔ Q s e t)) {s : σ} {es : List ε}
    (hs : inv s) (hR : Along step R s es) : Along step P s es ↔ Along step Q s es := by
  induction es generalizing s with
  | nil => exact Iff.rfl
  | cons e es ih =>
    refine forall_congr' fun t => forall_congr' fun ht => ?_
    obtain ⟨hRt, hrest⟩ := hR t ht
    rw [hPQ s e t hs ht hRt]
    exact and_congr_right fun hQ => ih (hstep s e t hs ht hRt hQ) hrest

/-- What follows from an invariant at every step holds along every run. -/
theorem along_of_invariant {P R : σ → ε → σ → Prop} (inv : σ → Prop)
    (hstep : ∀ s e t, inv s → step s e = some t → R s e t → inv t)
    (hP : ∀ s e t, inv s → step s e = some t → R s e t → P s e t) {s : σ} {es : List ε} (hs : inv s)
    (hR : Along step R s es) : Along step P s es := by
  -- The property is equivalent to the trivial one wherever the invariant holds.
  have hcongr :=
    along_congr (Q := fun _ _ _ => True) inv (fun s e t h ht hRt _ => hstep s e t h ht hRt)
    (fun s e t h ht hRt => iff_true_intro (hP s e t h ht hRt)) hs hR
  exact hcongr.mpr (along_of_forall (fun _ _ _ _ => trivial) _ _)

/-- A weaker property along a run. -/
theorem Along.mono {P Q : σ → ε → σ → Prop} (hPQ : ∀ s e t, step s e = some t → P s e t → Q s e t)
    {s : σ} {es : List ε} (h : Along step P s es) : Along step Q s es := by
  induction es generalizing s with
  | nil => trivial
  | cons e es ih =>
    intro t ht
    obtain ⟨hP, hrest⟩ := h t ht
    exact ⟨hPQ s e t ht hP, ih hrest⟩

/-- A property along a run holds at each of its steps. -/
theorem Along.at_step {P : σ → ε → σ → Prop} {s t u : σ} {es : List ε} {e : ε} {es' : List ε}
    (h : Along step P s (es ++ e :: es')) (ht : run step s es = some t) (hu : step t e = some u) :
    P t e u := by
  induction es generalizing s with
  | nil =>
    rw [run_nil, Option.some.injEq] at ht
    subst ht
    exact (h u hu).1
  | cons a es ih =>
    rw [run_cons, Option.bind_eq_some_iff] at ht
    obtain ⟨v, hv, ht⟩ := ht
    exact ih (h v hv).2 ht

/-- A property of single steps, and of the events that follow, at some step of a run. -/
def Sometime (step : σ → ε → Option σ) (P : σ → ε → σ → List ε → Prop) : σ → List ε → Prop
  | _, [] => False
  | s, e :: es => ∃ t, step s e = some t ∧ (P s e t es ∨ Sometime step P t es)

/-- A weaker property at some step of a run. -/
theorem Sometime.mono {P Q : σ → ε → σ → List ε → Prop}
    (hPQ : ∀ s e t es, step s e = some t → P s e t es → Q s e t es) {s : σ} {es : List ε}
    (h : Sometime step P s es) : Sometime step Q s es := by
  induction es generalizing s with
  | nil => exact h
  | cons e es ih =>
    obtain ⟨t, ht, hP | hrest⟩ := h
    · exact ⟨t, ht, .inl (hPQ s e t es ht hP)⟩
    · exact ⟨t, ht, .inr (ih hrest)⟩

/-- A run that ends outside of a set of states in which it began leaves the set at some step. -/
theorem sometime_leaves (inv : σ → Prop) (hinv : ∀ s e t, inv s → step s e = some t → inv t)
    (P : σ → Prop) {s t : σ} {es : List ε} (hs : inv s) (hbefore : P s) (hafter : ¬P t)
    (h : run step s es = some t) :
    Sometime step (fun u _ v es' => inv u ∧ P u ∧ ¬P v ∧ run step v es' = some t) s es := by
  induction es generalizing s with
  | nil =>
    rw [run_nil, Option.some.injEq] at h
    exact absurd (h ▸ hbefore) hafter
  | cons e es ih =>
    rw [run_cons, Option.bind_eq_some_iff] at h
    obtain ⟨u, hu, h⟩ := h
    -- The first step either leaves the set, or the rest of the run does.
    by_cases hP : P u
    · exact ⟨u, hu, .inr (ih (hinv s e u hs hu) hP h)⟩
    · exact ⟨u, hu, .inl ⟨hs, hbefore, hP, h⟩⟩

/-! ## States that can be reached -/

section CanReach

variable {own : ε → Prop} {P Q : σ → Prop} {s t : σ}

/-- Some run with events of a kind leads to a state with a property. -/
def CanReach (step : σ → ε → Option σ) (own : ε → Prop) (P : σ → Prop) (s : σ) : Prop :=
  ∃ es t, (∀ e ∈ es, own e) ∧ run step s es = some t ∧ P t

theorem CanReach.refl (hs : P s) : CanReach step own P s :=
  ⟨[], s, by simp, rfl, hs⟩

/-- One event, and what can be reached after it. -/
theorem CanReach.head {e : ε} (he : own e) (ht : step s e = some t) (h : CanReach step own P t) :
    CanReach step own P s := by
  obtain ⟨es, u, hes, hrun, hu⟩ := h
  refine ⟨e :: es, u, List.forall_mem_cons.mpr ⟨he, hes⟩, ?_, hu⟩
  rw [run_cons, ht]
  exact hrun

/-- What can be reached from a state that can be reached, where an invariant holds. -/
theorem CanReach.trans (inv : σ → Prop) (hinv : ∀ s e t, inv s → step s e = some t → inv t)
    (hs : inv s) (h : CanReach step own P s) (hP : ∀ t, inv t → P t → CanReach step own Q t) :
    CanReach step own Q s := by
  obtain ⟨es, t, hes, hrun, ht⟩ := h
  obtain ⟨es', u, hes', hrun', hu⟩ := hP t (run_invariant inv hinv hs hrun) ht
  refine ⟨es ++ es', u, ?_, ?_, hu⟩
  · exact fun e he => (List.mem_append.mp he).elim (hes e) (hes' e)
  · rw [run_append, hrun]
    exact hrun'

end CanReach

/-! ## What is observed of a run -/

variable {ο : Type}

/-- What is observed at the steps of a run, in order. -/
def observed (step : σ → ε → Option σ) (obs : σ → ε → Option ο) : σ → List ε → List ο
  | _, [] => []
  | s, e :: es =>
    match step s e with
    | none => []
    | some t => (obs s e).toList ++ observed step obs t es

/-- What is observed of a run is what is observed of its parts. -/
theorem observed_append {obs : σ → ε → Option ο} {s t : σ} {es : List ε}
    (hrun : run step s es = some t) (es' : List ε) :
    observed step obs s (es ++ es') = observed step obs s es ++ observed step obs t es' := by
  induction es generalizing s with
  | nil =>
    rw [run_nil, Option.some.injEq] at hrun
    rw [hrun]
    rfl
  | cons e es ih =>
    rw [run_cons, Option.bind_eq_some_iff] at hrun
    obtain ⟨u, hu, hrun⟩ := hrun
    rw [List.cons_append, observed, observed, hu]
    dsimp only
    rw [ih hrun, List.append_assoc]

/-- What is observed of the events alone. -/
theorem observed_eq_filterMap {f : ε → Option ο} {s t : σ} {es : List ε}
    (hrun : run step s es = some t) : observed step (fun _ => f) s es = es.filterMap f := by
  induction es generalizing s with
  | nil => rfl
  | cons e es ih =>
    rw [run_cons, Option.bind_eq_some_iff] at hrun
    obtain ⟨u, hu, hrun⟩ := hrun
    rw [observed, hu, List.filterMap_cons]
    dsimp only
    rw [ih hrun]
    cases f e <;> rfl

/-- An invariant of states and of what has been observed so far, which the steps with the events of
a run keep, holds at the end of the run. -/
theorem run_observed (inv : List ο → σ → Prop) (obs : σ → ε → Option ο) (Q : ε → Prop)
    (hstep : ∀ h s e t, inv h s → step s e = some t → Q e → inv (h ++ (obs s e).toList) t)
    {h : List ο} {s t : σ} {es : List ε} (hs : inv h s) (hrun : run step s es = some t)
    (hes : ∀ e ∈ es, Q e) : inv (h ++ observed step obs s es) t := by
  induction es generalizing h s with
  | nil =>
    rw [run_nil, Option.some.injEq] at hrun
    rw [observed, List.append_nil]
    exact hrun ▸ hs
  | cons e es ih =>
    rw [run_cons, Option.bind_eq_some_iff] at hrun
    obtain ⟨u, hu, hrun⟩ := hrun
    obtain ⟨he, hes⟩ := List.forall_mem_cons.mp hes
    rw [observed, hu, ← List.append_assoc]
    exact ih (hstep h s e u hs hu he) hrun hes

end RockchipDra.Effect
