import Mathlib.Tactic

/-!
# Programs that issue commands

A program is a tree: it returns a value, or it issues a command and continues with the answer. What
a command does is not part of the program. A `Machine` says what each command answers and how it
changes a state, given a choice that stands for everything outside the program (an I/O fault, a
scheduler, a clock). The same program is then run to its end (`Prog.eval`), cut short
(`Prog.Safe` of `Effect/Safe.lean`), or translated into programs over smaller commands
(`Prog.interp`).
-/

namespace RockchipDra.Effect

/-- Programs over commands `C`, where the command `c` is answered by a value of `R c`. -/
inductive Prog {C : Type} (R : C → Type) (α : Type) : Type where
  /-- Return a value. -/
  | ret (a : α)
  /-- Issue a command and continue with its answer. -/
  | call (c : C) (k : R c → Prog R α)

/-- What each command answers and does to a state `σ`, given a choice `χ` made outside the
program. -/
abbrev Machine {C : Type} (R : C → Type) (χ σ : Type) := (c : C) → χ → σ → R c × σ

namespace Prog

variable {C D : Type} {R : C → Type} {S : D → Type} {α β γ χ σ : Type}

/-- Sequential composition. -/
def bind : Prog R α → (α → Prog R β) → Prog R β
  | .ret a, f => f a
  | .call c k, f => .call c fun r => (k r).bind f

instance : Monad (Prog R) where
  pure := .ret
  bind := bind

/-- The program that issues one command and returns its answer. -/
def issue (c : C) : Prog R (R c) := .call c .ret

@[simp] theorem ret_bind (a : α) (f : α → Prog R β) : (ret a : Prog R α).bind f = f a := rfl

@[simp] theorem call_bind (c : C) (k : R c → Prog R α) (f : α → Prog R β) :
    (call c k).bind f = call c fun r => (k r).bind f := rfl

@[simp] theorem pure_eq (a : α) : (pure a : Prog R α) = ret a := rfl

@[simp] theorem bind_eq (p : Prog R α) (f : α → Prog R β) : p >>= f = p.bind f := rfl

/-- Returning the result of a program is the program. -/
theorem bind_ret (p : Prog R α) : p.bind ret = p := by
  induction p with
  | ret a => rfl
  | call c k ih =>
    rw [call_bind]
    congr 1
    funext r
    exact ih r

/-- Composition is associative. -/
theorem bind_assoc (p : Prog R α) (f : α → Prog R β) (g : β → Prog R γ) :
    (p.bind f).bind g = p.bind fun a => (f a).bind g := by
  induction p with
  | ret a => rfl
  | call c k ih =>
    rw [call_bind, call_bind, call_bind]
    congr 1
    funext r
    exact ih r

instance : LawfulMonad (Prog R) :=
  LawfulMonad.mk' (Prog R) bind_ret (fun _ _ => rfl) bind_assoc

/-! ## Running a program to its end -/

/-- The result and the final state of a program whose `n`-th command meets the choice `f n`. -/
def eval (m : Machine R χ σ) : Prog R α → (ℕ → χ) → σ → α × σ
  | .ret a, _, s => (a, s)
  | .call c k, f, s => eval m (k (m c (f 0) s).1) (fun n => f (n + 1)) (m c (f 0) s).2

@[simp] theorem eval_ret (m : Machine R χ σ) (a : α) (f : ℕ → χ) (s : σ) :
    (ret a : Prog R α).eval m f s = (a, s) := rfl

@[simp] theorem eval_call (m : Machine R χ σ) (c : C) (k : R c → Prog R α) (f : ℕ → χ) (s : σ) :
    (call c k).eval m f s = (k (m c (f 0) s).1).eval m (fun n => f (n + 1)) (m c (f 0) s).2 := rfl

/-- With the same choice at every command, a composition runs its parts in turn. -/
theorem eval_bind_const (m : Machine R χ σ) (p : Prog R α) (g : α → Prog R β) (x : χ) (s : σ) :
    (p.bind g).eval m (fun _ => x) s =
      (g (p.eval m (fun _ => x) s).1).eval m (fun _ => x) (p.eval m (fun _ => x) s).2 := by
  induction p generalizing s with
  | ret a => rfl
  | call c k ih => exact ih _ _

/-- The same choice at every command is a machine without choices. -/
theorem eval_const (m : Machine R χ σ) (p : Prog R α) (x : χ) (s : σ) :
    p.eval m (fun _ => x) s = p.eval (fun c (_ : Unit) => m c x) (fun _ => ()) s := by
  induction p generalizing s with
  | ret a => rfl
  | call c k ih => exact ih _ _

/-- The state after the first `n` commands, or the final state where the program issues fewer. -/
def after (m : Machine R χ σ) : Prog R α → (ℕ → χ) → ℕ → σ → σ
  | .ret _, _, _, s => s
  | .call _ _, _, 0, s => s
  | .call c k, f, n + 1, s =>
    after m (k (m c (f 0) s).1) (fun i => f (i + 1)) n (m c (f 0) s).2

@[simp] theorem after_ret (m : Machine R χ σ) (a : α) (f : ℕ → χ) (n : ℕ) (s : σ) :
    (ret a : Prog R α).after m f n s = s := by
  cases n <;> rfl

@[simp] theorem after_zero (m : Machine R χ σ) (p : Prog R α) (f : ℕ → χ) (s : σ) :
    p.after m f 0 s = s := by
  cases p <;> rfl

@[simp] theorem after_call (m : Machine R χ σ) (c : C) (k : R c → Prog R α) (f : ℕ → χ) (n : ℕ)
    (s : σ) : (call c k).after m f (n + 1) s =
      (k (m c (f 0) s).1).after m (fun i => f (i + 1)) n (m c (f 0) s).2 := rfl

/-! ## Translating commands -/

/-- Replace every command by a program over other commands. -/
def interp (t : (c : C) → Prog S (R c)) : Prog R α → Prog S α
  | .ret a => .ret a
  | .call c k => (t c).bind fun r => (k r).interp t

@[simp] theorem interp_ret (t : (c : C) → Prog S (R c)) (a : α) :
    (ret a : Prog R α).interp t = ret a := rfl

@[simp] theorem interp_call (t : (c : C) → Prog S (R c)) (c : C) (k : R c → Prog R α) :
    (call c k).interp t = (t c).bind fun r => (k r).interp t := rfl

/-- Where every command is answered by its translation, a translated program returns what the
program returns. -/
theorem eval_interp {τ ψ : Type} {m : Machine R χ σ} {n : Machine S ψ τ} (rel : τ → σ → Prop)
    {t : (c : C) → Prog S (R c)} {x : χ} {y : ψ}
    (hsim : ∀ c d s, rel d s → ((t c).eval n (fun _ => y) d).1 = (m c x s).1 ∧
      rel ((t c).eval n (fun _ => y) d).2 (m c x s).2)
    (p : Prog R α) {d : τ} {s : σ} (hrel : rel d s) :
    ((p.interp t).eval n (fun _ => y) d).1 = (p.eval m (fun _ => x) s).1 ∧
      rel ((p.interp t).eval n (fun _ => y) d).2 (p.eval m (fun _ => x) s).2 := by
  induction p generalizing d s with
  | ret a => exact ⟨rfl, hrel⟩
  | call c k ih =>
    -- The translation of the first command answers as it does, so both programs go on alike.
    obtain ⟨hanswer, hrel⟩ := hsim c d s hrel
    rw [interp_call, eval_bind_const, eval_call, ← hanswer]
    exact ih _ hrel

/-! ## The commands of a program -/

/-- The commands that a program issues in a run, in order. -/
def commands (m : Machine R χ σ) : Prog R α → (ℕ → χ) → σ → List C
  | .ret _, _, _ => []
  | .call c k, f, s => c :: commands m (k (m c (f 0) s).1) (fun n => f (n + 1)) (m c (f 0) s).2

@[simp] theorem commands_ret (m : Machine R χ σ) (a : α) (f : ℕ → χ) (s : σ) :
    (ret a : Prog R α).commands m f s = [] := rfl

@[simp] theorem commands_call (m : Machine R χ σ) (c : C) (k : R c → Prog R α) (f : ℕ → χ) (s : σ) :
    (call c k).commands m f s =
      c :: (k (m c (f 0) s).1).commands m (fun n => f (n + 1)) (m c (f 0) s).2 := rfl

/-- Every command that the program can issue, whatever it is answered, satisfies `P`. -/
def Issues (P : C → Prop) : Prog R α → Prop
  | .ret _ => True
  | .call c k => P c ∧ ∀ r, (k r).Issues P

theorem Issues.bind {P : C → Prop} {p : Prog R α} {f : α → Prog R β} (hp : p.Issues P)
    (hf : ∀ a, (f a).Issues P) : (p.bind f).Issues P := by
  induction p with
  | ret a => exact hf a
  | call c k ih => exact ⟨hp.1, fun r => ih r (hp.2 r)⟩

/-- A translated program issues the commands of the translations. -/
theorem issues_interp {P : D → Prop} {t : (c : C) → Prog S (R c)} (ht : ∀ c, (t c).Issues P)
    (p : Prog R α) : (p.interp t).Issues P := by
  induction p with
  | ret a => trivial
  | call c k ih => exact (ht c).bind ih

end Prog

end RockchipDra.Effect
