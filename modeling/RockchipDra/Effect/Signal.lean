import RockchipDra.Effect.Run

/-!
# Wake-ups over a channel of capacity one

Producers make a change and then send on a channel that holds at most one token, where a send to a
full channel is dropped. One consumer waits for a token or a timeout, and reads once before it waits
again. `Signal` is all of such a system that matters for its wake-ups, and `Signal.next` is what the
parties may do.

A system that keeps to this protocol (`Signal.Drives`) loses no wake-up. A change is pending until
the consumer reads (`Signal.Drives.sometime_read`), and where nothing is pending, what was read last
is current (`Signal.Drives.current_or_pending`).
-/

namespace RockchipDra.Effect

/-- A channel of capacity one, the producers that send on it, and its consumer. -/
structure Signal where
  /-- The channel holds a token. -/
  token : Bool
  /-- The number of producers that have made a change and have not yet sent. -/
  senders : ℕ
  /-- The consumer reads before it waits again. -/
  awake : Bool
  deriving DecidableEq

namespace Signal

/-- What the parties do. -/
inductive Action where
  /-- Nothing that matters. -/
  | idle
  /-- A producer makes a change. -/
  | change
  /-- A producer that has made a change sends. -/
  | send
  /-- The consumer takes the token. -/
  | receive
  /-- The consumer stops waiting without a token. -/
  | timeout
  /-- The consumer reads. -/
  | read
  deriving DecidableEq

/-- The signal after an action, if the action is possible. -/
def next (s : Signal) : Action → Option Signal
  | .idle => some s
  | .change => some { s with senders := s.senders + 1 }
  -- A send to a full channel is dropped, which leaves the same state.
  | .send => if 0 < s.senders then some { s with token := true, senders := s.senders - 1 } else none
  | .receive => if s.token ∧ ¬s.awake then some { s with token := false, awake := true } else none
  | .timeout => if ¬s.awake then some { s with awake := true } else none
  | .read => if s.awake then some { s with awake := false } else none

/-- The consumer is going to read: it is awake, or there is or will be a token that wakes it up. -/
def Pending (s : Signal) : Prop := s.token = true ∨ 0 < s.senders ∨ s.awake = true

/-- Nothing is pending where the channel is empty, nobody is going to send, and the consumer
waits. -/
theorem not_pending {s : Signal} (htoken : s.token = false) (hsenders : s.senders = 0)
    (hawake : s.awake = false) : ¬s.Pending := by
  simp [Pending, htoken, hsenders, hawake]

/-- After any action but a read the consumer is going to read. -/
theorem pending_of_next {s t : Signal} {a : Action} (h : s.next a = some t) (hidle : a ≠ .idle)
    (hread : a ≠ .read) : t.Pending := by
  cases a with
  | idle => exact absurd rfl hidle
  | change =>
    obtain rfl := Option.some.inj h
    exact .inr (.inl s.senders.succ_pos)
  | send =>
    simp only [next, Option.ite_none_right_eq_some, Option.some.injEq] at h
    obtain ⟨-, rfl⟩ := h
    exact .inl rfl
  | receive =>
    simp only [next, Option.ite_none_right_eq_some, Option.some.injEq] at h
    obtain ⟨-, rfl⟩ := h
    exact .inr (.inr rfl)
  | timeout =>
    simp only [next, Option.ite_none_right_eq_some, Option.some.injEq] at h
    obtain ⟨-, rfl⟩ := h
    exact .inr (.inr rfl)
  | read => exact absurd rfl hread

/-- Only a read ends what is pending. -/
theorem Pending.next {s t : Signal} {a : Action} (hs : s.Pending) (h : s.next a = some t)
    (hread : a ≠ .read) : t.Pending := by
  by_cases hidle : a = .idle
  · subst hidle
    exact Option.some.inj h ▸ hs
  · exact pending_of_next h hidle hread

/-! ## Systems that keep to the protocol -/

/-- Every step of a system from a state that satisfies an invariant keeps the invariant and is an
action of a signal. -/
structure Drives {σ ε : Type} (step : σ → ε → Option σ) (inv : σ → Prop) (signal : σ → Signal)
    (action : σ → ε → Action) : Prop where
  keeps : ∀ s e t, inv s → step s e = some t → inv t
  next : ∀ s e t, inv s → step s e = some t → (signal s).next (action s e) = some (signal t)

section System

variable {σ ε : Type} {step : σ → ε → Option σ} {inv : σ → Prop} {signal : σ → Signal}
  {action : σ → ε → Action} {s t : σ} {es : List ε}

/-- A run from a state in which the consumer is going to read to one in which it is not goes through
a read. -/
theorem Drives.sometime_read (h : Drives step inv signal action) (hs : inv s)
    (hpending : (signal s).Pending) (hrun : run step s es = some t) (ht : ¬(signal t).Pending) :
    Sometime step (fun u e v es' => inv u ∧ action u e = .read ∧ run step v es' = some t) s es := by
  refine Sometime.mono ?_
    (sometime_leaves inv h.keeps (fun u => (signal u).Pending) hs hpending ht hrun)
  -- The step at which the run stops to be pending is a read.
  rintro u e v es' hstep ⟨hu, hbefore, hafter, hrest⟩
  refine ⟨hu, ?_, hrest⟩
  by_contra hread
  exact hafter (hbefore.next (h.next u e v hu hstep) hread)

/-- If a read makes the consumer current, and if it stays so while the parties are idle, then in
every state of a run it is current or going to read. -/
theorem Drives.current_or_pending (h : Drives step inv signal action) (Current : σ → Prop)
    (hread : ∀ s e t, inv s → step s e = some t → action s e = .read → Current t)
    (hidle : ∀ s e t, inv s → step s e = some t → action s e = .idle → Current s → Current t)
    (hs : inv s) (hinit : Current s ∨ (signal s).Pending) (hrun : run step s es = some t) :
    Current t ∨ (signal t).Pending := by
  refine (run_invariant (fun s => inv s ∧ (Current s ∨ (signal s).Pending)) ?_ ⟨hs, hinit⟩ hrun).2
  -- A read makes current, an idle step keeps both sides, and any other action makes pending.
  rintro s e t ⟨hs, hbefore⟩ hstep
  refine ⟨h.keeps s e t hs hstep, ?_⟩
  have hnext := h.next s e t hs hstep
  by_cases hr : action s e = .read
  · exact .inl (hread s e t hs hstep hr)
  by_cases hi : action s e = .idle
  · exact hbefore.imp (hidle s e t hs hstep hi) (fun hpending => hpending.next hnext hr)
  · exact .inr (pending_of_next hnext hi hr)

end System

end Signal

end RockchipDra.Effect
