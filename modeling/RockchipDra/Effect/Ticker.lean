import RockchipDra.Effect.Run

/-!
# Loops that a ticker wakes up

A loop waits on the channel of a ticker and perhaps on others, and does an iteration of work each
time it stops waiting. The ticker sends at fixed times, whether the loop waits or not. Its channel
holds one tick, and ticks for a full channel are dropped.

Time enters as a parameter, `Ticker.next` is what the ticker and the loop may do at a time, and
`Ticker.Prompt` says that none of them is late: the work of an iteration, the ticker, and the end of
the wait for a tick that was sent. If so, then the loop begins its iterations at most `Ticker.gap`
apart, whatever else wakes it up (`Ticker.Steady.le_gap`).
-/

namespace RockchipDra.Effect

/-- A ticker and the loop that waits on it. -/
structure Ticker where
  /-- When the next tick is due. -/
  due : ℕ := 0
  /-- When the tick in the channel was sent. -/
  tick : Option ℕ := none
  /-- When the loop began its last iteration. -/
  woken : ℕ := 0
  /-- Since when the loop waits. -/
  waiting : Option ℕ := none
  deriving DecidableEq

namespace Ticker

/-- What the ticker and the loop do. -/
inductive Action where
  /-- Nothing that matters. -/
  | idle
  /-- The ticker is made, and the loop begins with an iteration or waits. -/
  | start (waits : Bool)
  /-- The ticker sends. -/
  | fire
  /-- The loop takes the tick. -/
  | receive
  /-- The loop stops waiting without a tick. -/
  | wake
  /-- The loop ends its iteration. -/
  | rest
  deriving DecidableEq

/-- The ticker and the loop after an action at a time, if the action is possible. -/
def next (period now : ℕ) (t : Ticker) : Action → Option Ticker
  | .idle => some t
  | .start waits => some
      { due := now + period, woken := now, waiting := if waits then some now else none }
  -- A tick for a full channel is dropped, and a ticker that is late by periods leaves them out.
  | .fire =>
    if t.due ≤ now then
      some { t with
        tick := t.tick.or (some now)
        due := t.due + period * (1 + (now - t.due) / period) }
    else none
  | .receive =>
    if t.tick.isSome ∧ t.waiting.isSome then
      some { t with tick := none, woken := now, waiting := none }
    else none
  | .wake => if t.waiting.isSome then some { t with woken := now, waiting := none } else none
  | .rest => if t.waiting.isNone then some { t with waiting := some now } else none

/-- Nothing is late at a time: an iteration takes at most `work`, the ticker sends at most `late`
after a tick is due, and a loop that waits takes a tick at most `delay` after both are there. -/
structure Prompt (work late delay now : ℕ) (t : Ticker) : Prop where
  working : t.waiting = none → now ≤ t.woken + work
  firing : t.tick = none → now ≤ t.due + late
  waking : ∀ since ∈ t.waiting, ∀ sent ∈ t.tick, now ≤ max since sent + delay

instance (work late delay now : ℕ) (t : Ticker) : Decidable (t.Prompt work late delay now) :=
  decidable_of_iff ((t.waiting = none → now ≤ t.woken + work) ∧
      (t.tick = none → now ≤ t.due + late) ∧
      ∀ since ∈ t.waiting, ∀ sent ∈ t.tick, now ≤ max since sent + delay)
    ⟨fun h => ⟨h.1, h.2.1, h.2.2⟩, fun h => ⟨h.1, h.2, h.3⟩⟩

/-- How far apart the iterations begin if nothing is late. -/
def gap (period work late delay : ℕ) : ℕ := max work (period + late) + delay

/-- The next tick comes at most a period after the beginning of the last iteration, or is already
there. -/
structure Steady (period work late now : ℕ) (t : Ticker) : Prop where
  woken : t.woken ≤ now
  due : t.due ≤ now + period
  empty : t.tick = none → t.due ≤ t.woken + period
  sent : ∀ sent ∈ t.tick, sent ≤ t.woken + period + late
  since : ∀ since ∈ t.waiting, since ≤ t.woken + work

variable {period work late delay now : ℕ} {t u : Ticker} {a : Action}

/-- A tick leaves the loop where it is. -/
theorem next_fire (h : t.next period now .fire = some u) :
    u.woken = t.woken ∧ u.waiting = t.waiting := by
  simp only [Ticker.next, Option.ite_none_right_eq_some, Option.some.injEq] at h
  obtain ⟨-, rfl⟩ := h
  exact ⟨rfl, rfl⟩

/-- A loop that stops waiting begins an iteration. -/
theorem next_wake (ha : a = .wake ∨ a = .receive) (h : t.next period now a = some u) :
    u.woken = now ∧ u.waiting = none := by
  rcases ha with rfl | rfl <;>
  · simp only [Ticker.next, Option.ite_none_right_eq_some, Option.some.injEq] at h
    obtain ⟨-, rfl⟩ := h
    exact ⟨rfl, rfl⟩

/-- A loop that ends its iteration waits. -/
theorem next_rest (h : t.next period now .rest = some u) :
    u.woken = t.woken ∧ u.waiting = some now := by
  simp only [Ticker.next, Option.ite_none_right_eq_some, Option.some.injEq] at h
  obtain ⟨-, rfl⟩ := h
  exact ⟨rfl, rfl⟩

/-- Time passes. -/
theorem Steady.mono {later : ℕ} (ht : t.Steady period work late now) (h : now ≤ later) :
    t.Steady period work late later := by
  have hwoken := ht.woken
  have hdue := ht.due
  exact ⟨by omega, by omega, ht.empty, ht.sent, ht.since⟩

/-- A new ticker. -/
theorem steady_start {waits : Bool} (h : t.next period now (.start waits) = some u) :
    u.Steady period work late now := by
  obtain rfl := Option.some.inj h
  refine ⟨le_rfl, le_rfl, fun _ => le_rfl, by simp, ?_⟩
  intro since hsince
  dsimp only at hsince ⊢
  split_ifs at hsince
  · obtain rfl := Option.some.inj hsince
    omega
  · cases hsince

/-- Every action keeps the ticks and the iterations in step. -/
theorem Steady.next (ht : t.Steady period work late now) (hprompt : t.Prompt work late delay now)
    (h : t.next period now a = some u) : u.Steady period work late now := by
  cases a with
  | idle => exact Option.some.inj h ▸ ht
  | start waits => exact steady_start h
  | fire =>
    simp only [Ticker.next, Option.ite_none_right_eq_some, Option.some.injEq] at h
    obtain ⟨hdue, rfl⟩ := h
    have hmissed : period * ((now - t.due) / period) ≤ now - t.due := Nat.mul_div_le _ _
    refine ⟨ht.woken, ?_, ?_, ?_, ht.since⟩
    · dsimp only
      rw [Nat.mul_add, Nat.mul_one]
      omega
    · intro hempty
      cases htick : t.tick <;> simp [htick] at hempty
    · intro sent hsent
      -- A tick is new only if the channel was empty.
      cases htick : t.tick with
      | none =>
        simp only [htick, Option.none_or, Option.mem_some_iff] at hsent
        have hfiring := hprompt.firing htick
        have hempty := ht.empty htick
        dsimp only
        omega
      | some sent' =>
        simp only [htick, Option.some_or, Option.mem_some_iff] at hsent
        exact hsent ▸ ht.sent sent' htick
  | receive =>
    simp only [Ticker.next, Option.ite_none_right_eq_some, Option.some.injEq] at h
    obtain ⟨-, rfl⟩ := h
    exact ⟨le_rfl, ht.due, fun _ => ht.due, by simp, by simp⟩
  | wake =>
    simp only [Ticker.next, Option.ite_none_right_eq_some, Option.some.injEq] at h
    obtain ⟨-, rfl⟩ := h
    have hwoken := ht.woken
    refine ⟨le_rfl, ht.due, fun _ => ht.due, fun sent hsent => ?_, by simp⟩
    have hle := ht.sent sent hsent
    dsimp only
    omega
  | rest =>
    simp only [Ticker.next, Option.ite_none_right_eq_some, Option.some.injEq] at h
    obtain ⟨hworking, rfl⟩ := h
    refine ⟨ht.woken, ht.due, ht.empty, ht.sent, fun since hsince => ?_⟩
    obtain rfl := Option.some.inj hsince
    exact hprompt.working (Option.isNone_iff_eq_none.mp hworking)

/-- The last iteration began at most `gap` ago. -/
theorem Steady.le_gap (ht : t.Steady period work late now)
    (hprompt : t.Prompt work late delay now) : now ≤ t.woken + gap period work late delay := by
  unfold gap
  cases hwaiting : t.waiting with
  | none =>
    have hworking := hprompt.working hwaiting
    omega
  | some since =>
    have hsince := ht.since since hwaiting
    cases htick : t.tick with
    | none =>
      have hfiring := hprompt.firing htick
      have hempty := ht.empty htick
      omega
    | some sent =>
      have hsent := ht.sent sent htick
      have hwaking := hprompt.waking since hwaiting sent htick
      omega

end Ticker

end RockchipDra.Effect
