import RockchipDra.Shell.Text

/-!
# Extended regular expressions and shell patterns

The part of the two languages that scripts with simple patterns use: texts, character classes,
repetitions of a class, and sequences, alternatives, and optional parts. `Pattern.Lang` is what a
pattern stands for, and `Pattern.rests` finds every way in which it matches the start of a text
(`Pattern.mem_rests`). A regular expression that starts with a caret and a shell pattern that ends
with a star match the start of a text, and `case`, `[[ == ]]`, and `grep -x` match all of it.
-/

namespace RockchipDra.Shell

/-- A regular expression or a shell pattern. -/
inductive Pattern where
  /-- A text. -/
  | lit (w : Text)
  /-- One character of a class. -/
  | one (p : Char → Bool)
  /-- One or more characters of a class. -/
  | many (p : Char → Bool)
  /-- One pattern after another. -/
  | seq (a b : Pattern)
  /-- One of two patterns. -/
  | alt (a b : Pattern)
  /-- A pattern that may be missing. -/
  | opt (a : Pattern)

namespace Pattern

/-- The shell pattern `*`. -/
def star : Pattern := .opt (.many fun _ => true)

/-- The texts that a pattern stands for. -/
def Lang : Pattern → Text → Prop
  | .lit w, t => t = w
  | .one p, t => ∃ c, p c = true ∧ t = [c]
  | .many p, t => t ≠ [] ∧ ∀ c ∈ t, p c = true
  | .seq a b, t => ∃ u v, a.Lang u ∧ b.Lang v ∧ t = u ++ v
  | .alt a b, t => a.Lang t ∨ b.Lang t
  | .opt a, t => t = [] ∨ a.Lang t

/-- What follows one or more characters of a class at the start of a text, for every number of
them. -/
def restsMany (p : Char → Bool) : Text → List Text
  | [] => []
  | c :: t => if p c then t :: restsMany p t else []

/-- What follows a pattern at the start of a text, for every way in which it matches. -/
def rests : Pattern → Text → List Text
  | .lit w, t => if w.isPrefixOf t then [t.drop w.length] else []
  | .one _, [] => []
  | .one p, c :: t => if p c then [t] else []
  | .many p, t => restsMany p t
  | .seq a b, t => (a.rests t).flatMap b.rests
  | .alt a b, t => a.rests t ++ b.rests t
  | .opt a, t => t :: a.rests t

/-- The pattern matches the start of a text. -/
def starts (p : Pattern) (t : Text) : Bool := !(p.rests t).isEmpty

/-- The pattern matches the whole text. -/
def full (p : Pattern) (t : Text) : Bool := decide ([] ∈ p.rests t)

theorem mem_restsMany (p : Char → Bool) (t r : Text) :
    r ∈ restsMany p t ↔ ∃ w, (Pattern.many p).Lang w ∧ t = w ++ r := by
  induction t with
  | nil =>
    refine iff_of_false (List.not_mem_nil) ?_
    rintro ⟨w, ⟨hne, -⟩, h⟩
    exact hne (List.append_eq_nil_iff.mp h.symm).1
  | cons c t ih =>
    rw [restsMany]
    constructor
    · intro h
      split_ifs at h with hc
      · rcases List.mem_cons.mp h with rfl | h
        · exact ⟨[c], ⟨List.cons_ne_nil _ _, by simpa using hc⟩, rfl⟩
        · obtain ⟨w, ⟨-, hw⟩, rfl⟩ := ih.mp h
          exact ⟨c :: w, ⟨List.cons_ne_nil _ _, List.forall_mem_cons.mpr ⟨hc, hw⟩⟩, rfl⟩
      · cases h
    · rintro ⟨w, ⟨hne, hw⟩, h⟩
      obtain ⟨d, w, rfl⟩ := List.exists_cons_of_ne_nil hne
      obtain ⟨rfl, rfl⟩ := List.cons.inj h
      obtain ⟨hc, hw⟩ := List.forall_mem_cons.mp hw
      rw [if_pos hc, List.mem_cons]
      -- Either the first character is all, or more of the class follow.
      by_cases hnil : w = []
      · exact .inl (by rw [hnil]; rfl)
      · exact .inr (ih.mpr ⟨w, ⟨hnil, hw⟩, rfl⟩)

/-- The matcher finds exactly the ways to split off a text of the language. -/
theorem mem_rests (p : Pattern) (t r : Text) : r ∈ p.rests t ↔ ∃ w, p.Lang w ∧ t = w ++ r := by
  induction p generalizing t r with
  | lit w =>
    simp only [rests, Lang]
    constructor
    · intro h
      split_ifs at h with hw
      · rw [List.mem_singleton.mp h]
        exact ⟨w, rfl, (List.prefix_iff_eq_append.mp (List.isPrefixOf_iff_prefix.mp hw)).symm⟩
      · cases h
    · rintro ⟨_, rfl, rfl⟩
      rw [if_pos (List.isPrefixOf_iff_prefix.mpr (List.prefix_append _ _)), List.drop_left]
      exact List.mem_singleton_self r
  | one p =>
    cases t with
    | nil =>
      refine iff_of_false (List.not_mem_nil) ?_
      rintro ⟨_, ⟨c, -, rfl⟩, h⟩
      cases h
    | cons d t =>
      simp only [rests, Lang]
      constructor
      · intro h
        split_ifs at h with hd
        · rw [List.mem_singleton.mp h]
          exact ⟨[d], ⟨d, hd, rfl⟩, rfl⟩
        · cases h
      · rintro ⟨_, ⟨c, hc, rfl⟩, h⟩
        obtain ⟨rfl, rfl⟩ := List.cons.inj h
        simp [hc]
  | many p => exact mem_restsMany p t r
  | seq a b iha ihb =>
    simp only [rests, Lang, List.mem_flatMap, iha, ihb]
    constructor
    · rintro ⟨_, ⟨u, hu, rfl⟩, v, hv, rfl⟩
      exact ⟨u ++ v, ⟨u, v, hu, hv, rfl⟩, (List.append_assoc ..).symm⟩
    · rintro ⟨_, ⟨u, v, hu, hv, rfl⟩, rfl⟩
      exact ⟨v ++ r, ⟨u, hu, List.append_assoc ..⟩, v, hv, rfl⟩
  | alt a b iha ihb =>
    simp only [rests, Lang, List.mem_append, iha, ihb, or_and_right, exists_or]
  | opt a iha =>
    simp only [rests, Lang, List.mem_cons, iha, or_and_right, exists_or]
    refine or_congr_left ?_
    simp [eq_comm]

/-- A pattern matches the start of a text that begins with a text of its language. -/
theorem starts_iff (p : Pattern) (t : Text) :
    p.starts t = true ↔ ∃ w r, p.Lang w ∧ t = w ++ r := by
  unfold starts
  rw [Bool.not_eq_true', List.isEmpty_eq_false_iff_exists_mem, exists_comm]
  exact exists_congr fun r => mem_rests p t r

/-- A pattern matches the texts of its language. -/
theorem full_iff (p : Pattern) (t : Text) : p.full t = true ↔ p.Lang t := by
  unfold full
  rw [decide_eq_true_eq, mem_rests]
  simp

/-- A star stands for every text. -/
theorem lang_star (t : Text) : star.Lang t := by
  by_cases h : t = []
  · exact .inl h
  · exact .inr ⟨h, fun _ _ => rfl⟩

/-- A text and a star match what begins with the text. -/
theorem full_lit_star (w t : Text) : (Pattern.seq (.lit w) star).full t = true ↔ w <+: t := by
  rw [full_iff]
  constructor
  · rintro ⟨_, v, rfl, -, rfl⟩
    exact List.prefix_append _ _
  · rintro ⟨v, rfl⟩
    exact ⟨w, v, rfl, lang_star v, rfl⟩

end Pattern

end RockchipDra.Shell
