import RockchipDra.Shell.Pattern

/-!
# The release level of a commit

`classify_message` of `hack/next-release-version.sh`: a commit is a major, a minor, or a patch
release, or none, by its subject and its breaking markers. `Conventional` and `Breaking` say in
words of their own what a conventional subject and a breaking commit are.

`ranked_classifyMessage` gives the level of every message. A breaking line counts only below a
conventional subject: the test of the subject comes last and hides it otherwise.
-/

namespace RockchipDra.Release

open Shell

/-- A release level. -/
inductive Level where
  | none
  | patch
  | minor
  | major
  deriving DecidableEq

/-- The word for a level. -/
def Level.text : Level → Text
  | .none => "none".toList
  | .patch => "patch".toList
  | .minor => "minor".toList
  | .major => "major".toList

/-- `rank`. -/
def rank : Level → ℕ
  | .none => 0
  | .patch => 1
  | .minor => 2
  | .major => 3

/-- `higher`. -/
def higher (a b : Level) : Level := if rank a ≥ rank b then a else b

theorem rank_injective : Function.Injective rank := by
  intro a b
  cases a <;> cases b <;> decide

theorem rank_higher (a b : Level) : rank (higher a b) = max (rank a) (rank b) := by
  unfold higher
  split_ifs <;> omega

/-- The types of conventional commits. -/
inductive CommitType where
  | feat
  | fix
  | perf
  | revert
  | docs
  | chore
  | ci
  | test
  | refactor
  | style
  deriving DecidableEq

/-- The word for a type. -/
def CommitType.text : CommitType → Text
  | .feat => "feat".toList
  | .fix => "fix".toList
  | .perf => "perf".toList
  | .revert => "revert".toList
  | .docs => "docs".toList
  | .chore => "chore".toList
  | .ci => "ci".toList
  | .test => "test".toList
  | .refactor => "refactor".toList
  | .style => "style".toList

/-- All types, in the order of the expression. -/
def CommitType.all : List CommitType :=
  [.feat, .fix, .perf, .revert, .docs, .chore, .ci, .test, .refactor, .style]

theorem CommitType.mem_all (ty : CommitType) : ty ∈ CommitType.all := by
  cases ty <;> decide

/-- No type is the start of another one. -/
theorem CommitType.eq_of_text_start {a b : CommitType} (h : a.text <+: b.text) : a = b := by
  revert h
  cases a <;> cases b <;> decide

/-! ## Patterns -/

/-- `conventional_re`, with its first group matching a type and its third one an exclamation mark or
nothing. -/
def conventionalRe (sh : Env) (ty : CommitType) (bang : Bool) : Pattern :=
  .seq (.lit ty.text)
    (.seq (.opt (.seq (.lit ['(']) (.seq (.many fun c => c ≠ ')') (.lit [')']))))
      (.seq (.lit (if bang then ['!'] else [])) (.seq (.lit [':']) (.many sh.space))))

/-- `[[ $subject =~ $conventional_re ]]`: the first group, and whether the third one is there. There
is at most one way to match (`Conventional.unique`). -/
def conventional (sh : Env) (subject : Text) : Option (CommitType × Bool) :=
  (CommitType.all.flatMap fun ty => [(ty, false), (ty, true)]).find? fun g =>
    (conventionalRe sh g.1 g.2).starts subject

/-- The expression of a breaking line. -/
def breakingRe : Pattern :=
  .seq (.lit "BREAKING".toList) (.seq (.one fun c => c = '-' ∨ c = ' ') (.lit "CHANGE:".toList))

/-- The expression of a breaking line as it is given to `grep`. -/
def breakingPattern : Text := "^BREAKING[- ]CHANGE:".toList

/-- The subject of a message: its first line. -/
def subject (msg : Text) : Text := (lines msg).headD []

/-- The level of a type without a breaking marker. -/
def CommitType.level : CommitType → Level
  | .feat => .minor
  | .fix | .perf | .revert => .patch
  | _ => .none

/-- `classify_message`. -/
def classifyMessage (sh : Env) (msg : Text) : Level :=
  let breaking := grepQ sh breakingPattern breakingRe.starts msg
  match conventional sh (subject msg) with
  | none => .none
  | some (type, bang) =>
    if breaking || bang then .major else type.level

/-! ## What a message says -/

/-- A conventional subject: a type, a scope in parentheses or none, an exclamation mark or none, a
colon, and white space before the description. -/
def Conventional (sh : Env) (type : CommitType) (bang : Bool) (t : Text) : Prop :=
  ∃ (scope : Text) (blank : Char) (rest : Text),
    (scope = [] ∨ ∃ s, s ≠ [] ∧ ')' ∉ s ∧ scope = '(' :: (s ++ [')'])) ∧ sh.space blank = true ∧
    t = type.text ++ (scope ++ ((if bang then ['!'] else []) ++ ':' :: blank :: rest))

/-- A line that announces a breaking change. -/
def BreakingLine (l : Text) : Prop :=
  "BREAKING CHANGE:".toList <+: l ∨ "BREAKING-CHANGE:".toList <+: l

/-- A message with a breaking marker: an exclamation mark before the colon of its conventional
subject, or a line that announces a breaking change. -/
def Breaking (sh : Env) (msg : Text) : Prop :=
  (∃ l ∈ lines msg, BreakingLine l) ∨ ∃ type, Conventional sh type true (subject msg)

/-- A message with a conventional subject of a type. -/
def HasType (sh : Env) (type : CommitType) (msg : Text) : Prop :=
  ∃ bang, Conventional sh type bang (subject msg)

/-- A breaking message with a conventional subject. -/
def ConventionalBreaking (sh : Env) (msg : Text) : Prop :=
  Breaking sh msg ∧ ∃ type, HasType sh type msg

/-- The expression matches the conventional subjects. -/
theorem conventionalRe_starts (sh : Env) (type : CommitType) (bang : Bool) (t : Text) :
    (conventionalRe sh type bang).starts t = true ↔ Conventional sh type bang t := by
  rw [Pattern.starts_iff]
  constructor
  · rintro ⟨_, r, ⟨_, _, rfl, ⟨scope, _, hscope, ⟨_, _, rfl, ⟨_, s, rfl, ⟨hne, hs⟩, rfl⟩, rfl⟩,
      rfl⟩, rfl⟩, rfl⟩
    obtain ⟨blank, s, rfl⟩ := List.exists_cons_of_ne_nil hne
    refine ⟨scope, blank, s ++ r, ?_, hs blank List.mem_cons_self, ?_⟩
    · rcases hscope with rfl | ⟨_, _, rfl, ⟨s', _, ⟨hne', hs'⟩, rfl, rfl⟩, rfl⟩
      · exact .inl rfl
      · exact .inr ⟨s', hne', fun h => by simpa using hs' ')' h, rfl⟩
    · simp only [List.append_assoc, List.cons_append, List.nil_append]
  · rintro ⟨scope, blank, rest, hscope, hblank, rfl⟩
    refine ⟨_, rest, ⟨_, _, rfl, ⟨scope, _, ?_, ⟨_, _, rfl, ⟨_, [blank], rfl, ⟨by simp, ?_⟩, rfl⟩,
      rfl⟩, rfl⟩, rfl⟩, ?_⟩
    · rcases hscope with rfl | ⟨s, hne, hs, rfl⟩
      · exact .inl rfl
      · refine .inr ⟨_, _, rfl, ⟨s, _, ⟨hne, fun c hc => ?_⟩, rfl, rfl⟩, rfl⟩
        rw [decide_eq_true_eq]
        rintro rfl
        exact hs hc
    · simpa using hblank
    · simp only [List.append_assoc, List.cons_append, List.nil_append]

/-- What can follow the type in a conventional subject: a scope or none before an exclamation mark
or a colon. The two readings of one text agree on the exclamation mark. -/
theorem scope_unique {scope scope' : Text} {bang bang' : Bool} {r r' : Text}
    (h : scope = [] ∨ ∃ s, s ≠ [] ∧ ')' ∉ s ∧ scope = '(' :: (s ++ [')']))
    (h' : scope' = [] ∨ ∃ s, s ≠ [] ∧ ')' ∉ s ∧ scope' = '(' :: (s ++ [')']))
    (heq : scope ++ ((if bang then ['!'] else []) ++ ':' :: r) =
      scope' ++ ((if bang' then ['!'] else []) ++ ':' :: r')) : bang = bang' := by
  -- After equal scopes the next character tells the two apart.
  have hbang : ∀ {r r' : Text}, (if bang then ['!'] else []) ++ ':' :: r =
      (if bang' then ['!'] else []) ++ ':' :: r' → bang = bang' := by
    intro r r' hr
    cases bang <;> cases bang' <;> simp at hr ⊢
  have hparen : ∀ (b : Bool) (r s : Text), (if b then ['!'] else []) ++ ':' :: r ≠ '(' :: s := by
    intro b r s hr
    cases b <;> simp at hr
  rcases h with rfl | ⟨s, -, hs, rfl⟩
  · rcases h' with rfl | ⟨s', -, -, rfl⟩
    · exact hbang heq
    · exact absurd heq (hparen bang r _)
  · rcases h' with rfl | ⟨s', -, hs', rfl⟩
    · exact absurd heq.symm (hparen bang' r' _)
    · -- Both scopes end at the first closing parenthesis.
      simp only [List.cons_append, List.append_assoc, List.nil_append, List.cons.injEq, true_and]
        at heq
      have htake : ∀ (u v : Text), ')' ∉ u → (u ++ ')' :: v).dropWhile (· ≠ ')') = ')' :: v := by
        intro u v hu
        rw [List.dropWhile_append_of_pos fun c hc => by
          rw [decide_eq_true_eq]; rintro rfl; exact hu hc]
        simp
      have hrest := congrArg (List.dropWhile (· ≠ ')')) heq
      rw [htake s _ hs, htake s' _ hs'] at hrest
      exact hbang (List.cons.inj hrest).2

/-- A text is a conventional subject in at most one way. -/
theorem Conventional.unique {sh : Env} {a b : CommitType} {bang bang' : Bool} {t : Text}
    (h : Conventional sh a bang t) (h' : Conventional sh b bang' t) : a = b ∧ bang = bang' := by
  obtain ⟨scope, blank, rest, hscope, -, rfl⟩ := h
  obtain ⟨scope', blank', rest', hscope', -, heq⟩ := h'
  have hab : a = b := by
    have ha : a.text <+: b.text ++ _ := ⟨_, heq⟩
    rcases List.prefix_or_prefix_of_prefix ha (List.prefix_append _ _) with hp | hp
    · exact CommitType.eq_of_text_start hp
    · exact (CommitType.eq_of_text_start hp).symm
  subst hab
  exact ⟨rfl, scope_unique hscope hscope' (List.append_cancel_left heq)⟩

/-- The groups of a match are those of the conventional subject. -/
theorem conventional_eq_some {sh : Env} {t : Text} {type : CommitType} {bang : Bool} :
    conventional sh t = some (type, bang) ↔ Conventional sh type bang t := by
  have hsound : ∀ g, conventional sh t = some g → Conventional sh g.1 g.2 t := by
    intro g hg
    unfold conventional at hg
    have hstarts := List.find?_some hg
    exact (conventionalRe_starts sh g.1 g.2 t).mp hstarts
  constructor
  · exact hsound (type, bang)
  · intro h
    have hsome : (conventional sh t).isSome := by
      unfold conventional
      rw [List.find?_isSome]
      refine ⟨(type, bang), ?_, (conventionalRe_starts sh type bang t).mpr h⟩
      rw [List.mem_flatMap]
      exact ⟨type, type.mem_all, by cases bang <;> simp⟩
    obtain ⟨⟨type', bang'⟩, hg⟩ := Option.isSome_iff_exists.mp hsome
    obtain ⟨rfl, rfl⟩ := h.unique (hsound _ hg)
    exact hg

/-- The expression of breaking lines. -/
theorem breakingRe_starts (l : Text) : breakingRe.starts l = true ↔ BreakingLine l := by
  rw [Pattern.starts_iff]
  constructor
  · rintro ⟨_, r, ⟨_, _, rfl, ⟨_, _, ⟨c, hc, rfl⟩, rfl, rfl⟩, rfl⟩, rfl⟩
    rw [decide_eq_true_eq] at hc
    rcases hc with rfl | rfl
    · exact .inr (List.prefix_append _ _)
    · exact .inl (List.prefix_append _ _)
  · rintro (⟨r, rfl⟩ | ⟨r, rfl⟩)
    · exact ⟨_, r, ⟨_, _, rfl, ⟨_, _, ⟨' ', by decide, rfl⟩, rfl, rfl⟩, rfl⟩, rfl⟩
    · exact ⟨_, r, ⟨_, _, rfl, ⟨_, _, ⟨'-', by decide, rfl⟩, rfl, rfl⟩, rfl⟩, rfl⟩

/-! ## The level of a message

A message is taken with the line breaks at its end or without them: neither its subject nor its
breaking lines change.
-/

theorem subject_trim (msg : Text) : subject (trim msg) = subject msg := by
  unfold subject
  rw [lines_trim]
  cases lines msg <;> rfl

theorem breakingLine_ne_nil {l : Text} (h : BreakingLine l) : l ≠ [] := by
  rintro rfl
  rcases h with h | h <;> exact absurd (List.prefix_nil.mp h) (by decide)

theorem breaking_trim {sh : Env} {msg : Text} : Breaking sh (trim msg) ↔ Breaking sh msg := by
  unfold Breaking
  rw [subject_trim, lines_trim]
  refine or_congr_left (exists_congr fun l => and_congr_left fun hl => ?_)
  exact mem_trimLines_of_ne (breakingLine_ne_nil hl)

theorem hasType_trim {sh : Env} {type : CommitType} {msg : Text} :
    HasType sh type (trim msg) ↔ HasType sh type msg := by
  unfold HasType
  rw [subject_trim]

section Classify

variable {sh : Env} {msg : Text}

/-- A message without a conventional subject publishes nothing, whatever its other lines say. -/
theorem classifyMessage_of_unconventional (h : ¬∃ type, HasType sh type msg) :
    classifyMessage sh msg = .none := by
  have hnone : conventional sh (subject msg) = none := by
    rw [Option.eq_none_iff_forall_not_mem]
    rintro ⟨type, bang⟩ hg
    exact h ⟨type, bang, conventional_eq_some.mp hg⟩
  unfold classifyMessage
  rw [hnone]

/-- A breaking message with a conventional subject is major. -/
theorem classifyMessage_of_breaking (hgrep : sh.killed breakingPattern msg = false)
    (h : ConventionalBreaking sh msg) : classifyMessage sh msg = .major := by
  obtain ⟨hbreaking, type, bang, hconv⟩ := h
  unfold classifyMessage
  rw [conventional_eq_some.mpr hconv]
  refine if_pos ?_
  rw [Bool.or_eq_true, grepQ_eq_true hgrep]
  rcases hbreaking with ⟨l, hl, hline⟩ | ⟨type', hbang⟩
  · exact .inl ⟨l, hl, (breakingRe_starts l).mpr hline⟩
  · exact .inr (hconv.unique hbang).2

/-- A message that is not breaking has the level of its type. -/
theorem classifyMessage_of_not_breaking (hgrep : sh.killed breakingPattern msg = false)
    {type : CommitType} (h : HasType sh type msg) (hbreaking : ¬Breaking sh msg) :
    classifyMessage sh msg = type.level := by
  obtain ⟨bang, hconv⟩ := h
  unfold classifyMessage
  rw [conventional_eq_some.mpr hconv]
  refine if_neg ?_
  rw [Bool.or_eq_true, grepQ_eq_true hgrep]
  rintro (⟨l, hl, hline⟩ | rfl)
  · exact hbreaking (.inl ⟨l, hl, (breakingRe_starts l).mp hline⟩)
  · exact hbreaking (.inr ⟨type, hconv⟩)

/-- A rank is the one of a message. A line that announces a breaking change counts only below a
conventional subject. -/
structure Ranked (sh : Env) (msg : Text) (n : ℕ) : Prop where
  major : 3 ≤ n ↔ ConventionalBreaking sh msg
  minor : 2 ≤ n ↔ ConventionalBreaking sh msg ∨ HasType sh .feat msg
  patch : 1 ≤ n ↔ ConventionalBreaking sh msg ∨ HasType sh .feat msg ∨ HasType sh .fix msg ∨
    HasType sh .perf msg ∨ HasType sh .revert msg

/-- The rank of every message. -/
theorem ranked_classifyMessage (hgrep : sh.killed breakingPattern msg = false) :
    Ranked sh msg (rank (classifyMessage sh msg)) := by
  by_cases hconv : ∃ type, HasType sh type msg
  · by_cases hbreaking : Breaking sh msg
    · rw [classifyMessage_of_breaking hgrep ⟨hbreaking, hconv⟩]
      constructor <;> simp [rank, ConventionalBreaking, hbreaking, hconv]
    · obtain ⟨type, htype⟩ := hconv
      have huniq : ∀ other, HasType sh other msg ↔ other = type := by
        intro other
        constructor
        · rintro ⟨bang, h⟩
          obtain ⟨bang', h'⟩ := htype
          exact (h.unique h').1
        · rintro rfl
          exact htype
      rw [classifyMessage_of_not_breaking hgrep htype hbreaking]
      constructor <;> simp only [ConventionalBreaking, hbreaking, false_and, false_or, huniq] <;>
        cases type <;> decide
  · rw [classifyMessage_of_unconventional hconv]
    have hno : ∀ type, ¬HasType sh type msg := fun type h => hconv ⟨type, h⟩
    constructor <;> simp [rank, ConventionalBreaking, hno]

theorem ranked_trim {n : ℕ} : Ranked sh (trim msg) n ↔ Ranked sh msg n := by
  constructor
  · rintro ⟨hmajor, hminor, hpatch⟩
    simp only [ConventionalBreaking, breaking_trim, hasType_trim] at hmajor hminor hpatch
    exact ⟨hmajor, hminor, hpatch⟩
  · rintro ⟨hmajor, hminor, hpatch⟩
    constructor <;> simpa only [ConventionalBreaking, breaking_trim, hasType_trim]

end Classify

end RockchipDra.Release
