import RockchipDra.Go.Strings
import RockchipDra.Release.Commits

/-!
# The version that a merge publishes

`hack/next-release-version.sh`: the highest level of the commits on the base since its latest tag
and of the commits on the head that are not on the base, and the version that follows the tag at
this level. A maintenance base publishes patches only, and a 0.x tag is not followed by 1.0.0.

`Git` is what the script asks of a repository. The two ranges are scanned one commit after another,
and a commit that was seen is not looked at again. `Scan.Covers` says what the scan knows at each
step, and `nextReleaseVersion_eq_report` that in the end only the set of the commits counts.

`announce` states what the guard is for, in terms of the level that the commits require
(`releaseLevel`). `nextReleaseVersion_announces_iff` compares the two: a breaking change below a
subject that is not conventional is missed.
-/

namespace RockchipDra.Release

open Shell

/-- The hash of a commit. -/
abbrev Hash := Text

/-- What the script asks of a repository. -/
structure Git where
  /-- The commit that a name stands for. -/
  resolve : Text → Option Hash
  /-- A commit and its ancestors. -/
  history : Hash → List Hash
  /-- `git log` for two commits, in the order in which it prints the hashes. -/
  log : Hash → Hash → List Hash
  /-- What `git log` prints on the standard error for a range that it does not know. -/
  logError : Text → Text
  /-- The commits of the second history that are not in the first one. -/
  mem_log : ∀ a b k, k ∈ log a b ↔ k ∈ history b ∧ k ∉ history a
  /-- A hash is not empty. -/
  nil_not_mem_history : ∀ k, [] ∉ history k
  /-- The message of a commit. -/
  message : Hash → Text
  /-- A message has no NUL character. -/
  nul_not_mem_message : ∀ k, '\x00' ∉ message k
  /-- `git describe --tags --abbrev=0`: the latest tag, or an error. -/
  describe : Text → Except Text Text

/-- What a script prints, and its exit status. -/
structure Output where
  /-- The standard output. -/
  stdout : Text := []
  /-- The standard error. -/
  stderr : Text := []
  /-- The exit status. -/
  status : ℕ := 0
  deriving DecidableEq

/-! ## Arguments -/

/-- `usage`. -/
def usage : Text :=
  ("Usage: next-release-version.sh --base-ref REF --base-name NAME --head-ref REF\n\n" ++
    "Prints the next version, or \"none\".\n").toList

/-- The arguments of the script. -/
structure Args where
  /-- `base_ref`. -/
  baseRef : Text := []
  /-- `base_name`. -/
  baseName : Text := []
  /-- `head_ref`. -/
  headRef : Text := []

/-- The loop over the arguments. An option without a value fails in `shift 2`. -/
def parseArgs (a : Args) : List Text → Except Output Args
  | [] => .ok a
  | option :: rest =>
    if option = "--base-ref".toList then
      match rest with
      | value :: rest => parseArgs { a with baseRef := value } rest
      | [] => .error { status := 1 }
    else if option = "--base-name".toList then
      match rest with
      | value :: rest => parseArgs { a with baseName := value } rest
      | [] => .error { status := 1 }
    else if option = "--head-ref".toList then
      match rest with
      | value :: rest => parseArgs { a with headRef := value } rest
      | [] => .error { status := 1 }
    else if option = "-h".toList ∨ option = "--help".toList then
      .error { stdout := usage }
    else
      .error { stderr := "unknown argument: ".toList ++ option ++ ['\n'] ++ usage, status := 1 }

/-! ## Versions as texts -/

/-- A number in decimal digits. -/
def decimal (n : ℕ) : Text := (toString n).toList

/-- `$((t + 1))`: the next number. What is not a number below `2^63 - 1` is left to the shell. -/
def increment (sh : Env) (t : Text) : Except Text Text :=
  let n := Nat.ofDigitChars 10 t 0
  if t = decimal n ∧ n + 1 < 2^63 then .ok (decimal (n + 1)) else sh.successor t

/-- `IFS=. read -r major minor patch`: two fields and the rest, where a dot that ends the third
field and the text is dropped. -/
def readVersion (t : Text) : Text × Text × Text :=
  let major := t.takeWhile (· ≠ '.')
  let rest := (t.dropWhile (· ≠ '.')).drop 1
  let minor := rest.takeWhile (· ≠ '.')
  let rest := (rest.dropWhile (· ≠ '.')).drop 1
  let patch := rest.takeWhile (· ≠ '.')
  (major, minor, if rest = patch ++ ['.'] then patch else rest)

/-- A digit and any text, as a shell pattern. -/
def digitStar : Pattern := .seq (.one Char.isDigit) .star

/-- `is_maintenance`. -/
def isMaintenance (name : Text) : Bool :=
  (Pattern.alt (.seq digitStar (.lit ".x".toList))
    (.alt (.seq digitStar (.seq (.lit ['.']) (.seq digitStar (.lit ".x".toList))))
      (.seq digitStar (.seq (.lit ['.']) (.seq digitStar (.seq (.lit ['.'])
        (.seq digitStar (.lit ".x".toList)))))))).full name

/-! ## The script -/

/-- The commits that were looked at, and the highest level among them. -/
structure Scan where
  /-- `seen`. -/
  seen : List Hash
  /-- `highest`. -/
  highest : Level
  /-- The standard error so far. -/
  stderr : Text := []

/-- One round of the loop of `consider_range`. -/
def considerCommit (sh : Env) (git : Git) (s : Scan) (hash : Hash) : Scan :=
  if hash = [] then s
  else if s.seen.contains hash then s
  else
    let body := capture (git.message hash)
    let level := classifyMessage sh body
    { s with seen := hash :: s.seen, highest := higher s.highest level }

/-- `consider_range`. A range with a name that stands for nothing is empty: `git log` complains, but
its failure in the process substitution is not noticed. -/
def considerRange (sh : Env) (git : Git) (s : Scan) (a b : Text) : Scan :=
  match git.resolve a, git.resolve b with
  | some ka, some kb => (git.log ka kb).foldl (considerCommit sh git) s
  | _, _ => { s with stderr := s.stderr ++ git.logError (a ++ "..".toList ++ b) }

/-- `echo` of a line with a number that is computed in it. -/
def echo (n : Except Text Text) (line : Text → Text) : Output :=
  match n with
  | .ok n => { stdout := line n ++ ['\n'] }
  | .error e => { stderr := e, status := 1 }

/-- The end of the script: the version that follows the tag, or why there is none. -/
def report (sh : Env) (baseName fromVersion : Text) (highest : Level) : Output :=
  -- The branch is refused before the tag is looked at: a maintenance branch of 0.x exits with 3.
  if isMaintenance baseName = true ∧ (highest = .minor ∨ highest = .major) then
    { stderr := "maintenance branch ".toList ++ baseName ++
        " only publishes patches; found ".toList ++ highest.text ++ ['\n'],
      status := 3 }
  else if (Pattern.seq (.lit "0.".toList) .star).full fromVersion = true ∧ highest = .major then
    { stderr := "breaking change would publish 1.0.0 from ".toList ++ fromVersion ++
        "; that tag is cut by a human\n".toList,
      status := 2 }
  else
    let (major, minor, patch) := readVersion fromVersion
    match highest with
    | .none => { stdout := "none\n".toList }
    | .major => echo (increment sh major) fun n => n ++ ".0.0".toList
    | .minor => echo (increment sh minor) fun n => major ++ ['.'] ++ n ++ ".0".toList
    | .patch => echo (increment sh patch) fun n => major ++ ['.'] ++ minor ++ ['.'] ++ n

/-- `${tag#v}`. -/
def stripV : Text → Text
  | 'v' :: t => t
  | t => t

/-- The script from the tag on. -/
def nextReleaseVersion (sh : Env) (git : Git) (baseRef baseName headRef : Text) : Output :=
  match git.describe baseRef with
  | .error e => { stderr := e, status := 128 }
  | .ok tag =>
    let fromVersion := stripV tag
    let s := considerRange sh git { seen := [], highest := .none } fromVersion baseRef
    let s := considerRange sh git s baseRef headRef
    let out := report sh baseName fromVersion s.highest
    { out with stderr := s.stderr ++ out.stderr }

/-- The script with its arguments. -/
def nextReleaseVersionMain (sh : Env) (git : Git) (args : List Text) : Output :=
  match parseArgs {} args with
  | .error out => out
  | .ok a =>
    if a.baseRef = [] ∨ a.baseName = [] ∨ a.headRef = [] then { stderr := usage, status := 1 }
    else nextReleaseVersion sh git a.baseRef a.baseName a.headRef

/-! ## What the guard is for -/

/-- A version. -/
structure Version where
  /-- The major version. -/
  major : ℕ
  /-- The minor version. -/
  minor : ℕ
  /-- The patch. -/
  patch : ℕ

namespace Version

/-- A version as a text. -/
def text (v : Version) : Text :=
  decimal v.major ++ '.' :: (decimal v.minor ++ '.' :: decimal v.patch)

/-- Versions are ordered by major version, then minor version, then patch. -/
instance : LT Version where
  lt a b := a.major < b.major ∨ a.major = b.major ∧
    (a.minor < b.minor ∨ a.minor = b.minor ∧ a.patch < b.patch)

/-- The version that follows at a level. -/
def bump (v : Version) : Level → Version
  | .major => ⟨v.major + 1, 0, 0⟩
  | .minor => ⟨v.major, v.minor + 1, 0⟩
  | .patch => ⟨v.major, v.minor, v.patch + 1⟩
  | .none => v

end Version

/-- What is to be printed, and the exit status, after a tag and for a level. -/
def announce (maintenance : Bool) (v : Version) : Level → Text × ℕ
  | .major =>
    if maintenance then ([], 3)
    else if v.major = 0 then ([], 2)
    else ((v.bump .major).text ++ ['\n'], 0)
  | .minor => if maintenance then ([], 3) else ((v.bump .minor).text ++ ['\n'], 0)
  | .patch => ((v.bump .patch).text ++ ['\n'], 0)
  | .none => ("none\n".toList, 0)

open Classical in
/-- The level that a set of messages requires, where `breaks` tells which of them break. -/
noncomputable def releaseLevel (sh : Env) (breaks : Text → Prop) (msgs : Set Text) : Level :=
  if ∃ m ∈ msgs, breaks m then .major
  else if ∃ m ∈ msgs, HasType sh .feat m then .minor
  else if ∃ m ∈ msgs, HasType sh .fix m ∨ HasType sh .perf m ∨ HasType sh .revert m then .patch
  else .none

/-- The messages of the commits that a merge of the head into the base publishes: those on the base
after the tag, and those on the head that are not on the base. -/
def Git.merged (git : Git) (tag base head : Hash) : Set Text :=
  {m | ∃ k, ((k ∈ git.history base ∧ k ∉ git.history tag) ∨
    (k ∈ git.history head ∧ k ∉ git.history base)) ∧ git.message k = m}

/-! ## The scan -/

section Scan

variable {sh : Env} {git : Git} {s : Scan}

/-- The highest level is that of the commits that were looked at. -/
def Scan.Covers (sh : Env) (git : Git) (s : Scan) : Prop :=
  ∀ n, 0 < n → (n ≤ rank s.highest ↔
    ∃ k ∈ s.seen, n ≤ rank (classifyMessage sh (capture (git.message k))))

theorem mem_seen_considerCommit {hash k : Hash} (hne : hash ≠ []) :
    k ∈ (considerCommit sh git s hash).seen ↔ k ∈ s.seen ∨ k = hash := by
  unfold considerCommit
  rw [if_neg hne]
  split_ifs with hseen
  · refine ⟨.inl, ?_⟩
    rintro (h | rfl)
    · exact h
    · exact List.contains_iff_mem.mp hseen
  · rw [List.mem_cons, or_comm]

/-- One commit keeps the highest level that of the commits that were looked at. -/
theorem Scan.Covers.considerCommit (h : s.Covers sh git) (hash : Hash) :
    (considerCommit sh git s hash).Covers sh git := by
  unfold Release.considerCommit
  split_ifs
  · exact h
  · exact h
  · intro n hn
    simp only [rank_higher, le_max_iff, List.mem_cons, or_and_right, exists_or, exists_eq_left]
    rw [h n hn, or_comm]

theorem stderr_foldl_considerCommit (l : List Hash) :
    (l.foldl (considerCommit sh git) s).stderr = s.stderr := by
  induction l generalizing s with
  | nil => rfl
  | cons hash l ih =>
    rw [List.foldl_cons, ih, considerCommit]
    split_ifs <;> rfl

/-- A range of commits: all of them are looked at, and nothing else is. -/
theorem foldl_considerCommit (l : List Hash) (hne : [] ∉ l) (h : s.Covers sh git) :
    (l.foldl (considerCommit sh git) s).Covers sh git ∧
      ∀ k, k ∈ (l.foldl (considerCommit sh git) s).seen ↔ k ∈ s.seen ∨ k ∈ l := by
  induction l generalizing s with
  | nil => exact ⟨h, fun k => by simp⟩
  | cons hash l ih =>
    obtain ⟨hhash, hl⟩ := not_or.mp (mt List.mem_cons.mpr hne)
    obtain ⟨hcovers, hseen⟩ := ih hl (h.considerCommit hash)
    refine ⟨hcovers, fun k => ?_⟩
    rw [List.foldl_cons, hseen k, mem_seen_considerCommit (Ne.symm hhash), List.mem_cons, or_assoc]

/-- A range between two names that stand for commits. -/
theorem considerRange_covers {a b : Text} {ka kb : Hash} (ha : git.resolve a = some ka)
    (hb : git.resolve b = some kb) (h : s.Covers sh git) :
    (considerRange sh git s a b).Covers sh git ∧ (considerRange sh git s a b).stderr = s.stderr ∧
      ∀ k, k ∈ (considerRange sh git s a b).seen ↔
        k ∈ s.seen ∨ (k ∈ git.history kb ∧ k ∉ git.history ka) := by
  have hne : [] ∉ git.log ka kb := fun hmem =>
    git.nil_not_mem_history kb ((git.mem_log ka kb []).mp hmem).1
  obtain ⟨hcovers, hseen⟩ := foldl_considerCommit _ hne h
  unfold considerRange
  rw [ha, hb]
  refine ⟨hcovers, stderr_foldl_considerCommit _, fun k => ?_⟩
  rw [← git.mem_log ka kb k]
  exact hseen k

/-- A level is the one that the messages require if it reaches each rank when they do. -/
theorem eq_releaseLevel {breaks : Text → Prop} {msgs : Set Text} {l : Level}
    (h3 : 3 ≤ rank l ↔ ∃ m ∈ msgs, breaks m)
    (h2 : 2 ≤ rank l ↔ ∃ m ∈ msgs, breaks m ∨ HasType sh .feat m)
    (h1 : 1 ≤ rank l ↔ ∃ m ∈ msgs, breaks m ∨ HasType sh .feat m ∨ HasType sh .fix m ∨
      HasType sh .perf m ∨ HasType sh .revert m) :
    l = releaseLevel sh breaks msgs := by
  have hmax : rank l ≤ 3 := by cases l <;> decide
  have hor : ∀ p q : Text → Prop, (∃ m ∈ msgs, p m ∨ q m) ↔
      (∃ m ∈ msgs, p m) ∨ ∃ m ∈ msgs, q m := by
    intro p q
    simp only [and_or_left, exists_or]
  rw [hor] at h2
  rw [hor, hor] at h1
  -- The test that fails bounds the rank from above, the next one that succeeds from below.
  apply rank_injective
  unfold releaseLevel
  split_ifs with hbreaking hfeat hpatch
  · exact le_antisymm hmax (h3.mpr hbreaking)
  · exact le_antisymm (Nat.lt_succ_iff.mp (not_le.mp (mt h3.mp hbreaking))) (h2.mpr (.inr hfeat))
  · refine le_antisymm (Nat.lt_succ_iff.mp (not_le.mp (mt h2.mp ?_))) (h1.mpr (.inr (.inr hpatch)))
    exact not_or.mpr ⟨hbreaking, hfeat⟩
  · refine le_antisymm (Nat.lt_succ_iff.mp (not_le.mp (mt h1.mp ?_))) (Nat.zero_le _)
    exact not_or.mpr ⟨hbreaking, not_or.mpr ⟨hfeat, hpatch⟩⟩

/-- The highest level of a scan in terms of what the messages say. -/
theorem Scan.Covers.highest_eq {msgs : Set Text} (h : s.Covers sh git)
    (hmsgs : ∀ m, m ∈ msgs ↔ ∃ k ∈ s.seen, git.message k = m)
    (hgrep : ∀ m ∈ msgs, sh.killed breakingPattern (capture m) = false) :
    s.highest = releaseLevel sh (ConventionalBreaking sh) msgs := by
  have hle : ∀ n, 0 < n → (n ≤ rank s.highest ↔
      ∃ m ∈ msgs, n ≤ rank (classifyMessage sh (capture m))) := by
    intro n hn
    rw [h n hn]
    constructor
    · rintro ⟨k, hk, hrank⟩
      exact ⟨_, (hmsgs _).mpr ⟨k, hk, rfl⟩, hrank⟩
    · rintro ⟨m, hm, hrank⟩
      obtain ⟨k, hk, rfl⟩ := (hmsgs m).mp hm
      exact ⟨k, hk, hrank⟩
  -- The captured message differs from the message in the line breaks at its end only.
  have hranked : ∀ m ∈ msgs, Ranked sh m (rank (classifyMessage sh (capture m))) := by
    intro m hm
    have hcapture : capture m = trim m := by
      obtain ⟨k, -, rfl⟩ := (hmsgs m).mp hm
      exact capture_eq_trim (git.nul_not_mem_message k)
    rw [← ranked_trim, ← hcapture]
    exact ranked_classifyMessage (hgrep m hm)
  apply eq_releaseLevel
  · rw [hle 3 (by decide)]
    exact exists_congr fun m => and_congr_right fun hm => (hranked m hm).major
  · rw [hle 2 (by decide)]
    exact exists_congr fun m => and_congr_right fun hm => (hranked m hm).minor
  · rw [hle 1 (by decide)]
    exact exists_congr fun m => and_congr_right fun hm => (hranked m hm).patch

end Scan

/-- The script looks at the set of the merged commits only: their order, and where the ranges
overlap, does not matter. -/
theorem nextReleaseVersion_eq_report {sh : Env} {git : Git} {baseRef headRef tag : Text}
    {base head from_ : Hash} (baseName : Text) (hdescribe : git.describe baseRef = .ok tag)
    (hfrom : git.resolve (stripV tag) = some from_) (hbase : git.resolve baseRef = some base)
    (hhead : git.resolve headRef = some head)
    (hgrep : ∀ m ∈ git.merged from_ base head, sh.killed breakingPattern (capture m) = false) :
    nextReleaseVersion sh git baseRef baseName headRef = report sh baseName (stripV tag)
      (releaseLevel sh (ConventionalBreaking sh) (git.merged from_ base head)) := by
  have hstart : Scan.Covers sh git { seen := [], highest := .none } := by
    intro n hn
    simp [rank, hn.ne']
  -- A commit of both ranges is seen in the first one; the set of the seen commits is the union.
  obtain ⟨hfirst, hfirstStderr, hfirstSeen⟩ := considerRange_covers hfrom hbase hstart
  obtain ⟨hboth, hbothStderr, hbothSeen⟩ := considerRange_covers hbase hhead hfirst
  unfold nextReleaseVersion
  rw [hdescribe]
  dsimp only
  rw [hbothStderr, hfirstStderr, List.nil_append]
  refine congrArg (report sh baseName (stripV tag)) (hboth.highest_eq (fun m => ?_) hgrep)
  refine exists_congr fun k => and_congr_left fun _ => ?_
  rw [hbothSeen, hfirstSeen]
  simp

/-! ## The report -/

@[simp] theorem decimal_zero : decimal 0 = ['0'] := rfl

theorem isDigit_of_mem_decimal {n : ℕ} {c : Char} (h : c ∈ decimal n) : c.isDigit = true := by
  unfold decimal at h
  rw [Nat.toString_eq_repr, Nat.toList_repr] at h
  exact Nat.isDigit_of_mem_toDigits (by decide) (by decide) h

theorem dot_not_mem_decimal (n : ℕ) : '.' ∉ decimal n :=
  fun h => absurd (isDigit_of_mem_decimal h) (by decide)

/-- The next number. -/
theorem increment_decimal (sh : Env) {n : ℕ} (hn : n + 1 < 2^63) :
    increment sh (decimal n) = .ok (decimal (n + 1)) := by
  have hvalue : Nat.ofDigitChars 10 (decimal n) 0 = n := by
    unfold decimal
    rw [Nat.toString_eq_repr, Nat.toList_repr, Nat.ofDigitChars_ten_toDigits]
  unfold increment
  rw [hvalue]
  exact if_pos ⟨rfl, hn⟩

/-- A field ends at the first dot. -/
theorem takeWhile_field {t : Text} (h : '.' ∉ t) (r : Text) :
    (t ++ '.' :: r).takeWhile (· ≠ '.') = t ∧
      ((t ++ '.' :: r).dropWhile (· ≠ '.')).drop 1 = r := by
  have hall : ∀ c ∈ t, decide (c ≠ '.') = true := by
    intro c hc
    rw [decide_eq_true_eq]
    rintro rfl
    exact h hc
  rw [List.takeWhile_append_of_pos hall, List.dropWhile_append_of_pos hall]
  simp

/-- The fields of a version are read back. -/
theorem readVersion_text (v : Version) :
    readVersion v.text = (decimal v.major, decimal v.minor, decimal v.patch) := by
  obtain ⟨hmajor, hrest⟩ := takeWhile_field (dot_not_mem_decimal v.major)
    (decimal v.minor ++ '.' :: decimal v.patch)
  obtain ⟨hminor, hrest'⟩ := takeWhile_field (dot_not_mem_decimal v.minor) (decimal v.patch)
  unfold readVersion Version.text
  simp only [hmajor, hrest, hminor, hrest', Prod.mk.injEq, true_and]
  -- No dot follows the third field.
  refine if_neg fun h => dot_not_mem_decimal v.patch ?_
  rw [h]
  exact List.mem_append_right _ (List.mem_singleton_self '.')

/-- A dot ends a number. -/
theorem not_isDigit_dot (t : Text) : ∀ c ∈ ('.' :: t).head?, ¬c.isDigit := by
  intro c hc
  cases hc
  decide

/-- A version is read off its text. -/
theorem Version.text_injective : Function.Injective Version.text := by
  intro v w h
  unfold Version.text at h
  obtain ⟨hmajor, h⟩ := Go.Strings.decimal_append_inj (not_isDigit_dot _) (not_isDigit_dot _) h
  obtain ⟨hminor, h⟩ := Go.Strings.decimal_append_inj (not_isDigit_dot _) (not_isDigit_dot _)
    (List.cons.inj h).2
  have hpatch : v.patch = w.patch := by
    have hdigits : decimal v.patch ++ [] = decimal w.patch ++ [] := by
      rw [(List.cons.inj h).2]
    exact (Go.Strings.decimal_append_inj (by simp) (by simp) hdigits).1
  cases v
  cases w
  simp_all

/-- The test for a 0.x version. -/
theorem full_zero_iff (v : Version) :
    (Pattern.seq (.lit "0.".toList) .star).full v.text = true ↔ v.major = 0 := by
  rw [Pattern.full_lit_star]
  constructor
  · rintro ⟨r, h⟩
    have hdigits : decimal 0 ++ '.' :: r = v.text := h
    exact (Go.Strings.decimal_append_inj (not_isDigit_dot _) (not_isDigit_dot _) hdigits).1.symm
  · intro h
    unfold Version.text
    rw [h]
    exact ⟨_, rfl⟩

/-- The end of the script announces what is to be announced for the level that was found. -/
theorem report_eq_announce (sh : Env) (baseName : Text) {v : Version} (hmajor : v.major + 1 < 2^63)
    (hminor : v.minor + 1 < 2^63) (hpatch : v.patch + 1 < 2^63) (l : Level) :
    ((report sh baseName v.text l).stdout, (report sh baseName v.text l).status) =
      announce (isMaintenance baseName) v l := by
  unfold report
  simp only [readVersion_text, full_zero_iff]
  cases l with
  | none => simp [announce]
  | patch => simp [announce, increment_decimal sh hpatch, echo, Version.bump, Version.text]
  | minor =>
    cases isMaintenance baseName with
    | false => simp [announce, increment_decimal sh hminor, echo, Version.bump, Version.text]
    | true => simp [announce]
  | major =>
    cases isMaintenance baseName with
    | false =>
      by_cases hzero : v.major = 0
      · simp [announce, hzero]
      · simp [announce, hzero, increment_decimal sh hmajor, echo, Version.bump, Version.text]
    | true => simp [announce]

theorem Version.lt_bump (v : Version) {l : Level} (h : l ≠ .none) : v < v.bump l := by
  cases l with
  | none => exact absurd rfl h
  | patch => exact .inr ⟨rfl, .inr ⟨rfl, Nat.lt_succ_self _⟩⟩
  | minor => exact .inr ⟨rfl, .inl (Nat.lt_succ_self _)⟩
  | major => exact .inl (Nat.lt_succ_self _)

theorem Version.bump_injective (v : Version) : Function.Injective v.bump := by
  obtain ⟨major, minor, patch⟩ := v
  intro l l' h
  cases l <;> cases l' <;> simp [bump] at h ⊢

theorem Version.dot_mem_line (v : Version) : '.' ∈ v.text ++ ['\n'] := by
  simp [Version.text]

@[simp] theorem Version.line_ne_none (v : Version) : v.text ++ ['\n'] ≠ "none\n".toList :=
  fun h => absurd (h ▸ v.dot_mem_line) (by decide)

/-- What is announced for a level: a version, unless the level is refused. -/
theorem announce_cases (maintenance : Bool) (v : Version) (l : Level) :
    (l = .none ∧ announce maintenance v l = ("none\n".toList, 0)) ∨
    (maintenance = true ∧ 2 ≤ rank l ∧ announce maintenance v l = ([], 3)) ∨
    (maintenance = false ∧ l = .major ∧ announce maintenance v l = ([], 2)) ∨
    (l ≠ .none ∧ announce maintenance v l = ((v.bump l).text ++ ['\n'], 0)) := by
  cases l <;> cases maintenance <;> by_cases hzero : v.major = 0 <;> simp [announce, rank, hzero]

/-- A version that is announced comes after the tag. -/
theorem lt_of_announce {maintenance : Bool} {v w : Version} {l : Level}
    (h : (announce maintenance v l).1 = w.text ++ ['\n']) : v < w := by
  rcases announce_cases maintenance v l with ⟨-, heq⟩ | ⟨-, -, heq⟩ | ⟨-, -, heq⟩ | ⟨hne, heq⟩
  · exact absurd (heq ▸ h).symm w.line_ne_none
  · simp [heq] at h
  · simp [heq] at h
  · rw [heq, List.append_left_inj, Version.text_injective.eq_iff] at h
    exact h ▸ v.lt_bump hne

/-- What is announced for a breaking change is announced for no other level, but on a maintenance
base a feature is refused with the same status. -/
theorem announce_eq_major_iff {maintenance : Bool} {v : Version} {l : Level} :
    announce maintenance v l = announce maintenance v .major ↔
      l = .major ∨ (maintenance = true ∧ l = .minor) := by
  have hbump : (v.bump l).text = (v.bump .major).text ↔ l = .major :=
    (Version.text_injective.comp v.bump_injective).eq_iff
  have hnone : "none\n".toList ≠ (v.bump .major).text ++ ['\n'] := (Version.line_ne_none _).symm
  -- Apart from the versions, which are injective in the level, the outputs are few.
  cases l <;> cases maintenance <;> by_cases hzero : v.major = 0 <;>
    simp_all [announce]

/-! ## The guard -/

section Guard

variable {sh : Env} {msgs : Set Text} {breaks : Text → Prop}

theorem releaseLevel_eq_major : releaseLevel sh breaks msgs = .major ↔ ∃ m ∈ msgs, breaks m := by
  unfold releaseLevel
  split_ifs <;> simp_all

theorem releaseLevel_eq_minor : releaseLevel sh breaks msgs = .minor ↔
    (¬∃ m ∈ msgs, breaks m) ∧ ∃ m ∈ msgs, HasType sh .feat m := by
  unfold releaseLevel
  split_ifs <;> simp_all

/-- Where no message breaks in either sense, the two levels agree. -/
theorem releaseLevel_congr {breaks' : Text → Prop} (h : ¬∃ m ∈ msgs, breaks m)
    (h' : ¬∃ m ∈ msgs, breaks' m) : releaseLevel sh breaks msgs = releaseLevel sh breaks' msgs := by
  unfold releaseLevel
  rw [if_neg h, if_neg h']

/-- The level that is found is announced like the level that is required if a breaking message has a
conventional subject, or if the base refuses a feature among the messages anyway. -/
theorem announce_releaseLevel_iff {maintenance : Bool} {v : Version} :
    announce maintenance v (releaseLevel sh (ConventionalBreaking sh) msgs) =
        announce maintenance v (releaseLevel sh (Breaking sh) msgs) ↔
      ((∃ m ∈ msgs, Breaking sh m) → (∃ m ∈ msgs, ConventionalBreaking sh m) ∨
        (maintenance = true ∧ ∃ m ∈ msgs, HasType sh .feat m)) := by
  by_cases hbreaking : ∃ m ∈ msgs, Breaking sh m
  · rw [releaseLevel_eq_major.mpr hbreaking, announce_eq_major_iff, releaseLevel_eq_major,
      releaseLevel_eq_minor, imp_iff_right hbreaking]
    by_cases hconventional : ∃ m ∈ msgs, ConventionalBreaking sh m
    · exact iff_of_true (.inl hconventional) (.inl hconventional)
    · rw [and_iff_right hconventional]
  · -- No message breaks in either sense.
    have hconventional : ¬∃ m ∈ msgs, ConventionalBreaking sh m := by
      rintro ⟨m, hm, h, -⟩
      exact hbreaking ⟨m, hm, h⟩
    rw [releaseLevel_congr hconventional hbreaking]
    exact iff_of_true rfl fun h => absurd h hbreaking

end Guard

/-- **The release guard:** the script looks at the set of the merged messages only. It announces
what they require exactly if one of the breaking messages, should there be any, has a conventional
subject, or the base is a maintenance branch and refuses a feature among them with the same status.
A version that it prints comes after the tag in any case. -/
theorem nextReleaseVersion_announces_iff {sh : Env} {git : Git} {baseRef headRef tag : Text}
    {from_ base head : Hash} {v : Version} (baseName : Text)
    (hdescribe : git.describe baseRef = .ok tag) (htag : stripV tag = v.text)
    (hfrom : git.resolve v.text = some from_) (hbase : git.resolve baseRef = some base)
    (hhead : git.resolve headRef = some head)
    (hgrep : ∀ m ∈ git.merged from_ base head, sh.killed breakingPattern (capture m) = false)
    (hmajor : v.major + 1 < 2^63) (hminor : v.minor + 1 < 2^63) (hpatch : v.patch + 1 < 2^63) :
    let out := nextReleaseVersion sh git baseRef baseName headRef
    let msgs := git.merged from_ base head
    out = report sh baseName v.text (releaseLevel sh (ConventionalBreaking sh) msgs) ∧
    ((out.stdout, out.status) =
        announce (isMaintenance baseName) v (releaseLevel sh (Breaking sh) msgs) ↔
      ((∃ m ∈ msgs, Breaking sh m) → (∃ m ∈ msgs, ConventionalBreaking sh m) ∨
        (isMaintenance baseName = true ∧ ∃ m ∈ msgs, HasType sh .feat m))) ∧
    ∀ w : Version, out.stdout = w.text ++ ['\n'] → v < w := by
  intro out msgs
  have hout : out = report sh baseName v.text (releaseLevel sh (ConventionalBreaking sh) msgs) := by
    rw [← htag] at hfrom ⊢
    exact nextReleaseVersion_eq_report baseName hdescribe hfrom hbase hhead hgrep
  have hannounce := report_eq_announce sh baseName hmajor hminor hpatch
    (releaseLevel sh (ConventionalBreaking sh) msgs)
  rw [← hout] at hannounce
  refine ⟨hout, ?_, fun w hw => ?_⟩
  · rw [hannounce]
    exact announce_releaseLevel_iff
  · exact lt_of_announce ((congrArg Prod.fst hannounce).symm.trans hw)

/-- Three commits in a row. -/
def rowHistory (k : Hash) : List Hash :=
  if k = ['c'] then [['c'], ['b'], ['a']]
  else if k = ['b'] then [['b'], ['a']]
  else if k = ['a'] then [['a']]
  else []

/-- A repository with three commits in a row: the tagged one, the base `main`, and the `HEAD`. -/
def threeCommits (tag onBase onHead : String) : Git where
  resolve name :=
    if name = tag.toList then some ['a']
    else if name = "main".toList then some ['b']
    else if name = "HEAD".toList then some ['c']
    else none
  history k := rowHistory k
  log a b := (rowHistory b).filter fun k => !(rowHistory a).contains k
  logError range := "fatal: ambiguous argument '".toList ++ range ++
    "': unknown revision or path not in the working tree.\n".toList
  mem_log a b k := by simp
  nil_not_mem_history k := by
    unfold rowHistory
    split_ifs <;> decide
  message k :=
    (if k = ['b'] then onBase else if k = ['c'] then onHead else "").toList.filter (· ≠ '\x00')
  nul_not_mem_message k := by simp
  describe _ := .ok tag.toList

/-- A breaking feature after a fix: the next major version. -/
theorem nextReleaseVersion_announces_feature :
    let git := threeCommits "1.2.3" "fix: a leak" "feat(api)!: drop v1"
    let out := nextReleaseVersion Env.plain git "main".toList "main".toList "HEAD".toList
    out = { stdout := "2.0.0\n".toList } ∧
    (out.stdout, out.status) = announce (isMaintenance "main".toList) ⟨1, 2, 3⟩
      (releaseLevel Env.plain (Breaking Env.plain) (git.merged ['a'] ['b'] ['c'])) := by
  intro git out
  have hconv : Conventional Env.plain .feat true (subject (git.message ['c'])) :=
    ⟨"(api)".toList, ' ', "drop v1".toList, .inr ⟨"api".toList, by decide, by decide, rfl⟩,
      by decide, by decide +kernel⟩
  have hdescribe : git.describe "main".toList = .ok "1.2.3".toList := rfl
  have htag : stripV "1.2.3".toList = Version.text ⟨1, 2, 3⟩ := by decide
  have hfrom : git.resolve (Version.text ⟨1, 2, 3⟩) = some ['a'] := by decide
  have hbase : git.resolve "main".toList = some ['b'] := by decide
  have hhead : git.resolve "HEAD".toList = some ['c'] := by decide
  have hgrep : ∀ m ∈ git.merged ['a'] ['b'] ['c'],
      Env.plain.killed breakingPattern (capture m) = false := fun _ _ => rfl
  have hguard := nextReleaseVersion_announces_iff "main".toList hdescribe htag hfrom hbase hhead
    hgrep (by decide) (by decide) (by decide)
  refine ⟨by decide +kernel, hguard.2.1.mpr fun _ => .inl ?_⟩
  exact ⟨_, ⟨['c'], .inr ⟨by decide, by decide⟩, rfl⟩, .inr ⟨.feat, hconv⟩, .feat, true, hconv⟩

/-- A merge commit announces a breaking change below a subject that is not conventional: the script
publishes a patch after a 0.x tag and does not refuse. -/
theorem nextReleaseVersion_misses_breaking :
    let git := threeCommits "0.3.1" "Merge 'api'\n\nBREAKING CHANGE: v1 is gone" "fix: a leak"
    let out := nextReleaseVersion Env.plain git "main".toList "main".toList "HEAD".toList
    out = { stdout := "0.3.2\n".toList } ∧
    announce (isMaintenance "main".toList) ⟨0, 3, 1⟩
      (releaseLevel Env.plain (Breaking Env.plain) (git.merged ['a'] ['b'] ['c'])) = ([], 2) := by
  intro git out
  have hbreaking : Breaking Env.plain (git.message ['b']) :=
    .inl ⟨"BREAKING CHANGE: v1 is gone".toList, by decide +kernel, .inl ⟨" v1 is gone".toList, rfl⟩⟩
  have hlevel :
      releaseLevel Env.plain (Breaking Env.plain) (git.merged ['a'] ['b'] ['c']) = .major :=
    releaseLevel_eq_major.mpr ⟨_, ⟨['b'], .inl ⟨by decide, by decide⟩, rfl⟩, hbreaking⟩
  refine ⟨by decide +kernel, ?_⟩
  rw [hlevel]
  decide +kernel

end RockchipDra.Release
