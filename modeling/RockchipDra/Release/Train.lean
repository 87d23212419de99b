import RockchipDra.Release.Version

/-!
# The name of a release train

`hack/check-release-train.sh`: a pull request from a branch `prep/X` passes if `X` is the version
that its merge publishes. All other pull requests pass.

`checkReleaseTrain_passes_iff` says when a train passes, in terms of what is to be announced for the
level of its commits. So a train that passes is named after a version that comes after the tag.
-/

namespace RockchipDra.Release

open Shell

/-- `base_ref`: the branch of the remote, if there is one. -/
def trainBaseRef (git : Git) (base : Text) : Text :=
  if (git.resolve ("origin/".toList ++ base)).isSome then "origin/".toList ++ base else base

/-- The comparison of the branch with the output of the version script. The script ends where the
version script fails. -/
def compareTrain (expected : Text) (out : Output) : Output :=
  if out.status ≠ 0 then { stderr := out.stderr, status := out.status }
  else
    let got := capture out.stdout
    if got = "none".toList then
      { stderr := out.stderr ++ "prep/".toList ++ expected ++
          " would not publish; add a feat, fix, perf, or revert, or close the train\n".toList,
        status := 1 }
    else if got ≠ expected then
      { stderr := out.stderr ++ "branch prep/".toList ++ expected ++ " would publish ".toList ++
          got ++ "; rename the branch and retitle the pull request\n".toList,
        status := 1 }
    else
      { stdout := "prep/".toList ++ expected ++ " matches the commits\n".toList,
        stderr := out.stderr }

/-- `check-release-train.sh`. -/
def checkReleaseTrain (sh : Env) (git : Git) (event head base : Text) : Output :=
  if event = [] then { stderr := "RELEASE_TRAIN_EVENT is required\n".toList, status := 1 }
  else if event ≠ "pull_request".toList then { stdout := "not a pull request\n".toList }
  else if "prep/".toList.isPrefixOf head = false then { stdout := "not a release train\n".toList }
  else if base = [] then
    { stderr := "RELEASE_TRAIN_BASE is required for a prep pull request\n".toList, status := 1 }
  else
    compareTrain (head.drop "prep/".toList.length)
      (nextReleaseVersionMain sh git ["--base-ref".toList, trainBaseRef git base,
        "--base-name".toList, base, "--head-ref".toList, "HEAD".toList])

theorem trainBaseRef_ne_nil {git : Git} {base : Text} (h : base ≠ []) :
    trainBaseRef git base ≠ [] := by
  unfold trainBaseRef
  split_ifs
  · simp
  · exact h

/-- The version script with its three options. -/
theorem nextReleaseVersionMain_eq (sh : Env) (git : Git) {baseRef baseName headRef : Text}
    (hbase : baseRef ≠ []) (hname : baseName ≠ []) (hhead : headRef ≠ []) :
    nextReleaseVersionMain sh git ["--base-ref".toList, baseRef, "--base-name".toList, baseName,
      "--head-ref".toList, headRef] = nextReleaseVersion sh git baseRef baseName headRef := by
  have hargs : parseArgs {} ["--base-ref".toList, baseRef, "--base-name".toList, baseName,
      "--head-ref".toList, headRef] = .ok ⟨baseRef, baseName, headRef⟩ := rfl
  unfold nextReleaseVersionMain
  rw [hargs]
  exact if_neg (by simp [hbase, hname, hhead])

/-- A train is the comparison of its name with the version. -/
theorem checkReleaseTrain_train (sh : Env) (git : Git) {base : Text} (hbase : base ≠ [])
    (expected : Text) :
    checkReleaseTrain sh git "pull_request".toList ("prep/".toList ++ expected) base =
      compareTrain expected
        (nextReleaseVersion sh git (trainBaseRef git base) base "HEAD".toList) := by
  unfold checkReleaseTrain
  rw [if_neg (by decide), if_neg (by decide), if_neg (by simp), if_neg hbase, List.drop_left,
    nextReleaseVersionMain_eq sh git (trainBaseRef_ne_nil hbase) hbase (by decide)]

/-- The shell reads a version back as it was printed. -/
theorem capture_version (v : Version) : capture (v.text ++ ['\n']) = v.text := by
  have hchars : ∀ c ∈ v.text, c.isDigit = true ∨ c = '.' := by
    intro c hc
    simp only [Version.text, List.mem_append, List.mem_cons] at hc
    rcases hc with hc | hc | hc | hc | hc
    · exact .inl (isDigit_of_mem_decimal hc)
    · exact .inr hc
    · exact .inl (isDigit_of_mem_decimal hc)
    · exact .inr hc
    · exact .inl (isDigit_of_mem_decimal hc)
  rw [capture_concat_newline]
  refine capture_eq_self (fun h => ?_) fun h => ?_
  · exact absurd (hchars _ h) (by decide)
  · exact absurd (hchars _ h) (by decide)

theorem compareTrain_status_of_ne {out : Output} (h : out.status ≠ 0) (expected : Text) :
    (compareTrain expected out).status = out.status := by
  rw [compareTrain, if_pos h]

theorem compareTrain_status_of_eq {out : Output} (h : out.status = 0) (expected : Text) :
    (compareTrain expected out).status = 0 ↔
      capture out.stdout ≠ "none".toList ∧ capture out.stdout = expected := by
  rw [compareTrain, if_neg (not_not.mpr h)]
  dsimp only
  split_ifs with hnone hexpected
  · exact iff_of_false (by simp) fun hne => hne.1 hnone
  · exact iff_of_false (by simp) fun hne => hexpected hne.2
  · exact iff_of_true rfl ⟨hnone, not_not.mp hexpected⟩

/-- A comparison succeeds if the version that is announced is the expected one. -/
theorem compareTrain_status {maintenance : Bool} {v : Version} {l : Level} {expected : Text}
    {out : Output} (h : (out.stdout, out.status) = announce maintenance v l) :
    (compareTrain expected out).status = 0 ↔
      l ≠ .none ∧ expected = (v.bump l).text ∧ (announce maintenance v l).2 = 0 := by
  have hrefused : (announce maintenance v l).2 ≠ 0 → ((compareTrain expected out).status = 0 ↔
      l ≠ .none ∧ expected = (v.bump l).text ∧ (announce maintenance v l).2 = 0) := by
    intro hne
    have hstatus : out.status ≠ 0 := by
      rw [← h] at hne
      exact hne
    rw [compareTrain_status_of_ne hstatus]
    exact iff_of_false hstatus fun hand => hne hand.2.2
  rcases announce_cases maintenance v l with ⟨hl, heq⟩ | ⟨-, -, heq⟩ | ⟨-, -, heq⟩ | ⟨hl, heq⟩
  · obtain ⟨hstdout, hstatus⟩ := Prod.mk.inj (h.trans heq)
    rw [compareTrain_status_of_eq hstatus, hstdout]
    exact iff_of_false (fun hne => hne.1 (by decide)) fun hne => hne.1 hl
  · exact hrefused (by rw [heq]; decide)
  · exact hrefused (by rw [heq]; decide)
  · -- A version is compared with the name.
    obtain ⟨hstdout, hstatus⟩ := Prod.mk.inj (h.trans heq)
    have hnone : (v.bump l).text ≠ "none".toList := fun hnone =>
      (v.bump l).line_ne_none (congrArg (· ++ ['\n']) hnone)
    rw [compareTrain_status_of_eq hstatus, hstdout, capture_version, and_iff_right hnone,
      and_iff_right hl, heq, and_iff_left rfl, eq_comm]

/-- **When a train passes:** the level of its commits is published, and its name is the version at
this level. That version comes after the tag. -/
theorem checkReleaseTrain_passes_iff {sh : Env} {git : Git} {base tag : Text}
    {from_ kb kh : Hash} {v : Version} (hbase : base ≠ [])
    (hdescribe : git.describe (trainBaseRef git base) = .ok tag) (htag : stripV tag = v.text)
    (hfrom : git.resolve v.text = some from_) (hkb : git.resolve (trainBaseRef git base) = some kb)
    (hkh : git.resolve "HEAD".toList = some kh)
    (hgrep : ∀ m ∈ git.merged from_ kb kh, sh.killed breakingPattern (capture m) = false)
    (hmajor : v.major + 1 < 2^63) (hminor : v.minor + 1 < 2^63) (hpatch : v.patch + 1 < 2^63)
    (expected : Text) :
    let train := checkReleaseTrain sh git "pull_request".toList ("prep/".toList ++ expected) base
    let level := releaseLevel sh (ConventionalBreaking sh) (git.merged from_ kb kh)
    (train.status = 0 ↔ level ≠ .none ∧ expected = (v.bump level).text ∧
      (announce (isMaintenance base) v level).2 = 0) ∧
    (train.status = 0 → ∃ w : Version, expected = w.text ∧ v < w) := by
  intro train level
  have hout : nextReleaseVersion sh git (trainBaseRef git base) base "HEAD".toList =
      report sh base v.text level := by
    rw [← htag] at hfrom ⊢
    exact nextReleaseVersion_eq_report base hdescribe hfrom hkb hkh hgrep
  have hstatus : train.status = 0 ↔ level ≠ .none ∧ expected = (v.bump level).text ∧
      (announce (isMaintenance base) v level).2 = 0 := by
    change (checkReleaseTrain sh git _ _ base).status = 0 ↔ _
    rw [checkReleaseTrain_train sh git hbase, hout]
    exact compareTrain_status (report_eq_announce sh base hmajor hminor hpatch level)
  refine ⟨hstatus, fun hpass => ?_⟩
  obtain ⟨hne, hexpected, -⟩ := hstatus.mp hpass
  exact ⟨_, hexpected, v.lt_bump hne⟩

/-- The train of a breaking change passes under the name of the next major version. -/
theorem checkReleaseTrain_passes_major :
    let git := threeCommits "1.2.3" "fix: a leak" "feat(api)!: drop v1"
    let train := fun expected : String => checkReleaseTrain Env.plain git "pull_request".toList
      ("prep/".toList ++ expected.toList) "main".toList
    (train "2.0.0").status = 0 ∧ (train "1.3.0").status = 1 ∧
    ∃ w : Version, "2.0.0".toList = w.text ∧ ⟨1, 2, 3⟩ < w := by
  intro git train
  have hpass : (train "2.0.0").status = 0 := by decide +kernel
  have href : trainBaseRef git "main".toList = "main".toList := by decide
  have htag : stripV "1.2.3".toList = Version.text ⟨1, 2, 3⟩ := by decide
  have hfrom : git.resolve (Version.text ⟨1, 2, 3⟩) = some ['a'] := by decide
  have hkb : git.resolve (trainBaseRef git "main".toList) = some ['b'] := by rw [href]; decide
  have hkh : git.resolve "HEAD".toList = some ['c'] := by decide
  have hiff := checkReleaseTrain_passes_iff (by decide) rfl htag hfrom hkb hkh
    (fun _ _ => rfl : ∀ m ∈ git.merged ['a'] ['b'] ['c'],
      Env.plain.killed breakingPattern (capture m) = false)
    (by decide) (by decide) (by decide) "2.0.0".toList
  exact ⟨hpass, by decide +kernel, hiff.2 hpass⟩

end RockchipDra.Release
