import RockchipDra.Release.Rerender

/-!
# The release pull request over a whole train

`.github/workflows/release-included.yml` runs `hack/update-release-included.sh` after every merge
into a train, one run after the other. The list of the merged pull requests is another one each
time, and the body is what the last run left.

`merges_body` gives the body after any number of merges. The lists of the earlier runs leave no
trace in it but blank lines: it is what a single rendering with the last list prints, with one more
blank line after the section for every run before.
-/

namespace RockchipDra.Release

open Shell

/-- The release pull request after a run of the workflow for a list. -/
def PullRequest.updated (aw : Awk) (sh : Env) (train : Text) (pr : PullRequest) (items : Text) :
    PullRequest :=
  (updateReleaseIncluded aw sh train (some pr) items).2.getD pr

/-- The release pull request after the runs for the lists. -/
def PullRequest.merges (aw : Awk) (sh : Env) (train : Text) (pr : PullRequest)
    (lists : List Text) : PullRequest :=
  lists.foldl (PullRequest.updated aw sh train) pr

/-- What `n` more renderings print for a piece of the first one. -/
def Piece.repeated (n : ℕ) : Piece → List Piece
  | .line l => [.line l]
  | .included => .included :: List.replicate n (.line [])

theorem flatMap_repeated_zero (ps : List Piece) : ps.flatMap (Piece.repeated 0) = ps := by
  have hpiece : ∀ p : Piece, p.repeated 0 = [p] := by rintro (l | _) <;> rfl
  induction ps with
  | nil => rfl
  | cons p ps ih => rw [List.flatMap_cons, ih, hpiece, List.singleton_append]

/-- One more rendering adds one more blank line. -/
theorem flatMap_repeated_succ (n : ℕ) (ps : List Piece) :
    (ps.flatMap (Piece.repeated n)).flatMap Piece.again = ps.flatMap (Piece.repeated (n + 1)) := by
  have hblank : (List.replicate n (Piece.line [])).flatMap Piece.again =
      List.replicate n (.line []) := by
    induction n with
    | zero => rfl
    | succ n ih => rw [List.replicate_succ, List.flatMap_cons, ih]; rfl
  have hpiece : ∀ p : Piece, (p.repeated n).flatMap Piece.again = p.repeated (n + 1) := by
    rintro (l | _)
    · rfl
    · rw [Piece.repeated, Piece.repeated, List.flatMap_cons, hblank, List.replicate_succ]
      rfl
  rw [List.flatMap_assoc]
  exact List.flatMap_congr fun p _ => hpiece p

/-- No start marker comes in as a line. -/
theorem line_startMark_not_mem_repeated {n : ℕ} {ps : List Piece} (h : Piece.line startMark ∉ ps) :
    Piece.line startMark ∉ ps.flatMap (Piece.repeated n) := by
  intro hmem
  obtain ⟨p, hp, hmem⟩ := List.mem_flatMap.mp hmem
  cases p with
  | line l =>
    obtain rfl : startMark = l := by simpa [Piece.repeated] using hmem
    exact h hp
  | included =>
    have hblank : startMark = [] := by
      simp only [Piece.repeated, List.mem_cons, reduceCtorEq, false_or] at hmem
      simpa using List.eq_of_mem_replicate hmem
    exact absurd hblank (by decide)

section Merges

variable {aw : Awk} {sh : Env} {train : Text} (htrain : "prep/".toList <+: train)
include htrain

/-- Whether the body is edited or not, it is the rendered one afterwards. -/
theorem capture_updated (pr : PullRequest) (items : Text) :
    capture (pr.updated aw sh train items).body =
      capture (renderReleaseIncluded aw sh items pr.body) := by
  have hbody : capture (pr.body ++ ['\n']) = capture pr.body := capture_concat_newline _
  have hrender : renderReleaseIncluded aw sh items (capture pr.body ++ ['\n']) =
      renderReleaseIncluded aw sh items pr.body := by
    unfold renderReleaseIncluded
    rw [capture_concat_newline, capture_capture]
  unfold PullRequest.updated updateReleaseIncluded
  rw [List.isPrefixOf_iff_prefix.mpr htrain, if_neg (by decide)]
  simp only [hbody, hrender]
  split_ifs with hsame
  · exact hsame.symm
  · change capture (capture _ ++ ['\n']) = _
    rw [capture_concat_newline, capture_capture]

variable (hgrep : ∀ body, Unbroken sh body) (pr : PullRequest)
include hgrep

/-- The pieces of the run after a run, for any section. -/
theorem trimLines_expand_updated {items : Text} (hitems : Plain items) {ps : List Piece}
    (hps : ∀ sec, trimLines (expand sec (renderPieces aw sh (capture pr.body))) =
      trimLines (expand sec ps)) (hstray : Piece.line startMark ∉ ps) (sec : List Text) :
    trimLines (expand sec (renderPieces aw sh (capture (pr.updated aw sh train items).body))) =
      trimLines (expand sec (ps.flatMap Piece.again)) := by
  obtain ⟨hstart, hend⟩ := hitems.not_mem_sectionMid
  rw [capture_updated htrain, renderPieces_render hitems (hgrep _) (hgrep _), hps,
    trimLines_markerLoop, lines_sectionText, markerLoop_expand hstart hend hstray]

/-- The pieces of the run after any number of runs, for any section. -/
theorem trimLines_expand_merges (lists : List Text) (hitems : ∀ items ∈ lists, Plain items)
    (hstray : Piece.line startMark ∉ renderPieces aw sh (capture pr.body)) (sec : List Text) :
    trimLines (expand sec
        (renderPieces aw sh (capture (pr.merges aw sh train lists).body))) =
      trimLines (expand sec
        ((renderPieces aw sh (capture pr.body)).flatMap (Piece.repeated lists.length))) := by
  induction lists using List.reverseRecOn generalizing sec with
  | nil =>
    rw [List.length_nil, flatMap_repeated_zero]
    rfl
  | append_singleton lists items ih =>
    have hlists := ih fun i hi => hitems i (List.mem_append_left _ hi)
    have hlast : Plain items := hitems items (by simp)
    rw [PullRequest.merges, List.foldl_append, List.length_append, List.length_singleton,
      ← flatMap_repeated_succ]
    exact trimLines_expand_updated htrain hgrep _ hlast hlists
      (line_startMark_not_mem_repeated hstray) sec

end Merges

/-- A start marker is printed as a line of the body only if it stood in it without an end marker. -/
theorem line_startMark_not_mem {aw : Awk} {sh : Env} {body : Text} (hgrep : Unbroken sh body)
    (hstray : startMark ∈ lines body → Marked endMark (lines body)) :
    Piece.line startMark ∉ renderPieces aw sh body := by
  intro h
  have hstart := (mem_of_line_mem_renderPieces h).resolve_right (by decide)
  rw [renderPieces_of_marked hgrep ⟨startMark, hstart, List.infix_rfl⟩ (hstray hstart)] at h
  exact (mem_of_line_mem_markerLoop h).2 rfl

/-- **The body over a whole train.** After any number of merges, with a list each that the section
can carry, and if no line of the first body is the start marker unless an end marker is in it, the
body is what one rendering of the first body with the last list prints, with one more blank line
after each section for every merge before the last. -/
theorem merges_body {aw : Awk} {sh : Env} {train : Text} (htrain : "prep/".toList <+: train)
    (hgrep : ∀ body, Unbroken sh body) (pr : PullRequest) (lists : List Text) (last : Text)
    (hitems : ∀ items ∈ lists ++ [last], Plain items)
    (hstray : startMark ∈ lines (capture pr.body) → Marked endMark (lines (capture pr.body))) :
    let printed := renderPieces aw sh (capture pr.body)
    lines (capture (renderReleaseIncluded aw sh last pr.body)) =
      trimLines (expand (lines (sectionText last)) printed) ∧
    lines (capture (pr.merges aw sh train (lists ++ [last])).body) =
      trimLines (expand (lines (sectionText last))
        (printed.flatMap (Piece.repeated lists.length))) := by
  intro printed
  have hlast : Plain last := hitems last (by simp)
  refine ⟨lines_capture_render hlast (hgrep _), ?_⟩
  rw [PullRequest.merges, List.foldl_append]
  change lines (capture ((pr.merges aw sh train lists).updated aw sh train last).body) = _
  rw [capture_updated htrain, lines_capture_render hlast (hgrep _),
    trimLines_expand_merges htrain hgrep pr lists
      (fun i hi => hitems i (List.mem_append_left _ hi))
      (line_startMark_not_mem (hgrep _) hstray)]

/-- Three merges into a train whose body has a checklist after the section. -/
theorem merges_body_checklist :
    lines (capture ((⟨7, checklistBody⟩ : PullRequest).merges plainAwk Env.plain
      "prep/0.7.0".toList (["- #1 a\n".toList, "- #1 a\n- #2 b\n".toList] ++
        ["- #1 a\n- #2 b\n- #3 c\n".toList])).body) =
      ["Train", "<!-- included:start -->", "## Included", "", "- #1 a", "- #2 b", "- #3 c", "",
        "<!-- included:end -->", "", "", "", "", "## Checklist"].map String.toList := by
  have hplain : ∀ items ∈ ["- #1 a\n".toList, "- #1 a\n- #2 b\n".toList] ++
      ["- #1 a\n- #2 b\n- #3 c\n".toList], Plain items := by
    have hone : ∀ items ∈ ["- #1 a\n".toList, "- #1 a\n- #2 b\n".toList] ++
        ["- #1 a\n- #2 b\n- #3 c\n".toList], '\\' ∉ items ∧
        startMark ∉ lines (items.filter (· ≠ '\x00')) ∧
        endMark ∉ lines (items.filter (· ≠ '\x00')) := by decide +kernel
    exact fun items hi => ⟨(hone items hi).1, (hone items hi).2.1, (hone items hi).2.2⟩
  have htrain : "prep/".toList <+: "prep/0.7.0".toList :=
    List.isPrefixOf_iff_prefix.mp (by decide)
  have hmarked : Marked endMark (lines (capture checklistBody)) := by decide +kernel
  rw [(merges_body htrain (fun _ _ _ => rfl) ⟨7, checklistBody⟩ _ _ hplain fun _ => hmarked).2]
  decide +kernel

end RockchipDra.Release
