import RockchipDra.Shell.Text

/-!
# The Included section of a release pull request

`hack/render-release-included.sh` rewrites the section of a pull request body that lists what a
release includes, and `hack/update-release-included.sh` edits the pull request if that changes its
body. One of three loops over the lines handles a body: one for a body with both markers, one for a
body with the bare heading, and one for a body without a section.

The loops print *pieces*: lines of the body, and the new section. A line outside the section is
printed unless a start marker is never closed (`outside_sublist_render`). The branch is chosen by
markers anywhere in a line, but the loop goes by lines that are markers, so that a blank after the
end marker is enough to lose what follows.
-/

namespace RockchipDra.Release

open Shell

/-- What the script cannot know of the `awk` that it runs. -/
structure Awk where
  /-- The value of a variable that is assigned with `-v`. A backslash starts an escape sequence. -/
  assign : Text → Text
  /-- Without a backslash the value is the text. -/
  assign_eq : ∀ t, '\\' ∉ t → assign t = t

/-! ## Rendering -/

/-- `start`. -/
def startMark : Text := "<!-- included:start -->".toList

/-- `end`. -/
def endMark : Text := "<!-- included:end -->".toList

/-- The heading of the section. -/
def includedHeading : Text := "## Included".toList

/-- `grep -F`: a line has a text in it. -/
def contains (w l : Text) : Bool := decide (w <:+: l)

/-- `/^## /`: a line is a heading. -/
def isHeading (l : Text) : Bool := "## ".toList.isPrefixOf l

/-- `section`. -/
def sectionText (items : Text) : Text :=
  capture (startMark ++ "\n## Included\n\n".toList ++
    (if items = [] then "-\n\n".toList else items ++ ['\n']) ++ endMark ++ ['\n'])

/-- What a loop prints: a line of the body, or the new section. -/
inductive Piece where
  | line (l : Text)
  | included
  deriving DecidableEq

/-- The loop for a body with both markers. -/
def markerLoop (start end_ : Text) : Bool → List Text → List Piece
  | _, [] => []
  | skip, l :: ls =>
    if l = start then .included :: markerLoop start end_ true ls
    else if skip = true ∧ l = end_ then markerLoop start end_ false ls
    else if skip = true then markerLoop start end_ skip ls
    else .line l :: markerLoop start end_ skip ls

/-- The loop for a body with the bare heading. -/
def headingLoop : Bool → Bool → List Text → List Piece
  | _, _, [] => []
  | skip, done, l :: ls =>
    -- Until another heading follows, the same heading starts a section again.
    if l = includedHeading ∧ done = false then .included :: headingLoop true done ls
    else if skip = true ∧ isHeading l = true then .line l :: headingLoop false true ls
    else if skip = true then headingLoop skip done ls
    else .line l :: headingLoop skip done ls

/-- The loop for a body without a section, and what it prints at the end. -/
def insertLoop : Bool → Bool → List Text → List Piece
  | inserted, _, [] => if inserted then [] else [.line [], .included]
  | inserted, seen, l :: ls =>
    if inserted = false ∧ isHeading l = true ∧ seen = true then
      .included :: .line l :: insertLoop true true ls
    else .line l :: insertLoop inserted (seen || isHeading l) ls

/-- The loop for a body and what it prints. -/
def renderPieces (aw : Awk) (sh : Env) (body : Text) : List Piece :=
  if grepQ sh startMark (contains startMark) body && grepQ sh endMark (contains endMark) body then
    markerLoop (aw.assign startMark) (aw.assign endMark) false (lines body)
  else if grepQ sh includedHeading (· = includedHeading) body then
    headingLoop false false (lines body)
  else insertLoop false false (lines body)

/-- The text of a piece. -/
def Piece.print (section_ : Text) : Piece → Text
  | .line l => l ++ ['\n']
  | .included => section_ ++ ['\n', '\n']

/-- `render-release-included.sh`. -/
def renderReleaseIncluded (aw : Awk) (sh : Env) (items input : Text) : Text :=
  let body := capture input
  (renderPieces aw sh body).flatMap (Piece.print (aw.assign (sectionText items)))

/-- A pull request. -/
structure PullRequest where
  /-- Its number. -/
  number : ℕ
  /-- Its body. -/
  body : Text
  deriving DecidableEq

/-- `update-release-included.sh`: the message, and the edit of the pull request, if any. -/
def updateReleaseIncluded (aw : Awk) (sh : Env) (train : Text) (release : Option PullRequest)
    (items : Text) : Text × Option PullRequest :=
  if "prep/".toList.isPrefixOf train = false then
    ("not a release train: ".toList ++ train ++ ['\n'], none)
  else
    match release with
    | none => ("no open pull request from ".toList ++ train ++ ['\n'], none)
    | some pr =>
      let number := (toString pr.number).toList
      let body := capture (pr.body ++ ['\n'])
      let updated := capture (renderReleaseIncluded aw sh items (body ++ ['\n']))
      if updated = body then
        ("included list unchanged on #".toList ++ number ++ ['\n'], none)
      else
        ("updated included list on #".toList ++ number ++ ['\n'],
          some { pr with body := updated ++ ['\n'] })

/-! ## Pieces and lines -/

/-- The lines of a piece, for the lines of the section. -/
def Piece.expand (sec : List Text) : Piece → List Text
  | .line l => [l]
  | .included => sec ++ [[]]

/-- The lines of the pieces. -/
def expand (sec : List Text) (ps : List Piece) : List Text := ps.flatMap (Piece.expand sec)

@[simp] theorem expand_nil (sec : List Text) : expand sec [] = [] := rfl

@[simp] theorem expand_line (sec : List Text) (l : Text) (ps : List Piece) :
    expand sec (.line l :: ps) = l :: expand sec ps := rfl

@[simp] theorem expand_included (sec : List Text) (ps : List Piece) :
    expand sec (.included :: ps) = sec ++ [] :: expand sec ps := by
  simp [expand, Piece.expand]

@[simp] theorem expand_append (sec : List Text) (ps qs : List Piece) :
    expand sec (ps ++ qs) = expand sec ps ++ expand sec qs := by
  simp [expand]

theorem expand_ne_nil {sec : List Text} {ps : List Piece} (h : ps ≠ []) : expand sec ps ≠ [] := by
  obtain ⟨p, ps, rfl⟩ := List.exists_cons_of_ne_nil h
  cases p <;> simp

/-- The lines of what is printed. -/
theorem lines_print (section_ : Text) {ps : List Piece}
    (h : ∀ l, Piece.line l ∈ ps → '\n' ∉ l) :
    lines (ps.flatMap (Piece.print section_)) = expand (lines section_) ps ++ [[]] := by
  induction ps with
  | nil => rfl
  | cons p ps ih =>
    have hps := ih fun l hl => h l (List.mem_cons_of_mem _ hl)
    rw [List.flatMap_cons]
    cases p with
    | line l =>
      rw [Piece.print, List.append_assoc, List.singleton_append, lines_append_newline,
        lines_of_not_mem (h l List.mem_cons_self), hps]
      rfl
    | included =>
      rw [Piece.print, List.append_assoc]
      change lines (section_ ++ '\n' :: ([] ++ '\n' :: ps.flatMap (Piece.print section_))) = _
      rw [lines_append_newline, lines_append_newline, hps]
      simp [lines_of_not_mem]

/-! ## What the loops print -/

theorem assign_startMark (aw : Awk) : aw.assign startMark = startMark := aw.assign_eq _ (by decide)

theorem assign_endMark (aw : Awk) : aw.assign endMark = endMark := aw.assign_eq _ (by decide)

theorem mem_of_line_mem_markerLoop {start end_ l : Text} {skip : Bool} {ls : List Text}
    (h : Piece.line l ∈ markerLoop start end_ skip ls) : l ∈ ls ∧ l ≠ start := by
  induction ls generalizing skip with
  | nil => cases h
  | cons l' ls ih =>
    rw [markerLoop] at h
    split_ifs at h with hstart
    · exact (ih (by simpa using h)).imp_left (List.mem_cons_of_mem _)
    · exact (ih h).imp_left (List.mem_cons_of_mem _)
    · exact (ih h).imp_left (List.mem_cons_of_mem _)
    · rcases List.mem_cons.mp h with heq | h
      · cases heq
        exact ⟨List.mem_cons_self, hstart⟩
      · exact (ih h).imp_left (List.mem_cons_of_mem _)

theorem mem_of_line_mem_headingLoop {l : Text} {skip done : Bool} {ls : List Text}
    (h : Piece.line l ∈ headingLoop skip done ls) : l ∈ ls := by
  induction ls generalizing skip done with
  | nil => cases h
  | cons l' ls ih =>
    rw [headingLoop] at h
    split_ifs at h
    · exact List.mem_cons_of_mem _ (ih (by simpa using h))
    · rcases List.mem_cons.mp h with heq | h
      · cases heq
        exact List.mem_cons_self
      · exact List.mem_cons_of_mem _ (ih h)
    · exact List.mem_cons_of_mem _ (ih h)
    · rcases List.mem_cons.mp h with heq | h
      · cases heq
        exact List.mem_cons_self
      · exact List.mem_cons_of_mem _ (ih h)

theorem mem_of_line_mem_insertLoop {l : Text} {inserted seen : Bool} {ls : List Text}
    (h : Piece.line l ∈ insertLoop inserted seen ls) : l ∈ ls ∨ l = [] := by
  induction ls generalizing inserted seen with
  | nil =>
    cases inserted with
    | false => exact .inr (by simpa [insertLoop] using h)
    | true => cases h
  | cons l' ls ih =>
    rw [insertLoop] at h
    have hrest : Piece.line l = .line l' ∨ (l ∈ ls ∨ l = []) → l ∈ l' :: ls ∨ l = [] := by
      rintro (heq | hl)
      · cases heq
        exact .inl List.mem_cons_self
      · exact hl.imp_left (List.mem_cons_of_mem _)
    split_ifs at h
    · rcases List.mem_cons.mp h with heq | h
      · cases heq
      · exact hrest ((List.mem_cons.mp h).imp_right ih)
    · exact hrest ((List.mem_cons.mp h).imp_right ih)

/-- The loop for the bare heading replaces it. -/
theorem included_mem_headingLoop {ls : List Text} (h : includedHeading ∈ ls) :
    Piece.included ∈ headingLoop false false ls := by
  induction ls with
  | nil => cases h
  | cons l ls ih =>
    rw [headingLoop]
    by_cases hl : l = includedHeading
    · rw [if_pos ⟨hl, rfl⟩]
      exact List.mem_cons_self
    · have hmem := (List.mem_cons.mp h).resolve_left (Ne.symm hl)
      simpa [hl] using ih hmem

/-- The loop for a body without a section always inserts one. -/
theorem included_mem_insertLoop (seen : Bool) (ls : List Text) :
    Piece.included ∈ insertLoop false seen ls := by
  induction ls generalizing seen with
  | nil => simp [insertLoop]
  | cons l ls ih =>
    rw [insertLoop]
    split_ifs
    · exact List.mem_cons_self
    · exact List.mem_cons_of_mem _ (ih _)

/-- No `grep` on a body is cut short. -/
def Unbroken (sh : Env) (body : Text) : Prop :=
  ∀ w ∈ [startMark, endMark, includedHeading], sh.killed w body = false

/-- A marker is somewhere in the lines. -/
def Marked (w : Text) (ls : List Text) : Prop := ∃ l ∈ ls, w <:+: l

instance (w : Text) (ls : List Text) : Decidable (Marked w ls) :=
  inferInstanceAs (Decidable (∃ l ∈ ls, w <:+: l))

section Branches

variable {aw : Awk} {sh : Env} {body : Text}

theorem grepQ_mark {w : Text} (hgrep : sh.killed w body = false) :
    grepQ sh w (contains w) body = true ↔ Marked w (lines body) := by
  rw [grepQ_eq_true hgrep]
  simp [Marked, contains]

/-- A body with both markers. -/
theorem renderPieces_of_marked (hgrep : Unbroken sh body) (hstart : Marked startMark (lines body))
    (hend : Marked endMark (lines body)) :
    renderPieces aw sh body = markerLoop startMark endMark false (lines body) := by
  have hs := (grepQ_mark (hgrep startMark (by simp))).mpr hstart
  have he := (grepQ_mark (hgrep endMark (by simp))).mpr hend
  unfold renderPieces
  rw [hs, he, assign_startMark, assign_endMark]
  rfl

/-- A body without one of the markers. -/
theorem not_grepQ_marks (hgrep : Unbroken sh body)
    (h : ¬(Marked startMark (lines body) ∧ Marked endMark (lines body))) :
    ¬(grepQ sh startMark (contains startMark) body &&
      grepQ sh endMark (contains endMark) body) = true := by
  rw [Bool.and_eq_true, grepQ_mark (hgrep startMark (by simp)),
    grepQ_mark (hgrep endMark (by simp))]
  exact h

theorem grepQ_heading (hgrep : Unbroken sh body) :
    grepQ sh includedHeading (· = includedHeading) body = true ↔ includedHeading ∈ lines body := by
  rw [grepQ_eq_true (hgrep includedHeading (by simp))]
  simp

/-- A body without one of the markers, with the bare heading. -/
theorem renderPieces_of_heading (hgrep : Unbroken sh body)
    (h : ¬(Marked startMark (lines body) ∧ Marked endMark (lines body)))
    (hheading : includedHeading ∈ lines body) :
    renderPieces aw sh body = headingLoop false false (lines body) := by
  unfold renderPieces
  rw [if_neg (not_grepQ_marks hgrep h), if_pos ((grepQ_heading hgrep).mpr hheading)]

/-- A body without one of the markers and without the heading. -/
theorem renderPieces_of_neither (hgrep : Unbroken sh body)
    (h : ¬(Marked startMark (lines body) ∧ Marked endMark (lines body)))
    (hheading : includedHeading ∉ lines body) :
    renderPieces aw sh body = insertLoop false false (lines body) := by
  unfold renderPieces
  rw [if_neg (not_grepQ_marks hgrep h), if_neg (mt (grepQ_heading hgrep).mp hheading)]

/-- A body without one of the markers gets a section. -/
theorem included_mem_renderPieces (hgrep : Unbroken sh body)
    (h : ¬(Marked startMark (lines body) ∧ Marked endMark (lines body))) :
    Piece.included ∈ renderPieces aw sh body := by
  by_cases hheading : includedHeading ∈ lines body
  · rw [renderPieces_of_heading hgrep h hheading]
    exact included_mem_headingLoop hheading
  · rw [renderPieces_of_neither hgrep h hheading]
    exact included_mem_insertLoop _ _

/-- Whatever the branch, only lines of the body are printed besides the section, and blank ones. -/
theorem mem_of_line_mem_renderPieces {l : Text} (h : Piece.line l ∈ renderPieces aw sh body) :
    l ∈ lines body ∨ l = [] := by
  unfold renderPieces at h
  split_ifs at h
  · exact .inl (mem_of_line_mem_markerLoop h).1
  · exact .inl (mem_of_line_mem_headingLoop h)
  · exact mem_of_line_mem_insertLoop h

end Branches

/-- The lines of a rendered body. -/
theorem lines_renderReleaseIncluded (aw : Awk) (sh : Env) (items input : Text) :
    lines (renderReleaseIncluded aw sh items input) =
      expand (lines (aw.assign (sectionText items))) (renderPieces aw sh (capture input)) ++
        [[]] := by
  refine lines_print _ fun l hl => ?_
  rcases mem_of_line_mem_renderPieces hl with hl | rfl
  · exact newline_not_mem hl
  · simp

/-! ## Lines outside the section -/

/-- The lines that have no marker in them and are not between a line with the start marker and a
later line with the end marker, where `before` tells whether a line with the start marker came
before. -/
def outside : Bool → List Text → List Text
  | _, [] => []
  | before, l :: ls =>
    if ¬startMark <:+: l ∧ ¬endMark <:+: l ∧ ¬(before = true ∧ Marked endMark ls) then
      l :: outside (before || contains startMark l) ls
    else outside (before || contains startMark l) ls

/-- Every start marker that is a line of its own is closed by an end marker that is a line of its
own, unless nothing outside the section follows. -/
def Closed : List Text → Prop
  | [] => True
  | l :: ls => (l = startMark → endMark ∈ ls ∨ outside true ls = []) ∧ Closed ls

instance Closed.decidable : DecidablePred Closed
  | [] => .isTrue trivial
  | l :: ls =>
    have := Closed.decidable ls
    inferInstanceAs (Decidable ((l = startMark → endMark ∈ ls ∨ outside true ls = []) ∧ Closed ls))

/-- A line with a marker is not outside. -/
theorem outside_cons_of_mark {before : Bool} {l : Text} {ls : List Text}
    (h : startMark <:+: l ∨ endMark <:+: l) :
    outside before (l :: ls) = outside (before || contains startMark l) ls := by
  rw [outside, if_neg]
  rintro ⟨hstart, hend, -⟩
  exact h.elim hstart hend

/-- A line between the markers is not outside. -/
theorem outside_cons_of_between {l : Text} {ls : List Text} (h : Marked endMark ls) :
    outside true (l :: ls) = outside true ls := by
  rw [outside, if_neg fun hout => hout.2.2 ⟨rfl, h⟩, Bool.true_or]

/-- The tail of the lines outside. -/
theorem outside_cons_sublist (before : Bool) (l : Text) (ls : List Text) :
    (outside before (l :: ls)).Sublist (l :: outside (before || contains startMark l) ls) := by
  rw [outside]
  split_ifs
  · exact List.Sublist.refl _
  · exact List.sublist_cons_self _ _

/-- The loop for the markers prints every line outside the section. While it skips, an end marker is
to come, or nothing outside follows. -/
theorem outside_sublist_markerLoop (sec : List Text) {skip before : Bool} {ls : List Text}
    (hclosed : Closed ls)
    (hskip : skip = true → before = true ∧ (endMark ∈ ls ∨ outside true ls = [])) :
    (outside before ls).Sublist (expand sec (markerLoop startMark endMark skip ls)) := by
  induction ls generalizing skip before with
  | nil => exact List.nil_sublist _
  | cons l ls ih =>
    rw [markerLoop]
    split_ifs with hstart hend hskip'
    · -- A start marker: from here on the loop skips.
      subst hstart
      rw [outside_cons_of_mark (.inl List.infix_rfl), expand_included]
      have hbefore : (before || contains startMark startMark) = true := by
        rw [show contains startMark startMark = true by decide, Bool.or_true]
      rw [hbefore]
      have hrest : (outside true ls).Sublist (expand sec (markerLoop startMark endMark true ls)) :=
        ih hclosed.2 fun _ => ⟨rfl, hclosed.1 rfl⟩
      exact (hrest.cons []).trans (List.sublist_append_right _ _)
    · -- The end marker: from here on the loop prints.
      obtain ⟨-, rfl⟩ := hend
      rw [outside_cons_of_mark (.inr List.infix_rfl)]
      exact ih hclosed.2 fun h => nomatch h
    · -- A line that is skipped is not outside.
      obtain ⟨rfl, hcases⟩ := hskip hskip'
      have hne : l ≠ endMark := fun h => hend ⟨hskip', h⟩
      rcases hcases with hmem | hnil
      · have hmem := (List.mem_cons.mp hmem).resolve_left hne.symm
        rw [outside_cons_of_between ⟨endMark, hmem, List.infix_rfl⟩]
        exact ih hclosed.2 fun _ => ⟨rfl, .inl hmem⟩
      · rw [hnil]
        exact List.nil_sublist _
    · -- A line that is printed.
      rw [expand_line]
      have hrest : (outside (before || contains startMark l) ls).Sublist
          (expand sec (markerLoop startMark endMark skip ls)) :=
        ih hclosed.2 fun h => absurd h hskip'
      exact (outside_cons_sublist before l ls).trans (hrest.cons_cons l)

/-- After a start marker that is never closed the loop prints no line any more. -/
theorem markerLoop_of_unclosed {ls : List Text} (h : endMark ∉ ls) :
    ∀ p ∈ markerLoop startMark endMark true ls, p = Piece.included := by
  induction ls with
  | nil => intro p hp; cases hp
  | cons l ls ih =>
    obtain ⟨hl, hls⟩ := not_or.mp (mt List.mem_cons.mpr h)
    intro p hp
    rw [markerLoop] at hp
    split_ifs at hp with hstart hend
    · exact (List.mem_cons.mp hp).elim id (ih hls p)
    · exact absurd hend.2.symm hl
    · exact ih hls p hp
    · contradiction

/-- **Nothing outside the section is lost:** if every start marker that is a line of its own is
closed by an end marker that is a line of its own, the lines outside the section are printed in
their order. -/
theorem outside_sublist_render {aw : Awk} {sh : Env} {items body : Text} (hnul : '\x00' ∉ body)
    (hgrep : Unbroken sh (trim body)) (hstart : Marked startMark (lines (trim body)))
    (hend : Marked endMark (lines (trim body))) (hclosed : Closed (lines (trim body))) :
    (outside false (lines (trim body))).Sublist
      (lines (renderReleaseIncluded aw sh items body)) := by
  rw [lines_renderReleaseIncluded, capture_eq_trim hnul, renderPieces_of_marked hgrep hstart hend]
  refine List.Sublist.trans ?_ (List.sublist_append_left _ _)
  exact outside_sublist_markerLoop _ hclosed fun h => nomatch h

/-- An `awk` that reads assigned values as they are. -/
def plainAwk : Awk where
  assign t := t
  assign_eq _ _ := rfl

/-- A body with a section and a checklist after it. -/
def checklistBody : Text :=
  ("Train\n<!-- included:start -->\n## Included\n\n- #1 a\n\n<!-- included:end -->\n" ++
    "\n## Checklist").toList

/-- The intro and the checklist stay. -/
theorem outside_sublist_render_checklist :
    outside false (lines (trim checklistBody)) = ["Train".toList, [], "## Checklist".toList] ∧
    (outside false (lines (trim checklistBody))).Sublist
      (lines (renderReleaseIncluded plainAwk Env.plain "- #2 b\n".toList checklistBody)) := by
  have hclosed : Closed (lines (trim checklistBody)) := by decide +kernel
  exact ⟨by decide +kernel, outside_sublist_render (by decide +kernel) (fun _ _ => rfl)
    (by decide +kernel) (by decide +kernel) hclosed⟩

/-- A blank after the end marker: the checklist is lost. -/
theorem render_loses_checklist :
    let body := ("<!-- included:start -->\n- #1 a\n<!-- included:end --> \n## Checklist").toList
    outside false (lines (trim body)) = ["## Checklist".toList] ∧
    "## Checklist".toList ∉
      lines (renderReleaseIncluded plainAwk Env.plain "- #2 b\n".toList body) := by
  decide +kernel

end RockchipDra.Release
