import RockchipDra.Release.Included

/-!
# Rendering the Included section again

A second rendering of a pull request body takes the branch for bodies with markers, whichever branch
the first one took (`renderPieces_render`). It reads the pieces of the first one back, with one more
blank line after each section (`markerLoop_expand`). So the body changes again and again as soon as
anything follows the section. `SectionLast` says on the lines of a body when this is so, for each of
the three branches, and `render_idempotent_iff` that rendering is idempotent exactly then.
-/

namespace RockchipDra.Release

open Shell

/-! ## The section -/

/-- Items that the section can carry: without backslashes, and without lines that are markers. -/
structure Plain (items : Text) : Prop where
  /-- No backslash, which `awk` would take for an escape sequence. -/
  backslash : '\\' ∉ items
  /-- No start marker among the lines that the shell reads. -/
  start : startMark ∉ lines (items.filter (· ≠ '\x00'))
  /-- No end marker among them. -/
  end_ : endMark ∉ lines (items.filter (· ≠ '\x00'))

/-- The lines of the list in the section. -/
def itemLines (items : Text) : List Text :=
  if items = [] then [['-'], []] else lines (items.filter (· ≠ '\x00'))

/-- The lines of the section between the markers. -/
def sectionMid (items : Text) : List Text := includedHeading :: [] :: itemLines items

theorem unlines_itemLines (items : Text) :
    (if items = [] then "-\n\n".toList else items ++ ['\n']).filter (· ≠ '\x00') =
      unlines (itemLines items) := by
  unfold itemLines
  split_ifs
  · rfl
  · rw [unlines_lines, List.filter_append]
    rfl

theorem newline_not_mem_sectionMid {items l : Text} (h : l ∈ sectionMid items) : '\n' ∉ l := by
  have hitems : ∀ l ∈ itemLines items, '\n' ∉ l := by
    unfold itemLines
    split_ifs
    · decide
    · exact fun l hl => newline_not_mem hl
  rcases List.mem_cons.mp h with rfl | h
  · decide
  · rcases List.mem_cons.mp h with rfl | h
    · decide
    · exact hitems l h

theorem endMark_ne_nil : endMark ≠ [] := by decide

/-- The lines of the section. -/
theorem lines_sectionText (items : Text) :
    lines (sectionText items) = startMark :: (sectionMid items ++ [endMark]) := by
  have hnewline : ∀ l ∈ startMark :: (sectionMid items ++ [endMark]), '\n' ∉ l := by
    intro l hl
    rcases List.mem_cons.mp hl with rfl | hl
    · decide
    · rcases List.mem_append.mp hl with hl | hl
      · exact newline_not_mem_sectionMid hl
      · rw [List.mem_singleton.mp hl]
        decide
  have hprinted : startMark ++ "\n## Included\n\n".toList ++ unlines (itemLines items) ++ endMark ++
      ['\n'] = unlines (startMark :: (sectionMid items ++ [endMark])) := by
    have hheading : "\n## Included\n\n".toList = '\n' :: (includedHeading ++ ['\n', '\n']) := by
      decide
    simp only [hheading, sectionMid, unlines_cons, unlines_append, unlines_nil, List.append_assoc,
      List.cons_append, List.nil_append]
  have hfilter : (startMark ++ "\n## Included\n\n".toList ++
      (if items = [] then "-\n\n".toList else items ++ ['\n']) ++ endMark ++ ['\n']).filter
        (· ≠ '\x00') = unlines (startMark :: (sectionMid items ++ [endMark])) := by
    rw [← hprinted, List.filter_append, List.filter_append, List.filter_append, List.filter_append,
      unlines_itemLines]
    rfl
  have htrim : trimLines (startMark :: sectionMid items ++ [endMark]) =
      startMark :: (sectionMid items ++ [endMark]) := trimLines_concat_of_ne endMark_ne_nil
  rw [sectionText, capture, hfilter, lines_trim_unlines (List.cons_ne_nil _ _) hnewline]
  exact htrim

theorem Plain.not_mem_sectionMid {items : Text} (h : Plain items) :
    startMark ∉ sectionMid items ∧ endMark ∉ sectionMid items := by
  have hitems : startMark ∉ itemLines items ∧ endMark ∉ itemLines items := by
    unfold itemLines
    split_ifs
    · decide
    · exact ⟨h.start, h.end_⟩
  have hheading : startMark ≠ includedHeading ∧ endMark ≠ includedHeading := by decide
  have hblank : startMark ≠ [] ∧ endMark ≠ [] := by decide
  simp [sectionMid, hitems, hheading, hblank]

/-- The section reaches `awk` as it is. -/
theorem Plain.assign_sectionText {items : Text} (h : Plain items) (aw : Awk) :
    aw.assign (sectionText items) = sectionText items := by
  refine aw.assign_eq _ fun hmem => ?_
  have hmem := List.mem_of_mem_filter ((List.rdropWhile_prefix _ _).subset hmem)
  have hconst : '\\' ∉ startMark ∧ '\\' ∉ "\n## Included\n\n".toList ∧ '\\' ∉ "-\n\n".toList ∧
      '\\' ∉ endMark ∧ '\\' ∉ ['\n'] := by decide
  simp only [List.mem_append, hconst, false_or, or_false] at hmem
  split_ifs at hmem
  · exact hconst.2.2.1 hmem
  · rcases List.mem_append.mp hmem with hmem | hmem
    · exact h.backslash hmem
    · exact hconst.2.2.2.2 hmem

/-! ## Rendering again -/

/-- What a second rendering prints for a piece of the first one: a section gets one more blank line
after it. -/
def Piece.again : Piece → List Piece
  | .line l => [.line l]
  | .included => [.included, .line []]

/-- Nothing but blank lines is printed after a section. -/
def Settled (ps : List Piece) : Prop := ps.Pairwise fun p q => p = .included → q = .line []

section Again

variable {mid : List Text}

/-- While the loop for the markers prints, only a start marker stops it. -/
theorem markerLoop_cons_of_ne {l : Text} (h : l ≠ startMark) (ls : List Text) :
    markerLoop startMark endMark false (l :: ls) =
      .line l :: markerLoop startMark endMark false ls := by
  simp [markerLoop, h]

/-- The loop for the markers skips a section that was printed. -/
theorem markerLoop_mid (hstart : startMark ∉ mid) (hend : endMark ∉ mid) (rest : List Text) :
    markerLoop startMark endMark true (mid ++ endMark :: rest) =
      markerLoop startMark endMark false rest := by
  induction mid with
  | nil =>
    rw [List.nil_append, markerLoop, if_neg (by decide), if_pos ⟨rfl, rfl⟩]
  | cons l mid ih =>
    obtain ⟨hl, hmid⟩ := not_or.mp (mt List.mem_cons.mpr hstart)
    obtain ⟨hl', hmid'⟩ := not_or.mp (mt List.mem_cons.mpr hend)
    rw [List.cons_append, markerLoop, if_neg (Ne.symm hl), if_neg fun h => hl' h.2.symm, if_pos rfl,
      ih hmid hmid']

/-- The pieces are read back. -/
theorem markerLoop_expand (hstart : startMark ∉ mid) (hend : endMark ∉ mid) {ps : List Piece}
    (h : Piece.line startMark ∉ ps) :
    markerLoop startMark endMark false (expand (startMark :: (mid ++ [endMark])) ps) =
      ps.flatMap Piece.again := by
  induction ps with
  | nil => rfl
  | cons p ps ih =>
    obtain ⟨hp, hps⟩ := not_or.mp (mt List.mem_cons.mpr h)
    cases p with
    | line l =>
      have hl : l ≠ startMark := fun heq => hp (by rw [heq])
      rw [expand_line, markerLoop_cons_of_ne hl, ih hps]
      rfl
    | included =>
      -- The section is skipped up to its end marker, and the blank line after it is printed again.
      rw [expand_included, List.cons_append, markerLoop, if_pos rfl, List.append_assoc,
        List.singleton_append, markerLoop_mid hstart hend, markerLoop_cons_of_ne (by decide),
        ih hps]
      rfl

/-- A blank line at the end of a body is skipped or printed. -/
theorem markerLoop_concat_nil (skip : Bool) (ls : List Text) :
    markerLoop startMark endMark skip (ls ++ [[]]) = markerLoop startMark endMark skip ls ∨
      markerLoop startMark endMark skip (ls ++ [[]]) =
        markerLoop startMark endMark skip ls ++ [.line []] := by
  induction ls generalizing skip with
  | nil => cases skip <;> decide
  | cons l ls ih =>
    simp only [List.cons_append, markerLoop]
    split_ifs
    · exact (ih true).imp (congrArg _) (congrArg _)
    · exact ih false
    · exact ih skip
    · exact (ih skip).imp (congrArg _) (congrArg _)

theorem markerLoop_ne_nil {ls : List Text} (h : ls ≠ []) :
    markerLoop startMark endMark false ls ≠ [] := by
  obtain ⟨l, ls, rfl⟩ := List.exists_cons_of_ne_nil h
  by_cases hl : l = startMark
  · rw [markerLoop, if_pos hl]
    exact List.cons_ne_nil _ _
  · rw [markerLoop_cons_of_ne hl]
    exact List.cons_ne_nil _ _

/-- Blank lines at the end of a body make no difference but at the end. -/
theorem trimLines_markerLoop (sec : List Text) (ls : List Text) :
    trimLines (expand sec (markerLoop startMark endMark false (trimLines ls))) =
      trimLines (expand sec (markerLoop startMark endMark false ls)) := by
  cases ls with
  | nil => rfl
  | cons l ls =>
    rw [trimLines]
    induction ls using List.reverseRecOn with
    | nil => rfl
    | append_singleton ls l' ih =>
      by_cases hl' : l' = []
      · rw [List.rdropWhile_concat_pos _ _ _ (by simpa using hl'), ih, hl']
        have hne : expand sec (markerLoop startMark endMark false (l :: ls)) ≠ [] :=
          expand_ne_nil (markerLoop_ne_nil (List.cons_ne_nil l ls))
        rcases markerLoop_concat_nil false (l :: ls) with h | h
        · rw [← h]
          rfl
        · rw [← List.cons_append, h, expand_append]
          exact (trimLines_concat_nil hne).symm
      · rw [List.rdropWhile_concat_neg _ _ _ (by simpa using hl')]

/-- A section that is printed once more is longer by a line. -/
theorem length_expand_again (sec : List Text) (ps : List Piece) :
    (expand sec (ps.flatMap Piece.again)).length = (expand sec ps).length + ps.count .included := by
  induction ps with
  | nil => rfl
  | cons p ps ih =>
    cases p with
    | line l =>
      simp [Piece.again, ih]
      omega
    | included =>
      simp [Piece.again, ih]
      omega

/-- Only pieces without a section stay as they are. -/
theorem expand_again_eq_iff (sec : List Text) (ps : List Piece) :
    expand sec (ps.flatMap Piece.again) = expand sec ps ↔ Piece.included ∉ ps := by
  constructor
  · intro h
    have hlength := congrArg List.length h
    rw [length_expand_again] at hlength
    exact List.count_eq_zero.mp (by omega)
  · intro h
    have hagain : ps.flatMap Piece.again = ps := by
      induction ps with
      | nil => rfl
      | cons p ps ih =>
        obtain ⟨hp, hps⟩ := not_or.mp (mt List.mem_cons.mpr h)
        rw [List.flatMap_cons, ih hps]
        cases p with
        | line l => rfl
        | included => exact absurd rfl hp
    rw [hagain]

theorem settled_concat_blank {ps : List Piece} : Settled (ps ++ [.line []]) ↔ Settled ps := by
  simp [Settled, List.pairwise_append]

theorem settled_concat_of_ne {ps : List Piece} {p : Piece} (hp : p ≠ .line []) :
    Settled (ps ++ [p]) ↔ Piece.included ∉ ps := by
  unfold Settled
  rw [List.pairwise_append]
  constructor
  · rintro ⟨-, -, h⟩ hmem
    exact hp (h _ hmem p (List.mem_singleton_self p) rfl)
  · intro h
    have hvacuous : ∀ q ∈ ps, q ≠ .included := fun q hq heq => h (heq ▸ hq)
    refine ⟨List.pairwise_iff_forall_sublist.mpr fun hsub heq => ?_, List.pairwise_singleton _ _,
      fun q hq r _ heq => absurd heq (hvacuous q hq)⟩
    exact absurd heq (hvacuous _ (hsub.subset List.mem_cons_self))

/-- Printed once more, the pieces are the same up to blank lines at the end exactly if they are
settled. -/
theorem trimLines_expand_again_iff {ps : List Piece} (hne : ps ≠ []) :
    trimLines (expand (startMark :: (mid ++ [endMark])) (ps.flatMap Piece.again)) =
      trimLines (expand (startMark :: (mid ++ [endMark])) ps) ↔ Settled ps := by
  induction ps using List.reverseRecOn with
  | nil => exact absurd rfl hne
  | append_singleton ps p ih =>
    rw [List.flatMap_append, expand_append, expand_append]
    cases p with
    | line l =>
      by_cases hl : l = []
      · subst hl
        by_cases hps : ps = []
        · subst hps
          exact iff_of_true rfl (List.pairwise_singleton _ _)
        · have hagain : ps.flatMap Piece.again ≠ [] := by
            obtain ⟨p, ps, rfl⟩ := List.exists_cons_of_ne_nil hps
            cases p <;> simp [Piece.again]
          rw [settled_concat_blank, ← ih hps]
          change trimLines (_ ++ [[]]) = trimLines (_ ++ [[]]) ↔ _
          rw [trimLines_concat_nil (expand_ne_nil hagain), trimLines_concat_nil (expand_ne_nil hps)]
      · rw [settled_concat_of_ne (by simpa using hl),
          ← expand_again_eq_iff (startMark :: (mid ++ [endMark]))]
        change trimLines (_ ++ ([] ++ [l])) = trimLines (_ ++ ([] ++ [l])) ↔ _
        exact trimLines_append_inj hl
    | included =>
      -- The section stands at the end, with one blank line after it or with two.
      have hagain :
          expand (startMark :: (mid ++ [endMark])) ([Piece.included].flatMap Piece.again) =
          startMark :: mid ++ [endMark] ++ [[]] ++ [[]] := by simp [Piece.again]
      have honce : expand (startMark :: (mid ++ [endMark])) [Piece.included] =
          startMark :: mid ++ [endMark] ++ [[]] := by simp
      rw [settled_concat_of_ne (by simp), ← expand_again_eq_iff (startMark :: (mid ++ [endMark])),
        hagain, honce, trimLines_append_concat_nil _ (by simp),
        trimLines_append_concat_nil _ (by simp), trimLines_append_concat_nil _ (by simp)]
      exact trimLines_append_inj endMark_ne_nil

/-- The loop for the markers prints one section for each start marker. -/
theorem count_included_markerLoop (skip : Bool) (ls : List Text) :
    (markerLoop startMark endMark skip ls).count .included = ls.count startMark := by
  induction ls generalizing skip with
  | nil => rfl
  | cons l ls ih =>
    rw [markerLoop]
    split_ifs with hstart
    · rw [hstart, List.count_cons_self, List.count_cons_self, ih]
    · rw [ih, List.count_cons_of_ne hstart]
    · rw [ih, List.count_cons_of_ne hstart]
    · rw [List.count_cons_of_ne (by simp), ih, List.count_cons_of_ne hstart]

/-- How often a text that is not blank is among the lines of the pieces. -/
theorem count_expand (sec : List Text) {w : Text} (hw : w ≠ []) (ps : List Piece) :
    (expand sec ps).count w = ps.count .included * sec.count w + ps.count (.line w) := by
  induction ps with
  | nil => simp
  | cons p ps ih =>
    cases p with
    | line l =>
      rw [expand_line, List.count_cons, List.count_cons, List.count_cons, ih]
      simp
      omega
    | included =>
      rw [expand_included, List.count_append, List.count_cons_of_ne hw.symm, ih,
        List.count_cons_self, List.count_cons_of_ne (by simp), Nat.succ_mul]
      omega

/-- A start marker that was printed as a line of the body becomes a section of its own. -/
theorem trimLines_expand_ne {ps : List Piece} (hstart : startMark ∉ mid) (hend : endMark ∉ mid)
    (h : Piece.line startMark ∈ ps) (h' : Piece.line endMark ∉ ps) :
    trimLines (expand (startMark :: (mid ++ [endMark]))
        (markerLoop startMark endMark false (expand (startMark :: (mid ++ [endMark])) ps))) ≠
      trimLines (expand (startMark :: (mid ++ [endMark])) ps) := by
  -- There are more end markers than before: one for each start marker.
  intro heq
  have hcount := congrArg (List.count endMark) heq
  have hsec : (startMark :: (mid ++ [endMark])).count endMark = 1 := by
    rw [List.count_cons_of_ne (by decide), List.count_append, List.count_eq_zero.mpr hend,
      List.count_singleton_self]
  have hsec' : (startMark :: (mid ++ [endMark])).count startMark = 1 := by
    rw [List.count_cons_self, List.count_append, List.count_eq_zero.mpr hstart]
    decide
  have hpos := List.count_pos_iff.mpr h
  rw [count_trimLines endMark_ne_nil, count_trimLines endMark_ne_nil,
    count_expand _ endMark_ne_nil, count_expand _ endMark_ne_nil, hsec, count_included_markerLoop,
    count_expand _ (by decide), hsec', List.count_eq_zero.mpr h'] at hcount
  omega

end Again

section Rendered

variable {aw : Awk} {sh : Env} {items body : Text}

theorem renderPieces_ne_nil (hgrep : Unbroken sh body) : renderPieces aw sh body ≠ [] := by
  by_cases h : Marked startMark (lines body) ∧ Marked endMark (lines body)
  · rw [renderPieces_of_marked hgrep h.1 h.2]
    exact markerLoop_ne_nil (lines_ne_nil body)
  · exact List.ne_nil_of_mem (included_mem_renderPieces hgrep h)

/-- A start marker is printed as a line of the body only if the body has no end marker. -/
theorem line_endMark_not_mem (hgrep : Unbroken sh body)
    (h : Piece.line startMark ∈ renderPieces aw sh body) :
    Piece.line endMark ∉ renderPieces aw sh body := by
  have hmem : ∀ w, w ≠ [] → Piece.line w ∈ renderPieces aw sh body → Marked w (lines body) := by
    intro w hw hline
    exact ⟨w, (mem_of_line_mem_renderPieces hline).resolve_right hw, List.infix_rfl⟩
  intro hend
  have hstart := hmem startMark (by decide) h
  rw [renderPieces_of_marked hgrep hstart (hmem endMark endMark_ne_nil hend)] at h
  exact (mem_of_line_mem_markerLoop h).2 rfl

/-- A body without a start marker on a line of its own is printed as it is by the loop for the
markers. -/
theorem expand_markerLoop_of_not_mem (sec : List Text) {ls : List Text} (h : startMark ∉ ls) :
    expand sec (markerLoop startMark endMark false ls) = ls := by
  induction ls with
  | nil => rfl
  | cons l ls ih =>
    obtain ⟨hl, hls⟩ := not_or.mp (mt List.mem_cons.mpr h)
    rw [markerLoop_cons_of_ne (Ne.symm hl), expand_line, ih hls]

/-- Both markers are in what is printed. -/
theorem marked_expand (hgrep : Unbroken sh body) {w : Text} (hw : w = startMark ∨ w = endMark) :
    Marked w (expand (lines (sectionText items)) (renderPieces aw sh body)) := by
  by_cases h : Piece.included ∈ renderPieces aw sh body
  · have hsec : w ∈ lines (sectionText items) := by
      rw [lines_sectionText]
      rcases hw with rfl | rfl <;> simp
    exact ⟨w, List.mem_flatMap.mpr ⟨_, h, List.mem_append_left _ hsec⟩, List.infix_rfl⟩
  · -- The loop for the markers found no start marker, and the body stays.
    have hmarked : Marked startMark (lines body) ∧ Marked endMark (lines body) := by
      by_contra hno
      exact h (included_mem_renderPieces hgrep hno)
    rw [renderPieces_of_marked hgrep hmarked.1 hmarked.2] at h ⊢
    have hno : startMark ∉ lines body := by
      intro hmem
      rw [← List.count_pos_iff, ← count_included_markerLoop false, List.count_pos_iff] at hmem
      exact h hmem
    rw [expand_markerLoop_of_not_mem _ hno]
    rcases hw with rfl | rfl
    · exact hmarked.1
    · exact hmarked.2

theorem nul_not_mem_render (hitems : Plain items) :
    '\x00' ∉ renderReleaseIncluded aw sh items body := by
  intro h
  unfold renderReleaseIncluded at h
  rw [hitems.assign_sectionText] at h
  obtain ⟨p, hp, hmem⟩ := List.mem_flatMap.mp h
  cases p with
  | line l =>
    rcases List.mem_append.mp hmem with hl | hl
    · rcases mem_of_line_mem_renderPieces hp with hline | rfl
      · exact nul_not_mem_capture body (mem_of_mem_lines hline hl).1
      · cases hl
    · exact absurd hl (by decide)
  | included =>
    rcases List.mem_append.mp hmem with hl | hl
    · exact nul_not_mem_capture _ hl
    · exact absurd hl (by decide)

/-- What a second rendering reads. -/
theorem lines_capture_render (hitems : Plain items) (hgrep : Unbroken sh (capture body)) :
    lines (capture (renderReleaseIncluded aw sh items body)) =
      trimLines (expand (lines (sectionText items)) (renderPieces aw sh (capture body))) := by
  rw [capture_eq_trim (nul_not_mem_render hitems), lines_trim, lines_renderReleaseIncluded,
    hitems.assign_sectionText, trimLines_concat_nil (expand_ne_nil (renderPieces_ne_nil hgrep))]

/-- A second rendering is one of the loop for the markers. -/
theorem renderPieces_render (hitems : Plain items) (hgrep : Unbroken sh (capture body))
    (hgrep' : Unbroken sh (capture (renderReleaseIncluded aw sh items body))) :
    renderPieces aw sh (capture (renderReleaseIncluded aw sh items body)) =
      markerLoop startMark endMark false
        (trimLines (expand (lines (sectionText items)) (renderPieces aw sh (capture body)))) := by
  have hmarked : ∀ w, w = startMark ∨ w = endMark →
      Marked w (lines (capture (renderReleaseIncluded aw sh items body))) := by
    intro w hw
    have hexpand :
        Marked w (expand (lines (sectionText items)) (renderPieces aw sh (capture body))) :=
      marked_expand hgrep hw
    obtain ⟨l, hl, hinfix⟩ := hexpand
    rw [lines_capture_render hitems hgrep]
    refine ⟨l, (mem_trimLines_of_ne ?_).mpr hl, hinfix⟩
    rintro rfl
    rcases hw with rfl | rfl <;> exact absurd (List.infix_nil.mp hinfix) (by decide)
  rw [renderPieces_of_marked hgrep' (hmarked _ (.inl rfl)) (hmarked _ (.inr rfl)),
    lines_capture_render hitems hgrep]

/-- Rendering again changes nothing exactly if the pieces of the first rendering are settled and
have no start marker of the body. -/
theorem trim_render_render_iff (hitems : Plain items) (hgrep : Unbroken sh (capture body))
    (hgrep' : Unbroken sh (capture (renderReleaseIncluded aw sh items body))) :
    trim (renderReleaseIncluded aw sh items (renderReleaseIncluded aw sh items body)) =
        trim (renderReleaseIncluded aw sh items body) ↔
      Piece.line startMark ∉ renderPieces aw sh (capture body) ∧
        Settled (renderPieces aw sh (capture body)) := by
  have hne : renderPieces aw sh (capture body) ≠ [] := renderPieces_ne_nil hgrep
  obtain ⟨hstart, hend⟩ := hitems.not_mem_sectionMid
  have hpieces := renderPieces_render hitems hgrep hgrep'
  rw [trim_eq_trim_iff, lines_renderReleaseIncluded, lines_renderReleaseIncluded, hpieces,
    hitems.assign_sectionText, trimLines_concat_nil (expand_ne_nil hne),
    trimLines_concat_nil (expand_ne_nil (hpieces ▸ renderPieces_ne_nil hgrep')),
    trimLines_markerLoop, lines_sectionText]
  by_cases h : Piece.line startMark ∈ renderPieces aw sh (capture body)
  · -- A stray start marker gets a section of its own the second time.
    exact iff_of_false (trimLines_expand_ne hstart hend h (line_endMark_not_mem hgrep h))
      fun hsettled => hsettled.1 h
  · rw [markerLoop_expand hstart hend h, trimLines_expand_again_iff hne, and_iff_right h]

end Rendered

/-! ## Bodies whose section comes last -/

/-- The lines before the first one that is `w`. -/
def linesBefore (w : Text) (ls : List Text) : List Text := ls.takeWhile (· ≠ w)

/-- The lines after the first one that is `w`. -/
def linesAfter (w : Text) (ls : List Text) : List Text := (ls.dropWhile (· ≠ w)).tail

/-- The section is the last thing in a body with these lines, once it is rendered. -/
structure SectionLast (ls : List Text) : Prop where
  /-- In a body with both markers, one line at most is the start marker, and nothing but blank lines
  comes after the first end marker after it. -/
  markers : Marked startMark ls ∧ Marked endMark ls → startMark ∉ linesAfter startMark ls ∧
    ∀ l ∈ linesAfter endMark (linesAfter startMark ls), l = []
  /-- In a body with the bare heading, no line before it is the start marker, and no heading
  follows. -/
  heading : ¬(Marked startMark ls ∧ Marked endMark ls) → includedHeading ∈ ls →
    startMark ∉ linesBefore includedHeading ls ∧
      ∀ l ∈ linesAfter includedHeading ls, isHeading l = false
  /-- In a body without a section, no line is the start marker, and there is one heading at most. -/
  neither : ¬(Marked startMark ls ∧ Marked endMark ls) → includedHeading ∉ ls →
    startMark ∉ ls ∧ ls.countP isHeading ≤ 1

section SectionLast

variable {ls : List Text}

@[simp] theorem linesAfter_nil (w : Text) : linesAfter w [] = [] := rfl

theorem linesAfter_cons_self (w : Text) (ls : List Text) : linesAfter w (w :: ls) = ls := by
  simp [linesAfter]

theorem linesAfter_cons_of_ne {w l : Text} (h : l ≠ w) (ls : List Text) :
    linesAfter w (l :: ls) = linesAfter w ls := by
  simp [linesAfter, h]

theorem linesBefore_cons_self (w : Text) (ls : List Text) : linesBefore w (w :: ls) = [] := by
  simp [linesBefore]

theorem linesBefore_cons_of_ne {w l : Text} (h : l ≠ w) (ls : List Text) :
    linesBefore w (l :: ls) = l :: linesBefore w ls := by
  simp [linesBefore, h]

theorem settled_cons_line (l : Text) (ps : List Piece) : Settled (.line l :: ps) ↔ Settled ps := by
  simp [Settled]

theorem settled_cons_included (ps : List Piece) :
    Settled (.included :: ps) ↔ ∀ q ∈ ps, q = .line [] := by
  unfold Settled
  rw [List.pairwise_cons]
  constructor
  · rintro ⟨h, -⟩ q hq
    exact h q hq rfl
  · intro h
    refine ⟨fun q hq _ => h q hq, List.pairwise_of_forall_mem_list fun p hp q hq _ => h q hq⟩

/-- The loop for the markers prints nothing but blank lines outside a section if there are no
others, -/
theorem blank_markerLoop_false :
    (∀ q ∈ markerLoop startMark endMark false ls, q = .line []) ↔ ∀ l ∈ ls, l = [] := by
  induction ls with
  | nil => simp [markerLoop]
  | cons l ls ih =>
    by_cases hl : l = startMark
    · subst hl
      have hne : startMark ≠ [] := by decide
      simp [markerLoop, hne]
    · rw [markerLoop_cons_of_ne hl, List.forall_mem_cons, List.forall_mem_cons, ih]
      simp

/-- and after the start of a section if there are no others after its end. -/
theorem blank_markerLoop_true :
    (∀ q ∈ markerLoop startMark endMark true ls, q = .line []) ↔
      startMark ∉ ls ∧ ∀ l ∈ linesAfter endMark ls, l = [] := by
  induction ls with
  | nil => simp [markerLoop]
  | cons l ls ih =>
    rw [markerLoop]
    split_ifs with hstart hend hskip
    · simp [hstart]
    -- From the end marker on every line is printed, so that none of them is a start marker.
    · obtain ⟨-, rfl⟩ := hend
      rw [blank_markerLoop_false, linesAfter_cons_self]
      refine ⟨fun h => ⟨fun hmem => ?_, h⟩, fun h => h.2⟩
      rcases List.mem_cons.mp hmem with heq | hmem
      · exact absurd heq (by decide)
      · exact absurd (h _ hmem) (by decide)
    · have hne : l ≠ endMark := fun heq => hend ⟨rfl, heq⟩
      rw [ih, linesAfter_cons_of_ne hne, List.mem_cons, not_or]
      simp [Ne.symm hstart]
    · exact absurd rfl hskip

/-- The loop for the markers settles. -/
theorem settled_markerLoop_iff :
    Settled (markerLoop startMark endMark false ls) ↔ startMark ∉ linesAfter startMark ls ∧
      ∀ l ∈ linesAfter endMark (linesAfter startMark ls), l = [] := by
  induction ls with
  | nil => simp [markerLoop, Settled]
  | cons l ls ih =>
    by_cases hl : l = startMark
    · rw [hl, markerLoop, if_pos rfl, settled_cons_included, blank_markerLoop_true,
        linesAfter_cons_self]
    · rw [markerLoop_cons_of_ne hl, settled_cons_line, ih, linesAfter_cons_of_ne hl]

/-- After the bare heading the loop prints nothing if no heading follows, -/
theorem headingLoop_of_no_heading (h : ∀ l ∈ ls, isHeading l = false) :
    headingLoop true false ls = [] := by
  induction ls with
  | nil => rfl
  | cons l ls ih =>
    obtain ⟨hl, hls⟩ := List.forall_mem_cons.mp h
    have hne : l ≠ includedHeading := by
      rintro rfl
      exact absurd hl (by decide)
    rw [headingLoop, if_neg fun h => hne h.1, if_neg (by simp [hl]), if_pos rfl, ih hls]

/-- and otherwise a line that is not blank, or another section. -/
theorem blank_headingLoop_iff :
    (∀ q ∈ headingLoop true false ls, q = .line []) ↔ ∀ l ∈ ls, isHeading l = false := by
  refine ⟨fun h => ?_, fun h => by simp [headingLoop_of_no_heading h]⟩
  induction ls with
  | nil => simp
  | cons l ls ih =>
    rw [headingLoop] at h
    split_ifs at h with hincluded hheading hskip
    · exact absurd (h _ List.mem_cons_self) (by simp)
    · have hblank : l = [] := by simpa using h _ List.mem_cons_self
      rw [hblank] at hheading
      exact absurd hheading.2 (by decide)
    · have hl : isHeading l = false := by simpa using hheading
      exact List.forall_mem_cons.mpr ⟨hl, ih h⟩
    · exact absurd rfl hskip

/-- The loop for the bare heading settles. -/
theorem settled_headingLoop_iff (h : includedHeading ∈ ls) :
    (Piece.line startMark ∉ headingLoop false false ls ∧ Settled (headingLoop false false ls)) ↔
      startMark ∉ linesBefore includedHeading ls ∧
        ∀ l ∈ linesAfter includedHeading ls, isHeading l = false := by
  induction ls with
  | nil => cases h
  | cons l ls ih =>
    rw [headingLoop]
    by_cases hl : l = includedHeading
    · rw [hl, if_pos ⟨rfl, rfl⟩, settled_cons_included, blank_headingLoop_iff,
        linesBefore_cons_self, linesAfter_cons_self]
      refine and_congr_left fun hno => ?_
      simp [headingLoop_of_no_heading hno]
    · rw [if_neg fun h => hl h.1, if_neg (by simp), if_neg (by simp), settled_cons_line,
        linesBefore_cons_of_ne hl, linesAfter_cons_of_ne hl, List.mem_cons, List.mem_cons,
        not_or, not_or, and_assoc, and_assoc,
        ih ((List.mem_cons.mp h).resolve_left (Ne.symm hl))]
      simp

/-- Once the section is inserted, the loop prints what follows. -/
theorem insertLoop_true (seen : Bool) : insertLoop true seen ls = ls.map Piece.line := by
  induction ls generalizing seen with
  | nil => rfl
  | cons l ls ih =>
    rw [insertLoop, if_neg (by simp), ih]
    rfl

/-- The loop for a body without a section prints all of its lines. -/
theorem line_mem_insertLoop_iff {w : Text} (hw : w ≠ []) (seen : Bool) :
    Piece.line w ∈ insertLoop false seen ls ↔ w ∈ ls := by
  induction ls generalizing seen with
  | nil => simp [insertLoop, hw]
  | cons l ls ih =>
    rw [insertLoop]
    split_ifs
    · simp [insertLoop_true]
    · simp [ih]

/-- The loop for a body without a section settles. -/
theorem settled_insertLoop_iff (seen : Bool) :
    Settled (insertLoop false seen ls) ↔ ls.countP isHeading + seen.toNat ≤ 1 := by
  induction ls generalizing seen with
  | nil => cases seen <;> simp [insertLoop, Settled]
  | cons l ls ih =>
    rw [insertLoop, List.countP_cons]
    split_ifs with hinsert hheading hheading
    -- The section is inserted before a heading, which is printed after it.
    · obtain ⟨-, -, rfl⟩ := hinsert
      rw [settled_cons_included]
      refine iff_of_false (fun h => ?_) (by simp)
      have hblank : l = [] := by simpa using h _ List.mem_cons_self
      rw [hblank] at hheading
      exact absurd hheading (by decide)
    · exact absurd hinsert.2.1 hheading
    · have hseen : seen = false := by simpa [hheading] using hinsert
      rw [settled_cons_line, ih, hheading, hseen]
      simp
    · have hl : isHeading l = false := by simpa using hheading
      rw [settled_cons_line, ih, hl, Bool.or_false]
      simp

variable {aw : Awk} {sh : Env} {body : Text}

/-- The pieces settle, without a stray start marker, exactly if the section comes last. -/
theorem settled_renderPieces_iff (hgrep : Unbroken sh body) :
    (Piece.line startMark ∉ renderPieces aw sh body ∧ Settled (renderPieces aw sh body)) ↔
      SectionLast (lines body) := by
  by_cases hmarked : Marked startMark (lines body) ∧ Marked endMark (lines body)
  · have hlast : SectionLast (lines body) ↔ startMark ∉ linesAfter startMark (lines body) ∧
        ∀ l ∈ linesAfter endMark (linesAfter startMark (lines body)), l = [] :=
      ⟨fun h => h.markers hmarked, fun h => ⟨fun _ => h, (absurd hmarked ·), (absurd hmarked ·)⟩⟩
    rw [hlast, renderPieces_of_marked hgrep hmarked.1 hmarked.2, settled_markerLoop_iff]
    exact and_iff_right fun h => (mem_of_line_mem_markerLoop h).2 rfl
  by_cases hheading : includedHeading ∈ lines body
  · rw [renderPieces_of_heading hgrep hmarked hheading, settled_headingLoop_iff hheading]
    exact ⟨fun h => ⟨(absurd · hmarked), fun _ _ => h, fun _ => (absurd hheading ·)⟩,
      fun h => h.heading hmarked hheading⟩
  · rw [renderPieces_of_neither hgrep hmarked hheading, settled_insertLoop_iff,
      line_mem_insertLoop_iff (by decide)]
    exact ⟨fun h => ⟨(absurd · hmarked), fun _ => (absurd · hheading), fun _ _ => h⟩,
      fun h => h.neither hmarked hheading⟩

end SectionLast

/-- **When rendering is idempotent:** rendering a rendered body again gives the same text, and an
update leaves the body alone, exactly if the section comes last in the body. -/
theorem render_idempotent_iff {aw : Awk} {sh : Env} {items body : Text} (hitems : Plain items)
    (hgrep : Unbroken sh (capture body))
    (hgrep' : Unbroken sh (capture (renderReleaseIncluded aw sh items body))) :
    let rendered := renderReleaseIncluded aw sh items body
    (trim (renderReleaseIncluded aw sh items rendered) = trim rendered ↔
      SectionLast (lines (capture body))) ∧
    ∀ train pr, "prep/".toList <+: train → trim pr.body = trim rendered →
      ((updateReleaseIncluded aw sh train (some pr) items).2 = none ↔
        SectionLast (lines (capture body))) := by
  intro rendered
  have hagain : trim (renderReleaseIncluded aw sh items rendered) = trim rendered ↔
      SectionLast (lines (capture body)) :=
    (trim_render_render_iff hitems hgrep hgrep').trans (settled_renderPieces_iff hgrep)
  refine ⟨hagain, fun train pr htrain hbody => ?_⟩
  have hbody' : capture (pr.body ++ ['\n']) = capture rendered := by
    rw [capture_concat_newline, ← capture_trim, hbody, capture_trim]
  have hrender : renderReleaseIncluded aw sh items (capture rendered ++ ['\n']) =
      renderReleaseIncluded aw sh items rendered := by
    unfold renderReleaseIncluded
    rw [capture_concat_newline, capture_capture]
  rw [← hagain, ← capture_eq_trim (nul_not_mem_render hitems),
    ← capture_eq_trim (nul_not_mem_render hitems)]
  unfold updateReleaseIncluded
  rw [List.isPrefixOf_iff_prefix.mpr htrain, if_neg (by decide)]
  simp only [hbody', hrender]
  split_ifs with heq
  · exact iff_of_true rfl heq
  · exact iff_of_false (by simp) heq

/-- A body that ends with the section is rendered once and for all. -/
theorem render_idempotent_section :
    let body := "Train\n\n## Included\n\n- #1 a".toList
    let items := "- #1 a\n- #2 b\n".toList
    let rendered := renderReleaseIncluded plainAwk Env.plain items body
    trim (renderReleaseIncluded plainAwk Env.plain items rendered) = trim rendered ∧
    (updateReleaseIncluded plainAwk Env.plain "prep/0.7.0".toList (some ⟨7, rendered⟩) items).2 =
      none := by
  intro body items rendered
  have hitems : Plain items := ⟨by decide, by decide +kernel, by decide +kernel⟩
  have hgrep : Unbroken Env.plain (capture body) := fun _ _ => rfl
  have hgrep' : Unbroken Env.plain (capture rendered) := fun _ _ => rfl
  have hlast : SectionLast (lines (capture body)) :=
    ⟨by decide +kernel, by decide +kernel, by decide +kernel⟩
  obtain ⟨hrender, hupdate⟩ := render_idempotent_iff hitems hgrep hgrep'
  exact ⟨hrender.mpr hlast, (hupdate "prep/0.7.0".toList ⟨7, rendered⟩
    (List.isPrefixOf_iff_prefix.mp (by decide)) rfl).mpr hlast⟩

/-- Each rendering of a body with a checklist after the section adds a blank line, and each update
edits it. -/
theorem render_again_adds_line :
    let items := "- #2 b\n".toList
    let rendered := renderReleaseIncluded plainAwk Env.plain items checklistBody
    let again := renderReleaseIncluded plainAwk Env.plain items rendered
    trim again ≠ trim rendered ∧ again.length = rendered.length + 1 ∧
    updateReleaseIncluded plainAwk Env.plain "prep/0.7.0".toList (some ⟨7, rendered⟩) items =
      ("updated included list on #7\n".toList, some ⟨7, again⟩) := by
  decide +kernel

end RockchipDra.Release
