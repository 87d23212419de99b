import Mathlib.Data.List.DropRight
import Mathlib.Tactic

/-!
# Texts and lines as a shell script sees them

A text is a list of characters, and its lines are what the line breaks separate, so that a text has
at least one line. `capture` is what a command substitution makes of the output of a command: it has
no NUL characters, which a shell variable cannot hold, and no line breaks at its end.

`lines_trim_unlines` says what a script reads back when it captures lines that were printed: these
lines without the blank ones at the end.

A pipeline into `grep -q` succeeds when a line matches, unless `grep` quits so early that the writer
is killed by the closed pipe. Under `pipefail` such a pipeline fails. Whether this happens depends
on the scheduling of the two processes, and it does happen with texts that do not fit into the pipe.
So it is left open (`Env.killed`).
-/

namespace RockchipDra.Shell

/-- A text. -/
abbrev Text := List Char

/-- The lines of a text. -/
def lines (t : Text) : List Text := t.splitOn '\n'

/-- Lines as they are printed, each with a line break after it. -/
def unlines (ls : List Text) : Text := ls.flatMap (· ++ ['\n'])

/-- A text without the line breaks at its end. -/
def trim (t : Text) : Text := t.rdropWhile (· = '\n')

/-- `$(…)`: the output of a command as the value of a variable. -/
def capture (t : Text) : Text := trim (t.filter (· ≠ '\x00'))

/-- What a script cannot know of the shell that runs it. -/
structure Env where
  /-- The class `[[:space:]]` of the locale. -/
  space : Char → Bool
  /-- A writer of the text into a `grep -q` for the pattern is killed when `grep` quits. -/
  killed : Text → Text → Bool
  /-- `$((text + 1))` for a text that is not a number: an expression that is evaluated, or an
  error. -/
  successor : Text → Except Text Text

/-- A shell with the blanks of the C locale, no pipe of which breaks. -/
def Env.plain : Env where
  space c := c ∈ [' ', '\t', '\n', '\x0b', '\x0c', '\r']
  killed _ _ := false
  successor _ := .error []

/-- `printf '%s\n' "$text" | grep -q pattern` under `pipefail`, where `matches` tells whether a line
matches the pattern. -/
def grepQ (sh : Env) (pattern : Text) (matches_ : Text → Bool) (text : Text) : Bool :=
  (lines text).any matches_ && !sh.killed pattern text

/-- A pipeline whose writer is not killed finds a line exactly when there is one. -/
theorem grepQ_eq_true {sh : Env} {pattern text : Text} {matches_ : Text → Bool}
    (h : sh.killed pattern text = false) :
    grepQ sh pattern matches_ text = true ↔ ∃ l ∈ lines text, matches_ l = true := by
  unfold grepQ
  rw [h, Bool.not_false, Bool.and_true, List.any_eq_true]

/-! ## Lines -/

theorem lines_ne_nil (t : Text) : lines t ≠ [] := List.splitOn_ne_nil _ t

theorem lines_cons (c : Char) (t : Text) :
    lines (c :: t) = if c = '\n' then [] :: lines t else (lines t).modifyHead (c :: ·) := by
  rw [lines, List.splitOn_cons_eq_if_modifyHead]
  simp only [beq_iff_eq]
  rfl

/-- A line break separates lines. -/
theorem lines_append_newline (s t : Text) : lines (s ++ '\n' :: t) = lines s ++ lines t :=
  List.splitOn_append_cons_self s t

theorem lines_of_not_mem {l : Text} (h : '\n' ∉ l) : lines l = [l] := List.splitOn_eq_singleton h

/-- A text is its lines with line breaks between them. -/
theorem intercalate_lines (t : Text) : ['\n'].intercalate (lines t) = t :=
  List.intercalate_splitOn _

theorem lines_injective : Function.Injective lines := by
  intro s t h
  rw [← intercalate_lines s, h, intercalate_lines]

/-- What a line consists of: characters of the text, but no line break. -/
theorem mem_of_mem_lines {t l : Text} (h : l ∈ lines t) {c : Char} (hc : c ∈ l) :
    c ∈ t ∧ c ≠ '\n' := by
  induction t generalizing l with
  | nil =>
    rw [lines, List.splitOn_nil, List.mem_singleton] at h
    rw [h] at hc
    cases hc
  | cons d t ih =>
    rw [lines_cons] at h
    split_ifs at h with hd
    · rcases List.mem_cons.mp h with rfl | h
      · cases hc
      · exact ⟨List.mem_cons_of_mem _ (ih h hc).1, (ih h hc).2⟩
    · obtain ⟨first, rest, ht⟩ := List.exists_cons_of_ne_nil (lines_ne_nil t)
      rw [ht] at h ih
      rcases List.mem_cons.mp h with rfl | h
      · -- The first line of the rest gets one more character, which is no line break.
        rcases List.mem_cons.mp hc with rfl | hc
        · exact ⟨List.mem_cons_self, hd⟩
        · have hfirst := ih List.mem_cons_self hc
          exact ⟨List.mem_cons_of_mem _ hfirst.1, hfirst.2⟩
      · have hrest := ih (List.mem_cons_of_mem _ h) hc
        exact ⟨List.mem_cons_of_mem _ hrest.1, hrest.2⟩

/-- No line has a line break. -/
theorem newline_not_mem {t l : Text} (h : l ∈ lines t) : '\n' ∉ l :=
  fun hc => (mem_of_mem_lines h hc).2 rfl

/-! ## Printing -/

@[simp] theorem unlines_nil : unlines [] = [] := rfl

@[simp] theorem unlines_cons (l : Text) (ls : List Text) :
    unlines (l :: ls) = l ++ '\n' :: unlines ls := by
  simp [unlines]

@[simp] theorem unlines_append (ls ls' : List Text) :
    unlines (ls ++ ls') = unlines ls ++ unlines ls' := by
  simp [unlines]

/-- The lines of a text, printed. -/
theorem unlines_lines (t : Text) : unlines (lines t) = t ++ ['\n'] := by
  have h : ∀ ls : List Text, ls ≠ [] → unlines ls = ['\n'].intercalate ls ++ ['\n'] := by
    intro ls hls
    induction ls with
    | nil => exact absurd rfl hls
    | cons l ls ih =>
      cases ls with
      | nil => simp
      | cons l' ls =>
        rw [unlines_cons, ih (List.cons_ne_nil _ _),
          List.intercalate_cons_of_ne_nil (List.cons_ne_nil _ _)]
        simp
  rw [h _ (lines_ne_nil t), intercalate_lines]

/-- Printed lines are read back, with an empty one after the last line break. -/
theorem lines_unlines {ls : List Text} (h : ∀ l ∈ ls, '\n' ∉ l) :
    lines (unlines ls) = ls ++ [[]] := by
  induction ls with
  | nil => rfl
  | cons l ls ih =>
    rw [unlines_cons, lines_append_newline, lines_of_not_mem (h l List.mem_cons_self),
      ih fun l hl => h l (List.mem_cons_of_mem _ hl)]
    rfl

/-! ## Blank lines at the end -/

/-- Lines without the blank ones at the end, but with the first one in any case. -/
def trimLines : List Text → List Text
  | [] => []
  | l :: ls => l :: ls.rdropWhile (· = [])

@[simp] theorem trimLines_concat_nil {ls : List Text} (h : ls ≠ []) :
    trimLines (ls ++ [[]]) = trimLines ls := by
  cases ls with
  | nil => exact absurd rfl h
  | cons l ls => simp [trimLines]

/-- Lines that end with one that is not blank. -/
theorem trimLines_concat_of_ne {ls : List Text} {l : Text} (h : l ≠ []) :
    trimLines (ls ++ [l]) = ls ++ [l] := by
  cases ls with
  | nil => simp [trimLines]
  | cons l' ls => simp [trimLines, h]

/-- A blank line after lines at the end. -/
theorem trimLines_append_concat_nil (xs : List Text) {ls : List Text} (h : ls ≠ []) :
    trimLines (xs ++ (ls ++ [[]])) = trimLines (xs ++ ls) := by
  rw [← List.append_assoc, trimLines_concat_nil (List.append_ne_nil_of_right_ne_nil xs h)]

/-- What stands before lines that end with one that is not blank stays as it is. -/
theorem trimLines_append_inj {xs ys ls : List Text} {l : Text} (h : l ≠ []) :
    trimLines (xs ++ (ls ++ [l])) = trimLines (ys ++ (ls ++ [l])) ↔ xs = ys := by
  rw [← List.append_assoc, ← List.append_assoc, trimLines_concat_of_ne h, trimLines_concat_of_ne h,
    List.append_left_inj, List.append_left_inj]

/-- Only blank lines are taken off. -/
theorem count_trimLines {ls : List Text} {l : Text} (h : l ≠ []) :
    (trimLines ls).count l = ls.count l := by
  cases ls with
  | nil => rfl
  | cons first ls =>
    rw [trimLines, List.count_cons, List.count_cons]
    congr 1
    conv_rhs => rw [← List.rdropWhile_append_rtakeWhile (p := (· = [])) (l := ls)]
    have hblank : (ls.rtakeWhile (· = [])).count l = 0 :=
      List.count_eq_zero.mpr fun hl => h (by simpa using List.mem_rtakeWhile_imp hl)
    rw [List.count_append, hblank, Nat.add_zero]

theorem mem_trimLines_of_ne {ls : List Text} {l : Text} (h : l ≠ []) :
    l ∈ trimLines ls ↔ l ∈ ls := by
  rw [← List.count_pos_iff, count_trimLines h, List.count_pos_iff]

/-- A text that ends with a character other than a line break has a last line that is not blank. -/
theorem lines_concat {t : Text} {c : Char} (hc : c ≠ '\n') :
    ∃ ls l, lines (t ++ [c]) = ls ++ [l ++ [c]] := by
  induction t with
  | nil =>
    refine ⟨[], [], ?_⟩
    rw [List.nil_append, lines_of_not_mem (by simpa using hc.symm)]
    rfl
  | cons d t ih =>
    obtain ⟨ls, l, h⟩ := ih
    rw [List.cons_append, lines_cons, h]
    split_ifs
    · exact ⟨[] :: ls, l, rfl⟩
    · cases ls with
      | nil => exact ⟨[], d :: l, rfl⟩
      | cons first ls => exact ⟨(d :: first) :: ls, l, rfl⟩

/-- Trimming a text takes off the blank lines at its end. -/
theorem lines_trim (t : Text) : lines (trim t) = trimLines (lines t) := by
  induction t using List.reverseRecOn with
  | nil => rfl
  | append_singleton t c ih =>
    by_cases hc : c = '\n'
    · rw [hc, trim, List.rdropWhile_concat_pos _ _ _ (by simp), lines_append_newline]
      change lines (trim t) = trimLines (lines t ++ [[]])
      rw [trimLines_concat_nil (lines_ne_nil t), ih]
    · rw [trim, List.rdropWhile_concat_neg _ _ _ (by simpa using hc)]
      obtain ⟨ls, l, h⟩ := lines_concat (t := t) hc
      rw [h, trimLines_concat_of_ne (by simp)]

/-- Printed lines are read back without the blank ones at the end. -/
theorem lines_trim_unlines {ls : List Text} (hls : ls ≠ []) (hnewline : ∀ l ∈ ls, '\n' ∉ l) :
    lines (trim (unlines ls)) = trimLines ls := by
  rw [lines_trim, lines_unlines hnewline, trimLines_concat_nil hls]

/-- Two texts are equal up to the line breaks at their ends if their lines are. -/
theorem trim_eq_trim_iff {s t : Text} :
    trim s = trim t ↔ trimLines (lines s) = trimLines (lines t) := by
  rw [← lines_trim, ← lines_trim, lines_injective.eq_iff]

/-- Without NUL characters only the line breaks at the end are lost. -/
theorem capture_eq_trim {t : Text} (h : '\x00' ∉ t) : capture t = trim t := by
  unfold capture
  rw [List.filter_eq_self.mpr]
  intro c hc
  rw [decide_eq_true_eq]
  rintro rfl
  exact h hc

/-- A text without NUL characters and line breaks is captured as it is. -/
theorem capture_eq_self {t : Text} (hnul : '\x00' ∉ t) (hnewline : '\n' ∉ t) : capture t = t := by
  rw [capture_eq_trim hnul, trim, List.rdropWhile_eq_self_iff]
  intro hne hlast
  exact hnewline (of_decide_eq_true hlast ▸ List.getLast_mem hne)

theorem nul_not_mem_capture (t : Text) : '\x00' ∉ capture t := by
  intro h
  have hmem := (List.rdropWhile_prefix _ (t.filter (· ≠ '\x00'))).subset h
  simp at hmem

/-- Capturing a captured text changes nothing. -/
theorem capture_capture (t : Text) : capture (capture t) = capture t := by
  rw [capture_eq_trim (nul_not_mem_capture t)]
  exact List.rdropWhile_idempotent _ _

theorem capture_concat_newline (t : Text) : capture (t ++ ['\n']) = capture t := by
  unfold capture
  rw [List.filter_append]
  exact List.rdropWhile_concat_pos _ _ _ rfl

/-- The line breaks at the end are not captured. -/
theorem capture_trim (t : Text) : capture (trim t) = capture t := by
  induction t using List.reverseRecOn with
  | nil => rfl
  | append_singleton t c ih =>
    by_cases hc : c = '\n'
    · rw [hc, capture_concat_newline, ← ih]
      exact congrArg capture (List.rdropWhile_concat_pos _ _ _ rfl)
    · rw [trim, List.rdropWhile_concat_neg _ _ _ (by simpa using hc)]

end RockchipDra.Shell
