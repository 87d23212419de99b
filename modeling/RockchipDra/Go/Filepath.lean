import RockchipDra.Go.Strings

/-!
# Slash-separated paths

`filepath.Join`, `filepath.Clean`, and `filepath.Base` on Unix, by the components between the
slashes. The one fact that a caller needs of them is `base_join`: whatever the directories, the
base of a joined path is its last element, provided that this is a proper file name.
-/

namespace RockchipDra.Go.Filepath

/-- One component of a path onto the stack of those before it, last one first. A `..` removes the
component before it, is dropped at the root, and is kept at the start of a relative path. -/
def push (rooted : Bool) (stack : List (List Char)) (part : List Char) : List (List Char) :=
  if part = [] ∨ part = ['.'] then stack
  else if part = ['.', '.'] then
    match stack with
    | [] => if rooted then [] else [part]
    | top :: rest => if top = ['.', '.'] then part :: stack else rest
  else part :: stack

/-- `filepath.Clean`. -/
def clean (path : String) : String :=
  let rooted := path.toList.head? == some '/'
  let body := ['/'].intercalate ((path.toList.splitOn '/').foldl (push rooted) []).reverse
  String.ofList (if rooted then '/' :: body else if body = [] then ['.'] else body)

/-- `filepath.Join`: the non-empty elements with slashes between them, cleaned. -/
def join (elems : List String) : String :=
  match elems.filter (· ≠ "") with
  | [] => ""
  | parts => clean (Strings.join parts "/")

/-- `filepath.Base`: what follows the last slash, trailing slashes aside. -/
def base (path : String) : String :=
  if path = "" then "." else
    match (path.toList.reverse.dropWhile (· = '/')).takeWhile (· ≠ '/') with
    | [] => "/"
    | l => String.ofList l.reverse

/-- A name that a directory entry can have: not empty, no slash, and neither `.` nor `..`. -/
def IsFileName (name : String) : Prop :=
  name.toList ≠ [] ∧ '/' ∉ name.toList ∧ name.toList ≠ ['.'] ∧ name.toList ≠ ['.', '.']

instance (name : String) : Decidable (IsFileName name) := inferInstanceAs (Decidable (_ ∧ _))

/-- A last part after the others: it stands alone, or after a separator. -/
theorem intercalate_concat {α : Type} (x : α) (parts : List (List α)) (last : List α) :
    ∃ front, [x].intercalate (parts ++ [last]) = front ++ last ∧
      (front = [] ∨ ∃ l, front = l ++ [x]) := by
  induction parts with
  | nil => exact ⟨[], by simp, .inl rfl⟩
  | cons p ps ih =>
    obtain ⟨front, hfront, hend⟩ := ih
    refine ⟨p ++ [x] ++ front, ?_, ?_⟩
    · rw [List.cons_append, List.intercalate_cons_of_ne_nil (by simp), hfront]
      simp
    · rcases hend with rfl | ⟨l, rfl⟩
      · exact .inr ⟨p, by simp⟩
      · exact .inr ⟨p ++ [x] ++ l, by simp⟩

/-- A path whose last component is a file name is cleaned to a path that ends in it, alone or after
a slash. -/
theorem clean_concat {path : String} {parts : List (List Char)} {name : String}
    (h : IsFileName name) (hpath : path.toList.splitOn '/' = parts ++ [name.toList]) :
    ∃ front, clean path = String.ofList (front ++ name.toList) ∧
      (front = [] ∨ ∃ l, front = l ++ ['/']) := by
  obtain ⟨hne, -, hdot, hdots⟩ := h
  unfold clean
  generalize (path.toList.head? == some '/') = rooted
  -- The last component is neither skipped nor taken off again.
  have hstack : (path.toList.splitOn '/').foldl (push rooted) []
      = name.toList :: parts.foldl (push rooted) [] := by
    rw [hpath, List.foldl_append]
    simp [push, hne, hdot, hdots]
  obtain ⟨front, hfront, hend⟩ :=
    intercalate_concat '/' (parts.foldl (push rooted) []).reverse name.toList
  have hbody : ['/'].intercalate ((path.toList.splitOn '/').foldl (push rooted) []).reverse
      = front ++ name.toList := by
    rw [hstack, List.reverse_cons, hfront]
  simp only [hbody]
  have hne' : front ++ name.toList ≠ [] := by simp [hne]
  cases rooted with
  | true =>
    refine ⟨'/' :: front, by simp, .inr ?_⟩
    rcases hend with rfl | ⟨l, rfl⟩
    · exact ⟨[], rfl⟩
    · exact ⟨'/' :: l, rfl⟩
  | false => exact ⟨front, by simp [hne'], hend⟩

/-- The base of a path that ends in a file name, alone or after a slash, is that name. -/
theorem base_concat {name : String} (h : IsFileName name) {front : List Char}
    (hend : front = [] ∨ ∃ l, front = l ++ ['/']) :
    base (String.ofList (front ++ name.toList)) = name := by
  obtain ⟨hne, hslash, -, -⟩ := h
  have hpath : String.ofList (front ++ name.toList) ≠ "" := by
    intro h
    have := congrArg String.toList h
    simp at this
    exact hne (by simp [this.2])
  have hrev : ∀ c ∈ name.toList.reverse, c ≠ '/' := by
    intro c hc hc'
    rw [List.mem_reverse, hc'] at hc
    exact hslash hc
  obtain ⟨c, cs, hn⟩ := List.exists_cons_of_ne_nil (List.reverse_eq_nil_iff.not.mpr hne)
  -- From the end of the path, no slash is dropped and the whole name is taken.
  have hdrop : (front ++ name.toList).reverse.dropWhile (· = '/')
      = name.toList.reverse ++ front.reverse := by
    rw [List.reverse_append, hn, List.cons_append, List.dropWhile_cons_of_neg]
    simpa using hrev c (by simp [hn])
  have htake : (name.toList.reverse ++ front.reverse).takeWhile (· ≠ '/')
      = name.toList.reverse := by
    rw [List.takeWhile_append_of_pos (by simpa using hrev)]
    rcases hend with rfl | ⟨l, rfl⟩
    · simp
    · simp
  unfold base
  rw [if_neg hpath, String.toList_ofList, hdrop, htake, hn]
  simp [← hn]

/-- The base of a joined path is its last element, where that is a file name. -/
theorem base_join (dirs : List String) {name : String} (h : IsFileName name) :
    base (join (dirs ++ [name])) = name := by
  have hname : name ≠ "" := fun h' => h.1 (by simp [h'])
  have hfilter : (dirs ++ [name]).filter (· ≠ "") = dirs.filter (· ≠ "") ++ [name] := by
    simp [hname]
  have hjoin :
      join (dirs ++ [name]) = clean (Strings.join (dirs.filter (· ≠ "") ++ [name]) "/") := by
    unfold join
    rw [hfilter]
    cases dirs.filter (· ≠ "") <;> rfl
  have hsplit : ∃ parts, (Strings.join (dirs.filter (· ≠ "") ++ [name]) "/").toList.splitOn '/'
      = parts ++ [name.toList] := by
    unfold Strings.join
    obtain ⟨front, hfront, hend⟩ :=
      intercalate_concat '/' ((dirs.filter (· ≠ "")).map String.toList) name.toList
    rw [String.toList_ofList, List.map_append, List.map_singleton,
      show ("/" : String).toList = ['/'] from rfl, hfront]
    rcases hend with rfl | ⟨l, rfl⟩
    · exact ⟨[], by simpa using List.splitOn_eq_singleton h.2.1⟩
    · refine ⟨l.splitOn '/', ?_⟩
      rw [List.append_assoc, List.singleton_append, List.splitOn_append_cons_self,
        List.splitOn_eq_singleton h.2.1]
  obtain ⟨parts, hparts⟩ := hsplit
  obtain ⟨front, hfront, hend⟩ := clean_concat h hparts
  rw [hjoin, hfront, base_concat h hend]

end RockchipDra.Go.Filepath
