import Mathlib.Data.String.Basic
import Mathlib.Tactic

/-!
# Maps with string keys, and the loops over them

A Go map with string keys is an `ExtTreeMap`, whose equality is that of its entries. A `range` loop
over a map visits its keys in an order that the language leaves open, at every loop anew. A
`MapOrder` fixes these orders: for each loop of the program, a permutation of every list of keys.

The lemmas give the entries of a map after the loops that build and prune maps.
-/

namespace RockchipDra.Go

/-- A map with string keys. -/
abbrev GoMap (β : Type) := Std.ExtTreeMap String β

/-- The order in which each loop of a program visits the keys of a map. -/
structure MapOrder (Loop : Type) where
  /-- The keys in the order of the loop. -/
  order : Loop → List String → List String
  /-- Every key is visited once. -/
  perm : ∀ loop keys, (order loop keys).Perm keys

/-- Every loop visits the keys in increasing order. -/
def MapOrder.increasing (Loop : Type) : MapOrder Loop := ⟨fun _ keys => keys, fun _ _ => .refl _⟩

namespace Maps

variable {α β : Type}

/-- A key is visited by a loop over a map exactly when it is in the map. -/
theorem mem_order {Loop : Type} (o : MapOrder Loop) (loop : Loop) (m : GoMap β) (k : String) :
    k ∈ o.order loop m.keys ↔ k ∈ m := by
  rw [(o.perm loop m.keys).mem_iff, Std.ExtTreeMap.mem_keys]

theorem getElem?_insert (m : GoMap β) (k a : String) (v : β) :
    (m.insert k v)[a]? = if k = a then some v else m[a]? := by
  rw [Std.ExtTreeMap.getElem?_insert]
  simp only [compare_eq_iff_eq]

theorem getElem?_erase (m : GoMap β) (k a : String) :
    (m.erase k)[a]? = if k = a then none else m[a]? := by
  rw [Std.ExtTreeMap.getElem?_erase]
  simp only [compare_eq_iff_eq]

/-- Erasing a key that is not there changes nothing. -/
theorem erase_of_not_mem {m : GoMap β} {k : String} (h : k ∉ m) : m.erase k = m := by
  refine Std.ExtTreeMap.ext_getElem? fun a => ?_
  rw [getElem?_erase]
  split_ifs with ha
  · rw [← ha, Std.ExtTreeMap.getElem?_eq_none h]
  · rfl

theorem erase_erase (m : GoMap β) (k : String) : (m.erase k).erase k = m.erase k := by
  refine erase_of_not_mem ?_
  simp

/-- Erasing a key undoes its insertion. -/
theorem erase_insert (m : GoMap β) (k : String) (v : β) : (m.insert k v).erase k = m.erase k := by
  refine Std.ExtTreeMap.ext_getElem? fun a => ?_
  rw [getElem?_erase, getElem?_erase, getElem?_insert]
  split_ifs <;> rfl

/-- Inserting the entry that is there changes nothing. -/
theorem insert_of_getElem? {m : GoMap β} {k : String} {v : β} (h : m[k]? = some v) :
    m.insert k v = m := by
  refine Std.ExtTreeMap.ext_getElem? fun a => ?_
  rw [getElem?_insert]
  split_ifs with ha
  · rw [← ha, h]
  · rfl

theorem insert_insert (m : GoMap β) (k : String) (v : β) :
    (m.insert k v).insert k v = m.insert k v := by
  refine insert_of_getElem? ?_
  rw [getElem?_insert, if_pos rfl]

/-- The entries after inserting a list in turn: the last insertion of a key counts. -/
theorem getElem?_foldl_insert (key : α → String) (val : α → β) (l : List α) (m : GoMap β)
    (k : String) :
    (l.foldl (fun m a => m.insert (key a) (val a)) m)[k]? =
      ((l.reverse.find? fun a => key a = k).map val).or m[k]? := by
  induction l generalizing m with
  | nil => simp
  | cons a l ih =>
    rw [List.foldl_cons, ih, List.reverse_cons, List.find?_append]
    -- A later entry for the key hides the first one.
    cases h : l.reverse.find? fun a => key a = k with
    | some b => simp
    | none =>
      by_cases hk : key a = k
      · simp [hk]
      · simp [hk, Std.ExtTreeMap.getElem?_insert]

/-- Inserting the entries of a map into an empty one gives the map. -/
theorem foldl_insert_toList (m : GoMap β) :
    m.toList.foldl (fun acc p => acc.insert p.1 p.2) (∅ : GoMap β) = m := by
  refine Std.ExtTreeMap.ext_getElem? fun k => ?_
  rw [getElem?_foldl_insert Prod.fst Prod.snd, Std.ExtTreeMap.getElem?_empty, Option.or_none]
  cases hfind : m.toList.reverse.find? fun p => p.1 = k with
  | some p =>
    have hkey : p.1 = k := by simpa using List.find?_some hfind
    have hmem := List.mem_reverse.mp (List.mem_of_find?_eq_some hfind)
    rw [← hkey, Std.ExtTreeMap.mem_toList_iff_getElem?_eq_some.mp hmem, Option.map_some]
  | none =>
    rw [Option.map_none, eq_comm, Option.eq_none_iff_forall_ne_some]
    intro v hv
    have hmem := List.mem_reverse.mpr (Std.ExtTreeMap.mem_toList_iff_getElem?_eq_some.mpr hv)
    simpa using List.find?_eq_none.mp hfind _ hmem

/-- The entries after a loop that inserts at most its own key. -/
theorem getElem?_foldl_update (f : String → Option β) (l : List String) (m : GoMap β) (k : String) :
    (l.foldl (fun m a => (f a).elim m (m.insert a)) m)[k]? =
      if k ∈ l then (f k).or m[k]? else m[k]? := by
  induction l generalizing m with
  | nil => simp
  | cons a l ih =>
    rw [List.foldl_cons, ih]
    -- The step at `a` can only change the entry of `a` itself.
    by_cases hk : a = k
    · subst hk
      cases hf : f a with
      | none => simp
      | some v => simp
    · have hstep : ((f a).elim m (m.insert a))[k]? = m[k]? := by
        cases f a with
        | none => rfl
        | some v => simp [Std.ExtTreeMap.getElem?_insert, hk]
      rw [hstep]
      simp [Ne.symm hk]

/-- The entries after a loop that erases the keys that `p` rejects. -/
theorem getElem?_foldl_erase (p : String → Bool) (l : List String) (m : GoMap β) (k : String) :
    (l.foldl (fun m a => if p a then m else m.erase a) m)[k]? =
      if k ∈ l ∧ p k = false then none else m[k]? := by
  induction l generalizing m with
  | nil => simp
  | cons a l ih =>
    rw [List.foldl_cons, ih]
    by_cases hk : a = k
    · subst hk
      cases p a <;> simp
    · have hstep : (if p a then m else m.erase a)[k]? = m[k]? := by
        split_ifs
        · rfl
        · simp [Std.ExtTreeMap.getElem?_erase, hk]
      rw [hstep]
      simp [Ne.symm hk]

end Maps

end RockchipDra.Go
