import Mathlib.Data.String.Basic
import Mathlib.Tactic

/-!
# Sorting, comparing, and numbering slices

`slices.SortFunc` as an insertion sort over a three-way comparison, and `strings.Compare`. Go leaves
the order of elements that compare equal open; the model keeps them in their old order. That the
result is a permutation holds for every comparison, and that it is in order for a comparison by a
key (`sortFunc_ordered`). Where the keys of all elements differ there is only one such order
(`sortFunc_congr`).
-/

namespace RockchipDra.Go.Slices

variable {α : Type}

/-! ## Slices that correspond -/

/-- Every entry of a slice has a partner exactly when the slice has a slice of partners. -/
theorem exists_forall₂_iff {β : Type} {R : α → β → Prop} (l : List α) :
    (∃ l', List.Forall₂ R l l') ↔ ∀ a ∈ l, ∃ b, R a b := by
  induction l with
  | nil => simp
  | cons a l ih =>
    rw [List.forall_mem_cons, ← ih]
    constructor
    · rintro ⟨_, hab | ⟨hab, hl⟩⟩
      exact ⟨⟨_, hab⟩, _, hl⟩
    · rintro ⟨⟨b, hab⟩, l', hl⟩
      exact ⟨b :: l', .cons hab hl⟩

/-- An entry of the second slice has a partner in the first. -/
theorem exists_of_forall₂ {β : Type} {R : α → β → Prop} {l : List α} {l' : List β}
    (h : List.Forall₂ R l l') {b : β} (hb : b ∈ l') : ∃ a ∈ l, R a b := by
  obtain ⟨i, hi, rfl⟩ := List.mem_iff_getElem.mp hb
  have hlength := h.length_eq
  exact ⟨_, List.getElem_mem (hlength ▸ hi), h.get (hlength ▸ hi) hi⟩

/-! ## Sorting -/

/-- `slices.SortFunc`. Go asks for a comparison that is an order. For another one, such as a
difference of integers that overflows, its result depends on its algorithm and may differ from this
one. -/
def sortFunc (cmp : α → α → Int64) (l : List α) : List α := l.insertionSort fun a b => cmp a b ≤ 0

/-- Sorting permutes. -/
theorem sortFunc_perm (cmp : α → α → Int64) (l : List α) : (sortFunc cmp l).Perm l :=
  List.perm_insertionSort _ l

/-- `strings.Compare`. -/
def compareStrings (a b : String) : Int64 := if a < b then -1 else if a = b then 0 else 1

/-- `strings.Compare` is not positive exactly on strings in order. -/
theorem compareStrings_le_zero (a b : String) : compareStrings a b ≤ 0 ↔ a ≤ b := by
  unfold compareStrings
  split_ifs with h1 h2
  · exact iff_of_true (by decide) h1.le
  · exact iff_of_true (by decide) h2.le
  · refine iff_of_false (by decide) ?_
    intro h
    exact h1 (lt_of_le_of_ne h h2)

/-- The difference of two integers that are not negative does not overflow. -/
theorem sub_le_zero {a b : Int64} (ha : 0 ≤ a) (hb : 0 ≤ b) : a - b ≤ 0 ↔ a.toInt ≤ b.toInt := by
  rw [Int64.le_iff_toInt_le, Int64.toInt_zero] at *
  have halt := a.toInt_lt
  have hblt := b.toInt_lt
  rw [Int64.toInt_sub, Int.bmod_eq_of_le (by omega) (by omega)]
  omega

section Keys

variable {κ : Type} [LinearOrder κ]

/-- A comparison that orders the elements of a list by a key. -/
def ByKey (cmp : α → α → Int64) (key : α → κ) (l : List α) : Prop :=
  ∀ a ∈ l, ∀ b ∈ l, cmp a b ≤ 0 ↔ key a ≤ key b

/-- `strings.Compare` orders by its argument. -/
theorem byKey_compareStrings (key : α → String) (l : List α) :
    ByKey (fun a b => compareStrings (key a) (key b)) key l :=
  fun _ _ _ _ => compareStrings_le_zero _ _

/-- Sorting by a key puts the keys in order. -/
theorem sortFunc_ordered {cmp : α → α → Int64} {key : α → κ} {l : List α} (h : ByKey cmp key l) :
    (sortFunc cmp l).Pairwise fun a b => key a ≤ key b := by
  -- `cmp` need be neither total nor transitive beyond the list, so the sort by the key stands in.
  have hsame : sortFunc cmp l = l.insertionSort fun a b => key a ≤ key b := by
    have hid := List.map_insertionSort (fun a b => cmp a b ≤ 0) (fun a b => key a ≤ key b) id l h
    rw [List.map_id, List.map_id] at hid
    exact hid
  have : Std.Total fun a b : α => key a ≤ key b := ⟨fun a b => le_total (key a) (key b)⟩
  have : IsTrans α fun a b => key a ≤ key b := ⟨fun a b c => le_trans⟩
  rw [hsame]
  exact List.pairwise_insertionSort _ l

/-- Where all keys differ, they get into strictly increasing order. -/
theorem sortFunc_increasing {cmp : α → α → Int64} {key : α → κ} {l : List α} (h : ByKey cmp key l)
    (hnodup : (l.map key).Nodup) : ((sortFunc cmp l).map key).Pairwise (· < ·) := by
  have hordered : ((sortFunc cmp l).map key).Pairwise (· ≤ ·) :=
    List.pairwise_map.mpr (sortFunc_ordered h)
  have hkeys : ((sortFunc cmp l).map key).Nodup :=
    ((sortFunc_perm cmp l).map key).nodup_iff.mpr hnodup
  exact (hordered.and hkeys).imp fun h => lt_of_le_of_ne h.1 h.2

/-- Where all keys differ, the order before the sort does not matter. -/
theorem sortFunc_congr {cmp : α → α → Int64} {key : α → κ} {l l' : List α} (h : ByKey cmp key l)
    (hperm : l.Perm l') (hnodup : (l.map key).Nodup) : sortFunc cmp l = sortFunc cmp l' := by
  have h' : ByKey cmp key l' := fun a ha b hb => h a (hperm.mem_iff.mpr ha) b (hperm.mem_iff.mpr hb)
  refine List.Perm.eq_of_pairwise ?_ (sortFunc_ordered h) (sortFunc_ordered h')
    (((sortFunc_perm cmp l).trans hperm).trans (sortFunc_perm cmp l').symm)
  intro a b ha hb hab hba
  refine List.inj_on_of_nodup_map hnodup ((sortFunc_perm cmp l).mem_iff.mp ha) ?_
    (le_antisymm hab hba)
  exact hperm.mem_iff.mpr ((sortFunc_perm cmp l').mem_iff.mp hb)

/-- In a list with increasing keys the position of an element is the number of smaller keys. -/
theorem countP_lt_of_getElem? {key : α → κ} {l : List α} (h : (l.map key).Pairwise (· < ·)) {a : α}
    {i : ℕ} (ha : l[i]? = some a) : l.countP (fun b => key b < key a) = i := by
  induction l generalizing i with
  | nil => simp at ha
  | cons b l ih =>
    rw [List.map_cons, List.pairwise_cons] at h
    obtain ⟨hb, hl⟩ := h
    have hlt : ∀ c ∈ l, key b < key c := fun c hc => hb _ (List.mem_map_of_mem hc)
    cases i with
    | zero =>
      obtain rfl : b = a := by simpa using ha
      rw [List.countP_eq_zero]
      intro c hc
      rcases List.mem_cons.mp hc with rfl | hc
      · simp
      · simpa using (hlt c hc).le
    | succ i =>
      rw [List.getElem?_cons_succ] at ha
      rw [List.countP_cons_of_pos (by simpa using hlt a (List.mem_of_getElem? ha)), ih hl ha]

/-- The numbering of a list with increasing keys. -/
theorem mem_zipIdx_iff_countP {key : α → κ} {l : List α} (h : (l.map key).Pairwise (· < ·))
    (p : α × ℕ) : p ∈ l.zipIdx ↔ p.1 ∈ l ∧ p.2 = l.countP fun b => key b < key p.1 := by
  rw [List.mem_zipIdx_iff_getElem?]
  constructor
  · intro hp
    exact ⟨List.mem_of_getElem? hp, (countP_lt_of_getElem? h hp).symm⟩
  · rintro ⟨hmem, hrank⟩
    obtain ⟨i, hi⟩ := List.mem_iff_getElem?.mp hmem
    rw [hrank, countP_lt_of_getElem? h hi, hi]

end Keys

/-- Where no difference of two keys overflows, the comparison by their difference orders by them. -/
theorem byKey_sub (key : α → Int64) {l : List α} (hl : ∀ a ∈ l, 0 ≤ key a) :
    ByKey (fun a b => key a - key b) (fun a => (key a).toInt) l := by
  intro a ha b hb
  exact sub_le_zero (hl a ha) (hl b hb)

end RockchipDra.Go.Slices
