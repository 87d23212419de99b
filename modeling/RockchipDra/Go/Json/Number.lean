import RockchipDra.Go.Json.Quote

/-!
# JSON numbers

Integers as `strconv.AppendInt` writes them, and numbers as the scanner of `encoding/json` reads
them. A number with a fraction or an exponent is read, but which one it is does not matter: no
integer can be decoded from it.

The end of a number is not marked. `scanNumber_appendInt` therefore asks what follows it to be no
part of a number, and `scanNumber_append` that something follows it.
-/

namespace RockchipDra.Go.Json

/-- A decimal digit. -/
def isDigit (b : UInt8) : Bool := 0x30 ≤ b && b ≤ 0x39

/-- The decimal digits of a number. -/
def decimal (n : ℕ) : Bytes :=
  if n = 0 then [0x30] else (Nat.digits 10 n).reverse.map fun d => UInt8.ofNat (0x30 + d)

/-- `strconv.AppendInt` in base ten. -/
def appendInt (z : ℤ) : Bytes := if z < 0 then 0x2d :: decimal z.natAbs else decimal z.natAbs

/-- The value of decimal digits. -/
def digitsValue (l : Bytes) : ℕ := l.foldl (fun n b => 10 * n + (b.toNat - 0x30)) 0

/-- The integer part of a number: a zero, or digits of which the first is not zero. -/
def scanInt : Bytes → Option (ℕ × Bytes)
  | [] => none
  | d :: rest =>
    if d = 0x30 then some (0, rest)
    else if isDigit d then
      some (digitsValue ((d :: rest).takeWhile isDigit), (d :: rest).dropWhile isDigit)
    else none

/-- One digit or more. -/
def skipDigits : Bytes → Option Bytes
  | [] => none
  | d :: rest => if isDigit d then some (rest.dropWhile isDigit) else none

/-- The fraction of a number, and whether there is one. -/
def scanFraction : Bytes → Option (Bool × Bytes)
  | [] => some (false, [])
  | d :: rest =>
    if d = 0x2e then (skipDigits rest).map fun r => (true, r) else some (false, d :: rest)

/-- A sign that may be missing. -/
def skipSign : Bytes → Bytes
  | [] => []
  | d :: rest => if d = 0x2b ∨ d = 0x2d then rest else d :: rest

/-- The exponent of a number, and whether there is one. -/
def scanExponent : Bytes → Option (Bool × Bytes)
  | [] => some (false, [])
  | d :: rest =>
    if d = 0x65 ∨ d = 0x45 then (skipDigits (skipSign rest)).map fun r => (true, r)
    else some (false, d :: rest)

/-- A number without its sign: its value where it is an integer, and what follows it. -/
def scanUnsigned (b : Bytes) : Option (Option ℕ × Bytes) :=
  (scanInt b).bind fun p => (scanFraction p.2).bind fun f => (scanExponent f.2).map fun e =>
    (if f.1 || e.1 then none else some p.1, e.2)

/-- A number: its value where it is an integer, and what follows it. -/
def scanNumber : Bytes → Option (Option ℤ × Bytes)
  | [] => none
  | d :: rest =>
    if d = 0x2d then (scanUnsigned rest).map fun r => (r.1.map fun n : ℕ => -(n : ℤ), r.2)
    else (scanUnsigned (d :: rest)).map fun r => (r.1.map fun n : ℕ => (n : ℤ), r.2)

/-! ## Reading what was written -/

theorem isDigit_digit {d : ℕ} (hd : d < 10) : isDigit (UInt8.ofNat (0x30 + d)) = true := by
  interval_cases d <;> decide

/-- The digits of a number are digits. -/
theorem isDigit_decimal (n : ℕ) : ∀ b ∈ decimal n, isDigit b = true := by
  unfold decimal
  split_ifs with hn
  · intro b hb
    rw [List.mem_singleton.mp hb]
    rfl
  · intro b hb
    obtain ⟨d, hd, rfl⟩ := List.mem_map.mp hb
    exact isDigit_digit (Nat.digits_lt_base (by decide) (List.mem_reverse.mp hd))

/-- The digits of a number have its value. -/
theorem digitsValue_decimal (n : ℕ) : digitsValue (decimal n) = n := by
  unfold decimal
  split_ifs with hn
  · rw [hn]
    rfl
  -- `Nat.digits` has the lowest digit first, and the text has it last.
  · have hvalue : ∀ l : List ℕ, (∀ d ∈ l, d < 10) →
        digitsValue (l.reverse.map fun d => UInt8.ofNat (0x30 + d)) = Nat.ofDigits 10 l := by
      intro l hl
      induction l with
      | nil => rfl
      | cons d l ih =>
        have hd := hl d List.mem_cons_self
        have hbyte : (UInt8.ofNat (0x30 + d)).toNat - 0x30 = d := by
          rw [UInt8.toNat_ofNat']
          omega
        have ih := ih fun d hd => hl d (List.mem_cons_of_mem _ hd)
        unfold digitsValue at ih ⊢
        rw [List.reverse_cons, List.map_append, List.foldl_append, ih, Nat.ofDigits_cons]
        simp only [List.map_cons, List.map_nil, List.foldl_cons, List.foldl_nil, hbyte]
        omega
    rw [hvalue _ fun d hd => Nat.digits_lt_base (by decide) hd, Nat.ofDigits_digits]

/-- The first digit of a number that is not zero is not zero. -/
theorem decimal_head {n : ℕ} (hn : n ≠ 0) : ∃ d l, decimal n = d :: l ∧ d ≠ 0x30 := by
  have hne : Nat.digits 10 n ≠ [] := Nat.digits_ne_nil_iff_ne_zero.mpr hn
  have hlast := Nat.getLast_digit_ne_zero 10 hn
  have hlt := Nat.digits_lt_base (b := 10) (m := n) (by decide) (List.getLast_mem hne)
  unfold decimal
  rw [if_neg hn, ← List.dropLast_append_getLast hne, List.reverse_append, List.reverse_singleton,
    List.singleton_append, List.map_cons]
  refine ⟨_, _, rfl, fun h => hlast ?_⟩
  have h := congrArg UInt8.toNat h
  rw [UInt8.toNat_ofNat'] at h
  change _ = 0x30 at h
  omega

/-- What can follow a number: nothing that is a part of one. -/
def EndsNumber (rest : Bytes) : Prop :=
  ∀ b, rest.head? = some b → isDigit b = false ∧ b ≠ 0x2e ∧ b ≠ 0x65 ∧ b ≠ 0x45

theorem takeWhile_digits {l rest : Bytes} (hl : ∀ b ∈ l, isDigit b = true)
    (hrest : EndsNumber rest) :
    (l ++ rest).takeWhile isDigit = l ∧ (l ++ rest).dropWhile isDigit = rest := by
  rw [List.takeWhile_append_of_pos hl, List.dropWhile_append_of_pos hl]
  cases rest with
  | nil => simp
  | cons b rest =>
    have hb := (hrest b rfl).1
    simp [hb]

/-- An integer part is read as it was written. -/
theorem scanInt_decimal (n : ℕ) {rest : Bytes} (hrest : EndsNumber rest) :
    scanInt (decimal n ++ rest) = some (n, rest) := by
  by_cases hn : n = 0
  · subst hn
    rfl
  · obtain ⟨d, l, hdl, hd⟩ := decimal_head hn
    have hdigits := isDigit_decimal n
    obtain ⟨htake, hdrop⟩ := takeWhile_digits hdigits hrest
    have hvalue := digitsValue_decimal n
    rw [hdl] at hdigits htake hdrop hvalue ⊢
    rw [List.cons_append] at htake hdrop ⊢
    rw [scanInt, if_neg hd, if_pos (hdigits d List.mem_cons_self), htake, hdrop, hvalue]

theorem EndsNumber.scanFraction {rest : Bytes} (h : EndsNumber rest) :
    scanFraction rest = some (false, rest) := by
  cases rest with
  | nil => rfl
  | cons b rest => exact if_neg (h b rfl).2.1

theorem EndsNumber.scanExponent {rest : Bytes} (h : EndsNumber rest) :
    scanExponent rest = some (false, rest) := by
  cases rest with
  | nil => rfl
  | cons b rest => exact if_neg (by simpa using (h b rfl).2.2)

/-- A number without a sign is read as it was written. -/
theorem scanUnsigned_decimal (n : ℕ) {rest : Bytes} (hrest : EndsNumber rest) :
    scanUnsigned (decimal n ++ rest) = some (some n, rest) := by
  unfold scanUnsigned
  rw [scanInt_decimal n hrest]
  simp [hrest.scanFraction, hrest.scanExponent]

/-- The digits of a fraction are passed over. -/
theorem scanNumber_fraction {rest : Bytes} (hrest : EndsNumber rest) :
    scanNumber (0x30 :: 0x2e :: 0x30 :: rest) = some (none, rest) := by
  have hdrop : rest.dropWhile isDigit = rest := (takeWhile_digits (l := []) (by simp) hrest).2
  have hskip : skipDigits (0x30 :: rest) = some rest := by
    rw [skipDigits, if_pos (by decide), hdrop]
  have hfraction : Json.scanFraction (0x2e :: 0x30 :: rest) = some (true, rest) := by
    rw [Json.scanFraction, if_pos rfl, hskip]
    rfl
  rw [scanNumber, if_neg (by decide), scanUnsigned, scanInt, if_pos rfl, Option.bind_some,
    hfraction, Option.bind_some, hrest.scanExponent]
  rfl

/-- The first byte of the digits of a number is not a sign. -/
theorem decimal_cons (n : ℕ) : ∃ d l, decimal n = d :: l ∧ d ≠ 0x2d := by
  have hdigits := isDigit_decimal n
  cases hdl : decimal n with
  | nil =>
    by_cases hn : n = 0
    · subst hn
      cases hdl
    · obtain ⟨d, l, h, -⟩ := decimal_head hn
      cases hdl.symm.trans h
  | cons d l =>
    rw [hdl] at hdigits
    refine ⟨d, l, rfl, ?_⟩
    rintro rfl
    cases hdigits 0x2d List.mem_cons_self

/-- An integer is read as it was written. -/
theorem scanNumber_appendInt (z : ℤ) {rest : Bytes} (hrest : EndsNumber rest) :
    scanNumber (appendInt z ++ rest) = some (some z, rest) := by
  have hunsigned := scanUnsigned_decimal z.natAbs hrest
  unfold appendInt
  split_ifs with hz
  · have habs : -(z.natAbs : ℤ) = z := by omega
    rw [List.cons_append, scanNumber, if_pos rfl, hunsigned, Option.map_some, Option.map_some, habs]
  · have habs : (z.natAbs : ℤ) = z := by omega
    obtain ⟨d, l, hdl, hd⟩ := decimal_cons z.natAbs
    rw [hdl, List.cons_append] at hunsigned ⊢
    rw [scanNumber, if_neg hd, hunsigned, Option.map_some, Option.map_some, habs]

/-! ## Reading a number that something follows -/

/-- A loop that stops before the end of a text stops there in every longer text. -/
theorem dropWhile_append {p : UInt8 → Bool} {b : Bytes} (h : b.dropWhile p ≠ []) (q : Bytes) :
    (b ++ q).takeWhile p = b.takeWhile p ∧ (b ++ q).dropWhile p = b.dropWhile p ++ q := by
  induction b with
  | nil => exact absurd rfl h
  | cons a b ih =>
    rw [List.cons_append, List.takeWhile_cons, List.takeWhile_cons, List.dropWhile_cons,
      List.dropWhile_cons]
    rw [List.dropWhile_cons] at h
    split_ifs at h ⊢ with ha
    · obtain ⟨htake, hdrop⟩ := ih h
      exact ⟨by rw [htake], hdrop⟩
    · exact ⟨rfl, rfl⟩

theorem scanInt_append {b rest : Bytes} {n : ℕ} (h : scanInt b = some (n, rest)) (hrest : rest ≠ [])
    (q : Bytes) : scanInt (b ++ q) = some (n, rest ++ q) := by
  cases b with
  | nil => cases h
  | cons d b =>
    rw [List.cons_append]
    rw [scanInt] at h ⊢
    split_ifs at h ⊢
    · cases h
      rfl
    · cases h
      obtain ⟨htake, hdrop⟩ := dropWhile_append hrest q
      rw [← List.cons_append, htake, hdrop]

theorem skipDigits_append {b rest : Bytes} (h : skipDigits b = some rest) (hrest : rest ≠ [])
    (q : Bytes) : skipDigits (b ++ q) = some (rest ++ q) := by
  cases b with
  | nil => cases h
  | cons d b =>
    rw [List.cons_append]
    rw [skipDigits] at h ⊢
    split_ifs at h ⊢
    cases h
    rw [(dropWhile_append hrest q).2]

theorem skipSign_append {b : Bytes} (h : b ≠ []) (q : Bytes) :
    skipSign (b ++ q) = skipSign b ++ q := by
  cases b with
  | nil => exact absurd rfl h
  | cons d b =>
    rw [List.cons_append]
    rw [skipSign, skipSign]
    split_ifs <;> rfl

theorem scanFraction_append {b rest : Bytes} {f : Bool} (h : scanFraction b = some (f, rest))
    (hrest : rest ≠ []) (q : Bytes) : scanFraction (b ++ q) = some (f, rest ++ q) := by
  cases b with
  | nil =>
    cases h
    exact absurd rfl hrest
  | cons d b =>
    rw [List.cons_append]
    rw [scanFraction] at h ⊢
    split_ifs at h ⊢
    · obtain ⟨r, hr, heq⟩ := Option.map_eq_some_iff.mp h
      cases heq
      rw [skipDigits_append hr hrest]
      rfl
    · cases h
      rfl

theorem scanExponent_append {b rest : Bytes} {e : Bool} (h : scanExponent b = some (e, rest))
    (hrest : rest ≠ []) (q : Bytes) : scanExponent (b ++ q) = some (e, rest ++ q) := by
  cases b with
  | nil =>
    cases h
    exact absurd rfl hrest
  | cons d b =>
    rw [List.cons_append]
    rw [scanExponent] at h ⊢
    split_ifs at h ⊢
    · obtain ⟨r, hr, heq⟩ := Option.map_eq_some_iff.mp h
      cases heq
      have hb : b ≠ [] := by
        rintro rfl
        cases hr
      rw [skipSign_append hb, skipDigits_append hr hrest]
      rfl
    · cases h
      rfl

/-- A number without a sign that something follows is read in the same way in every longer text. -/
theorem scanUnsigned_append {b rest : Bytes} {v : Option ℕ} (h : scanUnsigned b = some (v, rest))
    (hrest : rest ≠ []) (q : Bytes) : scanUnsigned (b ++ q) = some (v, rest ++ q) := by
  unfold scanUnsigned at h ⊢
  simp only [Option.bind_eq_some_iff, Option.map_eq_some_iff, Prod.mk.injEq] at h
  obtain ⟨⟨n, b₁⟩, hint, ⟨f, b₂⟩, hfraction, ⟨e, b₃⟩, hexponent, rfl, rfl⟩ := h
  -- What follows each part is not empty, because something follows the last one.
  have hb₂ : b₂ ≠ [] := by
    rintro rfl
    cases hexponent
    exact hrest rfl
  have hb₁ : b₁ ≠ [] := by
    rintro rfl
    cases hfraction
    exact hb₂ rfl
  rw [scanInt_append hint hb₁, Option.bind_some, scanFraction_append hfraction hb₂,
    Option.bind_some, scanExponent_append hexponent hrest, Option.map_some]

/-- A number that something follows is read in the same way in every longer text. -/
theorem scanNumber_append {b rest : Bytes} {v : Option ℤ} (h : scanNumber b = some (v, rest))
    (hrest : rest ≠ []) (q : Bytes) : scanNumber (b ++ q) = some (v, rest ++ q) := by
  cases b with
  | nil => cases h
  | cons d b =>
    rw [List.cons_append]
    rw [scanNumber] at h ⊢
    split_ifs at h ⊢
    · obtain ⟨r, hr, heq⟩ := Option.map_eq_some_iff.mp h
      cases heq
      rw [scanUnsigned_append hr hrest]
      rfl
    · obtain ⟨r, hr, heq⟩ := Option.map_eq_some_iff.mp h
      cases heq
      rw [← List.cons_append, scanUnsigned_append hr hrest]
      rfl

end RockchipDra.Go.Json
