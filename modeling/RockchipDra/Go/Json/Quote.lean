import Mathlib.Tactic

/-!
# JSON strings as `encoding/json` writes and reads them

A text is a list of bytes. `quote` writes a string the way `json.Marshal` does: the control
characters, the quotation mark, the backslash and what HTML gives a meaning to are escaped, and
every other character stands as its UTF-8 bytes. `scanString` finds the closing quotation mark the
way the decoder's scanner does, and `unquote` takes the escapes back. Bytes that are not UTF-8 are
read as the replacement character.

`scanString_quote` and `unquote_quote` say that a string is read as it was written, and
`scanString_append` that the scanner does not look past the closing mark.
-/

namespace RockchipDra.Go.Json

/-- A text of bytes. -/
abbrev Bytes := List UInt8

/-! ## Writing -/

/-- The escapes of two characters: the character, and the byte after the backslash. -/
def escapes : List (Char × UInt8) :=
  [('"', 0x22), ('\\', 0x5c), ('\x08', 0x62), ('\x0c', 0x66), ('\n', 0x6e), ('\r', 0x72),
    ('\t', 0x74)]

/-- The byte after the backslash for a character that has such an escape. -/
def shortEscape (c : Char) : Option UInt8 := (escapes.find? fun p => p.1 = c).map Prod.snd

/-- The lower case hexadecimal digit of a number below sixteen. -/
def hexDigit (n : ℕ) : UInt8 := UInt8.ofNat (if n < 10 then 0x30 + n else 0x57 + n)

/-- The escape of a character by its number. -/
def unicodeEscape (n : ℕ) : Bytes :=
  [0x5c, 0x75, hexDigit (n / 4096 % 16), hexDigit (n / 256 % 16), hexDigit (n / 16 % 16),
    hexDigit (n % 16)]

/-- Characters that are escaped by their number where they have no other escape: control characters,
those with a meaning in HTML, and the two line separators that JavaScript does not allow in
strings. -/
def needsEscape (c : Char) : Bool :=
  c.toNat < 0x20 || c ∈ ['<', '>', '&', '\u2028', '\u2029']

/-- One character of a string as it is written. -/
def quoteChar (c : Char) : Bytes :=
  match shortEscape c with
  | some e => [0x5c, e]
  | none => if needsEscape c then unicodeEscape c.toNat else String.utf8EncodeChar c

/-- A string as it is written, without the quotation marks. -/
def quote (s : String) : Bytes := s.toList.flatMap quoteChar

/-! ## Reading -/

/-- The character of an escape of two characters. The reader knows one more than the writer. -/
def unescape (e : UInt8) : Option Char :=
  if e = 0x2f then some '/' else (escapes.find? fun p => p.2 = e).map Prod.fst

/-- The value of a hexadecimal digit. -/
def hexValue (b : UInt8) : Option ℕ :=
  let n := b.toNat
  if 0x30 ≤ n ∧ n ≤ 0x39 then some (n - 0x30)
  else if 0x61 ≤ n ∧ n ≤ 0x66 then some (n - 0x57)
  else if 0x41 ≤ n ∧ n ≤ 0x46 then some (n - 0x37)
  else none

/-- `scanner` inside a string: the bytes before the closing quotation mark, and those after it. -/
def scanString : Bytes → Option (Bytes × Bytes)
  | [] => none
  | b :: rest =>
    if b = 0x22 then some ([], rest)
    else if b = 0x5c then
      match rest with
      | [] => none
      | e :: rest =>
        if (unescape e).isSome then (scanString rest).map fun r => (b :: e :: r.1, r.2)
        else if e = 0x75 then
          match rest with
          | h₁ :: h₂ :: h₃ :: h₄ :: rest =>
            if [h₁, h₂, h₃, h₄].all fun h => (hexValue h).isSome then
              (scanString rest).map fun r => (b :: e :: h₁ :: h₂ :: h₃ :: h₄ :: r.1, r.2)
            else none
          | _ => none
        else none
    else if b < 0x20 then none
    else (scanString rest).map fun r => (b :: r.1, r.2)

/-- `getu4`: the number of an escape by number at the start of a text, and what follows it. -/
def getu4 : Bytes → Option (ℕ × Bytes)
  | b :: e :: h₁ :: h₂ :: h₃ :: h₄ :: rest =>
    if b = 0x5c ∧ e = 0x75 then
      match hexValue h₁, hexValue h₂, hexValue h₃, hexValue h₄ with
      | some n₁, some n₂, some n₃, some n₄ => some (4096 * n₁ + 256 * n₂ + 16 * n₃ + n₄, rest)
      | _, _, _, _ => none
    else none
  | _ => none

/-- The character that stands for what is not one. -/
def replacementChar : Char := '\ufffd'

/-- `utf16.IsSurrogate`. -/
def isSurrogate (n : ℕ) : Bool := 0xd800 ≤ n && n < 0xe000

/-- `utf16.DecodeRune` of two surrogates that make a pair. -/
def decodeSurrogates (n m : ℕ) : Option Char :=
  if 0xd800 ≤ n ∧ n < 0xdc00 ∧ 0xdc00 ≤ m ∧ m < 0xe000 then
    some (Char.ofNat ((n - 0xd800) * 0x400 + (m - 0xdc00) + 0x10000))
  else none

/-- `utf8.DecodeRune`: the first character of a text, and the number of its bytes. -/
def decodeRune (b : Bytes) : Char × ℕ :=
  match b.toByteArray.utf8DecodeChar? 0 with
  | some c => (c, c.utf8Size)
  | none => (replacementChar, 1)

/-- The characters of a scanned string, of which there are at most as many as the first argument
says. -/
def unquote : ℕ → Bytes → List Char
  | 0, _ => []
  | _ + 1, [] => []
  | n + 1, b :: rest =>
    if b = 0x5c then
      match getu4 (b :: rest) with
      | some (r, rest) =>
        if isSurrogate r then
          -- A second surrogate is consumed only where the two make a pair.
          match (getu4 rest).bind fun p => (decodeSurrogates r p.1).map fun c => (c, p.2) with
          | some (c, rest) => c :: unquote n rest
          | none => replacementChar :: unquote n rest
        else Char.ofNat r :: unquote n rest
      | none =>
        match rest with
        | [] => []
        | e :: rest =>
          match unescape e with
          | some c => c :: unquote n rest
          | none => []
    else
      let r := decodeRune (b :: rest)
      r.1 :: unquote n ((b :: rest).drop r.2)

/-! ## Reading what was written -/

/-- Every escape of two characters is read as it was written. -/
theorem unescape_of_shortEscape {c : Char} {e : UInt8} (h : shortEscape c = some e) :
    unescape e = some c := by
  obtain ⟨p, hp, rfl⟩ := Option.map_eq_some_iff.mp h
  have hmem := List.mem_of_find?_eq_some hp
  have hc : p.1 = c := by simpa using List.find?_some hp
  have htable : ∀ p ∈ escapes, unescape p.2 = some p.1 := by decide
  rw [htable p hmem, hc]

theorem hexValue_hexDigit {n : ℕ} (h : n < 16) : hexValue (hexDigit n) = some n := by
  interval_cases n <;> decide

/-- A byte that stands for itself in a string. -/
def isPlain (b : UInt8) : Bool := b ≠ 0x22 && b ≠ 0x5c && !(b < 0x20)

theorem isPlain_iff (b : UInt8) :
    isPlain b = true ↔ b.toNat ≠ 0x22 ∧ b.toNat ≠ 0x5c ∧ 0x20 ≤ b.toNat := by
  simp only [isPlain, ne_eq, decide_not, Bool.and_eq_true, Bool.not_eq_eq_eq_not, Bool.not_true,
    decide_eq_false_iff_not, ← UInt8.toNat_inj, UInt8.lt_iff_toNat_lt, not_lt]
  rw [and_assoc]
  rfl

/-- A character that is not escaped, by its number. -/
theorem toNat_of_not_escaped {c : Char} (hshort : shortEscape c = none)
    (hneeds : needsEscape c = false) : c.toNat ≠ 0x22 ∧ c.toNat ≠ 0x5c ∧ 0x20 ≤ c.toNat := by
  have hmem : ∀ p ∈ escapes, p.1 ≠ c := by
    intro p hp hc
    rw [shortEscape, Option.map_eq_none_iff, List.find?_eq_none] at hshort
    exact hshort p hp (decide_eq_true hc)
  have hne : ∀ d : Char, d ≠ c → c.toNat ≠ d.toNat := fun d hd h => hd (Char.toNat_inj.mp h.symm)
  simp only [needsEscape, Bool.or_eq_false_iff, decide_eq_false_iff_not, not_lt] at hneeds
  exact ⟨hne '"' (hmem ('"', 0x22) (by decide)), hne '\\' (hmem ('\\', 0x5c) (by decide)), hneeds.1⟩

/-- The bytes of a character that is not escaped stand for themselves. -/
theorem isPlain_of_mem_utf8EncodeChar {c : Char} (hshort : shortEscape c = none)
    (hneeds : needsEscape c = false) : ∀ b ∈ String.utf8EncodeChar c, isPlain b = true := by
  obtain ⟨hquote, hbackslash, hcontrol⟩ := toNat_of_not_escaped hshort hneeds
  have hc : c.val.toNat = c.toNat := rfl
  intro b hb
  rw [isPlain_iff]
  -- One byte for ASCII; the bytes of longer encodings are at least 0x80.
  unfold String.utf8EncodeChar at hb
  simp only [hc] at hb
  split_ifs at hb
  all_goals
    simp only [List.mem_cons, List.not_mem_nil, or_false] at hb
    rcases hb with rfl | rfl | rfl | rfl <;> rw [UInt8.toNat_ofNat'] <;> omega

/-! ### The scanner, one item at a time -/

theorem scanString_close (rest : Bytes) : scanString (0x22 :: rest) = some ([], rest) := by
  rw [scanString.eq_def]
  rfl

theorem scanString_short {e : UInt8} (he : (unescape e).isSome = true) (rest : Bytes) :
    scanString (0x5c :: e :: rest) = (scanString rest).map fun r => (0x5c :: e :: r.1, r.2) := by
  rw [scanString.eq_def]
  simp [he]

theorem scanString_unicode {h₁ h₂ h₃ h₄ : UInt8}
    (hhex : ([h₁, h₂, h₃, h₄].all fun h => (hexValue h).isSome) = true) (rest : Bytes) :
    scanString (0x5c :: 0x75 :: h₁ :: h₂ :: h₃ :: h₄ :: rest) =
      (scanString rest).map fun r => (0x5c :: 0x75 :: h₁ :: h₂ :: h₃ :: h₄ :: r.1, r.2) := by
  have hu : (unescape 0x75).isSome = false := by decide
  rw [scanString.eq_def]
  simp only [hu, hhex, if_true, Bool.false_eq_true, if_false]
  rfl

theorem scanString_cons {b : UInt8} (hb : isPlain b = true) (rest : Bytes) :
    scanString (b :: rest) = (scanString rest).map fun r => (b :: r.1, r.2) := by
  simp only [isPlain, ne_eq, decide_not, Bool.and_eq_true, Bool.not_eq_eq_eq_not, Bool.not_true,
    decide_eq_false_iff_not] at hb
  obtain ⟨⟨hquote, hbackslash⟩, hcontrol⟩ := hb
  rw [scanString.eq_def]
  simp only [hquote, hbackslash, hcontrol, if_false]

/-- Bytes that stand for themselves are passed over. -/
theorem scanString_plain {l : Bytes} (hl : ∀ b ∈ l, isPlain b = true) (rest : Bytes) :
    scanString (l ++ rest) = (scanString rest).map fun r => (l ++ r.1, r.2) := by
  induction l with
  | nil => simp
  | cons b l ih =>
    rw [List.cons_append, scanString_cons (hl b List.mem_cons_self),
      ih fun b hb => hl b (List.mem_cons_of_mem _ hb), Option.map_map]
    rfl

/-- A quoted character is passed over. -/
theorem scanString_quoteChar (c : Char) (rest : Bytes) :
    scanString (quoteChar c ++ rest) =
      (scanString rest).map fun r => (quoteChar c ++ r.1, r.2) := by
  unfold quoteChar
  cases hshort : shortEscape c with
  | some e => exact scanString_short (by rw [unescape_of_shortEscape hshort]; rfl) rest
  | none =>
    cases hneeds : needsEscape c with
    | false => exact scanString_plain (isPlain_of_mem_utf8EncodeChar hshort hneeds) rest
    | true =>
      have hdigit : ∀ n, (hexValue (hexDigit (n % 16))).isSome = true := by
        intro n
        rw [hexValue_hexDigit (Nat.mod_lt n (by decide))]
        rfl
      exact scanString_unicode (by simp [hdigit]) rest

/-- The scanner finds the end of a quoted string. -/
theorem scanString_quote (s : String) (rest : Bytes) :
    scanString (quote s ++ 0x22 :: rest) = some (quote s, rest) := by
  unfold quote
  induction s.toList with
  | nil => exact scanString_close rest
  | cons c l ih =>
    rw [List.flatMap_cons, List.append_assoc, scanString_quoteChar, ih]
    rfl

/-- The scanner does not look past the closing quotation mark. -/
theorem scanString_append {b raw rest : Bytes} (h : scanString b = some (raw, rest)) (q : Bytes) :
    scanString (b ++ q) = some (raw, rest ++ q) := by
  fun_induction scanString b generalizing raw rest with
  -- The cases that go on are the closing mark, the two escapes, and a plain byte.
  | case2 tail =>
    cases h
    exact scanString_close _
  | case4 e tail he _ ih =>
    obtain ⟨r, hr, heq⟩ := Option.map_eq_some_iff.mp h
    cases heq
    rw [List.cons_append, List.cons_append, scanString_short he, ih hr]
    rfl
  | case5 h₁ h₂ h₃ h₄ tail hhex _ _ ih =>
    obtain ⟨r, hr, heq⟩ := Option.map_eq_some_iff.mp h
    cases heq
    simp only [List.cons_append]
    rw [scanString_unicode hhex, ih hr]
    rfl
  | case10 b tail hquote hbackslash hcontrol ih =>
    obtain ⟨r, hr, heq⟩ := Option.map_eq_some_iff.mp h
    cases heq
    rw [List.cons_append, scanString_cons (by simp [isPlain, hquote, hbackslash, hcontrol]), ih hr]
    rfl
  | _ => cases h

/-! ### Taking the escapes back -/

/-- An escape by number is read as it was written. -/
theorem getu4_unicodeEscape {n : ℕ} (hn : n < 65536) (rest : Bytes) :
    getu4 (unicodeEscape n ++ rest) = some (n, rest) := by
  have hdigit : ∀ k, hexValue (hexDigit (k % 16)) = some (k % 16) :=
    fun k => hexValue_hexDigit (Nat.mod_lt k (by decide))
  have hvalue :
      4096 * (n / 4096 % 16) + 256 * (n / 256 % 16) + 16 * (n / 16 % 16) + n % 16 = n := by
    omega
  simp only [unicodeEscape, List.cons_append, List.nil_append, getu4, hdigit, and_self, if_true,
    hvalue]

theorem getu4_of_ne {e : UInt8} (he : e ≠ 0x75) (rest : Bytes) :
    getu4 (0x5c :: e :: rest) = none := by
  unfold getu4
  split
  · rename_i heq
    cases heq
    rw [if_neg fun h => he h.2]
  · rfl

/-- The characters that are escaped by their number are few. -/
theorem toNat_of_needsEscape {c : Char} (h : needsEscape c = true) : c.toNat < 0x2030 := by
  simp only [needsEscape, Bool.or_eq_true, decide_eq_true_eq, List.mem_cons, List.not_mem_nil,
    or_false] at h
  rcases h with h | rfl | rfl | rfl | rfl | rfl
  · omega
  all_goals decide

/-- The first character of a text that starts with its bytes. -/
theorem decodeRune_utf8EncodeChar (c : Char) (rest : Bytes) :
    decodeRune (String.utf8EncodeChar c ++ rest) = (c, c.utf8Size) := by
  unfold decodeRune
  rw [List.toByteArray_append, ByteArray.utf8DecodeChar?_utf8EncodeChar_append]

/-- One character is read as it was written. -/
theorem unquote_quoteChar (n : ℕ) (c : Char) (rest : Bytes) :
    unquote (n + 1) (quoteChar c ++ rest) = c :: unquote n rest := by
  unfold quoteChar
  cases hshort : shortEscape c with
  | some e =>
    have he := unescape_of_shortEscape hshort
    have hgetu4 : getu4 (0x5c :: e :: rest) = none := getu4_of_ne (by rintro rfl; cases he) rest
    change unquote (n + 1) (0x5c :: e :: rest) = _
    simp only [unquote, if_true, hgetu4, he]
  | none =>
    cases hneeds : needsEscape c with
    | true =>
      -- The numbers that are written as escapes lie below the surrogates.
      have hn := toNat_of_needsEscape hneeds
      have hgetu4 := getu4_unicodeEscape (n := c.toNat) (by omega) rest
      have hsurrogate : isSurrogate c.toNat = false := by
        simp only [isSurrogate, Bool.and_eq_false_iff, decide_eq_false_iff_not]
        omega
      change unquote (n + 1) (unicodeEscape c.toNat ++ rest) = _
      unfold unicodeEscape at hgetu4 ⊢
      simp only [List.cons_append, List.nil_append] at hgetu4 ⊢
      simp only [unquote, if_true, hgetu4, hsurrogate, Bool.false_eq_true, if_false]
      rw [Char.ofNat_toNat]
    | false =>
      have hplain := isPlain_of_mem_utf8EncodeChar hshort hneeds
      have hrune := decodeRune_utf8EncodeChar c rest
      have hlength := String.length_utf8EncodeChar c
      change unquote (n + 1) (String.utf8EncodeChar c ++ rest) = _
      cases hbytes : String.utf8EncodeChar c with
      | nil =>
        rw [hbytes] at hlength
        exact absurd hlength.symm c.utf8Size_pos.ne'
      | cons b l =>
        rw [hbytes] at hplain hrune hlength
        have hb : b ≠ 0x5c := by
          have := (isPlain_iff b).mp (hplain b List.mem_cons_self)
          rintro rfl
          exact this.2.1 rfl
        rw [List.cons_append] at hrune ⊢
        simp only [unquote, hb, if_false, hrune]
        rw [← hlength, List.length_cons, List.drop_succ_cons, List.drop_left]

/-- A string is read as it was written. -/
theorem unquote_quote (s : String) {n : ℕ} (hn : s.toList.length ≤ n) :
    unquote n (quote s) = s.toList := by
  unfold quote
  generalize s.toList = l at hn
  induction l generalizing n with
  | nil => cases n <;> rfl
  | cons c l ih =>
    cases n with
    | zero => cases hn
    | succ n =>
      rw [List.flatMap_cons, unquote_quoteChar, ih (by simpa using hn)]

/-- A string is written with at least one byte for each character. -/
theorem length_le_length_quote (s : String) : s.toList.length ≤ (quote s).length := by
  unfold quote
  induction s.toList with
  | nil => exact Nat.le_refl 0
  | cons c l ih =>
    have hc : 0 < (quoteChar c).length := by
      unfold quoteChar
      cases shortEscape c with
      | some e => exact Nat.succ_pos 1
      | none =>
        cases needsEscape c with
        | true => exact Nat.succ_pos 5
        | false =>
          change 0 < (String.utf8EncodeChar c).length
          rw [String.length_utf8EncodeChar]
          exact c.utf8Size_pos
    rw [List.flatMap_cons, List.length_cons, List.length_append]
    omega

end RockchipDra.Go.Json
