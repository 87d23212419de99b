import Mathlib.Tactic

/-!
# The string functions of the Go standard library

The functions of `strings` and `strconv` that the driver calls, on Lean strings. They are defined on
the characters of a string, so that they evaluate in the kernel. `toLower` is exact on the
characters that it can map to an ASCII letter, which is all that a search for an ASCII text can see,
and `toUpper` on ASCII text, which the types and blocks of devices are.
-/

namespace RockchipDra.Go.Strings

/-- `unicode.IsSpace`. -/
def isSpace (c : Char) : Bool :=
  c ∈ ['\t', '\n', '\x0b', '\x0c', '\r', ' ', '\u0085', '\u00a0', '\u1680', '\u2028', '\u2029',
    '\u202f', '\u205f', '\u3000'] || ('\u2000' ≤ c && c ≤ '\u200a')

/-- `strings.TrimSpace`: the string without its leading and trailing white space. -/
def trimSpace (s : String) : String :=
  String.ofList ((s.toList.dropWhile isSpace).reverse.dropWhile isSpace).reverse

/-- The lower case of one character. Two characters outside ASCII have an ASCII lower case: the
Kelvin sign and the capital I with a dot. -/
def lowerRune (c : Char) : Char :=
  if c = '\u212a' then 'k' else if c = '\u0130' then 'i' else c.toLower

/-- `strings.ToLower`. -/
def toLower (s : String) : String := String.ofList (s.toList.map lowerRune)

/-- `strings.ToUpper` of ASCII text. -/
def toUpper (s : String) : String := String.ofList (s.toList.map Char.toUpper)

/-- `strings.Contains`. -/
def contains (s sub : String) : Bool := decide (sub.toList <:+: s.toList)

/-- `strings.HasPrefix`. -/
def hasPrefix (s p : String) : Bool := p.toList.isPrefixOf s.toList

/-- `strings.CutPrefix`: the rest of the string after `p`, where it starts with `p`. -/
def cutPrefix (s p : String) : Option String :=
  if hasPrefix s p then some (String.ofList (s.toList.drop p.toList.length)) else none

/-- `strings.Split` at a separator of one character. -/
def split (s : String) (sep : Char) : List String :=
  (s.toList.splitOn sep).map String.ofList

/-- `strings.Cut` at a separator of one character: what stands before and after its first
occurrence. -/
def cut (s : String) (sep : Char) : Option (String × String) :=
  match s.toList.dropWhile (· ≠ sep) with
  | [] => none
  | _ :: rest => some (String.ofList (s.toList.takeWhile (· ≠ sep)), String.ofList rest)

/-- `strings.Join`. -/
def join (parts : List String) (sep : String) : String :=
  String.ofList (sep.toList.intercalate (parts.map String.toList))

/-- `strings.ReplaceAll` of one character by another. -/
def replaceAll (s : String) (old new : Char) : String :=
  String.ofList (s.toList.map fun c => if c = old then new else c)

/-- The value of a string of decimal digits, none where another character occurs or the string is
empty. -/
def parseDigits (l : List Char) : Option ℕ :=
  if l ≠ [] ∧ l.all Char.isDigit then
    some (l.foldl (fun n c => 10 * n + (c.toNat - '0'.toNat)) 0)
  else none

/-- `strconv.Atoi`: an optional sign and decimal digits, in the range of a 64-bit `int`. -/
def atoi (s : String) : Option Int64 :=
  let value : Option ℤ :=
    match s.toList with
    | '-' :: l => (parseDigits l).map fun n => -(n : ℤ)
    | '+' :: l => (parseDigits l).map fun n => (n : ℤ)
    | l => (parseDigits l).map fun n => (n : ℤ)
  value.bind fun z => if -2^63 ≤ z ∧ z < 2^63 then some (Int64.ofInt z) else none

/-! ## Numbers at the end of a name -/

/-- The decimal digits of a number, followed by something that is no digit, are read off. -/
theorem decimal_append_inj {n n' : ℕ} {rest rest' : List Char}
    (hrest : ∀ c ∈ rest.head?, ¬c.isDigit) (hrest' : ∀ c ∈ rest'.head?, ¬c.isDigit)
    (h : (toString n).toList ++ rest = (toString n').toList ++ rest') : n = n' ∧ rest = rest' := by
  have hdigits : ∀ (n : ℕ) (rest : List Char), (∀ c ∈ rest.head?, ¬c.isDigit) →
      ((toString n).toList ++ rest).takeWhile Char.isDigit = (toString n).toList := by
    intro n rest hrest
    rw [Nat.toString_eq_repr, Nat.toList_repr, List.takeWhile_append_of_pos
      fun c hc => Nat.isDigit_of_mem_toDigits (by decide) (by decide) hc]
    cases rest with
    | nil => simp
    | cons c rest => simp [hrest c rfl]
  have hn : (toString n).toList = (toString n').toList := by
    rw [← hdigits n rest hrest, h, hdigits n' rest' hrest']
  rw [hn] at h
  refine ⟨?_, List.append_cancel_left h⟩
  have hvalue := congrArg (fun digits => Nat.ofDigitChars 10 digits 0) hn
  simpa [Nat.toString_eq_repr] using hvalue

end RockchipDra.Go.Strings
