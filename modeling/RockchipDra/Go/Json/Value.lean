import Mathlib.Data.List.TakeWhile
import RockchipDra.Go.Json.Number

/-!
# JSON values

`Value.indent` writes a value as `json.MarshalIndent` does with two blanks for each level, and
`parse` reads a text as `json.Unmarshal` does before it looks at the type to decode into. The parser
is a recursive descent whose first argument bounds the recursion; `parse` gives it more than it can
use.

* `readsOn`: a value that has been read is read in the same way with more recursion and in every
  longer text, except for a number at the very end.
* `parse_indent`: a value is read as it was written.
* `parse_proper_part`: no proper part of a written object, from its start, can be read.
-/

namespace RockchipDra.Go.Json

/-- A JSON value. A number that is not written as an integer is a `fraction`. -/
inductive Value where
  | null
  | bool (b : Bool)
  | int (z : ℤ)
  | fraction
  | string (s : String)
  | array (vs : List Value)
  | object (ms : List (String × Value))

/-- A number. -/
def Value.isNumber : Value → Bool
  | .int _ => true
  | .fraction => true
  | _ => false

/-! ## Writing -/

def nullText : Bytes := [0x6e, 0x75, 0x6c, 0x6c]

def trueText : Bytes := [0x74, 0x72, 0x75, 0x65]

def falseText : Bytes := [0x66, 0x61, 0x6c, 0x73, 0x65]

/-- A new line at a level. -/
def newline (level : ℕ) : Bytes := 0x0a :: List.replicate (2 * level) 0x20

/-- The comma before the next item, if there is one. -/
def separator {α : Type} : List α → Bytes
  | [] => []
  | _ :: _ => [0x2c]

/-- A string in quotation marks. -/
def quoted (s : String) : Bytes := 0x22 :: (quote s ++ [0x22])

mutual

/-- A value as it is written at a level. -/
def Value.indent (level : ℕ) : Value → Bytes
  | .null => nullText
  | .bool true => trueText
  | .bool false => falseText
  | .int z => appendInt z
  | .fraction => [0x30, 0x2e, 0x30]
  | .string s => quoted s
  | .array [] => [0x5b, 0x5d]
  | .array (v :: vs) => 0x5b :: indentElements level (v :: vs)
  | .object [] => [0x7b, 0x7d]
  | .object (m :: ms) => 0x7b :: indentMembers level (m :: ms)

/-- The elements of an array, each on its own line, and the closing bracket. -/
def indentElements (level : ℕ) : List Value → Bytes
  | [] => newline level ++ [0x5d]
  | v :: vs =>
    newline (level + 1) ++ (v.indent (level + 1) ++ (separator vs ++ indentElements level vs))

/-- The members of an object, each on its own line, and the closing brace. -/
def indentMembers (level : ℕ) : List (String × Value) → Bytes
  | [] => newline level ++ [0x7d]
  | (k, v) :: ms =>
    newline (level + 1) ++ (quoted k ++ (0x3a :: 0x20 ::
      (v.indent (level + 1) ++ (separator ms ++ indentMembers level ms))))

end

/-! ## Reading -/

/-- White space between the items of a text. -/
def isSpace (b : UInt8) : Bool := b = 0x20 || b = 0x09 || b = 0x0a || b = 0x0d

/-- A text without the white space at its start. -/
def skipSpace (b : Bytes) : Bytes := b.dropWhile isSpace

/-- The next byte that is not white space, and what follows it. -/
def next (b : Bytes) : Option (UInt8 × Bytes) :=
  match skipSpace b with
  | [] => none
  | c :: rest => some (c, rest)

/-- What follows a given byte, where it is the next one. -/
def expect (c : UInt8) (b : Bytes) : Option Bytes :=
  (next b).bind fun p => if p.1 = c then some p.2 else none

/-- What follows a given text, where the text starts with it. -/
def stripText (text b : Bytes) : Option Bytes :=
  if text.isPrefixOf b then some (b.drop text.length) else none

/-- The string after an opening quotation mark. -/
def parseString (b : Bytes) : Option (String × Bytes) :=
  (scanString b).map fun r => (String.ofList (unquote r.1.length r.1), r.2)

/-- A key and the colon after it. -/
def parseKey (b : Bytes) : Option (String × Bytes) :=
  (expect 0x22 b).bind fun b => (parseString b).bind fun k => (expect 0x3a k.2).map fun b =>
    (k.1, b)

/-- What stands between the brackets of an array or an object: nothing, or items. -/
def parseBody {α : Type} (close : UInt8) (items : Bytes → Option (List α × Bytes)) (b : Bytes) :
    Option (List α × Bytes) :=
  (next b).bind fun c => if c.1 = close then some ([], c.2) else items b

/-- What stands after an item: the closing bracket, or a comma and more items. -/
def parseRest {α : Type} (close : UInt8) (item : α) (more : Bytes → Option (List α × Bytes))
    (b : Bytes) : Option (List α × Bytes) :=
  (next b).bind fun c =>
    if c.1 = close then some ([item], c.2)
    else if c.1 = 0x2c then (more c.2).map fun r => (item :: r.1, r.2)
    else none

mutual

/-- A value. -/
def parseValue : ℕ → Bytes → Option (Value × Bytes)
  | 0, _ => none
  | n + 1, b =>
    (next b).bind fun c =>
      if c.1 = 0x7b then (parseBody 0x7d (parseMembers n) c.2).map fun r => (.object r.1, r.2)
      else if c.1 = 0x5b then (parseBody 0x5d (parseElements n) c.2).map fun r => (.array r.1, r.2)
      else if c.1 = 0x22 then (parseString c.2).map fun r => (.string r.1, r.2)
      else if c.1 = 0x6e then (stripText nullText (c.1 :: c.2)).map fun r => (.null, r)
      else if c.1 = 0x74 then (stripText trueText (c.1 :: c.2)).map fun r => (.bool true, r)
      else if c.1 = 0x66 then (stripText falseText (c.1 :: c.2)).map fun r => (.bool false, r)
      else (scanNumber (c.1 :: c.2)).map fun r => (r.1.elim .fraction .int, r.2)

/-- The elements of an array up to its closing bracket, of which there is at least one. -/
def parseElements : ℕ → Bytes → Option (List Value × Bytes)
  | 0, _ => none
  | n + 1, b => (parseValue n b).bind fun v => parseRest 0x5d v.1 (parseElements n) v.2

/-- The members of an object up to its closing brace, of which there is at least one. -/
def parseMembers : ℕ → Bytes → Option (List (String × Value) × Bytes)
  | 0, _ => none
  | n + 1, b =>
    (parseKey b).bind fun k => (parseValue n k.2).bind fun v =>
      parseRest 0x7d (k.1, v.1) (parseMembers n) v.2

end

/-- The value of a text that holds nothing else. -/
def parse (b : Bytes) : Option Value :=
  (parseValue (b.length + 1) b).bind fun r => if skipSpace r.2 = [] then some r.1 else none

/-! ## Reading in a longer text -/

/-- A text that has more than white space keeps what follows it. -/
theorem next_append {b : Bytes} {c : UInt8 × Bytes} (h : next b = some c) (q : Bytes) :
    next (b ++ q) = some (c.1, c.2 ++ q) := by
  unfold next at h ⊢
  cases hb : skipSpace b with
  | nil =>
    rw [hb] at h
    cases h
  | cons d rest =>
    rw [hb] at h
    cases h
    have hne : skipSpace b ≠ [] := by rw [hb]; exact List.cons_ne_nil _ _
    have happend : skipSpace (b ++ q) = skipSpace b ++ q := (dropWhile_append hne q).2
    rw [happend, hb]
    rfl

theorem next_ne_nil {b : Bytes} {c : UInt8 × Bytes} (h : next b = some c) : b ≠ [] := by
  rintro rfl
  cases h

theorem expect_append {c : UInt8} {b rest : Bytes} (h : expect c b = some rest) (q : Bytes) :
    expect c (b ++ q) = some (rest ++ q) := by
  obtain ⟨d, hd, h⟩ := Option.bind_eq_some_iff.mp h
  unfold expect
  rw [next_append hd, Option.bind_some]
  split_ifs at h ⊢
  cases h
  rfl

theorem stripText_append {text b rest : Bytes} (h : stripText text b = some rest) (q : Bytes) :
    stripText text (b ++ q) = some (rest ++ q) := by
  unfold stripText at h ⊢
  split_ifs at h with htext
  cases h
  rw [List.isPrefixOf_iff_prefix] at htext
  obtain ⟨tail, rfl⟩ := htext
  rw [List.append_assoc, List.drop_left, List.drop_left, if_pos]
  exact List.isPrefixOf_iff_prefix.mpr (List.prefix_append _ _)

theorem parseString_append {b rest : Bytes} {s : String} (h : parseString b = some (s, rest))
    (q : Bytes) : parseString (b ++ q) = some (s, rest ++ q) := by
  obtain ⟨r, hr, heq⟩ := Option.map_eq_some_iff.mp h
  cases heq
  unfold parseString
  rw [scanString_append hr]
  rfl

theorem parseKey_append {b rest : Bytes} {k : String} (h : parseKey b = some (k, rest))
    (q : Bytes) :
    parseKey (b ++ q) = some (k, rest ++ q) := by
  unfold parseKey at h ⊢
  obtain ⟨b₁, hb₁, h⟩ := Option.bind_eq_some_iff.mp h
  obtain ⟨⟨s, b₂⟩, hb₂, h⟩ := Option.bind_eq_some_iff.mp h
  obtain ⟨b₃, hb₃, heq⟩ := Option.map_eq_some_iff.mp h
  cases heq
  rw [expect_append hb₁, Option.bind_some, parseString_append hb₂, Option.bind_some,
    expect_append hb₃, Option.map_some]

section Items

variable {α : Type} {close : UInt8} {items items' : Bytes → Option (List α × Bytes)}

theorem parseBody_append
    (hitems : ∀ b r, items b = some r → ∀ q, items' (b ++ q) = some (r.1, r.2 ++ q)) {b : Bytes}
    {r : List α × Bytes} (h : parseBody close items b = some r) (q : Bytes) :
    parseBody close items' (b ++ q) = some (r.1, r.2 ++ q) := by
  obtain ⟨c, hc, h⟩ := Option.bind_eq_some_iff.mp h
  unfold parseBody
  rw [next_append hc, Option.bind_some]
  split_ifs at h ⊢
  · cases h
    rfl
  · exact hitems b r h q

theorem parseRest_append
    (hitems : ∀ b r, items b = some r → ∀ q, items' (b ++ q) = some (r.1, r.2 ++ q)) {item : α}
    {b : Bytes} {r : List α × Bytes} (h : parseRest close item items b = some r)
    (q : Bytes) : b ≠ [] ∧ parseRest close item items' (b ++ q) = some (r.1, r.2 ++ q) := by
  obtain ⟨c, hc, h⟩ := Option.bind_eq_some_iff.mp h
  unfold parseRest
  rw [next_append hc, Option.bind_some]
  refine ⟨next_ne_nil hc, ?_⟩
  split_ifs at h ⊢
  · cases h
    rfl
  · obtain ⟨s, hs, heq⟩ := Option.map_eq_some_iff.mp h
    cases heq
    rw [hitems c.2 s hs]
    rfl

end Items

/-- What a text is read as stays the same with more recursion and in every longer text, except for a
number at the very end. -/
structure ReadsOn (n : ℕ) : Prop where
  value : ∀ b r, parseValue n b = some r → ∀ m, n ≤ m → ∀ q,
    q = [] ∨ r.2 ≠ [] ∨ r.1.isNumber = false → parseValue m (b ++ q) = some (r.1, r.2 ++ q)
  elements : ∀ b r, parseElements n b = some r → ∀ m, n ≤ m → ∀ q,
    parseElements m (b ++ q) = some (r.1, r.2 ++ q)
  members : ∀ b r, parseMembers n b = some r → ∀ m, n ≤ m → ∀ q,
    parseMembers m (b ++ q) = some (r.1, r.2 ++ q)

section Step

variable {n : ℕ} (ih : ReadsOn n)
include ih

/-- One more level of recursion for a value. -/
theorem ReadsOn.value_succ {b : Bytes} {r : Value × Bytes} (h : parseValue (n + 1) b = some r)
    {m : ℕ} (hm : n + 1 ≤ m) {q : Bytes} (hq : q = [] ∨ r.2 ≠ [] ∨ r.1.isNumber = false) :
    parseValue m (b ++ q) = some (r.1, r.2 ++ q) := by
  obtain ⟨k, rfl⟩ : ∃ k, m = k + 1 := ⟨m - 1, by omega⟩
  rw [parseValue] at h ⊢
  obtain ⟨c, hc, h⟩ := Option.bind_eq_some_iff.mp h
  rw [next_append hc, Option.bind_some]
  dsimp only
  split_ifs at h ⊢
  all_goals obtain ⟨s, hs, rfl⟩ := Option.map_eq_some_iff.mp h
  · rw [parseBody_append (fun b r h q => ih.members b r h k (by omega) q) hs]
    rfl
  · rw [parseBody_append (fun b r h q => ih.elements b r h k (by omega) q) hs]
    rfl
  · rw [parseString_append hs]
    rfl
  · rw [← List.cons_append, stripText_append hs]
    rfl
  · rw [← List.cons_append, stripText_append hs]
    rfl
  · rw [← List.cons_append, stripText_append hs]
    rfl
  · -- Only here the end of the text matters.
    rcases hq with rfl | hrest | hnumber
    · rw [List.append_nil, List.append_nil, hs]
      rfl
    · rw [← List.cons_append, scanNumber_append hs hrest]
      rfl
    · obtain ⟨_ | z, _⟩ := s <;> cases hnumber

/-- One more level of recursion for the elements of an array. -/
theorem ReadsOn.elements_succ {b : Bytes} {r : List Value × Bytes}
    (h : parseElements (n + 1) b = some r) {m : ℕ} (hm : n + 1 ≤ m) (q : Bytes) :
    parseElements m (b ++ q) = some (r.1, r.2 ++ q) := by
  obtain ⟨k, rfl⟩ : ∃ k, m = k + 1 := ⟨m - 1, by omega⟩
  rw [parseElements] at h ⊢
  obtain ⟨v, hv, h⟩ := Option.bind_eq_some_iff.mp h
  obtain ⟨hne, hrest⟩ := parseRest_append (fun b r h q => ih.elements b r h k (by omega) q) h q
  rw [ih.value b v hv k (by omega) q (.inr (.inl hne)), Option.bind_some]
  exact hrest

/-- One more level of recursion for the members of an object. -/
theorem ReadsOn.members_succ {b : Bytes} {r : List (String × Value) × Bytes}
    (h : parseMembers (n + 1) b = some r) {m : ℕ} (hm : n + 1 ≤ m) (q : Bytes) :
    parseMembers m (b ++ q) = some (r.1, r.2 ++ q) := by
  obtain ⟨k, rfl⟩ : ∃ k, m = k + 1 := ⟨m - 1, by omega⟩
  rw [parseMembers] at h ⊢
  obtain ⟨key, hkey, h⟩ := Option.bind_eq_some_iff.mp h
  obtain ⟨v, hv, h⟩ := Option.bind_eq_some_iff.mp h
  obtain ⟨hne, hrest⟩ := parseRest_append (fun b r h q => ih.members b r h k (by omega) q) h q
  rw [parseKey_append hkey, Option.bind_some,
    ih.value key.2 v hv k (by omega) q (.inr (.inl hne)), Option.bind_some]
  exact hrest

end Step

/-- What is read from a text is read from every longer text, with as much recursion or more. -/
theorem readsOn (n : ℕ) : ReadsOn n := by
  induction n with
  | zero => refine ⟨fun b r h => ?_, fun b r h => ?_, fun b r h => ?_⟩ <;> cases h
  | succ n ih =>
    exact
      ⟨fun _ _ h _ hm _ hq => ih.value_succ h hm hq, fun _ _ h _ hm q => ih.elements_succ h hm q,
      fun _ _ h _ hm q => ih.members_succ h hm q⟩

/-! ## Reading what was written -/

mutual

/-- How much recursion it takes to read a value. -/
def Value.weight : Value → ℕ
  | .array vs => 1 + elementsWeight vs
  | .object ms => 1 + membersWeight ms
  | _ => 1

def elementsWeight : List Value → ℕ
  | [] => 0
  | v :: vs => 1 + v.weight + elementsWeight vs

def membersWeight : List (String × Value) → ℕ
  | [] => 0
  | (_, v) :: ms => 1 + v.weight + membersWeight ms

end

theorem next_cons {c : UInt8} (hc : isSpace c = false) (rest : Bytes) :
    next (c :: rest) = some (c, rest) := by
  unfold next skipSpace
  rw [List.dropWhile_cons, hc]
  rfl

/-- A new line is passed over. -/
theorem next_newline (level : ℕ) (b : Bytes) : next (newline level ++ b) = next b := by
  have hskip : skipSpace (newline level ++ b) = skipSpace b := by
    unfold skipSpace
    refine List.dropWhile_append_of_pos ?_
    intro c hc
    rcases List.mem_cons.mp hc with rfl | hc
    · decide
    · rw [List.eq_of_mem_replicate hc]
      decide
  unfold next
  rw [hskip]

theorem parseValue_newline (n level : ℕ) (b : Bytes) :
    parseValue n (newline level ++ b) = parseValue n b := by
  cases n with
  | zero => rfl
  | succ n => rw [parseValue, parseValue, next_newline]

theorem parseString_quote (s : String) (rest : Bytes) :
    parseString (quote s ++ 0x22 :: rest) = some (s, rest) := by
  unfold parseString
  rw [scanString_quote, Option.map_some, unquote_quote s (length_le_length_quote s),
    String.ofList_toList]

/-- A key is read as it was written. -/
theorem parseKey_quoted (level : ℕ) (k : String) (rest : Bytes) :
    parseKey (newline level ++ (quoted k ++ 0x3a :: rest)) = some (k, rest) := by
  have hquote : expect 0x22 (newline level ++ (quoted k ++ 0x3a :: rest)) =
      some (quote k ++ 0x22 :: 0x3a :: rest) := by
    unfold expect quoted
    rw [next_newline, List.cons_append, next_cons (by decide), Option.bind_some, if_pos rfl,
      List.append_assoc]
    rfl
  have hcolon : expect 0x3a (0x3a :: rest) = some rest := by
    unfold expect
    rw [next_cons (by decide), Option.bind_some, if_pos rfl]
  unfold parseKey
  rw [hquote, Option.bind_some, parseString_quote, Option.bind_some, hcolon, Option.map_some]

theorem parseValue_space (n : ℕ) (b : Bytes) : parseValue n (0x20 :: b) = parseValue n b := by
  have hnext : next (0x20 :: b) = next b := rfl
  cases n with
  | zero => rfl
  | succ n => rw [parseValue, parseValue, hnext]

theorem endsNumber_cons {c : UInt8} (h : isDigit c = false ∧ c ≠ 0x2e ∧ c ≠ 0x65 ∧ c ≠ 0x45)
    (rest : Bytes) : EndsNumber (c :: rest) := by
  rintro b ⟨⟩
  exact h

theorem endsNumber_newline (level : ℕ) (rest : Bytes) : EndsNumber (newline level ++ rest) :=
  endsNumber_cons (by decide) _

/-- The first byte of a number is a digit or a sign, and starts nothing else. -/
theorem numberHead {c : UInt8} (h : c = 0x2d ∨ isDigit c = true) :
    isSpace c = false ∧ c ≠ 0x7b ∧ c ≠ 0x5b ∧ c ≠ 0x5d ∧ c ≠ 0x22 ∧ c ≠ 0x6e ∧ c ≠ 0x74 ∧
      c ≠ 0x66 := by
  rcases h with rfl | h
  · decide
  · simp only [isDigit, Bool.and_eq_true, decide_eq_true_eq, UInt8.le_iff_toNat_le,
      UInt8.reduceToNat] at h
    simp only [isSpace, Bool.or_eq_false_iff, decide_eq_false_iff_not, ← UInt8.toNat_inj, ne_eq,
      UInt8.reduceToNat]
    omega

theorem appendInt_head (z : ℤ) : ∃ c l, appendInt z = c :: l ∧ (c = 0x2d ∨ isDigit c = true) := by
  unfold appendInt
  split_ifs
  · exact ⟨0x2d, _, rfl, .inl rfl⟩
  · obtain ⟨d, l, hdl, -⟩ := decimal_cons z.natAbs
    exact ⟨d, l, hdl, .inr (isDigit_decimal z.natAbs d (by rw [hdl]; exact List.mem_cons_self))⟩

/-- A value starts with no white space and no closing bracket. -/
theorem Value.indent_head (v : Value) (level : ℕ) :
    ∃ c l, v.indent level = c :: l ∧ isSpace c = false ∧ c ≠ 0x5d := by
  cases v with
  | null => exact ⟨_, _, rfl, by decide⟩
  | bool b => cases b <;> exact ⟨_, _, rfl, by decide⟩
  | int z =>
    obtain ⟨c, l, h, hc⟩ := appendInt_head z
    obtain ⟨hspace, -, -, hclose, -⟩ := numberHead hc
    exact ⟨c, l, h, hspace, hclose⟩
  | fraction => exact ⟨_, _, rfl, by decide⟩
  | string s => exact ⟨_, _, rfl, by decide⟩
  | array vs => cases vs <;> exact ⟨_, _, rfl, by decide⟩
  | object ms => cases ms <;> exact ⟨_, _, rfl, by decide⟩

/-- What stands after an item is read as it was written, if the items after it are. -/
theorem parseRest_separator {α : Type} (close : UInt8) (more : Bytes → Option (List α × Bytes))
    (text : List α → Bytes) (level : ℕ) (hclose : isSpace close = false) (hcomma : close ≠ 0x2c)
    (hnil : text [] = newline level ++ [close]) (item : α) (items : List α) (rest : Bytes)
    (hmore : items ≠ [] → more (text items ++ rest) = some (items, rest)) :
    parseRest close item more (separator items ++ (text items ++ rest)) =
      some (item :: items, rest) := by
  unfold parseRest
  cases items with
  | nil =>
    change (next (text [] ++ rest)).bind _ = _
    rw [hnil, List.append_assoc, next_newline, List.singleton_append, next_cons hclose,
      Option.bind_some, if_pos rfl]
  | cons i items =>
    change (next (0x2c :: (text (i :: items) ++ rest))).bind _ = _
    rw [next_cons (by decide), Option.bind_some, if_neg (Ne.symm hcomma), if_pos rfl,
      hmore (List.cons_ne_nil _ _), Option.map_some]

/-- Values are read as they were written, with enough recursion. -/
structure ReadsBack (n : ℕ) : Prop where
  value : ∀ v level rest, v.weight ≤ n → EndsNumber rest →
    parseValue n (v.indent level ++ rest) = some (v, rest)
  elements : ∀ vs level rest, vs ≠ [] → elementsWeight vs ≤ n →
    parseElements n (indentElements level vs ++ rest) = some (vs, rest)
  members : ∀ ms level rest, ms ≠ [] → membersWeight ms ≤ n →
    parseMembers n (indentMembers level ms ++ rest) = some (ms, rest)

theorem parseValue_cons {c : UInt8} (hc : isSpace c = false) (n : ℕ) (b : Bytes) :
    parseValue (n + 1) (c :: b) =
      if c = 0x7b then (parseBody 0x7d (parseMembers n) b).map fun r => (.object r.1, r.2)
      else if c = 0x5b then (parseBody 0x5d (parseElements n) b).map fun r => (.array r.1, r.2)
      else if c = 0x22 then (parseString b).map fun r => (.string r.1, r.2)
      else if c = 0x6e then (stripText nullText (c :: b)).map fun r => (.null, r)
      else if c = 0x74 then (stripText trueText (c :: b)).map fun r => (.bool true, r)
      else if c = 0x66 then (stripText falseText (c :: b)).map fun r => (.bool false, r)
      else (scanNumber (c :: b)).map fun r => (r.1.elim .fraction .int, r.2) := by
  rw [parseValue, next_cons hc, Option.bind_some]

theorem stripText_self (text rest : Bytes) : stripText text (text ++ rest) = some rest := by
  unfold stripText
  rw [if_pos (List.isPrefixOf_iff_prefix.mpr (List.prefix_append _ _)), List.drop_left]

theorem elements_endsNumber (vs : List Value) (level : ℕ) (rest : Bytes) :
    EndsNumber (separator vs ++ (indentElements level vs ++ rest)) := by
  cases vs with
  | nil => exact endsNumber_newline level (0x5d :: rest)
  | cons v vs => exact endsNumber_cons (by decide) _

theorem members_endsNumber (ms : List (String × Value)) (level : ℕ) (rest : Bytes) :
    EndsNumber (separator ms ++ (indentMembers level ms ++ rest)) := by
  cases ms with
  | nil => exact endsNumber_newline level (0x7d :: rest)
  | cons m ms => exact endsNumber_cons (by decide) _

theorem parseBody_close {α : Type} {close : UInt8} (hclose : isSpace close = false)
    (items : Bytes → Option (List α × Bytes)) (rest : Bytes) :
    parseBody close items (close :: rest) = some ([], rest) := by
  unfold parseBody
  rw [next_cons hclose, Option.bind_some, if_pos rfl]

theorem parseBody_items {α : Type} {close : UInt8} {b : Bytes} {c : UInt8 × Bytes}
    (hc : next b = some c) (hclose : c.1 ≠ close) (items : Bytes → Option (List α × Bytes)) :
    parseBody close items b = items b := by
  unfold parseBody
  rw [hc, Option.bind_some, if_neg hclose]

/-- The first element of an array does not start with the closing bracket. -/
theorem next_indentElements (v : Value) (vs : List Value) (level : ℕ) (rest : Bytes) :
    ∃ c, next (indentElements level (v :: vs) ++ rest) = some c ∧ c.1 ≠ 0x5d := by
  obtain ⟨c, l, hv, hspace, hclose⟩ := v.indent_head (level + 1)
  rw [indentElements, List.append_assoc, next_newline, hv, List.cons_append, List.cons_append,
    next_cons hspace]
  exact ⟨_, rfl, hclose⟩

theorem next_indentMembers (m : String × Value) (ms : List (String × Value)) (level : ℕ)
    (rest : Bytes) : ∃ c, next (indentMembers level (m :: ms) ++ rest) = some c ∧ c.1 ≠ 0x7d := by
  rw [indentMembers, List.append_assoc, next_newline, quoted, List.cons_append, List.cons_append,
    next_cons (by decide)]
  exact ⟨_, rfl, show (0x22 : UInt8) ≠ 0x7d by decide⟩

section Step

variable {n : ℕ} (ih : ReadsBack n)
include ih

/-- One more level of recursion for a value. -/
theorem ReadsBack.value_succ (v : Value) (level : ℕ) (rest : Bytes) (hv : v.weight ≤ n + 1)
    (hrest : EndsNumber rest) : parseValue (n + 1) (v.indent level ++ rest) = some (v, rest) := by
  cases v with
  | null =>
    have hstrip := stripText_self nullText rest
    change parseValue (n + 1) (0x6e :: _) = _
    rw [parseValue_cons (by decide)]
    exact congrArg (Option.map fun r => (Value.null, r)) hstrip
  | bool b =>
    cases b with
    | true =>
      have hstrip := stripText_self trueText rest
      change parseValue (n + 1) (0x74 :: _) = _
      rw [parseValue_cons (by decide)]
      exact congrArg (Option.map fun r => (Value.bool true, r)) hstrip
    | false =>
      have hstrip := stripText_self falseText rest
      change parseValue (n + 1) (0x66 :: _) = _
      rw [parseValue_cons (by decide)]
      exact congrArg (Option.map fun r => (Value.bool false, r)) hstrip
  | int z =>
    obtain ⟨c, l, hz, hc⟩ := appendInt_head z
    obtain ⟨hspace, h₁, h₂, -, h₃, h₄, h₅, h₆⟩ := numberHead hc
    have hscan := scanNumber_appendInt z hrest
    change parseValue (n + 1) (appendInt z ++ rest) = _
    rw [hz, List.cons_append] at hscan ⊢
    rw [parseValue_cons hspace, if_neg h₁, if_neg h₂, if_neg h₃, if_neg h₄, if_neg h₅, if_neg h₆,
      hscan]
    rfl
  | fraction =>
    change parseValue (n + 1) (0x30 :: 0x2e :: 0x30 :: rest) = _
    rw [parseValue_cons (by decide)]
    exact congrArg (Option.map fun r => (r.1.elim Value.fraction Value.int, r.2))
      (scanNumber_fraction hrest)
  | string s =>
    rw [Value.indent, quoted, List.cons_append, parseValue_cons (by decide), List.append_assoc]
    exact congrArg (Option.map fun r => (Value.string r.1, r.2)) (parseString_quote s rest)
  | array vs =>
    rw [Value.weight] at hv
    cases vs with
    | nil =>
      change parseValue (n + 1) (0x5b :: 0x5d :: rest) = _
      rw [parseValue_cons (by decide), if_neg (by decide), if_pos rfl,
        parseBody_close (by decide)]
      rfl
    | cons v vs =>
      obtain ⟨c, hc, hclose⟩ := next_indentElements v vs level rest
      rw [Value.indent, List.cons_append, parseValue_cons (by decide), if_neg (by decide),
        if_pos rfl, parseBody_items hc hclose,
        ih.elements _ level rest (List.cons_ne_nil v vs) (by omega)]
      rfl
  | object ms =>
    rw [Value.weight] at hv
    cases ms with
    | nil =>
      change parseValue (n + 1) (0x7b :: 0x7d :: rest) = _
      rw [parseValue_cons (by decide), if_pos rfl, parseBody_close (by decide)]
      rfl
    | cons m ms =>
      obtain ⟨c, hc, hclose⟩ := next_indentMembers m ms level rest
      rw [Value.indent, List.cons_append, parseValue_cons (by decide), if_pos rfl,
        parseBody_items hc hclose, ih.members _ level rest (List.cons_ne_nil m ms) (by omega)]
      rfl

/-- One more level of recursion for the elements of an array. -/
theorem ReadsBack.elements_succ (vs : List Value) (level : ℕ) (rest : Bytes) (hvs : vs ≠ [])
    (hw : elementsWeight vs ≤ n + 1) :
    parseElements (n + 1) (indentElements level vs ++ rest) = some (vs, rest) := by
  obtain ⟨v, vs, rfl⟩ := List.exists_cons_of_ne_nil hvs
  rw [elementsWeight] at hw
  have hrest := parseRest_separator 0x5d (parseElements n) (indentElements level) level (by decide)
    (by decide) rfl v vs rest fun hne => ih.elements vs level rest hne (by omega)
  rw [indentElements, parseElements, List.append_assoc, parseValue_newline, List.append_assoc,
    ih.value v _ _ (by omega) (by rw [List.append_assoc]; exact elements_endsNumber vs level rest),
    Option.bind_some, List.append_assoc]
  exact hrest

/-- One more level of recursion for the members of an object. -/
theorem ReadsBack.members_succ (ms : List (String × Value)) (level : ℕ) (rest : Bytes)
    (hms : ms ≠ []) (hw : membersWeight ms ≤ n + 1) :
    parseMembers (n + 1) (indentMembers level ms ++ rest) = some (ms, rest) := by
  obtain ⟨⟨k, v⟩, ms, rfl⟩ := List.exists_cons_of_ne_nil hms
  rw [membersWeight] at hw
  have hrest := parseRest_separator 0x7d (parseMembers n) (indentMembers level) level (by decide)
    (by decide) rfl (k, v) ms rest fun hne => ih.members ms level rest hne (by omega)
  rw [indentMembers, parseMembers, List.append_assoc, List.append_assoc, List.cons_append,
    parseKey_quoted, Option.bind_some]
  dsimp only
  rw [List.cons_append, parseValue_space, List.append_assoc,
    ih.value v _ _ (by omega) (by rw [List.append_assoc]; exact members_endsNumber ms level rest),
    Option.bind_some, List.append_assoc]
  exact hrest

end Step

/-- With enough recursion, what was written is read back. -/
theorem readsBack (n : ℕ) : ReadsBack n := by
  induction n with
  | zero =>
    refine ⟨?_, ?_, ?_⟩
    · intro v level rest hv
      cases v <;> simp [Value.weight] at hv
    · intro vs level rest hvs hw
      obtain ⟨v, vs, rfl⟩ := List.exists_cons_of_ne_nil hvs
      simp [elementsWeight] at hw
    · intro ms level rest hms hw
      obtain ⟨⟨k, v⟩, ms, rfl⟩ := List.exists_cons_of_ne_nil hms
      simp [membersWeight] at hw
  | succ n ih => exact ⟨ih.value_succ, ih.elements_succ, ih.members_succ⟩

mutual

/-- A text has enough bytes to bound the recursion that reads it. -/
theorem Value.weight_le_length (level : ℕ) : ∀ v : Value, v.weight ≤ (v.indent level).length
  | .null => Nat.le_add_left 1 _
  | .bool true => Nat.le_add_left 1 _
  | .bool false => Nat.le_add_left 1 _
  | .int z => by
    obtain ⟨c, l, hz, -⟩ := appendInt_head z
    change 1 ≤ (appendInt z).length
    rw [hz, List.length_cons]
    omega
  | .fraction => Nat.le_add_left 1 _
  | .string s => by
    change 1 ≤ (quoted s).length
    rw [quoted, List.length_cons]
    omega
  | .array [] => Nat.le_add_left 1 _
  | .array (v :: vs) => by
    have h := elementsWeight_le_length level (v :: vs)
    rw [Value.weight, Value.indent, List.length_cons]
    omega
  | .object [] => Nat.le_add_left 1 _
  | .object (m :: ms) => by
    have h := membersWeight_le_length level (m :: ms)
    rw [Value.weight, Value.indent, List.length_cons]
    omega

theorem elementsWeight_le_length (level : ℕ) :
    ∀ vs : List Value, elementsWeight vs ≤ (indentElements level vs).length
  | [] => Nat.zero_le _
  | v :: vs => by
    have hv := v.weight_le_length (level + 1)
    have hvs := elementsWeight_le_length level vs
    rw [elementsWeight, indentElements, newline]
    simp only [List.length_append, List.length_cons]
    omega

theorem membersWeight_le_length (level : ℕ) :
    ∀ ms : List (String × Value), membersWeight ms ≤ (indentMembers level ms).length
  | [] => Nat.zero_le _
  | (k, v) :: ms => by
    have hv := v.weight_le_length (level + 1)
    have hms := membersWeight_le_length level ms
    rw [membersWeight, indentMembers, newline]
    simp only [List.length_append, List.length_cons]
    omega

end

/-- A value is read as it was written, with white space after it. -/
theorem parse_indent (v : Value) (level : ℕ) {space : Bytes}
    (hspace : ∀ b ∈ space, isSpace b = true) : parse (v.indent level ++ space) = some v := by
  have hends : EndsNumber space := by
    intro b hb
    have hb := hspace b (List.mem_of_mem_head? hb)
    simp only [isSpace, Bool.or_eq_true, decide_eq_true_eq] at hb
    rcases hb with ((rfl | rfl) | rfl) | rfl <;> decide
  have hskip : skipSpace space = [] := by
    unfold skipSpace
    rw [List.dropWhile_eq_nil_iff]
    exact hspace
  have hweight : v.weight ≤ (v.indent level ++ space).length + 1 := by
    have := v.weight_le_length level
    rw [List.length_append]
    omega
  unfold parse
  rw [(readsBack _).value v level space hweight hends, Option.bind_some, if_pos hskip]

/-- What is read after an opening brace is no number. -/
theorem isNumber_of_parseValue_brace {n : ℕ} {b : Bytes} {r : Value × Bytes}
    (h : parseValue n (0x7b :: b) = some r) : r.1.isNumber = false := by
  cases n with
  | zero => cases h
  | succ n =>
    rw [parseValue_cons (by decide), if_pos rfl] at h
    obtain ⟨s, -, rfl⟩ := Option.map_eq_some_iff.mp h
    rfl

/-- No proper part of a written object, from its start, can be read. -/
theorem parse_proper_part (ms : List (String × Value)) (level : ℕ) {p q : Bytes}
    (hpq : p ++ q = (Value.object ms).indent level) (hq : q ≠ []) : parse p = none := by
  have hbrace : ∃ l, (Value.object ms).indent level = 0x7b :: l := by
    cases ms with
    | nil => exact ⟨_, rfl⟩
    | cons m ms => exact ⟨_, rfl⟩
  by_contra hparse
  obtain ⟨v, hv⟩ := Option.ne_none_iff_exists'.mp hparse
  obtain ⟨r, hr, -⟩ := Option.bind_eq_some_iff.mp hv
  cases p with
  | nil => cases hr
  | cons c p =>
    obtain ⟨l, hl⟩ := hbrace
    obtain rfl : c = 0x7b := by
      rw [hl, List.cons_append] at hpq
      exact (List.cons.inj hpq).1
    -- The part would be read in the same way in the whole text, where nothing is left over.
    let m := max ((0x7b :: p).length + 1) (Value.object ms).weight
    have hwhole := (readsOn _).value _ r hr m (le_max_left _ _) q
      (.inr (.inr (isNumber_of_parseValue_brace hr)))
    have hback := (readsBack m).value (.object ms) level [] (le_max_right _ _) (by rintro b ⟨⟩)
    rw [List.append_nil, ← hpq, hwhole] at hback
    have hrest : r.2 ++ q = [] := congrArg Prod.snd (Option.some.inj hback)
    exact hq (List.append_eq_nil_iff.mp hrest).2

end RockchipDra.Go.Json
