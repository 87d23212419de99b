import RockchipDra.Go.Json.Value
import RockchipDra.Go.Maps

/-!
# Codecs between Go types and JSON

`json.Marshal` and `json.Unmarshal` go through the fields of a type. A `Codec` is what they do for
one type: a value is encoded, and it is decoded into a variable that starts with the zero value of
the type. It carries its law, that what was encoded is decoded again, so that a codec put together
from others has it as well.

A decoder meets `null` and keys that it does not know as `encoding/json` does: `null` leaves a
string, a number, or a truth value as it was and makes a slice or a map nil, and unknown keys are
passed over. The keys of a struct are compared without regard to case. The texts of the errors are
abbreviated. An element of a slice is decoded into a zero value, also where a key that occurs twice
fills a slice again.
-/

namespace RockchipDra.Go.Json

/-- How a type is encoded, and decoded into a variable. -/
structure Codec (α : Type) where
  /-- The zero value. -/
  zero : α
  encode : α → Value
  /-- The variable after a value has been decoded into it. -/
  decode : α → Value → Except String α
  /-- What was encoded is decoded again. -/
  decode_encode : ∀ a, decode zero (encode a) = .ok a

/-- The error for a value of another kind than the type. -/
def unmarshalTypeError : String := "json: cannot unmarshal"

/-! ## Strings, truth values, and integers -/

def decodeString (old : String) : Value → Except String String
  | .string s => .ok s
  | .null => .ok old
  | _ => .error unmarshalTypeError

def Codec.string : Codec String where
  zero := ""
  encode := .string
  decode := decodeString
  decode_encode _ := rfl

def decodeBool (old : Bool) : Value → Except String Bool
  | .bool b => .ok b
  | .null => .ok old
  | _ => .error unmarshalTypeError

def Codec.bool : Codec Bool where
  zero := false
  encode := .bool
  decode := decodeBool
  decode_encode _ := rfl

/-- An `int64` is decoded from an integer in its range. -/
def decodeInt64 (old : Int64) : Value → Except String Int64
  | .int z =>
    if (Int64.ofInt z).toInt = z then .ok (Int64.ofInt z) else .error unmarshalTypeError
  | .null => .ok old
  | _ => .error unmarshalTypeError

def Codec.int64 : Codec Int64 where
  zero := 0
  encode i := .int i.toInt
  decode := decodeInt64
  decode_encode i := by
    rw [decodeInt64, Int64.ofInt_toInt, if_pos rfl]

/-! ## Slices and maps -/

section Containers

variable {α : Type} (c : Codec α)

/-- The elements of a slice. -/
def Codec.decodeElements (vs : List Value) : Except String (List α) := vs.mapM (c.decode c.zero)

theorem Codec.decodeElements_encode (l : List α) :
    c.decodeElements (l.map c.encode) = .ok l := by
  unfold decodeElements
  induction l with
  | nil => rfl
  | cons a l ih =>
    rw [List.map_cons, List.mapM_cons, c.decode_encode, ih]
    rfl

/-- A slice, where `none` is nil. Its elements are decoded into zero values. Where a key occurs
twice in an object, Go decodes the second slice into the elements of the first one, so that a `null`
among them leaves the element of the first slice and not a zero value. No text that the plugin
writes has a key twice. -/
def Codec.slice : Codec (Option (List α)) where
  zero := none
  encode
    | none => .null
    | some l => .array (l.map c.encode)
  decode _
    | .null => .ok none
    | .array vs => (c.decodeElements vs).map some
    | _ => .error unmarshalTypeError
  decode_encode
    | none => rfl
    | some l => by
      dsimp only
      rw [c.decodeElements_encode]
      rfl

/-- A slice whose nil and empty values are not told apart. -/
def Codec.list : Codec (List α) where
  zero := []
  encode l := .array (l.map c.encode)
  decode _
    | .null => .ok []
    | .array vs => c.decodeElements vs
    | _ => .error unmarshalTypeError
  decode_encode l := c.decodeElements_encode l

/-- The entries of a map, which are added to those that are there. -/
def Codec.decodeEntries (old : GoMap α) (ms : List (String × Value)) : Except String (GoMap α) :=
  ms.foldlM (fun acc m => (c.decode c.zero m.2).map (acc.insert m.1)) old

theorem Codec.decodeEntries_encode (l : List (String × α)) (old : GoMap α) :
    c.decodeEntries old (l.map fun p => (p.1, c.encode p.2)) =
      .ok (l.foldl (fun acc p => acc.insert p.1 p.2) old) := by
  unfold decodeEntries
  induction l generalizing old with
  | nil => rfl
  | cons p l ih =>
    rw [List.map_cons, List.foldlM_cons, c.decode_encode, List.foldl_cons]
    exact ih _

/-- A map with string keys, whose nil and empty values are not told apart. Its keys are written in
increasing order. -/
def Codec.map : Codec (GoMap α) where
  zero := ∅
  encode m := .object (m.toList.map fun p => (p.1, c.encode p.2))
  decode old
    | .null => .ok ∅
    | .object ms => c.decodeEntries old ms
    | _ => .error unmarshalTypeError
  decode_encode m := by
    dsimp only
    rw [c.decodeEntries_encode, Maps.foldl_insert_toList]

end Containers

/-! ## Structs -/

/-- A character up to case, for the characters that are equal to an ASCII letter up to case. -/
def foldChar (c : Char) : Char :=
  -- The long s and the Kelvin sign are the only ones beyond ASCII that fold to a letter of it.
  if c = 'ſ' then 'S' else if c = '\u212a' then 'K' else c.toUpper

/-- A key up to case. -/
def foldName (key : String) : List Char := key.toList.map foldChar

/-- A field of a struct: its key, how it is encoded, and how it is decoded. -/
structure StructField (α : Type) where
  name : String
  get : α → Value
  set : α → Value → Except String α

/-- The field that a projection reads and an update sets. -/
def StructField.of {α β : Type} (name : String) (c : Codec β) (get : α → β) (set : α → β → α) :
    StructField α where
  name := name
  get a := c.encode (get a)
  set a v := (c.decode (get a) v).map (set a)

variable {α : Type}

/-- A field that has its zero value is set to what was encoded, and the other fields are decoded
after it. -/
theorem foldlM_set_of {β : Type} {name : String} {c : Codec β} {get : α → β} {set : α → β → α}
    {fields : List (StructField α)} {a b : α} (hb : get b = c.zero) :
    (.of name c get set :: fields : List (StructField α)).foldlM
        (fun b f => f.set b (f.get a)) b =
      fields.foldlM (fun b f => f.set b (f.get a)) (set b (get a)) := by
  rw [List.foldlM_cons]
  change ((c.decode (get b) (c.encode (get a))).map (set b)) >>= _ = _
  -- The law of the codec is about its zero value, which is what the field holds so far.
  rw [hb, c.decode_encode]
  rfl

/-- The field that a key means. No two fields of the structs here have names that are equal up to
case, so that one with the very name of the key need not be preferred. -/
def findField (fields : List (StructField α)) (key : String) : Option (StructField α) :=
  fields.find? fun f => foldName f.name = foldName key

/-- A struct after a member of an object has been decoded into it. -/
def decodeMember (fields : List (StructField α)) (a : α) (m : String × Value) : Except String α :=
  (findField fields m.1).elim (.ok a) fun f => f.set a m.2

theorem findField_name {fields : List (StructField α)}
    (h : (fields.map fun f => foldName f.name).Nodup) {f : StructField α}
    (hf : f ∈ fields) : findField fields f.name = some f := by
  unfold findField
  induction fields with
  | nil => cases hf
  | cons g fields ih =>
    rw [List.map_cons, List.nodup_cons] at h
    rcases List.mem_cons.mp hf with rfl | hmem
    · rw [List.find?_cons_of_pos (by simp)]
    · have hne : foldName g.name ≠ foldName f.name := by
        intro heq
        exact h.1 (heq ▸ List.mem_map_of_mem hmem)
      rw [List.find?_cons_of_neg (by simpa using hne)]
      exact ih h.2 hmem

/-- The members that a struct is encoded as are decoded field by field. -/
theorem foldlM_decodeMember {fields : List (StructField α)}
    (h : (fields.map fun f => foldName f.name).Nodup) (a : α) (l : List (StructField α))
    (hl : l ⊆ fields) (b : α) :
    (l.map fun f => (f.name, f.get a)).foldlM (decodeMember fields) b =
      l.foldlM (fun b f => f.set b (f.get a)) b := by
  induction l generalizing b with
  | nil => rfl
  | cons f l ih =>
    have hmember : decodeMember fields b (f.name, f.get a) = f.set b (f.get a) := by
      unfold decodeMember
      rw [findField_name h (hl List.mem_cons_self)]
      rfl
    rw [List.map_cons, List.foldlM_cons, List.foldlM_cons, hmember]
    congr 1
    funext b'
    exact ih (List.subset_of_cons_subset hl) b'

/-- A struct with fields whose names differ by more than case. -/
def Codec.struct (fields : List (StructField α)) (zero : α)
    (hnames : (fields.map fun f => foldName f.name).Nodup)
    (hset : ∀ a, fields.foldlM (fun b f => f.set b (f.get a)) zero = .ok a) : Codec α where
  zero := zero
  encode a := .object (fields.map fun f => (f.name, f.get a))
  decode old
    | .null => .ok old
    | .object ms => ms.foldlM (decodeMember fields) old
    | _ => .error unmarshalTypeError
  decode_encode a := by
    dsimp only
    rw [foldlM_decodeMember hnames a fields (List.Subset.refl fields), hset]

/-! ## Texts -/

/-- The error for a text that is no JSON value. -/
def syntaxError : String := "unexpected end of JSON input"

/-- The value that a text is decoded to. -/
def Codec.unmarshal (c : Codec α) (data : Bytes) : Except String α :=
  (parse data).elim (.error syntaxError) (c.decode c.zero)

/-- The text that a value is encoded as, with two blanks for each level. -/
def Codec.marshalIndent (c : Codec α) (a : α) : Bytes := (c.encode a).indent 0

/-- A text is decoded to what was encoded, with white space after it. -/
theorem Codec.unmarshal_marshalIndent (c : Codec α) (a : α) {space : Bytes}
    (hspace : ∀ b ∈ space, isSpace b = true) :
    c.unmarshal (c.marshalIndent a ++ space) = .ok a := by
  unfold unmarshal marshalIndent
  rw [parse_indent _ _ hspace]
  exact c.decode_encode a

/-- A part of the text of an object that lacks its end is not decoded. -/
theorem Codec.unmarshal_take (c : Codec α) {a : α} {ms : List (String × Value)}
    (ha : c.encode a = .object ms) {k : ℕ} (hk : k < (c.marshalIndent a).length) :
    c.unmarshal ((c.marshalIndent a).take k) = .error syntaxError := by
  have hsplit : (c.marshalIndent a).take k ++ (c.marshalIndent a).drop k =
      (Value.object ms).indent 0 := by
    rw [List.take_append_drop, ← ha]
    rfl
  have hdrop : (c.marshalIndent a).drop k ≠ [] := by
    rw [Ne, List.drop_eq_nil_iff]
    omega
  unfold unmarshal
  rw [parse_proper_part ms 0 hsplit hdrop]
  rfl

end RockchipDra.Go.Json
