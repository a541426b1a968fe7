import Gyza.Lib.Hex
import Mathlib

/-! Canonical JSON: compact separators, sorted keys, ASCII output.

Every document is written in one way, and no document's text can be cut short
and still be one, so equal texts come from equal documents. `Doc` has the finite
floats of an arbitrary type as numbers, `Json` only integers. -/

namespace Gyza.CanonJson

/-- Numbers are integers; floats have no canonical text here. -/
inductive Json where
  | null
  | bool (value : Bool)
  | int (value : Int)
  | str (value : String)
  | arr (items : List Json)
  | obj (fields : List (String × Json))

/-- One UTF-16 code unit as four hexadecimal digits. -/
def escapeUnit (unit : Nat) : List Char :=
  ['\\', 'u', Hex.digitChar (unit / 4096 % 16), Hex.digitChar (unit / 256 % 16),
    Hex.digitChar (unit / 16 % 16), Hex.digitChar (unit % 16)]

def escapeChar (c : Char) : List Char :=
  if c = '\\' then ['\\', '\\']
  else if c = '"' then ['\\', '"']
  else if c = '\n' then ['\\', 'n']
  else if c = '\r' then ['\\', 'r']
  else if c = '\t' then ['\\', 't']
  else if c = '\x08' then ['\\', 'b']
  else if c = '\x0c' then ['\\', 'f']
  else if ' ' ≤ c ∧ c ≤ '~' then [c]
  else if c.toNat < 0x10000 then escapeUnit c.toNat
  else
    escapeUnit (0xd800 + (c.toNat - 0x10000) / 1024) ++
      escapeUnit (0xdc00 + (c.toNat - 0x10000) % 1024)

def quote (text : String) : List Char := '"' :: text.toList.flatMap escapeChar ++ ['"']

mutual
def dumpChars : Json → List Char
  | .null => "null".toList
  | .bool true => "true".toList
  | .bool false => "false".toList
  | .int value => value.repr.toList
  | .str text => quote text
  | .arr [] => ['[', ']']
  | .arr (item :: rest) => '[' :: (dumpChars item ++ dumpItems rest)
  | .obj [] => ['\x7b', '\x7d']
  | .obj ((name, value) :: rest) =>
      '\x7b' :: (quote name ++ ':' :: (dumpChars value ++ dumpFields rest))
def dumpItems : List Json → List Char
  | [] => [']']
  | item :: rest => ',' :: (dumpChars item ++ dumpItems rest)
def dumpFields : List (String × Json) → List Char
  | [] => ['\x7d']
  | (name, value) :: rest =>
      ',' :: (quote name ++ ':' :: (dumpChars value ++ dumpFields rest))
end

def dumps (document : Json) : String := String.ofList (dumpChars document)

/-- `sort_keys=True` for the fields of one object. -/
def sortKeys (fields : List (String × Json)) : List (String × Json) :=
  fields.insertionSort (fun first second => first.1 ≤ second.1)

/-! Reading one escaped character back. -/

def readUnit : List Char → Option (Nat × List Char)
  | '\\' :: 'u' :: a :: b :: c :: d :: rest => do
      let first ← Hex.digitValue a
      let second ← Hex.digitValue b
      let third ← Hex.digitValue c
      let fourth ← Hex.digitValue d
      pure (((first * 16 + second) * 16 + third) * 16 + fourth, rest)
  | _ => none

def joinPair (high low : Nat) : Nat := 0x10000 + ((high - 0xd800) * 1024 + (low - 0xdc00))

def readLong (chars : List Char) : Option (Char × List Char) := do
  let (unit, rest) ← readUnit chars
  if 0xd800 ≤ unit ∧ unit < 0xdc00 then do
    let (low, rest) ← readUnit rest
    pure (Char.ofNat (joinPair unit low), rest)
  else pure (Char.ofNat unit, rest)

def readChar : List Char → Option (Char × List Char)
  | '\\' :: '\\' :: rest => some ('\\', rest)
  | '\\' :: '"' :: rest => some ('"', rest)
  | '\\' :: 'n' :: rest => some ('\n', rest)
  | '\\' :: 'r' :: rest => some ('\r', rest)
  | '\\' :: 't' :: rest => some ('\t', rest)
  | '\\' :: 'b' :: rest => some ('\x08', rest)
  | '\\' :: 'f' :: rest => some ('\x0c', rest)
  | '\\' :: 'u' :: rest => readLong ('\\' :: 'u' :: rest)
  | c :: rest => some (c, rest)
  | [] => none

theorem readUnit_escapeUnit (unit : Nat) (bound : unit < 65536) (rest : List Char) :
    readUnit (escapeUnit unit ++ rest) = some (unit, rest) := by
  have digits : ((unit / 4096 % 16 * 16 + unit / 256 % 16) * 16 + unit / 16 % 16) * 16 +
      unit % 16 = unit := by omega
  simp only [escapeUnit, List.cons_append, List.nil_append, readUnit,
    Hex.digitValue_digitChar _ (Nat.mod_lt _ (by decide : 16 > 0)), Option.bind_eq_bind,
    Option.bind_some, Option.pure_def, digits]

theorem not_surrogate (c : Char) (short : c.toNat < 0x10000) :
    ¬ (0xd800 ≤ c.toNat ∧ c.toNat < 0xe000) := by
  have valid := c.valid
  simp only [UInt32.isValidChar, Nat.isValidChar] at valid
  change c.toNat < 55296 ∨ 57343 < c.toNat ∧ c.toNat < 1114112 at valid
  omega

theorem readLong_short (c : Char) (short : c.toNat < 0x10000) (rest : List Char) :
    readLong (escapeUnit c.toNat ++ rest) = some (c, rest) := by
  have low : ¬ (0xd800 ≤ c.toNat ∧ c.toNat < 0xdc00) := by
    have apart := not_surrogate c short
    omega
  simp [readLong, readUnit_escapeUnit c.toNat short, low]

theorem toNat_bound (c : Char) : c.toNat < 1114112 := by
  have valid := c.valid
  simp only [UInt32.isValidChar, Nat.isValidChar] at valid
  change c.toNat < 55296 ∨ 57343 < c.toNat ∧ c.toNat < 1114112 at valid
  omega

theorem readLong_pair (c : Char) (long : 0x10000 ≤ c.toNat) (rest : List Char) :
    readLong (escapeUnit (0xd800 + (c.toNat - 0x10000) / 1024) ++
      escapeUnit (0xdc00 + (c.toNat - 0x10000) % 1024) ++ rest) = some (c, rest) := by
  have bound := toNat_bound c
  obtain ⟨high, highIs⟩ : ∃ high, high = 0xd800 + (c.toNat - 0x10000) / 1024 := ⟨_, rfl⟩
  obtain ⟨low, lowIs⟩ : ∃ low, low = 0xdc00 + (c.toNat - 0x10000) % 1024 := ⟨_, rfl⟩
  rw [← highIs, ← lowIs]
  have surrogate : 0xd800 ≤ high ∧ high < 0xdc00 := by omega
  have whole : joinPair high low = c.toNat := by
    unfold joinPair
    omega
  simp only [readLong, List.append_assoc]
  rw [readUnit_escapeUnit high (by omega)]
  simp only [Option.bind_eq_bind, Option.bind_some, if_pos surrogate]
  rw [readUnit_escapeUnit low (by omega)]
  simp only [Option.bind_some, Option.pure_def, whole, Char.ofNat_toNat]

theorem readChar_escapeChar (c : Char) (rest : List Char) :
    readChar (escapeChar c ++ rest) = some (c, rest) := by
  unfold escapeChar
  split_ifs with backslash quotation newline carriage tab backspace feed printable short
  · subst backslash; rfl
  · subst quotation; rfl
  · subst newline; rfl
  · subst carriage; rfl
  · subst tab; rfl
  · subst backspace; rfl
  · subst feed; rfl
  · simp [readChar, backslash]
  · exact readLong_short c short rest
  · exact readLong_pair c (Nat.not_lt.mp short) rest

/-! Cancelling equal texts between quotes. -/

theorem escapeChar_ne_quote (c : Char) (rest tail : List Char) :
    escapeChar c ++ rest ≠ '"' :: tail := by
  intro same
  have read := readChar_escapeChar c rest
  rw [same] at read
  cases read
  simp [escapeChar] at same

theorem quoted_cancel (left right : List Char) (rest rest' : List Char)
    (same : left.flatMap escapeChar ++ '"' :: rest = right.flatMap escapeChar ++ '"' :: rest') :
    left = right ∧ rest = rest' := by
  induction left generalizing right with
  | nil =>
      cases right with
      | nil => simpa using same
      | cons c right =>
          simp only [List.flatMap_nil, List.nil_append, List.flatMap_cons, List.append_assoc] at same
          exact absurd same.symm (escapeChar_ne_quote c _ _)
  | cons c left ih =>
      cases right with
      | nil =>
          simp only [List.flatMap_nil, List.nil_append, List.flatMap_cons, List.append_assoc] at same
          exact absurd same (escapeChar_ne_quote c _ _)
      | cons d right =>
          simp only [List.flatMap_cons, List.append_assoc] at same
          have read := readChar_escapeChar c (left.flatMap escapeChar ++ '"' :: rest)
          rw [same, readChar_escapeChar] at read
          simp only [Option.some.injEq, Prod.mk.injEq] at read
          rcases read with ⟨rfl, tails⟩
          rcases ih right tails.symm with ⟨rfl, rests⟩
          exact ⟨rfl, rests⟩

theorem quote_cancel (left right : String) (rest rest' : List Char)
    (same : quote left ++ rest = quote right ++ rest') : left = right ∧ rest = rest' := by
  simp only [quote, List.cons_append, List.append_assoc, List.nil_append, List.cons.injEq,
    true_and] at same
  rcases quoted_cancel _ _ _ _ same with ⟨texts, rests⟩
  exact ⟨String.toList_injective texts, rests⟩

/-! Documents with floats. -/

/-- A document as `json.dumps` takes it; `φ` is the type of its floats, all finite. -/
inductive Doc (φ : Type) where
  | null
  | bool (value : Bool)
  | int (value : Int)
  | float (value : φ)
  | str (value : String)
  | arr (items : List (Doc φ))
  | obj (fields : List (String × Doc φ))

def isNumeral (c : Char) : Bool := c.isDigit || c = '-' || c = '+' || c = '.' || c = 'e'

/-- How floats are written: each in its own way, and never as an integer. -/
structure FloatText (φ : Type) where
  repr : φ → List Char
  injective : Function.Injective repr
  numeral : ∀ value, ∀ c ∈ repr value, isNumeral c = true
  ne_nil : ∀ value, repr value ≠ []
  ne_int : ∀ value (n : Int), repr value ≠ n.repr.toList

namespace Doc

variable {φ : Type} (repr : φ → List Char)

mutual
def chars : Doc φ → List Char
  | .null => "null".toList
  | .bool true => "true".toList
  | .bool false => "false".toList
  | .int value => value.repr.toList
  | .float value => repr value
  | .str text => quote text
  | .arr [] => ['[', ']']
  | .arr (item :: rest) => '[' :: (chars item ++ itemChars rest)
  | .obj [] => ['\x7b', '\x7d']
  | .obj ((name, value) :: rest) =>
      '\x7b' :: (quote name ++ ':' :: (chars value ++ fieldChars rest))
def itemChars : List (Doc φ) → List Char
  | [] => [']']
  | item :: rest => ',' :: (chars item ++ itemChars rest)
def fieldChars : List (String × Doc φ) → List Char
  | [] => ['\x7d']
  | (name, value) :: rest =>
      ',' :: (quote name ++ ':' :: (chars value ++ fieldChars rest))
end

def dumps (document : Doc φ) : String := String.ofList (chars repr document)

/-- The fields of a dictionary: of equal names the last is kept. -/
def lastOfEach {α : Type} (fields : List (String × α)) : List (String × α) :=
  fields.foldr (fun field kept =>
    if kept.any (fun other => other.1 = field.1) then kept else field :: kept) []

def sortFields {α : Type} (fields : List (String × α)) : List (String × α) :=
  (lastOfEach fields).insertionSort (fun first second => first.1 ≤ second.1)

mutual
/-- What reading a text gives: the keys of every object in order, each once. -/
def normal : Doc φ → Doc φ
  | .arr items => .arr (normalItems items)
  | .obj fields => .obj (sortFields (normalFields fields))
  | other => other
def normalItems : List (Doc φ) → List (Doc φ)
  | [] => []
  | item :: rest => normal item :: normalItems rest
def normalFields : List (String × Doc φ) → List (String × Doc φ)
  | [] => []
  | (name, value) :: rest => (name, normal value) :: normalFields rest
end

def get (document : Doc φ) (name : String) : Option (Doc φ) :=
  match document with
  | .obj fields => fields.lookup name
  | _ => none

end Doc

/-! Cancelling equal documents at the front of two texts. -/

/-- No numeral continues into the text. -/
def Stops (rest : List Char) : Prop := ∀ c ∈ rest.head?, isNumeral c = false

theorem repr_digits (value : Int) : ∀ c ∈ value.repr.toList, c.isDigit = true ∨ c = '-' := by
  have digits : ∀ (n : Nat), ∀ c ∈ n.repr.toList, c.isDigit = true := by
    intro n c member
    apply Nat.isDigit_of_mem_toDigits (show 0 < 10 by decide) (show 10 ≤ 10 by decide)
    simpa using member
  intro c member
  cases value with
  | ofNat n => exact Or.inl (digits n c member)
  | negSucc n =>
      simp only [Int.repr, String.toList_append, List.mem_append] at member
      rcases member with sign | member
      · exact Or.inr (by simpa using sign)
      · exact Or.inl (digits _ c member)

theorem repr_numeral (value : Int) : ∀ c ∈ value.repr.toList, isNumeral c = true := by
  intro c member
  rcases repr_digits value c member with digit | minus
  · simp [isNumeral, digit]
  · simp [isNumeral, minus]

theorem repr_ne_nil (value : Int) : value.repr.toList ≠ [] := by
  cases value with
  | ofNat n => simp [Int.repr]
  | negSucc n => simp [Int.repr]

theorem takeWhile_numeral {text : List Char} (numeral : ∀ c ∈ text, isNumeral c = true)
    {rest : List Char} (stops : Stops rest) : (text ++ rest).takeWhile isNumeral = text := by
  rw [List.takeWhile_append_of_pos numeral]
  cases rest with
  | nil => simp
  | cons c rest =>
      have stop := stops c (by simp)
      simp [stop]

/-- Two numerals in front of texts they cannot continue into are the same one. -/
theorem numeral_cancel {left right rest rest' : List Char}
    (numeral : ∀ c ∈ left, isNumeral c = true) (numeral' : ∀ c ∈ right, isNumeral c = true)
    (stops : Stops rest) (stops' : Stops rest') (same : left ++ rest = right ++ rest') :
    left = right ∧ rest = rest' := by
  have texts := congrArg (List.takeWhile isNumeral) same
  rw [takeWhile_numeral numeral stops, takeWhile_numeral numeral' stops'] at texts
  subst texts
  exact ⟨rfl, List.append_cancel_left same⟩

namespace Doc

variable {φ : Type} {floats : FloatText φ}

/-- The constructor of a document, as its first character shows it. -/
def kind : Doc φ → Nat
  | .null => 0
  | .bool true => 1
  | .bool false => 2
  | .int _ => 3
  | .float _ => 3
  | .str _ => 4
  | .arr _ => 5
  | .obj _ => 6

def charKind (c : Char) : Nat :=
  if isNumeral c then 3
  else if c = 'n' then 0
  else if c = 't' then 1
  else if c = 'f' then 2
  else if c = '"' then 4
  else if c = '[' then 5
  else if c = '\x7b' then 6
  else 7

theorem numeral_opens {text : List Char} (nonempty : text ≠ [])
    (numeral : ∀ c ∈ text, isNumeral c = true) : ∃ c tail, text = c :: tail ∧ charKind c = 3 := by
  cases text with
  | nil => exact absurd rfl nonempty
  | cons c tail => exact ⟨c, tail, rfl, by simp [charKind, numeral c]⟩

variable (floats) in
theorem chars_opens (document : Doc φ) :
    ∃ c tail, chars floats.repr document = c :: tail ∧ charKind c = kind document := by
  match document with
  | .null => exact ⟨_, _, rfl, rfl⟩
  | .bool true => exact ⟨_, _, rfl, rfl⟩
  | .bool false => exact ⟨_, _, rfl, rfl⟩
  | .int value => exact numeral_opens (repr_ne_nil value) (repr_numeral value)
  | .float value => exact numeral_opens (floats.ne_nil value) (floats.numeral value)
  | .str text => exact ⟨_, _, rfl, rfl⟩
  | .arr [] => exact ⟨_, _, rfl, rfl⟩
  | .arr (item :: rest) => exact ⟨_, _, rfl, rfl⟩
  | .obj [] => exact ⟨_, _, rfl, rfl⟩
  | .obj ((name, value) :: rest) => exact ⟨_, _, rfl, rfl⟩

theorem chars_kind {left right : Doc φ} {rest rest' : List Char}
    (same : chars floats.repr left ++ rest = chars floats.repr right ++ rest') : kind left = kind right := by
  rcases chars_opens floats left with ⟨c, tail, text, leftKind⟩
  rcases chars_opens floats right with ⟨d, tail', text', rightKind⟩
  rw [text, text'] at same
  simp only [List.cons_append, List.cons.injEq] at same
  rw [← leftKind, ← rightKind, same.1]

/-- A document never starts with the bracket that closes an empty list or object. -/
theorem chars_ne_close (document : Doc φ) (rest tail : List Char) (close : Char)
    (closing : charKind close = 7) : chars floats.repr document ++ rest ≠ close :: tail := by
  intro same
  rcases chars_opens floats document with ⟨c, text, opens, kinds⟩
  rw [opens] at same
  simp only [List.cons_append, List.cons.injEq] at same
  rw [same.1, closing] at kinds
  match document with
  | .null | .bool true | .bool false | .int _ | .float _ | .str _ | .arr _ | .obj _ =>
      simp [kind] at kinds

theorem chars_obj (repr : φ → List Char) (fields : List (String × Doc φ)) :
    ∃ tail, chars repr (.obj fields) = '\x7b' :: tail := by
  cases fields with
  | nil => exact ⟨_, rfl⟩
  | cons field rest => exact ⟨_, rfl⟩

/-- The bytes of an object start with its opening brace. -/
theorem utf8_dumps_obj (repr : φ → List Char) (fields : List (String × Doc φ)) :
    ∃ rest, Hex.utf8 (dumps repr (.obj fields)) = 0x7b :: rest := by
  rcases chars_obj repr fields with ⟨tail, opens⟩
  have brace : String.utf8EncodeChar '\x7b' = [0x7b] := by decide
  have written : Hex.utf8 (dumps repr (.obj fields)) =
      0x7b :: tail.flatMap String.utf8EncodeChar := by
    rw [dumps, opens, Hex.utf8, String.toList_ofList, List.flatMap_cons, brace,
      List.singleton_append]
  exact ⟨_, written⟩

theorem stops_itemChars (items : List (Doc φ)) (rest : List Char) :
    Stops (itemChars floats.repr items ++ rest) := by
  cases items <;> simp [Stops, itemChars, isNumeral]

theorem stops_fieldChars (fields : List (String × Doc φ)) (rest : List Char) :
    Stops (fieldChars floats.repr fields ++ rest) := by
  cases fields <;> simp [Stops, fieldChars, isNumeral]

mutual
theorem chars_cancel (left right : Doc φ) (rest rest' : List Char) (stops : Stops rest)
    (stops' : Stops rest') (same : chars floats.repr left ++ rest = chars floats.repr right ++ rest') :
    left = right ∧ rest = rest' := by
  have kinds := chars_kind same
  match left, right with
  | .null, .null => simpa [chars] using same
  | .bool true, .bool true => simpa [chars] using same
  | .bool false, .bool false => simpa [chars] using same
  | .int value, .int value' =>
      simp only [chars] at same
      rcases numeral_cancel (repr_numeral value) (repr_numeral value') stops stops' same with
        ⟨texts, rests⟩
      exact ⟨congrArg Doc.int (Int.repr_injective (String.toList_injective texts)), rests⟩
  | .int value, .float value' =>
      simp only [chars] at same
      rcases numeral_cancel (repr_numeral value) (floats.numeral value') stops stops' same with
        ⟨texts, -⟩
      exact absurd texts.symm (floats.ne_int value' value)
  | .float value, .int value' =>
      simp only [chars] at same
      rcases numeral_cancel (floats.numeral value) (repr_numeral value') stops stops' same with
        ⟨texts, -⟩
      exact absurd texts (floats.ne_int value value')
  | .float value, .float value' =>
      simp only [chars] at same
      rcases numeral_cancel (floats.numeral value) (floats.numeral value') stops stops' same with
        ⟨texts, rests⟩
      exact ⟨congrArg Doc.float (floats.injective texts), rests⟩
  | .str text, .str text' =>
      simp only [chars] at same
      rcases quote_cancel text text' rest rest' same with ⟨rfl, rests⟩
      exact ⟨rfl, rests⟩
  | .arr [], .arr [] => simpa [chars] using same
  | .arr [], .arr (item :: items) =>
      simp only [chars, List.cons_append, List.nil_append, List.append_assoc, List.cons.injEq,
        true_and] at same
      exact absurd same.symm (chars_ne_close item _ _ ']' (by decide))
  | .arr (item :: items), .arr [] =>
      simp only [chars, List.cons_append, List.nil_append, List.append_assoc, List.cons.injEq,
        true_and] at same
      exact absurd same (chars_ne_close item _ _ ']' (by decide))
  | .arr (item :: items), .arr (item' :: items') =>
      simp only [chars, List.cons_append, List.append_assoc, List.cons.injEq, true_and] at same
      rcases chars_cancel item item' _ _ (stops_itemChars items rest)
        (stops_itemChars items' rest') same with ⟨rfl, tails⟩
      rcases itemChars_cancel items items' rest rest' tails with ⟨rfl, rests⟩
      exact ⟨rfl, rests⟩
  | .obj [], .obj [] => simpa [chars] using same
  | .obj [], .obj ((name, value) :: fields) => simp [chars, quote] at same
  | .obj ((name, value) :: fields), .obj [] => simp [chars, quote] at same
  | .obj ((name, value) :: fields), .obj ((name', value') :: fields') =>
      simp only [chars, List.cons_append, List.append_assoc, List.cons.injEq, true_and] at same
      rcases quote_cancel name name' _ _ same with ⟨rfl, colon⟩
      simp only [List.cons.injEq, true_and] at colon
      rcases chars_cancel value value' _ _ (stops_fieldChars fields rest)
        (stops_fieldChars fields' rest') colon with ⟨rfl, tails⟩
      rcases fieldChars_cancel fields fields' rest rest' tails with ⟨rfl, rests⟩
      exact ⟨rfl, rests⟩
theorem itemChars_cancel (items items' : List (Doc φ)) (rest rest' : List Char)
    (same : itemChars floats.repr items ++ rest = itemChars floats.repr items' ++ rest') :
    items = items' ∧ rest = rest' := by
  match items, items' with
  | [], [] => simpa [itemChars] using same
  | [], item :: tail => simp [itemChars] at same
  | item :: tail, [] => simp [itemChars] at same
  | item :: tail, item' :: tail' =>
      simp only [itemChars, List.cons_append, List.append_assoc, List.cons.injEq, true_and] at same
      rcases chars_cancel item item' _ _ (stops_itemChars tail rest)
        (stops_itemChars tail' rest') same with ⟨rfl, tails⟩
      rcases itemChars_cancel tail tail' rest rest' tails with ⟨rfl, rests⟩
      exact ⟨rfl, rests⟩
theorem fieldChars_cancel (fields fields' : List (String × Doc φ)) (rest rest' : List Char)
    (same : fieldChars floats.repr fields ++ rest = fieldChars floats.repr fields' ++ rest') :
    fields = fields' ∧ rest = rest' := by
  match fields, fields' with
  | [], [] => simpa [fieldChars] using same
  | [], (name, value) :: tail => simp [fieldChars] at same
  | (name, value) :: tail, [] => simp [fieldChars] at same
  | (name, value) :: tail, (name', value') :: tail' =>
      simp only [fieldChars, List.cons_append, List.append_assoc, List.cons.injEq, true_and] at same
      rcases quote_cancel name name' _ _ same with ⟨rfl, colon⟩
      simp only [List.cons.injEq, true_and] at colon
      rcases chars_cancel value value' _ _ (stops_fieldChars tail rest)
        (stops_fieldChars tail' rest') colon with ⟨rfl, tails⟩
      rcases fieldChars_cancel tail tail' rest rest' tails with ⟨rfl, rests⟩
      exact ⟨rfl, rests⟩
end

theorem dumps_injective (floats : FloatText φ) : Function.Injective (dumps floats.repr) := by
  intro left right same
  have texts := congrArg String.toList same
  simp only [dumps, String.toList_ofList] at texts
  have stops : Stops [] := by simp [Stops]
  exact (chars_cancel left right [] [] stops stops (by simpa using texts)).1

end Doc

/-- Floats without a fraction, written as `3.0`. -/
def wholeFloats : FloatText Int where
  repr value := value.repr.toList ++ ['.', '0']
  injective left right same :=
    Int.repr_injective (String.toList_injective (List.append_cancel_right same))
  numeral value c member := by
    rcases List.mem_append.mp member with digit | tail
    · exact repr_numeral value c digit
    · have fraction : c = '.' ∨ c = '0' := by simpa using tail
      rcases fraction with rfl | rfl
      · rfl
      · rfl
  ne_nil value := by simp
  ne_int value n same := by
    have point : '.' ∈ n.repr.toList := by simp [← same]
    rcases repr_digits n '.' point with digit | minus
    · exact absurd digit (by decide)
    · exact absurd minus (by decide)

/-- Floats written by way of an injection into others. -/
def FloatText.comap {φ ψ : Type} (floats : FloatText φ) (embed : ψ → φ)
    (embed_injective : Function.Injective embed) : FloatText ψ where
  repr value := floats.repr (embed value)
  injective _ _ same := embed_injective (floats.injective same)
  numeral value := floats.numeral (embed value)
  ne_nil value := floats.ne_nil (embed value)
  ne_int value := floats.ne_int (embed value)

/-! Documents without floats. -/

def noFloats : FloatText Empty where
  repr value := nomatch value
  injective value := nomatch value
  numeral value := nomatch value
  ne_nil value := nomatch value
  ne_int value := nomatch value

namespace Json

mutual
def toDoc : Json → Doc Empty
  | .null => .null
  | .bool value => .bool value
  | .int value => .int value
  | .str text => .str text
  | .arr items => .arr (docItems items)
  | .obj fields => .obj (docFields fields)
def docItems : List Json → List (Doc Empty)
  | [] => []
  | item :: rest => toDoc item :: docItems rest
def docFields : List (String × Json) → List (String × Doc Empty)
  | [] => []
  | (name, value) :: rest => (name, toDoc value) :: docFields rest
end

mutual
def ofDoc : Doc Empty → Json
  | .null => .null
  | .bool value => .bool value
  | .int value => .int value
  | .str text => .str text
  | .arr items => .arr (ofItems items)
  | .obj fields => .obj (ofFields fields)
def ofItems : List (Doc Empty) → List Json
  | [] => []
  | item :: rest => ofDoc item :: ofItems rest
def ofFields : List (String × Doc Empty) → List (String × Json)
  | [] => []
  | (name, value) :: rest => (name, ofDoc value) :: ofFields rest
end

mutual
theorem ofDoc_toDoc (document : Json) : ofDoc (toDoc document) = document := by
  match document with
  | .null | .bool _ | .int _ | .str _ => simp only [toDoc, ofDoc]
  | .arr items => simp only [toDoc, ofDoc, ofItems_docItems items]
  | .obj fields => simp only [toDoc, ofDoc, ofFields_docFields fields]
theorem ofItems_docItems (items : List Json) : ofItems (docItems items) = items := by
  match items with
  | [] => rfl
  | item :: rest => simp only [docItems, ofItems, ofDoc_toDoc item, ofItems_docItems rest]
theorem ofFields_docFields (fields : List (String × Json)) :
    ofFields (docFields fields) = fields := by
  match fields with
  | [] => rfl
  | (name, value) :: rest =>
      simp only [docFields, ofFields, ofDoc_toDoc value, ofFields_docFields rest]
end

mutual
theorem chars_toDoc (document : Json) : (toDoc document).chars noFloats.repr = dumpChars document := by
  match document with
  | .null | .bool true | .bool false | .int _ | .str _ => simp only [toDoc, Doc.chars, dumpChars]
  | .arr [] => simp only [toDoc, docItems, Doc.chars, dumpChars]
  | .arr (item :: rest) =>
      simp only [toDoc, docItems, Doc.chars, dumpChars, chars_toDoc item, chars_docItems rest]
  | .obj [] => simp only [toDoc, docFields, Doc.chars, dumpChars]
  | .obj ((name, value) :: rest) =>
      simp only [toDoc, docFields, Doc.chars, dumpChars, chars_toDoc value, chars_docFields rest]
theorem chars_docItems (items : List Json) :
    Doc.itemChars noFloats.repr (docItems items) = dumpItems items := by
  match items with
  | [] => simp only [docItems, Doc.itemChars, dumpItems]
  | item :: rest =>
      simp only [docItems, Doc.itemChars, dumpItems, chars_toDoc item, chars_docItems rest]
theorem chars_docFields (fields : List (String × Json)) :
    Doc.fieldChars noFloats.repr (docFields fields) = dumpFields fields := by
  match fields with
  | [] => simp only [docFields, Doc.fieldChars, dumpFields]
  | (name, value) :: rest =>
      simp only [docFields, Doc.fieldChars, dumpFields, chars_toDoc value, chars_docFields rest]
end

end Json

theorem dumps_injective : Function.Injective dumps := by
  intro left right same
  have documents : Doc.dumps noFloats.repr left.toDoc = Doc.dumps noFloats.repr right.toDoc := by
    rw [Doc.dumps, Doc.dumps, Json.chars_toDoc, Json.chars_toDoc]
    exact same
  calc
    left = Json.ofDoc left.toDoc := (Json.ofDoc_toDoc left).symm
    _ = Json.ofDoc right.toDoc := by rw [Doc.dumps_injective noFloats documents]
    _ = right := Json.ofDoc_toDoc right

end Gyza.CanonJson
