import Gyza.Lib.CanonJson

/-! Canonical JSON as the Rust crates write it (`gyza-canonjson`).

`serde_json` writes compactly and escapes what its table marks; the runs in between go
to `EnsureAsciiFormatter`. The bytes are those of Python's `json.dumps`. -/

namespace Gyza.RustCanonJson

open CanonJson (Json escapeChar escapeUnit)
open Hex (Bytes utf8)

/-- The bytes of a run of characters. -/
def bytesOf (run : List Char) : Bytes := run.flatMap String.utf8EncodeChar

/-- The table `HEX`. -/
def hexByte (digit : Nat) : UInt8 := (bytesOf "0123456789abcdef".toList).getD digit 0

/-- `emit` of `write_u_escape`. -/
def emit (unit : Nat) : Bytes :=
  [0x5c, 0x75, hexByte ((unit >>> 12) &&& 0xf), hexByte ((unit >>> 8) &&& 0xf),
    hexByte ((unit >>> 4) &&& 0xf), hexByte (unit &&& 0xf)]

def writeUEscape (cp : Nat) : Bytes :=
  if cp > 0xffff then
    let v := cp - 0x10000
    emit (0xd800 + (v >>> 10)) ++ emit (0xdc00 + (v &&& 0x3ff))
  else emit cp

/-- The loop of `write_string_fragment`; `pending` is the run still to be flushed. -/
def writeStringFragment (pending : List Char) : List Char → Bytes
  | [] => bytesOf pending
  | ch :: rest =>
      if ch.toNat < 0x7f then writeStringFragment (pending ++ [ch]) rest
      else bytesOf pending ++ writeUEscape ch.toNat ++ writeStringFragment [] rest

/-- What `serde_json` writes for a character that its table marks. -/
def writeCharEscape (c : Char) : Option Bytes :=
  if c = '"' then some (bytesOf ['\\', '"'])
  else if c = '\\' then some (bytesOf ['\\', '\\'])
  else if c = '\x08' then some (bytesOf ['\\', 'b'])
  else if c = '\x0c' then some (bytesOf ['\\', 'f'])
  else if c = '\n' then some (bytesOf ['\\', 'n'])
  else if c = '\r' then some (bytesOf ['\\', 'r'])
  else if c = '\t' then some (bytesOf ['\\', 't'])
  else if c.toNat < 0x20 then
    some (bytesOf ['\\', 'u', '0', '0'] ++ [hexByte (c.toNat >>> 4), hexByte (c.toNat &&& 0xf)])
  else none

/-- `format_escaped_str_contents`: fragments between marked characters. -/
def formatContents (fragment : List Char) : List Char → Bytes
  | [] => writeStringFragment [] fragment
  | c :: rest =>
      match writeCharEscape c with
      | none => formatContents (fragment ++ [c]) rest
      | some escape => writeStringFragment [] fragment ++ escape ++ formatContents [] rest

def formatStr (text : String) : Bytes :=
  bytesOf ['"'] ++ formatContents [] text.toList ++ bytesOf ['"']

mutual
def toVec : Json → Bytes
  | .null => bytesOf "null".toList
  | .bool true => bytesOf "true".toList
  | .bool false => bytesOf "false".toList
  | .int value => bytesOf value.repr.toList
  | .str text => formatStr text
  | .arr [] => bytesOf ['[', ']']
  | .arr (item :: rest) => bytesOf ['['] ++ toVec item ++ itemsToVec rest
  | .obj [] => bytesOf ['\x7b', '\x7d']
  | .obj ((name, value) :: rest) =>
      bytesOf ['\x7b'] ++ formatStr name ++ bytesOf [':'] ++ toVec value ++ fieldsToVec rest
def itemsToVec : List Json → Bytes
  | [] => bytesOf [']']
  | item :: rest => bytesOf [','] ++ toVec item ++ itemsToVec rest
def fieldsToVec : List (String × Json) → Bytes
  | [] => bytesOf ['\x7d']
  | (name, value) :: rest =>
      bytesOf [','] ++ formatStr name ++ bytesOf [':'] ++ toVec value ++ fieldsToVec rest
end

/-! Character by character, both encoders write the same. -/

theorem bytesOf_append (front back : List Char) :
    bytesOf (front ++ back) = bytesOf front ++ bytesOf back := List.flatMap_append

theorem bytesOf_digit : ∀ digit < 16, bytesOf [Hex.digitChar digit] = [hexByte digit] := by
  decide +kernel

theorem emit_eq (unit : Nat) : emit unit = bytesOf (escapeUnit unit) := by
  have nibble (shift : Nat) : (unit >>> shift) &&& 0xf = unit / 2 ^ shift % 16 := by
    rw [Nat.shiftRight_eq_div_pow]
    exact Nat.and_two_pow_sub_one_eq_mod _ 4
  have last : unit &&& 0xf = unit % 16 := Nat.and_two_pow_sub_one_eq_mod _ 4
  have digit (value : Nat) : bytesOf [Hex.digitChar (value % 16)] = [hexByte (value % 16)] :=
    bytesOf_digit _ (Nat.mod_lt _ (by decide))
  have split : bytesOf (escapeUnit unit) = bytesOf ['\\', 'u'] ++
      (bytesOf [Hex.digitChar (unit / 4096 % 16)] ++ (bytesOf [Hex.digitChar (unit / 256 % 16)] ++
        (bytesOf [Hex.digitChar (unit / 16 % 16)] ++ bytesOf [Hex.digitChar (unit % 16)]))) := by
    simp only [← bytesOf_append]
    rfl
  rw [split, digit, digit, digit, digit, emit, nibble, nibble, nibble, last]
  rfl

theorem writeUEscape_eq (cp : Nat) :
    writeUEscape cp = bytesOf (if cp < 0x10000 then escapeUnit cp
      else escapeUnit (0xd800 + (cp - 0x10000) / 1024) ++
        escapeUnit (0xdc00 + (cp - 0x10000) % 1024)) := by
  have low (v : Nat) : v &&& 0x3ff = v % 1024 := Nat.and_two_pow_sub_one_eq_mod _ 10
  have high (v : Nat) : v >>> 10 = v / 1024 := Nat.shiftRight_eq_div_pow _ _
  unfold writeUEscape
  split_ifs with astral short
  · omega
  · rw [bytesOf_append, ← emit_eq, ← emit_eq]
    simp only [low, high]
  · exact emit_eq cp
  · omega

/-- What a character of a fragment becomes. -/
def fragmentChar (c : Char) : Bytes :=
  if c.toNat < 0x7f then String.utf8EncodeChar c else writeUEscape c.toNat

/-- What a character of a string becomes. -/
def contentChar (c : Char) : Bytes := (writeCharEscape c).getD (fragmentChar c)

theorem writeStringFragment_eq (fragment pending : List Char) :
    writeStringFragment pending fragment = bytesOf pending ++ fragment.flatMap fragmentChar := by
  induction fragment generalizing pending with
  | nil => simp [writeStringFragment]
  | cons ch rest ih =>
      rw [writeStringFragment, List.flatMap_cons]
      by_cases plain : ch.toNat < 0x7f
      · have single : bytesOf [ch] = fragmentChar ch := by
          rw [fragmentChar, if_pos plain, bytesOf, List.flatMap_singleton]
        rw [if_pos plain, ih, bytesOf_append, single, List.append_assoc]
      · have escaped : writeUEscape ch.toNat = fragmentChar ch := by
          rw [fragmentChar, if_neg plain]
        rw [if_neg plain, ih, escaped, List.append_assoc]
        rfl

theorem formatContents_eq (text fragment : List Char) :
    formatContents fragment text =
      fragment.flatMap fragmentChar ++ text.flatMap contentChar := by
  induction text generalizing fragment with
  | nil =>
      rw [formatContents, writeStringFragment_eq]
      simp [bytesOf]
  | cons c rest ih =>
      rw [formatContents, List.flatMap_cons]
      cases escape : writeCharEscape c with
      | none =>
          have kept : contentChar c = fragmentChar c := by rw [contentChar, escape, Option.getD_none]
          rw [ih, List.flatMap_append, List.flatMap_singleton, kept, List.append_assoc]
      | some bytes =>
          have marked : contentChar c = bytes := by rw [contentChar, escape, Option.getD_some]
          simp only [ih, writeStringFragment_eq, marked, List.flatMap_nil, List.nil_append]
          simp [bytesOf]

/-- A control character without a short escape has two zeros in front. -/
theorem control_escape (unit : Nat) (control : unit < 0x20) :
    bytesOf ['\\', 'u', '0', '0'] ++ [hexByte (unit >>> 4), hexByte (unit &&& 0xf)] =
      bytesOf (escapeUnit unit) := by
  have high : unit >>> 4 = unit / 16 % 16 := by
    rw [Nat.shiftRight_eq_div_pow]
    omega
  have low : unit &&& 0xf = unit % 16 := Nat.and_two_pow_sub_one_eq_mod _ 4
  have first : unit / 4096 % 16 = 0 := by omega
  have second : unit / 256 % 16 = 0 := by omega
  have digits : [hexByte (unit / 16 % 16), hexByte (unit % 16)] =
      bytesOf [Hex.digitChar (unit / 16 % 16)] ++ bytesOf [Hex.digitChar (unit % 16)] := by
    rw [bytesOf_digit _ (by omega), bytesOf_digit _ (by omega)]
    rfl
  rw [high, low, digits, ← bytesOf_append, ← bytesOf_append, escapeUnit, first, second]
  rfl

theorem contentChar_eq (c : Char) : contentChar c = bytesOf (escapeChar c) := by
  have printable : ' ' ≤ c ∧ c ≤ '~' ↔ 0x20 ≤ c.toNat ∧ c.toNat < 0x7f := by
    rw [Char.le_def, Char.le_def, UInt32.le_iff_toNat_le, UInt32.le_iff_toNat_le]
    exact and_congr Iff.rfl Nat.lt_succ_iff.symm
  by_cases quotation : c = '"'
  · subst quotation; rfl
  by_cases backslash : c = '\\'
  · subst backslash; rfl
  by_cases backspace : c = '\x08'
  · subst backspace; rfl
  by_cases feed : c = '\x0c'
  · subst feed; rfl
  by_cases newline : c = '\n'
  · subst newline; rfl
  by_cases carriage : c = '\r'
  · subst carriage; rfl
  by_cases tab : c = '\t'
  · subst tab; rfl
  rw [contentChar, writeCharEscape, escapeChar, if_neg quotation, if_neg backslash, if_neg backspace,
    if_neg feed, if_neg newline, if_neg carriage, if_neg tab, if_neg backslash, if_neg quotation,
    if_neg newline, if_neg carriage, if_neg tab, if_neg backspace, if_neg feed]
  by_cases control : c.toNat < 0x20
  · rw [if_pos control, if_neg (by rw [printable]; omega), if_pos (by omega), Option.getD_some]
    exact control_escape c.toNat control
  rw [if_neg control, Option.getD_none, fragmentChar]
  by_cases plain : c.toNat < 0x7f
  · rw [if_pos plain, if_pos (by rw [printable]; omega), bytesOf, List.flatMap_singleton]
  · rw [if_neg plain, if_neg (by rw [printable]; omega)]
    exact writeUEscape_eq c.toNat

theorem formatStr_eq (text : String) : formatStr text = bytesOf (CanonJson.quote text) := by
  have contents : text.toList.flatMap contentChar = bytesOf (text.toList.flatMap escapeChar) := by
    rw [bytesOf, List.flatMap_assoc]
    exact congrArg (fun write => text.toList.flatMap write) (funext contentChar_eq)
  rw [formatStr, formatContents_eq, contents, CanonJson.quote, List.flatMap_nil, List.nil_append,
    ← bytesOf_append, ← bytesOf_append]
  rfl

mutual
theorem toVec_chars (document : Json) : toVec document = bytesOf (CanonJson.dumpChars document) := by
  match document with
  | .null => rfl
  | .bool true => rfl
  | .bool false => rfl
  | .int value => rw [toVec, CanonJson.dumpChars]
  | .str text => rw [toVec, CanonJson.dumpChars, formatStr_eq]
  | .arr [] => rfl
  | .arr (item :: rest) =>
      rw [toVec, CanonJson.dumpChars, toVec_chars item, itemsToVec_chars rest]
      simp only [bytesOf, List.flatMap_cons, List.flatMap_append, List.flatMap_nil, List.append_nil,
        List.append_assoc]
  | .obj [] => rfl
  | .obj ((name, value) :: rest) =>
      rw [toVec, CanonJson.dumpChars, formatStr_eq, toVec_chars value, fieldsToVec_chars rest]
      simp only [bytesOf, List.flatMap_cons, List.flatMap_append, List.flatMap_nil, List.append_nil,
        List.append_assoc]
theorem itemsToVec_chars (items : List Json) :
    itemsToVec items = bytesOf (CanonJson.dumpItems items) := by
  match items with
  | [] => rfl
  | item :: rest =>
      rw [itemsToVec, CanonJson.dumpItems, toVec_chars item, itemsToVec_chars rest]
      simp only [bytesOf, List.flatMap_cons, List.flatMap_append, List.flatMap_nil, List.append_nil,
        List.append_assoc]
theorem fieldsToVec_chars (fields : List (String × Json)) :
    fieldsToVec fields = bytesOf (CanonJson.dumpFields fields) := by
  match fields with
  | [] => rfl
  | (name, value) :: rest =>
      rw [fieldsToVec, CanonJson.dumpFields, formatStr_eq, toVec_chars value, fieldsToVec_chars rest]
      simp only [bytesOf, List.flatMap_cons, List.flatMap_append, List.flatMap_nil, List.append_nil,
        List.append_assoc]
end

/-- The Rust encoder writes the bytes of `json.dumps`. -/
theorem toVec_eq (document : Json) : toVec document = utf8 (CanonJson.dumps document) := by
  rw [toVec_chars, utf8, CanonJson.dumps, String.toList_ofList]
  rfl

end Gyza.RustCanonJson
