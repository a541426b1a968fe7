import Gyza.RustCanonJson

/-! Strings as `EnsureAsciiFormatter` writes them.

`write_string_fragment` finds its runs by byte offsets; its output is shown to be the
fragment character by character. A string's text is printable ASCII and read back by a
JSON reader as the string it came from. -/

namespace Gyza.RustCanonJson

open CanonJson (escapeChar escapeUnit readUnit joinPair)
open Hex (Bytes utf8)

/-- `char_indices`, from the offset of the first character. -/
def charIndices : Nat → List Char → List (Nat × Char)
  | _, [] => []
  | idx, ch :: rest => (idx, ch) :: charIndices (idx + ch.utf8Size) rest

/-- `pending` is the offset the current run starts at. -/
structure FragmentWriter where
  pending : Nat
  written : Bytes

/-- `as_bytes()[start..stop]`. -/
def byteSlice (bytes : Bytes) (start stop : Nat) : Bytes := (bytes.take stop).drop start

def writeIndexed (bytes : Bytes) (writer : FragmentWriter) (item : Nat × Char) : FragmentWriter :=
  if item.2.toNat < 0x7f then writer
  else
    let run := if writer.pending < item.1 then byteSlice bytes writer.pending item.1 else []
    { pending := item.1 + item.2.utf8Size
      written := writer.written ++ run ++ writeUEscape item.2.toNat }

/-- What follows the last escaped character is flushed at the end. -/
def flush (bytes : Bytes) (writer : FragmentWriter) : Bytes :=
  if writer.pending < bytes.length then writer.written ++ bytes.drop writer.pending
  else writer.written

/-- `write_string_fragment`. -/
def writeFragment (fragment : List Char) : Bytes :=
  flush (bytesOf fragment)
    ((charIndices 0 fragment).foldl (writeIndexed (bytesOf fragment)) ⟨0, []⟩)

/-- `format_escaped_str_contents`, handing its fragments to `write_string_fragment`. -/
def writeContents (fragment : List Char) : List Char → Bytes
  | [] => writeFragment fragment
  | c :: rest =>
      match writeCharEscape c with
      | none => writeContents (fragment ++ [c]) rest
      | some escape => writeFragment fragment ++ escape ++ writeContents [] rest

def ensureAsciiStr (text : String) : Bytes :=
  bytesOf ['"'] ++ writeContents [] text.toList ++ bytesOf ['"']

/-! The runs by offset are the runs by character. -/

theorem bytesOf_length_snoc (front : List Char) (ch : Char) :
    (bytesOf (front ++ [ch])).length = (bytesOf front).length + ch.utf8Size := by
  rw [bytesOf_append, List.length_append, bytesOf, bytesOf, List.flatMap_singleton,
    String.length_utf8EncodeChar]

/-- Between two offsets of a text stand the bytes of the characters there. -/
theorem byteSlice_run (front run back : List Char) :
    byteSlice (bytesOf (front ++ run ++ back)) (bytesOf front).length
      (bytesOf (front ++ run)).length = bytesOf run := by
  rw [byteSlice, bytesOf_append (front ++ run), List.take_left, bytesOf_append, List.drop_left]

theorem pending_run (front run : List Char) (written : Bytes) :
    (if (bytesOf front).length < (bytesOf (front ++ run)).length then written else []) =
      if bytesOf run = [] then [] else written := by
  rw [bytesOf_append, List.length_append]
  by_cases empty : bytesOf run = []
  · rw [if_pos empty, if_neg (by simp [empty])]
  · have positive := List.length_pos_iff.mpr empty
    rw [if_neg empty, if_pos (by omega)]

/-- What the loop and the last flush write after `done`, with `run` still pending. -/
theorem writeIndexed_loop (rest done run : List Char) (written : Bytes) :
    flush (bytesOf (done ++ run ++ rest))
        ((charIndices (bytesOf (done ++ run)).length rest).foldl
          (writeIndexed (bytesOf (done ++ run ++ rest))) ⟨(bytesOf done).length, written⟩) =
      written ++ writeStringFragment run rest := by
  induction rest generalizing done run written with
  | nil =>
      simp only [charIndices, List.foldl_nil, writeStringFragment, flush, List.append_nil]
      rw [bytesOf_append, List.drop_left, List.length_append]
      split_ifs with some
      · rfl
      · have empty : bytesOf run = [] := List.length_eq_zero_iff.mp (by omega)
        rw [empty, List.append_nil]
  | cons ch rest ih =>
      rw [charIndices, List.foldl_cons, writeStringFragment, ← bytesOf_length_snoc]
      by_cases plain : ch.toNat < 0x7f
      · have grown := ih done (run ++ [ch]) written
        rw [writeIndexed, if_pos plain, if_pos plain]
        simpa only [List.append_assoc, List.singleton_append] using grown
      · have slice := byteSlice_run done run (ch :: rest)
        have next := ih (done ++ run ++ [ch]) [] (written ++ bytesOf run ++ writeUEscape ch.toNat)
        have flushed : (if (bytesOf done).length < (bytesOf (done ++ run)).length
            then byteSlice (bytesOf (done ++ run ++ ch :: rest)) (bytesOf done).length
              (bytesOf (done ++ run)).length else []) = bytesOf run := by
          rw [slice, pending_run]
          split_ifs with empty
          · exact empty.symm
          · rfl
        rw [writeIndexed, if_neg plain, if_neg plain]
        simp only [flushed, ← bytesOf_length_snoc]
        simpa only [List.append_nil, List.append_assoc, List.singleton_append] using next

theorem writeFragment_eq (fragment : List Char) :
    writeFragment fragment = writeStringFragment [] fragment :=
  writeIndexed_loop fragment [] [] []

theorem writeContents_eq (text fragment : List Char) :
    writeContents fragment text = formatContents fragment text := by
  induction text generalizing fragment with
  | nil => rw [writeContents, formatContents, writeFragment_eq]
  | cons c rest ih =>
      rw [writeContents, formatContents]
      cases writeCharEscape c with
      | none => exact ih _
      | some escape =>
          simp only
          rw [writeFragment_eq, ih]

theorem ensureAsciiStr_eq (text : String) : ensureAsciiStr text = bytesOf (CanonJson.quote text) := by
  rw [← formatStr_eq, ensureAsciiStr, writeContents_eq, formatStr]

/-! What is escaped, and how. -/

/-- The code points that do not stand for themselves. -/
def Escaped (c : Char) : Prop := c.toNat < 0x20 ∨ c = '"' ∨ c = '\\' ∨ 0x7f ≤ c.toNat

/-- The escapes of one letter. -/
def shortEscape : Char → Option Char
  | '"' => some '"'
  | '\\' => some '\\'
  | '\n' => some 'n'
  | '\r' => some 'r'
  | '\t' => some 't'
  | '\x08' => some 'b'
  | '\x0c' => some 'f'
  | _ => none

/-- The UTF-16 code units of a scalar value. -/
def utf16 (c : Char) : List Nat :=
  if c.toNat < 0x10000 then [c.toNat]
  else [0xd800 + (c.toNat - 0x10000) / 1024, 0xdc00 + (c.toNat - 0x10000) % 1024]

instance : DecidablePred Escaped :=
  fun c => inferInstanceAs (Decidable (c.toNat < 0x20 ∨ c = '"' ∨ c = '\\' ∨ 0x7f ≤ c.toNat))

/-- One character of a JSON string, kept in printable ASCII. -/
def asciiEscape (c : Char) : List Char :=
  if Escaped c then
    (shortEscape c).elim ((utf16 c).flatMap escapeUnit) (fun letter => ['\\', letter])
  else [c]

theorem printable_iff (c : Char) : ' ' ≤ c ∧ c ≤ '~' ↔ 0x20 ≤ c.toNat ∧ c.toNat < 0x7f := by
  rw [Char.le_def, Char.le_def, UInt32.le_iff_toNat_le, UInt32.le_iff_toNat_le]
  exact and_congr Iff.rfl Nat.lt_succ_iff.symm

theorem shortEscape_eq_none {c : Char} (backslash : c ≠ '\\') (quotation : c ≠ '"')
    (newline : c ≠ '\n') (carriage : c ≠ '\r') (tab : c ≠ '\t') (backspace : c ≠ '\x08')
    (feed : c ≠ '\x0c') : shortEscape c = none := by
  unfold shortEscape
  split <;> first | contradiction | rfl

theorem escapeChar_eq_asciiEscape (c : Char) : escapeChar c = asciiEscape c := by
  unfold escapeChar
  split_ifs with backslash quotation newline carriage tab backspace feed printable short
  · subst backslash; rfl
  · subst quotation; rfl
  · subst newline; rfl
  · subst carriage; rfl
  · subst tab; rfl
  · subst backspace; rfl
  · subst feed; rfl
  · rw [printable_iff] at printable
    have plain : ¬Escaped c := by
      rintro (control | same | same | high)
      · omega
      · exact quotation same
      · exact backslash same
      · omega
    rw [asciiEscape, if_neg plain]
  · have escaped : Escaped c := by
      rw [printable_iff] at printable
      unfold Escaped
      omega
    rw [asciiEscape, if_pos escaped, shortEscape_eq_none backslash quotation newline carriage tab
      backspace feed, utf16, if_pos short]
    simp
  · have escaped : Escaped c := Or.inr (Or.inr (Or.inr (by omega)))
    rw [asciiEscape, if_pos escaped, shortEscape_eq_none backslash quotation newline carriage tab
      backspace feed, utf16, if_neg short]
    simp

example : asciiEscape (Char.ofNat 0x1f510) = "\\ud83d\\udd10".toList := by decide

/-! The output is printable ASCII. -/

def Printable (c : Char) : Prop := 0x20 ≤ c.toNat ∧ c.toNat < 0x7f

theorem digitChar_printable : ∀ value < 16, Printable (Hex.digitChar value) := by
  unfold Printable
  decide

theorem escapeUnit_printable (unit : Nat) : ∀ c ∈ escapeUnit unit, Printable c := by
  have digit (value : Nat) : Printable (Hex.digitChar (value % 16)) :=
    digitChar_printable _ (Nat.mod_lt _ (by decide))
  intro c member
  simp only [escapeUnit, List.mem_cons, List.not_mem_nil, or_false] at member
  rcases member with rfl | rfl | rfl | rfl | rfl | rfl
  · exact ⟨by decide, by decide⟩
  · exact ⟨by decide, by decide⟩
  · exact digit _
  · exact digit _
  · exact digit _
  · exact digit _

theorem shortEscape_printable {c letter : Char} (short : shortEscape c = some letter) :
    Printable letter := by
  unfold shortEscape at short
  split at short <;> first | (cases short; exact ⟨by decide, by decide⟩) | cases short

theorem asciiEscape_printable (c : Char) : ∀ written ∈ asciiEscape c, Printable written := by
  intro written member
  unfold asciiEscape at member
  split_ifs at member with escaped
  · cases short : shortEscape c with
    | none =>
        rw [short, Option.elim_none, List.mem_flatMap] at member
        rcases member with ⟨unit, _, inUnit⟩
        exact escapeUnit_printable unit written inUnit
    | some letter =>
        rw [short, Option.elim_some] at member
        rcases List.mem_cons.mp member with rfl | single
        · exact ⟨by decide, by decide⟩
        · rw [List.mem_singleton.mp single]
          exact shortEscape_printable short
  · rw [List.mem_singleton.mp member]
    unfold Escaped at escaped
    unfold Printable
    omega

theorem quote_eq (text : String) :
    CanonJson.quote text = '"' :: text.toList.flatMap asciiEscape ++ ['"'] := by
  rw [CanonJson.quote, funext escapeChar_eq_asciiEscape]

theorem quote_printable (text : String) : ∀ c ∈ CanonJson.quote text, Printable c := by
  intro c member
  rw [quote_eq, List.cons_append, List.mem_cons, List.mem_append, List.mem_flatMap,
    List.mem_singleton] at member
  rcases member with rfl | ⟨source, _, written⟩ | rfl
  · exact ⟨by decide, by decide⟩
  · exact asciiEscape_printable source c written
  · exact ⟨by decide, by decide⟩

/-- Printable characters are one byte each. -/
theorem bytesOf_printable {chars : List Char} (printable : ∀ c ∈ chars, Printable c) :
    bytesOf chars = chars.map (fun c => UInt8.ofNat c.toNat) := by
  induction chars with
  | nil => rfl
  | cons c chars ih =>
      rcases printable c (by simp) with ⟨_, high⟩
      have single : String.utf8EncodeChar c = [UInt8.ofNat c.toNat] := by
        have size : c.utf8Size = 1 := by
          rw [Char.utf8Size_eq_one_iff, UInt32.le_iff_toNat_le]
          exact Nat.le_of_lt_succ (Nat.lt_succ_of_lt high)
        exact String.utf8EncodeChar_eq_singleton size
      rw [bytesOf, List.flatMap_cons, single, List.map_cons, List.singleton_append]
      exact congrArg _ (ih (fun other member => printable other (List.mem_cons_of_mem _ member)))

/-! Reading a JSON string. -/

def letterChar : Char → Option Char
  | '"' => some '"'
  | '\\' => some '\\'
  | '/' => some '/'
  | 'n' => some '\n'
  | 'r' => some '\r'
  | 't' => some '\t'
  | 'b' => some '\x08'
  | 'f' => some '\x0c'
  | _ => none

/-- One or two code units; a surrogate counts only with its other half. -/
def readUtf16 (chars : List Char) : Option (Char × List Char) := do
  let (unit, rest) ← readUnit chars
  if 0xd800 ≤ unit ∧ unit < 0xdc00 then do
    let (low, rest) ← readUnit rest
    if 0xdc00 ≤ low ∧ low < 0xe000 then pure (Char.ofNat (joinPair unit low), rest) else none
  else if 0xdc00 ≤ unit ∧ unit < 0xe000 then none
  else pure (Char.ofNat unit, rest)

def readJsonChar : List Char → Option (Char × List Char)
  | [] => none
  | '\\' :: 'u' :: rest => readUtf16 ('\\' :: 'u' :: rest)
  | '\\' :: letter :: rest => (letterChar letter).map (fun c => (c, rest))
  | ['\\'] => none
  | c :: rest => if c.toNat < 0x20 then none else some (c, rest)

/-- The text up to the closing quote, which has to be the last character. -/
def readJsonText : Nat → List Char → Option (List Char)
  | 0, _ => none
  | _ + 1, ['"'] => some []
  | _ + 1, '"' :: _ => none
  | fuel + 1, chars => do
      let (c, rest) ← readJsonChar chars
      let text ← readJsonText fuel rest
      pure (c :: text)

/-- A JSON string in ASCII, unescaped. -/
def unescape (bytes : Bytes) : Option String :=
  match bytes.map (fun byte => Char.ofNat byte.toNat) with
  | '"' :: body => (readJsonText body.length body).map String.ofList
  | _ => none

theorem readUtf16_utf16 (c : Char) (rest : List Char) :
    readUtf16 ((utf16 c).flatMap escapeUnit ++ rest) = some (c, rest) := by
  unfold utf16
  split_ifs with short
  · have apart := CanonJson.not_surrogate c short
    have high : ¬(0xd800 ≤ c.toNat ∧ c.toNat < 0xdc00) := by omega
    have low : ¬(0xdc00 ≤ c.toNat ∧ c.toNat < 0xe000) := by omega
    simp only [List.flatMap_singleton, readUtf16, CanonJson.readUnit_escapeUnit c.toNat short,
      Option.bind_eq_bind, Option.bind_some, if_neg high, if_neg low, Char.ofNat_toNat,
      Option.pure_def]
  · have bound := CanonJson.toNat_bound c
    obtain ⟨high, highIs⟩ : ∃ high, high = 0xd800 + (c.toNat - 0x10000) / 1024 := ⟨_, rfl⟩
    obtain ⟨low, lowIs⟩ : ∃ low, low = 0xdc00 + (c.toNat - 0x10000) % 1024 := ⟨_, rfl⟩
    rw [← highIs, ← lowIs]
    have opening : 0xd800 ≤ high ∧ high < 0xdc00 := by omega
    have closing : 0xdc00 ≤ low ∧ low < 0xe000 := by omega
    have whole : joinPair high low = c.toNat := by
      unfold joinPair
      omega
    simp only [List.flatMap_cons, List.flatMap_nil, List.append_nil, List.append_assoc, readUtf16]
    rw [CanonJson.readUnit_escapeUnit high (by omega)]
    simp only [Option.bind_eq_bind, Option.bind_some, if_pos opening]
    rw [CanonJson.readUnit_escapeUnit low (by omega)]
    simp only [Option.bind_some, if_pos closing, Option.pure_def, whole, Char.ofNat_toNat]

theorem shortEscape_letter {c letter : Char} (short : shortEscape c = some letter) :
    letter ≠ 'u' ∧ letterChar letter = some c := by
  unfold shortEscape at short
  split at short <;> first | (cases short; exact ⟨by decide, rfl⟩) | cases short

theorem readJsonChar_letter {letter : Char} (other : letter ≠ 'u') (rest : List Char) :
    readJsonChar ('\\' :: letter :: rest) = (letterChar letter).map (fun c => (c, rest)) := by
  simp [readJsonChar]

theorem readJsonChar_plain {c : Char} (backslash : c ≠ '\\') (visible : ¬c.toNat < 0x20)
    (rest : List Char) : readJsonChar (c :: rest) = some (c, rest) := by
  simp [readJsonChar, backslash, visible]

theorem readJsonChar_units (c : Char) (rest : List Char) :
    readJsonChar ((utf16 c).flatMap escapeUnit ++ rest) =
      readUtf16 ((utf16 c).flatMap escapeUnit ++ rest) := by
  unfold utf16
  split_ifs
  · rfl
  · rfl

theorem readJsonChar_asciiEscape (c : Char) (rest : List Char) :
    readJsonChar (asciiEscape c ++ rest) = some (c, rest) := by
  unfold asciiEscape
  split_ifs with escaped
  · cases short : shortEscape c with
    | none => rw [Option.elim_none, readJsonChar_units, readUtf16_utf16]
    | some letter =>
        rcases shortEscape_letter short with ⟨other, back⟩
        rw [Option.elim_some, List.cons_append, List.singleton_append, readJsonChar_letter other, back,
          Option.map_some]
  · have visible : ¬c.toNat < 0x20 := fun control => escaped (Or.inl control)
    have backslash : c ≠ '\\' := fun same => escaped (Or.inr (Or.inr (Or.inl same)))
    exact readJsonChar_plain backslash visible rest

theorem asciiEscape_opens (c : Char) :
    ∃ first rest, asciiEscape c = first :: rest ∧ first ≠ '"' := by
  unfold asciiEscape
  split_ifs with escaped
  · cases shortEscape c with
    | none =>
        unfold utf16
        split_ifs
        · exact ⟨'\\', _, rfl, by decide⟩
        · exact ⟨'\\', _, rfl, by decide⟩
    | some letter => exact ⟨'\\', [letter], rfl, by decide⟩
  · exact ⟨c, [], rfl, fun same => escaped (Or.inr (Or.inl same))⟩

theorem readJsonText_escaped (text : List Char) (fuel : Nat) (enough : text.length < fuel) :
    readJsonText fuel (text.flatMap asciiEscape ++ ['"']) = some text := by
  induction text generalizing fuel with
  | nil =>
      obtain ⟨fuel, rfl⟩ : ∃ less, fuel = less + 1 := ⟨fuel - 1, by omega⟩
      rfl
  | cons c text ih =>
      obtain ⟨fuel, rfl⟩ : ∃ less, fuel = less + 1 := ⟨fuel - 1, by omega⟩
      have step : readJsonText (fuel + 1) ((c :: text).flatMap asciiEscape ++ ['"']) =
          (readJsonChar ((c :: text).flatMap asciiEscape ++ ['"'])).bind (fun read =>
            (readJsonText fuel read.2).bind (fun tail => some (read.1 :: tail))) := by
        rcases asciiEscape_opens c with ⟨first, rest, opens, other⟩
        rw [List.flatMap_cons, opens]
        simp [readJsonText, other]
      rw [step, List.flatMap_cons, List.append_assoc, readJsonChar_asciiEscape, Option.bind_some,
        ih fuel (by simpa using enough), Option.bind_some]

theorem length_le_escaped (text : List Char) :
    text.length ≤ (text.flatMap asciiEscape).length := by
  induction text with
  | nil => simp
  | cons c text ih =>
      rcases asciiEscape_opens c with ⟨first, rest, opens, _⟩
      rw [List.flatMap_cons, List.length_append, opens, List.length_cons, List.length_cons]
      omega

theorem unescape_ensureAsciiStr (text : String) : unescape (ensureAsciiStr text) = some text := by
  have printable := quote_printable text
  have chars : (ensureAsciiStr text).map (fun byte => Char.ofNat byte.toNat) =
      CanonJson.quote text := by
    rw [ensureAsciiStr_eq, bytesOf_printable printable, List.map_map]
    calc
      _ = (CanonJson.quote text).map id := by
        apply List.map_congr_left
        intro c member
        have small : c.toNat < 256 := by
          have bounds := (printable c member).2
          omega
        simp only [Function.comp_apply, UInt8.toNat_ofNat', Nat.mod_eq_of_lt small,
          Char.ofNat_toNat, id_eq]
      _ = CanonJson.quote text := List.map_id _
  have body := readJsonText_escaped text.toList (text.toList.flatMap asciiEscape ++ ['"']).length (by
    have longer := length_le_escaped text.toList
    rw [List.length_append, List.length_singleton]
    omega)
  rw [unescape, chars, quote_eq, List.cons_append]
  simp only
  rw [body, Option.map_some, String.ofList_toList]

/-- The Rust text of a string is Python's: what is no printable ASCII, a quote or a backslash
is escaped, the rest stands as it is, and a JSON reader gets the string back. -/
theorem ensureAsciiStr_parity (text : String) :
    ensureAsciiStr text = utf8 (CanonJson.dumps (.str text)) ∧
      CanonJson.dumps (.str text) =
        String.ofList ('"' :: text.toList.flatMap asciiEscape ++ ['"']) ∧
      (∀ byte ∈ ensureAsciiStr text, 0x20 ≤ byte.toNat ∧ byte.toNat < 0x7f) ∧
      unescape (ensureAsciiStr text) = some text ∧
      ∀ other, ensureAsciiStr text = ensureAsciiStr other → text = other := by
  have python : CanonJson.dumps (.str text) = String.ofList (CanonJson.quote text) := by
    rw [CanonJson.dumps, CanonJson.dumpChars]
  refine ⟨?_, ?_, ?_, unescape_ensureAsciiStr text, ?_⟩
  · rw [python, utf8, String.toList_ofList, ensureAsciiStr_eq]
    rfl
  · rw [python, quote_eq]
  · intro byte member
    rw [ensureAsciiStr_eq, bytesOf_printable (quote_printable text), List.mem_map] at member
    rcases member with ⟨c, written, rfl⟩
    rcases quote_printable text c written with ⟨low, high⟩
    have small : c.toNat < 256 := by omega
    rw [UInt8.toNat_ofNat', Nat.mod_eq_of_lt small]
    exact ⟨low, high⟩
  · intro other same
    have read := unescape_ensureAsciiStr text
    rw [same, unescape_ensureAsciiStr] at read
    exact (Option.some.inj read).symm

end Gyza.RustCanonJson
