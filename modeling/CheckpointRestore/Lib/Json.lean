import Mathlib.Data.List.AList

namespace Go.Json

/-!
# Go's `encoding/json` — values, parser and string encoding

`parse` is the syntax accepted by `json.Unmarshal`: RFC 8259 values, at most 10000 levels
deep, with nothing but white space after the value.  Go reads bytes; `decodeRunes` turns them
into characters first, an invalid byte into U+FFFD, which is what Go does inside a string (and
outside a string either is a syntax error).

* `encodeString` — the escaping of `json.Marshal`, HTML characters included;
* `parseStr_encode` — a marshalled string is read back;
* `Encodes` — a text that is read as a value, with the rules for strings, slices and objects;
* `decodeRunes_encodeRunes` — so is its UTF-8 encoding.
-/

/-! ### UTF-8 -/

/-- The replacement character U+FFFD. -/
def replacement : Char := Char.ofNat 0xFFFD

/-- `decodeRunes` with a bound on the number of characters.  A character takes at most
    four bytes; a byte that starts none is replaced. -/
def decodeRunesUpTo : ℕ → List UInt8 → List Char
  | 0, _ => []
  | _, [] => []
  | n + 1, b :: bs =>
    match ((b :: bs).take 4).toByteArray.utf8DecodeChar? 0 with
    | some c => c :: decodeRunesUpTo n ((b :: bs).drop c.utf8Size)
    | none => replacement :: decodeRunesUpTo n bs

/-- The characters of a byte string, as Go's `[]rune(string(b))`. -/
def decodeRunes (bs : List UInt8) : List Char := decodeRunesUpTo bs.length bs

/-- The UTF-8 encoding. -/
def encodeRunes (cs : List Char) : List UInt8 := cs.flatMap String.utf8EncodeChar

theorem length_encodeRunes_le (cs : List Char) : (encodeRunes cs).length ≤ 4 * cs.length := by
  induction cs with
  | nil => exact Nat.le_refl _
  | cons c cs ih =>
    have hlen : (String.utf8EncodeChar c).length ≤ 4 := by
      rw [String.length_utf8EncodeChar]
      exact Char.utf8Size_le_four c
    show (String.utf8EncodeChar c ++ encodeRunes cs).length ≤ _
    rw [List.length_append, List.length_cons]
    omega

theorem decodeRunesUpTo_append (n : ℕ) (c : Char) (bs : List UInt8) :
    decodeRunesUpTo (n + 1) (String.utf8EncodeChar c ++ bs) = c :: decodeRunesUpTo n bs := by
  have hlen : (String.utf8EncodeChar c).length = c.utf8Size := String.length_utf8EncodeChar c
  have hpos : 0 < c.utf8Size := Char.utf8Size_pos c
  have h4 : c.utf8Size ≤ 4 := Char.utf8Size_le_four c
  obtain ⟨b, t, hb⟩ : ∃ b t, String.utf8EncodeChar c ++ bs = b :: t := by
    cases h : String.utf8EncodeChar c with
    | nil => rw [h] at hlen; simp only [List.length_nil] at hlen; omega
    | cons b t => exact ⟨b, t ++ bs, rfl⟩
  have hdec : ((b :: t).take 4).toByteArray.utf8DecodeChar? 0 = some c := by
    rw [← hb, List.take_append, List.take_of_length_le (by omega), List.toByteArray_append]
    exact ByteArray.utf8DecodeChar?_utf8EncodeChar_append
  rw [hb, decodeRunesUpTo, hdec]
  simp only [← hb, ← hlen, List.drop_left]

theorem decodeRunes_encodeRunes (cs : List Char) : decodeRunes (encodeRunes cs) = cs := by
  have key : ∀ (cs : List Char) (n : ℕ), cs.length ≤ n →
      decodeRunesUpTo n (encodeRunes cs) = cs := by
    intro cs
    induction cs with
    | nil => intro n _; cases n <;> rfl
    | cons c cs ih =>
      intro n hn
      obtain ⟨m, rfl⟩ : ∃ m, n = m + 1 := ⟨n - 1, by simp only [List.length_cons] at hn; omega⟩
      show decodeRunesUpTo (m + 1) (String.utf8EncodeChar c ++ encodeRunes cs) = c :: cs
      rw [decodeRunesUpTo_append, ih m (by simpa using hn)]
  refine key cs _ ?_
  -- every character takes at least one byte
  induction cs with
  | nil => simp
  | cons c cs ih =>
    show (c :: cs).length ≤ (String.utf8EncodeChar c ++ encodeRunes cs).length
    have hpos : 0 < c.utf8Size := Char.utf8Size_pos c
    rw [List.length_append, String.length_utf8EncodeChar, List.length_cons]
    omega

/-! ### Values and strings -/

/-- A JSON value; a number keeps its literal. -/
inductive Value where
  | null
  | bool (b : Bool)
  | num (literal : String)
  | str (s : String)
  | arr (elems : List Value)
  | obj (fields : List (String × Value))

/-- The value of a hexadecimal digit. -/
def hexVal (c : Char) : Option ℕ :=
  if '0' ≤ c ∧ c ≤ '9' then some (c.toNat - '0'.toNat)
  else if 'a' ≤ c ∧ c ≤ 'f' then some (c.toNat - 'a'.toNat + 10)
  else if 'A' ≤ c ∧ c ≤ 'F' then some (c.toNat - 'A'.toNat + 10)
  else none

/-- The code unit of a `\uXXXX` escape. -/
def hex4 (a b c d : Char) : Option ℕ :=
  match hexVal a, hexVal b, hexVal c, hexVal d with
  | some a, some b, some c, some d => some (((a * 16 + b) * 16 + c) * 16 + d)
  | _, _, _, _ => none

/-- The character of a one-letter escape. -/
def unescape (c : Char) : Option Char :=
  if c = '"' ∨ c = '\\' ∨ c = '/' then some c
  else if c = 'b' then some (Char.ofNat 8)
  else if c = 'f' then some (Char.ofNat 12)
  else if c = 'n' then some '\n'
  else if c = 'r' then some '\r'
  else if c = 't' then some '\t'
  else none

/-- A high surrogate no low one followed is replaced. -/
def flush : Option ℕ → List Char
  | none => []
  | some _ => [replacement]

/-- Put characters in front of a parsed string. -/
def prepend (cs : List Char) : Option (List Char × List Char) → Option (List Char × List Char) :=
  Option.map (fun p => (cs ++ p.1, p.2))

/-- The rest of a string literal after its opening quote: the characters and what follows
    the closing quote.  `pending` is a high surrogate waiting for its low half. -/
def parseStr (pending : Option ℕ) : List Char → Option (List Char × List Char)
  | [] => none
  | '"' :: rest => some (flush pending, rest)
  | '\\' :: 'u' :: a :: b :: c :: d :: rest =>
    match hex4 a b c d with
    | none => none
    | some n =>
      if 0xDC00 ≤ n ∧ n < 0xE000 then
        match pending with
        | some hi =>
          prepend [Char.ofNat (0x10000 + (hi - 0xD800) * 0x400 + (n - 0xDC00))] (parseStr none rest)
        | none => prepend [replacement] (parseStr none rest)
      else if 0xD800 ≤ n ∧ n < 0xDC00 then prepend (flush pending) (parseStr (some n) rest)
      else prepend (flush pending ++ [Char.ofNat n]) (parseStr none rest)
  | '\\' :: c :: rest =>
    match unescape c with
    | some e => prepend (flush pending ++ [e]) (parseStr none rest)
    | none => none
  | c :: rest =>
    if c.toNat < 0x20 ∨ c = '\\' then none
    else prepend (flush pending ++ [c]) (parseStr none rest)

/-! ### The parser -/

/-- Drop white space. -/
def skipWs (cs : List Char) : List Char :=
  cs.dropWhile (fun c => c = ' ' ∨ c = '\t' ∨ c = '\r' ∨ c = '\n')

/-- One or more digits. -/
def digits1 (cs : List Char) : Option (List Char × List Char) :=
  let (ds, rest) := cs.span Char.isDigit
  if ds = [] then none else some (ds, rest)

/-- The integer part of a number: no leading zeros. -/
def intPart : List Char → Option (List Char × List Char)
  | '0' :: rest => some (['0'], rest)
  | cs => digits1 cs

/-- The optional fraction. -/
def fracPart : List Char → Option (List Char × List Char)
  | '.' :: rest => (digits1 rest).map (fun p => ('.' :: p.1, p.2))
  | cs => some ([], cs)

/-- The optional exponent. -/
def expPart : List Char → Option (List Char × List Char)
  | c :: rest =>
    if c = 'e' ∨ c = 'E' then
      match rest with
      | '+' :: ds => (digits1 ds).map (fun p => (c :: '+' :: p.1, p.2))
      | '-' :: ds => (digits1 ds).map (fun p => (c :: '-' :: p.1, p.2))
      | ds => (digits1 ds).map (fun p => (c :: p.1, p.2))
    else some ([], c :: rest)
  | [] => some ([], [])

/-- A number literal. -/
def parseNum (cs : List Char) : Option (Value × List Char) := do
  let (sign, cs) := match cs with
    | '-' :: rest => (['-'], rest)
    | rest => ([], rest)
  let (i, cs) ← intPart cs
  let (f, cs) ← fracPart cs
  let (e, cs) ← expPart cs
  return (.num (String.ofList (sign ++ i ++ f ++ e)), cs)

mutual

/-- A value.  `fuel` bounds the recursion (every second call consumes a character), `depth`
    is the number of levels still allowed. -/
def parseValue : ℕ → ℕ → List Char → Option (Value × List Char)
  | 0, _, _ => none
  | fuel + 1, depth, cs =>
    match skipWs cs with
    | '"' :: rest => (parseStr none rest).map (fun p => (.str (String.ofList p.1), p.2))
    | '[' :: rest =>
      if depth = 0 then none
      else match skipWs rest with
        | ']' :: rest => some (.arr [], rest)
        | rest => parseElems fuel (depth - 1) [] rest
    | '{' :: rest =>
      if depth = 0 then none
      else match skipWs rest with
        | '}' :: rest => some (.obj [], rest)
        | rest => parseFields fuel (depth - 1) [] rest
    | 't' :: 'r' :: 'u' :: 'e' :: rest => some (.bool true, rest)
    | 'f' :: 'a' :: 'l' :: 's' :: 'e' :: rest => some (.bool false, rest)
    | 'n' :: 'u' :: 'l' :: 'l' :: rest => some (.null, rest)
    | rest => parseNum rest

/-- The elements of an array up to its closing bracket; `acc` holds those read, last
    first. -/
def parseElems : ℕ → ℕ → List Value → List Char → Option (Value × List Char)
  | 0, _, _, _ => none
  | fuel + 1, depth, acc, cs =>
    match parseValue fuel depth cs with
    | none => none
    | some (v, rest) =>
      match skipWs rest with
      | ',' :: rest => parseElems fuel depth (v :: acc) rest
      | ']' :: rest => some (.arr (v :: acc).reverse, rest)
      | _ => none

/-- The fields of an object up to its closing brace. -/
def parseFields : ℕ → ℕ → List (String × Value) → List Char → Option (Value × List Char)
  | 0, _, _, _ => none
  | fuel + 1, depth, acc, cs =>
    match skipWs cs with
    | '"' :: rest =>
      match parseStr none rest with
      | none => none
      | some (k, rest) =>
        match skipWs rest with
        | ':' :: rest =>
          match parseValue fuel depth rest with
          | none => none
          | some (v, rest) =>
            match skipWs rest with
            | ',' :: rest => parseFields fuel depth ((String.ofList k, v) :: acc) rest
            | '}' :: rest => some (.obj ((String.ofList k, v) :: acc).reverse, rest)
            | _ => none
        | _ => none
    | _ => none

end

/-- The syntax check of `json.Unmarshal`: one value, then only white space. -/
def parse (cs : List Char) : Option Value :=
  match parseValue (2 * cs.length + 2) 10000 cs with
  | some (v, rest) => if skipWs rest = [] then some v else none
  | none => none

/-- `parse` on bytes. -/
def parseBytes (bs : List UInt8) : Option Value := parse (decodeRunes bs)

/-! ### Decoding into Go values -/

/-- Decode into a `string` holding `old`: `null` leaves it alone, other types are errors. -/
def decodeString (old : String) : Value → Option String
  | .str s => some s
  | .null => some old
  | _ => none

/-- Decode into a `map[string]string`; later fields win and a `null` stores the empty
    string. -/
def decodeStringMap : Value → Option (AList (fun _ : String => String))
  | .null => some ∅
  | .obj fields =>
    fields.foldlM (fun m f => (decodeString "" f.2).map (fun v => m.insert f.1 v)) ∅
  | _ => none

/-- Strings are decoded field by field. -/
theorem decodeStringMap_strings (fields : List (String × String)) :
    decodeStringMap (.obj (fields.map (fun f => (f.1, .str f.2))))
      = some (fields.foldl (fun m f => m.insert f.1 f.2) ∅) := by
  unfold decodeStringMap
  generalize (∅ : AList (fun _ : String => String)) = m
  induction fields generalizing m with
  | nil => rfl
  | cons f rest ih => exact ih (m.insert f.1 f.2)

/-- Decode the elements of an array into a `[]string` whose backing array is `mem`: element
    `i` is decoded over what is already there. -/
def decodeElems : List String → List Value → Option (List String)
  | _, [] => some []
  | mem, x :: xs => do
    let s ← decodeString (mem.headD "") x
    let ss ← decodeElems mem.tail xs
    return s :: ss

/-- Decode into a `[]string`: the new slice and its backing array. -/
def decodeStringSlice (mem : List String) : Value → Option (List String × List String)
  | .null => some ([], [])
  | .arr [] => some ([], [])
  | .arr (x :: xs) =>
    (decodeElems mem (x :: xs)).map (fun ss => (ss, ss ++ mem.drop ss.length))
  | _ => none

/-- The case folding under which field names are matched, on the characters that fold to an
    ASCII one. -/
def foldChar (c : Char) : Char :=
  if c = Char.ofNat 0x17F then 'S' else if c = Char.ofNat 0x212A then 'K' else c.toUpper

/-- Does the key select the struct field `name`? -/
def fieldMatches (name key : String) : Bool := key.toList.map foldChar == name.toList.map foldChar

/-! ### Encoding strings -/

/-- A lower-case hexadecimal digit. -/
def hexDigit (n : ℕ) : Char :=
  if n < 10 then Char.ofNat ('0'.toNat + n) else Char.ofNat ('a'.toNat + (n - 10))

/-- How `json.Marshal` writes one character of a string. -/
def encodeChar (c : Char) : List Char :=
  if c = '"' ∨ c = '\\' then ['\\', c]
  else if c = Char.ofNat 8 then ['\\', 'b']
  else if c = Char.ofNat 12 then ['\\', 'f']
  else if c = '\n' then ['\\', 'n']
  else if c = '\r' then ['\\', 'r']
  else if c = '\t' then ['\\', 't']
  else if c.toNat < 0x20 ∨ c = '<' ∨ c = '>' ∨ c = '&' then
    ['\\', 'u', '0', '0', hexDigit (c.toNat / 16), hexDigit (c.toNat % 16)]
  else if c.toNat = 0x2028 then ['\\', 'u', '2', '0', '2', '8']
  else if c.toNat = 0x2029 then ['\\', 'u', '2', '0', '2', '9']
  else [c]

/-- A string literal without its opening quote. -/
def encodeBody (s : List Char) : List Char := s.flatMap encodeChar ++ ['"']

/-- `json.Marshal` of a string. -/
def encodeString (s : String) : List Char := '"' :: encodeBody s.toList

theorem hexVal_hexDigit : ∀ n < 16, hexVal (hexDigit n) = some n := by decide

theorem hex4_hexDigit {n : ℕ} (h : n < 256) :
    hex4 '0' '0' (hexDigit (n / 16)) (hexDigit (n % 16)) = some n := by
  have h1 := hexVal_hexDigit (n / 16) (by omega)
  have h2 := hexVal_hexDigit (n % 16) (by omega)
  have h0 : hexVal '0' = some 0 := by decide
  simp only [hex4, h0, h1, h2, Option.some.injEq]
  omega

/-- Reading back one character: a `\u` escape of a code unit that is no surrogate. -/
theorem parseStr_unicode {a b c d : Char} {n : ℕ} (h : hex4 a b c d = some n) (hn : n < 0xD800)
    (rest : List Char) :
    parseStr none ('\\' :: 'u' :: a :: b :: c :: d :: rest)
      = prepend [Char.ofNat n] (parseStr none rest) := by
  rw [parseStr, h]
  have h1 : ¬ (0xDC00 ≤ n ∧ n < 0xE000) := by omega
  have h2 : ¬ (0xD800 ≤ n ∧ n < 0xDC00) := by omega
  simp only [if_neg h1, if_neg h2, flush, List.nil_append]

/-- Reading back one character that needs no escape. -/
theorem parseStr_plain {c : Char} (h1 : c ≠ '"') (h2 : c ≠ '\\') (h3 : ¬ c.toNat < 0x20)
    (rest : List Char) : parseStr none (c :: rest) = prepend [c] (parseStr none rest) := by
  rw [parseStr.eq_def]
  split
  · simp_all
  · simp_all
  · simp_all
  · simp_all
  · rename_i x t _ _ _ heq
    obtain ⟨rfl, rfl⟩ := List.cons.inj heq
    rw [if_neg (by simp [h2]; omega)]
    rfl

/-- Reading back one character. -/
theorem parseStr_encodeChar (c : Char) (rest : List Char) :
    parseStr none (encodeChar c ++ rest) = prepend [c] (parseStr none rest) := by
  unfold encodeChar
  split_ifs with h1 h2 h3 h4 h5 h6 h7 h8 h9
  · rcases h1 with rfl | rfl <;> simp [parseStr, unescape, flush]
  · subst h2; simp [parseStr, unescape, flush]
  · subst h3; simp [parseStr, unescape, flush]
  · subst h4; simp [parseStr, unescape, flush]
  · subst h5; simp [parseStr, unescape, flush]
  · subst h6; simp [parseStr, unescape, flush]
  · have hlt : c.toNat < 256 := by
      rcases h7 with h | rfl | rfl | rfl
      · omega
      all_goals decide
    have := parseStr_unicode (hex4_hexDigit hlt) (by omega) rest
    rwa [Char.ofNat_toNat] at this
  · have := parseStr_unicode (a := '2') (b := '0') (c := '2') (d := '8') (n := 0x2028)
      (by decide) (by omega) rest
    rwa [← h8, Char.ofNat_toNat] at this
  · have := parseStr_unicode (a := '2') (b := '0') (c := '2') (d := '9') (n := 0x2029)
      (by decide) (by omega) rest
    rwa [← h9, Char.ofNat_toNat] at this
  · rw [not_or] at h1
    exact parseStr_plain h1.1 h1.2 (by omega) rest

/-- **Round trip.** A marshalled string is read back, and nothing after it is touched. -/
theorem parseStr_encode (s rest : List Char) :
    parseStr none (encodeBody s ++ rest) = some (s, rest) := by
  induction s with
  | nil => simp [encodeBody, parseStr, flush]
  | cons c s ih =>
    have hsplit : encodeBody (c :: s) ++ rest = encodeChar c ++ (encodeBody s ++ rest) := by
      simp [encodeBody]
    rw [hsplit, parseStr_encodeChar, ih]
    rfl

/-! ### Encoding arrays and objects -/

/-- An array without its opening bracket, from the texts of its elements. -/
def elemsText : List (List Char) → List Char
  | [] => [']']
  | [e] => e ++ [']']
  | e :: e' :: es => e ++ ',' :: elemsText (e' :: es)

/-- `json.Marshal` of a slice, from the texts of its elements. -/
def encodeArray (es : List (List Char)) : List Char := '[' :: elemsText es

/-- An object without its opening brace, from its keys and the texts of their values. -/
def fieldsText : List (String × List Char) → List Char
  | [] => ['}']
  | [(k, e)] => encodeString k ++ ':' :: e ++ ['}']
  | (k, e) :: f :: fs => encodeString k ++ ':' :: e ++ ',' :: fieldsText (f :: fs)

/-- `json.Marshal` of a struct or map, from its keys and the texts of their values. -/
def encodeObject (fs : List (String × List Char)) : List Char := '{' :: fieldsText fs

/-- The text `e` is read as the value `v`, which is `d` levels deep; it starts with a quote or
    an opening bracket. -/
structure Encodes (d : ℕ) (e : List Char) (v : Value) : Prop where
  start : ∃ c cs, e = c :: cs ∧ (c = '"' ∨ c = '[' ∨ c = '{')
  parse : ∀ fuel depth rest, e.length < fuel → d ≤ depth →
    parseValue fuel depth (e ++ rest) = some (v, rest)

theorem skipWs_cons {c : Char} (h : c ≠ ' ' ∧ c ≠ '\t' ∧ c ≠ '\r' ∧ c ≠ '\n') (cs : List Char) :
    skipWs (c :: cs) = c :: cs := by
  unfold skipWs
  rw [List.dropWhile_cons_of_neg]
  simp [h.1, h.2.1, h.2.2.1, h.2.2.2]

section Steps
variable {fuel depth : ℕ} {cs rest tail : List Char} {v : Value}

theorem parseValue_quote :
    parseValue (fuel + 1) depth ('"' :: cs)
      = (parseStr none cs).map (fun p => (.str (String.ofList p.1), p.2)) := by
  rw [parseValue, skipWs_cons (by decide)]
  rfl

theorem parseValue_bracket (hd : depth ≠ 0) :
    parseValue (fuel + 1) depth ('[' :: cs)
      = match skipWs cs with
        | ']' :: rest => some (.arr [], rest)
        | rest => parseElems fuel (depth - 1) [] rest := by
  rw [parseValue, skipWs_cons (by decide)]
  exact if_neg hd

theorem parseValue_brace (hd : depth ≠ 0) :
    parseValue (fuel + 1) depth ('{' :: '"' :: cs)
      = parseFields fuel (depth - 1) [] ('"' :: cs) := by
  rw [parseValue, skipWs_cons (by decide)]
  refine (if_neg hd).trans ?_
  rw [skipWs_cons (by decide)]
  rfl

theorem parseElems_more {acc : List Value} (h : parseValue fuel depth cs = some (v, ',' :: rest)) :
    parseElems (fuel + 1) depth acc cs = parseElems fuel depth (v :: acc) rest := by
  rw [parseElems, h]
  show (match skipWs (',' :: rest) with
    | ',' :: rest => parseElems fuel depth (v :: acc) rest
    | ']' :: rest => some (.arr (v :: acc).reverse, rest)
    | _ => none) = _
  rw [skipWs_cons (by decide)]
  rfl

theorem parseElems_last {acc : List Value} (h : parseValue fuel depth cs = some (v, ']' :: rest)) :
    parseElems (fuel + 1) depth acc cs = some (.arr (v :: acc).reverse, rest) := by
  rw [parseElems, h]
  show (match skipWs (']' :: rest) with
    | ',' :: rest => parseElems fuel depth (v :: acc) rest
    | ']' :: rest => some (.arr (v :: acc).reverse, rest)
    | _ => none) = _
  rw [skipWs_cons (by decide)]
  rfl

/-- A key and its value. -/
theorem parseFields_field {acc : List (String × Value)} (k : String)
    (h : parseValue fuel depth cs = some (v, tail)) :
    parseFields (fuel + 1) depth acc (encodeString k ++ ':' :: cs)
      = match skipWs tail with
        | ',' :: rest => parseFields fuel depth ((k, v) :: acc) rest
        | '}' :: rest => some (.obj ((k, v) :: acc).reverse, rest)
        | _ => none := by
  show parseFields (fuel + 1) depth acc ('"' :: (encodeBody k.toList ++ ':' :: cs)) = _
  rw [parseFields, skipWs_cons (by decide)]
  show (match parseStr none (encodeBody k.toList ++ ':' :: cs) with
    | none => none
    | some (k, rest) => _) = _
  rw [parseStr_encode]
  show (match skipWs (':' :: cs) with
    | ':' :: rest => _
    | _ => none) = _
  rw [skipWs_cons (by decide)]
  show (match parseValue fuel depth cs with
    | none => none
    | some (v, rest) => _) = _
  rw [h, String.ofList_toList]

end Steps

theorem Encodes.mono {d d' : ℕ} {e : List Char} {v : Value} (h : Encodes d e v) (hd : d ≤ d') :
    Encodes d' e v :=
  ⟨h.start, fun fuel depth rest hf hle => h.parse fuel depth rest hf (le_trans hd hle)⟩

/-- A marshalled string. -/
theorem encodes_string (s : String) : Encodes 0 (encodeString s) (.str s) := by
  refine ⟨⟨'"', _, rfl, Or.inl rfl⟩, ?_⟩
  intro fuel depth rest hf _
  obtain ⟨fuel, rfl⟩ : ∃ n, fuel = n + 1 := ⟨fuel - 1, by omega⟩
  show parseValue (fuel + 1) depth ('"' :: (encodeBody s.toList ++ rest)) = _
  rw [parseValue_quote, parseStr_encode]
  simp

/-- The elements of a marshalled slice. -/
theorem parseElems_elemsText {d : ℕ} {es : List (List Char)} {vs : List Value}
    (h : List.Forall₂ (Encodes d) es vs) (hne : es ≠ []) :
    ∀ fuel depth acc rest, (elemsText es).length < fuel → d ≤ depth →
      parseElems fuel depth acc (elemsText es ++ rest) = some (.arr (acc.reverse ++ vs), rest) := by
  induction h with
  | nil => exact absurd rfl hne
  | @cons e v es vs he hes ih =>
    intro fuel depth acc rest hf hd
    obtain ⟨fuel, rfl⟩ : ∃ n, fuel = n + 1 := ⟨fuel - 1, by omega⟩
    cases hes with
    | nil =>
      have hlen : e.length < fuel := by
        simp only [elemsText, List.length_append, List.length_singleton] at hf
        omega
      rw [elemsText, List.append_assoc, List.singleton_append,
        parseElems_last (he.parse fuel depth _ hlen hd)]
      simp
    | @cons e' v' es' vs' he' hes' =>
      have hlen : (elemsText (e' :: es')).length < fuel ∧ e.length < fuel := by
        simp only [elemsText, List.length_append, List.length_cons] at hf ⊢
        omega
      rw [elemsText, List.append_assoc, List.cons_append,
        parseElems_more (he.parse fuel depth _ hlen.2 hd),
        ih (by simp) fuel depth (v :: acc) rest hlen.1 hd]
      simp

/-- A marshalled slice. -/
theorem encodes_array {d : ℕ} {es : List (List Char)} {vs : List Value}
    (h : List.Forall₂ (Encodes d) es vs) : Encodes (d + 1) (encodeArray es) (.arr vs) := by
  refine ⟨⟨'[', _, rfl, Or.inr (Or.inl rfl)⟩, ?_⟩
  intro fuel depth rest hf hd
  obtain ⟨fuel, rfl⟩ : ∃ n, fuel = n + 1 := ⟨fuel - 1, by omega⟩
  have hlen : (elemsText es).length < fuel := by
    simp only [encodeArray, List.length_cons] at hf; omega
  show parseValue (fuel + 1) depth ('[' :: (elemsText es ++ rest)) = _
  rw [parseValue_bracket (by omega)]
  cases h with
  | nil =>
    show (match skipWs (']' :: rest) with
      | ']' :: rest => some (Value.arr [], rest)
      | rest => parseElems fuel (depth - 1) [] rest) = _
    rw [skipWs_cons (by decide)]
    rfl
  | @cons e v es vs he hes =>
    -- the first element does not start with a closing bracket
    obtain ⟨c, cs, hc, hstart⟩ := he.start
    obtain ⟨tail, htail⟩ : ∃ tail, elemsText (e :: es) ++ rest = c :: tail := by
      cases es with
      | nil => exact ⟨_, by rw [elemsText, hc]; rfl⟩
      | cons e' es => exact ⟨_, by rw [elemsText, hc]; rfl⟩
    have hne : c ≠ ']' := by rcases hstart with rfl | rfl | rfl <;> decide
    have hws : c ≠ ' ' ∧ c ≠ '\t' ∧ c ≠ '\r' ∧ c ≠ '\n' := by
      rcases hstart with rfl | rfl | rfl <;> decide
    have helems := parseElems_elemsText (.cons he hes) (by simp) fuel (depth - 1) [] rest hlen
      (by omega)
    rw [htail] at helems ⊢
    rw [skipWs_cons hws]
    split
    · rename_i heq
      exact absurd (List.cons.inj heq).1 hne
    · exact helems

/-- The fields of a marshalled object. -/
theorem parseFields_fieldsText {d : ℕ} {fs : List (String × List Char)}
    {vs : List (String × Value)}
    (h : List.Forall₂ (fun f v => f.1 = v.1 ∧ Encodes d f.2 v.2) fs vs) (hne : fs ≠ []) :
    ∀ fuel depth acc rest, (fieldsText fs).length < fuel → d ≤ depth →
      parseFields fuel depth acc (fieldsText fs ++ rest)
        = some (.obj (acc.reverse ++ vs), rest) := by
  induction h with
  | nil => exact absurd rfl hne
  | @cons f v fs vs hf hfs ih =>
    obtain ⟨k, e⟩ := f
    obtain ⟨k', v⟩ := v
    obtain ⟨rfl, he⟩ := hf
    intro fuel depth acc rest hfuel hd
    -- the last field is followed by a brace, every other one by a comma and the rest
    obtain ⟨fuel, rfl⟩ : ∃ n, fuel = n + 1 := ⟨fuel - 1, by omega⟩
    cases hfs with
    | nil =>
      have hlen : e.length < fuel := by
        simp only [fieldsText, List.length_append, List.length_cons, List.length_nil] at hfuel
        omega
      have htext : fieldsText [(k, e)] ++ rest = encodeString k ++ ':' :: (e ++ '}' :: rest) := by
        simp [fieldsText]
      rw [htext, parseFields_field k (he.parse fuel depth _ hlen hd), skipWs_cons (by decide)]
      show some (Value.obj ((k, v) :: acc).reverse, rest) = _
      simp
    | @cons f' v' fs' vs' hf' hfs' =>
      have hlen : (fieldsText (f' :: fs')).length < fuel ∧ e.length < fuel := by
        simp only [fieldsText, List.length_append, List.length_cons] at hfuel ⊢
        omega
      have htext : fieldsText ((k, e) :: f' :: fs') ++ rest
          = encodeString k ++ ':' :: (e ++ ',' :: (fieldsText (f' :: fs') ++ rest)) := by
        simp [fieldsText]
      rw [htext, parseFields_field k (he.parse fuel depth _ hlen.2 hd), skipWs_cons (by decide)]
      show parseFields fuel depth ((k, v) :: acc) (fieldsText (f' :: fs') ++ rest) = _
      rw [ih (by simp) fuel depth ((k, v) :: acc) rest hlen.1 hd]
      simp

/-- A marshalled object with at least one field. -/
theorem encodes_object {d : ℕ} {fs : List (String × List Char)} {vs : List (String × Value)}
    (h : List.Forall₂ (fun f v => f.1 = v.1 ∧ Encodes d f.2 v.2) fs vs) (hne : fs ≠ []) :
    Encodes (d + 1) (encodeObject fs) (.obj vs) := by
  refine ⟨⟨'{', _, rfl, Or.inr (Or.inr rfl)⟩, ?_⟩
  intro fuel depth rest hf hd
  obtain ⟨fuel, rfl⟩ : ∃ n, fuel = n + 1 := ⟨fuel - 1, by omega⟩
  have hlen : (fieldsText fs).length < fuel := by
    simp only [encodeObject, List.length_cons] at hf; omega
  have hfields := parseFields_fieldsText h hne fuel (depth - 1) [] rest hlen (by omega)
  -- the text starts with the quote of the first key
  obtain ⟨tail, htail⟩ : ∃ tail, fieldsText fs ++ rest = '"' :: tail := by
    obtain ⟨⟨k, e⟩, fs, rfl⟩ := List.exists_cons_of_ne_nil hne
    cases fs with
    | nil => exact ⟨_, rfl⟩
    | cons f fs => exact ⟨_, rfl⟩
  show parseValue (fuel + 1) depth ('{' :: (fieldsText fs ++ rest)) = _
  rw [htail] at hfields ⊢
  rw [parseValue_brace (by omega)]
  exact hfields

/-- **Round trip.** A marshalled value followed by white space is read back. -/
theorem parse_of_encodes {d : ℕ} {e : List Char} {v : Value} (h : Encodes d e v)
    (hd : d ≤ 10000) {ws : List Char} (hws : skipWs ws = []) : parse (e ++ ws) = some v := by
  unfold parse
  rw [h.parse _ _ ws (by simp only [List.length_append]; omega) hd]
  simp [hws]

end Go.Json
