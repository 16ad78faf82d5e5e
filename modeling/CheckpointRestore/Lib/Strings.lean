import Mathlib.Data.List.Basic
import Mathlib.Data.List.Infix
import Mathlib.Data.String.Basic

namespace Go.Strings

/-!
# Go's `strings` and `strconv.Quote`

The few functions programs build names and messages with.  `quote` and `quoteRune` are the
`%q` of `fmt`; which characters beyond ASCII count as printable is left to a parameter.
-/

/-- `strings.HasPrefix`. -/
def hasPrefix (s p : String) : Bool := p.toList.isPrefixOf s.toList

/-- `strings.HasSuffix`. -/
def hasSuffix (s p : String) : Bool := p.toList.isSuffixOf s.toList

/-- `strings.CutPrefix`: what follows the prefix, if it is there. -/
def cutPrefix (s p : String) : Option String :=
  if hasPrefix s p then some (String.ofList (s.toList.drop p.toList.length)) else none

/-- `strings.Cut` at a character: the text before and after its first occurrence. -/
def cut (s : String) (sep : Char) : Option (String × String) :=
  match s.toList.dropWhile (· ≠ sep) with
  | [] => none
  | _ :: rest => some (String.ofList (s.toList.takeWhile (· ≠ sep)), String.ofList rest)

/-- White space, as `unicode.IsSpace` has it. -/
def isSpace (c : Char) : Bool :=
  c.toNat ∈ [0x09, 0x0A, 0x0B, 0x0C, 0x0D, 0x20, 0x85, 0xA0, 0x1680, 0x2028, 0x2029, 0x202F,
    0x205F, 0x3000] || (0x2000 ≤ c.toNat && c.toNat ≤ 0x200A)

/-- `strings.TrimSpace`. -/
def trimSpace (s : String) : String :=
  String.ofList ((s.toList.dropWhile isSpace).reverse.dropWhile isSpace).reverse

/-- `strings.Contains`. -/
def contains (s sub : String) : Bool := s.toList.tails.any (fun t => sub.toList.isPrefixOf t)

/-- `strings.Fields`: the maximal runs of characters that are not white space. -/
def fields (s : String) : List String :=
  ((s.toList.splitOnP isSpace).filter (· ≠ [])).map String.ofList

/-- A lower-case hexadecimal digit. -/
def hexDigit (n : ℕ) : Char := if n < 10 then Char.ofNat (48 + n) else Char.ofNat (87 + n)

/-- `n` in hexadecimal, at least `width` digits. -/
def hex : ℕ → ℕ → List Char
  | 0, _ => []
  | width + 1, n => hex width (n / 16) ++ [hexDigit (n % 16)]

/-- One character between the quotes `q`. -/
def quoteChar (isPrint : Char → Bool) (q c : Char) : List Char :=
  if c = q ∨ c = '\\' then ['\\', c]
  else if 0x20 ≤ c.toNat ∧ c.toNat < 0x7F then [c]
  else if 0x7F < c.toNat ∧ isPrint c then [c]
  else match c.toNat with
    | 7 => ['\\', 'a']
    | 8 => ['\\', 'b']
    | 9 => ['\\', 't']
    | 10 => ['\\', 'n']
    | 11 => ['\\', 'v']
    | 12 => ['\\', 'f']
    | 13 => ['\\', 'r']
    | n =>
      if n < 0x20 ∨ n = 0x7F then '\\' :: 'x' :: hex 2 n
      else if n < 0x10000 then '\\' :: 'u' :: hex 4 n
      else '\\' :: 'U' :: hex 8 n

/-- `strconv.Quote`. -/
def quote (isPrint : Char → Bool) (s : String) : String :=
  String.ofList ('"' :: s.toList.flatMap (quoteChar isPrint '"') ++ ['"'])

/-- `strconv.QuoteRune`, the `%q` of a character. -/
def quoteRune (isPrint : Char → Bool) (c : Char) : String :=
  String.ofList ('\'' :: quoteChar isPrint '\'' c ++ ['\''])

theorem hasPrefix_iff {s p : String} : hasPrefix s p = true ↔ ∃ t, s = p ++ t := by
  rw [hasPrefix, List.isPrefixOf_iff_prefix]
  constructor
  · rintro ⟨t, ht⟩
    refine ⟨String.ofList t, ?_⟩
    rw [← String.toList_inj, String.toList_append, String.toList_ofList, ht]
  · rintro ⟨t, rfl⟩
    exact ⟨t.toList, by rw [String.toList_append]⟩

theorem hasPrefix_append (p t : String) : hasPrefix (p ++ t) p = true :=
  hasPrefix_iff.mpr ⟨t, rfl⟩

theorem cutPrefix_append (p t : String) : cutPrefix (p ++ t) p = some t := by
  rw [cutPrefix, if_pos (hasPrefix_append p t), String.toList_append, List.drop_left,
    String.ofList_toList]

/-- A text that does not contain the separator is cut behind it. -/
theorem cut_append {sep : Char} {a b : String} (ha : sep ∉ a.toList) :
    cut (a ++ String.ofList [sep] ++ b) sep = some (a, b) := by
  have hall : ∀ c ∈ a.toList, decide (c ≠ sep) = true := by
    intro c hc
    simpa using fun h : c = sep => ha (h ▸ hc)
  have htext : (a ++ String.ofList [sep] ++ b).toList = a.toList ++ sep :: b.toList := by
    simp
  rw [cut, htext, List.dropWhile_append_of_pos hall, List.takeWhile_append_of_pos hall]
  simp

/-- Texts in front of the first separator can be told. -/
theorem append_sep_inj {sep : Char} {x x' y y' : List Char} (h : sep ∉ x) (h' : sep ∉ x') :
    x ++ sep :: y = x' ++ sep :: y' ↔ x = x' ∧ y = y' := by
  constructor
  · intro heq
    rcases List.append_eq_append_iff.mp heq with ⟨a, rfl, hrest⟩ | ⟨a, rfl, hrest⟩
    · cases a with
      | nil => exact ⟨by simp, by simpa using hrest⟩
      | cons c a =>
        obtain ⟨rfl, -⟩ := List.cons.inj hrest
        exact absurd (by simp) h'
    · cases a with
      | nil => exact ⟨by simp, by simpa using hrest.symm⟩
      | cons c a =>
        obtain ⟨rfl, -⟩ := List.cons.inj hrest
        exact absurd (by simp) h
  · rintro ⟨rfl, rfl⟩
    rfl

/-- A field is never empty. -/
theorem ne_empty_of_mem_fields {s f : String} (h : f ∈ fields s) : f ≠ "" := by
  obtain ⟨cs, hcs, rfl⟩ := List.mem_map.mp h
  have hne : cs ≠ [] := by simpa using (List.mem_filter.mp hcs).2
  intro h0
  exact hne (by rw [← String.toList_ofList (l := cs), h0]; rfl)

/-! ### Reading a quoted text -/

/-- The value of a hexadecimal digit. -/
def hexValue (c : Char) : ℕ := if c.toNat < 58 then c.toNat - 48 else c.toNat - 87

/-- The number that hexadecimal digits stand for. -/
def hexNumber (l : List Char) : ℕ := l.foldl (fun n c => 16 * n + hexValue c) 0

theorem hexValue_hexDigit {n : ℕ} (h : n < 16) : hexValue (hexDigit n) = n := by
  have hall : ∀ n < 16, hexValue (hexDigit n) = n := by decide
  exact hall n h

theorem hexNumber_hex (w n : ℕ) : hexNumber (hex w n) = n % 16 ^ w := by
  induction w generalizing n with
  | zero => simp [hexNumber, hex, Nat.mod_one]
  | succ w ih =>
    have hdigits : hexNumber (hex w (n / 16) ++ [hexDigit (n % 16)])
        = 16 * hexNumber (hex w (n / 16)) + n % 16 := by
      simp only [hexNumber, List.foldl_append, List.foldl_cons, List.foldl_nil]
      rw [hexValue_hexDigit (Nat.mod_lt _ (by decide))]
    rw [hex, hdigits, ih, Nat.pow_succ, Nat.mul_comm (16 ^ w) 16, Nat.mod_mul]
    omega

theorem length_hex (w n : ℕ) : (hex w n).length = w := by
  induction w generalizing n with
  | zero => rfl
  | succ w ih => rw [hex, List.length_append, ih]; rfl

/-- The character behind a backslash, as a number. -/
def unescape : List Char → ℕ
  | [] => 0
  | c :: l => match c with
    | 'a' => 7
    | 'b' => 8
    | 't' => 9
    | 'n' => 10
    | 'v' => 11
    | 'f' => 12
    | 'r' => 13
    | 'x' => hexNumber (l.take 2)
    | 'u' => hexNumber (l.take 4)
    | 'U' => hexNumber (l.take 8)
    | c => c.toNat

/-- The first character of a quoted text, as a number. -/
def unquote : List Char → ℕ
  | [] => 0
  | c :: l => if c = '\\' then unescape l else c.toNat

theorem hexNumber_take {w n : ℕ} (h : n < 16 ^ w) (l : List Char) :
    hexNumber ((hex w n ++ l).take w) = n := by
  rw [List.take_left' (length_hex w n), hexNumber_hex, Nat.mod_eq_of_lt h]

theorem unquote_quoteChar (isPrint : Char → Bool) (c : Char) (l : List Char) :
    unquote (quoteChar isPrint '"' c ++ l) = c.toNat := by
  unfold quoteChar
  split_ifs with hq hraw hprint
  · rcases hq with rfl | rfl <;> rfl
  · rw [not_or] at hq
    simp only [List.singleton_append, unquote, if_neg hq.2]
  · rw [not_or] at hq
    simp only [List.singleton_append, unquote, if_neg hq.2]
  · split
    all_goals first | (rename_i h; rw [h]; rfl) | skip
    -- the numbers in hexadecimal, two, four and eight digits long
    split_ifs with hx hu
    · exact hexNumber_take (by omega) l
    · exact hexNumber_take (by omega) l
    · exact hexNumber_take c.val.toNat_lt l

/-- A quoted text has only one reading. -/
theorem quoteChars_inj {isPrint : Char → Bool} {l l' : List Char}
    (h : l.flatMap (quoteChar isPrint '"') ++ ['"'] = l'.flatMap (quoteChar isPrint '"') ++ ['"']) :
    l = l' := by
  -- no character is written as the closing quote
  have hclose : ∀ (c : Char) (t : List Char), ['"'] ≠ quoteChar isPrint '"' c ++ t := by
    intro c t heq
    have hc : '"'.toNat = c.toNat := (congrArg unquote heq).trans (unquote_quoteChar isPrint c t)
    obtain rfl := Char.toNat_inj.mp hc
    exact absurd heq (by simp [quoteChar])
  induction l generalizing l' with
  | nil =>
    cases l' with
    | nil => rfl
    | cons c l' =>
      rw [List.flatMap_cons, List.append_assoc] at h
      exact absurd h (hclose c _)
  | cons c l ih =>
    cases l' with
    | nil =>
      rw [List.flatMap_cons, List.append_assoc] at h
      exact absurd h.symm (hclose c _)
    | cons c' l' =>
      rw [List.flatMap_cons, List.flatMap_cons, List.append_assoc, List.append_assoc] at h
      have hc := congrArg unquote h
      rw [unquote_quoteChar, unquote_quoteChar] at hc
      obtain rfl := Char.toNat_inj.mp hc
      rw [ih (List.append_cancel_left h)]

theorem quote_inj {isPrint : Char → Bool} {s t : String} :
    quote isPrint s = quote isPrint t ↔ s = t := by
  refine ⟨fun h => ?_, fun h => h ▸ rfl⟩
  have hlist := String.ofList_inj.mp h
  exact String.toList_inj.mp (quoteChars_inj (List.cons.inj hlist).2)

example : quote (fun _ => false) "a\"b\n" = "\"a\\\"b\\n\"" := by decide
example : fields " ab  c\n" = ["ab", "c"] := by decide

end Go.Strings
