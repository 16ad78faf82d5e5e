import Mathlib.Data.List.Sort
import Mathlib.Data.String.Basic
import CheckpointRestore.Lib.Filepath

namespace Go.Filepath

/-!
# Go's `filepath.Match` and `filepath.Glob`

A pattern is read into a list of terms (`parsePattern`, `none` for `ErrBadPattern`) and the
terms are matched against a name: `*` is any run of non-separators, `?` one of them, `[…]` a
character class, `\c` the character `c`.  `glob` matches element by element, as `Glob` does by
walking the directories.

* `matchTerms_append` — a concatenation of terms matches concatenations of matches;
* `parsePattern_tail` — text without a closing bracket at the end of a well-formed pattern is
  read as it stands, whatever comes before it;
* `matchPattern_suffix` — so what matches a pattern ending in literal text ends in that text.
-/

/-! ### Patterns -/

/-- A pattern character, and whether it was escaped. -/
inductive Sym where
  | raw (c : Char)
  | esc (c : Char)
  deriving DecidableEq

/-- The character of a symbol. -/
def Sym.char : Sym → Char
  | .raw c => c
  | .esc c => c

/-- Resolve escapes; a trailing backslash is an error. -/
def readSyms : List Char → Option (List Sym)
  | [] => some []
  | '\\' :: c :: rest => (readSyms rest).map (.esc c :: ·)
  | c :: rest => if c = '\\' then none else (readSyms rest).map (.raw c :: ·)

/-- One term of a pattern. -/
inductive Term where
  | lit (c : Char)
  | any
  | star
  | cls (negated : Bool) (ranges : List (Char × Char))
  deriving DecidableEq

mutual

/-- Read the terms of a pattern. -/
def parseTerms : List Sym → Option (List Term)
  | [] => some []
  | .raw '*' :: rest => (parseTerms rest).map (.star :: ·)
  | .raw '?' :: rest => (parseTerms rest).map (.any :: ·)
  | .raw '[' :: .raw '^' :: rest => parseClass true [] rest
  | .raw '[' :: rest => parseClass false [] rest
  | s :: rest => (parseTerms rest).map (.lit s.char :: ·)

/-- Read a character class up to its closing bracket, then the terms after it; `ranges` are
    those read so far, last first. -/
def parseClass (negated : Bool) (ranges : List (Char × Char)) : List Sym → Option (List Term)
  | [] => none
  | .raw ']' :: rest =>
    if ranges = [] then none
    else (parseTerms rest).map (.cls negated ranges.reverse :: ·)
  | lo :: .raw '-' :: hi :: rest =>
    if lo = .raw '-' ∨ hi = .raw '-' ∨ hi = .raw ']' then none
    else parseClass negated ((lo.char, hi.char) :: ranges) rest
  | lo :: rest =>
    if lo = .raw '-' then none else parseClass negated ((lo.char, lo.char) :: ranges) rest

end

/-- Read a pattern; `none` is `ErrBadPattern`. -/
def parsePattern (p : List Char) : Option (List Term) := (readSyms p).bind parseTerms

/-! ### Matching -/

/-- Does a term other than `*` match the character? -/
def Term.admits : Term → Char → Bool
  | .lit c, x => x == c
  | .any, x => x != '/'
  | .star, _ => false
  | .cls negated ranges, x => ranges.any (fun r => decide (r.1 ≤ x ∧ x ≤ r.2)) != negated

/-- Skip any run of non-separators, then continue with `k`. -/
def starMatch (k : List Char → Bool) : List Char → Bool
  | [] => k []
  | c :: cs => k (c :: cs) || (c != '/' && starMatch k cs)

/-- Match terms against a whole name. -/
def matchTerms : List Term → List Char → Bool
  | [], name => name.isEmpty
  | .star :: ts, name => starMatch (matchTerms ts) name
  | t :: ts, c :: cs => t.admits c && matchTerms ts cs
  | _ :: _, [] => false

/-- `filepath.Match`; `none` is `ErrBadPattern`. -/
def matchPattern (p name : List Char) : Option Bool := (parsePattern p).map (matchTerms · name)

variable {name : List Char}

/-- `k` is reached after some run of non-separators. -/
theorem starMatch_iff {k : List Char → Bool} :
    starMatch k name = true ↔ ∃ a b, name = a ++ b ∧ '/' ∉ a ∧ k b = true := by
  induction name with
  | nil =>
    refine ⟨fun h => ⟨[], [], rfl, by simp, h⟩, ?_⟩
    rintro ⟨a, b, h, -, hk⟩
    obtain ⟨rfl, rfl⟩ := List.append_eq_nil_iff.mp h.symm
    exact hk
  | cons c cs ih =>
    rw [starMatch, Bool.or_eq_true, Bool.and_eq_true, bne_iff_ne, ih]
    constructor
    · rintro (h | ⟨hc, a, b, rfl, ha, hk⟩)
      · exact ⟨[], c :: cs, rfl, by simp, h⟩
      · exact ⟨c :: a, b, rfl, by simp [ha, Ne.symm hc], hk⟩
    · rintro ⟨a, b, h, ha, hk⟩
      cases a with
      | nil => left; rw [h]; exact hk
      | cons x xs =>
        obtain ⟨rfl, rfl⟩ := List.cons.inj h
        rw [List.mem_cons, not_or] at ha
        exact Or.inr ⟨Ne.symm ha.1, xs, b, rfl, ha.2, hk⟩

/-- Matching a term that is not `*`. -/
theorem matchTerms_cons {t : Term} (ht : t ≠ .star) (ts : List Term) (name : List Char) :
    matchTerms (t :: ts) name = true
      ↔ ∃ c cs, name = c :: cs ∧ t.admits c = true ∧ matchTerms ts cs = true := by
  cases name with
  | nil => cases t <;> simp_all [matchTerms]
  | cons c cs => cases t <;> simp_all [matchTerms]

/-- A concatenation of terms matches exactly the concatenations of what its parts match. -/
theorem matchTerms_append (ts us : List Term) (name : List Char) :
    matchTerms (ts ++ us) name = true
      ↔ ∃ a b, name = a ++ b ∧ matchTerms ts a = true ∧ matchTerms us b = true := by
  induction ts generalizing name with
  | nil =>
    constructor
    · exact fun h => ⟨[], name, rfl, rfl, h⟩
    · rintro ⟨a, b, rfl, ha, hb⟩
      rw [matchTerms, List.isEmpty_iff] at ha
      subst ha; exact hb
  | cons t ts ih =>
    by_cases ht : t = .star
    · subst ht
      rw [List.cons_append, matchTerms, starMatch_iff]
      constructor
      · rintro ⟨a, b, rfl, ha, hb⟩
        obtain ⟨b₁, b₂, rfl, h₁, h₂⟩ := (ih b).mp hb
        exact ⟨a ++ b₁, b₂, by simp, starMatch_iff.mpr ⟨a, b₁, rfl, ha, h₁⟩, h₂⟩
      · rintro ⟨x, b₂, rfl, hx, h₂⟩
        obtain ⟨a, b₁, rfl, ha, h₁⟩ := starMatch_iff.mp hx
        exact ⟨a, b₁ ++ b₂, by simp, ha, (ih _).mpr ⟨b₁, b₂, rfl, h₁, h₂⟩⟩
    · rw [List.cons_append, matchTerms_cons ht]
      constructor
      · rintro ⟨c, cs, rfl, hc, hcs⟩
        obtain ⟨a, b, rfl, ha, hb⟩ := (ih cs).mp hcs
        exact ⟨c :: a, b, rfl, (matchTerms_cons ht _ _).mpr ⟨c, a, rfl, hc, ha⟩, hb⟩
      · rintro ⟨x, b, rfl, hx, hb⟩
        obtain ⟨c, cs, rfl, hc, hcs⟩ := (matchTerms_cons ht _ _).mp hx
        exact ⟨c, cs ++ b, rfl, hc, (ih _).mpr ⟨cs, b, rfl, hcs, hb⟩⟩

/-- Literal terms match their own text only. -/
theorem matchTerms_lits (cs name : List Char) :
    matchTerms (cs.map .lit) name = true ↔ name = cs := by
  induction cs generalizing name with
  | nil => simp [matchTerms]
  | cons c cs ih =>
    rw [List.map_cons, matchTerms_cons (by simp)]
    constructor
    · rintro ⟨x, xs, rfl, hx, hxs⟩
      rw [Term.admits, beq_iff_eq] at hx
      rw [(ih xs).mp hxs, hx]
    · rintro rfl
      exact ⟨c, cs, rfl, by simp [Term.admits], (ih cs).mpr rfl⟩

/-- Literals match their own text and leave the rest to what follows. -/
theorem matchTerms_lits_append (cs : List Char) (ts : List Term) (name : List Char) :
    matchTerms (cs.map .lit ++ ts) name = true
      ↔ ∃ b, name = cs ++ b ∧ matchTerms ts b = true := by
  rw [matchTerms_append]
  constructor
  · rintro ⟨a, b, rfl, ha, hb⟩
    rw [matchTerms_lits] at ha
    exact ⟨b, by rw [ha], hb⟩
  · rintro ⟨b, rfl, hb⟩
    exact ⟨cs, b, rfl, (matchTerms_lits cs cs).mpr rfl, hb⟩

theorem matchTerms_star (ts : List Term) (name : List Char) :
    matchTerms (.star :: ts) name = true
      ↔ ∃ a b, name = a ++ b ∧ '/' ∉ a ∧ matchTerms ts b = true := by
  rw [matchTerms, starMatch_iff]

variable {ts : List Term}

/-- Terms without a `*` match one character each. -/
theorem forall₂_of_matchTerms (hts : .star ∉ ts) (h : matchTerms ts name = true) :
    List.Forall₂ (fun t c => t.admits c = true) ts name := by
  induction ts generalizing name with
  | nil =>
    rw [matchTerms, List.isEmpty_iff] at h
    rw [h]
    exact .nil
  | cons t ts ih =>
    rw [List.mem_cons, not_or] at hts
    obtain ⟨c, cs, rfl, hc, hcs⟩ := (matchTerms_cons (Ne.symm hts.1) ts name).mp h
    exact .cons hc (ih hts.2 hcs)

/-- A character no term admits is not in what the terms match. -/
theorem notMem_of_matchTerms (hts : .star ∉ ts) {x : Char} (hx : ∀ t ∈ ts, t.admits x = false)
    (h : matchTerms ts name = true) : x ∉ name := by
  have hall := forall₂_of_matchTerms hts h
  clear h hts
  induction hall with
  | nil => exact List.not_mem_nil
  | @cons t c ts cs hc _ ih =>
    rw [List.mem_cons, not_or]
    refine ⟨?_, ih (fun t ht => hx t (List.mem_cons_of_mem _ ht))⟩
    rintro rfl
    rw [hx t List.mem_cons_self] at hc
    exact absurd hc (by simp)

/-! ### The end of a pattern -/

/-- A class that is read to its end closes at an unescaped bracket, and the terms after it
    are read from there. -/
theorem parseClass_closes {n : ℕ} : ∀ {syms : List Sym}, syms.length ≤ n →
    ∀ {negated : Bool} {ranges : List (Char × Char)} {ts : List Term},
    parseClass negated ranges syms = some ts →
    ∃ a b c ts', syms = a ++ .raw ']' :: b ∧ parseTerms b = some ts' ∧ ts = c :: ts' := by
  induction n with
  | zero =>
    intro syms hlen negated ranges ts h
    have : syms = [] := List.length_eq_zero_iff.mp (by omega)
    subst this
    simp [parseClass] at h
  | succ n ih =>
    intro syms hlen negated ranges ts h
    rw [parseClass.eq_def] at h
    split at h
    · exact absurd h (by simp)
    · rename_i rest
      split at h
      · exact absurd h (by simp)
      · obtain ⟨ts', hts, rfl⟩ := Option.map_eq_some_iff.mp h
        exact ⟨[], rest, _, ts', rfl, hts, rfl⟩
    · rename_i lo hi rest _
      split at h
      · exact absurd h (by simp)
      · obtain ⟨a, b, c, ts', rfl, hb, rfl⟩ := ih (by simp only [List.length_cons] at hlen; omega) h
        exact ⟨lo :: .raw '-' :: hi :: a, b, c, ts', by simp, hb, rfl⟩
    · rename_i lo rest _ _
      split at h
      · exact absurd h (by simp)
      · obtain ⟨a, b, c, ts', rfl, hb, rfl⟩ := ih (by simp only [List.length_cons] at hlen; omega) h
        exact ⟨lo :: a, b, c, ts', by simp, hb, rfl⟩

/-- If `a ++ x :: b = p ++ q` and `x` is not in `q`, the `x` lies in `p`. -/
theorem append_cons_of_not_mem {α : Type} {a b p q : List α} {x : α}
    (h : a ++ x :: b = p ++ q) (hx : x ∉ q) : ∃ b', b = b' ++ q ∧ b'.length < p.length := by
  rcases List.append_eq_append_iff.mp h with ⟨c, rfl, hc⟩ | ⟨c, rfl, rfl⟩
  · cases c with
    | nil => exact absurd (by rw [List.nil_append] at hc; rw [← hc]; simp) hx
    | cons y ys =>
      rw [List.cons_append, List.cons.injEq] at hc
      refine ⟨ys, hc.2, ?_⟩
      simp only [List.length_append, List.length_cons]; omega
  · exact absurd (by simp) hx

/-- The terms of a pattern whose end has no closing bracket: that end is read from the top
    level, whatever stands before it. -/
theorem parseTerms_tail {n : ℕ} : ∀ {p : List Sym}, p.length ≤ n → ∀ {q : List Sym},
    .raw ']' ∉ q → ∀ {ts : List Term}, parseTerms (p ++ q) = some ts →
    ∃ ts₁ ts₂, ts = ts₁ ++ ts₂ ∧ parseTerms q = some ts₂ := by
  induction n with
  | zero =>
    intro p hlen q _ ts h
    have : p = [] := List.length_eq_zero_iff.mp (by omega)
    subst this
    exact ⟨[], ts, rfl, h⟩
  | succ n ih =>
    intro p hlen q hq ts h
    -- inside a class the bracket that closes it is in `p`
    have hclass : ∀ (p' : List Sym) {syms : List Sym} {neg : Bool} {rs : List (Char × Char)},
        syms = p' ++ q → p'.length ≤ n → parseClass neg rs syms = some ts →
        ∃ ts₁ ts₂, ts = ts₁ ++ ts₂ ∧ parseTerms q = some ts₂ := by
      intro p' syms neg rs hs hp' hc
      obtain ⟨a, b, c, ts', hab, hb, rfl⟩ := parseClass_closes le_rfl hc
      obtain ⟨b', rfl, hlt⟩ := append_cons_of_not_mem (hab.symm.trans hs) hq
      obtain ⟨ts₁, ts₂, rfl, h₂⟩ := ih (by omega) hq hb
      exact ⟨c :: ts₁, ts₂, rfl, h₂⟩
    have hterm : ∀ {p' : List Sym} {t : Term}, p'.length ≤ n →
        (parseTerms (p' ++ q)).map (t :: ·) = some ts →
        ∃ ts₁ ts₂, ts = ts₁ ++ ts₂ ∧ parseTerms q = some ts₂ := by
      intro p' t hp' hm
      obtain ⟨ts', hts, rfl⟩ := Option.map_eq_some_iff.mp hm
      obtain ⟨ts₁, ts₂, rfl, h₂⟩ := ih hp' hq hts
      exact ⟨t :: ts₁, ts₂, rfl, h₂⟩
    cases p with
    | nil => exact ⟨[], ts, rfl, h⟩
    | cons s p =>
      have hp : p.length ≤ n := by simp only [List.length_cons] at hlen; omega
      rw [List.cons_append, parseTerms.eq_def] at h
      split at h
      · rename_i heq; exact absurd heq (by simp)
      · rename_i rest heq; obtain ⟨rfl, rfl⟩ := List.cons.inj heq; exact hterm hp h
      · rename_i rest heq; obtain ⟨rfl, rfl⟩ := List.cons.inj heq; exact hterm hp h
      · rename_i rest heq
        obtain ⟨rfl, hrest⟩ := List.cons.inj heq
        cases p with
        | nil =>
          -- the `^` is already the first symbol of `q`
          obtain ⟨a, b, c, ts', hab, hb, rfl⟩ := parseClass_closes le_rfl h
          rw [List.nil_append] at hrest
          exact absurd (by rw [hrest, hab]; simp) hq
        | cons s' p =>
          rw [List.cons_append] at hrest
          obtain ⟨rfl, hrest'⟩ := List.cons.inj hrest
          exact hclass p hrest'.symm (by simp only [List.length_cons] at hp; omega) h
      · rename_i rest _ heq
        obtain ⟨rfl, hrest⟩ := List.cons.inj heq
        exact hclass p hrest.symm hp h
      · rename_i s' rest _ _ _ heq
        obtain ⟨rfl, rfl⟩ := List.cons.inj heq
        exact hterm hp h

variable {q : List Char}

/-- Text without a backslash is read as it stands. -/
theorem readSyms_raw (hq : '\\' ∉ q) : readSyms q = some (q.map .raw) := by
  induction q with
  | nil => rfl
  | cons c q ih =>
    rw [List.mem_cons, not_or] at hq
    rw [readSyms.eq_def]
    split
    · rename_i heq; exact absurd heq (by simp)
    · rename_i heq; exact absurd (List.cons.inj heq).1.symm hq.1
    · rename_i c' rest _ heq
      obtain ⟨rfl, rfl⟩ := List.cons.inj heq
      rw [if_neg (Ne.symm hq.1), ih hq.2]
      rfl

variable {p : List Char}

/-- Text without a backslash is read as it stands after complete escapes, or its first
    character belongs to an escape. -/
theorem readSyms_append (hq : '\\' ∉ q) {syms : List Sym} (h : readSyms (p ++ q) = some syms) :
    ∃ s, syms = s ++ q.map .raw ∨ ∃ c q', q = c :: q' ∧ syms = s ++ .esc c :: q'.map .raw := by
  -- an escape takes two characters, so the induction is on the length
  generalize hn : p.length = n
  induction n using Nat.strong_induction_on generalizing p syms with
  | _ n ih =>
    cases p with
    | nil =>
      rw [List.nil_append, readSyms_raw hq, Option.some.injEq] at h
      exact ⟨[], Or.inl (by simp [h])⟩
    | cons x p =>
      rw [List.cons_append, readSyms.eq_def] at h
      split at h
      · rename_i heq; exact absurd heq (by simp)
      · rename_i c rest heq
        obtain ⟨rfl, hrest⟩ := List.cons.inj heq
        obtain ⟨s, hs, rfl⟩ := Option.map_eq_some_iff.mp h
        cases p with
        | nil =>
          rw [List.nil_append] at hrest
          have hrest' : '\\' ∉ rest := fun hm => hq (by rw [hrest]; exact List.mem_cons_of_mem _ hm)
          rw [readSyms_raw hrest', Option.some.injEq] at hs
          exact ⟨[], Or.inr ⟨c, rest, hrest, by simp [hs]⟩⟩
        | cons y p =>
          rw [List.cons_append] at hrest
          obtain ⟨rfl, rfl⟩ := List.cons.inj hrest
          obtain ⟨s', hs'⟩ := ih p.length (by simp only [List.length_cons] at hn; omega) hs rfl
          refine ⟨.esc y :: s', ?_⟩
          rcases hs' with rfl | ⟨c, q', hq', rfl⟩
          · exact Or.inl rfl
          · exact Or.inr ⟨c, q', hq', rfl⟩
      · rename_i c rest _ heq
        obtain ⟨rfl, rfl⟩ := List.cons.inj heq
        split at h
        · exact absurd h (by simp)
        · obtain ⟨s, hs, rfl⟩ := Option.map_eq_some_iff.mp h
          obtain ⟨s', hs'⟩ := ih p.length (by simp only [List.length_cons] at hn; omega) hs rfl
          refine ⟨.raw x :: s', ?_⟩
          rcases hs' with rfl | ⟨c, q', hq', rfl⟩
          · exact Or.inl rfl
          · exact Or.inr ⟨c, q', hq', rfl⟩

/-- Characters that mean themselves outside a class. -/
def Plain (c : Char) : Prop := c ≠ '*' ∧ c ≠ '?' ∧ c ≠ '[' ∧ c ≠ ']' ∧ c ≠ '\\'

/-- Plain text in front of a pattern is read as literals. -/
theorem parseTerms_plain_append (hq : ∀ c ∈ q, Plain c) (rest : List Sym) :
    parseTerms (q.map .raw ++ rest) = (parseTerms rest).map (q.map .lit ++ ·) := by
  induction q with
  | nil => cases h : parseTerms rest <;> simp [h]
  | cons c q ih =>
    obtain ⟨h1, h2, h3, -, -⟩ := hq c (by simp)
    have ih' := ih (fun x hx => hq x (by simp [hx]))
    rw [List.map_cons, List.cons_append, parseTerms.eq_def]
    split
    · rename_i heq; exact absurd heq (by simp)
    · rename_i heq; exact absurd (Sym.raw.inj (List.cons.inj heq).1) h1
    · rename_i heq; exact absurd (Sym.raw.inj (List.cons.inj heq).1) h2
    · rename_i heq; exact absurd (Sym.raw.inj (List.cons.inj heq).1) h3
    · rename_i heq; exact absurd (Sym.raw.inj (List.cons.inj heq).1) h3
    · rename_i heq
      obtain ⟨rfl, rfl⟩ := List.cons.inj heq
      rw [ih', Option.map_map]
      rfl

theorem parseTerms_plain (hq : ∀ c ∈ q, Plain c) : parseTerms (q.map .raw) = some (q.map .lit) := by
  have hnil : parseTerms [] = some [] := by rw [parseTerms]
  have happend := parseTerms_plain_append hq []
  rwa [List.append_nil, hnil, Option.map_some, List.append_nil] at happend

variable {rest : List Char}

/-- Plain text in front of a pattern without backslashes. -/
theorem parsePattern_plain_append (hq : ∀ c ∈ q, Plain c) (hrest : '\\' ∉ rest) :
    parsePattern (q ++ rest) = (parsePattern rest).map (q.map .lit ++ ·) := by
  have hbs : '\\' ∉ q ++ rest := by
    rw [List.mem_append, not_or]
    exact ⟨fun hm => (hq _ hm).2.2.2.2 rfl, hrest⟩
  rw [parsePattern, parsePattern, readSyms_raw hbs, readSyms_raw hrest, List.map_append]
  exact parseTerms_plain_append hq _

/-- A `*` in front of a pattern without backslashes. -/
theorem parsePattern_star (hrest : '\\' ∉ rest) :
    parsePattern ('*' :: rest) = (parsePattern rest).map (.star :: ·) := by
  have hbs : '\\' ∉ '*' :: rest := by simpa using hrest
  rw [parsePattern, parsePattern, readSyms_raw hbs, readSyms_raw hrest, List.map_cons]
  show parseTerms _ = (parseTerms _).map _
  rw [parseTerms]

/-- Plain text at the end of a well-formed pattern is read as literals, whatever stands
    before it. -/
theorem parsePattern_tail (hq : ∀ c ∈ q, Plain c) (h : parsePattern (p ++ q) = some ts) :
    ∃ ts₁, ts = ts₁ ++ q.map .lit := by
  obtain ⟨syms, hs, hts⟩ := Option.bind_eq_some_iff.mp h
  have hbs : '\\' ∉ q := fun hm => (hq _ hm).2.2.2.2 rfl
  have hbr : ∀ q' : List Char, q' <:+ q → Sym.raw ']' ∉ q'.map Sym.raw := by
    intro q' hsuf hm
    obtain ⟨c, hc, heq⟩ := List.mem_map.mp hm
    exact (hq c (hsuf.subset hc)).2.2.2.1 (Sym.raw.inj heq)
  obtain ⟨s, rfl | ⟨c, q', rfl, rfl⟩⟩ := readSyms_append hbs hs
  · obtain ⟨ts₁, ts₂, rfl, h₂⟩ := parseTerms_tail le_rfl (hbr q (List.suffix_refl q)) hts
    rw [parseTerms_plain hq, Option.some.injEq] at h₂
    exact ⟨ts₁, by rw [h₂]⟩
  · -- the first character of the text was escaped: it is a literal all the same
    have hno : Sym.raw ']' ∉ (Sym.esc c :: q'.map Sym.raw) := by
      rw [List.mem_cons, not_or]
      exact ⟨by simp, hbr q' (List.suffix_cons c q')⟩
    obtain ⟨ts₁, ts₂, rfl, h₂⟩ := parseTerms_tail le_rfl hno hts
    have hq' : ∀ x ∈ q', Plain x := fun x hx => hq x (by simp [hx])
    have hesc : parseTerms (Sym.esc c :: q'.map Sym.raw)
        = (parseTerms (q'.map Sym.raw)).map (.lit c :: ·) := by
      rw [parseTerms]
      · rfl
      all_goals simp
    rw [hesc, parseTerms_plain hq', Option.map_some, Option.some.injEq] at h₂
    exact ⟨ts₁, by rw [← h₂]; rfl⟩

/-- **What matches a pattern that ends in plain text ends in that text.** -/
theorem matchPattern_suffix (hq : ∀ c ∈ q, Plain c) (h : matchPattern (p ++ q) name = some true) :
    q <:+ name := by
  obtain ⟨ts, hts, hm⟩ := Option.map_eq_some_iff.mp h
  obtain ⟨ts₁, rfl⟩ := parsePattern_tail hq hts
  obtain ⟨a, b, rfl, -, hb⟩ := (matchTerms_append _ _ _).mp hm
  rw [matchTerms_lits] at hb
  exact ⟨a, by rw [hb]⟩

/-- Plain text in front of a pattern matches itself. -/
theorem matchPattern_plain_append (hq : ∀ c ∈ q, Plain c) (hrest : '\\' ∉ rest)
    (hts : parsePattern rest = some ts) (name : List Char) :
    matchPattern (q ++ rest) name = some true
      ↔ ∃ b, name = q ++ b ∧ matchTerms ts b = true := by
  rw [matchPattern, parsePattern_plain_append hq hrest, hts, Option.map_some, Option.map_some,
    Option.some.injEq, matchTerms_lits_append]

/-! ### `Glob` -/

/-- Do all elements of the path match those of the pattern? -/
def globMatch (pattern path : String) : Bool :=
  let ps := pattern.toList.splitOn '/'
  let ns := path.toList.splitOn '/'
  ps.length == ns.length && (ps.zip ns).all (fun x => matchPattern x.1 x.2 == some true)

/-- Is every element of the pattern well formed? -/
def globValid (pattern : String) : Bool :=
  (pattern.toList.splitOn '/').all (fun p => (parsePattern p).isSome)

/-- The order of a listing: directory by directory, by name in each. -/
def PathLe (a b : String) : Prop := a.toList.splitOn '/' ≤ b.toList.splitOn '/'

instance : DecidableRel PathLe := fun a b =>
  inferInstanceAs (Decidable (a.toList.splitOn '/' ≤ b.toList.splitOn '/'))

/-- `filepath.Glob` over the paths that exist: directory by directory, sorted by name in
    each; `none` is `ErrBadPattern`. -/
def glob (paths : List String) (pattern : String) : Option (List String) :=
  if globValid pattern then some ((paths.filter (globMatch pattern)).insertionSort PathLe) else none

variable {paths l : List String} {pattern path : String}

theorem mem_glob (h : glob paths pattern = some l) :
    path ∈ l ↔ path ∈ paths ∧ globMatch pattern path = true := by
  unfold glob at h
  split at h
  · rw [Option.some.injEq] at h
    subst h
    rw [List.mem_insertionSort, List.mem_filter]
  · exact absurd h (by simp)

instance : IsTrans String PathLe := ⟨fun _ _ _ hab hbc => le_trans hab hbc⟩

instance : Std.Total PathLe := ⟨fun a b => le_total (a.toList.splitOn '/') (b.toList.splitOn '/')⟩

theorem PathLe.antisymm {a b : String} (h : PathLe a b) (h' : PathLe b a) : a = b := by
  have hsplit : a.toList.splitOn '/' = b.toList.splitOn '/' := le_antisymm h h'
  have hjoin := congrArg (List.intercalate ['/']) hsplit
  rw [List.intercalate_splitOn, List.intercalate_splitOn] at hjoin
  exact String.toList_inj.mp hjoin

theorem glob_pairwise (h : glob paths pattern = some l) : l.Pairwise PathLe := by
  unfold glob at h
  split at h
  · rw [Option.some.injEq] at h
    subst h
    exact List.pairwise_insertionSort PathLe _
  · exact absurd h (by simp)

/-- A pattern that matches something is well formed. -/
theorem globValid_of_globMatch (h : globMatch pattern path = true) : globValid pattern = true := by
  unfold globMatch at h
  rw [Bool.and_eq_true, beq_iff_eq, List.all_eq_true] at h
  obtain ⟨hlen, hall⟩ := h
  unfold globValid
  rw [List.all_eq_true]
  intro p hp
  rw [← List.map_fst_zip hlen.le] at hp
  obtain ⟨x, hx, rfl⟩ := List.mem_map.mp hp
  obtain ⟨ts, hts, -⟩ := Option.map_eq_some_iff.mp (beq_iff_eq.mp (hall x hx))
  rw [hts]
  rfl

/-- The last elements match. -/
theorem matchPattern_of_globMatch {ps ns : List (List Char)} {n : List Char}
    (hps : pattern.toList.splitOn '/' = ps ++ [p]) (hns : path.toList.splitOn '/' = ns ++ [n])
    (h : globMatch pattern path = true) : matchPattern p n = some true := by
  unfold globMatch at h
  rw [hps, hns, Bool.and_eq_true, beq_iff_eq] at h
  obtain ⟨hlen, hall⟩ := h
  have hlen' : ps.length = ns.length := by simpa using hlen
  rw [List.zip_append hlen', List.all_append, Bool.and_eq_true] at hall
  simpa using hall.2

/-- So does what matches a pattern with separators. -/
theorem suffix_of_globMatch {t : List Char} (ht : ∀ c ∈ t, Plain c) (hs : '/' ∉ t)
    (h : t <:+ pattern.toList) (hm : globMatch pattern path = true) : t <:+ path.toList := by
  obtain ⟨ps, p, hps, -, hp⟩ := exists_last pattern.toList
  obtain ⟨ns, n, hns, -, hn⟩ := exists_last path.toList
  have htp : t <:+ p := by
    rcases hp with hp | ⟨d, hp⟩
    · rwa [hp] at h
    · rw [hp] at h; exact suffix_last hs h
  have hnp : n <:+ path.toList := by
    rcases hn with hn | ⟨d, hn⟩
    · rw [hn]
    · rw [hn]; exact (List.suffix_cons '/' n).trans (List.suffix_append d _)
  obtain ⟨a, rfl⟩ := htp
  exact (matchPattern_suffix ht (matchPattern_of_globMatch hps hns hm)).trans hnp

end Go.Filepath
