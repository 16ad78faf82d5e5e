import Mathlib.Data.List.Basic
import Mathlib.Data.List.TakeWhile
import Mathlib.Data.List.Infix

namespace Go.Filepath

/-!
# Go's `path/filepath` on Unix — the lexical functions

`Clean`, `Split`, `Dir`, `Base`, `Ext`, `IsAbs` and `Join`, on character lists and lifted to
`String`.  `Clean` keeps a stack of path elements: empty and `.` elements are dropped and
`..` removes the element before it.

* `Normal` — an element `Clean` leaves alone;
* `cleanChars_render` — a rooted path of normal elements is clean;
* `cleanChars_under` — cleaning a rooted path cleans its directory and keeps its last
  element when that is normal;
* `cleanChars_abs` — an absolute cleaned path is a rooted path of normal elements;
* `suffix_join` — `Join` keeps the extension;
* `dirChars_eq_iff` — a clean absolute path whose last element is normal lies in the
  directory `D` exactly when it is `D` with that element appended.
-/

/-! ### Path elements and `Clean` -/

/-- An element `Clean` neither drops nor resolves. -/
def Normal (c : List Char) : Prop := c ≠ [] ∧ c ≠ ['.'] ∧ c ≠ ['.', '.'] ∧ '/' ∉ c

/-- Resolve a `..` against the stack of the elements kept so far.  At the root it is
    dropped; a relative path keeps those it cannot resolve. -/
def popElem (rooted : Bool) : List (List Char) → List (List Char)
  | [] => if rooted then [] else [['.', '.']]
  | top :: rest => if top = ['.', '.'] then ['.', '.'] :: top :: rest else rest

/-- Process one element against the stack. -/
def cleanStep (rooted : Bool) (stack : List (List Char)) (c : List Char) : List (List Char) :=
  if c = [] ∨ c = ['.'] then stack
  else if c = ['.', '.'] then popElem rooted stack
  else c :: stack

/-- Put the kept elements back together; an empty relative path is `.`. -/
def render (rooted : Bool) (elems : List (List Char)) : List Char :=
  if rooted then '/' :: ['/'].intercalate elems
  else if elems = [] then ['.'] else ['/'].intercalate elems

/-- Does the path start at the root? -/
def isRooted (p : List Char) : Bool := p.head? == some '/'

/-- The stack of elements of `p` after cleaning, innermost first. -/
def cleanStack (rooted : Bool) (p : List Char) : List (List Char) :=
  (p.splitOn '/').foldl (cleanStep rooted) []

/-- `filepath.Clean`. -/
def cleanChars (p : List Char) : List Char :=
  render (isRooted p) (cleanStack (isRooted p) p).reverse

/-- `filepath.Split`: the path up to and including the last separator, and the rest. -/
def splitChars (p : List Char) : List Char × List Char :=
  ((p.reverse.dropWhile (· ≠ '/')).reverse, (p.reverse.takeWhile (· ≠ '/')).reverse)

/-- `filepath.Dir`. -/
def dirChars (p : List Char) : List Char := cleanChars (splitChars p).1

/-- `filepath.Ext`: the suffix of the last element from its final dot. -/
def extChars (p : List Char) : List Char :=
  if '.' ∈ (splitChars p).2 then
    '.' :: ((splitChars p).2.reverse.takeWhile (· ≠ '.')).reverse
  else []

/-- `filepath.Base`: the last element, trailing separators removed. -/
def baseChars (p : List Char) : List Char :=
  if p = [] then ['.']
  else
    let b := (splitChars (p.reverse.dropWhile (· = '/')).reverse).2
    if b = [] then ['/'] else b

/-- `D` with the element `b` appended: `filepath.Join` of clean arguments. -/
def under (D b : List Char) : List Char := if D = ['/'] then '/' :: b else D ++ '/' :: b

theorem suffix_under (D b : List Char) : b <:+ under D b := by
  unfold under
  split_ifs
  · exact List.suffix_cons _ _
  · exact (List.suffix_cons _ _).trans (List.suffix_append _ _)

/-! ### Cleaning normal elements -/

variable {c : List Char}

theorem cleanStep_normal (hc : Normal c) (rooted : Bool) (stack : List (List Char)) :
    cleanStep rooted stack c = c :: stack := by
  obtain ⟨h1, h2, h3, -⟩ := hc
  simp [cleanStep, h1, h2, h3]

theorem foldl_cleanStep_normal {cs : List (List Char)} (hcs : ∀ c ∈ cs, Normal c)
    (rooted : Bool) (stack : List (List Char)) :
    cs.foldl (cleanStep rooted) stack = cs.reverse ++ stack := by
  induction cs generalizing stack with
  | nil => rfl
  | cons c cs ih =>
    rw [List.foldl_cons, cleanStep_normal (hcs c (by simp)), ih (fun x hx => hcs x (by simp [hx]))]
    simp

/-- What one element can put on the stack: itself, and a `..` only where it cannot be
    resolved. -/
theorem mem_cleanStep {rooted : Bool} {x : List Char} {stack : List (List Char)}
    (hx : x ∈ cleanStep rooted stack c) :
    x ∈ stack ∨ (x = c ∧ c ≠ [] ∧ c ≠ ['.'] ∧
      (c = ['.', '.'] → rooted = false ∨ ['.', '.'] ∈ stack)) := by
  unfold cleanStep at hx
  by_cases h1 : c = [] ∨ c = ['.']
  · rw [if_pos h1] at hx; exact Or.inl hx
  rw [if_neg h1] at hx
  push Not at h1
  by_cases h2 : c = ['.', '.']
  · rw [if_pos h2] at hx
    cases stack with
    | nil =>
      cases rooted with
      | true => simp [popElem] at hx
      | false => exact Or.inr ⟨by simpa [popElem, h2] using hx, h1.1, h1.2, fun _ => Or.inl rfl⟩
    | cons top rest =>
      by_cases ht : top = ['.', '.']
      · rw [popElem, if_pos ht] at hx
        rcases List.mem_cons.mp hx with rfl | hx
        · exact Or.inr ⟨h2.symm, h1.1, h1.2, fun _ => Or.inr (by simp [ht])⟩
        · exact Or.inl hx
      · rw [popElem, if_neg ht] at hx
        exact Or.inl (List.mem_cons_of_mem _ hx)
  · rw [if_neg h2] at hx
    rcases List.mem_cons.mp hx with rfl | hx
    · exact Or.inr ⟨rfl, h1.1, h1.2, fun h => absurd h h2⟩
    · exact Or.inl hx

/-- A property of kept elements that every step preserves holds of the final stack. -/
theorem foldl_cleanStep_all {rooted : Bool} {P : List Char → Prop}
    (hP : ∀ stack c, '/' ∉ c → (∀ x ∈ stack, P x) → ∀ x ∈ cleanStep rooted stack c, P x)
    {cs : List (List Char)} (hcs : ∀ c ∈ cs, '/' ∉ c) {stack : List (List Char)}
    (hs : ∀ x ∈ stack, P x) : ∀ x ∈ cs.foldl (cleanStep rooted) stack, P x := by
  induction cs generalizing stack with
  | nil => exact hs
  | cons c cs ih =>
    rw [List.foldl_cons]
    exact ih (fun x hx => hcs x (by simp [hx])) (hP stack c (hcs c (by simp)) hs)

variable {p : List Char}

/-- The pieces between separators hold no separator. -/
theorem not_mem_of_mem_splitOn (hc : c ∈ p.splitOn '/') : '/' ∉ c := by
  induction p generalizing c with
  | nil => simp_all
  | cons x xs ih =>
    rw [List.splitOn_cons_eq_if_modifyHead] at hc
    by_cases hx : x = '/'
    · simp only [hx, BEq.rfl, if_true, List.mem_cons] at hc
      rcases hc with rfl | hc
      · simp
      · exact ih hc
    · have hb : (x == '/') = false := by simpa using hx
      rw [hb] at hc
      obtain ⟨y, ys, hy⟩ := List.exists_cons_of_ne_nil (List.splitOn_ne_nil '/' xs)
      rw [hy] at hc ih
      simp only [Bool.false_eq_true, if_false, List.modifyHead_cons, List.mem_cons] at hc
      rcases hc with rfl | hc
      · simp [Ne.symm hx, ih (List.mem_cons_self)]
      · exact ih (List.mem_cons_of_mem _ hc)

/-- Below the root only normal elements survive: there is nothing a `..` could be
    kept for. -/
theorem cleanStack_rooted_normal (p : List Char) : ∀ x ∈ cleanStack true p, Normal x := by
  refine foldl_cleanStep_all ?_ (fun _ hc => not_mem_of_mem_splitOn hc) (by simp)
  intro stack c hc hs x hx
  rcases mem_cleanStep hx with hx | ⟨rfl, h1, h2, h3⟩
  · exact hs x hx
  · refine ⟨h1, h2, fun h => ?_, hc⟩
    rcases h3 h with h3 | h3
    · exact absurd h3 (by simp)
    · exact (hs _ h3).2.2.1 rfl

/-- Kept elements are never empty and hold no separator. -/
theorem cleanStack_elem (rooted : Bool) (p : List Char) :
    ∀ x ∈ cleanStack rooted p, x ≠ [] ∧ '/' ∉ x := by
  refine foldl_cleanStep_all ?_ (fun _ hc => not_mem_of_mem_splitOn hc) (by simp)
  intro stack c hc hs x hx
  rcases mem_cleanStep hx with hx | ⟨rfl, h1, -, -⟩
  · exact hs x hx
  · exact ⟨h1, hc⟩

/-! ### Rooted paths -/

theorem isRooted_render_true (elems : List (List Char)) : isRooted (render true elems) = true := by
  simp [render, isRooted]

/-- An absolute cleaned path is the root followed by normal elements. -/
theorem cleanChars_abs (h : isRooted (cleanChars p) = true) :
    ∃ elems, (∀ c ∈ elems, Normal c) ∧ cleanChars p = render true elems := by
  cases hp : isRooted p with
  | true =>
    refine ⟨(cleanStack true p).reverse, ?_, by rw [cleanChars, hp]⟩
    simpa using cleanStack_rooted_normal p
  | false =>
    -- a relative path stays relative: its first element has no separator
    exfalso
    rw [cleanChars, hp] at h
    cases hst : (cleanStack false p).reverse with
    | nil => simp [render, hst, isRooted] at h
    | cons c cs =>
      have hc := cleanStack_elem false p c (by rw [← List.mem_reverse, hst]; simp)
      obtain ⟨x, xs, hx⟩ := List.exists_cons_of_ne_nil hc.1
      have hx' : x ≠ '/' := by
        rintro rfl; exact hc.2 (by rw [hx]; simp)
      cases cs with
      | nil => simp [render, hst, isRooted, hx, hx'] at h
      | cons d ds => simp [render, hst, isRooted, hx, hx', List.intercalate_cons_cons] at h

variable {elems : List (List Char)}

theorem splitOn_render_true (h : ∀ c ∈ elems, '/' ∉ c) (hne : elems ≠ []) :
    (render true elems).splitOn '/' = [] :: elems := by
  show (('/' : Char) :: ['/'].intercalate elems).splitOn '/' = _
  rw [List.splitOn_cons_eq_if_modifyHead, if_pos BEq.rfl, List.splitOn_intercalate '/' h hne]

/-- What begins with a path and a separator has the elements of the path, and more. -/
theorem elems_of_render_append {elems' : List (List Char)} {t : List Char}
    (h : ∀ c ∈ elems, Normal c) (h' : ∀ c ∈ elems', Normal c)
    (heq : render true elems ++ '/' :: t = render true elems') :
    ∃ rest, rest ≠ [] ∧ elems' = elems ++ rest := by
  have hne' : elems' ≠ [] := by
    rintro rfl
    have hlen := congrArg List.length heq
    simp [render] at hlen
  have hsplit := congrArg (List.splitOn '/') heq
  rw [List.splitOn_append_cons_self,
    splitOn_render_true (fun c hc => (h' c hc).2.2.2) hne'] at hsplit
  by_cases hne : elems = []
  · -- the root's own separator is followed by another one
    subst hne
    have hroot : (render true []).splitOn '/' = [[], []] := by decide
    rw [hroot] at hsplit
    obtain ⟨-, hrest⟩ := List.cons.inj hsplit
    exact absurd rfl (h' [] (hrest ▸ List.mem_cons_self)).1
  · rw [splitOn_render_true (fun c hc => (h c hc).2.2.2) hne] at hsplit
    exact ⟨_, List.splitOn_ne_nil '/' t, (List.cons.inj hsplit).2.symm⟩

/-- A rooted path of normal elements is clean. -/
theorem cleanChars_render (h : ∀ c ∈ elems, Normal c) :
    cleanChars (render true elems) = render true elems := by
  rw [cleanChars, isRooted_render_true]
  congr 1
  rcases eq_or_ne elems [] with rfl | hne
  · decide
  · rw [cleanStack, splitOn_render_true (fun c hc => (h c hc).2.2.2) hne, List.foldl_cons]
    have h0 : cleanStep true [] [] = [] := by simp [cleanStep]
    rw [h0, foldl_cleanStep_normal h]
    simp

/-- A trailing separator is cleaned away. -/
theorem cleanChars_trailing (h : ∀ c ∈ elems, Normal c) :
    cleanChars (render true elems ++ ['/']) = render true elems := by
  have hr : isRooted (render true elems ++ ['/']) = true := by simp [render, isRooted]
  have hst : cleanStack true (render true elems ++ ['/'])
      = cleanStack true (render true elems) := by
    rw [cleanStack, List.splitOn_append_cons_self, List.foldl_append]
    simp [cleanStack, cleanStep]
  have hclean := cleanChars_render h
  rw [cleanChars, isRooted_render_true] at hclean
  rw [cleanChars, hr, hst, hclean]

/-- Appending an element is appending it to the list of elements. -/
theorem render_concat (h : ∀ c ∈ elems, Normal c) (b : List Char) :
    render true (elems ++ [b]) = under (render true elems) b := by
  rcases List.eq_nil_or_concat elems with rfl | ⟨init, c, hinit⟩
  · simp [render, under]
  · rw [List.concat_eq_append] at hinit; subst hinit
    have hne : render true (init ++ [c]) ≠ ['/'] := by
      have hc := (h c (by simp)).1
      obtain ⟨x, xs, hx⟩ := List.exists_cons_of_ne_nil hc
      rcases init with _ | ⟨y, ys⟩
      · simp [render, hx]
      · have hy := (h y (by simp)).1
        obtain ⟨z, zs, hz⟩ := List.exists_cons_of_ne_nil hy
        cases ys <;> simp [render, hz, List.intercalate_cons_cons]
    rw [under, if_neg hne]
    show '/' :: ['/'].intercalate (init ++ [c] ++ [b])
      = ('/' :: ['/'].intercalate (init ++ [c])) ++ '/' :: b
    have key : ∀ (l : List (List Char)), l ≠ [] →
        ['/'].intercalate (l ++ [b]) = ['/'].intercalate l ++ '/' :: b := by
      intro l hl
      induction l with
      | nil => exact absurd rfl hl
      | cons x xs ih =>
        cases xs with
        | nil => simp [List.intercalate_cons_cons]
        | cons y ys =>
          have := ih (by simp)
          simp only [List.cons_append, List.intercalate_cons_cons] at this ⊢
          rw [this]; simp
    rw [key _ (by simp)]
    simp

variable {d b : List Char}

/-- Cleaning a rooted path cleans its directory and keeps a normal last element. -/
theorem cleanChars_under (hr : isRooted (d ++ ['/']) = true) (hb : Normal b) :
    cleanChars (d ++ '/' :: b) = under (cleanChars (d ++ ['/'])) b := by
  have hr' : isRooted (d ++ '/' :: b) = true := by
    cases d with
    | nil => rfl
    | cons x xs => simpa [isRooted] using hr
  have h1 : cleanStack true (d ++ '/' :: b) = b :: cleanStack true d := by
    rw [cleanStack, List.splitOn_append_cons_self, List.splitOn_eq_singleton hb.2.2.2,
      List.foldl_append]
    exact cleanStep_normal hb true _
  have h2 : cleanStack true (d ++ ['/']) = cleanStack true d := by
    rw [cleanStack, List.splitOn_append_cons_self, List.foldl_append]
    simp [cleanStack, cleanStep]
  rw [cleanChars, hr', h1, cleanChars, hr, h2, List.reverse_cons]
  exact render_concat (by simpa using cleanStack_rooted_normal d) b

/-! ### Splitting off the last element -/

/-- A path that ends in a separator followed by `b` splits there. -/
theorem splitChars_append (hb : '/' ∉ b) : splitChars (d ++ '/' :: b) = (d ++ ['/'], b) := by
  have hall : ∀ x ∈ b.reverse, (decide (x ≠ '/')) = true := by
    intro x hx
    rw [List.mem_reverse] at hx
    simpa using fun h : x = '/' => hb (h ▸ hx)
  unfold splitChars
  simp only [List.reverse_append, List.reverse_cons, List.append_assoc, List.singleton_append]
  rw [List.dropWhile_append_of_pos hall, List.takeWhile_append_of_pos hall]
  simp

/-- A path that ends in a name has no trailing separators. -/
theorem dropWhile_reverse_append (hb : '/' ∉ b) (hne : b ≠ []) :
    ((d ++ b).reverse.dropWhile (· = '/')).reverse = d ++ b := by
  obtain ⟨init, last, rfl⟩ := (List.eq_nil_or_concat b).resolve_left hne
  have hlast : last ≠ '/' := fun h => hb (by simp [h])
  simp [hlast]

/-- The base name of a path that ends in a separator and a name. -/
theorem baseChars_append (hb : '/' ∉ b) (hne : b ≠ []) : baseChars (d ++ '/' :: b) = b := by
  have htrailing : ((d ++ '/' :: b).reverse.dropWhile (· = '/')).reverse = d ++ '/' :: b := by
    simpa using dropWhile_reverse_append (d := d ++ ['/']) hb hne
  unfold baseChars
  simp only [htrailing, splitChars_append hb]
  simp [hne]

/-- The base name of a name. -/
theorem baseChars_of_notMem (hb : '/' ∉ b) (hne : b ≠ []) : baseChars b = b := by
  have htrailing : (b.reverse.dropWhile (· = '/')).reverse = b :=
    dropWhile_reverse_append (d := []) hb hne
  have hsplit : (splitChars b).2 = b := by
    have hall : b.reverse.takeWhile (· ≠ '/') = b.reverse := by
      rw [List.takeWhile_eq_self_iff]
      intro c hc
      simpa using fun h : c = '/' => hb (h ▸ List.mem_reverse.mp hc)
    rw [splitChars, hall, List.reverse_reverse]
  unfold baseChars
  simp only [htrailing, hsplit]
  simp [hne]

/-- Every rooted path splits at its last separator. -/
theorem exists_split (h : isRooted p = true) :
    ∃ d b, p = d ++ '/' :: b ∧ '/' ∉ b ∧ isRooted (d ++ ['/']) = true := by
  induction p using List.reverseRecOn with
  | nil => simp [isRooted] at h
  | append_singleton q x ih =>
    by_cases hx : x = '/'
    · subst hx
      exact ⟨q, [], rfl, by simp, h⟩
    · have hq : isRooted q = true := by
        cases q with
        | nil => simp [isRooted, hx] at h
        | cons y ys => simpa [isRooted] using h
      obtain ⟨d, b, rfl, hb, hr⟩ := ih hq
      refine ⟨d, b ++ [x], by simp, ?_, hr⟩
      simp [hb, Ne.symm hx]

/-- The extension of a path whose last element is `b`. -/
theorem extChars_append (hb : '/' ∉ b) :
    extChars (d ++ '/' :: b)
      = if '.' ∈ b then '.' :: (b.reverse.takeWhile (· ≠ '.')).reverse else [] := by
  rw [extChars, splitChars_append hb]

theorem dropWhile_ne_of_mem {x : Char} {l : List Char} (h : x ∈ l) :
    ∃ t, l.dropWhile (· ≠ x) = x :: t := by
  induction l with
  | nil => exact absurd h (by simp)
  | cons y ys ih =>
    by_cases hy : y = x
    · exact ⟨ys, by simp [hy]⟩
    · have hmem : x ∈ ys := by simpa [Ne.symm hy] using h
      simpa [List.dropWhile_cons, hy] using ih hmem

variable {e : List Char}

/-- An extension without further dots is a suffix, and the other way round. -/
theorem ext_eq_iff (he : '.' ∉ e) :
    (if '.' ∈ b then '.' :: (b.reverse.takeWhile (· ≠ '.')).reverse else []) = '.' :: e
      ↔ '.' :: e <:+ b := by
  constructor
  · intro h
    by_cases hb : '.' ∈ b
    · rw [if_pos hb, List.cons.injEq] at h
      have hsplit := List.takeWhile_append_dropWhile (p := fun x => decide (x ≠ '.'))
        (l := b.reverse)
      obtain ⟨t, ht⟩ := dropWhile_ne_of_mem (List.mem_reverse.mpr hb)
      rw [ht] at hsplit
      have hrev := congrArg List.reverse hsplit
      rw [List.reverse_reverse, List.reverse_append, List.reverse_cons, h.2] at hrev
      exact ⟨t.reverse, by simpa using hrev⟩
    · rw [if_neg hb] at h
      exact absurd h (by simp)
  · rintro ⟨t, rfl⟩
    have hall : ∀ x ∈ e.reverse, (decide (x ≠ '.')) = true := by
      intro x hx
      rw [List.mem_reverse] at hx
      simpa using fun h : x = '.' => he (h ▸ hx)
    rw [if_pos (by simp)]
    simp only [List.reverse_append, List.reverse_cons, List.append_assoc, List.singleton_append]
    rw [List.takeWhile_append_of_pos hall]
    simp

/-- A name that ends in `.e`, `e` of at least three characters, is a normal element. -/
theorem normal_of_suffix (hb : '/' ∉ b) (he : 2 < e.length) (h : '.' :: e <:+ b) : Normal b := by
  have hlen := h.length_le
  rw [List.length_cons] at hlen
  refine ⟨?_, ?_, ?_, hb⟩ <;> rintro rfl <;>
    simp only [List.length_cons, List.length_nil] at hlen <;> omega

/-- **Confinement.**  A clean absolute path whose last element is normal lies in the
    directory `D` exactly when it is `D` with that element appended. -/
theorem dirChars_eq_iff {D : List Char} (hD : ∀ c ∈ elems, Normal c) (hDr : D = render true elems) :
    (isRooted p = true ∧ cleanChars p = p ∧ Normal (splitChars p).2 ∧ dirChars p = D)
      ↔ ∃ b, Normal b ∧ p = under D b := by
  constructor
  · rintro ⟨hr, hclean, hn, hdir⟩
    obtain ⟨d, b, rfl, hb, hrd⟩ := exists_split hr
    rw [splitChars_append hb] at hn
    rw [dirChars, splitChars_append hb] at hdir
    refine ⟨b, hn, ?_⟩
    rw [← hclean, cleanChars_under hrd hn, hdir]
  · rintro ⟨b, hn, rfl⟩
    subst hDr
    have hp : under (render true elems) b = render true (elems ++ [b]) := (render_concat hD b).symm
    have hall : ∀ c ∈ elems ++ [b], Normal c := by
      intro c hc
      rcases List.mem_append.mp hc with hc | hc
      · exact hD c hc
      · rw [List.mem_singleton] at hc; subst hc; exact hn
    obtain ⟨d, hd, hdc⟩ : ∃ d, under (render true elems) b = d ++ '/' :: b ∧
        cleanChars (d ++ ['/']) = render true elems := by
      by_cases hroot : render true elems = ['/']
      · refine ⟨[], by rw [under, if_pos hroot]; rfl, ?_⟩
        rw [hroot]; decide
      · refine ⟨render true elems, by rw [under, if_neg hroot], ?_⟩
        exact cleanChars_trailing hD
    refine ⟨by rw [hp]; exact isRooted_render_true _,
      by rw [hp]; exact cleanChars_render hall, ?_, ?_⟩
    · rw [hd, splitChars_append hn.2.2.2]; exact hn
    · rw [dirChars, hd, splitChars_append hn.2.2.2]; exact hdc

/-! ### Extensions -/

/-- A path is one element, or splits at its last separator. -/
theorem exists_last (p : List Char) :
    ∃ es b, p.splitOn '/' = es ++ [b] ∧ '/' ∉ b ∧ (p = b ∨ ∃ d, p = d ++ '/' :: b) := by
  by_cases hp : '/' ∈ p
  · obtain ⟨s, t, heq, hs⟩ := List.eq_append_cons_of_mem (List.mem_reverse.mpr hp)
    have hsplit : p = t.reverse ++ '/' :: s.reverse := by
      rw [← List.reverse_reverse p, heq]; simp
    have hno : '/' ∉ s.reverse := by rwa [List.mem_reverse]
    refine ⟨t.reverse.splitOn '/', s.reverse, ?_, hno, Or.inr ⟨_, hsplit⟩⟩
    rw [hsplit, List.splitOn_append_cons_self, List.splitOn_eq_singleton hno]
  · exact ⟨[], p, by rw [List.splitOn_eq_singleton hp]; rfl, hp, Or.inl rfl⟩

/-- Text without separators at the end of a path is the end of its last element. -/
theorem suffix_last {t : List Char} (ht : '/' ∉ t) (h : t <:+ d ++ '/' :: b) : t <:+ b := by
  have hb : '/' :: b <:+ d ++ '/' :: b := List.suffix_append d _
  rcases Nat.lt_or_ge b.length t.length with hlt | hle
  · have hsub : '/' :: b <:+ t := List.suffix_of_suffix_length_le hb h hlt
    exact absurd (hsub.subset List.mem_cons_self) ht
  · exact List.suffix_of_suffix_length_le h ((List.suffix_cons '/' b).trans hb) hle

theorem suffix_intercalate (l : List (List Char)) (b : List Char) :
    b <:+ ['/'].intercalate (l ++ [b]) := by
  induction l with
  | nil => simp
  | cons x xs ih =>
    obtain ⟨y, ys, hy⟩ := List.exists_cons_of_ne_nil (l := xs ++ [b]) (by simp)
    rw [List.cons_append, hy, List.intercalate_cons_cons, ← hy]
    exact ih.trans (List.suffix_append _ _)

/-- `Clean` keeps an extension of at least three characters. -/
theorem suffix_cleanChars (he : '/' ∉ e) (hlen : 2 < e.length) (h : '.' :: e <:+ p) :
    '.' :: e <:+ cleanChars p := by
  have hdot : '/' ∉ '.' :: e := by simpa using he
  obtain ⟨es, b, hsplit, hb, hp⟩ := exists_last p
  have hsuf : '.' :: e <:+ b := by
    rcases hp with rfl | ⟨d, rfl⟩
    · exact h
    · exact suffix_last hdot h
  have hnormal : Normal b := normal_of_suffix hb hlen hsuf
  have hstack : ∀ rooted, cleanStack rooted p = b :: es.foldl (cleanStep rooted) [] := by
    intro rooted
    rw [cleanStack, hsplit, List.foldl_append]
    exact cleanStep_normal hnormal rooted _
  refine hsuf.trans ?_
  rw [cleanChars, hstack, List.reverse_cons, render]
  split_ifs with hr hnil
  · exact (suffix_intercalate _ b).trans (List.suffix_cons _ _)
  · exact absurd hnil (by simp)
  · exact suffix_intercalate _ b

/-! ### The functions on strings -/

/-- `filepath.Clean`. -/
def clean (p : String) : String := String.ofList (cleanChars p.toList)

/-- `filepath.Dir`. -/
def dir (p : String) : String := String.ofList (dirChars p.toList)

/-- `filepath.Base`. -/
def base (p : String) : String := String.ofList (baseChars p.toList)

/-- `filepath.Ext`. -/
def ext (p : String) : String := String.ofList (extChars p.toList)

/-- `filepath.IsAbs`. -/
def isAbs (p : String) : Bool := isRooted p.toList

/-- `filepath.Join` of two elements: empty leading elements are ignored. -/
def join (d f : String) : String :=
  if d ≠ "" then clean (d ++ "/" ++ f) else if f ≠ "" then clean f else ""

/-- The last element of a cleaned path is its last element, if that is a normal one. -/
theorem splitOn_cleanChars {es : List (List Char)} (hsplit : p.splitOn '/' = es ++ [b])
    (hb : Normal b) : ∃ es', (cleanChars p).splitOn '/' = es' ++ [b] := by
  have hstack : cleanStack (isRooted p) p = b :: es.foldl (cleanStep (isRooted p)) [] := by
    rw [cleanStack, hsplit, List.foldl_append, List.foldl_cons, List.foldl_nil,
      cleanStep_normal hb]
  have helems : ∀ c ∈ (cleanStack (isRooted p) p).reverse, '/' ∉ c := fun c hc =>
    (cleanStack_elem _ p c (List.mem_reverse.mp hc)).2
  rw [hstack, List.reverse_cons] at helems
  rw [cleanChars, hstack, List.reverse_cons]
  generalize (es.foldl (cleanStep (isRooted p)) []).reverse = kept at helems
  cases isRooted p with
  | true => exact ⟨[] :: kept, splitOn_render_true helems (by simp)⟩
  | false =>
    rw [render, if_neg (by simp), if_neg (by simp)]
    exact ⟨kept, List.splitOn_intercalate '/' helems (by simp)⟩

variable {f : String}

/-- A normal element that is joined to a directory is the last one. -/
theorem splitOn_join (d : String) (hf : Normal f.toList) :
    ∃ es, (join d f).toList.splitOn '/' = es ++ [f.toList] := by
  have hne : f ≠ "" := by
    rintro rfl
    exact hf.1 rfl
  have hlast : f.toList.splitOn '/' = [] ++ [f.toList] := List.splitOn_eq_singleton hf.2.2.2
  unfold join
  by_cases hd : d = ""
  · rw [if_neg (not_not.mpr hd), if_pos hne, clean, String.toList_ofList]
    exact splitOn_cleanChars hlast hf
  · have htext : (d ++ "/" ++ f).toList = d.toList ++ '/' :: f.toList := by
      simp [String.toList_append]
    have hjoined : (d.toList ++ '/' :: f.toList).splitOn '/'
        = d.toList.splitOn '/' ++ [f.toList] := by
      rw [List.splitOn_append_cons_self, hlast, List.nil_append]
    rw [if_pos hd, clean, String.toList_ofList, htext]
    exact splitOn_cleanChars hjoined hf

/-- Joining a normal element to a clean rooted path appends it. -/
theorem join_render {d : String} (hd : d.toList = render true elems)
    (helems : ∀ c ∈ elems, Normal c) (hf : Normal f.toList) :
    (join d f).toList = render true (elems ++ [f.toList]) := by
  have hne : d ≠ "" := by
    rintro rfl
    simp [render] at hd
  have hroot : isRooted (d.toList ++ ['/']) = true := by
    rw [hd]
    simp [render, isRooted]
  rw [join, if_pos hne, clean, String.toList_ofList, String.toList_append, String.toList_append,
    List.append_assoc]
  show cleanChars (d.toList ++ '/' :: f.toList) = _
  rw [cleanChars_under hroot hf, hd, cleanChars_trailing helems, render_concat helems]

/-- `Join` keeps an extension of at least three characters. -/
theorem suffix_join {d : String} (he : '/' ∉ e) (hlen : 2 < e.length) (h : '.' :: e <:+ f.toList) :
    '.' :: e <:+ (join d f).toList := by
  unfold join clean
  split_ifs with hd hf
  · rw [String.toList_ofList]
    refine suffix_cleanChars he hlen (h.trans ?_)
    rw [String.toList_append]
    exact List.suffix_append _ _
  · rw [String.toList_ofList]
    exact suffix_cleanChars he hlen h
  · rw [not_not] at hf
    rwa [hf] at h

example : clean "/a/./b//../c/" = "/a/c" := by decide
example : clean "../a/.." = ".." ∧ clean "" = "." ∧ clean "/.." = "/" := by decide
example : dir "/a/b.tar" = "/a" ∧ base "/a/b//" = "b" ∧ ext "/a.x/b.tar" = ".tar" := by decide

end Go.Filepath
