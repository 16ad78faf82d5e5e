import CheckpointRestore.Retention.Policy

namespace CheckpointRestore.Retention

open Go Filepath

/-!
# File names of checkpoints and the patterns of the levels

The kubelet names a checkpoint `checkpoint-<pod>_<namespace>-<container>-<timestamp>.tar`.
No name contains `_`, so the pod can be told; namespaces and containers may contain `-`, so
where one ends and the next begins cannot.

* `validIdentity`, `kubeletName` — valid names, and the file name built from them;
* `Overlaps` — the file name fits the pattern of a level, in terms of the names;
* `matchPattern_levelFilePattern` — which is what the pattern matches.
-/

/-! ### Names -/

/-- A lower-case letter or a digit. -/
def isAlnum (c : Char) : Bool := c.isDigit || ('a' ≤ c && c ≤ 'z')

/-- A character of a name. -/
def isNameChar (c : Char) : Bool := isAlnum c || c == '-' || c == '.'

/-- The form of a DNS label: letters, digits and inner dashes. -/
def labelForm (cs : List Char) : Bool :=
  cs.all (fun c => isAlnum c || c == '-') && cs.head?.any isAlnum && cs.getLast?.any isAlnum

/-- A valid name of a namespace or a container. -/
def validLabel (name : String) : Bool := labelForm name.toList && name.length ≤ 63

/-- A valid name of a pod. -/
def validSubdomain (name : String) : Bool :=
  (name.toList.splitOn '.').all labelForm && name.length ≤ 253

/-- All three names are valid. -/
def validIdentity (ref : CheckpointDetails) : Bool :=
  validLabel ref.ns && validSubdomain ref.pod && validLabel ref.container

/-- A date and a time of day, as the pattern of the container level has them. -/
def stampPattern : String :=
  "[0-9][0-9][0-9][0-9]-[0-2][0-9]-[0-3][0-9]T[0-2][0-9]:[0-5][0-9]:[0-6][0-9]"

/-- A time zone. -/
def isZone (zone : String) : Bool :=
  zone == "Z" || matchPattern "+[0-2][0-9]:[0-5][0-9]".toList zone.toList == some true ||
    matchPattern "-[0-2][0-9]:[0-5][0-9]".toList zone.toList == some true

/-- The form of an RFC 3339 timestamp. -/
def IsTimestamp (timestamp : String) : Prop :=
  ∃ stamp zone, matchPattern stampPattern.toList stamp = some true ∧ isZone zone = true ∧
    timestamp.toList = stamp ++ zone.toList

theorem isTimestamp_newYear : IsTimestamp "2026-01-01T00:00:00Z" :=
  ⟨"2026-01-01T00:00:00".toList, "Z", by decide, by decide, by decide⟩

/-- The file name the kubelet gives a checkpoint. -/
def kubeletName (ref : CheckpointDetails) (timestamp : String) : String :=
  "checkpoint-" ++ ref.pod ++ "_" ++ ref.ns ++ "-" ++ ref.container ++ "-" ++ timestamp ++ ".tar"

theorem isNameChar_of_labelForm {cs : List Char} (h : labelForm cs = true) :
    ∀ c ∈ cs, isNameChar c = true := by
  unfold labelForm at h
  rw [Bool.and_eq_true, Bool.and_eq_true, List.all_eq_true] at h
  intro c hc
  unfold isNameChar
  rw [h.1.1 c hc]
  rfl

theorem isNameChar_of_validLabel {name : String} (h : validLabel name = true) :
    ∀ c ∈ name.toList, isNameChar c = true :=
  isNameChar_of_labelForm (Bool.and_eq_true_iff.mp h).1

theorem isNameChar_of_validSubdomain {name : String} (h : validSubdomain name = true) :
    ∀ c ∈ name.toList, isNameChar c = true := by
  have hpieces : ∀ piece ∈ name.toList.splitOn '.', ∀ c ∈ piece, isNameChar c = true :=
    fun piece hp => isNameChar_of_labelForm
      (List.all_eq_true.mp (Bool.and_eq_true_iff.mp h).1 piece hp)
  have hjoined : ∀ pieces : List (List Char), (∀ piece ∈ pieces, ∀ c ∈ piece, isNameChar c = true) →
      ∀ c ∈ ['.'].intercalate pieces, isNameChar c = true := by
    intro pieces
    induction pieces with
    | nil => simp
    | cons piece pieces ih =>
      intro hall c hc
      cases pieces with
      | nil => exact hall piece List.mem_cons_self c (by simpa using hc)
      | cons piece' rest =>
        rw [List.intercalate_cons_cons, List.append_assoc, List.mem_append, List.mem_append,
          List.mem_singleton] at hc
        rcases hc with hc | rfl | hc
        · exact hall piece List.mem_cons_self c hc
        · rfl
        · exact ih (fun p hp => hall p (List.mem_cons_of_mem _ hp)) c hc
  have hname := hjoined _ hpieces
  rwa [List.intercalate_splitOn] at hname

section Characters
variable {cs : List Char}

/-- A character that occurs in no name. -/
theorem notMem_of_isNameChar {x : Char} (hx : isNameChar x = false)
    (h : ∀ c ∈ cs, isNameChar c = true) : x ∉ cs := by
  intro hmem
  rw [h x hmem] at hx
  exact absurd hx (by simp)

/-- Names are plain text in a pattern. -/
theorem plain_of_isNameChar (h : ∀ c ∈ cs, isNameChar c = true) : ∀ c ∈ cs, Plain c := by
  intro c hc
  have hname := h c hc
  refine ⟨?_, ?_, ?_, ?_, ?_⟩ <;> rintro rfl <;> exact absurd hname (by decide)

end Characters

/-- What valid names are made of. -/
theorem isNameChar_of_validIdentity {ref : CheckpointDetails} (h : validIdentity ref = true) :
    (∀ c ∈ ref.ns.toList, isNameChar c = true) ∧ (∀ c ∈ ref.pod.toList, isNameChar c = true) ∧
    ∀ c ∈ ref.container.toList, isNameChar c = true := by
  unfold validIdentity at h
  rw [Bool.and_eq_true, Bool.and_eq_true] at h
  exact ⟨isNameChar_of_validLabel h.1.1, isNameChar_of_validSubdomain h.1.2,
    isNameChar_of_validLabel h.2⟩

/-! ### Timestamps -/

/-- The terms of a digit between `0` and `hi`. -/
def digit (hi : Char) : Term := .cls false [('0', hi)]

/-- The terms of a date. -/
def dateTerms : List Term :=
  [digit '9', digit '9', digit '9', digit '9', .lit '-', digit '2', digit '9', .lit '-',
    digit '3', digit '9']

/-- The terms of a time of day. -/
def timeTerms : List Term :=
  [digit '2', digit '9', .lit ':', digit '5', digit '9', .lit ':', digit '6', digit '9']

theorem parse_stampPattern :
    parsePattern stampPattern.toList = some (dateTerms ++ .lit 'T' :: timeTerms) := by
  decide +kernel

/-- The end of the container level's pattern. -/
def containerTail : String :=
  "-[0-9][0-9][0-9][0-9]-[0-2][0-9]-[0-3][0-9]T[0-2][0-9]:[0-5][0-9]:[0-6][0-9]*.tar"

/-- Its terms. -/
def containerTerms : List Term :=
  .lit '-' :: (dateTerms ++ .lit 'T' :: (timeTerms ++ .star :: ".tar".toList.map .lit))

theorem parse_containerTail : parsePattern containerTail.toList = some containerTerms := by
  decide +kernel

/-- The end of the other levels' patterns. -/
def openTail : String := "-*-*.tar"

/-- Its terms. -/
def openTerms : List Term :=
  ['-'].map .lit ++ .star :: (['-'].map .lit ++ .star :: ".tar".toList.map .lit)

theorem parse_openTail : parsePattern openTail.toList = some openTerms := by decide +kernel

theorem matchTerms_openTerms {y : List Char} : matchTerms openTerms y = true ↔
    ∃ a b, y = '-' :: (a ++ '-' :: (b ++ ".tar".toList)) ∧ '/' ∉ a ∧ '/' ∉ b := by
  unfold openTerms
  rw [matchTerms_lits_append]
  constructor
  · rintro ⟨y₁, rfl, h₁⟩
    obtain ⟨a, y₂, rfl, ha, h₂⟩ := (matchTerms_star _ _).mp h₁
    obtain ⟨y₃, rfl, h₃⟩ := (matchTerms_lits_append _ _ _).mp h₂
    obtain ⟨b, y₄, rfl, hb, h₄⟩ := (matchTerms_star _ _).mp h₃
    rw [matchTerms_lits] at h₄
    subst h₄
    exact ⟨a, b, rfl, ha, hb⟩
  · rintro ⟨a, b, rfl, ha, hb⟩
    have hend := (matchTerms_lits ".tar".toList _).mpr rfl
    have hb' := (matchTerms_star _ _).mpr ⟨b, _, rfl, hb, hend⟩
    have hdash := (matchTerms_lits_append ['-'] _ _).mpr ⟨_, rfl, hb'⟩
    exact ⟨_, rfl, (matchTerms_star _ _).mpr ⟨a, _, rfl, ha, hdash⟩⟩

theorem matchTerms_containerTerms {y : List Char} : matchTerms containerTerms y = true ↔
    ∃ date time rest, y = '-' :: (date ++ 'T' :: (time ++ (rest ++ ".tar".toList))) ∧
      matchTerms dateTerms date = true ∧ matchTerms timeTerms time = true ∧ '/' ∉ rest := by
  unfold containerTerms
  constructor
  · intro h
    obtain ⟨y₁, rfl, h₁⟩ := (matchTerms_lits_append ['-'] _ _).mp h
    obtain ⟨date, y₂, rfl, hdate, h₂⟩ := (matchTerms_append dateTerms _ _).mp h₁
    obtain ⟨y₃, rfl, h₃⟩ := (matchTerms_lits_append ['T'] _ _).mp h₂
    obtain ⟨time, y₄, rfl, htime, h₄⟩ := (matchTerms_append timeTerms _ _).mp h₃
    obtain ⟨rest, y₅, rfl, hrest, h₅⟩ := (matchTerms_star _ _).mp h₄
    rw [matchTerms_lits] at h₅
    subst h₅
    exact ⟨date, time, rest, rfl, hdate, htime, hrest⟩
  · rintro ⟨date, time, rest, rfl, hdate, htime, hrest⟩
    have hend := (matchTerms_lits ".tar".toList _).mpr rfl
    have hrest' := (matchTerms_star _ _).mpr ⟨rest, _, rfl, hrest, hend⟩
    have htime' := (matchTerms_append _ _ _).mpr ⟨time, _, rfl, htime, hrest'⟩
    have hT := (matchTerms_lits_append ['T'] _ _).mpr ⟨_, rfl, htime'⟩
    have hdate' := (matchTerms_append _ _ _).mpr ⟨date, _, rfl, hdate, hT⟩
    exact (matchTerms_lits_append ['-'] _ _).mpr ⟨_, rfl, hdate'⟩

/-- Characters that separate the parts of a name, or of a timestamp. -/
def separators : List Char := ['_', '/', 'T']

theorem forall_separators {p : Char → Prop} :
    (∀ x ∈ separators, p x) ↔ p '_' ∧ p '/' ∧ p 'T' := by
  simp [separators]

theorem notMem_zone {zone : String} (h : isZone zone = true) :
    ∀ x ∈ separators, x ∉ zone.toList := by
  have hoffset : ∀ sign : Char, sign = '+' ∨ sign = '-' →
      matchPattern (sign :: "[0-2][0-9]:[0-5][0-9]".toList) zone.toList = some true →
      ∀ x ∈ separators, x ∉ zone.toList := by
    intro sign hsign hmatch x hx
    have hparse : parsePattern (sign :: "[0-2][0-9]:[0-5][0-9]".toList)
        = some [.lit sign, digit '2', digit '9', .lit ':', digit '5', digit '9'] := by
      rcases hsign with rfl | rfl <;> decide +kernel
    rw [matchPattern, hparse, Option.map_some, Option.some.injEq] at hmatch
    have hadmits : ∀ x ∈ separators, ∀ t ∈ [Term.lit sign, digit '2', digit '9', .lit ':',
        digit '5', digit '9'], t.admits x = false := by
      rcases hsign with rfl | rfl <;> exact forall_separators.mpr (by decide)
    exact notMem_of_matchTerms (by simp [digit]) (hadmits x hx) hmatch
  unfold isZone at h
  rw [Bool.or_eq_true, Bool.or_eq_true, beq_iff_eq, beq_iff_eq, beq_iff_eq] at h
  rcases h with (rfl | h) | h
  · exact forall_separators.mpr (by decide)
  · exact hoffset '+' (Or.inl rfl) h
  · exact hoffset '-' (Or.inr rfl) h

/-- A timestamp is a date, a `T`, a time of day and a zone, and has no other separator. -/
theorem isTimestamp_parts {timestamp : String} (h : IsTimestamp timestamp) :
    ∃ date time zone, timestamp.toList = date ++ 'T' :: (time ++ zone) ∧
      matchTerms dateTerms date = true ∧ matchTerms timeTerms time = true ∧
      ∀ x ∈ separators, x ∉ date ∧ x ∉ time ++ zone := by
  obtain ⟨stamp, zone, hstamp, hzone, htext⟩ := h
  rw [matchPattern, parse_stampPattern, Option.map_some, Option.some.injEq] at hstamp
  obtain ⟨date, rest, rfl, hdate, hrest⟩ := (matchTerms_append _ _ _).mp hstamp
  obtain ⟨time, rfl, htime⟩ := (matchTerms_lits_append ['T'] _ _).mp hrest
  have hdates : ∀ x ∈ separators, ∀ t ∈ dateTerms, t.admits x = false :=
    forall_separators.mpr (by decide)
  have htimes : ∀ x ∈ separators, ∀ t ∈ timeTerms, t.admits x = false :=
    forall_separators.mpr (by decide)
  refine ⟨date, time, zone.toList, by simpa using htext, hdate, htime, fun x hx => ⟨?_, ?_⟩⟩
  · exact notMem_of_matchTerms (by decide) (hdates x hx) hdate
  · rw [List.mem_append, not_or]
    exact ⟨notMem_of_matchTerms (by decide) (htimes x hx) htime, notMem_zone hzone x hx⟩

/-! ### Names without pattern characters -/

/-- The name stands for itself in a pattern and is part of one path element. -/
def PlainName (name : String) : Prop := ∀ c ∈ name.toList, Plain c ∧ c ≠ '/'

theorem PlainName.notMem_slash {name : String} (h : PlainName name) : '/' ∉ name.toList :=
  fun hmem => (h '/' hmem).2 rfl

theorem plainName_of_isNameChar {name : String} (h : ∀ c ∈ name.toList, isNameChar c = true) :
    PlainName name := by
  refine fun c hc => ⟨plain_of_isNameChar h c hc, ?_⟩
  rintro rfl
  exact absurd (h '/' hc) (by decide)

/-- All three names are plain. -/
structure PlainIdentity (details : CheckpointDetails) : Prop where
  ns : PlainName details.ns
  pod : PlainName details.pod
  container : PlainName details.container

theorem plainIdentity_of_validIdentity {details : CheckpointDetails}
    (h : validIdentity details = true) : PlainIdentity details := by
  obtain ⟨hns, hpod, hcontainer⟩ := isNameChar_of_validIdentity h
  exact ⟨plainName_of_isNameChar hns, plainName_of_isNameChar hpod,
    plainName_of_isNameChar hcontainer⟩

/-! ### File names and patterns -/

/-- What follows the pod in a checkpoint's file name. -/
def nameTail (ref : CheckpointDetails) (timestamp : String) : List Char :=
  ref.ns.toList ++ '-' :: (ref.container.toList ++ '-' :: timestamp.toList)

/-- The file name fits the level's pattern: the pod agrees, and what follows it begins with the
    namespace and a dash, or is the same text up to the timestamp. -/
def Overlaps (details ref : CheckpointDetails) (timestamp : String) : Level → Prop
  | .namespace => ∃ a b, nameTail ref timestamp = details.ns.toList ++ '-' :: (a ++ '-' :: b)
  | .pod => ref.pod = details.pod ∧
      ∃ a b, nameTail ref timestamp = details.ns.toList ++ '-' :: (a ++ '-' :: b)
  | .container => ref.pod = details.pod ∧
      ref.ns ++ "-" ++ ref.container = details.ns ++ "-" ++ details.container

theorem toList_kubeletName (ref : CheckpointDetails) (timestamp : String) :
    (kubeletName ref timestamp).toList = "checkpoint-".toList ++
      (ref.pod.toList ++ '_' :: (nameTail ref timestamp ++ ".tar".toList)) := by
  have hdash : "-".toList = ['-'] := rfl
  have hline : "_".toList = ['_'] := rfl
  unfold kubeletName nameTail
  simp only [String.toList_append, List.append_assoc, List.cons_append, hdash, hline,
    List.nil_append]

section Match
variable {details ref : CheckpointDetails} {timestamp : String}

theorem notMem_nameTail (href : validIdentity ref = true) (ht : IsTimestamp timestamp) :
    '_' ∉ nameTail ref timestamp ∧ '/' ∉ nameTail ref timestamp := by
  obtain ⟨hns, -, hcontainer⟩ := isNameChar_of_validIdentity href
  obtain ⟨date, time, zone, htext, -, -, hnot⟩ := isTimestamp_parts ht
  have hmem : ∀ x ∈ separators, isNameChar x = false → x ≠ '-' → x ≠ 'T' →
      x ∉ nameTail ref timestamp := by
    intro x hx hname hdash hT
    have hns' := notMem_of_isNameChar hname hns
    have hcontainer' := notMem_of_isNameChar hname hcontainer
    obtain ⟨hdate, hrest⟩ := hnot x hx
    rw [nameTail, htext]
    simp only [List.mem_append, List.mem_cons, not_or] at hrest ⊢
    exact ⟨hns', hdash, hcontainer', hdash, hdate, hT, hrest⟩
  exact ⟨hmem '_' (by decide) (by decide) (by decide) (by decide),
    hmem '/' (by decide) (by decide) (by decide) (by decide)⟩

/-- The first `_` of a file name is the one behind the pod. -/
theorem kubeletName_split (href : validIdentity ref = true) (ht : IsTimestamp timestamp)
    {p y : List Char} :
    (kubeletName ref timestamp).toList = "checkpoint-".toList ++ (p ++ '_' :: y) ↔
      ref.pod.toList = p ∧ nameTail ref timestamp ++ ".tar".toList = y := by
  obtain ⟨-, hpod, -⟩ := isNameChar_of_validIdentity href
  have hpod' : '_' ∉ ref.pod.toList := notMem_of_isNameChar (by decide) hpod
  have htail : '_' ∉ nameTail ref timestamp ++ ".tar".toList := by
    rw [List.mem_append, not_or]
    exact ⟨(notMem_nameTail href ht).1, by decide⟩
  rw [toList_kubeletName, List.append_cancel_left_eq,
    List.append_cons_inj_of_notMem hpod' htail]
  simp

/-- What follows the pod fits the open end of a pattern exactly if the namespace stands in front
    of a dash. -/
theorem nameTail_openTerms (href : validIdentity ref = true) (ht : IsTimestamp timestamp)
    (ns : List Char) :
    (∃ y, nameTail ref timestamp ++ ".tar".toList = ns ++ y ∧ matchTerms openTerms y = true) ↔
      ∃ a b, nameTail ref timestamp = ns ++ '-' :: (a ++ '-' :: b) := by
  constructor
  · rintro ⟨y, htail, hy⟩
    obtain ⟨a, b, rfl, -, -⟩ := matchTerms_openTerms.mp hy
    refine ⟨a, b, (List.append_left_inj ".tar".toList).mp ?_⟩
    simpa using htail
  · rintro ⟨a, b, htail⟩
    have hslash := (notMem_nameTail href ht).2
    rw [htail] at hslash ⊢
    simp only [List.mem_append, List.mem_cons, not_or] at hslash
    refine ⟨'-' :: (a ++ '-' :: (b ++ ".tar".toList)), by simp, ?_⟩
    exact matchTerms_openTerms.mpr ⟨a, b, rfl, hslash.2.2.1, hslash.2.2.2.2⟩

/-- It fits the end of the container level's pattern exactly if all in front of the timestamp
    is the text that the pattern has there. -/
theorem nameTail_containerTerms (href : validIdentity ref = true) (ht : IsTimestamp timestamp)
    (text : List Char) :
    (∃ y, nameTail ref timestamp ++ ".tar".toList = text ++ y ∧
      matchTerms containerTerms y = true) ↔
      ref.ns.toList ++ '-' :: ref.container.toList = text := by
  obtain ⟨hns, -, hcontainer⟩ := isNameChar_of_validIdentity href
  obtain ⟨date, time, zone, hstamp, hdate, htime, hnot⟩ := isTimestamp_parts ht
  have hT := hnot 'T' (by decide)
  have hshape : nameTail ref timestamp ++ ".tar".toList
      = ((ref.ns.toList ++ '-' :: ref.container.toList) ++ '-' :: date) ++
        'T' :: (time ++ (zone ++ ".tar".toList)) := by
    simp [nameTail, hstamp]
  constructor
  · rintro ⟨y, htail, hy⟩
    obtain ⟨date', time', rest', rfl, hdate', -, -⟩ := matchTerms_containerTerms.mp hy
    -- the only `T` is that of the timestamp, and dates have one length
    have hfront : 'T' ∉ (ref.ns.toList ++ '-' :: ref.container.toList) ++ '-' :: date := by
      have hns' : 'T' ∉ ref.ns.toList := notMem_of_isNameChar (by decide) hns
      have hcontainer' : 'T' ∉ ref.container.toList := notMem_of_isNameChar (by decide) hcontainer
      simp [hns', hcontainer', hT.1]
    have hback : 'T' ∉ time ++ (zone ++ ".tar".toList) := by
      have hrest := hT.2
      simp only [List.mem_append, not_or] at hrest ⊢
      exact ⟨hrest.1, hrest.2, by decide⟩
    have hsplit : ((ref.ns.toList ++ '-' :: ref.container.toList) ++ '-' :: date) ++
        'T' :: (time ++ (zone ++ ".tar".toList))
        = (text ++ '-' :: date') ++ 'T' :: (time' ++ (rest' ++ ".tar".toList)) := by
      rw [← hshape, htail]
      simp
    have hpieces := ((List.append_cons_inj_of_notMem hfront hback).mp hsplit).1
    refine (List.append_inj' hpieces ?_).1
    have hlen := (forall₂_of_matchTerms (by decide) hdate).length_eq
    have hlen' := (forall₂_of_matchTerms (by decide) hdate').length_eq
    simp [← hlen, ← hlen']
  · rintro rfl
    have hslash : '/' ∉ zone := by
      have h := (hnot '/' (by decide)).2
      rw [List.mem_append, not_or] at h
      exact h.2
    refine ⟨'-' :: (date ++ 'T' :: (time ++ (zone ++ ".tar".toList))), ?_, ?_⟩
    · rw [hshape]
      simp
    · exact matchTerms_containerTerms.mpr ⟨date, time, zone, rfl, hdate, htime, hslash⟩

/-- Behind a pod that is spelled out, the rest of the name is matched. -/
theorem matchPattern_podPattern (hpod : ∀ c ∈ details.pod.toList, Plain c)
    (href : validIdentity ref = true) (ht : IsTimestamp timestamp) {text tail : List Char}
    {terms : List Term} (htext : ∀ c ∈ text, Plain c) (htail : '\\' ∉ tail)
    (hterms : parsePattern tail = some terms) :
    matchPattern ("checkpoint-".toList ++ (details.pod.toList ++ '_' :: text) ++ tail)
      (kubeletName ref timestamp).toList = some true ↔
    ref.pod = details.pod ∧
      ∃ y, nameTail ref timestamp ++ ".tar".toList = text ++ y ∧ matchTerms terms y = true := by
  have hhead : ∀ c ∈ "checkpoint-".toList ++ (details.pod.toList ++ '_' :: text), Plain c := by
    have hline : Plain '_' := by simp [Plain]
    exact List.forall_mem_append.mpr ⟨by simp [Plain],
      List.forall_mem_append.mpr ⟨hpod, List.forall_mem_cons.mpr ⟨hline, htext⟩⟩⟩
  have hassoc : ∀ y, "checkpoint-".toList ++ (details.pod.toList ++ '_' :: text) ++ y
      = "checkpoint-".toList ++ (details.pod.toList ++ '_' :: (text ++ y)) := by simp
  rw [matchPattern_plain_append hhead htail hterms]
  simp only [hassoc, kubeletName_split href ht, and_assoc, exists_and_left, String.toList_inj]

/-- The pod is matched by a `*`: it is the part in front of the only `_`. -/
theorem matchPattern_namespacePattern (hns : ∀ c ∈ details.ns.toList, Plain c)
    (href : validIdentity ref = true) (ht : IsTimestamp timestamp) :
    matchPattern ("checkpoint-".toList ++ '*' :: ('_' :: details.ns.toList ++ openTail.toList))
      (kubeletName ref timestamp).toList = some true ↔
    ∃ a b, nameTail ref timestamp = details.ns.toList ++ '-' :: (a ++ '-' :: b) := by
  obtain ⟨-, hpod, -⟩ := isNameChar_of_validIdentity href
  have htext : ∀ c ∈ '_' :: details.ns.toList, Plain c :=
    List.forall_mem_cons.mpr ⟨by simp [Plain], hns⟩
  have hopen : '\\' ∉ openTail.toList := by decide
  have hrest : '\\' ∉ '_' :: details.ns.toList ++ openTail.toList := by
    rw [List.mem_append, not_or]
    exact ⟨fun hm => (htext _ hm).2.2.2.2 rfl, hopen⟩
  have hparse : parsePattern ('*' :: ('_' :: details.ns.toList ++ openTail.toList))
      = some (.star :: (('_' :: details.ns.toList).map .lit ++ openTerms)) := by
    rw [parsePattern_star hrest, parsePattern_plain_append htext hopen, parse_openTail]
    rfl
  rw [matchPattern_plain_append (by simp [Plain]) (by simpa using hrest) hparse,
    ← nameTail_openTerms href ht]
  constructor
  · rintro ⟨b, hname, hb⟩
    -- the star stands for the pod: the name has one `_` only, behind the pod
    obtain ⟨p, y, rfl, -, hy⟩ := (matchTerms_star _ _).mp hb
    obtain ⟨z, rfl, hz⟩ := (matchTerms_lits_append _ _ _).mp hy
    exact ⟨z, ((kubeletName_split href ht).mp hname).2, hz⟩
  · rintro ⟨z, htail, hz⟩
    have hslash : '/' ∉ ref.pod.toList := notMem_of_isNameChar (by decide) hpod
    have hy := (matchTerms_lits_append ('_' :: details.ns.toList) _ _).mpr ⟨z, rfl, hz⟩
    refine ⟨ref.pod.toList ++ '_' :: (details.ns.toList ++ z), ?_, ?_⟩
    · exact (kubeletName_split href ht).mpr ⟨rfl, htail⟩
    · exact (matchTerms_star _ _).mpr ⟨ref.pod.toList, _, rfl, hslash, hy⟩

/-- The patterns of the levels, by their parts. -/
theorem toList_levelFilePattern_container (details : CheckpointDetails) :
    (levelFilePattern details .container).toList
      = "checkpoint-".toList ++ (details.pod.toList ++
        '_' :: (details.ns.toList ++ '-' :: details.container.toList)) ++
        containerTail.toList := by
  have hdash : "-".toList = ['-'] := rfl
  have hline : "_".toList = ['_'] := rfl
  unfold levelFilePattern
  simp only [String.toList_append, List.append_assoc, hdash, hline, List.cons_append,
    List.nil_append, containerTail]

theorem toList_levelFilePattern_pod (details : CheckpointDetails) :
    (levelFilePattern details .pod).toList
      = "checkpoint-".toList ++ (details.pod.toList ++ '_' :: details.ns.toList) ++
        openTail.toList := by
  have hline : "_".toList = ['_'] := rfl
  unfold levelFilePattern
  simp only [String.toList_append, List.append_assoc, hline, List.cons_append, List.nil_append,
    openTail]

theorem toList_levelFilePattern_namespace (details : CheckpointDetails) :
    (levelFilePattern details .namespace).toList
      = "checkpoint-".toList ++ '*' :: ('_' :: details.ns.toList ++ openTail.toList) := by
  unfold levelFilePattern
  simp only [String.toList_append, List.append_assoc, List.cons_append, openTail]
  rfl

/-- **What the pattern of a level matches**, in terms of the names. -/
theorem matchPattern_levelFilePattern (hdetails : PlainIdentity details)
    (href : validIdentity ref = true) (ht : IsTimestamp timestamp) (level : Level) :
    matchPattern (levelFilePattern details level).toList (kubeletName ref timestamp).toList
      = some true ↔ Overlaps details ref timestamp level := by
  have hns' : ∀ c ∈ details.ns.toList, Plain c := fun c hc => (hdetails.ns c hc).1
  have hpod' : ∀ c ∈ details.pod.toList, Plain c := fun c hc => (hdetails.pod c hc).1
  have hcontainer' : ∀ c ∈ details.container.toList, Plain c :=
    fun c hc => (hdetails.container c hc).1
  cases level with
  | container =>
    have hdash : "-".toList = ['-'] := rfl
    have hlists : ref.ns.toList ++ '-' :: ref.container.toList
        = details.ns.toList ++ '-' :: details.container.toList ↔
        ref.ns ++ "-" ++ ref.container = details.ns ++ "-" ++ details.container := by
      rw [← String.toList_inj]
      simp only [String.toList_append, List.append_assoc, hdash, List.cons_append, List.nil_append]
    have htext : ∀ c ∈ details.ns.toList ++ '-' :: details.container.toList, Plain c :=
      List.forall_mem_append.mpr ⟨hns', List.forall_mem_cons.mpr ⟨by simp [Plain], hcontainer'⟩⟩
    rw [toList_levelFilePattern_container,
      matchPattern_podPattern hpod' href ht htext (by decide) parse_containerTail,
      nameTail_containerTerms href ht, hlists, Overlaps]
  | pod =>
    rw [toList_levelFilePattern_pod,
      matchPattern_podPattern hpod' href ht hns' (by decide) parse_openTail,
      nameTail_openTerms href ht, Overlaps]
  | «namespace» =>
    rw [toList_levelFilePattern_namespace]
    exact matchPattern_namespacePattern hns' href ht

/-- **The patterns of an identity match its own file names, and the container's no others.**
    A name of another identity fits only where namespace and container join to the same
    text. -/
theorem levelFilePattern_exact (hdetails : validIdentity details = true)
    (href : validIdentity ref = true) (ht : IsTimestamp timestamp) :
    (∀ level, matchPattern (levelFilePattern ref level).toList
      (kubeletName ref timestamp).toList = some true) ∧
    (matchPattern (levelFilePattern details .container).toList
      (kubeletName ref timestamp).toList = some true ↔
      ref.pod = details.pod ∧
        ref.ns ++ "-" ++ ref.container = details.ns ++ "-" ++ details.container) := by
  refine ⟨fun level => ?_, ?_⟩
  · rw [matchPattern_levelFilePattern (plainIdentity_of_validIdentity href) href ht]
    -- the name itself shows where its namespace and its container end
    have htail : ∃ a b, nameTail ref timestamp = ref.ns.toList ++ '-' :: (a ++ '-' :: b) :=
      ⟨ref.container.toList, timestamp.toList, rfl⟩
    cases level with
    | container => exact ⟨rfl, rfl⟩
    | pod => exact ⟨rfl, htail⟩
    | «namespace» => exact htail
  · exact matchPattern_levelFilePattern (plainIdentity_of_validIdentity hdetails) href ht .container

/-- The container `b-c` of namespace `a` and the container `c` of `a-b` share their names. -/
theorem levelFilePattern_exact_joined :
    matchPattern (levelFilePattern ⟨"a-b", "web", "c"⟩ .container).toList
      (kubeletName ⟨"a", "web", "b-c"⟩ "2026-01-01T00:00:00Z").toList = some true :=
  (levelFilePattern_exact (by decide) (by decide) isTimestamp_newYear).2.mpr ⟨rfl, by decide⟩

/-! ### Patterns in a directory -/

/-- File names and patterns begin with the `c` of `checkpoint`. -/
theorem normal_of_head {cs : List Char} (hhead : cs.head? = some 'c') (h : '/' ∉ cs) :
    Normal cs := by
  refine ⟨?_, ?_, ?_, h⟩ <;> rintro rfl <;> simp at hhead

theorem normal_kubeletName (href : validIdentity ref = true) (ht : IsTimestamp timestamp) :
    Normal (kubeletName ref timestamp).toList := by
  obtain ⟨-, hpod, -⟩ := isNameChar_of_validIdentity href
  have hpod' : '/' ∉ ref.pod.toList := notMem_of_isNameChar (by decide) hpod
  have htail := (notMem_nameTail href ht).2
  rw [toList_kubeletName]
  refine normal_of_head rfl ?_
  simp [hpod', htail]

theorem normal_levelFilePattern (hdetails : PlainIdentity details) (level : Level) :
    Normal (levelFilePattern details level).toList := by
  have hns' := hdetails.ns.notMem_slash
  have hpod' := hdetails.pod.notMem_slash
  have hcontainer' := hdetails.container.notMem_slash
  have hstart : '/' ∉ "checkpoint-".toList := by decide
  have hopen : '/' ∉ openTail.toList := by decide
  cases level with
  | container =>
    have htail : '/' ∉ containerTail.toList := by decide
    rw [toList_levelFilePattern_container]
    refine normal_of_head rfl ?_
    simp only [List.mem_append, List.mem_cons, not_or]
    exact ⟨⟨hstart, hpod', by decide, hns', by decide, hcontainer'⟩, htail⟩
  | pod =>
    rw [toList_levelFilePattern_pod]
    refine normal_of_head rfl ?_
    simp only [List.mem_append, List.mem_cons, not_or]
    exact ⟨⟨hstart, hpod', by decide, hns'⟩, hopen⟩
  | «namespace» =>
    rw [toList_levelFilePattern_namespace]
    refine normal_of_head rfl ?_
    simp only [List.mem_append, List.mem_cons, not_or]
    exact ⟨hstart, by decide, ⟨by decide, hns'⟩, hopen⟩

end Match

end CheckpointRestore.Retention
