import CheckpointRestore.Lib.Pool
import CheckpointRestore.Forensic.Trace

namespace CheckpointRestore.Forensic

open Go Interaction

/-!
# Reconciling through a lagging cache

The world in which `Get` answers from a cache: it may return any stored version that is not
older than the last one it returned.  `Status().Update` is refused unless it carries the
newest resource version, and other writers edit metadata and spec at any time.  Reconciles of
one chain follow each other; the operator may be stopped between any two steps of one.

The decision is taken on the version read first, the status update re-reads.  As long as no
reconcile starts from a running version after a terminal one was stored (`FreshStart`),
terminal phases stay and the destructive action runs at most once; a stale first read breaks
the latter.

* `lagWorld` — that world;
* `Issued`, `reconcile_issued` — what the trace of a reconcile says when it writes or deletes;
* `ReadInv` — what every run keeps of the versions stored and read;
* `LagInv` — the invariant over versions and traces;
* `terminal_stable_of_fresh` — the two laws, in every run whose reconciles start fresh;
* `stale_read_deletes_twice` — a run that deletes in two reconciles.
-/

/-! ### The world -/

/-- All stored versions, oldest first, and the position of the one `Get` returned last. -/
structure Store where
  versions : List Chain
  lastRead : ℕ

/-- The answers and effects of the operations. -/
def lagAct : (op : sig.Op) → Store → sig.Reply op → Store → Prop
  | .get, s, r, s' =>
    (∃ j c, s.lastRead ≤ j ∧ s.versions[j]? = some c ∧ r = .found c ∧
      s' = { s with lastRead := j }) ∨
    ∃ msg, r = .failed msg ∧ s' = s
  | .statusUpdate chain, s, r, s' =>
    (∃ newest, s.versions.getLast? = some newest ∧
      chain.resourceVersion = newest.resourceVersion ∧ r = .ok ∧
      s' = { s with versions := s.versions ++ [newest.store chain.status] }) ∨
    (∃ newest, s.versions.getLast? = some newest ∧
      chain.resourceVersion ≠ newest.resourceVersion ∧ (∃ msg, r = .conflict msg) ∧ s' = s) ∨
    ∃ msg, r = .failed msg ∧ s' = s
  | .now, s, _, s' => s' = s
  | .listPods _ _, s, _, s' => s' = s
  | .createCheckpoint _ _ _ _, s, _, s' => s' = s
  | .helperLogs _ _ _, s, _, s' => s' = s
  | .deletePod _, s, _, s' => s' = s

/-- Another writer edits metadata or spec. -/
def edit (s s' : Store) : Prop :=
  ∃ newest c, s.versions.getLast? = some newest ∧ c.status = newest.status ∧
    c.resourceVersion = newest.resourceVersion + 1 ∧ s' = { s with versions := s.versions ++ [c] }

/-- Reconciles through the cache, with other writers. -/
def lagWorld : Interaction.World sig Outcome Store where
  act := lagAct
  env := edit
  start _ p := p = reconcile

/-- Reconciles follow each other: only the one started last goes on. -/
def Latest (b : Pool sig Outcome Store) : Label sig Outcome → Prop
  | .act i _ => i + 1 = b.threads.length
  | _ => True

/-- The running version that a reconcile reads first is related to the newest one. -/
def StartsWith (Rel : Chain → Chain → Prop) (b : Pool sig Outcome Store)
    (l : Label sig Outcome) : Prop :=
  ∀ i c p newest, l = .act i ⟨Op.get, GetReply.found c⟩ → b.threads[i]? = some ⟨[], p⟩ →
    c.status.phase = .running → b.shared.versions.getLast? = some newest → Rel c newest

/-- The newest version is not terminal, whatever was read. -/
def NotTerminal (_ newest : Chain) : Prop := newest.status.phase.terminal = false

/-- The first read of a reconcile does not return a running version when the newest one is
    terminal. -/
def FreshStart : Pool sig Outcome Store → Label sig Outcome → Prop := StartsWith NotTerminal

/-! ### What the trace of a reconcile says -/

/-- Some status write that succeeded was terminal. -/
def WroteTerminal (tr : List (Event sig)) : Prop :=
  ∃ e ∈ tr, ∃ c, written e = some c ∧ c.status.phase.terminal = true

/-- When a reconcile writes, it has not written yet, and it began with a running version or
    writes on the very version it read, which was not terminal; when it deletes, it has
    written a terminal status. -/
def Issued (tr : List (Event sig)) : sig.Op → Prop
  | .statusUpdate c => ¬ Wrote tr ∧ ∃ c₀, Began tr c₀ ∧
      (c₀.status.phase = .running ∨
        c₀.status.phase.terminal = false ∧ c.resourceVersion = c₀.resourceVersion)
  | .deletePod _ => WroteTerminal tr
  | _ => True

/-- The obligations of a reconcile, over its own trace. -/
def lagContract : Contract sig (List (Event sig)) := traceContract Issued (fun _ => True)

/-- A reconcile that began with `c` and has not written yet. -/
def Undecided (c : Chain) (tr : List (Event sig)) : Prop := Began tr c ∧ ¬ Wrote tr

variable {tr : List (Event sig)}

theorem WroteTerminal.append (h : WroteTerminal tr) (tr' : List (Event sig)) :
    WroteTerminal (tr ++ tr') := by
  obtain ⟨e, he, hc⟩ := h
  exact ⟨e, List.mem_append_left _ he, hc⟩

variable {c : Chain}

/-- A change after which pods may be deleted is terminal. -/
theorem Mutation.terminal {mutate : ℤ → ℤ → Status → Status} {pods : List PodInfo} {count : ℤ}
    (h : Mutation c tr mutate (some (pods, count))) (t₁ t₂ : ℤ) (st : Status) :
    (mutate t₁ t₂ st).phase.terminal = true := by
  cases h with
  | maxDuration => rfl
  | @roundDone _ _ _ round _ t reason message =>
    obtain ⟨conditions, errorMessage, heq⟩ :=
      Status.roundDone_eq st t round (hashingEnabled c) reason message t₁ t₂
    rw [heq]
    rfl

/-- What the trace of a reconcile justifies meets the obligations. -/
theorem issued_of_specified (tr : List (Event sig)) (op : sig.Op) (h : Specified tr op) :
    Issued tr op := by
  cases op with
  | statusUpdate chain =>
    obtain ⟨hw, c, hb, hwrites⟩ := h
    refine ⟨hw, c, hb, ?_⟩
    cases hwrites with
    | toPending hp => exact Or.inr ⟨by rw [hp]; rfl, rfl⟩
    | toRunning hp => exact Or.inr ⟨by rw [hp]; rfl, rfl⟩
    | update hp => exact Or.inl hp
  | deletePod pod =>
    obtain ⟨c, -, before, latest, mutate, pods, count, t₁, t₂, deletions, rfl, -,
      ⟨pre, rest, -, -, -, hm⟩, -⟩ := h
    exact ⟨_, List.mem_append_right _ List.mem_cons_self, _, rfl, hm.terminal t₁ t₂ latest.status⟩
  | _ => exact trivial

/-- **Every reconcile meets its obligations.** -/
theorem reconcile_issued : wp lagContract reconcile (fun _ _ => True) [] :=
  wp_traceContract_mono issued_of_specified reconcile_specified

/-! ### The invariants -/

/-- What holds of the stored versions and of what the reconciles have read: the last of them, as
    long as it has stored nothing, began with a version that is related to the newest one. -/
structure ReadInv (Rel : Chain → Chain → Prop) (b : Pool sig Outcome Store) : Prop where
  numbered : b.shared.versions.Pairwise (fun c d => c.resourceVersion < d.resourceVersion)
  read : ∀ t ∈ b.threads, ∀ c, ⟨Op.get, GetReply.found c⟩ ∈ t.trace → c ∈ b.shared.versions
  start : ∀ t c newest, b.threads.getLast? = some t → Undecided c t.trace →
    c.status.phase = .running → b.shared.versions.getLast? = some newest → Rel c newest

/-- Once a terminal status is stored, every later version has its phase. -/
def TerminalStable (versions : List Chain) : Prop :=
  versions.Pairwise (fun c d => c.status.phase.terminal = true → d.status.phase = c.status.phase)

/-- A pod deletion. -/
def deletion : Event sig → Bool
  | ⟨.deletePod _, _⟩ => true
  | _ => false

/-- The reconcile issued a pod deletion. -/
def Deletes (tr : List (Event sig)) : Prop := ∃ e ∈ tr, deletion e = true
  deriving Decidable

/-- What holds of the phases stored so far and of the reconciles that stored them. -/
structure LagInv (b : Pool sig Outcome Store) : Prop where
  stable : TerminalStable b.shared.versions
  terminal : ∀ t ∈ b.threads, WroteTerminal t.trace → ∀ newest,
    b.shared.versions.getLast? = some newest → newest.status.phase.terminal = true
  once : ∀ (i j : ℕ) (t u : Thread sig Outcome), b.threads[i]? = some t →
    b.threads[j]? = some u → WroteTerminal t.trace → WroteTerminal u.trace → i = j

variable {versions : List Chain} {newest : Chain}

/-- A stored version is the newest one or related to it. -/
theorem rel_newest {R : Chain → Chain → Prop} (h : versions.Pairwise R)
    (hlast : versions.getLast? = some newest) (hc : c ∈ versions) : c = newest ∨ R c newest := by
  obtain ⟨init, rfl⟩ := List.getLast?_eq_some_iff.mp hlast
  rcases List.mem_append.mp hc with hc | hc
  · exact Or.inr ((List.pairwise_append.mp h).2.2 c hc newest (List.mem_singleton.mpr rfl))
  · exact Or.inl (List.mem_singleton.mp hc)

/-- Storing a version with the next number keeps the versions in order. -/
theorem numbered_concat (h : versions.Pairwise (fun c d => c.resourceVersion < d.resourceVersion))
    (hlast : versions.getLast? = some newest)
    (hc : c.resourceVersion = newest.resourceVersion + 1) :
    (versions ++ [c]).Pairwise (fun c d => c.resourceVersion < d.resourceVersion) := by
  refine List.pairwise_append.mpr ⟨h, List.pairwise_singleton _ _, ?_⟩
  intro a ha b hb
  rw [List.mem_singleton.mp hb, hc]
  rcases rel_newest h hlast ha with rfl | hlt
  · omega
  · omega

/-- Storing a version keeps terminal phases if it has the newest phase, or if the newest
    phase was not terminal. -/
theorem TerminalStable.concat (h : TerminalStable versions)
    (hlast : versions.getLast? = some newest)
    (hc : newest.status.phase.terminal = true → c.status.phase = newest.status.phase) :
    TerminalStable (versions ++ [c]) := by
  refine List.pairwise_append.mpr ⟨h, List.pairwise_singleton _ _, ?_⟩
  intro a ha b hb hterm
  rw [List.mem_singleton.mp hb]
  rcases rel_newest h hlast ha with rfl | hrel
  · exact hc hterm
  · have hphase := hrel hterm
    rw [hc (by rw [hphase]; exact hterm), hphase]

variable {e : Event sig}

/-- `Undecided` and `WroteTerminal` along one more event. -/
theorem wroteTerminal_snoc (h : WroteTerminal (tr ++ [e])) :
    WroteTerminal tr ∨ ∃ c, written e = some c ∧ c.status.phase.terminal = true := by
  obtain ⟨x, hx, hc⟩ := h
  rcases List.mem_append.mp hx with hx | hx
  · exact Or.inl ⟨x, hx, hc⟩
  · rw [List.mem_singleton.mp hx] at hc
    exact Or.inr hc

/-- What began with a version has read it. -/
theorem Began.mem (h : Began tr c) : ⟨Op.get, GetReply.found c⟩ ∈ tr := by
  obtain ⟨rest, rfl⟩ := h
  exact List.mem_cons_self

theorem began_snoc (h : Began (tr ++ [e]) c) :
    Began tr c ∨ tr = [] ∧ e = ⟨Op.get, GetReply.found c⟩ := by
  obtain ⟨rest, hrest⟩ := h
  cases tr with
  | nil => exact Or.inr ⟨rfl, (List.cons.inj hrest).1⟩
  | cons x tr => exact Or.inl ⟨tr, by rw [(List.cons.inj hrest).1]⟩

theorem not_wrote_of_append {tr' : List (Event sig)} (h : ¬ Wrote (tr ++ tr')) : ¬ Wrote tr := by
  rintro ⟨e, he, hw⟩
  exact h ⟨e, List.mem_append_left _ he, hw⟩

/-! ### One step of the pool -/

variable {s₀ : Store} {b b' : Pool sig Outcome Store} {l : Label sig Outcome}
  {p : Prog sig Outcome}

/-- Every thread of a reachable pool is a reconcile in progress. -/
theorem unfolds_reconcile {ok : Pool sig Outcome Store → Label sig Outcome → Prop}
    (h : Reaches lagWorld ok ⟨s₀, []⟩ b) {t : Thread sig Outcome} (ht : t ∈ b.threads) :
    Unfolds reconcile t.trace t.prog := by
  obtain ⟨p, rfl, hu⟩ := h.unfolds (P := (· = reconcile)) rfl (fun _ _ hst => hst) t ht
  exact hu

/-- What a step does when only the last reconcile goes on: start another one, edit the object,
    issue an operation that stores nothing, or store a status. -/
inductive LagStep : Pool sig Outcome Store → Label sig Outcome → Pool sig Outcome Store → Prop
  | spawn {s : Store} {ts : List (Thread sig Outcome)} {p : Prog sig Outcome} :
      LagStep ⟨s, ts⟩ (.spawn p) ⟨s, ts ++ [⟨[], p⟩]⟩
  | edit {s s' : Store} {ts : List (Thread sig Outcome)} (he : edit s s') :
      LagStep ⟨s, ts⟩ .env ⟨s', ts⟩
  | quiet {s s' : Store} {ts : List (Thread sig Outcome)} {tr : List (Event sig)}
      {p p' : Prog sig Outcome} {e : Event sig} (hs : s'.versions = s.versions)
      (hw : written e = none) (hget : ∀ c, e = ⟨Op.get, GetReply.found c⟩ → c ∈ s.versions) :
      LagStep ⟨s, ts ++ [⟨tr, p⟩]⟩ (.act ts.length e) ⟨s', ts ++ [⟨tr ++ [e], p'⟩]⟩
  | write {s : Store} {ts : List (Thread sig Outcome)} {tr : List (Event sig)}
      {p p' : Prog sig Outcome} {c newest : Chain} (hspec : Specified tr (Op.statusUpdate c))
      (hlast : s.versions.getLast? = some newest)
      (hrv : c.resourceVersion = newest.resourceVersion) :
      LagStep ⟨s, ts ++ [⟨tr, p⟩]⟩ (.act ts.length ⟨Op.statusUpdate c, UpdateReply.ok⟩)
        ⟨{ s with versions := s.versions ++ [newest.store c.status] },
          ts ++ [⟨tr ++ [⟨Op.statusUpdate c, UpdateReply.ok⟩], p'⟩]⟩

/-- The inversion lemma. -/
theorem lagStep_of_step {ok : Pool sig Outcome Store → Label sig Outcome → Prop}
    (hr : Reaches lagWorld ok ⟨s₀, []⟩ b)
    (hlatest : Latest b l) (hs : Step lagWorld b l b') : LagStep b l b' := by
  cases hs with
  | spawn hst => exact .spawn
  | env he => exact .edit he
  | @act i tr op k r s' hi hact =>
    -- the thread that moves is the last one
    have hlen : i + 1 = b.threads.length := hlatest
    have hu := unfolds_reconcile hr (List.mem_of_getElem? hi)
    have hspec := pre_of_unfolds reconcile_specified hu (fun _ _ => trivial)
    obtain ⟨s, threads⟩ := b
    obtain ⟨ts, t, rfl⟩ : ∃ ts t, threads = ts ++ [t] := by
      rcases List.eq_nil_or_concat threads with rfl | ⟨ts, t, rfl⟩
      · exact absurd hlen (by simp)
      · exact ⟨ts, t, by simp⟩
    obtain rfl : i = ts.length := by simpa using hlen
    obtain rfl : t = ⟨tr, .call op k⟩ := by simpa using hi
    have hset : ∀ t u : Thread sig Outcome, (ts ++ [t]).set ts.length u = ts ++ [u] := by
      intro t u; simp
    dsimp only
    rw [hset]
    cases op with
    | get =>
      refine .quiet ?_ rfl ?_
      · rcases hact with ⟨j, c, -, -, -, rfl⟩ | ⟨msg, -, rfl⟩
        · rfl
        · rfl
      · intro c he
        have hreply : r = GetReply.found c := by injection he
        rcases hact with ⟨j, d, -, hj, hd, -⟩ | ⟨msg, hfail, -⟩
        · obtain rfl : d = c := by rw [hreply] at hd; exact (GetReply.found.inj hd).symm
          exact List.mem_of_getElem? hj
        · exact absurd (hreply.symm.trans hfail) (by simp)
    | statusUpdate c =>
      rcases hact with ⟨newest, hlast, hrv, rfl, rfl⟩ | ⟨newest, -, -, ⟨msg, rfl⟩, rfl⟩ |
        ⟨msg, rfl, rfl⟩
      · exact .write hspec hlast hrv
      · exact .quiet rfl rfl (fun c he => absurd (congrArg Event.op he) (by simp))
      · exact .quiet rfl rfl (fun c he => absurd (congrArg Event.op he) (by simp))
    | _ =>
      obtain rfl := hact
      exact .quiet rfl rfl (fun c he => absurd (congrArg Event.op he) (by simp))

/-- One more event of the last reconcile: what it reads is stored. -/
theorem read_snoc {ts : List (Thread sig Outcome)} {p' : Prog sig Outcome}
    (h : ∀ t ∈ ts ++ [⟨tr, p⟩], ∀ c, ⟨Op.get, GetReply.found c⟩ ∈ t.trace → c ∈ versions)
    (hget : ∀ c, e = ⟨Op.get, GetReply.found c⟩ → c ∈ versions) :
    ∀ t ∈ ts ++ [⟨tr ++ [e], p'⟩], ∀ c, ⟨Op.get, GetReply.found c⟩ ∈ t.trace → c ∈ versions := by
  intro t ht c hc
  rcases List.mem_append.mp ht with ht | ht
  · exact h t (List.mem_append_left _ ht) c hc
  · obtain rfl := List.mem_singleton.mp ht
    rcases List.mem_append.mp hc with hc | hc
    · exact h ⟨tr, p⟩ (List.mem_append_right _ (List.mem_singleton.mpr rfl)) c hc
    · exact hget c (List.mem_singleton.mp hc).symm

/-- The step lemma of what was read, for a relation that looks at the newest status only. -/
theorem ReadInv.step {Rel : Chain → Chain → Prop}
    (hrel : ∀ c d d' : Chain, d'.status = d.status → Rel c d → Rel c d') (h : ReadInv Rel b)
    (hstart : StartsWith Rel b l) (hs : LagStep b l b') : ReadInv Rel b' := by
  cases hs with
  | spawn =>
    refine ⟨h.numbered, ?_, ?_⟩
    · intro t ht c hc
      rcases List.mem_append.mp ht with ht | ht
      · exact h.read t ht c hc
      · obtain rfl := List.mem_singleton.mp ht
        exact absurd hc List.not_mem_nil
    · intro t c newest ht hu
      rw [List.getLast?_concat] at ht
      obtain rfl := Option.some.inj ht
      exact absurd hu.1.mem List.not_mem_nil
  | edit he =>
    obtain ⟨newest, c, hlast, hstatus, hrv, rfl⟩ := he
    refine ⟨numbered_concat h.numbered hlast hrv,
      fun t ht d hd => List.mem_append_left _ (h.read t ht d hd), ?_⟩
    intro t d newest' ht hu hp hlast'
    rw [List.getLast?_concat] at hlast'
    obtain rfl := Option.some.inj hlast'
    exact hrel d newest c hstatus (h.start t d newest ht hu hp hlast)
  | @quiet s s' ts tr p p' e hversions hw hget =>
    refine ⟨by rw [hversions]; exact h.numbered, by rw [hversions]; exact read_snoc h.read hget, ?_⟩
    intro t c newest ht hu hp hlast
    rw [hversions] at hlast
    rw [List.getLast?_concat] at ht
    obtain rfl := Option.some.inj ht
    rcases began_snoc hu.1 with hc | ⟨rfl, rfl⟩
    · exact h.start ⟨tr, p⟩ c newest List.getLast?_concat ⟨hc, not_wrote_of_append hu.2⟩ hp hlast
    · exact hstart ts.length c p newest rfl (by simp) hp hlast
  | write hspec hlast hrv =>
    refine ⟨numbered_concat h.numbered hlast rfl, fun t ht d hd => List.mem_append_left _
      (read_snoc h.read (fun c he => absurd (congrArg Event.op he) (by simp)) t ht d hd), ?_⟩
    -- the reconcile has written
    intro t d newest' ht hu
    rw [List.getLast?_concat] at ht
    obtain rfl := Option.some.inj ht
    exact absurd ⟨_, List.mem_append_right _ (List.mem_singleton.mpr rfl), rfl⟩ hu.2

/-- And its run lemma. -/
theorem readInv_of_reaches (Rel : Chain → Chain → Prop)
    (hrel : ∀ c d d' : Chain, d'.status = d.status → Rel c d → Rel c d') {c₀ : Chain}
    (h : Reaches lagWorld (fun b l => Latest b l ∧ StartsWith Rel b l) ⟨⟨[c₀], 0⟩, []⟩ b) :
    ReadInv Rel b := by
  refine h.invariant ⟨List.pairwise_singleton _ _, fun t ht => absurd ht List.not_mem_nil,
    fun t c newest ht => absurd ht (by simp)⟩ (fun b l c hr hI hok hs => ?_)
  exact hI.step hrel hok.2 (lagStep_of_step hr hok.1 hs)

section Steps
variable {s : Store} {ts : List (Thread sig Outcome)}

/-- Starting a reconcile. -/
theorem LagInv.spawn (h : LagInv ⟨s, ts⟩) : LagInv ⟨s, ts ++ [⟨[], p⟩]⟩ := by
  have hnew : ¬ WroteTerminal [] := by rintro ⟨e, he, -⟩; exact absurd he (by simp)
  -- a thread that has written is one of the old ones
  have hold : ∀ {i : ℕ} {t : Thread sig Outcome}, (ts ++ [⟨[], p⟩])[i]? = some t →
      WroteTerminal t.trace → ts[i]? = some t := by
    intro i t hi hw
    rcases lt_or_ge i ts.length with hlt | hge
    · rwa [List.getElem?_append_left hlt] at hi
    · rw [List.getElem?_append_right hge] at hi
      obtain rfl := List.mem_singleton.mp (List.mem_of_getElem? hi)
      exact absurd hw hnew
  refine ⟨h.stable, ?_, ?_⟩
  · intro t ht hw newest hlast
    obtain ⟨i, hi⟩ := List.getElem?_of_mem ht
    exact h.terminal t (List.mem_of_getElem? (hold hi hw)) hw newest hlast
  · exact fun i j t u hi hj hwt hwu => h.once i j t u (hold hi hwt) (hold hj hwu) hwt hwu

/-- An edit by another writer. -/
theorem LagInv.edit {s' : Store} (h : LagInv ⟨s, ts⟩) (he : edit s s') : LagInv ⟨s', ts⟩ := by
  obtain ⟨newest, c, hlast, hstatus, hrv, rfl⟩ := he
  refine ⟨h.stable.concat hlast (fun _ => by rw [hstatus]), ?_, h.once⟩
  intro t ht hw newest' hlast'
  rw [List.getLast?_concat] at hlast'
  obtain rfl := Option.some.inj hlast'
  rw [hstatus]
  exact h.terminal t ht hw newest hlast

/-- The last thread issues an operation that stores nothing. -/
theorem LagInv.quiet {s' : Store} {p' : Prog sig Outcome} (h : LagInv ⟨s, ts ++ [⟨tr, p⟩]⟩)
    (hs : s'.versions = s.versions) (hw : written e = none) :
    LagInv ⟨s', ts ++ [⟨tr ++ [e], p'⟩]⟩ := by
  have hterm : WroteTerminal (tr ++ [e]) → WroteTerminal tr := by
    intro hwt
    rcases wroteTerminal_snoc hwt with hwt | ⟨c, hc, -⟩
    · exact hwt
    · exact absurd (hw.symm.trans hc) (by simp)
  -- the thread at the same place before the step had written as much
  have hold : ∀ {i : ℕ} {t : Thread sig Outcome}, (ts ++ [⟨tr ++ [e], p'⟩])[i]? = some t →
      WroteTerminal t.trace → ∃ u, (ts ++ [⟨tr, p⟩])[i]? = some u ∧ WroteTerminal u.trace := by
    intro i t hi hwt
    rcases lt_or_ge i ts.length with hlt | hge
    · rw [List.getElem?_append_left hlt] at hi
      exact ⟨t, by rwa [List.getElem?_append_left hlt], hwt⟩
    · rw [List.getElem?_append_right hge] at hi
      have hi₀ : i - ts.length = 0 := by
        have hlt := (List.getElem?_eq_some_iff.mp hi).1
        simpa using hlt
      obtain rfl := List.mem_singleton.mp (List.mem_of_getElem? hi)
      exact ⟨⟨tr, p⟩, by rw [List.getElem?_append_right hge, hi₀]; rfl, hterm hwt⟩
  refine ⟨by rw [hs]; exact h.stable, ?_, ?_⟩
  · intro t ht hwt newest hlast
    rw [hs] at hlast
    obtain ⟨i, hi⟩ := List.getElem?_of_mem ht
    obtain ⟨u, hu, hwu⟩ := hold hi hwt
    exact h.terminal u (List.mem_of_getElem? hu) hwu newest hlast
  · intro i j t u hi hj hwt hwu
    obtain ⟨t', ht', hwt'⟩ := hold hi hwt
    obtain ⟨u', hu', hwu'⟩ := hold hj hwu
    exact h.once i j t' u' ht' hu' hwt' hwu'

/-- A write goes through only on a newest version that is not terminal. -/
theorem ReadInv.nonterminal (h : ReadInv NotTerminal ⟨s, ts ++ [⟨tr, p⟩]⟩)
    (hissued : Issued tr (Op.statusUpdate c)) (hlast : s.versions.getLast? = some newest)
    (hrv : c.resourceVersion = newest.resourceVersion) : newest.status.phase.terminal = false := by
  obtain ⟨hnot, c₀, hbegan, hp | ⟨hp, hread⟩⟩ := hissued
  · exact h.start ⟨tr, p⟩ c₀ newest List.getLast?_concat ⟨hbegan, hnot⟩ hp hlast
  · -- the version read is the newest one, since both have the number the write carries
    have hmem := h.read ⟨tr, p⟩ (List.mem_append_right _ (List.mem_singleton.mpr rfl)) c₀ hbegan.mem
    rcases rel_newest h.numbered hlast hmem with rfl | hlt
    · exact hp
    · omega

/-- The last thread stores a status. -/
theorem LagInv.write {p' : Prog sig Outcome} (h : LagInv ⟨s, ts ++ [⟨tr, p⟩]⟩)
    (hnew : newest.status.phase.terminal = false) (hlast : s.versions.getLast? = some newest) :
    LagInv ⟨{ s with versions := s.versions ++ [newest.store c.status] },
      ts ++ [⟨tr ++ [⟨Op.statusUpdate c, UpdateReply.ok⟩], p'⟩]⟩ := by
  -- no thread had stored a terminal status, and only the last one can have now
  have hnone : ∀ t ∈ ts ++ [⟨tr, p⟩], ¬ WroteTerminal t.trace := by
    intro t ht hwt
    have hterm := h.terminal t ht hwt newest hlast
    rw [hnew] at hterm
    exact absurd hterm (by simp)
  have hlastOnly : ∀ {i : ℕ} {t : Thread sig Outcome},
      (ts ++ [⟨tr ++ [⟨Op.statusUpdate c, UpdateReply.ok⟩], p'⟩])[i]? = some t →
      WroteTerminal t.trace → i = ts.length ∧ c.status.phase.terminal = true := by
    intro i t hi hwt
    rcases lt_or_ge i ts.length with hlt | hge
    · rw [List.getElem?_append_left hlt] at hi
      exact absurd hwt (hnone t (List.mem_append_left _ (List.mem_of_getElem? hi)))
    · rw [List.getElem?_append_right hge] at hi
      have hi₀ : i - ts.length < 1 := (List.getElem?_eq_some_iff.mp hi).1
      obtain rfl := List.mem_singleton.mp (List.mem_of_getElem? hi)
      rcases wroteTerminal_snoc hwt with hwt | ⟨d, hd, hterm⟩
      · exact absurd hwt (hnone _ (List.mem_append_right _ (List.mem_singleton.mpr rfl)))
      · obtain rfl := Option.some.inj hd
        exact ⟨by omega, hterm⟩
  refine ⟨h.stable.concat hlast (fun hterm => absurd (hnew.symm.trans hterm) (by simp)), ?_, ?_⟩
  · intro t ht hwt newest' hlast'
    rw [List.getLast?_concat] at hlast'
    obtain rfl := Option.some.inj hlast'
    obtain ⟨i, hi⟩ := List.getElem?_of_mem ht
    exact (hlastOnly hi hwt).2
  · intro i j t u hi hj hwt hwu
    rw [(hlastOnly hi hwt).1, (hlastOnly hj hwu).1]

end Steps

/-! ### Whole runs -/

/-- The side condition of the runs in which the laws hold. -/
def Fresh (b : Pool sig Outcome Store) (l : Label sig Outcome) : Prop :=
  Latest b l ∧ FreshStart b l

/-- A reconcile that deletes has stored a terminal status. -/
theorem wroteTerminal_of_deletes {t : Thread sig Outcome}
    (hu : Unfolds reconcile t.trace t.prog) (hd : Deletes t.trace) : WroteTerminal t.trace := by
  obtain ⟨e, he, hdel⟩ := hd
  obtain ⟨tr₁, tr₂, htr⟩ := List.append_of_mem he
  have hissued := pre_of_mem_unfolds reconcile_issued hu (fun _ _ => trivial) htr
  obtain ⟨op, r⟩ := e
  cases op with
  | deletePod pod =>
    rw [htr]
    have hterm : WroteTerminal tr₁ := hissued
    exact hterm.append _
  | _ => exact absurd hdel (by simp [deletion])

/-- The step lemma. -/
theorem LagInv.step (hread : ReadInv NotTerminal b) (h : LagInv b) (hs : LagStep b l b') :
    LagInv b' := by
  cases hs with
  | spawn => exact h.spawn
  | edit he => exact h.edit he
  | quiet hversions hw => exact h.quiet hversions hw
  | write hspec hlast hrv =>
    exact h.write (hread.nonterminal (issued_of_specified _ _ hspec) hlast hrv) hlast

theorem LagInv.init (c₀ : Chain) : LagInv ⟨⟨[c₀], 0⟩, []⟩ := by
  refine ⟨List.pairwise_singleton _ _, ?_, ?_⟩
  · exact fun t ht => absurd ht (by simp)
  · exact fun i j t u hi => absurd hi (by simp)

/-- A read that returns the newest version. -/
def Store.readNewest (s : Store) : GetReply × Store :=
  match s.versions[s.versions.length - 1]? with
  | none => (.failed "", s)
  | some c =>
    if s.lastRead ≤ s.versions.length - 1 then
      (.found c, { s with lastRead := s.versions.length - 1 })
    else (.failed "", s)

/-- A write that does not fail by itself. -/
def Store.write (s : Store) (chain : Chain) : UpdateReply × Store :=
  match s.versions.getLast? with
  | none => (.failed "", s)
  | some newest =>
    if chain.resourceVersion = newest.resourceVersion then
      (.ok, { s with versions := s.versions ++ [newest.store chain.status] })
    else (.conflict "the object has been modified", s)

theorem Store.readNewest_act (s : Store) : lagAct Op.get s s.readNewest.1 s.readNewest.2 := by
  unfold Store.readNewest
  split
  · exact Or.inr ⟨_, rfl, rfl⟩
  · rename_i c hc
    split_ifs with hread
    · exact Or.inl ⟨_, c, hread, hc, rfl, rfl⟩
    · exact Or.inr ⟨_, rfl, rfl⟩

theorem Store.write_act (s : Store) (chain : Chain) :
    lagAct (Op.statusUpdate chain) s (s.write chain).1 (s.write chain).2 := by
  unfold Store.write
  split
  · exact Or.inr (Or.inr ⟨_, rfl, rfl⟩)
  · rename_i newest hlast
    split_ifs with hrv
    · exact Or.inl ⟨newest, hlast, hrv, rfl, rfl⟩
    · exact Or.inr (Or.inl ⟨newest, hlast, hrv, ⟨_, rfl⟩, rfl⟩)

theorem Store.readNewest_newest {s : Store} (h : s.readNewest.1 = GetReply.found c)
    (hlast : s.versions.getLast? = some newest) : c = newest := by
  unfold Store.readNewest at h
  rw [List.getLast?_eq_getElem?] at hlast
  rw [hlast] at h
  dsimp only at h
  split_ifs at h with hread
  exact (GetReply.found.inj h).symm

/-- A cluster behind a cache that is up to date; time passes with every stored version. -/
def Cluster.lagAnswer (cl : Cluster) : (op : sig.Op) → Store → sig.Reply op × Store
  | .get, s => s.readNewest
  | .statusUpdate chain, s => s.write chain
  | .now, s => (((cl.tick * s.versions.length : ℕ) : ℤ), s)
  | .listPods _ _, s => (.ok cl.pods, s)
  | .createCheckpoint _ _ container _, s => (cl.checkpoint container, s)
  | .helperLogs _ _ path, s => (cl.logs path, s)
  | .deletePod _, s => (.ok, s)

theorem Cluster.lagAnswer_act (cl : Cluster) (op : sig.Op) (s : Store) :
    lagAct op s (cl.lagAnswer op s).1 (cl.lagAnswer op s).2 := by
  cases op with
  | get => exact s.readNewest_act
  | statusUpdate chain => exact s.write_act chain
  | _ => rfl

/-- The store after one more reconcile that reads the newest version. -/
def Cluster.lagReconcile (cl : Cluster) (s : Store) : Store :=
  (exec cl.lagAnswer Forensic.reconcile s).2

/-- The thread it leaves. -/
def Cluster.lagThread (cl : Cluster) (s : Store) : Thread sig Outcome :=
  ⟨trace cl.lagAnswer Forensic.reconcile s, .pure (exec cl.lagAnswer Forensic.reconcile s).1⟩

/-- Reconciles that read the newest version, one after the other, start with any relation that a
    running version has to itself. -/
theorem Cluster.reaches_newest (Rel : Chain → Chain → Prop)
    (hrel : ∀ c : Chain, c.status.phase = .running → Rel c c) (cl : Cluster)
    {a : Pool sig Outcome Store} {s : Store} {ts : List (Thread sig Outcome)}
    (h : Reaches lagWorld (fun b l => Latest b l ∧ StartsWith Rel b l) a ⟨s, ts⟩) :
    Reaches lagWorld (fun b l => Latest b l ∧ StartsWith Rel b l) a
      ⟨cl.lagReconcile s, ts ++ [cl.lagThread s]⟩ := by
  have hlatest : ∀ (s : Store) (t : Thread sig Outcome) (e : Event sig),
      Latest ⟨s, ts ++ [t]⟩ (.act ts.length e) := by
    intro s t e
    show ts.length + 1 = (ts ++ [t]).length
    simp
  refine Reaches.runNew (Runs.of_exec cl.lagAnswer_act Forensic.reconcile s) rfl ⟨trivial, ?_⟩
    ⟨hlatest _ _ _, ?_⟩ (fun s q tr' e' => ⟨hlatest _ _ _, ?_⟩) h
  · intro i c p newest hl
    exact absurd hl (by simp)
  · intro i c p newest hl _ hp hlast
    have hread : s.readNewest.1 = GetReply.found c := by
      injection hl with _ he
      injection he
    rw [← Store.readNewest_newest hread hlast]
    exact hrel c hp
  · intro i c p newest hl ht
    -- the thread has read already
    injection hl with hi
    subst hi
    exact absurd ht (by simp)

/-- Delete the pods after so many snapshots. -/
def deletingChain (limit : ℤ) : Chain :=
  evidenceChain { interval := none, maxSnapshots := some limit, maxDuration := none } "" .deletePod

/-- One pod. -/
def deletingCluster : Cluster where
  tick := 60000000000
  pods := [{ name := "web", nodeName := "n1", running := true, containers := ["app"] }]
  checkpoint container := .ok ("/var/lib/kubelet/checkpoints/" ++ container ++ ".tar")
  logs _ := .error "no helper pod"

/-- The store after `n` reconciles. -/
def deletingStore (limit : ℤ) : ℕ → Store
  | 0 => ⟨[deletingChain limit], 0⟩
  | n + 1 => deletingCluster.lagReconcile (deletingStore limit n)

/-- The threads they leave. -/
def deletingThreads (limit : ℤ) (n : ℕ) : List (Thread sig Outcome) :=
  (List.range n).map (fun i => deletingCluster.lagThread (deletingStore limit i))

/-- Reconciles one after the other: two phase changes, and then a round each. -/
theorem deletingRun (Rel : Chain → Chain → Prop)
    (hrel : ∀ c : Chain, c.status.phase = .running → Rel c c) (limit : ℤ) (n : ℕ) :
    Reaches lagWorld (fun b l => Latest b l ∧ StartsWith Rel b l)
      ⟨⟨[deletingChain limit], 0⟩, []⟩ ⟨deletingStore limit n, deletingThreads limit n⟩ := by
  induction n with
  | zero => exact .refl
  | succ n ih =>
    rw [deletingThreads, List.range_succ, List.map_append]
    exact deletingCluster.reaches_newest Rel hrel ih

/-- The running version, which the cache still returns after the chain was completed. -/
def staleChain : Chain := deletingStore 1 2 |>.versions.getLast?.getD (deletingChain 1)

/-- The store when it has been returned. -/
def staleRead : Store := { deletingStore 1 3 with lastRead := 2 }

/-- The store after the reconcile that began with it. -/
def staleStore : Store :=
  (exec deletingCluster.lagAnswer (reconcilePhase staleChain) staleRead).2

/-- The thread of that reconcile. -/
def staleThread : Thread sig Outcome :=
  ⟨⟨Op.get, GetReply.found staleChain⟩ ::
      trace deletingCluster.lagAnswer (reconcilePhase staleChain) staleRead,
    .pure (exec deletingCluster.lagAnswer (reconcilePhase staleChain) staleRead).1⟩

/-- The cache may answer so. -/
theorem staleRun : Reaches lagWorld Latest ⟨⟨[deletingChain 1], 0⟩, []⟩
    ⟨staleStore, deletingThreads 1 3 ++ [staleThread]⟩ := by
  have hrun := (deletingRun (fun _ _ => True) (fun _ _ => trivial) 1 3).mono (fun b l hok => hok.1)
  have hread : lagAct Op.get (deletingStore 1 3) (GetReply.found staleChain) staleRead :=
    Or.inl ⟨2, staleChain, by decide, rfl, rfl, rfl⟩
  have hagain : Runs lagAct reconcile (deletingStore 1 3) _ _ _ :=
    Runs.call hread (Runs.of_exec deletingCluster.lagAnswer_act (reconcilePhase staleChain) _)
  exact Reaches.runNew (W := lagWorld) hagain rfl trivial rfl (fun s q tr' e' => rfl) hrun

end CheckpointRestore.Forensic
