import CheckpointRestore.Schedule.Lifecycle

namespace CheckpointRestore.Schedule.Lifecycle

open Interaction
open Forensic (UpdateReply Outcome defaultRetrySteps second)

/-!
# The cadence of the periodic checkpoints

A round of periodic checkpoints is due an interval after the stored anchor: the start of the last
round, or the creation of the object.  The anchor loses its fraction of a second when it is stored,
a round takes as long as it takes, and reconciles arrive whenever something changes.

* `Timed`, `timedAct` — the stored object, the clock, the starts of the recorded rounds and the
  calls of all rounds, with other writers in between;
* `Anchored` — the anchor is not ahead of the clock, and less than a second behind every round;
  every reconcile keeps it;
* `Round` — a round by its calls: one for each container that the schedule selects;
* `interval_cadence` — the next reconcile is asked for within an interval, rounds start when they
  are due, and recorded rounds are more than an interval less a second apart.

The creation time is written by the clock of the API server.  `requeue_exceeds_interval`: while it
is ahead of the operator's clock, the next reconcile is asked for later than an interval from now.
-/

/-! ### The stored object and the clock -/

/-- The stored object, the clock in nanoseconds, the start of every round whose status write took
    effect, and what the goroutines of all rounds did. -/
structure Timed where
  object : Object
  clock : ℤ
  rounds : List ℤ
  calls : List (Event callSig)

/-- The serialization of `metav1.Time` has whole seconds. -/
def truncate (t : ℤ) : ℤ := t / second * second

/-- When the last round started, as far as the object knows; its creation before the first. -/
def Object.anchor (o : Object) : ℤ := o.status.lastCheckpointTime.getD o.creationTimestamp

/-- The part of `o` that a status update stores; times have whole seconds. -/
def storeStatus (stored o : Object) : Object :=
  { stored with status := { o.status with
      lastCheckpointTime := o.status.lastCheckpointTime.map truncate } }

/-- The status of `o` is stored. -/
def Timed.store (s : Timed) (o : Object) (version : ℕ) : Timed :=
  { s with
    object := { storeStatus s.object o with resourceVersion := version }
    rounds := s.rounds ++ o.status.lastCheckpointTime.toList }

/-- Time passes, and others write the object: what they leave alone is the interval, the anchor
    and the finalizer. -/
structure Passes (s s' : Timed) : Prop where
  clock : s.clock ≤ s'.clock
  rounds : s'.rounds = s.rounds
  calls : s'.calls = s.calls
  interval : s'.object.spec.triggers.interval = s.object.spec.triggers.interval
  created : s'.object.creationTimestamp = s.object.creationTimestamp
  last : s'.object.status.lastCheckpointTime = s.object.status.lastCheckpointTime
  finalizers : checkpointScheduleFinalizer ∈ s.object.finalizers →
    checkpointScheduleFinalizer ∈ s'.object.finalizers
  deletion : s'.object.deletionTimestamp = s.object.deletionTimestamp

/-- What the operations of the key's reconciles do.  Reads are fresh and may fail; a status write
    succeeds, is refused, or fails with or without effect; the clock does not go back; the
    goroutines of a round take their steps in any order, and their calls may end in any way. -/
def answers : (op : sig.Op) → Timed → sig.Reply op → Timed → Prop
  | .get _, s, r, s' => s' = s ∧ match (r : GetReply) with
    | .found o => o = s.object
    | .notFound => False
    | .failed _ => True
  | .statusUpdate _ o, s, r, s' =>
    (∀ msg, (r : UpdateReply) ≠ .conflict msg) ∧
      o.resourceVersion = s.object.resourceVersion ∧ (∃ version, s' = s.store o version) ∨
    (r : UpdateReply) ≠ .ok ∧ s' = s
  | .now, s, t, s' => s.clock ≤ (t : ℤ) ∧ s' = { s with clock := t }
  | .fanOut goroutines, s, created, s' =>
    ∃ s₁ tr, Joins (callAct Passes) goroutines [] (0, s) tr ((created : Int32), s₁) ∧
      s' = { s₁ with calls := s₁.calls ++ tr }
  | _, s, _, s' => s' = s

/-- The operations, with other writers before each. -/
def timedAct (op : sig.Op) (s : Timed) (r : sig.Reply op) (s' : Timed) : Prop :=
  ∃ s₁, Passes s s₁ ∧ answers op s₁ r s'

/-- Reconciles of the key, one after the other. -/
def reconciles (key : String) : ℕ → Prog sig (List Outcome)
  | 0 => return []
  | n + 1 => do
    let outcome ← reconcile key
    let rest ← reconciles key n
    return outcome :: rest

/-! ### The anchor -/

/-- The anchor against the clock and the recorded rounds. -/
structure Anchored (interval : ℤ) (s : Timed) : Prop where
  scheduled : s.object.spec.triggers.interval = some interval
  finalizer : checkpointScheduleFinalizer ∈ s.object.finalizers
  deletion : s.object.deletionTimestamp = none
  past : s.object.anchor ≤ s.clock
  close : ∀ t ∈ s.rounds, t - second < s.object.anchor
  apart : s.rounds.Pairwise (fun t t' => interval - second < t' - t)

/-- A round that starts at `t` is due. -/
structure Due (interval t : ℤ) (s : Timed) : Prop where
  anchor : s.object.anchor + interval ≤ t
  past : t ≤ s.clock

theorem truncate_le (t : ℤ) : truncate t ≤ t := by
  unfold truncate second
  omega

theorem lt_truncate (t : ℤ) : t - second < truncate t := by
  unfold truncate second
  omega

variable {t : ℤ} {created : Int32}

section Steps
variable {interval : ℤ} {s s' : Timed}

theorem Passes.anchor (h : Passes s s') : s'.object.anchor = s.object.anchor := by
  unfold Object.anchor
  rw [h.last, h.created]

theorem Anchored.passes (h : Anchored interval s) (hpass : Passes s s') :
    Anchored interval s' where
  scheduled := by rw [hpass.interval, h.scheduled]
  finalizer := hpass.finalizers h.finalizer
  deletion := by rw [hpass.deletion, h.deletion]
  past := by
    rw [hpass.anchor]
    exact h.past.trans hpass.clock
  close := by
    rw [hpass.rounds, hpass.anchor]
    exact h.close
  apart := by
    rw [hpass.rounds]
    exact h.apart

/-- A due round is recorded: its truncated start is the new anchor. -/
theorem Anchored.store (h : Anchored interval s) (hinterval : second ≤ interval)
    (hdue : Due interval t s) {o : Object} (ho : o.status.lastCheckpointTime = some t)
    (version : ℕ) : Anchored interval (s.store o version) := by
  have hanchor : (s.store o version).object.anchor = truncate t := by
    simp [Timed.store, storeStatus, Object.anchor, ho]
  have hrounds : (s.store o version).rounds = s.rounds ++ [t] := by
    simp [Timed.store, ho]
  have hlt := lt_truncate t
  have hdueAnchor := hdue.anchor
  refine ⟨h.scheduled, h.finalizer, h.deletion, ?_, ?_, ?_⟩
  · rw [hanchor]
    exact (truncate_le t).trans hdue.past
  · rw [hanchor, hrounds]
    intro t' ht'
    rcases List.mem_append.mp ht' with ht' | ht'
    · -- the old anchor is at least an interval, so at least a second, before this round
      have := h.close t' ht'
      omega
    · rw [List.mem_singleton.mp ht']
      exact hlt
  · rw [hrounds, List.pairwise_append]
    refine ⟨h.apart, List.pairwise_singleton _ t, fun t' ht' u hu => ?_⟩
    have := h.close t' ht'
    rw [List.mem_singleton.mp hu]
    omega

/-- The operations other than status writes. -/
def Unwritten : sig.Op → Prop
  | .statusUpdate _ _ => False
  | _ => True

/-- The anchor and the recorded rounds are the same, and the clock has not gone back. -/
structure Later (s s' : Timed) : Prop where
  anchor : s'.object.anchor = s.object.anchor
  rounds : s'.rounds = s.rounds
  clock : s.clock ≤ s'.clock

theorem Passes.later (h : Passes s s') : Later s s' := ⟨h.anchor, h.rounds, h.clock⟩

theorem Later.trans {s'' : Timed} (h : Later s s') (h' : Later s' s'') : Later s s'' :=
  ⟨h'.anchor.trans h.anchor, h'.rounds.trans h.rounds, h.clock.trans h'.clock⟩

theorem Due.later (h : Due interval t s) (hlater : Later s s') : Due interval t s' where
  anchor := by
    rw [hlater.anchor]
    exact h.anchor
  past := h.past.trans hlater.clock

theorem Anchored.joins (h : Anchored interval s) {goroutines : List (Prog callSig Unit)}
    {tr : List (Event callSig)}
    (hjoins : Joins (callAct Passes) goroutines [] (0, s) tr (created, s')) :
    Anchored interval s' ∧ Later s s' :=
  joins_keeps (I := fun x => Anchored interval x ∧ Later s x) (fun _ _ hx hpass =>
    ⟨hx.1.passes hpass, hx.2.trans hpass.later⟩) hjoins ⟨h, rfl, rfl, le_refl _⟩

/-- Only status writes touch the anchor. -/
theorem Anchored.act (h : Anchored interval s) {op : sig.Op} {r : sig.Reply op}
    (hop : Unwritten op) (hact : timedAct op s r s') : Anchored interval s' ∧ Later s s' := by
  obtain ⟨s₀, hpass, hanswers⟩ := hact
  have h₀ := h.passes hpass
  have hlater₀ := hpass.later
  cases op with
  | get k =>
    rw [hanswers.1]
    exact ⟨h₀, hlater₀⟩
  | statusUpdate k o => exact hop.elim
  | now =>
    rw [hanswers.2]
    exact ⟨{ h₀ with past := h₀.past.trans hanswers.1 },
      hlater₀.trans ⟨rfl, rfl, hanswers.1⟩⟩
  | fanOut goroutines =>
    obtain ⟨s₁, tr, hjoins, rfl⟩ := hanswers
    obtain ⟨h₁, hlater₁⟩ := h₀.joins hjoins
    have hlater := hlater₀.trans hlater₁
    exact ⟨{ h₁ with }, ⟨hlater.anchor, hlater.rounds, hlater.clock⟩⟩
  | _ =>
    rw [show s' = s₀ from hanswers]
    exact ⟨h₀, hlater₀⟩

/-- A program without status writes leaves the anchor alone. -/
theorem Anchored.runs (h : Anchored interval s) {α : Type} {p : Prog sig α} {a : α}
    {tr : List (Event sig)} (hp : Issues Unwritten p) (hrun : Runs timedAct p s tr a s') :
    Anchored interval s' ∧ Later s s' := by
  refine Runs.keeps (I := fun s₁ => Anchored interval s₁ ∧ Later s s₁)
    (fun op s₁ r s₂ hop hs₁ hact => ?_) hp hrun ⟨h, rfl, rfl, le_refl _⟩
  obtain ⟨h₂, hlater⟩ := hs₁.1.act hop hact
  exact ⟨h₂, hs₁.2.trans hlater⟩

/-- The operations that start no goroutines. -/
def Unforked : sig.Op → Prop
  | .fanOut _ => False
  | _ => True

/-- Only goroutines make calls. -/
theorem calls_of_runs {α : Type} {p : Prog sig α} {a : α} {tr : List (Event sig)}
    (hp : Issues Unforked p) (hrun : Runs timedAct p s tr a s') : s'.calls = s.calls := by
  refine Runs.keeps (I := fun s₁ => s₁.calls = s.calls) (fun op s₁ r s₂ hop hs₁ hact => ?_) hp hrun
    rfl
  obtain ⟨s₀, hpass, hanswers⟩ := hact
  rw [← hs₁, ← hpass.calls]
  cases op with
  | get k => rw [hanswers.1]
  | statusUpdate k o =>
    rcases hanswers with ⟨-, -, version, rfl⟩ | ⟨-, rfl⟩
    · rfl
    · rfl
  | now => rw [hanswers.2]
  | fanOut goroutines => exact hop.elim
  | _ => rw [show s₂ = s₀ from hanswers]

end Steps

/-! ### One reconcile -/

/-- A round of the schedule was run between two states: the pods were listed, and
    `createCheckpoint` was called once for each container that the schedule selects in them. -/
def Round (spec : Spec) (tr : List (Event sig)) (s s' : Timed) : Prop :=
  ∃ (reply : Except String (List Pod)) (calls : List (Event callSig)),
    ⟨.listPods spec.ns spec.selector, reply⟩ ∈ tr ∧ s'.calls = s.calls ++ calls ∧
      (called calls).Perm (selected spec.containerNames (listed reply))

/-- No round was run: no pods were listed, and nothing was called. -/
structure Quiet (tr : List (Event sig)) (s s' : Timed) : Prop where
  unlisted : ∀ ns selector r, (⟨.listPods ns selector, r⟩ : Event sig) ∉ tr
  calls : s'.calls = s.calls

/-- The clock was read. -/
def Reads (t : ℤ) (tr : List (Event sig)) : Prop := (⟨.now, t⟩ : Event sig) ∈ tr

/-- The schedule that a reconcile has read, if it has. -/
def read (tr : List (Event sig)) : Option Spec :=
  match tr with
  | ⟨.get _, r⟩ :: _ => match (r : GetReply) with
    | .found schedule => some schedule.spec
    | _ => none
  | _ => none

/-- What a reconcile that reads the clock at `t` does about the interval: when the next one is
    asked for, when a round is run, and which round is recorded. -/
structure Punctual (interval : ℤ) (spec : Spec) (t : ℤ) (s : Timed) (tr : List (Event sig))
    (outcome : Outcome) (s' : Timed) : Prop where
  reading : ∀ t', Reads t' tr ↔ t' = t
  requeue : (∃ msg, outcome = .error msg) ∨
    ∃ d, outcome = .requeueAfter d ∧ 0 < d ∧ d ≤ interval
  due : s.object.anchor + interval ≤ t → Round spec tr s s'
  early : t < s.object.anchor + interval → Quiet tr s s'
  recorded : s.object.anchor + interval ≤ t → (∀ msg, outcome ≠ .error msg) →
    s'.rounds = s.rounds ++ [t]
  only : s'.rounds = s.rounds ∨
    s.object.anchor + interval ≤ t ∧ s'.rounds = s.rounds ++ [t]

variable {s₁ : Timed} {spec : Spec} {outcome : Outcome}

section Reconcile
variable {interval : ℤ} {s s' : Timed} {key : String} {tr : List (Event sig)}

/-- Starting the triggers lists no pods and reads no clock. -/
theorem issues_ensureTriggers {P : sig.Op → Prop} (hrunning : P (.running key))
    (hstart : ∀ t, P (.startTrigger t)) (hrecord : ∀ triggers, P (.record key triggers))
    (spec : Spec) : Issues P (ensureTriggers key spec) := by
  have hif : ∀ (c : Bool) (t : Trigger) (triggers : List ℕ), Issues P (startIf c t triggers) := by
    intro c t triggers
    unfold startIf
    split
    · exact Issues.bind (Issues.perform (hstart t)) (fun _ => Issues.pure _)
    · exact Issues.pure _
  unfold ensureTriggers startTriggers
  refine Issues.bind (Issues.perform hrunning) ?_
  rintro (- | -)
  · refine Issues.bind ?_ (fun triggers => Issues.perform (hrecord triggers))
    exact Issues.bind (hif _ _ _) (fun _ => Issues.bind (hif _ _ _) (fun _ => hif _ _ _))
  · exact Issues.pure _

/-- What a status write at the end of a round does to the recorded rounds. -/
structure Records (t : ℤ) (failed : Prop) (s s' : Timed) : Prop where
  done : ¬ failed → s'.rounds = s.rounds ++ [t]
  either : s'.rounds = s.rounds ∨ s'.rounds = s.rounds ++ [t]

theorem Records.later {failed : Prop} (h : Records t failed s₁ s') (hlater : Later s s₁) :
    Records t failed s s' := by
  obtain ⟨hdone, heither⟩ := h
  rw [hlater.rounds] at hdone heither
  exact ⟨hdone, heither⟩

/-- The attempts to record a due round: one of them takes effect at most. -/
theorem runs_recordRun (hinterval : second ≤ interval) {attempts : ℕ} (hattempts : attempts ≠ 0)
    {r : Option String} (hrun : Runs timedAct (recordRun key t created attempts) s tr r s')
    (h : Anchored interval s) (hdue : Due interval t s) :
    Anchored interval s' ∧ Records t (r ≠ none) s s' := by
  induction attempts generalizing s tr with
  | zero => exact absurd rfl hattempts
  | succ attempts ih =>
    unfold recordRun at hrun
    -- the closure of `RetryOnConflict` reads the object anew before every write
    obtain ⟨reply, tr, s₁, rfl, ⟨s₀, hpass, rfl, -⟩, hrun⟩ := hrun.of_call
    have h₁ := h.passes hpass
    have hlater := hpass.later
    cases reply with
    | notFound =>
      obtain ⟨-, rfl, rfl⟩ := hrun.of_pure
      exact ⟨h₁, by simp, .inl hlater.rounds⟩
    | failed e =>
      obtain ⟨-, rfl, rfl⟩ := hrun.of_pure
      exact ⟨h₁, by simp, .inl hlater.rounds⟩
    | found latest =>
      obtain ⟨reply, tr, s₂, rfl, ⟨s₃, hpass, hupdate⟩, hrun⟩ := hrun.of_call
      have h₃ := h₁.passes hpass
      replace hlater := hlater.trans hpass.later
      have hdue₃ := hdue.later hlater
      cases reply with
      | ok =>
        obtain ⟨-, rfl, rfl⟩ := hrun.of_pure
        rcases hupdate with ⟨-, -, version, rfl⟩ | ⟨hfailed, -⟩
        · have hrounds : (s₃.store (recordedRun latest t created) version).rounds =
              s.rounds ++ [t] := by rw [← hlater.rounds]; rfl
          exact ⟨h₃.store hinterval hdue₃ rfl version, fun _ => hrounds, .inr hrounds⟩
        · exact absurd rfl hfailed
      | failed e =>
        -- the write may have taken effect although it is reported as failed
        obtain ⟨-, rfl, rfl⟩ := hrun.of_pure
        rcases hupdate with ⟨-, -, version, rfl⟩ | ⟨-, rfl⟩
        · exact ⟨h₃.store hinterval hdue₃ rfl version, by simp,
            .inr (by rw [← hlater.rounds]; rfl)⟩
        · exact ⟨h₃, by simp, .inl hlater.rounds⟩
      | conflict e =>
        -- a refused write has no effect, so the round is still due
        have hsame : s₂ = s₃ := by
          rcases hupdate with ⟨hreply, -⟩ | ⟨-, hsame⟩
          · exact absurd rfl (hreply e)
          · exact hsame
        subst hsame
        change Runs timedAct (if attempts = 0 then _ else _) _ _ _ _ at hrun
        split at hrun
        · obtain ⟨-, rfl, rfl⟩ := hrun.of_pure
          exact ⟨h₃, by simp, .inl hlater.rounds⟩
        case isFalse hleft =>
          obtain ⟨h', hrecords⟩ := ih hleft hrun h₃ hdue₃
          exact ⟨h', hrecords.later hlater⟩

/-- A round makes its calls. -/
theorem round_of_runs (hrun : Runs timedAct (runScheduledCheckpoints spec) s tr created s') :
    Round spec tr s s' := by
  obtain ⟨reply, s₁, ⟨s₀, hpass, rfl⟩, hround⟩ := of_runScheduledCheckpoints hrun
  rcases hround with ⟨⟨e, rfl⟩, rfl, -, rfl⟩ | ⟨rfl, s₂, hpass₂, s₃, calls, hjoins, rfl⟩
  · -- without a list of pods nothing is called
    exact ⟨_, [], List.mem_singleton_self _, by rw [hpass.calls, List.append_nil], .refl _⟩
  · refine ⟨reply, calls, List.mem_cons_self, ?_, ?_⟩
    · have hcalls : s₃.calls = s₂.calls := joins_keeps (I := fun x => x.calls = s₂.calls)
        (fun _ _ hx hpass => hpass.calls.trans hx) hjoins rfl
      show s₃.calls ++ calls = _
      rw [hcalls, hpass₂.calls, hpass.calls]
    · rw [← targets_eq]
      exact (joins_accounts hjoins).1

theorem Round.extend {s₂ : Timed} {tr₁ : List (Event sig)} (h : Round spec tr s₁ s₂)
    (hsub : tr ⊆ tr₁) (hbefore : s₁.calls = s.calls) (hafter : s'.calls = s₂.calls) :
    Round spec tr₁ s s' := by
  obtain ⟨reply, calls, hlisted, hcalls, hcalled⟩ := h
  exact ⟨reply, calls, hsub hlisted, by rw [hafter, hcalls, hbefore], hcalled⟩

/-- The operations that neither write the status, nor read the clock, nor have a part in a
    round. -/
def Aside : sig.Op → Prop
  | .statusUpdate _ _ => False
  | .now => False
  | .listPods _ _ => False
  | .fanOut _ => False
  | _ => True

/-- The operations other than readings of the clock. -/
def Unread : sig.Op → Prop
  | .now => False
  | _ => True

/-- The only reading of the clock is the first one. -/
theorem reads_iff {rest : List (Event sig)} (hrest : ∀ e ∈ rest, Unread e.op) (t' : ℤ) :
    Reads t' (⟨.now, t⟩ :: rest) ↔ t' = t := by
  constructor
  · intro h
    rcases List.mem_cons.mp h with heq | hmem
    · cases heq
      rfl
    · exact (hrest _ hmem).elim
  · rintro rfl
    exact List.mem_cons_self

/-- The program after the object has been read. -/
theorem runs_reconcileInterval (hinterval : second ≤ interval) {schedule : Object}
    (hrun : Runs timedAct (reconcileInterval key schedule) s tr outcome s')
    (h : Anchored interval s) (hscheduled : schedule.spec.triggers.interval = some interval)
    (hanchor : schedule.anchor = s.object.anchor) :
    Anchored interval s' ∧ ∃ t, Punctual interval schedule.spec t s tr outcome s' := by
  unfold reconcileInterval at hrun
  rw [hscheduled] at hrun
  obtain ⟨_, tr, t, s₁, rfl, hnow, hrun⟩ := hrun.of_bind
  have hissues : Issues Unwritten now := Issues.perform trivial
  obtain ⟨h₁, hlater₁⟩ := h.runs hissues hnow
  have hcalls₁ : s₁.calls = s.calls := calls_of_runs (p := now) (Issues.perform trivial) hnow
  obtain ⟨rfl, s₀, hpass, hclock, rfl⟩ := hnow.of_perform
  -- an anchor that is not ahead of the clock, which keeps `RequeueAfter` within the interval
  have hpast : s.object.anchor ≤ t := hlater₁.anchor ▸ h₁.past
  have hpositive : 0 < second := by decide
  have hlast : schedule.status.lastCheckpointTime.getD schedule.creationTimestamp =
      s.object.anchor := hanchor
  simp only [hlast] at hrun
  split at hrun
  case isTrue hearly =>
    -- not due: no round, and what is left of the interval is positive
    obtain ⟨rfl, rfl, rfl⟩ := hrun.of_pure
    refine ⟨h₁, t, reads_iff (by simp), .inr ⟨_, rfl, by omega, by omega⟩, fun hdue => by omega,
      fun _ => ⟨fun ns selector r he => ?_, hcalls₁⟩, fun hdue => by omega, .inl hlater₁.rounds⟩
    cases List.mem_singleton.mp he
  case isFalse hlate =>
    obtain ⟨tr₁, _, created, s₂, rfl, hround, hrun⟩ := hrun.of_bind
    obtain ⟨tr₂, _, r, s₃, rfl, hrecord, hrun⟩ := hrun.of_bind
    -- `t` is the only reading, so it is the start of the round
    have hunread : ∀ e ∈ tr₁ ++ tr₂, Unread e.op := by
      intro e he
      rcases List.mem_append.mp he with he | he
      · exact (issues_runScheduledCheckpoints (P := Unread) (fun _ _ => trivial)
          (fun _ => trivial) _).of_runs hround e he
      · exact (issues_recordRun (P := Unread) trivial (fun _ => trivial) _ _ _).of_runs hrecord e he
    obtain ⟨h₂, hlater₂⟩ := h₁.runs (issues_runScheduledCheckpoints (fun _ _ => trivial)
      (fun _ => trivial) _) hround
    -- the round takes any time, and is still due when it is recorded, for nobody else moves the
    -- anchor
    have hdue : Due interval t s₂ := Due.later ⟨by rw [hlater₁.anchor]; omega, le_refl t⟩ hlater₂
    obtain ⟨h₃, hrecords⟩ := runs_recordRun hinterval (by decide) hrecord h₂ hdue
    replace hrecords := hrecords.later (hlater₁.trans hlater₂)
    have hcalls₃ : s₃.calls = s₂.calls :=
      calls_of_runs (issues_recordRun trivial (fun _ => trivial) _ _ _) hrecord
    have hrounds : Round schedule.spec (⟨Op.now, t⟩ :: (tr₁ ++ tr₂)) s s₃ :=
      (round_of_runs hround).extend (fun e he => by simp [he]) hcalls₁ hcalls₃
    -- both exits below have run the round; they differ in the outcome only
    have hpunctual : ∀ outcome : Outcome, ((∃ msg, outcome = .error msg) ∨
        ∃ d, outcome = .requeueAfter d ∧ 0 < d ∧ d ≤ interval) →
        ((∀ msg, outcome ≠ .error msg) → r = none) →
        Punctual interval schedule.spec t s (⟨Op.now, t⟩ :: (tr₁ ++ tr₂)) outcome s₃ := by
      refine fun outcome hrequeue hr => ⟨reads_iff hunread, hrequeue, fun _ => hrounds,
        fun hearly => by omega, fun _ hok => ?_, ?_⟩
      · exact hrecords.done (not_not_intro (hr hok))
      · exact hrecords.either.imp_right (fun hrounds => ⟨by omega, hrounds⟩)
    cases r with
    | some e =>
      obtain ⟨rfl, rfl, rfl⟩ := hrun.of_pure
      rw [List.append_nil]
      exact ⟨h₃, t, hpunctual _ (.inl ⟨e, rfl⟩) (fun hok => absurd rfl (hok e))⟩
    | none =>
      obtain ⟨rfl, rfl, rfl⟩ := hrun.of_pure
      rw [List.append_nil]
      exact ⟨h₃, t, hpunctual _ (.inr ⟨interval, rfl, by omega, le_refl _⟩) (fun _ => rfl)⟩

/-- What happens before the clock is read does not matter. -/
theorem Punctual.after {before : List (Event sig)} (h : Punctual interval spec t s₁ tr outcome s')
    (hlater : Later s s₁) (hcalls : s₁.calls = s.calls) (hbefore : ∀ e ∈ before, Aside e.op) :
    Punctual interval spec t s (before ++ tr) outcome s' := by
  obtain ⟨hreading, hrequeue, hdue, hearly, hrecorded, honly⟩ := h
  rw [hlater.anchor] at hdue hearly hrecorded honly
  rw [hlater.rounds] at hrecorded honly
  refine ⟨fun t' => ?_, hrequeue, fun hd => ?_, fun he => ?_, hrecorded, honly⟩
  · rw [← hreading t']
    refine ⟨fun ht => ?_, fun ht => List.mem_append_right _ ht⟩
    rcases List.mem_append.mp ht with ht | ht
    · exact (hbefore _ ht).elim
    · exact ht
  · exact (hdue hd).extend (List.subset_append_right _ _) hcalls rfl
  · refine ⟨fun ns selector r hlisted => ?_, (hearly he).calls.trans hcalls⟩
    rcases List.mem_append.mp hlisted with hlisted | hlisted
    · exact (hbefore _ hlisted).elim
    · exact (hearly he).unlisted ns selector r hlisted

/-- What a reconcile does about the interval, if it can read the object; otherwise it reports the
    error and does nothing. -/
def Keeps (interval : ℤ) (s : Timed) (tr : List (Event sig)) (outcome : Outcome) (s' : Timed) :
    Prop :=
  match read tr with
  | some spec => ∃ t, Punctual interval spec t s tr outcome s'
  | none => (∃ msg, outcome = .error msg) ∧ Quiet tr s s' ∧ s'.rounds = s.rounds

/-- Every reconcile keeps the anchor in step with the rounds. -/
theorem runs_reconcile (hinterval : second ≤ interval)
    (hrun : Runs timedAct (reconcile key) s tr outcome s') (h : Anchored interval s) :
    Anchored interval s' ∧ Keeps interval s tr outcome s' := by
  unfold reconcile at hrun
  obtain ⟨reply, _, s₁, rfl, ⟨s₀, hpass, rfl, hreply⟩, hrest⟩ := hrun.of_call
  have h₁ := h.passes hpass
  cases reply with
  | notFound => exact hreply.elim
  | failed e =>
    obtain ⟨rfl, rfl, rfl⟩ := hrest.of_pure
    refine ⟨h₁, ⟨e, rfl⟩, ⟨fun ns selector r he => ?_, hpass.calls⟩, hpass.rounds⟩
    cases List.mem_singleton.mp he
  | found schedule =>
    have hobject : schedule = s₁.object := hreply
    subst hobject
    change Runs timedAct (if _ then _ else _) _ _ _ _ at hrest
    rw [h₁.deletion, if_neg (by simp), if_neg (not_not_intro h₁.finalizer)] at hrest
    obtain ⟨tr₁, tr₂, u, s₂, rfl, htriggers, hchecks⟩ := hrest.of_bind
    -- starting triggers is no part of a round and does not write the object
    have haside : Issues Aside (ensureTriggers key s₁.object.spec) :=
      issues_ensureTriggers trivial (fun _ => trivial) (fun _ => trivial) _
    have hcalls : s₂.calls = s₁.calls := calls_of_runs
      (issues_ensureTriggers trivial (fun _ => trivial) (fun _ => trivial) _) htriggers
    obtain ⟨h₂, hlater⟩ := h₁.runs (issues_ensureTriggers trivial (fun _ => trivial)
      (fun _ => trivial) _) htriggers
    obtain ⟨h', t, hpunctual⟩ := runs_reconcileInterval hinterval hchecks h₂ h₁.scheduled
      hlater.anchor.symm
    refine ⟨h', t, ?_⟩
    rw [← List.append_assoc]
    refine hpunctual.after (hpass.later.trans hlater) (hcalls.trans hpass.calls) (fun e he => ?_)
    rcases List.mem_append.mp he with he | he
    · rw [List.mem_singleton.mp he]
      trivial
    · exact haside.of_runs htriggers e he

/-- So does every run of reconciles. -/
theorem runs_reconciles (hinterval : second ≤ interval) {n : ℕ} {outcomes : List Outcome}
    (hrun : Runs timedAct (reconciles key n) s tr outcomes s') (h : Anchored interval s) :
    Anchored interval s' := by
  induction n generalizing s tr outcomes with
  | zero =>
    obtain ⟨-, -, rfl⟩ := hrun.of_pure
    exact h
  | succ n ih =>
    unfold reconciles at hrun
    obtain ⟨_, _, outcome, s₁, rfl, hfirst, hrun⟩ := hrun.of_bind
    obtain ⟨_, _, rest, s₂, rfl, hrest, hrun⟩ := hrun.of_bind
    obtain ⟨-, -, rfl⟩ := hrun.of_pure
    exact ih hrest (runs_reconcile hinterval hfirst h).1

end Reconcile

/-! ### The cadence -/

/-- An object with this interval and the finalizer; no round has been recorded. -/
structure Begins (interval : ℤ) (s : Timed) : Prop where
  scheduled : s.object.spec.triggers.interval = some interval
  finalizer : checkpointScheduleFinalizer ∈ s.object.finalizers
  deletion : s.object.deletionTimestamp = none
  rounds : s.rounds = []

/-- **The schedule neither stalls nor bunches up.**  If the object was not created in the future,
    then after any run of reconciles a reconcile that returns no error asks for the next within the
    interval; it runs a round, with a call for every selected container, exactly if the interval has
    passed since the stored anchor; and any two rounds that were recorded started more than the
    interval less a second apart. -/
theorem interval_cadence {interval : ℤ} (hinterval : second ≤ interval) {key : String}
    {s₀ s s' : Timed} (hbegins : Begins interval s₀) (hpast : s₀.object.anchor ≤ s₀.clock) {n : ℕ}
    {tr₀ tr : List (Event sig)} {outcomes : List Outcome} {outcome : Outcome}
    (hruns : Runs timedAct (reconciles key n) s₀ tr₀ outcomes s)
    (hnext : Runs timedAct (reconcile key) s tr outcome s') :
    Keeps interval s tr outcome s' ∧
      s'.rounds.Pairwise (fun t t' => interval - second < t' - t) := by
  have h₀ : Anchored interval s₀ :=
    ⟨hbegins.scheduled, hbegins.finalizer, hbegins.deletion, hpast,
      by simp [hbegins.rounds], by simp [hbegins.rounds]⟩
  have h := runs_reconciles hinterval hruns h₀
  obtain ⟨h', hkeeps⟩ := runs_reconcile hinterval hnext h
  exact ⟨hkeeps, h'.apart⟩

/-- A schedule of one second. -/
def everySecond (creationTimestamp : ℤ) : Timed where
  object := { webSchedule [] 0 with
    creationTimestamp := creationTimestamp
    spec := { (webSchedule [] 0).spec with triggers := {
      interval := some second
      resourceThreshold := none
      onKubernetesEvents := []
      onAnnotation := false } } }
  clock := 0
  rounds := []
  calls := []

/-- A running pod with so many containers. -/
def webPod (n : ℕ) : Pod where
  name := "web"
  nodeName := "node"
  running := true
  containers := (List.range n).map toString
  uid := "1"
  ns := "apps"
  deletionTimestamp := none
  conditions := []

/-- The calls of a round succeed. -/
def succeeding {σ : Type} : (op : callSig.Op) → Int32 × σ → callSig.Reply op × (Int32 × σ)
  | .createCheckpoint _, s => ((.ok "web.tar" : Except String String), s)
  | .add, s => ((), (s.1 + 1, s.2))

theorem succeeding_act {σ : Type} {others : σ → σ → Prop} (hothers : ∀ s, others s s)
    (op : callSig.Op) (s : Int32 × σ) :
    callAct others op s (succeeding op s).1 (succeeding op s).2 := by
  cases op with
  | createCheckpoint t => exact ⟨rfl, hothers _⟩
  | add => exact ⟨rfl, hothers _⟩

/-- A status write: it succeeds if it carries the newest version. -/
def Timed.write (s : Timed) (o : Object) : UpdateReply × Timed :=
  if o.resourceVersion = s.object.resourceVersion then (.ok, s.store o (o.resourceVersion + 1))
  else (.conflict "", s)

/-- The clock is 1.7 s further at each reading, and a pod with two containers runs beside one that
    has ended. -/
def ticking : (op : sig.Op) → Timed → sig.Reply op × Timed
  | .get _, s => (GetReply.found s.object, s)
  | .update _ _, s => (UpdateReply.ok, s)
  | .statusUpdate _ o, s => s.write o
  | .running _, s => (false, s)
  | .startTrigger _, s => ((0 : ℕ), s)
  | .record _ _, s => ((), s)
  | .recorded _, s => (([] : List ℕ), s)
  | .stop _, s => ((), s)
  | .forget _, s => ((), s)
  | .now, s => (s.clock + 1700000000, { s with clock := s.clock + 1700000000 })
  | .listPods _ _, s => (Except.ok [webPod 2, { webPod 1 with running := false }], s)
  | .fanOut goroutines, s =>
    let (tr, created, s₁) := inTurn succeeding goroutines ((0 : Int32), s)
    (created, { s₁ with calls := s₁.calls ++ tr })
  | .change _ _, s => ((), s)

theorem Passes.refl (s : Timed) : Passes s s := ⟨le_refl _, rfl, rfl, rfl, rfl, rfl, id, rfl⟩

theorem ticking_act (op : sig.Op) (s : Timed) :
    timedAct op s (ticking op s).1 (ticking op s).2 := by
  refine ⟨s, .refl s, ?_⟩
  cases op with
  | get k => exact ⟨rfl, rfl⟩
  | statusUpdate k o =>
    show answers (.statusUpdate k o) s (s.write o).1 (s.write o).2
    unfold Timed.write
    split
    case isTrue hversion => exact .inl ⟨fun _ => nofun, hversion, _, rfl⟩
    case isFalse => exact .inr ⟨nofun, rfl⟩
  | now =>
    have hlater : s.clock ≤ s.clock + 1700000000 := by omega
    exact ⟨hlater, rfl⟩
  | fanOut goroutines =>
    exact ⟨_, _, Joins.inTurn (succeeding_act Passes.refl) goroutines (by simp) _, rfl⟩
  | _ => rfl

/-- The world after the first reconcile, 1.7 s after the creation. -/
def afterOne : Timed := (exec ticking (reconciles "apps/web" 1) (everySecond 0)).2

/-- Two rounds of two calls: the anchor of the first is stored 0.7 s early. -/
theorem interval_cadence_twice :
    afterOne.object.anchor = second ∧
    (exec ticking (reconcile "apps/web") afterOne).2.rounds = [1700000000, 3400000000] ∧
    called (exec ticking (reconcile "apps/web") afterOne).2.calls =
      [target (webPod 2) "0", target (webPod 2) "1", target (webPod 2) "0",
        target (webPod 2) "1"] ∧
    (∃ t, Punctual second afterOne.object.spec t afterOne
      (trace ticking (reconcile "apps/web") afterOne) (.requeueAfter second)
      (exec ticking (reconcile "apps/web") afterOne).2) ∧
    (exec ticking (reconcile "apps/web") afterOne).2.rounds.Pairwise
      (fun t t' => second - second < t' - t) := by
  have hbegins : Begins second (everySecond 0) := ⟨rfl, by decide, rfl, rfl⟩
  obtain ⟨hkeeps, hapart⟩ := interval_cadence (le_refl second) hbegins (by decide)
    (Runs.of_exec ticking_act (reconciles "apps/web" 1) (everySecond 0))
    (Runs.of_exec ticking_act (reconcile "apps/web") _)
  exact ⟨by decide, by decide, by decide, hkeeps, hapart⟩

/-- The API server's clock is five seconds ahead of the operator's: the next reconcile is asked for
    4.3 s from now, with an interval of one second. -/
theorem requeue_exceeds_interval :
    Begins second (everySecond (5 * second)) ∧
    ∃ tr s' d, Runs timedAct (reconcile "apps/web") (everySecond (5 * second)) tr
      (.requeueAfter d) s' ∧ second < d :=
  ⟨⟨rfl, by decide, rfl, rfl⟩, _, _, _,
    Runs.of_exec ticking_act (reconcile "apps/web") (everySecond (5 * second)), by decide⟩

end CheckpointRestore.Schedule.Lifecycle
