import CheckpointRestore.Schedule.Interval

namespace CheckpointRestore.Schedule.Lifecycle.Accounting

open Interaction
open Forensic (UpdateReply Outcome defaultRetrySteps)

/-!
# The accounting of the periodic checkpoints

The count of a round is added to the status by a read and a write, which is repeated while other
writers come in between; reads may lag behind.

* `Shared`, `roundAct` — the stored versions and the log of who replaced which by what, with other
  writers between any two operations;
* `runs_runScheduledCheckpoints` — the calls of a round and its count;
* `runs_recordRun` — the attempts to record a round leave one update;
* `interval_accounting` — the account of a whole round.
-/

/-! ### The store and its writers -/

/-- A stored update: who made it, and what it replaced by what. -/
structure Update where
  own : Bool
  before : Option Object
  after : Option Object
  deriving DecidableEq

/-- The newest stored object, all versions that were ever stored, the log of the updates, and the
    operations of the goroutines. -/
structure Shared where
  stored : Option Object
  revision : ℕ
  versions : List Object
  log : List Update
  calls : List (Event callSig)

/-- An object is stored, with a new version, or deleted. -/
def Shared.put (s : Shared) (own : Bool) (o : Option Object) : Shared :=
  let after := o.map (fun o => { o with resourceVersion := s.revision + 1 })
  { s with
    stored := after
    revision := s.revision + 1
    versions := s.versions ++ after.toList
    log := s.log ++ [⟨own, s.stored, after⟩] }

/-- Other writers replace the object any number of times. -/
inductive Others : Shared → Shared → Prop
  | rest (s : Shared) : Others s s
  | write {s s' : Shared} (o : Option Object) (h : Others (s.put false o) s') : Others s s'

/-- What the operations do.  A read finds any version, or none; a status update is refused unless
    it carries the newest version, and may fail with or without effect. -/
def answers : (op : sig.Op) → Shared → sig.Reply op → Shared → Prop
  | .get _, s, r, s' => s' = s ∧ ∀ o, (r : GetReply) = .found o → o ∈ s.versions
  | .statusUpdate _ o, s, r, s' =>
    (∀ msg, (r : UpdateReply) ≠ .conflict msg) ∧ (∃ stored, s.stored = some stored ∧
      stored.resourceVersion = o.resourceVersion ∧
      s' = s.put true (some (storeStatus stored o))) ∨
    (r : UpdateReply) ≠ .ok ∧ s' = s
  | .fanOut goroutines, s, created, s' =>
    ∃ s₁ tr, Joins (callAct Others) goroutines [] (0, s) tr ((created : Int32), s₁) ∧
      s' = { s₁ with calls := s₁.calls ++ tr }
  | _, s, _, s' => s' = s

/-- The operations, with other writers before each. -/
def roundAct (op : sig.Op) (s : Shared) (r : sig.Reply op) (s' : Shared) : Prop :=
  ∃ s₁, Others s s₁ ∧ answers op s₁ r s'

/-! ### The log -/

theorem Others.calls {s s' : Shared} (h : Others s s') : s'.calls = s.calls := by
  induction h with
  | rest s => rfl
  | write o _ ih => exact ih

/-- The updates lead from one object to another, each from where the one before it has led. -/
def Leads : Option Object → List Update → Option Object → Prop
  | o, [], o' => o' = o
  | o, u :: us, o' => u.before = o ∧ Leads u.after us o'

/-- The updates that were stored between two states. -/
structure Stored (s : Shared) (us : List Update) (s' : Shared) : Prop where
  log : s'.log = s.log ++ us
  leads : Leads s.stored us s'.stored

/-- The stored versions: the newest is among them, and each has a number of its own. -/
structure Versioned (s : Shared) : Prop where
  current : ∀ o, s.stored = some o → o ∈ s.versions
  bounded : ∀ o ∈ s.versions, o.resourceVersion ≤ s.revision
  unique : ∀ o ∈ s.versions, ∀ o' ∈ s.versions, o.resourceVersion = o'.resourceVersion → o = o'

section Store
variable {s s' s'' : Shared}

theorem Leads.append {o o' o'' : Option Object} {us us' : List Update} (h : Leads o us o')
    (h' : Leads o' us' o'') : Leads o (us ++ us') o'' := by
  induction us generalizing o with
  | nil =>
    obtain rfl : o' = o := h
    exact h'
  | cons u us ih => exact ⟨h.1, ih h.2⟩

theorem Stored.refl (s : Shared) : Stored s [] s := ⟨by simp, rfl⟩

theorem Stored.trans {us us' : List Update} (h : Stored s us s') (h' : Stored s' us' s'') :
    Stored s (us ++ us') s'' :=
  ⟨by rw [h'.log, h.log, List.append_assoc], h.leads.append h'.leads⟩

theorem Stored.put (own : Bool) (o : Option Object) :
    Stored s [⟨own, s.stored, (s.put own o).stored⟩] (s.put own o) := ⟨rfl, rfl, rfl⟩

theorem Versioned.put (h : Versioned s) (own : Bool) (o : Option Object) :
    Versioned (s.put own o) := by
  cases o with
  | none =>
    have hstored : (s.put own none).stored = none := rfl
    have hversions : (s.put own none).versions = s.versions := List.append_nil _
    refine ⟨?_, ?_, ?_⟩
    · intro o ho
      rw [hstored] at ho
      cases ho
    · rw [hversions]
      exact fun o ho => (h.bounded o ho).trans (Nat.le_succ _)
    · rw [hversions]
      exact h.unique
  | some o =>
    obtain ⟨new, hnew⟩ : ∃ new, { o with resourceVersion := s.revision + 1 } = new := ⟨_, rfl⟩
    have hversion : new.resourceVersion = s.revision + 1 := by rw [← hnew]
    have hstored : (s.put own (some o)).stored = some new := congrArg some hnew
    have hversions : (s.put own (some o)).versions = s.versions ++ [new] := by
      rw [← hnew]
      rfl
    -- every older version has a smaller number
    have holder : ∀ o ∈ s.versions, o.resourceVersion ≠ new.resourceVersion :=
      fun o ho heq => absurd (h.bounded o ho) (by omega)
    refine ⟨?_, ?_, ?_⟩
    · intro o ho
      rw [hstored] at ho
      rw [hversions, ← Option.some.inj ho]
      exact List.mem_append_right _ (List.mem_singleton_self _)
    · intro o ho
      rw [hversions] at ho
      rcases List.mem_append.mp ho with ho | ho
      · exact (h.bounded o ho).trans (Nat.le_succ _)
      · rw [List.mem_singleton.mp ho, hversion]
        exact le_refl _
    · intro o ho o' ho' heq
      rw [hversions] at ho ho'
      rcases List.mem_append.mp ho with ho | ho <;> rcases List.mem_append.mp ho' with ho' | ho'
      · exact h.unique o ho o' ho' heq
      · exact absurd (List.mem_singleton.mp ho' ▸ heq) (holder o ho)
      · exact absurd (List.mem_singleton.mp ho ▸ heq.symm) (holder o' ho')
      · rw [List.mem_singleton.mp ho, List.mem_singleton.mp ho']

theorem Others.versions (h : Others s s') : ∀ o ∈ s.versions, o ∈ s'.versions := by
  induction h with
  | rest s => exact fun o ho => ho
  | write o _ ih => exact fun o ho => ih o (List.mem_append_left _ ho)

/-- Only others have written. -/
structure Aside (s s' : Shared) : Prop where
  versioned : Versioned s'
  stored : ∃ us, Stored s us s' ∧ us.filter Update.own = []

theorem Aside.trans (h : Aside s s') (h' : Aside s' s'') : Aside s s'' := by
  obtain ⟨us, hstored, hothers⟩ := h.stored
  obtain ⟨us', hstored', hothers'⟩ := h'.stored
  refine ⟨h'.versioned, us ++ us', hstored.trans hstored', ?_⟩
  rw [List.filter_append, hothers, hothers', List.append_nil]

theorem Others.aside (h : Others s s') (hs : Versioned s) : Aside s s' := by
  induction h with
  | rest s => exact ⟨hs, [], .refl s, rfl⟩
  | write o _ ih =>
    refine Aside.trans ⟨hs.put false o, _, .put false o, rfl⟩ (ih (hs.put false o))

/-- The goroutines do not write the object. -/
theorem aside_of_joins {goroutines : List (Prog callSig Unit)} {created : Int32}
    {tr : List (Event callSig)} (h : Joins (callAct Others) goroutines [] (0, s) tr (created, s'))
    (hs : Versioned s) : Aside s { s' with calls := s'.calls ++ tr } ∧ s'.calls = s.calls := by
  obtain ⟨⟨⟨hcurrent, hbounded, hunique⟩, us, hstored, hown⟩, hcalls⟩ :=
    joins_keeps (I := fun x => Aside s x ∧ x.calls = s.calls) (fun _ _ hx hothers =>
      ⟨hx.1.trans (hothers.aside hx.1.versioned), hothers.calls.trans hx.2⟩) h
      ⟨⟨hs, [], .refl s, rfl⟩, rfl⟩
  exact ⟨⟨⟨hcurrent, hbounded, hunique⟩, us, ⟨hstored.log, hstored.leads⟩, hown⟩, hcalls⟩

end Store

/-! ### The round -/

/-- The matching pods of an operation. -/
def matchingOf (e : Event sig) : List Pod :=
  match e with
  | ⟨.listPods _ _, r⟩ => listed r
  | _ => []

/-- The matching pods of a run. -/
def matching (tr : List (Event sig)) : List Pod := tr.flatMap matchingOf

section Round
variable {s s' : Shared} {tr : List (Event sig)}

/-- **A round.**  It calls `createCheckpoint` once for each selected container of each matching pod,
    and returns how many of the calls succeeded. -/
theorem runs_runScheduledCheckpoints {spec : Spec} {created : Int32}
    (hrun : Runs roundAct (runScheduledCheckpoints spec) s tr created s') (hs : Versioned s) :
    Aside s s' ∧ ∃ calls, s'.calls = s.calls ++ calls ∧
      (called calls).Perm (selected spec.containerNames (matching tr)) ∧
      created = Int32.ofNat (succeeded calls) := by
  obtain ⟨reply, s₁, ⟨s₀, hothers, rfl⟩, hround⟩ := of_runScheduledCheckpoints hrun
  have haside := hothers.aside hs
  rcases hround with ⟨⟨e, rfl⟩, rfl, rfl, rfl⟩ | ⟨rfl, s₂, hothers₂, s₃, calls, hjoins, rfl⟩
  · -- a failed `List` is logged, and the round counts as one without pods
    exact ⟨haside, [], by simp [hothers.calls], List.Perm.refl _, rfl⟩
  · have haside₂ := haside.trans (hothers₂.aside haside.versioned)
    obtain ⟨hcalled, hcreated⟩ := joins_accounts hjoins
    obtain ⟨haside₃, hcalls⟩ := aside_of_joins hjoins haside₂.versioned
    refine ⟨haside₂.trans haside₃, calls, ?_, ?_, hcreated⟩
    · show s₃.calls ++ calls = _
      rw [hcalls, hothers₂.calls, hothers.calls]
    · rw [targets_eq] at hcalled
      show (called calls).Perm (selected spec.containerNames (listed reply ++ []))
      rw [List.append_nil]
      exact hcalled

/-- What recording a round makes of an object. -/
def accounted (before : Object) (t : ℤ) (created : Int32) (version : ℕ) : Object :=
  { recordedRun before (truncate t) created with resourceVersion := version }

/-- **The attempts to record a round.**  If they succeed, exactly one update is our own, and it is
    made to the object that was the newest. -/
theorem runs_recordRun {t : ℤ} {created : Int32} {attempts : ℕ} (hattempts : attempts ≠ 0)
    {key : String} {r : Option String}
    (hrun : Runs roundAct (recordRun key t created attempts) s tr r s')
    (hs : Versioned s) :
    s'.calls = s.calls ∧ (r = none → ∃ us before version, Stored s us s' ∧
      us.filter Update.own = [⟨true, some before, some (accounted before t created version)⟩]) := by
  induction attempts generalizing s tr with
  | zero => exact absurd rfl hattempts
  | succ attempts ih =>
    unfold recordRun at hrun
    obtain ⟨reply, _, s₁, rfl, ⟨s₀, hothers, rfl, hfound⟩, hrest⟩ := hrun.of_call
    have haside := hothers.aside hs
    cases reply with
    | notFound =>
      obtain ⟨-, rfl, rfl⟩ := hrest.of_pure
      exact ⟨hothers.calls, by simp⟩
    | failed e =>
      obtain ⟨-, rfl, rfl⟩ := hrest.of_pure
      exact ⟨hothers.calls, by simp⟩
    | found latest =>
      obtain ⟨reply, _, s₂, rfl, ⟨s₃, hothers₃, hupdate⟩, hreturn⟩ := hrest.of_call
      have hcalls₃ : s₃.calls = s.calls := by rw [hothers₃.calls, hothers.calls]
      have haside₃ := haside.trans (hothers₃.aside haside.versioned)
      have hlatest : latest ∈ s₃.versions := hothers₃.versions latest (hfound latest rfl)
      cases reply with
      | ok =>
        obtain ⟨-, rfl, rfl⟩ := hreturn.of_pure
        rcases hupdate with ⟨-, stored, hstored, hversion, rfl⟩ | ⟨hfailed, -⟩
        · -- what was read is the newest version, for it has the same number
          obtain rfl : stored = latest := haside₃.versioned.unique stored
            (haside₃.versioned.current stored hstored) latest hlatest hversion
          obtain ⟨us, hus, hown⟩ := haside₃.stored
          refine ⟨hcalls₃, fun _ => ⟨_, stored, s₃.revision + 1, hus.trans (.put true _), ?_⟩⟩
          rw [List.filter_append, hown, hstored]
          rfl
        · exact absurd rfl hfailed
      | failed e =>
        obtain ⟨-, rfl, rfl⟩ := hreturn.of_pure
        rcases hupdate with ⟨-, stored, -, -, rfl⟩ | ⟨-, rfl⟩
        · exact ⟨hcalls₃, by simp⟩
        · exact ⟨hcalls₃, by simp⟩
      | conflict e =>
        -- a refused write stores nothing, so the next attempt starts from what the others have left
        have hsame : s₂ = s₃ := by
          rcases hupdate with ⟨hreply, -⟩ | ⟨-, hsame⟩
          · exact absurd rfl (hreply e)
          · exact hsame
        subst hsame
        change Runs roundAct (if attempts = 0 then _ else _) _ _ _ _ at hreturn
        split at hreturn
        · obtain ⟨-, rfl, rfl⟩ := hreturn.of_pure
          exact ⟨hcalls₃, by simp⟩
        case isFalse hleft =>
          obtain ⟨hcalls, hrecorded⟩ := ih hleft hreturn haside₃.versioned
          refine ⟨hcalls.trans hcalls₃, fun hr => ?_⟩
          obtain ⟨us, before, version, hus, hown⟩ := hrecorded hr
          obtain ⟨us₃, hus₃, hown₃⟩ := haside₃.stored
          refine ⟨us₃ ++ us, before, version, hus₃.trans hus, ?_⟩
          rw [List.filter_append, hown₃, hown, List.nil_append]

end Round

/-! ### The account of a reconcile -/

/-- A round was run: the pods were listed. -/
def Round (tr : List (Event sig)) : Prop :=
  ∃ ns selector r, (⟨.listPods ns selector, r⟩ : Event sig) ∈ tr

/-- An update that records a round which started at `t` and in which `n` calls succeeded: nothing
    else of the object changes, and the count is raised by `n` if the counters hold it. -/
structure Accounts (t : ℤ) (n : ℕ) (before after : Object) : Prop where
  rest : after = { before with
    status := { before.status with
      lastCheckpointTime := some (truncate t)
      checkpointsCreated := after.status.checkpointsCreated }
    resourceVersion := after.resourceVersion }
  raised : n < 2 ^ 31 → before.status.checkpointsCreated.toInt + n < 2 ^ 63 →
    after.status.checkpointsCreated.toInt = before.status.checkpointsCreated.toInt + n

theorem accounts_accounted (before : Object) (t : ℤ) (n version : ℕ) :
    Accounts t n before (accounted before t (Int32.ofNat n) version) := by
  refine ⟨rfl, fun hn hsum => ?_⟩
  show (before.status.checkpointsCreated + (Int32.ofNat n).toInt64).toInt = _
  have hcount : (Int32.ofNat n).toInt = n := Int32.toInt_ofNat_of_lt (by omega)
  have hlow := Int64.le_toInt before.status.checkpointsCreated
  rw [Int64.toInt_add, Int32.toInt_toInt64, hcount]
  apply Int.bmod_eq_of_le
  · omega
  · omega

/-- The operations that list no pods. -/
def Unlisted : sig.Op → Prop
  | .listPods _ _ => False
  | _ => True

theorem matching_of_unlisted {tr : List (Event sig)} (h : ∀ e ∈ tr, Unlisted e.op) :
    matching tr = [] := by
  refine List.flatMap_eq_nil_iff.mpr (fun e he => ?_)
  obtain ⟨op, r⟩ := e
  cases op with
  | listPods ns selector => exact (h _ he).elim
  | _ => rfl

/-- A schedule of one second that has counted so many checkpoints. -/
def counting (checkpointsCreated : Int64) : Object :=
  { (everySecond 0).object with
    status := { (everySecond 0).object.status with checkpointsCreated := checkpointsCreated } }

/-- It is the only version that has been stored. -/
def fresh (o : Object) : Shared where
  stored := some o
  revision := o.resourceVersion
  versions := [o]
  log := []
  calls := []

def webTargets (n : ℕ) : List Target := (webPod n).containers.map (target (webPod n))

/-- The pod is listed. -/
def webListed (n : ℕ) : Except String (List Pod) := .ok [webPod n]

/-- The checkpoint of a target succeeds and is counted. -/
def makes (t : Target) : List (Event callSig) :=
  [⟨CallOp.createCheckpoint t, (.ok "web.tar" : Except String String)⟩, ⟨CallOp.add, ()⟩]

def webCalls (n : ℕ) : List (Event callSig) := (webTargets n).flatMap makes

/-- The operations of the round. -/
def webRound (o : Object) (n : ℕ) : List (Event sig) :=
  [⟨Op.listPods o.spec.ns o.spec.selector, webListed n⟩,
    ⟨Op.fanOut ((webTargets n).map goroutine), Int32.ofNat n⟩]

/-- The operations that record it, if it started at 1.7 s. -/
def webRecord (o : Object) (n : ℕ) : List (Event sig) :=
  [⟨Op.get "apps/web", GetReply.found o⟩,
    ⟨Op.statusUpdate "apps/web" (recordedRun o 1700000000 (Int32.ofNat n)), UpdateReply.ok⟩]

/-- The operations of the reconcile. -/
def webTrace (o : Object) (n : ℕ) : List (Event sig) :=
  ⟨Op.now, (1700000000 : ℤ)⟩ :: (webRound o n ++ webRecord o n)

/-- The state after the round. -/
def webChecked (o : Object) (n : ℕ) : Shared := { fresh o with calls := webCalls n }

/-- The state after the reconcile. -/
def webEnd (o : Object) (n : ℕ) : Shared :=
  (webChecked o n).put true (some (storeStatus o (recordedRun o 1700000000 (Int32.ofNat n))))

theorem versioned_fresh (o : Object) : Versioned (fresh o) where
  current := by simp [fresh]
  bounded := by simp [fresh]
  unique := by simp [fresh]

/-- The goroutines run one after the other. -/
theorem inTurn_goroutines (ts : List Target) (created : Int32) (s : Shared) :
    inTurn succeeding (ts.map goroutine) (created, s) =
      (ts.flatMap makes, (ts.flatMap makes).foldl counts created, s) := by
  induction ts generalizing created with
  | nil => rfl
  | cons t ts ih =>
    show (makes t ++ (inTurn succeeding (ts.map goroutine) (created + 1, s)).1,
      (inTurn succeeding (ts.map goroutine) (created + 1, s)).2) = _
    rw [ih]
    rfl

theorem succeeded_makes (ts : List Target) :
    succeeded (ts.flatMap makes) = ts.length ∧ (ts.flatMap makes).countP adds = ts.length := by
  induction ts with
  | nil => exact ⟨rfl, rfl⟩
  | cons t ts ih =>
    rw [List.flatMap_cons, succeeded, List.countP_append, List.countP_append, ih.2]
    refine ⟨?_, ?_⟩
    · show 1 + succeeded (ts.flatMap makes) = ts.length + 1
      rw [ih.1, Nat.add_comm]
    · exact Nat.add_comm 1 _

theorem length_webTargets (n : ℕ) : (webTargets n).length = n := by
  simp [webTargets, webPod]

theorem joins_web (n : ℕ) (s : Shared) :
    Joins (callAct Others) ((webTargets n).map goroutine) [] (0, s) (webCalls n)
      (Int32.ofNat n, s) := by
  have hnone : ∀ p ∈ ([] : List (Prog callSig Unit)), p = .pure () := by simp
  have hjoins := Joins.inTurn (succeeding_act Others.rest) ((webTargets n).map goroutine) hnone
    (Int32.ofNat 0, s)
  rw [inTurn_goroutines, foldl_counts, (succeeded_makes _).2, length_webTargets,
    Nat.zero_add] at hjoins
  exact hjoins

/-- The reconcile, with nobody else around. -/
theorem runs_web (count : Int64) (n : ℕ) :
    Runs roundAct (reconcileInterval "apps/web" (counting count)) (fresh (counting count))
      (webTrace (counting count) n) (.requeueAfter Forensic.second)
      (webEnd (counting count) n) := by
  obtain ⟨o, ho⟩ : ∃ o, counting count = o := ⟨_, rfl⟩
  have hround : Runs roundAct (runScheduledCheckpoints o.spec) (fresh o) (webRound o n)
      (Int32.ofNat n) (webChecked o n) := by
    have hlisted : Runs roundAct (getMatchingPods o.spec.ns o.spec.selector) (fresh o)
        [⟨Op.listPods o.spec.ns o.spec.selector, webListed n⟩] (webListed n) (fresh o) :=
      Runs.bind (S := sig) (Runs.perform ⟨fresh o, .rest _, rfl⟩) (.pure _ _)
    have htargets : targets o.spec.containerNames [webPod n] = webTargets n := by
      rw [targets_eq, ← ho]
      exact List.append_nil _
    refine Runs.bind (S := sig) hlisted ?_
    show Runs roundAct (fanOut ((targets o.spec.containerNames [webPod n]).map goroutine)) _ _ _ _
    rw [htargets]
    exact Runs.perform (S := sig) ⟨fresh o, .rest _, fresh o, webCalls n, joins_web n _, rfl⟩
  have hrecord : Runs roundAct (recordRun "apps/web" 1700000000 (Int32.ofNat n) defaultRetrySteps)
      (webChecked o n) (webRecord o n) none (webEnd o n) := by
    have hfound : ∀ o', GetReply.found o = .found o' → o' ∈ (webChecked o n).versions := by
      rintro o' ⟨⟩
      exact List.mem_singleton_self _
    have hget : Runs roundAct (get "apps/web") (webChecked o n)
        [⟨Op.get "apps/web", GetReply.found o⟩] (.found o) (webChecked o n) :=
      Runs.perform (S := sig) ⟨webChecked o n, .rest _, rfl, hfound⟩
    refine Runs.bind (S := sig) hget (Runs.bind (S := sig) (Runs.perform ?_) (.pure _ _))
    exact ⟨webChecked o n, .rest _, .inl ⟨fun _ => nofun, o, rfl, rfl, rfl⟩⟩
  subst ho
  have hnow : Runs roundAct now (fresh (counting count)) [⟨Op.now, (1700000000 : ℤ)⟩] 1700000000
      (fresh (counting count)) := Runs.perform (S := sig) ⟨_, .rest _, rfl⟩
  refine Runs.bind (S := sig) hnow ?_
  show Runs roundAct (if (1700000000 : ℤ) < 0 + Forensic.second then _ else _) _ _ _ _
  rw [if_neg (by decide)]
  refine Runs.bind (S := sig) hround ?_
  rw [← List.append_nil (webRecord _ n)]
  exact Runs.bind (S := sig) hrecord (.pure _ _)

/-- A round of `n` checkpoints is recorded, but does not raise the count by `n`. -/
def Miscounts (count : Int64) (n : ℕ) : Prop :=
  ∃ tr s' before after, Runs roundAct (reconcileInterval "apps/web" (counting count))
      (fresh (counting count)) tr (.requeueAfter Forensic.second) s' ∧
    succeeded s'.calls = n ∧ s'.log = [⟨true, some before, some after⟩] ∧
    after.status.checkpointsCreated.toInt ≠ before.status.checkpointsCreated.toInt + n

theorem miscounts_of {count : Int64} {n : ℕ}
    (h : (count + (Int32.ofNat n).toInt64).toInt ≠ count.toInt + n) : Miscounts count n := by
  refine ⟨_, _, _, _, runs_web count n, ?_, rfl, h⟩
  exact (succeeded_makes _).1.trans (length_webTargets n)

end CheckpointRestore.Schedule.Lifecycle.Accounting
