import CheckpointRestore.Forensic.Sequential

namespace CheckpointRestore.Forensic

open Go Interaction

/-!
# The trace of a reconcile

What a reconcile has asked and what it was answered determine what it writes and deletes.  This
is said once here, over the trace alone and for every answer, so that the worlds in which
reconciles run only have to say which answers there are.

* `Mutation` — the status changes of a running chain, each with the part of the trace that
  justifies it and with the pods that may be deleted after it;
* `Writes`, `Deleting` — what is written and deleted after a trace;
* `Specified`, `reconcile_specified` — every operation of `Reconcile` is one of these or looks on.
-/

/-! ### What events say -/

/-- The object a successful status write carried. -/
def written : Event sig → Option Chain
  | ⟨.statusUpdate c, r⟩ => match (r : UpdateReply) with
    | .ok => some c
    | _ => none
  | _ => none

/-- The time that was read. -/
def clockReading : Event sig → Option ℤ
  | ⟨.now, t⟩ => some t
  | _ => none

/-- The pods that were listed. -/
def listing : Event sig → Option (List PodInfo)
  | ⟨.listPods _ _, r⟩ => match (r : Except String (List PodInfo)) with
    | .ok pods => some pods
    | .error _ => none
  | _ => none

/-- The error of a checkpoint. -/
def checkpointError : Event sig → Option String
  | ⟨.createCheckpoint _ _ _ _, r⟩ => match (r : Except String String) with
    | .error e => some e
    | .ok _ => none
  | _ => none

/-- A checksum that could not be computed. -/
def checksumFailed : Event sig → Bool
  | ⟨.helperLogs _ _ _, r⟩ => match (r : Except String Logs) with
    | .error _ => true
    | .ok logs => !(parseSHA256FromLogs logs).isOk
  | _ => false

section Traces
variable (tr : List (Event sig))

/-- The first operation read the version `c`. -/
def Began (c : Chain) : Prop := ∃ rest, tr = ⟨Op.get, GetReply.found c⟩ :: rest

/-- Some status write succeeded. -/
def Wrote : Prop := ∃ e ∈ tr, (written e).isSome

/-- The pods were listed. -/
def Listed (pods : List PodInfo) : Prop := ∃ e ∈ tr, listing e = some pods

/-- A checkpoint failed. -/
def CheckpointFailed : Prop := ∃ e ∈ tr, (checkpointError e).isSome

/-- A checksum could not be computed. -/
def ChecksumFailed : Prop := ∃ e ∈ tr, checksumFailed e = true

/-- The first time that was read. -/
def firstClock : Option ℤ := tr.findSome? clockReading

/-- Whether the maximum duration of the chain has passed, by the first reading of the clock. -/
def Decided (c : Chain) (elapsed : Bool) : Prop :=
  match c.spec.capture.maxDuration, c.status.startTime with
  | some maxDuration, some startTime =>
    ∃ t, firstClock tr = some t ∧ elapsed = decide (t - startTime > maxDuration)
  | _, _ => elapsed = false

end Traces

/-- The event says nothing about pods and checkpoints. -/
structure Mute (e : Event sig) : Prop where
  listing : listing e = none
  checkpointError : checkpointError e = none
  checksumFailed : checksumFailed e = false

/-- Nor does it write. -/
structure Silent (e : Event sig) : Prop extends Mute e where
  written : written e = none

/-! ### What a reconcile writes -/

/-- A capture round of the chain that came to its end, by the trace. -/
structure Rounded (c : Chain) (tr : List (Event sig)) (listed : List PodInfo) (round : Round) :
    Prop where
  only : ∀ pods, Listed tr pods ↔ pods = listed
  captured : Captured c round
  pods : round.newRecords.map Record.podName
    = (targets c (listed.filter PodInfo.running)).map Target.pod
  integrity : round.integrityFailed = true ↔ ChecksumFailed tr
  unfailed : ¬ CheckpointFailed tr

/-- The number of snapshots after a round. -/
def countAfter (c : Chain) (round : Round) : ℤ :=
  if round.captured > 0 then wrap32 (c.status.snapshotCount + 1) else c.status.snapshotCount

/-- The closures `updateChainStatus` is called with for a chain that was running when it was
    read, and the pods and the number of snapshots the post-snapshot action gets after it. -/
inductive Mutation (c : Chain) (tr : List (Event sig)) :
    (ℤ → ℤ → Status → Status) → Option (List PodInfo × ℤ) → Prop
  | unsupported (hu : ¬ supported c) (hf : ¬ CheckpointFailed tr) :
      Mutation c tr (Status.failUnsupported (unsupportedAlgorithm c)) none
  | maxDuration (hs : supported c) (hd : Decided tr c true) (hf : ¬ CheckpointFailed tr)
      {pods : List PodInfo} (hpods : c.spec.postSnapshotAction = .deletePod →
        ∃ listed, (∀ pods', Listed tr pods' ↔ pods' = listed) ∧
          pods = listed.filter PodInfo.running) :
      Mutation c tr Status.maxDurationReached (some (pods, c.status.snapshotCount))
  | roundFailed (hs : supported c) (hd : Decided tr c false) {listed : List PodInfo}
      (hl : ∀ pods, Listed tr pods ↔ pods = listed) {msg : String}
      (hf : ∃ e ∈ tr, checkpointError e = some msg) :
      Mutation c tr (Status.roundFailed msg (givesUp c)) none
  | roundDone (hs : supported c) (hd : Decided tr c false) {listed : List PodInfo} {round : Round}
      (hr : Rounded c tr listed round) (t : ℤ) {reason message : String}
      (hcomp : completion c round.captured = some (reason, message)) :
      Mutation c tr (Status.roundDone t round (hashingEnabled c) reason message)
        (some (listed.filter PodInfo.running, countAfter c round))
  | roundContinue (hs : supported c) (hd : Decided tr c false) {listed : List PodInfo}
      {round : Round} (hr : Rounded c tr listed round) (t : ℤ)
      (hcomp : completion c round.captured = none) :
      Mutation c tr (Status.roundContinue t round (hashingEnabled c)) none

/-- The version that `updateChainStatus` writes. -/
def Chain.mutated (latest : Chain) (f : Status → Status) : Chain :=
  { latest with status := { f latest.status with observedGeneration := latest.generation } }

/-- The trace justifies a change of the version `latest`, which was read for it. -/
def Updates (c : Chain) (tr : List (Event sig)) (latest : Chain)
    (mutate : ℤ → ℤ → Status → Status) (after : Option (List PodInfo × ℤ)) : Prop :=
  ∃ pre rest, tr = pre ++ rest ∧ (∀ e ∈ rest, Silent e) ∧
    ⟨Op.get, GetReply.found latest⟩ ∈ rest ∧ Mutation c pre mutate after

/-- What a reconcile that began with `c` may write after the trace. -/
inductive Writes (c : Chain) (tr : List (Event sig)) : Chain → Prop
  | toPending (hp : c.status.phase = .empty) (hf : ¬ CheckpointFailed tr) (t₁ t₂ : ℤ) :
      Writes c tr { c with status := c.status.toPending t₁ t₂ c.generation }
  | toRunning (hp : c.status.phase = .pending) (hf : ¬ CheckpointFailed tr) (t₁ : ℤ) :
      Writes c tr { c with status := c.status.toRunning t₁ c.generation }
  | update (hp : c.status.phase = .running) {latest : Chain} {mutate : ℤ → ℤ → Status → Status}
      {after : Option (List PodInfo × ℤ)} (hu : Updates c tr latest mutate after) (t₁ t₂ : ℤ) :
      Writes c tr (latest.mutated (mutate t₁ t₂))

/-- The trace justifies the deletion of the pod: the chain was completed for it, and since then
    only pods were deleted. -/
def Deleting (c : Chain) (tr : List (Event sig)) (pod : PodInfo) : Prop :=
  ∃ before latest mutate pods count t₁ t₂ deletions,
    tr = before ++ ⟨Op.statusUpdate (latest.mutated (mutate t₁ t₂)), UpdateReply.ok⟩ :: deletions ∧
    (∀ e ∈ deletions, ∃ pod r, e = ⟨Op.deletePod pod, r⟩) ∧
    Updates c before latest mutate (some (pods, count)) ∧ c.status.phase = .running ∧
    c.spec.postSnapshotAction = .deletePod ∧ count ≠ 0 ∧ pod ∈ pods

/-- When a reconcile may issue an operation: only deletions follow a write that succeeded. -/
def Specified (tr : List (Event sig)) : sig.Op → Prop
  | .statusUpdate chain => ¬ Wrote tr ∧ ∃ c, Began tr c ∧ Writes c tr chain
  | .deletePod pod => ∃ c, Began tr c ∧ Deleting c tr pod
  | _ => ¬ Wrote tr

/-- The obligations of a reconcile, over its own trace. -/
def reconcileContract : Contract sig (List (Event sig)) :=
  traceContract Specified (fun _ => True)

/-! ### Traces that grow -/

variable {mutate : ℤ → ℤ → Status → Status} {after : Option (List PodInfo × ℤ)} {ns : String}

section Append
variable {tr pre rest : List (Event sig)} {e : Event sig} {c : Chain}

/-- Events without the property add nothing to those with it. -/
theorem exists_append_of_not {P : Event sig → Prop} (hrest : ∀ e ∈ rest, ¬ P e) :
    (∃ e ∈ pre ++ rest, P e) ↔ ∃ e ∈ pre, P e := by
  constructor
  · rintro ⟨e, he, hPe⟩
    rcases List.mem_append.mp he with he | he
    · exact ⟨e, he, hPe⟩
    · exact absurd hPe (hrest e he)
  · rintro ⟨e, he, hPe⟩
    exact ⟨e, List.mem_append_left _ he, hPe⟩

/-- Silent events store nothing. -/
theorem wrote_append (hrest : ∀ e ∈ rest, Silent e) : Wrote (pre ++ rest) ↔ Wrote pre :=
  exists_append_of_not (fun e he hw => by simp [(hrest e he).written] at hw)

/-- Mute events are no listings. -/
theorem listed_append (hrest : ∀ e ∈ rest, Mute e) (pods : List PodInfo) :
    Listed (pre ++ rest) pods ↔ Listed pre pods :=
  exists_append_of_not (fun e he hl => by simp [(hrest e he).listing] at hl)

/-- The listings of a trace. -/
theorem listed_iff_mem (pods : List PodInfo) : Listed tr pods ↔ pods ∈ tr.filterMap listing :=
  List.mem_filterMap.symm

/-- Nor do they tell of a failed checkpoint. -/
theorem checkpointFailed_append (hrest : ∀ e ∈ rest, Mute e) :
    CheckpointFailed (pre ++ rest) ↔ CheckpointFailed pre :=
  exists_append_of_not (fun e he hf => by simp [(hrest e he).checkpointError] at hf)

/-- Nor of a failed checksum. -/
theorem checksumFailed_append (hrest : ∀ e ∈ rest, Mute e) :
    ChecksumFailed (pre ++ rest) ↔ ChecksumFailed pre :=
  exists_append_of_not (fun e he hf => by simp [(hrest e he).checksumFailed] at hf)

/-- The first event stays the first. -/
theorem Began.append (h : Began tr c) (tr' : List (Event sig)) : Began (tr ++ tr') c := by
  obtain ⟨rest, rfl⟩ := h
  exact ⟨rest ++ tr', rfl⟩

/-- And so does the first reading of the clock. -/
theorem firstClock_append {t : ℤ} (h : firstClock tr = some t) (tr' : List (Event sig)) :
    firstClock (tr ++ tr') = some t := by
  unfold firstClock at h ⊢
  rw [List.findSome?_append, h, Option.some_or]

/-- With a limit the first reading of the clock decides. -/
theorem decided_of_limit {maxDuration startTime : ℤ}
    (hmax : c.spec.capture.maxDuration = some maxDuration)
    (hstart : c.status.startTime = some startTime) (elapsed : Bool) :
    Decided tr c elapsed ↔
      ∃ t, firstClock tr = some t ∧ elapsed = decide (t - startTime > maxDuration) := by
  rw [Decided, hmax, hstart]

/-- Without one nothing has elapsed. -/
theorem decided_of_none (h : c.spec.capture.maxDuration = none ∨ c.status.startTime = none)
    (elapsed : Bool) : Decided tr c elapsed ↔ elapsed = false := by
  unfold Decided
  rcases h with h | h
  · rw [h]
  · rw [h]
    cases c.spec.capture.maxDuration <;> rfl

/-- Either the limit is set and the chain has started, or there is nothing to decide. -/
theorem limit_cases (c : Chain) :
    (∃ maxDuration startTime, c.spec.capture.maxDuration = some maxDuration ∧
      c.status.startTime = some startTime) ∨
    (c.spec.capture.maxDuration = none ∨ c.status.startTime = none) := by
  cases c.spec.capture.maxDuration with
  | none => exact Or.inr (Or.inl rfl)
  | some maxDuration =>
    cases c.status.startTime with
    | none => exact Or.inr (Or.inr rfl)
    | some startTime => exact Or.inl ⟨_, _, rfl, rfl⟩

/-- The first reading decides, whatever follows. -/
theorem Decided.append {elapsed : Bool} (h : Decided tr c elapsed) (tr' : List (Event sig)) :
    Decided (tr ++ tr') c elapsed := by
  rcases limit_cases c with ⟨maxDuration, startTime, hmax, hstart⟩ | hnone
  · obtain ⟨t, ht, helapsed⟩ := (decided_of_limit hmax hstart elapsed).mp h
    exact (decided_of_limit hmax hstart elapsed).mpr ⟨t, firstClock_append ht tr', helapsed⟩
  · exact (decided_of_none hnone elapsed).mpr ((decided_of_none hnone elapsed).mp h)

/-- It decides one way. -/
theorem Decided.unique {elapsed elapsed' : Bool} (h : Decided tr c elapsed)
    (h' : Decided tr c elapsed') : elapsed = elapsed' := by
  rcases limit_cases c with ⟨maxDuration, startTime, hmax, hstart⟩ | hnone
  · obtain ⟨t, ht, rfl⟩ := (decided_of_limit hmax hstart elapsed).mp h
    obtain ⟨t', ht', rfl⟩ := (decided_of_limit hmax hstart elapsed').mp h'
    rw [Option.some.inj (ht.symm.trans ht')]
  · rw [(decided_of_none hnone elapsed).mp h, (decided_of_none hnone elapsed').mp h']

/-- Mute events justify nothing else. -/
theorem Rounded.append {listed : List PodInfo} {round : Round} (h : Rounded c pre listed round)
    (hrest : ∀ e ∈ rest, Mute e) : Rounded c (pre ++ rest) listed round := by
  refine ⟨fun pods => ?_, h.captured, h.pods, ?_, ?_⟩
  · rw [listed_append hrest]
    exact h.only pods
  · rw [checksumFailed_append hrest]
    exact h.integrity
  · rw [checkpointFailed_append hrest]
    exact h.unfailed

/-- A change is still justified after mute events. -/
theorem Mutation.append (h : Mutation c pre mutate after) (hrest : ∀ e ∈ rest, Mute e) :
    Mutation c (pre ++ rest) mutate after := by
  cases h with
  | unsupported hu hf => exact .unsupported hu ((checkpointFailed_append hrest).not.mpr hf)
  | maxDuration hs hd hf hpods =>
    refine .maxDuration hs (hd.append _) ((checkpointFailed_append hrest).not.mpr hf) ?_
    intro haction
    obtain ⟨listed, honly, hfilter⟩ := hpods haction
    exact ⟨listed, fun pods' => by rw [listed_append hrest]; exact honly pods', hfilter⟩
  | roundFailed hs hd hl hf =>
    obtain ⟨e, he, hmsg⟩ := hf
    exact .roundFailed hs (hd.append _) (fun pods => by rw [listed_append hrest]; exact hl pods)
      ⟨e, List.mem_append_left _ he, hmsg⟩
  | roundDone hs hd hr t hcomp => exact .roundDone hs (hd.append _) (hr.append hrest) t hcomp
  | roundContinue hs hd hr t hcomp =>
    exact .roundContinue hs (hd.append _) (hr.append hrest) t hcomp

/-- A reconcile that has not written and has heard of no failure; `listed` is what it was told
    about the pods. -/
structure Open (c : Chain) (tr : List (Event sig)) (listed : Option (List PodInfo)) : Prop where
  began : Began tr c
  unwritten : ¬ Wrote tr
  only : ∀ pods, Listed tr pods ↔ listed = some pods
  unfailed : ¬ CheckpointFailed tr
  unchecked : ¬ ChecksumFailed tr

/-- A reconcile stays open over a silent event. -/
theorem Open.silent {listed : Option (List PodInfo)} (h : Open c tr listed) (he : Silent e) :
    Open c (tr ++ [e]) listed := by
  have hsilent : ∀ x ∈ [e], Silent x := by simpa using he
  have hmute : ∀ x ∈ [e], Mute x := fun x hx => (hsilent x hx).toMute
  refine ⟨h.began.append _, ?_, fun pods => ?_, ?_, ?_⟩
  · rw [wrote_append hsilent]
    exact h.unwritten
  · rw [listed_append hmute]
    exact h.only pods
  · rw [checkpointFailed_append hmute]
    exact h.unfailed
  · rw [checksumFailed_append hmute]
    exact h.unchecked

/-- What one more event says. -/
theorem exists_mem_snoc {P : Event sig → Prop} :
    (∃ x ∈ tr ++ [e], P x) ↔ (∃ x ∈ tr, P x) ∨ P e := by
  simp only [List.mem_append, List.mem_singleton, or_and_right, exists_or, exists_eq_left]

/-- The listing of an open reconcile is its only one. -/
theorem Open.list {selector : String} (h : Open c tr none) (pods : List PodInfo) :
    Open c (tr ++ [⟨Op.listPods ns selector, (.ok pods : Except String (List PodInfo))⟩])
      (some pods) := by
  refine ⟨h.began.append _, ?_, fun pods' => ?_, ?_, ?_⟩
  · rw [Wrote, exists_mem_snoc, not_or]
    exact ⟨h.unwritten, by simp [written]⟩
  · rw [Listed, exists_mem_snoc]
    have hnone := (h.only pods').not.mpr (by simp)
    exact ⟨fun hl => hl.resolve_left hnone, fun hl => Or.inr hl⟩
  · rw [CheckpointFailed, exists_mem_snoc, not_or]
    exact ⟨h.unfailed, by simp [checkpointError]⟩
  · rw [ChecksumFailed, exists_mem_snoc, not_or]
    exact ⟨h.unchecked, by simp [checksumFailed]⟩

end Append

/-! ### The operations -/

variable {pre before : List (Event sig)} {Q : Option String → List (Event sig) → Prop}

section Ops
variable {tr : List (Event sig)} {c : Chain}

/-- One operation, under the contract. -/
theorem spec_perform {op : sig.Op} {Q : sig.Reply op → List (Event sig) → Prop}
    (hpre : Specified tr op) (h : ∀ r, Q r (tr ++ [⟨op, r⟩])) :
    wp reconcileContract (.perform op) Q tr := by
  refine ⟨hpre, ?_⟩
  rintro r tr' ⟨-, rfl⟩
  exact h r

/-- What is silent: reads, the clock, a checkpoint that succeeds, deletions and refused writes. -/
theorem silent_get (r : GetReply) : Silent ⟨Op.get, r⟩ := ⟨⟨rfl, rfl, rfl⟩, rfl⟩

theorem silent_now (t : ℤ) : Silent ⟨Op.now, t⟩ := ⟨⟨rfl, rfl, rfl⟩, rfl⟩

theorem silent_createCheckpoint (ns pod container node path : String) :
    Silent ⟨Op.createCheckpoint ns pod container node, (.ok path : Except String String)⟩ :=
  ⟨⟨rfl, rfl, rfl⟩, rfl⟩

theorem silent_deletePod (pod : PodInfo) (r : DeleteReply) : Silent ⟨Op.deletePod pod, r⟩ :=
  ⟨⟨rfl, rfl, rfl⟩, rfl⟩

theorem silent_statusUpdate (chain : Chain) {r : UpdateReply} (hr : r ≠ .ok) :
    Silent ⟨Op.statusUpdate chain, r⟩ := by
  refine ⟨⟨rfl, rfl, rfl⟩, ?_⟩
  cases r with
  | ok => exact absurd rfl hr
  | conflict msg => rfl
  | failed msg => rfl

/-- Reading the clock. -/
theorem spec_now {Q : ℤ → List (Event sig) → Prop} (hw : ¬ Wrote tr)
    (h : ∀ t, Q t (tr ++ [⟨Op.now, t⟩])) : wp reconcileContract now Q tr :=
  spec_perform hw h

/-- Listing the pods. -/
theorem spec_getMatchingPods {selector : String}
    {Q : Except String (List PodInfo) → List (Event sig) → Prop} (ho : Open c tr none)
    (herr : ∀ e tr', Q (.error e) tr')
    (hok : ∀ pods r, Open c (tr ++ [r]) (some pods) →
      Q (.ok (pods.filter PodInfo.running)) (tr ++ [r])) :
    wp reconcileContract (getMatchingPods ns selector) Q tr := by
  unfold getMatchingPods
  rw [wp_bind]
  refine spec_perform ho.unwritten (fun r => ?_)
  cases r with
  | error e => exact herr e _
  | ok pods => exact hok pods _ (ho.list pods)

/-- A checksum. -/
theorem spec_computeChecksum {node path : String}
    {Q : Except String String → List (Event sig) → Prop} (hw : ¬ Wrote tr)
    (herr : ∀ e (r : Except String Logs), checksumFailed ⟨Op.helperLogs ns node path, r⟩ = true →
      Q (.error e) (tr ++ [⟨Op.helperLogs ns node path, r⟩]))
    (hok : ∀ hash (r : Except String Logs), hash ≠ "" → Silent ⟨Op.helperLogs ns node path, r⟩ →
      Q (.ok hash) (tr ++ [⟨Op.helperLogs ns node path, r⟩])) :
    wp reconcileContract (computeChecksum ns node path) Q tr := by
  unfold computeChecksum
  rw [wp_bind]
  refine spec_perform hw (fun r => ?_)
  cases r with
  | error e => exact herr e _ rfl
  | ok logs =>
    show Q (parseSHA256FromLogs logs) _
    cases hparse : parseSHA256FromLogs logs with
    | error e => exact herr e _ (by simp [checksumFailed, hparse, Except.isOk, Except.toBool])
    | ok hash =>
      refine hok hash _ (parseSHA256FromLogs_ne_empty hparse) ⟨⟨rfl, rfl, ?_⟩, rfl⟩
      simp [checksumFailed, hparse, Except.isOk, Except.toBool]

/-- One attempt of `updateChainStatus`: a write, an error, or a conflict after which the next
    attempt follows. -/
theorem spec_updateAttempt {rest : List (Event sig)} {n : ℕ} (hp : c.status.phase = .running)
    (hb : Began pre c) (hw : ¬ Wrote pre) (hm : Mutation c pre mutate after)
    (hrest : ∀ e ∈ rest, Silent e) (herr : ∀ e tr', Q (some e) tr')
    (hok : ∀ before latest t₁ t₂, Began before c → Updates c before latest mutate after →
      Q none (before ++ [⟨Op.statusUpdate (latest.mutated (mutate t₁ t₂)), UpdateReply.ok⟩]))
    (hnext : ∀ rest', (∀ e ∈ rest', Silent e) → n ≠ 0 →
      wp reconcileContract (updateChainStatus mutate n) Q (pre ++ rest')) :
    wp reconcileContract (updateChainStatus mutate (n + 1)) Q (pre ++ rest) := by
  have hsnoc : ∀ {rest' : List (Event sig)} {e : Event sig}, (∀ x ∈ rest', Silent x) → Silent e →
      ∀ x ∈ rest' ++ [e], Silent x := by
    intro rest' e hrest' he x hx
    rcases List.mem_append.mp hx with hx | hx
    · exact hrest' x hx
    · rw [List.mem_singleton.mp hx]
      exact he
  have hunwritten : ∀ {rest' : List (Event sig)}, (∀ x ∈ rest', Silent x) →
      ¬ Wrote (pre ++ rest') :=
    fun hrest' => (wrote_append hrest').not.mpr hw
  unfold updateChainStatus
  rw [wp_bind]
  refine spec_perform (hunwritten hrest) (fun r => ?_)
  rw [List.append_assoc]
  have hget := hsnoc hrest (silent_get r)
  cases r with
  | notFound => exact herr _ _
  | failed e => exact herr _ _
  | found latest =>
    dsimp only
    rw [wp_bind]
    refine spec_now (hunwritten hget) (fun t₁ => ?_)
    have hfirst := hsnoc hget (silent_now t₁)
    rw [wp_bind, List.append_assoc]
    refine spec_now (hunwritten hfirst) (fun t₂ => ?_)
    have hsecond := hsnoc hfirst (silent_now t₂)
    rw [List.append_assoc]
    -- the operations of this attempt; none of them writes
    set attempt := rest ++ [⟨Op.get, GetReply.found latest⟩] ++ [⟨Op.now, t₁⟩] ++ [⟨Op.now, t₂⟩]
      with hattempt
    have hupdates : Updates c (pre ++ attempt) latest mutate after :=
      ⟨pre, attempt, rfl, hsecond, by simp [hattempt], hm⟩
    rw [wp_bind]
    refine spec_perform ⟨hunwritten hsecond, c, hb.append _, .update hp hupdates t₁ t₂⟩
      (fun r => ?_)
    cases r with
    | ok => exact hok _ latest t₁ t₂ (hb.append _) hupdates
    | failed e => exact herr _ _
    | conflict e =>
      dsimp only
      -- a conflict is silent, and the next attempt reads the object anew
      split_ifs with hn
      · exact herr _ _
      · rw [List.append_assoc]
        exact hnext _ (hsnoc hsecond (silent_statusUpdate _ (by simp))) hn

/-- `updateChainStatus` returns no error only after a write that the trace justifies. -/
theorem spec_updateChainStatus (n : ℕ) (hp : c.status.phase = .running) (hb : Began pre c)
    (hw : ¬ Wrote pre) (hm : Mutation c pre mutate after) (herr : ∀ e tr', Q (some e) tr')
    (hok : ∀ before latest t₁ t₂, Began before c → Updates c before latest mutate after →
      Q none (before ++ [⟨Op.statusUpdate (latest.mutated (mutate t₁ t₂)), UpdateReply.ok⟩])) :
    wp reconcileContract (updateChainStatus mutate (n + 1)) Q pre := by
  have hattempts : ∀ rest, (∀ e ∈ rest, Silent e) →
      wp reconcileContract (updateChainStatus mutate (n + 1)) Q (pre ++ rest) := by
    induction n with
    | zero =>
      exact fun rest hrest => spec_updateAttempt hp hb hw hm hrest herr hok
        (fun _ _ hn => absurd rfl hn)
    | succ n ih =>
      exact fun rest hrest => spec_updateAttempt hp hb hw hm hrest herr hok
        (fun rest' hrest' _ => ih rest' hrest')
  simpa using hattempts [] (by simp)

/-- The deletions after a completed chain. -/
theorem spec_deletePods {pods todo : List PodInfo} {count : ℤ} {deletions : List (Event sig)}
    {latest : Chain} {t₁ t₂ : ℤ} (hp : c.status.phase = .running) (hb : Began before c)
    (hu : Updates c before latest mutate (some (pods, count)))
    (haction : c.spec.postSnapshotAction = .deletePod) (hcount : count ≠ 0) (htodo : todo ⊆ pods)
    (hdel : ∀ e ∈ deletions, ∃ pod r, e = ⟨Op.deletePod pod, r⟩) (h : ∀ r tr', Q r tr') :
    wp reconcileContract (deletePods todo) Q
      (before ++ ⟨Op.statusUpdate (latest.mutated (mutate t₁ t₂)), UpdateReply.ok⟩ ::
        deletions) := by
  induction todo generalizing deletions with
  | nil => exact h _ _
  | cons pod rest ih =>
    obtain ⟨hpod, hrest⟩ := List.cons_subset.mp htodo
    unfold deletePods
    rw [wp_bind]
    refine spec_perform ⟨c, hb.append _, before, latest, mutate, pods, count, t₁, t₂, deletions,
      rfl, hdel, hu, hp, haction, hcount, hpod⟩ (fun r => ?_)
    have hdel' : ∀ e ∈ deletions ++ [⟨Op.deletePod pod, r⟩],
        ∃ pod r, e = ⟨Op.deletePod pod, r⟩ := by
      intro e he
      rcases List.mem_append.mp he with he | he
      · exact hdel e he
      · exact ⟨pod, r, List.mem_singleton.mp he⟩
    rw [List.append_assoc, List.cons_append]
    -- a pod that is gone counts as deleted; any other error ends the loop
    cases r with
    | failed e => exact h _ _
    | ok => exact ih hrest hdel'
    | notFound => exact ih hrest hdel'

/-- The post-snapshot action, right after the write. -/
theorem spec_executePostSnapshotAction {pods : List PodInfo} {count : ℤ} {latest : Chain}
    {t₁ t₂ : ℤ} (hp : c.status.phase = .running) (hb : Began before c)
    (hu : Updates c before latest mutate (some (pods, count))) (h : ∀ r tr', Q r tr') :
    wp reconcileContract (executePostSnapshotAction c pods count) Q
      (before ++ [⟨Op.statusUpdate (latest.mutated (mutate t₁ t₂)), UpdateReply.ok⟩]) := by
  unfold executePostSnapshotAction
  split_ifs with haction hcount
  · exact h _ _
  · exact h _ _
  · exact spec_deletePods hp hb hu (not_not.mp haction) hcount (List.Subset.refl _) (by simp) h

end Ops

/-! ### The capture round -/

/-- The round so far: the targets in `done` have been checkpointed. -/
structure Capturing (c : Chain) (tr : List (Event sig)) (listed : List PodInfo)
    (done : List Target) (round : Round) : Prop where
  began : Began tr c
  unwritten : ¬ Wrote tr
  decided : Decided tr c false
  only : ∀ pods, Listed tr pods ↔ pods = listed
  captured : Captured c round
  pods : round.newRecords.map Record.podName = done.map Target.pod
  integrity : round.integrityFailed = true ↔ ChecksumFailed tr
  unfailed : ¬ CheckpointFailed tr

/-- A checkpoint of the round failed. -/
structure Abandoned (c : Chain) (tr : List (Event sig)) (listed : List PodInfo) (msg : String) :
    Prop where
  began : Began tr c
  unwritten : ¬ Wrote tr
  decided : Decided tr c false
  only : ∀ pods, Listed tr pods ↔ pods = listed
  failed : ∃ e ∈ tr, checkpointError e = some msg

variable {e : Event sig}

section Capture
variable {tr : List (Event sig)} {c : Chain} {listed : List PodInfo} {done : List Target}
  {round : Round}

/-- A capture goes on over a silent event. -/
theorem Capturing.silent (h : Capturing c tr listed done round) (he : Silent e) :
    Capturing c (tr ++ [e]) listed done round := by
  have hsilent : ∀ x ∈ [e], Silent x := by simpa using he
  have hmute : ∀ x ∈ [e], Mute x := fun x hx => (hsilent x hx).toMute
  refine ⟨h.began.append _, ?_, h.decided.append _, fun pods => ?_, h.captured, h.pods, ?_, ?_⟩
  · rw [wrote_append hsilent]
    exact h.unwritten
  · rw [listed_append hmute]
    exact h.only pods
  · rw [checksumFailed_append hmute]
    exact h.integrity
  · rw [checkpointFailed_append hmute]
    exact h.unfailed

/-- A checkpoint that fails ends the round. -/
theorem Capturing.abandon (h : Capturing c tr listed done round)
    (ns pod container node msg : String) :
    Abandoned c (tr ++ [⟨Op.createCheckpoint ns pod container node,
      (.error msg : Except String String)⟩]) listed msg := by
  refine ⟨h.began.append _, ?_, h.decided.append _, fun pods => ?_, ?_⟩
  · rw [Wrote, exists_mem_snoc, not_or]
    exact ⟨h.unwritten, by simp [written]⟩
  · rw [← h.only pods, Listed, exists_mem_snoc]
    exact ⟨fun hl => hl.resolve_right (by simp [listing]), Or.inl⟩
  · exact exists_mem_snoc.mpr (Or.inr rfl)

/-- A checkpoint that is recorded without a checksum, or with one. -/
theorem Capturing.record (h : Capturing c tr listed done round) {round' : Round} {target : Target}
    {record : Record} (hcaptured : Captured c round')
    (hrecords : round'.newRecords = round.newRecords ++ [record])
    (hpod : record.podName = target.pod)
    (hintegrity : round'.integrityFailed = round.integrityFailed) :
    Capturing c tr listed (done ++ [target]) round' := by
  refine ⟨h.began, h.unwritten, h.decided, h.only, hcaptured, ?_, ?_, h.unfailed⟩
  · rw [hrecords, List.map_append, List.map_append, h.pods, List.map_singleton, List.map_singleton,
      hpod]
  · rw [hintegrity]
    exact h.integrity

/-- A checkpoint whose checksum could not be computed. -/
theorem Capturing.recordFailed (h : Capturing c tr listed done round) {target : Target}
    {record : Record} {hashErr node path : String} {r : Except String Logs}
    (hcaptured : Captured c (round.addFailed record hashErr)) (hpod : record.podName = target.pod)
    (hfailed : checksumFailed ⟨Op.helperLogs ns node path, r⟩ = true) :
    Capturing c (tr ++ [⟨Op.helperLogs ns node path, r⟩]) listed (done ++ [target])
      (round.addFailed record hashErr) := by
  refine ⟨h.began.append _, ?_, h.decided.append _, fun pods => ?_, hcaptured, ?_, ?_, ?_⟩
  · rw [Wrote, exists_mem_snoc, not_or]
    exact ⟨h.unwritten, by simp [written]⟩
  · rw [← h.only pods, Listed, exists_mem_snoc]
    exact ⟨fun hl => hl.resolve_right (by simp [listing]), Or.inl⟩
  · show (round.newRecords ++ [record]).map Record.podName = _
    rw [List.map_append, List.map_append, h.pods, List.map_singleton, List.map_singleton, hpod]
  · rw [ChecksumFailed, exists_mem_snoc]
    exact ⟨fun _ => Or.inr hfailed, fun _ => rfl⟩
  · rw [CheckpointFailed, exists_mem_snoc, not_or]
    exact ⟨h.unfailed, by simp [checkpointError]⟩

/-- The step lemma of the loop. -/
theorem spec_captureContainer (h : Capturing c tr listed done round) (target : Target)
    {Q : Except String Round → List (Event sig) → Prop}
    (herr : ∀ msg tr', Abandoned c tr' listed msg → Q (.error msg) tr')
    (hok : ∀ round' tr', Capturing c tr' listed (done ++ [target]) round' → Q (.ok round') tr') :
    wp reconcileContract (captureContainer c round target) Q tr := by
  unfold captureContainer
  rw [wp_bind]
  refine spec_perform h.unwritten (fun r => ?_)
  cases r with
  | error msg => exact herr msg _ (h.abandon _ _ _ _ msg)
  | ok path =>
    have h₁ := h.silent
      (silent_createCheckpoint c.spec.ns target.pod target.container target.node path)
    dsimp only
    rw [wp_bind]
    refine spec_now h₁.unwritten (fun t => ?_)
    have h₂ := h₁.silent (silent_now t)
    set record := newRecord c round target path t with hrecord
    have hpod : record.podName = target.pod := rfl
    by_cases hhash : hashingEnabled c = true
    · -- the record is kept even if its checksum fails
      simp only [hhash, if_true]
      rw [wp_bind]
      refine spec_computeChecksum h₂.unwritten (fun e r hfailed => ?_)
        (fun hash r hne hsilent => ?_)
      · exact hok _ _
          (h₂.recordFailed (.addFailed h.captured hhash target path t e) hpod hfailed)
      · exact hok _ _ ((h₂.silent hsilent).record
          (.addHashed h.captured hhash target path t hne) rfl hpod rfl)
    · simp only [hhash, if_false, Bool.false_eq_true]
      exact hok _ _ (h₂.record (.add h.captured (by simpa using hhash) target path t) rfl hpod rfl)

/-- The run lemma of the loop. -/
theorem spec_captureRound (ts : List Target) (h : Capturing c tr listed done round)
    {Q : Except String Round → List (Event sig) → Prop}
    (herr : ∀ msg tr', Abandoned c tr' listed msg → Q (.error msg) tr')
    (hok : ∀ round' tr', Capturing c tr' listed (done ++ ts) round' → Q (.ok round') tr') :
    wp reconcileContract (captureRound c ts round) Q tr := by
  induction ts generalizing tr done round with
  | nil => exact hok round tr (by simpa using h)
  | cons target rest ih =>
    unfold captureRound
    rw [wp_bind]
    refine spec_captureContainer h target herr (fun round' tr' h' => ih h' (fun r tr'' hr => ?_))
    exact hok r tr'' (by simpa using hr)

end Capture

/-! ### Reconcile -/

section Reconcile
variable {tr : List (Event sig)} {c : Chain}

/-- A status update of a running chain, and what follows it. -/
theorem spec_update (hp : c.status.phase = .running) (hb : Began tr c) (hw : ¬ Wrote tr)
    (hm : Mutation c tr mutate after) {f : Option String → Prog sig Outcome}
    (herr : ∀ e tr', wp reconcileContract (f (some e)) (fun _ _ => True) tr')
    (hok : ∀ before latest t₁ t₂, Began before c → Updates c before latest mutate after →
      wp reconcileContract (f none) (fun _ _ => True)
        (before ++ [⟨Op.statusUpdate (latest.mutated (mutate t₁ t₂)), UpdateReply.ok⟩])) :
    wp reconcileContract (updateChainStatus mutate defaultRetrySteps >>= f)
      (fun _ _ => True) tr := by
  rw [wp_bind]
  exact spec_updateChainStatus 4 hp hb hw hm herr hok

/-- A due capture round. -/
theorem spec_capture (hp : c.status.phase = .running) (hs : supported c) (ho : Open c tr none)
    (hd : Decided tr c false) :
    wp reconcileContract (capture c) (fun _ _ => True) tr := by
  unfold capture
  rw [wp_bind]
  refine spec_getMatchingPods ho (fun e tr' => trivial) (fun listed r ho' => ?_)
  dsimp only
  -- nothing is captured yet
  have hstart : Capturing c (tr ++ [r]) listed [] (Round.start c) := by
    refine ⟨ho'.began, ho'.unwritten, hd.append _, fun pods => ?_, .start, rfl, ?_, ho'.unfailed⟩
    · rw [ho'.only, Option.some.injEq, eq_comm]
    · exact ⟨fun h => absurd h (by simp [Round.start]), fun h => absurd h ho'.unchecked⟩
  rw [wp_bind]
  refine spec_captureRound _ hstart (fun msg tr₁ h => ?_) (fun round tr₁ h => ?_)
  · -- a checkpoint failed
    show wp reconcileContract (finishFailed c msg) _ _
    unfold finishFailed
    refine spec_update hp h.began h.unwritten (.roundFailed hs h.decided h.only h.failed)
      (fun _ _ => trivial) (fun before latest t₁ t₂ _ _ => ?_)
    dsimp only
    split_ifs
    · exact trivial
    · exact trivial
  · -- the round is over, and the chain with it or not
    show wp reconcileContract (finishRound c (listed.filter PodInfo.running) round) _ _
    unfold finishRound
    rw [wp_bind]
    refine spec_now h.unwritten (fun t => ?_)
    have h' := h.silent (silent_now t)
    have hrounded : Rounded c (tr₁ ++ [⟨Op.now, t⟩]) listed round :=
      ⟨h'.only, h'.captured, by simpa using h'.pods, h'.integrity, h'.unfailed⟩
    cases hcomp : completion c round.captured with
    | some rm =>
      obtain ⟨reason, message⟩ := rm
      refine spec_update hp h'.began h'.unwritten (.roundDone hs h'.decided hrounded t hcomp)
        (fun _ _ => trivial) (fun before latest t₁ t₂ hb hu => ?_)
      rw [wp_bind]
      exact spec_executePostSnapshotAction hp hb hu (fun _ _ => trivial)
    | none =>
      exact spec_update hp h'.began h'.unwritten (.roundContinue hs h'.decided hrounded t hcomp)
        (fun _ _ => trivial) (fun _ _ _ _ _ _ => trivial)

/-- The clock is read for the first time. -/
theorem spec_maxDurationElapsed (ho : Open c tr none) (hclock : firstClock tr = none)
    {Q : Bool → List (Event sig) → Prop}
    (h : ∀ elapsed tr', Open c tr' none → Decided tr' c elapsed → Q elapsed tr') :
    wp reconcileContract (maxDurationElapsed c) Q tr := by
  unfold maxDurationElapsed
  split
  · rename_i maxDuration startTime hmax hstart
    rw [wp_bind]
    refine spec_now ho.unwritten (fun t => h _ _ (ho.silent (silent_now t)) ?_)
    refine (decided_of_limit hmax hstart _).mpr ⟨t, ?_, rfl⟩
    unfold firstClock at hclock ⊢
    rw [List.findSome?_append, hclock]
    rfl
  · rename_i hnone
    refine h _ _ ho ((decided_of_none ?_ _).mpr rfl)
    rcases limit_cases c with ⟨maxDuration, startTime, hmax, hstart⟩ | hnone'
    · exact absurd hstart (hnone maxDuration startTime hmax)
    · exact hnone'

/-- The maximum duration has passed. -/
theorem spec_stopAtMaxDuration (hp : c.status.phase = .running) (hs : supported c)
    (ho : Open c tr none) (hd : Decided tr c true) :
    wp reconcileContract (stopAtMaxDuration c) (fun _ _ => True) tr := by
  -- the pods are listed only if they are to be deleted
  have hfinish : ∀ {tr' : List (Event sig)} {listed : Option (List PodInfo)} {pods : List PodInfo},
      Open c tr' listed → Decided tr' c true →
      (c.spec.postSnapshotAction = .deletePod →
        ∃ all, listed = some all ∧ pods = all.filter PodInfo.running) →
      wp reconcileContract (finishMaxDuration c pods) (fun _ _ => True) tr' := by
    intro tr' listed pods ho' hd' hpods
    have hm : Mutation c tr' Status.maxDurationReached (some (pods, c.status.snapshotCount)) := by
      refine .maxDuration hs hd' ho'.unfailed (fun haction => ?_)
      obtain ⟨all, rfl, hall⟩ := hpods haction
      exact ⟨all, fun pods' => by rw [ho'.only, Option.some.injEq, eq_comm], hall⟩
    unfold finishMaxDuration
    refine spec_update hp ho'.began ho'.unwritten hm (fun _ _ => trivial)
      (fun before latest t₁ t₂ hb hu => ?_)
    rw [wp_bind]
    exact spec_executePostSnapshotAction hp hb hu (fun _ _ => trivial)
  unfold stopAtMaxDuration podsToDelete
  rw [wp_bind]
  split_ifs with haction
  · refine spec_getMatchingPods ho (fun e tr' => trivial) (fun listed r ho' => ?_)
    exact hfinish ho' (hd.append _) (fun _ => ⟨listed, rfl, rfl⟩)
  · exact hfinish ho hd (fun h => absurd h haction)

/-- A round that is not due waits, a due one captures. -/
theorem spec_captureWhenDue (hp : c.status.phase = .running) (hs : supported c)
    (ho : Open c tr none) (hd : Decided tr c false) :
    wp reconcileContract (captureWhenDue c) (fun _ _ => True) tr := by
  unfold captureWhenDue waitForInterval
  rw [wp_bind]
  cases c.status.lastSnapshotTime with
  | none => exact spec_capture hp hs ho hd
  | some last =>
    dsimp only
    rw [wp_bind]
    refine spec_now ho.unwritten (fun t => ?_)
    split_ifs
    · exact trivial
    · exact spec_capture hp hs (ho.silent (silent_now t)) (hd.append _)

/-- The `Running` phase. -/
theorem spec_reconcileRunning (hp : c.status.phase = .running) (ho : Open c tr none)
    (hclock : firstClock tr = none) :
    wp reconcileContract (reconcileRunning c) (fun _ _ => True) tr := by
  unfold reconcileRunning
  split_ifs with hu
  · exact spec_update hp ho.began ho.unwritten (.unsupported (not_not.mpr hu) ho.unfailed)
      (fun _ _ => trivial) (fun _ _ _ _ _ _ => trivial)
  · rw [wp_bind]
    refine spec_maxDurationElapsed ho hclock (fun elapsed tr' ho' hd => ?_)
    cases elapsed with
    | true => exact spec_stopAtMaxDuration hp hu ho' hd
    | false => exact spec_captureWhenDue hp hu ho' hd

/-- A phase change goes to the version that was read. -/
theorem spec_writeDirectly {st : Status} (ho : Open c tr none)
    (hw : Writes c tr { c with status := st }) :
    wp reconcileContract (writeDirectly c st) (fun _ _ => True) tr := by
  unfold writeDirectly
  rw [wp_bind]
  refine spec_perform ⟨ho.unwritten, c, ho.began, hw⟩ (fun r => ?_)
  cases r <;> exact trivial

end Reconcile

/-- **Every operation of a reconcile is justified by its trace.** -/
theorem reconcile_specified : wp reconcileContract reconcile (fun _ _ => True) [] := by
  have hunwritten : ¬ Wrote [] := by
    rintro ⟨e, he, -⟩
    exact absurd he (by simp)
  unfold reconcile
  rw [wp_bind]
  refine spec_perform hunwritten (fun r => ?_)
  cases r with
  | notFound => exact trivial
  | failed e => exact trivial
  | found c =>
    have ho : Open c ([] ++ [⟨Op.get, GetReply.found c⟩]) none := by
      refine ⟨⟨[], rfl⟩, ?_, fun pods => ?_, ?_, ?_⟩ <;>
        simp [Wrote, Listed, CheckpointFailed, ChecksumFailed, written, listing, checkpointError,
          checksumFailed]
    show wp reconcileContract (reconcilePhase c) _ _
    unfold reconcilePhase
    cases hp : c.status.phase with
    | completed => exact trivial
    | failed => exact trivial
    | other s => exact trivial
    | running => exact spec_reconcileRunning hp ho rfl
    -- the two phase changes write the version that was read
    | empty =>
      dsimp only
      rw [wp_bind]
      refine spec_now ho.unwritten (fun t₁ => ?_)
      have ho₁ := ho.silent (silent_now t₁)
      rw [wp_bind]
      refine spec_now ho₁.unwritten (fun t₂ => ?_)
      have ho₂ := ho₁.silent (silent_now t₂)
      exact spec_writeDirectly ho₂ (.toPending hp ho₂.unfailed t₁ t₂)
    | pending =>
      dsimp only
      rw [wp_bind]
      refine spec_now ho.unwritten (fun t₁ => ?_)
      have ho₁ := ho.silent (silent_now t₁)
      exact spec_writeDirectly ho₁ (.toRunning hp ho₁.unfailed t₁)

/-- Each operation of a run was justified when it was issued. -/
theorem specified_of_runs {σ : Type} {act : (op : sig.Op) → σ → sig.Reply op → σ → Prop}
    {s s' : σ} {tr : List (Event sig)} {o : Outcome} (h : Runs act reconcile s tr o s')
    {post : List (Event sig)} (htr : tr = pre ++ e :: post) : Specified pre e.op :=
  pre_of_mem_unfolds reconcile_specified h.unfolds (fun _ _ => trivial) htr

/-- A write is not followed by anything but deletions. -/
theorem deletions_of_runs {σ : Type} {act : (op : sig.Op) → σ → sig.Reply op → σ → Prop}
    {s s' : σ} {tr : List (Event sig)} {o : Outcome} (h : Runs act reconcile s tr o s')
    {post : List (Event sig)} (htr : tr = before ++ e :: post) (he : (written e).isSome) :
    ∀ x ∈ post, ∃ pod r, x = ⟨Op.deletePod pod, r⟩ := by
  intro x hx
  obtain ⟨post₁, post₂, rfl⟩ := List.append_of_mem hx
  have hsplit : tr = (before ++ e :: post₁) ++ x :: post₂ := by rw [htr]; simp
  have hspec := specified_of_runs h hsplit
  have hwrote : Wrote (before ++ e :: post₁) := ⟨e, by simp, he⟩
  obtain ⟨op, r⟩ := x
  cases op with
  | deletePod pod => exact ⟨pod, r, rfl⟩
  | statusUpdate new => exact absurd hwrote hspec.1
  | _ => exact absurd hwrote hspec

/-! ### Completion -/

section Completion
variable {c : Chain} {round : Round}

/-- The two limits on a chain with `maxSnapshots`. -/
theorem completion_eq (round : Round) {limit : ℤ}
    (hmax : c.spec.capture.maxSnapshots = some limit) :
    ∃ message₁ message₂, completion c round.captured
      = if limit ≤ countAfter c round then some ("MaxSnapshotsReached", message₁)
        else if round.captured = 0 ∧ c.spec.capture.maxDuration = none ∧
            limit ≤ wrap32 (c.status.attemptCount + 1) then some ("NoMatchingPods", message₂)
        else none :=
  ⟨_, _, by unfold completion countAfter; rw [hmax]⟩

/-- The reasons of completion. -/
theorem completion_reason {reason message : String}
    (h : completion c round.captured = some (reason, message)) :
    ∃ limit, c.spec.capture.maxSnapshots = some limit ∧
      (reason = "MaxSnapshotsReached" ∧ limit ≤ countAfter c round ∨
        reason = "NoMatchingPods" ∧ countAfter c round < limit ∧
          c.spec.capture.maxDuration = none ∧ limit ≤ wrap32 (c.status.attemptCount + 1)) := by
  cases hmax : c.spec.capture.maxSnapshots with
  | none => exact absurd h (by simp [completion, hmax])
  | some limit =>
    refine ⟨limit, rfl, ?_⟩
    obtain ⟨message₁, message₂, heq⟩ := completion_eq round hmax
    rw [heq] at h
    split_ifs at h with hreached hempty
    · rw [Option.some.injEq, Prod.mk.injEq] at h
      exact Or.inl ⟨h.1.symm, hreached⟩
    · rw [Option.some.injEq, Prod.mk.injEq] at h
      exact Or.inr ⟨h.1.symm, not_le.mp hreached, hempty.2⟩

/-- A round that does not complete the chain stays below the limit. -/
theorem countAfter_lt_of_completion (h : completion c round.captured = none) {limit : ℤ}
    (hmax : c.spec.capture.maxSnapshots = some limit) : countAfter c round < limit := by
  obtain ⟨message₁, message₂, heq⟩ := completion_eq round hmax
  rw [heq] at h
  by_contra hge
  rw [if_pos (not_lt.mp hge)] at h
  exact absurd h (by simp)

end Completion

end CheckpointRestore.Forensic
