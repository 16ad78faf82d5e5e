import CheckpointRestore.Lib.Retry
import CheckpointRestore.Retention.Policy

namespace CheckpointRestore.Retention

open Interaction

/-!
# `handleWriteFinished` — one evaluation of a finished write

When an archive has not been written to for a while, the collector reads whose checkpoint it is and
applies the policies to it.  The archive may still be incomplete, so the read is tried again a few
times; the collector may be stopped meanwhile, so the context is looked at before every read, while
waiting, and before the policies are applied.

* `WriteOp` — what the handler asks of its context, the reader, a timer and the applier;
* `handleWriteFinishedWithReader` — the handler;
* `WriteOp.act` — a context that may be cancelled at any time, and stays cancelled;
* `readAttempts_spec` — the loop reads only after failed reads, right after a look at the context;
* `finished_write_once` — the policies are applied at most once, with what the first successful
  read returned, and not after a cancellation that could be seen.
-/

/-! ### The outside world -/

/-- What the handler asks of others: `ctx.Err`, the reader, the end of a wait, and the applier.
    The details are a pointer, which may be nil. -/
inductive WriteOp where
  | ctxErr
  | read (path : String)
  | wait (delay : ℤ)
  | apply (details : Option CheckpointDetails)

/-- The answers: the context's error, what the reader returns, and, for a wait, nothing if the timer
    fired and the context's error if its `Done` was received. -/
def writeSig : Signature where
  Op := WriteOp
  Reply
    | .ctxErr => Option String
    | .read _ => Option CheckpointDetails × Option String
    | .wait _ => Option String
    | .apply _ => Unit

namespace Write

/-- `ctx.Err`. -/
def ctxErr : Prog writeSig (Option String) := .perform (S := writeSig) WriteOp.ctxErr

/-- A call of the `checkpointArchiveReader`. -/
def read (path : String) : Prog writeSig (Option CheckpointDetails × Option String) :=
  .perform (S := writeSig) (WriteOp.read path)

/-- The `select` over a timer and the context. -/
def wait (delay : ℤ) : Prog writeSig (Option String) :=
  .perform (S := writeSig) (WriteOp.wait delay)

/-- A call of the `checkpointPolicyApplier`. -/
def apply (details : Option CheckpointDetails) : Prog writeSig Unit :=
  .perform (S := writeSig) (WriteOp.apply details)

end Write

/-! ### The handler -/

/-- The loop of `readCheckpointArchiveInformationWithRetry`, by how many attempts are left.  The
    error is the variable that is returned behind the loop; the errors of the context have
    variables of their own. -/
def readAttempts (path : String) (retryDelay : ℤ) :
    ℕ → Option String → Prog writeSig (Option CheckpointDetails × Option String)
  | 0, err => return (none, err)
  | left + 1, _ => do
    match ← Write.ctxErr with
    | some err => return (none, some ("checkpoint archive metadata read canceled: " ++ err))
    | none =>
      match ← Write.read path with
      | (details, none) => return (details, none)
      | (_, some err) =>
        -- the last attempt breaks out of the loop
        if left = 0 then return (none, some err)
        else if retryDelay ≤ 0 then readAttempts path retryDelay left (some err)
        else match ← Write.wait retryDelay with
          | none => readAttempts path retryDelay left (some err)
          | some err =>
            return (none, some ("waiting to retry checkpoint archive metadata read: " ++ err))

/-- `readCheckpointArchiveInformationWithRetry`. -/
def readCheckpointArchiveInformationWithRetry (path : String) (maxAttempts retryDelay : ℤ) :
    Prog writeSig (Option CheckpointDetails × Option String) :=
  let maxAttempts := if maxAttempts < 1 then 1 else maxAttempts
  readAttempts path retryDelay maxAttempts.toNat none

/-- `handleWriteFinishedWithReader`. -/
def handleWriteFinishedWithReader (path : String) (maxAttempts retryDelay : ℤ) :
    Prog writeSig Unit := do
  match ← readCheckpointArchiveInformationWithRetry path maxAttempts retryDelay with
  | (_, some _) =>
    -- the context only decides what is logged
    let _ ← Write.ctxErr
    return ()
  | (details, none) =>
    match ← Write.ctxErr with
    | some _ => return ()
    | none => Write.apply details

/-- `checkpointArchiveReadAttempts`. -/
def checkpointArchiveReadAttempts : ℤ := 3

/-- `checkpointArchiveReadRetryDelay`, in nanoseconds. -/
def checkpointArchiveReadRetryDelay : ℤ := 2 * 1000000000

/-- `handleWriteFinished`. -/
def handleWriteFinished (path : String) : Prog writeSig Unit :=
  handleWriteFinishedWithReader path checkpointArchiveReadAttempts checkpointArchiveReadRetryDelay

/-! ### The context -/

/-- The context's error may appear at any time, and stays. -/
def Later (s s' : Option String) : Prop := s = none ∨ s' = s

/-- The answers, over the context's error.  Before and during every operation the context may be
    cancelled; the reader returns anything; a wait may end by its timer even if the context is
    cancelled by then. -/
def WriteOp.act : (op : writeSig.Op) → Option String → writeSig.Reply op → Option String → Prop
  | .ctxErr, s, r, s' => Later s s' ∧ r = s'
  | .read _, s, _, s' => Later s s'
  | .wait _, s, r, s' => Later s s' ∧ (r = none ∨ r = s')
  | .apply _, s, _, s' => Later s s'

theorem Later.trans {s₁ s₂ s₃ : Option String} (h : Later s₁ s₂) (h' : Later s₂ s₃) :
    Later s₁ s₃ := by
  rcases h with rfl | rfl
  · exact .inl rfl
  · exact h'

/-- Every operation lets time pass. -/
theorem WriteOp.act_later {op : writeSig.Op} {s s' : Option String} {r : writeSig.Reply op}
    (h : WriteOp.act op s r s') : Later s s' := by
  cases op with
  | ctxErr => exact h.1
  | read path => exact h
  | wait delay => exact h.1
  | apply details => exact h

/-! ### What the handler does -/

/-- What the reader returned, if the event is a read. -/
def readOutcome : Event writeSig → Option (Option CheckpointDetails × Option String)
  | ⟨.read _, r⟩ => some r
  | _ => none

/-- The details that the policies are applied to, if the event is that. -/
def appliedTo : Event writeSig → Option (Option CheckpointDetails)
  | ⟨.apply details, _⟩ => some details
  | _ => none

/-- What the reads of a run returned, in order. -/
def reads (tr : List (Event writeSig)) : List (Option CheckpointDetails × Option String) :=
  tr.filterMap readOutcome

/-- What the policies were applied to in a run. -/
def applications (tr : List (Event writeSig)) : List (Option CheckpointDetails) :=
  tr.filterMap appliedTo

/-- The read returned an error. -/
def ReadFailed (r : Option CheckpointDetails × Option String) : Prop := r.2 ≠ none

/-- No read has succeeded, and nothing was applied. -/
structure Unsuccessful (tr : List (Event writeSig)) : Prop where
  failed : ∀ r ∈ reads tr, ReadFailed r
  unapplied : applications tr = []

/-- The contract of the handler: at most `n` reads, each after failed ones, and right after a look
    at the context. -/
def writeContract (n : ℕ) : Contract writeSig (List (Event writeSig)) :=
  traceContract (fun tr op => RetryAllowed readOutcome ReadFailed n tr op ∧
    ∀ path, op = .read path → tr.getLast? = some ⟨.ctxErr, none⟩) (fun _ => True)

/-- What the loop leaves: the read that succeeded is the last event, or none has succeeded. -/
def ReadEnd (path : String) (r : Option CheckpointDetails × Option String)
    (tr : List (Event writeSig)) : Prop :=
  match r with
  | (details, none) =>
    ∃ tr₀, tr = tr₀ ++ [⟨.read path, (details, none)⟩] ∧ Unsuccessful tr₀
  | (_, some _) => Unsuccessful tr

section Spec
variable {n : ℕ} {path : String} {tr : List (Event writeSig)}

theorem reads_read (r : Option CheckpointDetails × Option String) :
    reads (tr ++ [⟨.read path, r⟩]) = reads tr ++ [r] :=
  List.filterMap_append

/-- An event that neither reads nor applies changes nothing. -/
theorem Unsuccessful.other (h : Unsuccessful tr) {e : Event writeSig} (hread : readOutcome e = none)
    (hap : appliedTo e = none) : Unsuccessful (tr ++ [e]) := by
  refine ⟨?_, (filterMap_snoc_none tr hap).trans h.unapplied⟩
  rw [reads, filterMap_snoc_none tr hread]
  exact h.failed

/-- Nor does a failed read. -/
theorem Unsuccessful.read (h : Unsuccessful tr) (details : Option CheckpointDetails)
    (err : String) : Unsuccessful (tr ++ [⟨.read path, (details, some err)⟩]) := by
  refine ⟨?_, ?_⟩
  · rw [reads_read]
    intro r hr
    rcases List.mem_append.mp hr with hr | hr
    · exact h.failed r hr
    · rw [List.mem_singleton.mp hr]
      exact Option.some_ne_none err
  · exact (filterMap_snoc_none tr rfl).trans h.unapplied

/-- Other operations than reads are always allowed. -/
theorem writeContract_pre {op : writeSig.Op} (hop : ∀ r, readOutcome ⟨op, r⟩ = none) :
    (writeContract n).pre op tr := by
  refine ⟨?_, ?_⟩
  · rintro ⟨r, hr⟩
    rw [hop r] at hr
    exact absurd hr (by simp)
  · rintro path rfl
    exact absurd (hop (none, none)) (by simp [readOutcome])

/-- Before an attempt: enough attempts are allowed, and nothing has succeeded. -/
structure Reading (n left : ℕ) (tr : List (Event writeSig)) : Prop extends Unsuccessful tr where
  count : (reads tr).length + left ≤ n

/-- An event that neither reads nor applies takes no attempt. -/
theorem Reading.other {left : ℕ} (h : Reading n left tr) {e : Event writeSig}
    (hread : readOutcome e = none) (hap : appliedTo e = none) :
    Reading n left (tr ++ [e]) := by
  refine ⟨h.toUnsuccessful.other hread hap, ?_⟩
  rw [reads, filterMap_snoc_none tr hread]
  exact h.count

/-- A failed read takes one. -/
theorem Reading.read {left : ℕ} (h : Reading n (left + 1) tr)
    (details : Option CheckpointDetails) (err : String) :
    Reading n left (tr ++ [⟨.read path, (details, some err)⟩]) := by
  refine ⟨h.toUnsuccessful.read details err, ?_⟩
  have hcount := h.count
  rw [reads_read, List.length_append, List.length_singleton]
  omega

/-- One round of the loop, given what the rounds after it do. -/
theorem readAttempt_spec (retryDelay : ℤ) {left : ℕ} (err : Option String)
    (h : Reading n (left + 1) tr)
    (hrest : left ≠ 0 → ∀ {tr} err, Reading n left tr →
      wp (writeContract n) (readAttempts path retryDelay left err) (ReadEnd path) tr) :
    wp (writeContract n) (readAttempts path retryDelay (left + 1) err) (ReadEnd path) tr := by
  rw [readAttempts, wp_bind]
  refine ⟨writeContract_pre (fun _ => rfl), ?_⟩
  rintro (c : Option String) tr₁ ⟨-, rfl⟩
  have hlooked : Reading n (left + 1) (tr ++ [⟨.ctxErr, c⟩]) := h.other rfl rfl
  cases c with
  | some cancelled => exact hlooked.toUnsuccessful
  | none =>
    -- the context was not cancelled, so the archive is read, one read of the count being left
    have hlast : (tr ++ [⟨WriteOp.ctxErr, none⟩] : List (Event writeSig)).getLast? =
        some ⟨.ctxErr, none⟩ := List.getLast?_concat
    have hlt : (reads (tr ++ [⟨.ctxErr, none⟩])).length < n := by
      have hcount := hlooked.count
      omega
    show wp _ (Write.read path >>= _) _ _
    rw [wp_bind]
    refine ⟨⟨fun _ => ⟨hlt, hlooked.failed⟩, fun _ _ => hlast⟩, ?_⟩
    rintro ⟨details, readErr⟩ tr₂ ⟨-, rfl⟩
    cases readErr with
    | none => exact ⟨_, rfl, hlooked.toUnsuccessful⟩
    | some readErr =>
      have hfailed : Reading n left (tr ++ [⟨.ctxErr, none⟩] ++
          [⟨.read path, (details, some readErr)⟩]) := hlooked.read details readErr
      -- the read failed: the count is used up, or the next turn comes, after a delay if one is set
      show wp _ (if left = 0 then _ else if retryDelay ≤ 0 then _ else _) _ _
      split_ifs with hzero hdelay
      · exact hfailed.toUnsuccessful
      · exact hrest hzero _ hfailed
      · rw [wp_bind]
        refine ⟨writeContract_pre (fun _ => rfl), ?_⟩
        rintro (w : Option String) tr₃ ⟨-, rfl⟩
        have hwaited := hfailed.other (e := ⟨.wait retryDelay, w⟩) rfl rfl
        cases w with
        | none => exact hrest hzero _ hwaited
        | some cancelled => exact hwaited.toUnsuccessful

/-- **The loop.**  It reads only after failed reads, each time right after a look at the context,
    and returns the details of a read exactly if that was the last thing it did. -/
theorem readAttempts_spec (retryDelay : ℤ) {left : ℕ} (hleft : left ≠ 0) (err : Option String)
    (h : Reading n left tr) :
    wp (writeContract n) (readAttempts path retryDelay left err) (ReadEnd path) tr :=
  wp_countdown (fun err hnext hrest => readAttempt_spec retryDelay err hnext hrest) hleft err h

/-- How a run of the handler ends: without a successful read, or with one and a look at the
    context, after which the policies are applied if the context was not cancelled. -/
inductive Ending (path : String) : List (Event writeSig) → Prop
  | unread {tr : List (Event writeSig)} (h : Unsuccessful tr) (c : Option String) :
      Ending path (tr ++ [⟨.ctxErr, c⟩])
  | stopped {tr : List (Event writeSig)} (h : Unsuccessful tr)
      (details : Option CheckpointDetails) (err : String) :
      Ending path (tr ++ [⟨.read path, (details, none)⟩, ⟨.ctxErr, some err⟩])
  | applied {tr : List (Event writeSig)} (h : Unsuccessful tr)
      (details : Option CheckpointDetails) :
      Ending path (tr ++ [⟨.read path, (details, none)⟩, ⟨.ctxErr, none⟩, ⟨.apply details, ()⟩])

/-- The whole handler. -/
theorem handleWriteFinishedWithReader_spec (path : String) (maxAttempts retryDelay : ℤ) :
    wp (writeContract (max 1 maxAttempts).toNat)
      (handleWriteFinishedWithReader path maxAttempts retryDelay)
        (fun _ tr => Ending path tr) [] := by
  have hclamp : (if maxAttempts < 1 then 1 else maxAttempts) = max 1 maxAttempts := by
    split_ifs <;> omega
  have hpos : (max 1 maxAttempts).toNat ≠ 0 := by omega
  have hstart : Reading (max 1 maxAttempts).toNat (max 1 maxAttempts).toNat [] :=
    ⟨⟨fun r hr => absurd hr List.not_mem_nil, rfl⟩, le_of_eq (Nat.zero_add _)⟩
  -- what the loop guarantees at its end is what the handler goes on from
  rw [handleWriteFinishedWithReader, wp_bind, readCheckpointArchiveInformationWithRetry, hclamp]
  refine wp_mono ?_ (readAttempts_spec retryDelay hpos none hstart)
  rintro ⟨details, readErr⟩ tr hend
  cases readErr with
  | some readErr =>
    show wp _ (Write.ctxErr >>= _) _ _
    rw [wp_bind]
    refine ⟨writeContract_pre (fun _ => rfl), ?_⟩
    rintro (c : Option String) tr₁ ⟨-, rfl⟩
    exact .unread hend c
  | none =>
    obtain ⟨tr, rfl, hbefore⟩ := hend
    show wp _ (Write.ctxErr >>= _) _ _
    rw [wp_bind]
    refine ⟨writeContract_pre (fun _ => rfl), ?_⟩
    rintro (c : Option String) tr₁ ⟨-, rfl⟩
    cases c with
    | some err =>
      rw [List.append_assoc]
      exact .stopped hbefore details err
    | none =>
      refine ⟨writeContract_pre (fun _ => rfl), ?_⟩
      rintro (_ : Unit) tr₂ ⟨-, rfl⟩
      rw [List.append_assoc, List.append_assoc]
      exact .applied hbefore details

/-- A read is not among events whose reads returned something else. -/
theorem not_mem_of_reads {r : Option CheckpointDetails × Option String} (h : r ∉ reads tr) :
    (⟨.read path, r⟩ : Event writeSig) ∉ tr := by
  intro hmem
  exact h (List.mem_filterMap.mpr ⟨_, hmem, rfl⟩)

/-- A successful read is not among unsuccessful events. -/
theorem Unsuccessful.not_mem (h : Unsuccessful tr) (details : Option CheckpointDetails) :
    (⟨.read path, (details, none)⟩ : Event writeSig) ∉ tr :=
  not_mem_of_reads (fun hmem => h.failed _ hmem rfl)

/-- What is applied is applied behind the unsuccessful events. -/
theorem Unsuccessful.applications_append (h : Unsuccessful tr) (rest : List (Event writeSig)) :
    applications (tr ++ rest) = applications rest := by
  rw [applications, List.filterMap_append, ← applications, h.unapplied]
  rfl

/-- The policies are applied at most once. -/
theorem Ending.applications_length_le (h : Ending path tr) : (applications tr).length ≤ 1 := by
  cases h with
  | unread h c => exact h.applications_append [_] ▸ Nat.zero_le 1
  | stopped h details err => exact h.applications_append [_, _] ▸ Nat.zero_le 1
  | applied h details => exact h.applications_append [_, _, _] ▸ le_refl 1

/-- The policies are applied to what the first successful read returned, if the context was not
    cancelled at the look after it. -/
theorem Ending.mem_applications_iff (h : Ending path tr) (details : Option CheckpointDetails) :
    details ∈ applications tr ↔ ∃ before after,
      tr = before ++ ⟨.read path, (details, none)⟩ :: ⟨.ctxErr, none⟩ :: after ∧
        ∀ r ∈ reads before, ReadFailed r := by
  constructor
  · intro hmem
    cases h with
    | unread h c =>
      rw [h.applications_append] at hmem
      exact absurd hmem List.not_mem_nil
    | stopped h details' err =>
      rw [h.applications_append] at hmem
      exact absurd hmem List.not_mem_nil
    | applied h details' =>
      rw [h.applications_append] at hmem
      obtain rfl : details = details' := List.mem_singleton.mp hmem
      exact ⟨_, _, rfl, h.failed⟩
  · rintro ⟨before, after, heq, -⟩
    -- the read that succeeded is the only one, so the two ways to split the run agree
    cases h with
    | @unread tr h c =>
      have hout : (⟨.read path, (details, none)⟩ : Event writeSig) ∉ tr ++ [⟨.ctxErr, c⟩] :=
        (h.other rfl rfl).not_mem details
      refine absurd ?_ hout
      rw [heq]
      exact List.mem_append_right _ List.mem_cons_self
    | @stopped tr h details' err =>
      obtain ⟨-, -, hrest⟩ := (List.append_cons_inj_of_notMem (h.not_mem details)
        (not_mem_of_reads (by simp [reads, readOutcome]))).mp heq
      have hlook : (⟨.ctxErr, some err⟩ : Event writeSig) = ⟨.ctxErr, none⟩ :=
        (List.cons.inj hrest).1
      cases hlook
    | @applied tr h details' =>
      obtain ⟨-, hread, -⟩ := (List.append_cons_inj_of_notMem (h.not_mem details)
        (not_mem_of_reads (by simp [reads, readOutcome]))).mp heq
      have houtcome : some (details', none) = some (details, none) := congrArg readOutcome hread
      obtain rfl : details' = details := congrArg Prod.fst (Option.some.inj houtcome)
      rw [h.applications_append]
      exact List.mem_singleton.mpr rfl

end Spec

/-! ### Cancellation -/

section Cancellation
variable {path : String} {maxAttempts retryDelay : ℤ} {s : Option String}
  {ts : List (Event writeSig × Option String)}

/-- A look at the context that saw nothing: no operation up to it ended after the cancellation. -/
theorem not_cancelled_before {before : List (Event writeSig × Option String)}
    {after : List (Event writeSig × Option String)} {p : Prog writeSig Unit}
    (h : Visits WriteOp.act p s ts ()) (heq : ts = before ++ after)
    (hlook : (before.map Prod.fst).getLast? = some ⟨.ctxErr, none⟩) :
    ∀ x ∈ before, x.2 = none := by
  obtain ⟨-, hpairs⟩ := h.pairwise (R := Later) (fun h h' => h.trans h')
    (fun hact => WriteOp.act_later hact)
  rcases List.eq_nil_or_concat before with rfl | ⟨init, look, rfl⟩
  · exact fun x hx => absurd hx List.not_mem_nil
  · rw [List.concat_eq_append] at hlook heq ⊢
    obtain ⟨e, c⟩ := look
    rw [List.map_append, List.map_singleton, List.getLast?_concat] at hlook
    obtain rfl : e = ⟨.ctxErr, none⟩ := Option.some.inj hlook
    -- the look reports the context as it was then
    obtain ⟨s₁, -, hreply⟩ : ∃ s₁, WriteOp.act .ctxErr s₁ none c :=
      h.act_of_mem (⟨.ctxErr, none⟩, c) (by rw [heq]; simp)
    obtain rfl : none = c := hreply
    intro x hx
    rcases List.mem_append.mp hx with hx | hx
    · rw [heq, List.append_assoc, List.pairwise_append] at hpairs
      rcases hpairs.2.2 x hx (⟨.ctxErr, none⟩, none) (by simp) with hnone | hsame
      · exact hnone
      · exact hsame.symm
    · rw [List.mem_singleton.mp hx]

/-- When a read starts, no operation before it ended after the cancellation. -/
theorem read_not_cancelled
    (h : Visits WriteOp.act (handleWriteFinishedWithReader path maxAttempts retryDelay) s ts ())
    {before after : List (Event writeSig × Option String)} {x : Event writeSig × Option String}
    (heq : ts = before ++ x :: after) (hread : (readOutcome x.1).isSome) :
    ∀ y ∈ before, y.2 = none := by
  have hevents : ts.map Prod.fst = before.map Prod.fst ++ x.1 :: after.map Prod.fst := by
    rw [heq, List.map_append, List.map_cons]
  obtain ⟨-, hlook⟩ := pre_of_mem_unfolds
    (handleWriteFinishedWithReader_spec path maxAttempts retryDelay) h.unfolds
    (fun _ _ => trivial) hevents
  refine not_cancelled_before h heq ?_
  obtain ⟨⟨op, r⟩, c⟩ := x
  cases op with
  | read path' => exact hlook path' rfl
  | _ => exact absurd hread (by simp [readOutcome])

/-- **A finished write is evaluated once.**  For all bounds, delays, outcomes of the reader and
    points of cancellation: there are at most `max 1 maxAttempts` reads; none of them starts after
    an operation (a look at the context, a wait or a read) at whose end the context was cancelled;
    the policies are applied at most once, and to details exactly if these are what the first
    successful read returned and the look at the context after that read saw no cancellation. -/
theorem finished_write_once
    (h : Visits WriteOp.act (handleWriteFinishedWithReader path maxAttempts retryDelay) s ts ()) :
    ((reads (ts.map Prod.fst)).length : ℤ) ≤ max 1 maxAttempts ∧
    (∀ before x after, ts = before ++ x :: after → (readOutcome x.1).isSome →
      ∀ y ∈ before, y.2 = none) ∧
    (applications (ts.map Prod.fst)).length ≤ 1 ∧
    ∀ details, details ∈ applications (ts.map Prod.fst) ↔ ∃ before after,
      ts.map Prod.fst = before ++ ⟨.read path, (details, none)⟩ :: ⟨.ctxErr, none⟩ :: after ∧
        ∀ r ∈ reads before, ReadFailed r := by
  have hspec := handleWriteFinishedWithReader_spec path maxAttempts retryDelay
  have hretry := wp_traceContract_mono (fun _ _ hpre => hpre.1) hspec
  have hbounded := (retried_of_unfolds hretry h.unfolds (fun _ _ => trivial)).bounded
  have hend : Ending path (ts.map Prod.fst) := wp_unfolds hspec h.unfolds (fun _ _ => trivial)
  refine ⟨?_, ?_, hend.applications_length_le, hend.mem_applications_iff⟩
  · change (reads (ts.map Prod.fst)).length ≤ _ at hbounded
    omega
  · exact fun before x after heq hread => read_not_cancelled h heq hread

end Cancellation

/-- An archive that is incomplete at the first read; the collector is stopped while the policies
    are applied. -/
def lateArchive : List (Event writeSig × Option String) :=
  [(⟨.ctxErr, none⟩, none), (⟨.read "/ckpt/a.tar", (none, some "unexpected EOF")⟩, none),
    (⟨.wait checkpointArchiveReadRetryDelay, none⟩, none), (⟨.ctxErr, none⟩, none),
    (⟨.read "/ckpt/a.tar", (some ⟨"default", "web", "nginx"⟩, none)⟩, none),
    (⟨.ctxErr, none⟩, none),
    (⟨.apply (some ⟨"default", "web", "nginx"⟩), ()⟩, some "context canceled")]

theorem lateArchive_visits :
    Visits WriteOp.act (handleWriteFinished "/ckpt/a.tar") none lateArchive () :=
  .call ⟨.inl rfl, rfl⟩ (.call (.inl rfl) (.call ⟨.inl rfl, .inl rfl⟩ (.call ⟨.inl rfl, rfl⟩
    (.call (.inl rfl) (.call ⟨.inl rfl, rfl⟩ (.call (.inl rfl) (.pure () _)))))))

/-- The rule at work: the second read counts. -/
theorem finished_write_once_late :
    Visits WriteOp.act (handleWriteFinished "/ckpt/a.tar") none lateArchive () ∧
      some ⟨"default", "web", "nginx"⟩ ∈ applications (lateArchive.map Prod.fst) := by
  refine ⟨lateArchive_visits, ?_⟩
  obtain ⟨-, -, -, hiff⟩ := finished_write_once lateArchive_visits
  refine (hiff _).mpr ⟨[⟨.ctxErr, none⟩, ⟨.read "/ckpt/a.tar", (none, some "unexpected EOF")⟩,
    ⟨.wait checkpointArchiveReadRetryDelay, none⟩, ⟨.ctxErr, none⟩], _, rfl, ?_⟩
  intro r hr
  obtain rfl : r = (none, some "unexpected EOF") := List.mem_singleton.mp hr
  exact Option.some_ne_none _

end CheckpointRestore.Retention
