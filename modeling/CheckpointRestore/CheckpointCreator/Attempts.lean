import CheckpointRestore.CheckpointCreator
import CheckpointRestore.Lib.Retry

namespace CheckpointRestore.Creator

open Interaction

/-!
# `createCheckpoint` — the attempts of one call

A call sends a request, and sends it again only if the answer says that the container was in the
middle of another checkpoint.  Whatever is answered, and wherever the context is cancelled (a
request and a wait may end with any error at any time):

* `outcome` — what `createCheckpointOnce` makes of an answer;
* `doRequest_spec` — what one `Do` sends: a single request, unless a response redirects it;
* `attempts_spec` — the loop sends a request only after transient failures, and succeeds only with
  the first item of the last answer;
* `attemptsThen_eq` — what is behind the loop does not matter;
* `createCheckpoint_retries` — the same for a whole call, which gives its lock back;
* `post_repeated` — a redirect with the status 307 repeats the request, which the loop does not
  count.
-/

/-! ### Answers -/

/-- What `createCheckpointOnce` returns for an answer. -/
def outcome (target : String) : Except String Response → Except CheckpointError String
  | .error e => .error (.other e)
  | .ok resp =>
    if resp.statusCode ≠ 200 then .error (.http target resp.statusCode resp.errorBody)
    else match resp.items with
      | .error e =>
        .error (.other ("failed to decode checkpoint response for " ++ target ++ ": " ++ e))
      | .ok [] => .error (.other "checkpoint response contained no items")
      | .ok (item :: _) => .ok item

theorem createCheckpointOnce_eq (url target : String) :
    createCheckpointOnce url target =
      (do return outcome target (← doRequest maxRequests .post url)) := by
  unfold createCheckpointOnce outcome
  refine congrArg (doRequest _ _ url >>= ·) (funext fun (answer : Except String Response) => ?_)
  cases answer with
  | error e => rfl
  | ok resp =>
    dsimp only
    split_ifs with hstatus
    · rfl
    · rcases resp.items with e | (- | ⟨item, items⟩) <;> rfl

/-- The answer is a failure that `isTransientCheckpointError` accepts. -/
def FailedTransiently (target : String) (answer : Except String Response) : Prop :=
  ∃ e, outcome target answer = .error e ∧ isTransientCheckpointError e = true

/-- The response is that of a checkpoint. -/
def Response.Checkpoint (resp : Response) (path : String) : Prop :=
  resp.statusCode = 200 ∧ ∃ items, resp.items = .ok (path :: items)

section Answers
variable {target : String} {resp : Response}

theorem Response.Checkpoint.outcome_eq {path : String} (h : resp.Checkpoint path) :
    outcome target (.ok resp) = .ok path := by
  obtain ⟨hstatus, items, hitems⟩ := h
  unfold outcome
  dsimp only
  rw [if_neg (not_not.mpr hstatus), hitems]

/-- A success is the first item of a 200 response. -/
theorem checkpoint_of_outcome {answer : Except String Response} {path : String}
    (h : outcome target answer = .ok path) : ∃ resp, answer = .ok resp ∧ resp.Checkpoint path := by
  cases answer with
  | error e => exact absurd h (by simp [outcome])
  | ok resp =>
    unfold outcome at h
    dsimp only at h
    split_ifs at h with hstatus
    refine ⟨resp, rfl, not_not.mp hstatus, ?_⟩
    rcases hitems : resp.items with e | (- | ⟨item, items⟩)
    · rw [hitems] at h
      exact absurd h (by simp)
    · rw [hitems] at h
      exact absurd h (by simp)
    · rw [hitems] at h
      obtain rfl : item = path := Except.ok.inj h
      exact ⟨items, rfl⟩

/-- The response of a checkpoint is no failure. -/
theorem Response.Checkpoint.not_failed {path : String} (h : resp.Checkpoint path) :
    ¬ FailedTransiently target (.ok resp) := by
  rintro ⟨e, he, -⟩
  rw [h.outcome_eq] at he
  exact absurd he (by simp)

/-- Below 500 no failure is transient, except those of a 200 response. -/
theorem not_failed_of_lt (hne : resp.statusCode ≠ 200) (hlt : resp.statusCode < 500) :
    ¬ FailedTransiently target (.ok resp) := by
  rintro ⟨e, he, htransient⟩
  unfold outcome at he
  dsimp only at he
  rw [if_pos hne] at he
  obtain rfl := Except.error.inj he
  have hbound : 500 ≤ resp.statusCode :=
    of_decide_eq_true (Bool.and_eq_true_iff.mp htransient).1
  omega

end Answers

/-! ### Requests -/

/-- The answer to a request, if the event is one. -/
def answer : Event sig → Option (Except String Response)
  | ⟨.send _ _, r⟩ => some r
  | _ => none

/-- The answers to the requests of a call, in the order in which they were sent. -/
def answers (tr : List (Event sig)) : List (Except String Response) := tr.filterMap answer

/-- The event is no response that `net/http` follows to another request. -/
def Direct : Event sig → Prop
  | ⟨.send method _, r⟩ => ∀ resp, (r : Except String Response) = .ok resp →
    redirect method resp = none
  | _ => True

/-- A step that is no request adds no answer. -/
theorem answers_other (tr : List (Event sig)) {e : Event sig} (h : answer e = none) :
    answers (tr ++ [e]) = answers tr :=
  filterMap_snoc_none tr h

theorem answers_send (tr : List (Event sig)) (method : Method) (url : String)
    (a : Except String Response) : answers (tr ++ [⟨.send method url, a⟩]) = answers tr ++ [a] :=
  List.filterMap_append

/-- The steps of a call at the most: four of the lock table, one for the client, and the attempts
    with the waits between them. -/
def maxSteps : ℕ :=
  4 + 1 + maxCheckpointAttempts * maxRequests + (maxCheckpointAttempts - 1)

/-- The contract of a call: it takes a bounded number of steps, and, if it is `strict`, sends a
    request only after transient failures, provided that no response is a redirect. -/
def attemptContract (strict : Prop) (target : String) : Contract sig (List (Event sig)) :=
  traceContract (fun tr op => tr.length < maxSteps ∧
    (strict → RetryAllowed answer (FailedTransiently target) maxCheckpointAttempts tr op))
    (fun e => strict → Direct e)

/-- The call succeeds only with a checkpoint that the last answer reports. -/
def Reports (result : Except CheckpointError String) (tr : List (Event sig)) : Prop :=
  ∀ path, result = .ok path →
    ∃ before resp, answers tr = before ++ [.ok resp] ∧ resp.Checkpoint path

/-- What one `Do` sends, at most `n` requests, and what it returns. -/
structure Sent (strict : Prop) (tr : List (Event sig)) (n : ℕ) (a : Except String Response)
    (tr' : List (Event sig)) : Prop where
  length : tr'.length ≤ tr.length + n
  last : ∀ resp, a = .ok resp → ∃ before, answers tr' = before ++ [.ok resp]
  direct : strict → answers tr' = answers tr ++ [a]

/-- The loop variables: how many attempts are `left` after `tr`, all of which asked for more. -/
structure Attempting (strict : Prop) (target : String) (left : ℕ) (tr : List (Event sig)) :
    Prop where
  count : strict → (answers tr).length + left ≤ maxCheckpointAttempts
  failed : strict → ∀ a ∈ answers tr, FailedTransiently target a
  steps : tr.length + (maxRequests + 1) * left ≤ maxSteps - 1

section Loop
variable {strict : Prop} {target : String} {tr : List (Event sig)}

/-- Other steps than requests need room only. -/
theorem attemptContract_pre {op : sig.Op} (hop : ∀ r, answer ⟨op, r⟩ = none)
    (hlt : tr.length < maxSteps) : (attemptContract strict target).pre op tr := by
  refine ⟨hlt, ?_⟩
  rintro - ⟨r, hr⟩
  rw [hop r] at hr
  exact absurd hr (by simp)

theorem wp_send {method : Method} {url : String}
    {Q : Except String Response → List (Event sig) → Prop}
    (hpre : (attemptContract strict target).pre (Op.send method url) tr)
    (hQ : ∀ r : Except String Response, (strict → Direct ⟨.send method url, r⟩) →
      Q r (tr ++ [⟨.send method url, r⟩])) :
    wp (attemptContract strict target) (send method url) Q tr := by
  refine ⟨hpre, ?_⟩
  rintro r tr₁ ⟨hdirect, rfl⟩
  exact hQ r hdirect

/-- **One `Do`.**  A second request is sent only after a redirect. -/
theorem doRequest_spec {left : ℕ} (hleft : left ≠ 0) (method : Method) (url : String)
    (hroom : tr.length + left ≤ maxSteps)
    (hallowed : strict → (answers tr).length < maxCheckpointAttempts ∧
      ∀ a ∈ answers tr, FailedTransiently target a) :
    wp (attemptContract strict target) (doRequest left method url) (Sent strict tr left) tr := by
  induction left generalizing tr method url with
  | zero => exact absurd rfl hleft
  | succ left ih =>
    rw [doRequest, wp_bind]
    refine wp_send ⟨by omega, fun hs _ => hallowed hs⟩ (fun r hdirect => ?_)
    have hlength : (tr ++ [⟨Op.send method url, r⟩] : List (Event sig)).length =
        tr.length + 1 := by rw [List.length_append, List.length_singleton]
    have hanswers := answers_send tr method url r
    cases r with
    | error e => exact ⟨by omega, nofun, fun _ => hanswers⟩
    | ok resp =>
      dsimp only
      cases hredirect : redirect method resp with
      | none =>
        refine ⟨by omega, fun resp' heq => ⟨answers tr, ?_⟩, fun _ => hanswers⟩
        rw [hanswers, heq]
      | some next =>
        -- a redirect: nothing is promised to those who excluded it
        have hlax : ¬ strict := fun hs =>
          absurd (hdirect hs resp rfl) (by rw [hredirect]; exact Option.some_ne_none next)
        obtain ⟨method', location⟩ := next
        cases location with
        | error e => exact ⟨by omega, nofun, fun hs => absurd hs hlax⟩
        | ok location =>
          dsimp only
          split_ifs with hlast
          · exact ⟨by omega, nofun, fun hs => absurd hs hlax⟩
          · refine wp_mono (fun a tr' hsent => ?_) (ih hlast method' location (by omega)
              (fun hs => absurd hs hlax))
            have hbound := hsent.length
            exact ⟨by omega, hsent.last, fun hs => absurd hs hlax⟩

/-! ### The loop -/

/-- What a round does with the outcome of its attempt, when `left` attempts are left. -/
def concludeAttempt (url target : String) (left : ℕ) :
    Except CheckpointError String → Prog sig (Except CheckpointError String)
  | .ok path => return .ok path
  | .error e => do
    if !isTransientCheckpointError e || left == 0 then return .error e
    else match ← sleep with
      | .error e => return .error (.other e)
      | .ok () => attempts url target left

theorem attempts_succ (url target : String) (left : ℕ) :
    attempts url target (left + 1) =
      doRequest maxRequests .post url >>= fun a =>
        concludeAttempt url target left (outcome target a) := by
  rw [attempts, createCheckpointOnce_eq, bind_assoc]
  refine congrArg (doRequest _ _ url >>= ·) (funext fun (a : Except String Response) => ?_)
  rw [pure_bind]
  cases outcome target a with
  | ok path => rfl
  | error e => rfl

/-- A failed attempt and the wait after it. -/
theorem Attempting.next {left : ℕ} {r : Except String Unit} {a : Except String Response}
    {tr' : List (Event sig)} (h : Attempting strict target (left + 1) tr)
    (hsent : Sent strict tr maxRequests a tr') (ha : FailedTransiently target a) :
    Attempting strict target left (tr' ++ [⟨.sleep, r⟩]) := by
  have hanswers : answers (tr' ++ [⟨.sleep, r⟩]) = answers tr' := answers_other _ rfl
  refine ⟨fun hs => ?_, fun hs => ?_, ?_⟩
  · rw [hanswers, hsent.direct hs, List.length_append, List.length_singleton]
    have hcount := h.count hs
    omega
  · rw [hanswers, hsent.direct hs]
    intro b hb
    rcases List.mem_append.mp hb with hb | hb
    · exact h.failed hs b hb
    · rw [List.mem_singleton.mp hb]
      exact ha
  · have hsteps := h.steps
    have hlength := hsent.length
    rw [List.length_append, List.length_singleton]
    rw [Nat.mul_succ] at hsteps
    omega

/-- The postcondition of the loop; the lock is still to be given back. -/
def Attempted (result : Except CheckpointError String) (tr : List (Event sig)) : Prop :=
  Reports result tr ∧ tr.length ≤ maxSteps - 2

/-- One round of the loop, given what the rounds after it do. -/
theorem attempt_spec (url : String) {left : ℕ} (h : Attempting strict target (left + 1) tr)
    (hrest : left ≠ 0 → ∀ {tr}, Attempting strict target left tr →
      wp (attemptContract strict target) (attempts url target left) Attempted tr) :
    wp (attemptContract strict target) (attempts url target (left + 1)) Attempted tr := by
  have hsteps := h.steps
  rw [Nat.mul_succ] at hsteps
  have hmax : maxSteps = 37 := rfl
  have hallowed : strict → (answers tr).length < maxCheckpointAttempts ∧
      ∀ a ∈ answers tr, FailedTransiently target a := fun hs => by
    have hcount := h.count hs
    exact ⟨by omega, h.failed hs⟩
  rw [attempts_succ, wp_bind]
  refine wp_mono (fun a tr₁ hsent => ?_)
    (doRequest_spec (by decide) .post url (by omega) hallowed)
  have hlength : tr₁.length ≤ maxSteps - 2 := by
    have hlength := hsent.length
    omega
  cases houtcome : outcome target a with
  | ok path =>
    refine ⟨fun path' hpath => ?_, hlength⟩
    obtain rfl := Except.ok.inj hpath
    obtain ⟨resp, rfl, hresp⟩ := checkpoint_of_outcome houtcome
    obtain ⟨before, hbefore⟩ := hsent.last resp rfl
    exact ⟨before, resp, hbefore, hresp⟩
  | error e =>
    rw [concludeAttempt]
    split_ifs with hstop
    · exact ⟨fun path hpath => absurd hpath (by simp), hlength⟩
    · -- a transient failure, and not the last attempt
      rw [Bool.or_eq_true, not_or, Bool.not_eq_true, Bool.not_eq_false', beq_iff_eq] at hstop
      rw [wp_bind]
      refine ⟨attemptContract_pre (fun _ => rfl) (by omega), ?_⟩
      rintro (r : Except String Unit) tr₂ ⟨-, rfl⟩
      have hnext : Attempting strict target left (tr₁ ++ [⟨.sleep, r⟩]) :=
        h.next hsent ⟨e, houtcome, hstop.1⟩
      cases r with
      | error e =>
        have hend := hnext.steps
        have hwaited := Nat.le_mul_of_pos_right (maxRequests + 1) (Nat.pos_of_ne_zero hstop.2)
        exact ⟨fun path hpath => absurd hpath (by simp), by omega⟩
      | ok u => exact hrest hstop.2 hnext

/-- **The loop.**  Every request comes after transient failures only, and a success is what the
    last answer reports. -/
theorem attempts_spec (url : String) {left : ℕ} (hleft : left ≠ 0)
    (h : Attempting strict target left tr) :
    wp (attemptContract strict target) (attempts url target left) Attempted tr :=
  wp_countdown (p := fun left (_ : Unit) => attempts url target left)
    (fun _ hnext hrest => attempt_spec url hnext (fun hne _ h => hrest hne () h)) hleft () h

/-- The part between `lock` and `unlock`. -/
theorem request_attempted (url : String) (hanswers : answers tr = []) (hlength : tr.length = 2) :
    wp (attemptContract strict target) (request url target) Attempted tr := by
  rw [request, wp_bind]
  refine ⟨attemptContract_pre (fun _ => rfl) (by rw [hlength]; decide), ?_⟩
  rintro (r : Except String Unit) tr₁ ⟨-, rfl⟩
  have hlength₁ : (tr ++ [⟨Op.httpClientFor, r⟩] : List (Event sig)).length = 3 := by
    rw [List.length_append, List.length_singleton, hlength]
  cases r with
  | error e => exact ⟨fun path hpath => absurd hpath (by simp), hlength₁ ▸ by decide⟩
  | ok u =>
    have hnone : answers (tr ++ [⟨Op.httpClientFor, .ok u⟩]) = [] := by
      rw [answers_other _ rfl, hanswers]
    refine attempts_spec url (by decide) ⟨fun _ => ?_, fun _ => ?_, ?_⟩
    · rw [hnone]
      exact le_of_eq (Nat.zero_add _)
    · rw [hnone]
      exact fun a ha => absurd ha List.not_mem_nil
    · rw [hlength₁]
      decide

/-- Giving the lock back sends no request. -/
theorem unlock_reports {l : ℕ} {result : Except CheckpointError String}
    (h : Attempted result tr) : wp (attemptContract strict target) (unlock target l)
      (fun _ tr => Reports result tr ∧ tr.length ≤ maxSteps) tr := by
  obtain ⟨hreports, hlength⟩ := h
  have hmax : maxSteps = 37 := rfl
  rw [unlock, wp_bind]
  refine ⟨attemptContract_pre (fun _ => rfl) (by omega), ?_⟩
  rintro (_ : Unit) tr₁ ⟨-, rfl⟩
  refine ⟨attemptContract_pre (fun _ => rfl) ?_, ?_⟩
  · rw [List.length_append, List.length_singleton]
    omega
  · rintro (_ : Unit) tr₂ ⟨-, rfl⟩
    refine ⟨fun path hpath => ?_, ?_⟩
    · obtain ⟨before, resp, hanswers, hresp⟩ := hreports path hpath
      refine ⟨before, resp, ?_, hresp⟩
      rw [answers_other _ rfl, answers_other _ rfl, hanswers]
    · rw [List.length_append, List.length_append, List.length_singleton, List.length_singleton]
      omega

end Loop

/-- A whole call sends its requests after transient failures only, and reports what the last of
    them reported. -/
theorem createCheckpoint_reports (strict : Prop)
    (host ns podName containerName nodeName : String) :
    wp (attemptContract strict (checkpointTargetKey nodeName ns podName containerName))
      (createCheckpoint host ns podName containerName nodeName)
        (fun result tr => Reports result tr ∧ tr.length ≤ maxSteps) [] := by
  rw [createCheckpoint, wp_bind, lock, wp_bind]
  refine ⟨attemptContract_pre (fun _ => rfl) (by decide), ?_⟩
  rintro (l : ℕ) tr₁ ⟨-, rfl⟩
  refine ⟨attemptContract_pre (fun _ => rfl) (show 1 < maxSteps by decide), ?_⟩
  rintro (_ : Unit) tr₂ ⟨-, rfl⟩
  show wp _ (request _ _ >>= fun result => unlock _ l >>= fun _ => pure result) _ _
  rw [wp_bind]
  refine wp_mono (fun result tr₃ hattempted => ?_) (request_attempted _ rfl rfl)
  rw [wp_bind]
  exact wp_mono (fun _ tr₄ hdone => hdone) (unlock_reports hattempted)

/-! ### The lock -/

/-- The lock was registered for, taken, given back and deregistered from, and between that only
    the requests of the call were sent. -/
def Unlocked (target : String) (tr : List (Event sig)) : Prop :=
  ∃ (l : ℕ) (requests : List (Event sig)),
    tr = [⟨.register target, l⟩, ⟨.acquire l, ()⟩] ++ requests ++
      [⟨.release l, ()⟩, ⟨.deregister target l, ()⟩] ∧ ∀ e ∈ requests, RequestOp e.op

/-- The part between `lock` and `unlock` leaves the lock alone. -/
theorem request_frame (url target : String) (tr : List (Event sig)) :
    wp (traceContract (fun _ _ => True) (fun _ => True)) (request url target)
      (fun _ tr' => ∃ requests, tr' = tr ++ requests ∧ ∀ e ∈ requests, RequestOp e.op) tr := by
  refine wp_of_issues (P := RequestOp) ?_ (issues_request url target)
    ⟨[], (List.append_nil tr).symm, by simp⟩
  rintro op tr₁ hop ⟨requests, rfl, hall⟩
  refine ⟨trivial, ?_⟩
  rintro r tr₂ ⟨-, rfl⟩
  refine ⟨requests ++ [⟨op, r⟩], List.append_assoc _ _ _, fun e he => ?_⟩
  rcases List.mem_append.mp he with he | he
  · exact hall e he
  · rw [List.mem_singleton.mp he]
    exact hop

/-- No path through a call returns without giving the lock back. -/
theorem createCheckpoint_unlocks (host ns podName containerName nodeName : String) :
    wp (traceContract (fun _ _ => True) (fun _ => True))
      (createCheckpoint host ns podName containerName nodeName)
        (fun _ tr => Unlocked (checkpointTargetKey nodeName ns podName containerName) tr) [] := by
  rw [createCheckpoint, wp_bind, lock, wp_bind]
  refine ⟨trivial, ?_⟩
  rintro (l : ℕ) tr₁ ⟨-, rfl⟩
  refine ⟨trivial, ?_⟩
  rintro (_ : Unit) tr₂ ⟨-, rfl⟩
  show wp _ (request _ _ >>= fun result => unlock _ l >>= fun _ => pure result) _ _
  rw [wp_bind]
  refine wp_mono ?_ (request_frame _ _ _)
  rintro result tr₃ ⟨requests, rfl, hall⟩
  rw [wp_bind, unlock, wp_bind]
  refine ⟨trivial, ?_⟩
  rintro (_ : Unit) tr₄ ⟨-, rfl⟩
  refine ⟨trivial, ?_⟩
  rintro (_ : Unit) tr₅ ⟨-, rfl⟩
  exact ⟨l, requests, List.append_assoc _ _ _, hall⟩

/-! ### The attempts of a call -/

/-- The loop over the attempts with anything else behind it. -/
def attemptsThen (behind : Prog sig (Except CheckpointError String)) (url target : String) :
    ℕ → Prog sig (Except CheckpointError String)
  | 0 => behind
  | left + 1 => do
    match ← createCheckpointOnce url target with
    | .ok path => return .ok path
    | .error e =>
      if !isTransientCheckpointError e || left == 0 then return .error e
      else match ← sleep with
        | .error e => return .error (.other e)
        | .ok () => attemptsThen behind url target left

/-- What is behind the loop is never reached: the last attempt returns. -/
theorem attemptsThen_eq (behind : Prog sig (Except CheckpointError String)) (url target : String)
    (left : ℕ) : attemptsThen behind url target (left + 1) = attempts url target (left + 1) := by
  induction left with
  | zero =>
    refine congrArg (createCheckpointOnce url target >>= ·) (funext fun result => ?_)
    cases result with
    | ok path => rfl
    | error e => simp
  | succ left ih =>
    refine congrArg (createCheckpointOnce url target >>= ·) (funext fun result => ?_)
    cases result with
    | ok path => rfl
    | error e =>
      refine congrArg (ite _ _) (congrArg (sleep >>= ·) (funext fun slept => ?_))
      cases slept with
      | error e => rfl
      | ok u => exact ih

/-- The answers of a call with bounded retries: at most three requests were sent, each after answers
    that were all transient failures; none after the response of a checkpoint, and none after a
    response with another status below 500. -/
structure Sparing (target : String) (as : List (Except String Response)) : Prop where
  bounded : as.length ≤ 3
  asked : as.Pairwise (fun a _ => ∃ e, isTransientCheckpointError e = true ∧
    outcome target a = .error e)
  taken : ∀ before resp after path, as = before ++ .ok resp :: after →
    resp.Checkpoint path → after = []
  refused : ∀ before resp after, as = before ++ .ok resp :: after →
    resp.statusCode ≠ 200 → resp.statusCode < 500 → after = []

/-- **The attempts of a call.**  Whatever is answered and wherever the context is cancelled, at any
    moment of a call: if no response was a redirect, the requests are sparing.  The call returns a
    checkpoint only if the last response reports it as its first item, what is behind the loop is
    never reached, and after a bounded number of steps the call has returned and given its lock
    back. -/
theorem createCheckpoint_retries {host ns podName containerName nodeName : String}
    {tr : List (Event sig)} {p : Prog sig (Except CheckpointError String)}
    (h : Unfolds (createCheckpoint host ns podName containerName nodeName) tr p) :
    ((∀ e ∈ tr, Direct e) →
      Sparing (checkpointTargetKey nodeName ns podName containerName) (answers tr)) ∧
    (∀ path, p = .pure (.ok path) →
      ∃ before resp, answers tr = before ++ [.ok resp] ∧ resp.Checkpoint path) ∧
    (∀ behind url target, attemptsThen behind url target maxCheckpointAttempts =
      attempts url target maxCheckpointAttempts) ∧
    tr.length ≤ maxSteps ∧
    (∀ result, p = .pure result →
      Unlocked (checkpointTargetKey nodeName ns podName containerName) tr) := by
  have hspec := createCheckpoint_reports False host ns podName containerName nodeName
  have hany : ∀ e ∈ tr, False → Direct e := fun _ _ => False.elim
  refine ⟨fun hdirect => ?_, ?_, ?_, ?_, ?_⟩
  · -- the half of the contract that speaks of requests holds at every moment of a run
    have hretry := wp_traceContract_mono (fun _ _ hpre => hpre.2 trivial)
      (createCheckpoint_reports True host ns podName containerName nodeName)
    have hretried := retried_of_unfolds hretry h (fun e he _ => hdirect e he)
    refine ⟨hretried.bounded, hretried.asked.imp ?_, ?_, ?_⟩
    · rintro a _ ⟨e, he, htransient⟩
      exact ⟨e, htransient, he⟩
    · exact fun before resp after path heq hresp => hretried.last heq hresp.not_failed
    · exact fun before resp after heq hne hlt => hretried.last heq (not_failed_of_lt hne hlt)
  · rintro path rfl
    exact (wp_unfolds hspec h hany).1 path rfl
  · exact fun behind url target => attemptsThen_eq behind url target _
  · have hrest := wp_unfolds hspec h hany
    cases p with
    | pure result => exact hrest.2
    | call op k => exact le_of_lt hrest.1.1
  · rintro result rfl
    exact wp_unfolds (createCheckpoint_unlocks host ns podName containerName nodeName) h
      (fun _ _ => trivial)

/-- A world that answers the requests by their number. -/
def answering (reply : ℕ → Except String Response) : (op : sig.Op) → ℕ → sig.Reply op × ℕ
  | .register _, n => ((0 : ℕ), n)
  | .acquire _, n => ((), n)
  | .release _, n => ((), n)
  | .deregister _ _, n => ((), n)
  | .httpClientFor, n => (.ok (), n)
  | .send _ _, n => (reply n, n + 1)
  | .sleep, n => (.ok (), n)

/-- A kubelet that is busy with another checkpoint at first. -/
def busyOnce : ℕ → Except String Response
  | 0 => .ok ⟨500, none, "checkpointing failed: cannot pause a paused container", .ok []⟩
  | _ => .ok ⟨200, none, "", .ok ["/ckpt/a.tar"]⟩

/-- The trace of a call. -/
def traceOf (reply : ℕ → Except String Response) : List (Event sig) :=
  trace (answering reply) (webTarget.call "https://host") 0

theorem unfolds_traceOf (reply : ℕ → Except String Response) :
    Unfolds (webTarget.call "https://host") (traceOf reply)
      (.pure (exec (answering reply) (webTarget.call "https://host") 0).1) := by
  have hruns : Runs (fun op s r s' => (r, s') = answering reply op s)
      (webTarget.call "https://host") 0 (traceOf reply) _ _ := Runs.of_exec (fun _ _ => rfl) _ _
  exact hruns.unfolds

/-- The rule at work: the second request takes the checkpoint, and the lock is free again. -/
theorem createCheckpoint_retries_busy :
    (exec (answering busyOnce) (webTarget.call "https://host") 0).1 = .ok "/ckpt/a.tar" ∧
      (answers (traceOf busyOnce)).length = 2 ∧
      Sparing webTarget.key (answers (traceOf busyOnce)) ∧
      Unlocked webTarget.key (traceOf busyOnce) := by
  obtain ⟨hsparing, -, -, -, hunlocked⟩ := createCheckpoint_retries (unfolds_traceOf busyOnce)
  have hdirect : ∀ e ∈ traceOf busyOnce, Direct e := by
    refine forall_mem_trace (fun op n => ?_) _ _
    cases op with
    | send method url =>
      intro resp hresp
      cases n with
      | zero => cases hresp; rfl
      | succ n => cases hresp; rfl
    | _ => trivial
  exact ⟨by decide +kernel, by decide +kernel, hsparing hdirect, hunlocked _ rfl⟩

/-- Every request is redirected, and repeated as it is. -/
def redirecting (_ : ℕ) : Except String Response :=
  .ok ⟨307, some (.ok "https://other"), "", .ok []⟩

/-- The method of a request, if the event is one. -/
def methodOf (e : Event sig) : Option Method :=
  match e.op with
  | .send method _ => some method
  | _ => none

/-- One attempt sends ten POSTs, each but the first after a response with the status 307. -/
theorem post_repeated :
    (traceOf redirecting).filterMap methodOf = List.replicate 10 .post ∧
      ¬ Sparing webTarget.key (answers (traceOf redirecting)) := by
  have hlength : (answers (traceOf redirecting)).length = 10 := by decide +kernel
  refine ⟨by decide +kernel, fun h => ?_⟩
  have hbounded := h.bounded
  omega

end CheckpointRestore.Creator
