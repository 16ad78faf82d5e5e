import CheckpointRestore.Lib.LockTable
import CheckpointRestore.Lib.Pool
import CheckpointRestore.Lib.Strings

namespace CheckpointRestore.Creator

open Go Interaction Locks

/-!
# `CheckpointCreator` — one request per target

Every trigger and the forensic controller take checkpoints through `createCheckpoint`, which
serialises the requests for one container by a table of locks.  The program is modelled over the
steps of the table and the requests on the wire; any number of calls run side by side.

* `doRequest` — what `net/http` sends for one request, redirects included;
* `createCheckpoint` — the call, with its retries;
* `phase` — where a call is, by its trace;
* `createCheckpoint_permitted` — a call follows the discipline of the table;
* `requests_serialized` — at most one call per target is between `lock` and `unlock`, and the table
  is exact.
-/

/-! ### The outside world -/

/-- What is answered: the status, the `Location` header resolved against the URL of the request (or
    the error of that) if it is set, the text read of the body if it is an error, and the decoded
    items. -/
structure Response where
  statusCode : ℕ
  location : Option (Except String String)
  errorBody : String
  items : Except String (List String)

/-- The methods of the requests. -/
inductive Method where
  | post
  | get
  deriving DecidableEq

/-- The steps of a call: the sections of the lock table, and what is asked of others. -/
inductive Op where
  | register (target : String)
  | acquire (l : ℕ)
  | release (l : ℕ)
  | deregister (target : String) (l : ℕ)
  | httpClientFor
  | send (method : Method) (url : String)
  | sleep

/-- The effect signature of a call. -/
def sig : Signature where
  Op := Op
  Reply
    | .register _ => ℕ
    | .acquire _ => Unit
    | .release _ => Unit
    | .deregister _ _ => Unit
    | .httpClientFor => Except String Unit
    | .send _ _ => Except String Response
    | .sleep => Except String Unit

/-- The section of `lock` under the table's mutex: the object of the target, with one more user. -/
def register (target : String) : Prog sig ℕ := .perform (S := sig) (Op.register target)

/-- `lock.mu.Lock`. -/
def acquire (l : ℕ) : Prog sig Unit := .perform (S := sig) (Op.acquire l)

/-- `lock.mu.Unlock`. -/
def release (l : ℕ) : Prog sig Unit := .perform (S := sig) (Op.release l)

/-- The section of the returned function under the table's mutex. -/
def deregister (target : String) (l : ℕ) : Prog sig Unit :=
  .perform (S := sig) (Op.deregister target l)

/-- `rest.HTTPClientFor`. -/
def httpClientFor : Prog sig (Except String Unit) := .perform (S := sig) Op.httpClientFor

/-- One request without a body, on the wire. -/
def send (method : Method) (url : String) : Prog sig (Except String Response) :=
  .perform (S := sig) (Op.send method url)

/-- `sleepWithContext`. -/
def sleep : Prog sig (Except String Unit) := .perform (S := sig) Op.sleep

/-! ### The call -/

/-- `checkpointHTTPError`, and any other error by its text. -/
inductive CheckpointError where
  | http (target : String) (statusCode : ℕ) (body : String)
  | other (text : String)
  deriving DecidableEq

/-- The error's text. -/
def CheckpointError.message : CheckpointError → String
  | .http target statusCode body =>
    if Strings.trimSpace body = "" then
      "checkpoint failed for " ++ target ++ ": status " ++ toString statusCode
    else
      "checkpoint failed for " ++ target ++ ": status " ++ toString statusCode ++ ": " ++
        Strings.trimSpace body
  | .other text => text

/-- `isTransientCheckpointErrorText`. -/
def isTransientCheckpointErrorText (text : String) : Bool :=
  Strings.contains text "cannot pause a paused container" ||
    Strings.contains text "ctrd-checkpoint/status: no such file or directory"

/-- `isTransientCheckpointError`. -/
def isTransientCheckpointError : CheckpointError → Bool
  | .http _ statusCode body => 500 ≤ statusCode && isTransientCheckpointErrorText body
  | .other text => isTransientCheckpointErrorText text

/-- `checkpointTargetKey`. -/
def checkpointTargetKey (nodeName ns podName containerName : String) : String :=
  nodeName ++ "/" ++ ns ++ "/" ++ podName ++ "/" ++ containerName

/-- `checkpointTargetLockTable.lock`: the section under the table's mutex, then the lock. -/
def lock (target : String) : Prog sig ℕ := do
  let l ← register target
  acquire l
  return l

/-- The function that `lock` returns. -/
def unlock (target : String) (l : ℕ) : Prog sig Unit := do
  release l
  deregister target l

/-- `redirectBehavior` of `net/http`, for a request without a body: the method of the request that
    follows. -/
def redirectMethod (method : Method) (statusCode : ℕ) : Option Method :=
  if statusCode ∈ [301, 302, 303] then some .get
  else if statusCode ∈ [307, 308] then some method
  else none

/-- The request that follows a response, if it is one that the client does not return. -/
def redirect (method : Method) (resp : Response) : Option (Method × Except String String) := do
  let method' ← redirectMethod method resp.statusCode
  let location ← resp.location
  return (method', location)

/-- `http.Client.Do`, by the requests it may still send.  `rest.HTTPClientFor` leaves
    `CheckRedirect` unset, so that the client follows redirects by itself. -/
def doRequest : ℕ → Method → String → Prog sig (Except String Response)
  | 0, _, _ => return .error ""
  | left + 1, method, url => do
    match ← send method url with
    | .error e => return .error e
    | .ok resp =>
      match redirect method resp with
      | none => return .ok resp
      | some (_, .error e) => return .error e
      | some (method', .ok location) =>
        -- `defaultCheckRedirect`
        if left = 0 then return .error ("Post \"" ++ url ++ "\": stopped after 10 redirects")
        else doRequest left method' location

/-- The requests of one `Do`, at the most. -/
def maxRequests : ℕ := 10

/-- `createCheckpointOnce`. -/
def createCheckpointOnce (url target : String) : Prog sig (Except CheckpointError String) := do
  match ← doRequest maxRequests .post url with
  | .error e => return .error (.other e)
  | .ok resp =>
    if resp.statusCode ≠ 200 then return .error (.http target resp.statusCode resp.errorBody)
    else match resp.items with
      | .error e =>
        return .error (.other ("failed to decode checkpoint response for " ++ target ++ ": " ++ e))
      | .ok [] => return .error (.other "checkpoint response contained no items")
      | .ok (item :: _) => return .ok item

/-- `maxCheckpointAttempts`. -/
def maxCheckpointAttempts : ℕ := 3

/-- The loop over the attempts, by how many are left.  The loop variable shadows `lastErr`, so that
    behind the loop there is no error; it is never reached. -/
def attempts (url target : String) : ℕ → Prog sig (Except CheckpointError String)
  | 0 => return .ok ""
  | left + 1 => do
    match ← createCheckpointOnce url target with
    | .ok path => return .ok path
    | .error e =>
      if !isTransientCheckpointError e || left == 0 then return .error e
      else match ← sleep with
        | .error e => return .error (.other e)
        | .ok () => attempts url target left

/-- The part of `createCheckpoint` between `lock` and `unlock`. -/
def request (url target : String) : Prog sig (Except CheckpointError String) := do
  match ← httpClientFor with
  | .error e => return .error (.other e)
  | .ok () => attempts url target maxCheckpointAttempts

/-- `createCheckpoint`; `unlock` is deferred to its end. -/
def createCheckpoint (host ns podName containerName nodeName : String) :
    Prog sig (Except CheckpointError String) := do
  let target := checkpointTargetKey nodeName ns podName containerName
  let l ← lock target
  let result ← request (host ++ "/api/v1/nodes/" ++ nodeName ++ "/proxy/checkpoint/" ++ ns ++ "/" ++
    podName ++ "/" ++ containerName) target
  unlock target l
  return result

/-! ### Where a call is -/

/-- What a step does to the phase of a call. -/
def phaseStep (ph : Phase String) : Event sig → Phase String
  | ⟨.register target, l⟩ => .waiting target l
  | ⟨.acquire _, _⟩ => match ph with
    | .waiting target l => .holding target l
    | ph => ph
  | ⟨.release _, _⟩ => match ph with
    | .holding target l => .leaving target l
    | ph => ph
  | ⟨.deregister _ _, _⟩ => .done
  | _ => ph

/-- The phase of a call, by its trace. -/
def phase (tr : List (Event sig)) : Phase String := tr.foldl phaseStep .idle

theorem phase_append (tr : List (Event sig)) (e : Event sig) :
    phase (tr ++ [e]) = phaseStep (phase tr) e := by
  rw [phase, List.foldl_append]
  rfl

/-- The steps that a call for the key may take in a phase. -/
def Permitted (key : String) : Phase String → sig.Op → Prop
  | .idle, .register target => target = key
  | .waiting _ l, .acquire l' => l' = l
  | .holding _ l, .release l' => l' = l
  | .holding _ _, .httpClientFor => True
  | .holding _ _, .send _ _ => True
  | .holding _ _, .sleep => True
  | .leaving target l, .deregister target' l' => target' = target ∧ l' = l
  | _, _ => False

/-- The contract of a call: every step is permitted in its phase. -/
def callContract (key : String) : Contract sig (List (Event sig)) :=
  traceContract (fun tr op => Permitted key (phase tr) op) (fun _ => True)

/-- What the part between `lock` and `unlock` issues. -/
def RequestOp : sig.Op → Prop
  | .httpClientFor => True
  | .send _ _ => True
  | .sleep => True
  | _ => False

theorem issues_doRequest (left : ℕ) (method : Method) (url : String) :
    Issues RequestOp (doRequest left method url) := by
  induction left generalizing method url with
  | zero => exact Issues.pure _
  | succ left ih =>
    refine Issues.bind (Issues.perform trivial) (fun r => ?_)
    cases r with
    | error e => exact Issues.pure _
    | ok resp =>
      dsimp only
      split
      · exact Issues.pure _
      · exact Issues.pure _
      · split
        · exact Issues.pure _
        · exact ih _ _

theorem issues_createCheckpointOnce (url target : String) :
    Issues RequestOp (createCheckpointOnce url target) := by
  refine Issues.bind (issues_doRequest _ _ _) (fun r => ?_)
  cases r with
  | error e => exact Issues.pure _
  | ok resp =>
    dsimp only
    split
    · exact Issues.pure _
    · split <;> exact Issues.pure _

theorem issues_attempts (url target : String) (left : ℕ) :
    Issues RequestOp (attempts url target left) := by
  induction left with
  | zero => exact Issues.pure _
  | succ left ih =>
    refine Issues.bind (issues_createCheckpointOnce url target) (fun r => ?_)
    cases r with
    | ok path => exact Issues.pure _
    | error e =>
      dsimp only
      split
      · exact Issues.pure _
      · refine Issues.bind (Issues.perform trivial) (fun r => ?_)
        cases r with
        | error e => exact Issues.pure _
        | ok u => exact ih

theorem issues_request (url target : String) : Issues RequestOp (request url target) := by
  refine Issues.bind (Issues.perform trivial) (fun r => ?_)
  cases r with
  | error e => exact Issues.pure _
  | ok u => exact issues_attempts url target _

variable {ph : Phase String} {op : sig.Op}

section Contract
variable {key : String} {tr : List (Event sig)} {l : ℕ}

/-- A permitted step in a known phase. -/
theorem callContract_pre (hph : phase tr = ph) (h : Permitted key ph op) :
    (callContract key).pre op tr := by
  show Permitted key (phase tr) op
  rwa [hph]

/-- The phase after a step. -/
theorem phase_post {r : sig.Reply op} {tr' : List (Event sig)} (hph : phase tr = ph)
    (h : (callContract key).post op tr r tr') : phase tr' = phaseStep ph ⟨op, r⟩ := by
  obtain ⟨-, rfl⟩ := h
  rw [phase_append, hph]

theorem lock_spec (hph : phase tr = .idle) :
    wp (callContract key) (lock key) (fun l tr => phase tr = .holding key l) tr := by
  rw [lock, wp_bind]
  refine ⟨callContract_pre hph rfl, fun (l : ℕ) tr₁ h₁ => ?_⟩
  have hwaiting : phase tr₁ = .waiting key l := phase_post hph h₁
  show wp (callContract key) (acquire l >>= fun _ => pure l) _ tr₁
  rw [wp_bind]
  refine ⟨callContract_pre hwaiting rfl, fun _ tr₂ h₂ => ?_⟩
  exact phase_post hwaiting h₂

/-- The requests leave the phase as it is. -/
theorem request_spec (url target : String) (hph : phase tr = .holding key l) :
    wp (callContract key) (request url target) (fun _ tr => phase tr = .holding key l) tr := by
  refine wp_of_issues (P := RequestOp) (I := fun tr => phase tr = .holding key l)
    (fun op tr hop hph => ?_) (issues_request url target) hph
  cases op with
  | httpClientFor => exact ⟨callContract_pre hph trivial, fun r tr' h => phase_post hph h⟩
  | send method url => exact ⟨callContract_pre hph trivial, fun r tr' h => phase_post hph h⟩
  | sleep => exact ⟨callContract_pre hph trivial, fun r tr' h => phase_post hph h⟩
  | _ => exact absurd hop id

theorem unlock_spec (hph : phase tr = .holding key l) :
    wp (callContract key) (unlock key l) (fun _ tr => phase tr = .done) tr := by
  rw [unlock, wp_bind]
  refine ⟨callContract_pre hph rfl, fun _ tr₁ h₁ => ?_⟩
  have hleaving := phase_post hph h₁
  refine ⟨callContract_pre hleaving ⟨rfl, rfl⟩, fun _ tr₂ h₂ => ?_⟩
  exact phase_post hleaving h₂

end Contract

/-- **A call follows the discipline**: it registers, acquires, sends its requests, releases and
    deregisters, with its own key and object. -/
theorem createCheckpoint_permitted (host ns podName containerName nodeName : String) :
    wp (callContract (checkpointTargetKey nodeName ns podName containerName))
      (createCheckpoint host ns podName containerName nodeName)
        (fun _ tr => phase tr = .done) [] := by
  rw [createCheckpoint, wp_bind]
  refine wp_mono (fun l tr₁ hlocked => ?_) (lock_spec rfl)
  rw [wp_bind]
  refine wp_mono (fun result tr₂ hrequested => ?_) (request_spec _ _ hlocked)
  rw [wp_bind]
  exact wp_mono (fun _ tr₃ hdone => hdone) (unlock_spec hrequested)

/-! ### Calls side by side -/

/-- What the steps do to the table. -/
def tableAct : (op : sig.Op) → LockTable String → sig.Reply op → LockTable String → Prop
  | .register target, t, l, t' => t.register target = (t', (l : ℕ))
  | .acquire l, t, _, t' => t.Free l ∧ t' = t.setHeld l true
  | .release l, t, _, t' => t' = t.setHeld l false
  | .deregister target l, t, _, t' => t' = t.deregister target l
  | .httpClientFor, t, _, t' => t' = t
  | .send _ _, t, _, t' => t' = t
  | .sleep, t, _, t' => t' = t

/-- The container a call is for. -/
structure Target where
  nodeName : String
  ns : String
  podName : String
  containerName : String
  deriving DecidableEq

/-- Its key. -/
def Target.key (tgt : Target) : String :=
  checkpointTargetKey tgt.nodeName tgt.ns tgt.podName tgt.containerName

/-- The call for it. -/
def Target.call (host : String) (tgt : Target) : Prog sig (Except CheckpointError String) :=
  createCheckpoint host tgt.ns tgt.podName tgt.containerName tgt.nodeName

/-- Calls on any targets, at any time. -/
def world : World sig (Except CheckpointError String) (LockTable String) where
  act := tableAct
  env _ _ := False
  start _ p := ∃ host tgt, p = Target.call host tgt

/-- The calls, by their phases. -/
def users (threads : List (Thread sig (Except CheckpointError String))) : List (Phase String) :=
  threads.map (fun t => phase t.trace)

/-- A call for the target. -/
def CallFor (tgt : Target) (t : Thread sig (Except CheckpointError String)) : Prop :=
  ∃ host, Unfolds (tgt.call host) t.trace t.prog

section Pool
variable {b : Pool sig (Except CheckpointError String) (LockTable String)}

/-- Every thread is a call. -/
theorem callFor_of_reaches {ok} (h : Reaches world ok ⟨LockTable.empty, []⟩ b) :
    ∀ t ∈ b.threads, ∃ tgt, CallFor tgt t := by
  intro t ht
  obtain ⟨p, ⟨host, tgt, rfl⟩, hu⟩ := h.unfolds (P := fun p => ∃ host tgt, p = Target.call host tgt)
    rfl (fun b p hstart => hstart) t ht
  exact ⟨tgt, host, hu⟩

/-- A call's next step is permitted. -/
theorem CallFor.permitted {tgt : Target} {tr : List (Event sig)}
    {k : sig.Reply op → Prog sig (Except CheckpointError String)}
    (h : CallFor tgt ⟨tr, .call op k⟩) : Permitted tgt.key (phase tr) op := by
  obtain ⟨host, hu⟩ := h
  exact pre_of_unfolds (createCheckpoint_permitted _ _ _ _ _) hu (fun _ _ => trivial)

/-- A registered call is registered for its own key. -/
theorem CallFor.uses {tgt : Target} {t : Thread sig (Except CheckpointError String)}
    (h : CallFor tgt t) {key : String} {l : ℕ} (huses : (phase t.trace).uses = some (key, l)) :
    key = tgt.key := by
  obtain ⟨host, hu⟩ := h
  obtain ⟨tr, prog⟩ := t
  dsimp only at hu huses
  induction hu with
  | nil => exact absurd huses (by simp [phase])
  | @snoc tr op k hu r ih =>
    have hpermitted : Permitted tgt.key (phase tr) op :=
      pre_of_unfolds (createCheckpoint_permitted _ _ _ _ _) hu (fun _ _ => trivial)
    rw [phase_append] at huses
    generalize phase tr = ph at hpermitted huses ih
    cases op with
    | register target =>
      have hpair : (target, (r : ℕ)) = (key, l) := Option.some.inj huses
      obtain rfl : target = key := congrArg Prod.fst hpair
      cases ph with
      | idle => exact hpermitted
      | _ => exact absurd hpermitted id
    | acquire l' => cases ph <;> exact ih huses
    | release l' => cases ph <;> exact ih huses
    | deregister target l' => exact absurd huses (by simp [phaseStep])
    | httpClientFor => exact ih huses
    | send method url => exact ih huses
    | sleep => exact ih huses

/-- A permitted step keeps the table in line with the phases. -/
theorem inv_act {t t' : LockTable String} {phases : List (Phase String)} {i : ℕ} {key : String}
    {r : sig.Reply op} (hinv : t.Inv phases) (hi : phases[i]? = some ph)
    (hpermitted : Permitted key ph op) (hact : tableAct op t r t') :
    t'.Inv (phases.set i (phaseStep ph ⟨op, r⟩)) := by
  -- calls to the API concern neither the table nor the phase
  have hsame : t' = t → phaseStep ph ⟨op, r⟩ = ph →
      t'.Inv (phases.set i (phaseStep ph ⟨op, r⟩)) := by
    rintro rfl heq
    obtain ⟨hlt, hget⟩ := List.getElem?_eq_some_iff.mp hi
    rwa [heq, ← hget, List.set_getElem_self]
  cases op with
  | register target =>
    cases ph with
    | idle =>
      have hstep : (t.register target).1.Inv
          (phases.set i (.waiting target (t.register target).2)) := hinv.register hi
      rw [show t.register target = (t', (r : ℕ)) from hact] at hstep
      exact hstep
    | _ => exact absurd hpermitted id
  | acquire l' =>
    cases ph with
    | waiting target l =>
      obtain rfl : l' = l := hpermitted
      obtain ⟨hfree, rfl⟩ := hact
      exact hinv.acquire hi hfree
    | _ => exact absurd hpermitted id
  | release l' =>
    cases ph with
    | holding target l =>
      obtain rfl : l' = l := hpermitted
      obtain rfl : t' = t.setHeld l' false := hact
      exact hinv.release hi
    | _ => exact absurd hpermitted id
  | deregister target' l' =>
    cases ph with
    | leaving target l =>
      obtain ⟨rfl, rfl⟩ : target' = target ∧ l' = l := hpermitted
      obtain rfl : t' = t.deregister target' l' := hact
      exact hinv.deregister hi
    | _ => exact absurd hpermitted id
  | httpClientFor => exact hsame hact rfl
  | send method url => exact hsame hact rfl
  | sleep => exact hsame hact rfl

/-- **The table fits the calls**, in every reachable state. -/
theorem inv_of_reaches {ok} (h : Reaches world ok ⟨LockTable.empty, []⟩ b) :
    b.shared.Inv (users b.threads) := by
  refine h.invariant (I := fun b => b.shared.Inv (users b.threads)) LockTable.inv_empty ?_
  rintro b label c hreach hinv - hstep
  cases hstep with
  | spawn hstart =>
    have husers : ∀ p, users (b.threads ++ [⟨[], p⟩]) = users b.threads ++ [.idle] := by
      intro p
      rw [users, List.map_append]
      rfl
    dsimp only
    rw [husers]
    exact hinv.spawn
  | @act i tr op k r t' hi hact =>
    have husers : users (b.threads.set i ⟨tr ++ [⟨op, r⟩], k r⟩) =
        (users b.threads).set i (phaseStep (phase tr) ⟨op, r⟩) := by
      rw [users, List.map_set, phase_append]
      rfl
    have hphase : (users b.threads)[i]? = some (phase tr) := by
      rw [users, List.getElem?_map, hi]
      rfl
    obtain ⟨tgt, hcall⟩ := callFor_of_reaches hreach _ (List.mem_of_getElem? hi)
    dsimp only
    rw [husers]
    exact inv_act hinv hphase hcall.permitted hact
  | env henv => exact absurd henv id

end Pool

/-! ### Targets and their keys -/

/-- No part of the target contains a slash. -/
def Target.SlashFree (tgt : Target) : Prop :=
  '/' ∉ tgt.nodeName.toList ∧ '/' ∉ tgt.ns.toList ∧ '/' ∉ tgt.podName.toList ∧
    '/' ∉ tgt.containerName.toList

instance (tgt : Target) : Decidable tgt.SlashFree := inferInstanceAs (Decidable (_ ∧ _))

theorem Target.toList_key (tgt : Target) : tgt.key.toList = tgt.nodeName.toList ++ '/' ::
    (tgt.ns.toList ++ '/' :: (tgt.podName.toList ++ '/' :: tgt.containerName.toList)) := by
  simp [Target.key, checkpointTargetKey]

/-- The key tells slash-free targets apart. -/
theorem Target.key_inj {a b : Target} (ha : a.SlashFree) (hb : b.SlashFree)
    (h : a.key = b.key) : a = b := by
  have hchars := congrArg String.toList h
  rw [a.toList_key, b.toList_key, Strings.append_sep_inj ha.1 hb.1,
    Strings.append_sep_inj ha.2.1 hb.2.1, Strings.append_sep_inj ha.2.2.1 hb.2.2.1,
    String.toList_inj, String.toList_inj, String.toList_inj, String.toList_inj] at hchars
  obtain ⟨hnode, hns, hpod, hcontainer⟩ := hchars
  cases a
  cases b
  simp_all

/-! ### At most one request per target -/

/-- The call is between `lock` and `unlock`. -/
def InFlight (t : Thread sig (Except CheckpointError String)) : Prop :=
  ∃ key l, phase t.trace = .holding key l

/-- The call has registered for the key with the object, and has not deregistered. -/
def Registered (key : String) (l : ℕ) (t : Thread sig (Except CheckpointError String)) : Prop :=
  (phase t.trace).uses = some (key, l)

instance (key : String) (l : ℕ) : DecidablePred (Registered key l) := fun t =>
  inferInstanceAs (Decidable ((phase t.trace).uses = some (key, l)))

/-- **One request per target.**  However calls on any targets interleave: at most one call per
    target is between `lock` and `unlock`, and only there it sends requests; calls on different
    targets use different objects; the table has an entry for a key exactly while some call is
    registered for it; the entry's object is the one all of them use, and counts them. -/
theorem requests_serialized {b : Pool sig (Except CheckpointError String) (LockTable String)}
    (h : Reaches world (fun _ _ => True) ⟨LockTable.empty, []⟩ b) :
    (∀ (i j : ℕ) t u tgt, b.threads[i]? = some t → b.threads[j]? = some u → CallFor tgt t →
      CallFor tgt u → InFlight t → InFlight u → i = j) ∧
    (∀ t ∈ b.threads, ∀ method url k, t.prog = .call (.send method url) k → InFlight t) ∧
    (∀ t ∈ b.threads, ∀ u ∈ b.threads, ∀ tgt tgt', CallFor tgt t → CallFor tgt' u →
      tgt.SlashFree → tgt'.SlashFree → tgt ≠ tgt' →
        ∀ key key' l, Registered key l t → ¬ Registered key' l u) ∧
    (∀ key, (∃ l, b.shared.locks.lookup key = some l) ↔
      ∃ t ∈ b.threads, ∃ l, Registered key l t) ∧
    ∀ key l, b.shared.locks.lookup key = some l →
      (∀ t ∈ b.threads, ∀ l', Registered key l' t → l' = l) ∧
      ∃ o, b.shared.objects[l]? = some o ∧
        o.refs = b.threads.countP (fun t => decide (Registered key l t)) := by
  have hinv := inv_of_reaches h
  have hget : ∀ {i : ℕ} {t}, b.threads[i]? = some t →
      (users b.threads)[i]? = some (phase t.trace) := by
    intro i t hi
    rw [users, List.getElem?_map, hi]
    rfl
  have hentry : ∀ t ∈ b.threads, ∀ key l, Registered key l t →
      b.shared.locks.lookup key = some l := fun t ht key l huses =>
    hinv.entry (phase t.trace) (List.mem_map_of_mem ht) key l huses
  have hcount : ∀ key l, (users b.threads).countP (fun u => u.uses = some (key, l)) =
      b.threads.countP (fun t => decide (Registered key l t)) := by
    intro key l
    rw [users, List.countP_map]
    rfl
  refine ⟨?_, ?_, ?_, fun key => ⟨?_, ?_⟩, fun key l hl => ⟨?_, ?_⟩⟩
  · intro i j t u tgt hi hj hcallt hcallu ⟨key, l, hholds⟩ ⟨key', l', hholds'⟩
    -- both are registered for the target's key, so they hold the same object
    have huses : Registered key l t := by rw [Registered, hholds]; rfl
    have huses' : Registered key' l' u := by rw [Registered, hholds']; rfl
    obtain rfl := hcallt.uses huses
    obtain rfl := hcallu.uses huses'
    have hl := hentry t (List.mem_of_getElem? hi) _ _ huses
    have hl' := hentry u (List.mem_of_getElem? hj) _ _ huses'
    obtain rfl : l = l' := Option.some.inj (hl.symm.trans hl')
    exact hinv.holding_unique (hholds ▸ hget hi) (hholds' ▸ hget hj)
  · intro t ht method url k hprog
    obtain ⟨tgt, hcall⟩ := callFor_of_reaches h t ht
    obtain ⟨tr, prog⟩ := t
    obtain rfl : prog = _ := hprog
    have hpermitted := hcall.permitted
    show ∃ key l, phase tr = .holding key l
    cases hph : phase tr with
    | holding key l => exact ⟨key, l, rfl⟩
    | _ =>
      rw [hph] at hpermitted
      exact absurd hpermitted id
  · intro t ht u hu tgt tgt' hcallt hcallu hfree hfree' hne key key' l huses huses'
    obtain rfl := hcallt.uses huses
    obtain rfl := hcallu.uses huses'
    exact hne (Target.key_inj hfree hfree'
      (hinv.inj _ _ l (hentry t ht _ _ huses) (hentry u hu _ _ huses')))
  · rintro ⟨l, hl⟩
    obtain ⟨o, -, -, hpos⟩ := hinv.refs key l hl
    rw [hcount, List.countP_pos_iff] at hpos
    obtain ⟨t, ht, huses⟩ := hpos
    exact ⟨t, ht, l, of_decide_eq_true huses⟩
  · rintro ⟨t, ht, l, huses⟩
    exact ⟨l, hentry t ht key l huses⟩
  · intro t ht l' huses
    exact Option.some.inj ((hentry t ht key l' huses).symm.trans hl)
  · obtain ⟨o, ho, hrefs, -⟩ := hinv.refs key l hl
    exact ⟨o, ho, by rw [hrefs, hcount]⟩

/-- A container. -/
def webTarget : Target := ⟨"node-a", "apps", "web-0", "app"⟩

/-- Two calls for it: one holds the lock, and the other one waits for it. -/
theorem exists_twoCalls :
    ∃ b, Reaches world (fun _ _ => True) ⟨LockTable.empty, []⟩ b ∧
      users b.threads = [.holding webTarget.key 0, .waiting webTarget.key 0] ∧
      b.shared.locks.lookup webTarget.key = some 0 := by
  have hstart : ∀ b, world.start b (webTarget.call "https://host") := fun _ => ⟨_, _, rfl⟩
  have hempty : Reaches world (fun _ _ => True) ⟨LockTable.empty, []⟩ ⟨LockTable.empty, []⟩ := .refl
  have hfirst := hempty.step trivial (.spawn (hstart _))
  have hregister : ∀ t : LockTable String, tableAct (Op.register webTarget.key) t
      (t.register webTarget.key).2 (t.register webTarget.key).1 := fun _ => rfl
  have hregistered := hfirst.step trivial (.act (i := 0) rfl (hregister _))
  have hfree : (LockTable.empty.register webTarget.key).1.Free 0 := ⟨⟨1, false⟩, rfl, rfl⟩
  have hacquire : tableAct (Op.acquire 0) (LockTable.empty.register webTarget.key).1 ()
      ((LockTable.empty.register webTarget.key).1.setHeld 0 true) := ⟨hfree, rfl⟩
  have hacquired := hregistered.step trivial (.act (i := 0) (r := ()) rfl hacquire)
  have hsecond := hacquired.step trivial (.spawn (hstart _))
  have hwaiting := hsecond.step trivial (.act (i := 1) rfl (hregister _))
  exact ⟨_, hwaiting, rfl, rfl⟩

/-- The rule at work: the object of the two calls counts both. -/
theorem requests_serialized_twoCalls :
    ∃ b : Pool sig (Except CheckpointError String) (LockTable String),
      users b.threads = [.holding webTarget.key 0, .waiting webTarget.key 0] ∧
      ∃ o : LockObject, b.shared.objects[0]? = some o ∧ o.refs = 2 := by
  obtain ⟨b, hreach, husers, hentry⟩ := exists_twoCalls
  obtain ⟨o, ho, hrefs⟩ := ((requests_serialized hreach).2.2.2.2 webTarget.key 0 hentry).2
  have hcount : (users b.threads).countP (fun u => u.uses = some (webTarget.key, 0)) = 2 := by
    rw [husers]
    simp
  rw [users, List.countP_map] at hcount
  exact ⟨b, husers, o, ho, hrefs.trans (congrArg Nat.cast hcount)⟩

end CheckpointRestore.Creator
