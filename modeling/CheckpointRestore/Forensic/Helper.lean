import CheckpointRestore.Forensic.Reconcile
import CheckpointRestore.Lib.Interp

namespace CheckpointRestore.Forensic

open Interaction

/-!
# The helper pods of `computeChecksum`

A checksum is computed by a pod on the node of the archive.  To `Reconcile` the log of that pod is
one request; here it is the code behind it, with the deferred calls at their places.

* `HelperOp`, `helperSig` — the requests;
* `awaitHelper`, `helperOutput`, `runHelper` — the code;
* `helperContract` — what is kept with every request, over the pod that is there;
* `helpers_deleted` — every `Reconcile` keeps it, and leaves no pod behind.
-/

/-- The pod, with what the code sets. -/
structure HelperPod where
  name : String
  ns : String
  nodeName : String
  restartPolicy : String
  hostPath : String
  image : String
  command : List String
  mountPath : String
  readOnly : Bool

/-- Its phase, with the message if it is looked at. -/
inductive HelperPhase where
  | succeeded
  | failed (message : String)
  | other

/-- The requests of `Reconcile`, and those behind the log of a helper pod. -/
inductive HelperOp where
  | reconciler (op : Op)
  | unixNano
  | create (pod : HelperPod)
  | sleep (d : ℤ)
  | get (ns name : String)
  | stream (ns name : String)
  | close
  | delete (pod : HelperPod)

/-- The requests with their answers; a stream comes with what can be read from it. -/
def helperSig : Signature where
  Op := HelperOp
  Reply
    | .reconciler op => sig.Reply op
    | .unixNano => ℤ
    | .create _ => Option String
    | .get _ _ => Except String HelperPhase
    | .stream _ _ => Except String Logs
    | .delete _ => Option String
    | _ => Unit

/-- One request. -/
def ask (op : helperSig.Op) : Prog helperSig (helperSig.Reply op) := .perform op

/-- The pod for an archive. -/
def helperPod (ns node path : String) (nanos : ℤ) : HelperPod where
  name := "checksum-helper-" ++ toString nanos
  ns := ns
  nodeName := node
  restartPolicy := "Never"
  hostPath := "/var/lib/kubelet/checkpoints"
  image := "alpine:latest"
  command := ["sh", "-c", "sha256sum " ++ path]
  mountPath := "/var/lib/kubelet/checkpoints"
  readOnly := true

/-- The loop, with the rounds that are left: the error it returns. -/
def awaitHelper (pod : HelperPod) : ℕ → Prog helperSig (Option String)
  | 0 => return none
  | left + 1 => do
    ask (.sleep 2000000000)
    match ← ask (.get pod.ns pod.name) with
    | .error e => return some ("failed to get helper pod: " ++ e)
    | .ok .succeeded => return none
    | .ok (.failed message) => return some ("helper pod failed: " ++ message)
    | .ok .other => if left = 0 then return some "helper pod timed out" else awaitHelper pod left

/-- From the loop to the log. -/
def helperOutput (pod : HelperPod) : Prog helperSig (Except String Logs) := do
  match ← awaitHelper pod 30 with
  | some e => return .error e
  | none =>
    match ← ask (.stream pod.ns pod.name) with
    | .error e => return .error ("stream helper pod logs: " ++ e)
    | .ok logs => do
      ask .close
      return .ok logs

/-- `computeChecksum` up to the log, which `parseSHA256FromLogs` reads. -/
def runHelper (ns node path : String) : Prog helperSig (Except String Logs) := do
  let nanos ← ask .unixNano
  match ← ask (.create (helperPod ns node path nanos)) with
  | some e => return .error ("failed to create helper pod: " ++ e)
  | none => do
    let logs ← helperOutput (helperPod ns node path nanos)
    let _ ← ask (.delete (helperPod ns node path nanos))
    return logs

/-- The requests of `Reconcile`, with the code behind the log. -/
def runOp : (op : sig.Op) → Prog helperSig (sig.Reply op)
  | .helperLogs ns node path => runHelper ns node path
  | op => ask (.reconciler op)

/-! ### No pod is left behind -/

/-- A pod that is there: how often it was looked at, and whether it was seen to succeed. -/
structure Helper where
  pod : HelperPod
  looks : ℕ
  succeeded : Bool

/-- A pod is created when none is there, and nothing else is done before its deletion.  It is looked
    at 30 times at most, and its log is read when it has succeeded. -/
def helperContract : Contract helperSig (Option Helper) where
  pre
    | .reconciler _, h | .create _, h => h = none
    | .get ns name, h => ∃ k, h = some k ∧ k.pod.ns = ns ∧ k.pod.name = name ∧ k.looks < 30
    | .stream ns name, h => ∃ k, h = some k ∧ k.pod.ns = ns ∧ k.pod.name = name ∧ k.succeeded = true
    | .delete pod, h => ∃ k, h = some k ∧ k.pod = pod
    | _, _ => True
  post
    | .create pod, _, none, h' => h' = some ⟨pod, 0, false⟩
    | .get _ _, h, .ok .succeeded, h' => h' = h.map (fun k => ⟨k.pod, k.looks + 1, true⟩)
    | .get _ _, h, _, h' => h' = h.map (fun k => { k with looks := k.looks + 1 })
    | .delete _, _, _, h' => h' = none
    | _, h, _, h' => h' = h

section Helper
variable (pod : HelperPod) {left looks : ℕ}

/-- The loop ends without an error when the pod was seen to succeed. -/
theorem wp_awaitHelper (hpos : 0 < left) (hle : looks + left ≤ 30) :
    wp helperContract (awaitHelper pod left)
      (fun err h => ∃ k, h = some k ∧ k.pod = pod ∧ (err = none → k.succeeded = true))
      (some ⟨pod, looks, false⟩) := by
  induction left generalizing looks with
  | zero => exact absurd hpos (Nat.lt_irrefl 0)
  | succ left ih =>
    refine ⟨trivial, ?_⟩
    rintro _ _ rfl
    refine ⟨⟨_, rfl, rfl, rfl, Nat.lt_of_lt_of_le (Nat.lt_add_of_pos_right hpos) hle⟩, ?_⟩
    rintro (reply : Except String HelperPhase) h hget
    rcases reply with e | (_ | message | _)
    · exact ⟨_, hget, rfl, by simp⟩
    · exact ⟨_, hget, rfl, fun _ => rfl⟩
    · exact ⟨_, hget, rfl, by simp⟩
    · show wp _ (if left = 0 then _ else _) _ _
      split_ifs with hleft
      · exact ⟨_, hget, rfl, by simp⟩
      · cases hget
        have hnext : looks + 1 + left ≤ 30 := by omega
        exact ih (Nat.pos_of_ne_zero hleft) hnext

theorem wp_helperOutput : wp helperContract (helperOutput pod)
    (fun _ h => ∃ k, h = some k ∧ k.pod = pod) (some ⟨pod, 0, false⟩) := by
  rw [helperOutput, wp_bind]
  refine wp_mono ?_ (wp_awaitHelper pod (by omega) (by omega))
  rintro (_ | e) _ ⟨k, rfl, rfl, hk⟩
  · refine ⟨⟨k, rfl, rfl, rfl, hk rfl⟩, ?_⟩
    rintro (reply : Except String Logs) _ rfl
    rcases reply with e | logs
    · exact ⟨k, rfl, rfl⟩
    · exact ⟨trivial, fun _ _ hclose => ⟨k, hclose, rfl⟩⟩
  · exact ⟨k, rfl, rfl⟩

theorem wp_runHelper (ns node path : String) :
    wp helperContract (runHelper ns node path) (fun _ h => h = none) none := by
  refine ⟨trivial, ?_⟩
  rintro (nanos : ℤ) _ rfl
  refine ⟨rfl, ?_⟩
  rintro (err : Option String) h hcreate
  cases err with
  | some e => exact hcreate
  | none =>
    cases hcreate
    -- the deferred deletion follows whatever the loop and the stream return
    show wp _ (helperOutput _ >>= _) _ _
    rw [wp_bind]
    refine wp_mono ?_ (wp_helperOutput _)
    rintro logs _ ⟨k, rfl, hpod⟩
    exact ⟨⟨k, rfl, hpod⟩, fun _ _ hdelete => hdelete⟩

end Helper

/-- **No helper pod is left behind.**  In every `Reconcile`, whatever the answers to its requests,
    helper pods are created one at a time, the deletion of each is requested before anything else is
    done and before `Reconcile` returns, each is looked at 30 times at most, and a log is read only
    from a pod that was seen to succeed. -/
theorem helpers_deleted :
    wp helperContract (reconcile.interp runOp) (fun _ h => h = none) none := by
  refine wp_interp_of_keeps (I := fun h => h = none) (fun op h hnone => ?_) reconcile rfl
  subst hnone
  cases op with
  | helperLogs ns node path => exact wp_runHelper ns node path
  | _ => exact ⟨rfl, fun _ _ hsame => hsame⟩

end CheckpointRestore.Forensic
