import CheckpointRestore.Forensic.Trace

namespace CheckpointRestore.Forensic

open Go Interaction

/-!
# Reconciles one after the other — status writes that may fail

The world in which reconciles of one chain follow each other: `Get` returns what is stored or
fails, a status write replaces it or has no effect, and everything else answers as it likes.

* `faultyAct` — that world;
* `replay` — what is stored after the events of a trace;
* `Turn`, `reconcile_turn` — what one reconcile does to the stored object, from its whole trace;
* `reconcile_deletes` — what was stored when a pod is deleted, and for which trace;
* `History` — runs of reconciles and of edits of the spec, with the traces of the reconciles that
  have gone before.
-/

/-! ### The world -/

/-- The answers and effects of the operations on the stored object. -/
def faultyAct : (op : sig.Op) → Chain → sig.Reply op → Chain → Prop
  | .get, c, r, c' => (r = .found c ∨ ∃ msg, r = .failed msg) ∧ c' = c
  | .statusUpdate new, c, r, c' => (r = .ok ∧ c' = c.store new.status) ∨ (r ≠ .ok ∧ c' = c)
  | .now, c, _, c' => c' = c
  | .listPods _ _, c, _, c' => c' = c
  | .createCheckpoint _ _ _ _, c, _, c' => c' = c
  | .helperLogs _ _ _, c, _, c' => c' = c
  | .deletePod _, c, _, c' => c' = c

/-- The stored object after an event. -/
def Chain.after (c : Chain) (e : Event sig) : Chain :=
  match written e with
  | some new => c.store new.status
  | none => c

/-- The stored object after the events of a trace. -/
def replay (c : Chain) (tr : List (Event sig)) : Chain := tr.foldl Chain.after c

theorem replay_append (c : Chain) (tr tr' : List (Event sig)) :
    replay c (tr ++ tr') = replay (replay c tr) tr' := List.foldl_append

/-- Without a write that succeeds nothing changes. -/
theorem replay_of_unwritten {c : Chain} {tr : List (Event sig)} (h : ¬ Wrote tr) :
    replay c tr = c := by
  induction tr with
  | nil => rfl
  | cons e rest ih =>
    have hfirst : written e = none := by
      by_contra hne
      exact h ⟨e, List.mem_cons_self, Option.isSome_iff_ne_none.mpr hne⟩
    have hrest : ¬ Wrote rest := by
      rintro ⟨x, hx, hw⟩
      exact h ⟨x, List.mem_cons_of_mem _ hx, hw⟩
    rw [replay, List.foldl_cons, Chain.after, hfirst]
    exact ih hrest

/-- The stored object changes with the writes that succeed. -/
theorem faultyAct_after {op : sig.Op} {c c' : Chain} {r : sig.Reply op}
    (h : faultyAct op c r c') : c' = c.after ⟨op, r⟩ := by
  cases op with
  | get => exact h.2
  | statusUpdate new =>
    rcases h with ⟨rfl, rfl⟩ | ⟨hr, rfl⟩
    · rfl
    · rw [Chain.after, (silent_statusUpdate new hr).written]
  | _ => exact h

/-- A run leaves what its trace says, and every `Get` returned what was stored then. -/
theorem replay_of_runs {α : Type} {p : Prog sig α} {c c' : Chain} {tr : List (Event sig)} {a : α}
    (h : Runs faultyAct p c tr a c') :
    c' = replay c tr ∧ ∀ pre latest post,
      tr = pre ++ ⟨Op.get, GetReply.found latest⟩ :: post → latest = replay c pre := by
  induction h with
  | pure a c =>
    exact ⟨rfl, fun pre latest post htr => absurd htr (by simp)⟩
  | @call op k c c₁ c₂ r tr a hact _ ih =>
    have hafter := faultyAct_after hact
    refine ⟨by rw [ih.1, hafter]; rfl, fun pre latest post htr => ?_⟩
    cases pre with
    | nil =>
      obtain ⟨he, -⟩ := List.cons.inj htr
      have hop : op = Op.get := congrArg Event.op he
      subst hop
      have hr : r = GetReply.found latest := by injection he
      rcases hact.1 with hfound | ⟨msg, hfailed⟩
      · exact (GetReply.found.inj (hr.symm.trans hfound))
      · exact absurd (hr.symm.trans hfailed) (by simp)
    | cons e pre =>
      obtain ⟨he, htr'⟩ := List.cons.inj htr
      rw [ih.2 pre latest post htr', hafter, he]
      rfl

/-! ### One reconcile -/

/-- What one reconcile does to the stored object, by its trace. -/
inductive Turn (c : Chain) (tr : List (Event sig)) (c' : Chain) : Prop
  | idle (hw : ¬ Wrote tr) (hc : c' = c)
  | toPending (hw : Wrote tr) (hp : c.status.phase = .empty) (hf : ¬ CheckpointFailed tr)
      (t₁ t₂ : ℤ) (hc : c' = c.store (c.status.toPending t₁ t₂ c.generation))
  | toRunning (hw : Wrote tr) (hp : c.status.phase = .pending) (hf : ¬ CheckpointFailed tr)
      (t₁ : ℤ) (hc : c' = c.store (c.status.toRunning t₁ c.generation))
  | update (hw : Wrote tr) (hp : c.status.phase = .running) {mutate : ℤ → ℤ → Status → Status}
      {after : Option (List PodInfo × ℤ)} (hm : Mutation c tr mutate after) (t₁ t₂ : ℤ)
      (hc : c' = c.update (mutate t₁ t₂ c.status))

section Reconcile
variable {c c' : Chain} {tr : List (Event sig)} {o : Outcome}

/-- Deletions leave the stored object alone. -/
theorem replay_deletions {deletions : List (Event sig)} (c : Chain)
    (h : ∀ e ∈ deletions, ∃ pod r, e = ⟨Op.deletePod pod, r⟩) : replay c deletions = c := by
  refine replay_of_unwritten ?_
  rintro ⟨e, he, hw⟩
  obtain ⟨pod, r, rfl⟩ := h e he
  exact absurd hw (by simp [written])

/-- What is read before the first write is what was stored at the start. -/
theorem eq_of_read (h : Runs faultyAct reconcile c tr o c') {before rest : List (Event sig)}
    (htr : tr = before ++ rest) (hw : ¬ Wrote before) {latest : Chain}
    (hread : ⟨Op.get, GetReply.found latest⟩ ∈ before) : latest = c := by
  obtain ⟨before₁, before₂, rfl⟩ := List.append_of_mem hread
  have hunwritten : ¬ Wrote before₁ := by
    rintro ⟨e, he, hwritten⟩
    exact hw ⟨e, List.mem_append_left _ he, hwritten⟩
  have hsplit : tr = before₁ ++ ⟨Op.get, GetReply.found latest⟩ :: (before₂ ++ rest) := by
    rw [htr]
    simp
  rw [(replay_of_runs h).2 _ _ _ hsplit, replay_of_unwritten hunwritten]

/-- A write that succeeded carried the change the trace justifies, of the stored object. -/
theorem writes_of_runs (h : Runs faultyAct reconcile c tr o c') {before post : List (Event sig)}
    {new : Chain} (htr : tr = before ++ ⟨Op.statusUpdate new, UpdateReply.ok⟩ :: post) :
    ¬ Wrote before ∧ c' = c.store new.status ∧
    ((c.status.phase = .empty ∧ ¬ CheckpointFailed before ∧
        ∃ t₁ t₂, new.status = c.status.toPending t₁ t₂ c.generation) ∨
      (c.status.phase = .pending ∧ ¬ CheckpointFailed before ∧
        ∃ t₁, new.status = c.status.toRunning t₁ c.generation) ∨
      (c.status.phase = .running ∧ ∃ mutate after t₁ t₂,
        Updates c before c mutate after ∧ new = c.mutated (mutate t₁ t₂))) := by
  obtain ⟨hunwritten, c₀, ⟨rest, hbegan⟩, hwrites⟩ := specified_of_runs h htr
  have hread : ∀ latest, ⟨Op.get, GetReply.found latest⟩ ∈ before → latest = c :=
    fun latest => eq_of_read h htr hunwritten
  obtain rfl : c₀ = c := hread c₀ (by rw [hbegan]; exact List.mem_cons_self)
  refine ⟨hunwritten, ?_, ?_⟩
  · rw [(replay_of_runs h).1, htr, replay_append, replay_of_unwritten hunwritten]
    exact replay_deletions _ (deletions_of_runs h htr rfl)
  · cases hwrites with
    | toPending hp hf t₁ t₂ => exact Or.inl ⟨hp, hf, t₁, t₂, rfl⟩
    | toRunning hp hf t₁ => exact Or.inr (Or.inl ⟨hp, hf, t₁, rfl⟩)
    | @update hp latest mutate after hu t₁ t₂ =>
      have hlatest : latest = c₀ := by
        obtain ⟨pre, silent, rfl, -, hget, -⟩ := hu
        exact hread latest (List.mem_append_right _ hget)
      subst hlatest
      exact Or.inr (Or.inr ⟨hp, mutate, after, t₁, t₂, hu, rfl⟩)

/-- What was justified before the write is justified by the whole trace. -/
theorem Updates.mutation {before post : List (Event sig)} {new : Chain} {r : UpdateReply}
    {mutate : ℤ → ℤ → Status → Status} {after : Option (List PodInfo × ℤ)}
    (h : Updates c before c mutate after)
    (hpost : ∀ e ∈ post, ∃ pod r, e = ⟨Op.deletePod pod, r⟩) :
    Mutation c (before ++ ⟨Op.statusUpdate new, r⟩ :: post) mutate after := by
  obtain ⟨pre, rest, rfl, hsilent, -, hm⟩ := h
  rw [List.append_assoc]
  refine hm.append (fun e he => ?_)
  rcases List.mem_append.mp he with he | he
  · exact (hsilent e he).toMute
  · rcases List.mem_cons.mp he with rfl | he
    · exact ⟨rfl, rfl, rfl⟩
    · obtain ⟨pod, r, rfl⟩ := hpost e he
      exact (silent_deletePod pod r).toMute

/-- **The inversion lemma.**  Every reconcile is one of the turns. -/
theorem reconcile_turn (h : Runs faultyAct reconcile c tr o c') : Turn c tr c' := by
  by_cases hw : Wrote tr
  · obtain ⟨⟨op, r⟩, he, hsome⟩ := hw
    obtain ⟨before, post, htr⟩ := List.append_of_mem he
    -- only a status write that succeeds writes
    obtain ⟨new, rfl⟩ : ∃ new, op = Op.statusUpdate new := by
      cases op with
      | statusUpdate new => exact ⟨new, rfl⟩
      | _ => exact absurd hsome (by simp [written])
    obtain rfl : r = UpdateReply.ok := by
      by_contra hr
      rw [(silent_statusUpdate new hr).written] at hsome
      exact absurd hsome (by simp)
    have hw : Wrote tr := ⟨_, he, hsome⟩
    have hdeletions := deletions_of_runs h htr rfl
    have hfailed : ¬ CheckpointFailed before → ¬ CheckpointFailed tr := by
      rw [htr]
      refine (checkpointFailed_append (fun e he => ?_)).not.mpr
      rcases List.mem_cons.mp he with rfl | he
      · exact ⟨rfl, rfl, rfl⟩
      · obtain ⟨pod, r, rfl⟩ := hdeletions e he
        exact (silent_deletePod pod r).toMute
    obtain ⟨-, hc, ⟨hp, hf, t₁, t₂, hnew⟩ | ⟨hp, hf, t₁, hnew⟩ |
      ⟨hp, mutate, after, t₁, t₂, hu, hnew⟩⟩ := writes_of_runs h htr
    · exact .toPending hw hp (hfailed hf) t₁ t₂ (by rw [hc, hnew])
    · exact .toRunning hw hp (hfailed hf) t₁ (by rw [hc, hnew])
    · have hm : Mutation c tr mutate after := by
        rw [htr]
        exact hu.mutation hdeletions
      exact .update hw hp hm t₁ t₂ (by rw [hc, hnew]; rfl)
  · exact .idle hw (by rw [(replay_of_runs h).1, replay_of_unwritten hw])

/-- During a reconcile, what was stored before is stored until what is left is. -/
theorem stored_of_runs (h : Runs faultyAct reconcile c tr o c') {pre post : List (Event sig)}
    (htr : tr = pre ++ post) : replay c pre = c ∨ replay c pre = c' := by
  by_cases hw : Wrote pre
  · obtain ⟨e, he, hsome⟩ := hw
    obtain ⟨before, rest, rfl⟩ := List.append_of_mem he
    have hsplit : tr = before ++ e :: (rest ++ post) := by
      rw [htr]
      simp
    have hdeletions := deletions_of_runs h hsplit hsome
    -- the write is followed by deletions, up to the end of the prefix and of the trace
    have hrest : replay (replay c (before ++ [e])) rest = replay c (before ++ [e]) :=
      replay_deletions _ (fun e he => hdeletions e (List.mem_append_left _ he))
    have hall : replay (replay c (before ++ [e])) (rest ++ post) = replay c (before ++ [e]) :=
      replay_deletions _ hdeletions
    right
    rw [(replay_of_runs h).1, hsplit, List.append_cons before e rest,
      List.append_cons before e (rest ++ post), replay_append c _ rest,
      replay_append c _ (rest ++ post), hrest, hall]
  · exact Or.inl (replay_of_unwritten hw)

/-- When a pod is deleted, the chain has been completed for it, and that is what is stored. -/
theorem reconcile_deletes (h : Runs faultyAct reconcile c tr o c') {pre post : List (Event sig)}
    {pod : PodInfo} {r : DeleteReply} (htr : tr = pre ++ ⟨Op.deletePod pod, r⟩ :: post) :
    replay c pre = c' ∧ c.status.phase = .running ∧ c.spec.postSnapshotAction = .deletePod ∧
    ∃ mutate pods count t₁ t₂, Mutation c tr mutate (some (pods, count)) ∧
      c' = c.update (mutate t₁ t₂ c.status) ∧ count ≠ 0 ∧ pod ∈ pods := by
  obtain ⟨c₀, hbegan, before, latest, mutate, pods, count, t₁, t₂, deletions, hpre, hdeletions, hu,
    hp, haction, hcount, hpod⟩ := specified_of_runs h htr
  have hsplit : tr = before ++ ⟨Op.statusUpdate (latest.mutated (mutate t₁ t₂)), UpdateReply.ok⟩ ::
      (deletions ++ ⟨Op.deletePod pod, r⟩ :: post) := by
    rw [htr, hpre]
    simp
  obtain ⟨hunwritten, hc, -⟩ := writes_of_runs h hsplit
  -- both the version read first and the one that was changed are the stored one
  have hlatest : latest = c := by
    obtain ⟨pre', silent, rfl, -, hget, -⟩ := hu
    exact eq_of_read h hsplit hunwritten (List.mem_append_right _ hget)
  have hfirst : c₀ = c := by
    obtain ⟨rest, hrest⟩ := hbegan
    rw [hrest] at htr
    exact (replay_of_runs h).2 [] c₀ (rest ++ ⟨Op.deletePod pod, r⟩ :: post) htr
  subst hfirst hlatest
  refine ⟨?_, hp, haction, mutate, pods, count, t₁, t₂, ?_, hc, hcount, hpod⟩
  · rw [hpre, replay_append, replay_of_unwritten hunwritten, hc]
    exact replay_deletions _ hdeletions
  · rw [hsplit]
    exact hu.mutation (deletions_of_runs h hsplit rfl)

end Reconcile

/-! ### Runs of reconciles -/

/-- A reconcile of the past: the object that was stored when it began, and its trace. -/
structure Reconciled where
  chain : Chain
  trace : List (Event sig)

/-- The reconcile recorded a round: the chain was running, its algorithm supported, its maximum
    duration had not passed, no checkpoint failed, and a status write succeeded. -/
structure RecordedRound (r : Reconciled) : Prop where
  running : r.chain.status.phase = .running
  supported : supported r.chain
  due : Decided r.trace r.chain false
  unfailed : ¬ CheckpointFailed r.trace
  wrote : Wrote r.trace

/-- The object after another writer has edited its spec. -/
def Chain.edited (c : Chain) (spec : Spec) (generation : ℤ) : Chain :=
  { c with spec, generation, resourceVersion := c.resourceVersion + 1 }

/-- Reconciles one after the other, each under the condition `ok` on those before it, the stored
    object and its own trace, and edits in between. -/
inductive History (ok : List Reconciled → Chain → List (Event sig) → Prop) (c₀ : Chain) :
    List Reconciled → Chain → Prop
  | refl : History ok c₀ [] c₀
  | step {past : List Reconciled} {c c' : Chain} {tr : List (Event sig)} {o : Outcome}
      (h : History ok c₀ past c) (hok : ok past c tr) (hr : Runs faultyAct reconcile c tr o c') :
      History ok c₀ (past ++ [⟨c, tr⟩]) c'
  | edit {past : List Reconciled} {c : Chain} (h : History ok c₀ past c) (spec : Spec)
      (generation : ℤ) : History ok c₀ past (c.edited spec generation)

/-- The run lemma: what holds at the start and is kept by every turn and edit holds throughout. -/
theorem History.invariant {ok : List Reconciled → Chain → List (Event sig) → Prop} {c₀ c : Chain}
    {past : List Reconciled} {I : List Reconciled → Chain → Prop} (h : History ok c₀ past c)
    (h0 : I [] c₀) (hstep : ∀ past c tr c', I past c → ok past c tr → Turn c tr c' →
      I (past ++ [⟨c, tr⟩]) c')
    (hedit : ∀ past c spec generation, I past c → I past (c.edited spec generation)) :
    I past c := by
  induction h with
  | refl => exact h0
  | step _ hok hr ih => exact hstep _ _ _ _ ih hok (reconcile_turn hr)
  | edit _ spec generation ih => exact hedit _ _ spec generation ih

/-! ### Clusters that answer -/

/-- The read or status write did what it was asked to. -/
def served : Event sig → Bool
  | ⟨.get, r⟩ => match (r : GetReply) with
    | .found _ => true
    | _ => false
  | ⟨.statusUpdate _, r⟩ => match (r : UpdateReply) with
    | .ok => true
    | _ => false
  | _ => true

/-- A cluster with fixed answers that serves every read and write, at one time of the clock. -/
def Cluster.serve (cl : Cluster) : (op : sig.Op) → Chain → sig.Reply op × Chain
  | .get, c => (.found c, c)
  | .statusUpdate new, c => (.ok, c.store new.status)
  | .now, c => ((cl.tick : ℤ), c)
  | .listPods _ _, c => (.ok cl.pods, c)
  | .createCheckpoint _ _ container _, c => (cl.checkpoint container, c)
  | .helperLogs _ _ path, c => (cl.logs path, c)
  | .deletePod _, c => (.ok, c)

theorem Cluster.serve_act (cl : Cluster) (op : sig.Op) (c : Chain) :
    faultyAct op c (cl.serve op c).1 (cl.serve op c).2 := by
  cases op with
  | get => exact ⟨Or.inl rfl, rfl⟩
  | statusUpdate new => exact Or.inl ⟨rfl, rfl⟩
  | _ => rfl

/-- The stored object after one reconcile in that cluster. -/
def Cluster.turn (cl : Cluster) (c : Chain) : Chain := (exec cl.serve Forensic.reconcile c).2

/-- The trace of that reconcile. -/
def Cluster.turnTrace (cl : Cluster) (c : Chain) : List (Event sig) :=
  trace cl.serve Forensic.reconcile c

theorem Cluster.runs (cl : Cluster) (c : Chain) :
    Runs faultyAct Forensic.reconcile c (cl.turnTrace c) (exec cl.serve Forensic.reconcile c).1
      (cl.turn c) :=
  Runs.of_exec cl.serve_act Forensic.reconcile c

/-- It serves its reads and writes. -/
theorem Cluster.served_turnTrace (cl : Cluster) (c : Chain) :
    ∀ e ∈ cl.turnTrace c, served e = true := by
  refine forall_mem_trace (fun op c => ?_) Forensic.reconcile c
  cases op with
  | _ => rfl

/-- What was reconciled and what is stored after one cluster after the other has answered. -/
def reconciles (c₀ : Chain) (clusters : List Cluster) : List Reconciled × Chain :=
  clusters.foldl (fun s cl => (s.1 ++ [⟨s.2, cl.turnTrace s.2⟩], cl.turn s.2)) ([], c₀)

/-- This is a run, under any condition that its reconciles meet. -/
theorem History.reconciles {ok : List Reconciled → Chain → List (Event sig) → Prop} (c₀ : Chain)
    (clusters : List Cluster)
    (hok : ∀ i cl, clusters[i]? = some cl →
      ok (reconciles c₀ (clusters.take i)).1 (reconciles c₀ (clusters.take i)).2
        (cl.turnTrace (reconciles c₀ (clusters.take i)).2)) :
    History ok c₀ (reconciles c₀ clusters).1 (reconciles c₀ clusters).2 := by
  induction clusters using List.reverseRecOn with
  | nil => exact .refl
  | append_singleton clusters cl ih =>
    have hinit := ih (fun i cl' hcl => by
      have hi : i < clusters.length := (List.getElem?_eq_some_iff.mp hcl).1
      have hstep := hok i cl' (by rw [List.getElem?_append_left hi]; exact hcl)
      rwa [List.take_append_of_le_length hi.le] at hstep)
    have hlast := hok clusters.length cl (by simp)
    rw [List.take_left] at hlast
    have hnext := History.step hinit hlast (cl.runs _)
    rw [Forensic.reconciles, List.foldl_append]
    exact hnext

/-! ### A chain for one minute -/

/-- Capture every half minute for at most one minute, then delete the pods. -/
def minuteChain : Chain :=
  evidenceChain { interval := none, maxSnapshots := none, maxDuration := some (60 * second) } ""
    .deletePod

/-- A pod of the application. -/
def appPod (name : String) : PodInfo where
  name := name
  nodeName := "n1"
  running := true
  containers := ["app"]

/-- The pods at a time in seconds, every one of which can be checkpointed. -/
def podsAt (seconds : ℕ) (names : List String) : Cluster where
  tick := seconds * 10 ^ 9
  pods := names.map appPod
  checkpoint container := .ok ("/var/lib/kubelet/checkpoints/" ++ container ++ ".tar")
  logs _ := .error "no helper pod"

/-- Three reconciles with the pod `web`: two phase changes and a round. -/
def webClusters : List Cluster := List.replicate 3 (podsAt 0 ["web"])

/-- The chain after the first of them. -/
def webChain (n : ℕ) : Chain := (reconciles minuteChain (webClusters.take n)).2

end CheckpointRestore.Forensic
