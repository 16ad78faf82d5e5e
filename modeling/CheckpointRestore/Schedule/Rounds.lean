import CheckpointRestore.Lib.ForkJoin
import CheckpointRestore.Schedule.EventTrigger

namespace CheckpointRestore.Schedule.Lifecycle

open Interaction

/-!
# A round of periodic checkpoints

`runScheduledCheckpoints` checkpoints all selected containers at once: a goroutine each, with one
counter of those that succeeded.

* `targets`, `goroutine` — the calls of a round and the function started for each;
* `selected` — the calls it should make; `targets_eq`: these are its calls;
* `callAct` — what goroutines do to their counter, over any state that others change meanwhile;
* `joins_accounts` — the calls and the counter of a round, in any order of the goroutines.
-/

/-! ### Goroutines -/

/-- What `createCheckpoint` is called for. -/
structure Target where
  ns : String
  pod : String
  container : String
  node : String
  deriving DecidableEq

/-- What a goroutine does: the call, and `created.Add(1)`. -/
inductive CallOp where
  | createCheckpoint (target : Target)
  | add

/-- The effect signature of the goroutines. -/
def callSig : Signature where
  Op := CallOp
  Reply
    | .createCheckpoint _ => Except String String
    | .add => Unit

/-- `creator.createCheckpoint`. -/
def createCheckpoint (target : Target) : Prog callSig (Except String String) :=
  .perform (S := callSig) (CallOp.createCheckpoint target)

/-- `created.Add(1)`. -/
def add : Prog callSig Unit := .perform (S := callSig) CallOp.add

/-- The function that `runScheduledCheckpoints` starts for a container. -/
def goroutine (target : Target) : Prog callSig Unit := do
  match ← createCheckpoint target with
  | .error _ => return ()
  | .ok _ => add

/-! ### Which containers -/

/-- `filterContainers`, by the names of the containers. -/
def filterContainers (pod : Pod) (containerNames : List String) : List String :=
  if containerNames = [] then pod.containers
  else pod.containers.filter (fun c => containerNames.contains c)

/-- The set of names that `runScheduledCheckpoints` builds for itself. -/
def containerSet (containerNames : List String) : List String :=
  containerNames.foldl (fun set name => set.insert name) []

/-- The container is passed over. -/
def skips (set : List String) (container : String) : Bool :=
  set.length > 0 && !set.contains container

/-- The call for a container of a pod. -/
def target (pod : Pod) (container : String) : Target where
  ns := pod.ns
  pod := pod.name
  container := container
  node := pod.nodeName

/-- The calls of a round, in the order in which their goroutines are started. -/
def targets (containerNames : List String) (pods : List Pod) : List Target :=
  pods.flatMap (fun pod => (pod.containers.filter (fun c =>
    !skips (containerSet containerNames) c)).map (target pod))

/-- The calls that a round should make. -/
def selected (containerNames : List String) (pods : List Pod) : List Target :=
  pods.flatMap (fun pod => (filterContainers pod containerNames).map (target pod))

theorem mem_foldl_insert (names : List String) (set : List String) (c : String) :
    c ∈ names.foldl (fun set name => set.insert name) set ↔ c ∈ set ∨ c ∈ names := by
  induction names generalizing set with
  | nil => simp
  | cons name names ih =>
    rw [List.foldl_cons, ih, List.mem_insert_iff, List.mem_cons]
    tauto

theorem mem_containerSet (names : List String) (c : String) :
    c ∈ containerSet names ↔ c ∈ names := by
  unfold containerSet
  rw [mem_foldl_insert]
  simp

/-- The round's own filter is `filterContainers`. -/
theorem targets_eq (containerNames : List String) (pods : List Pod) :
    targets containerNames pods = selected containerNames pods := by
  -- the round tests the length of the set, `filterContainers` that of the list
  have hempty : containerSet containerNames = [] ↔ containerNames = [] := by
    simp only [List.eq_nil_iff_forall_not_mem, mem_containerSet]
  unfold targets selected filterContainers skips
  by_cases hnames : containerNames = []
  · subst hnames
    have hset : containerSet [] = [] := rfl
    simp [hset]
  · have hset : containerSet containerNames ≠ [] := fun h => hnames (hempty.mp h)
    have hlength : (containerSet containerNames).length > 0 := List.length_pos_iff.mpr hset
    simp [hlength, hnames, mem_containerSet]

/-! ### All goroutines of a round -/

/-- The counter after an operation of a goroutine. -/
def counts (created : Int32) (e : Event callSig) : Int32 :=
  match e.op with
  | .createCheckpoint _ => created
  | .add => created + 1

/-- What the operations of the goroutines do to their counter, with others at work before each;
    calls may end in any way. -/
def callAct {σ : Type} (others : σ → σ → Prop) (op : callSig.Op) (s : Int32 × σ)
    (r : callSig.Reply op) (s' : Int32 × σ) : Prop :=
  s'.1 = counts s.1 ⟨op, r⟩ ∧ others s.2 s'.2

/-- The target of a call. -/
def calledBy (e : Event callSig) : Option Target :=
  match e.op with
  | .createCheckpoint target => some target
  | .add => none

/-- The targets of the calls of a trace. -/
def called (calls : List (Event callSig)) : List Target := calls.filterMap calledBy

/-- The event is a call that succeeded. -/
def succeeds (e : Event callSig) : Bool :=
  match e with
  | ⟨.createCheckpoint _, r⟩ => (r : Except String String).isOk
  | ⟨.add, _⟩ => false

/-- The event raises the counter. -/
def adds (e : Event callSig) : Bool :=
  match e.op with
  | .createCheckpoint _ => false
  | .add => true

/-- How many calls of a trace succeeded. -/
def succeeded (calls : List (Event callSig)) : ℕ := calls.countP succeeds

/-- A goroutine makes one call, and counts it if it succeeds. -/
theorem emits_goroutine {t : Target} {tr : List (Event callSig)} (h : Emits (goroutine t) tr) :
    called tr = [t] ∧ tr.countP adds = succeeded tr := by
  unfold goroutine at h
  obtain ⟨reply, _, _, rfl, -, hrest⟩ := h.of_call
  cases reply with
  | error e =>
    obtain ⟨rfl, -, -⟩ := hrest.of_pure
    exact ⟨rfl, rfl⟩
  | ok path =>
    have hadd : Runs _ add _ _ _ _ := hrest
    obtain ⟨rfl, -⟩ := hadd.of_perform
    exact ⟨rfl, rfl⟩

/-- So do all of them together. -/
theorem emits_goroutines {ts : List Target}
    {parts : List (Prog callSig Unit × List (Event callSig))}
    (hprograms : parts.map Prod.fst = ts.map goroutine)
    (hparts : ∀ part ∈ parts, Emits part.1 part.2) :
    called (parts.flatMap Prod.snd) = ts ∧
      (parts.flatMap Prod.snd).countP adds = succeeded (parts.flatMap Prod.snd) := by
  induction ts generalizing parts with
  | nil =>
    obtain rfl := List.map_eq_nil_iff.mp hprograms
    exact ⟨rfl, rfl⟩
  | cons t ts ih =>
    obtain ⟨⟨p, tr⟩, rest, rfl, hp, hrest⟩ := List.map_eq_cons_iff.mp hprograms
    subst hp
    obtain ⟨hcalled, hadds⟩ := emits_goroutine (hparts (goroutine t, tr) List.mem_cons_self)
    obtain ⟨ihcalled, ihadds⟩ :=
      ih hrest (fun part hpart => hparts part (List.mem_cons_of_mem _ hpart))
    rw [List.flatMap_cons]
    refine ⟨?_, ?_⟩
    · rw [called, List.filterMap_append]
      exact congrArg₂ (· ++ ·) hcalled ihcalled
    · rw [succeeded, List.countP_append, List.countP_append]
      exact congrArg₂ (· + ·) hadds ihadds

/-- The counter counts the additions, as far as 32 bits go. -/
theorem foldl_counts (tr : List (Event callSig)) (n : ℕ) :
    tr.foldl counts (Int32.ofNat n) = Int32.ofNat (n + tr.countP adds) := by
  induction tr generalizing n with
  | nil => rfl
  | cons e tr ih =>
    obtain ⟨op, r⟩ := e
    rw [List.foldl_cons]
    cases op with
    | createCheckpoint t =>
      rw [show counts (Int32.ofNat n) ⟨.createCheckpoint t, r⟩ = Int32.ofNat n from rfl, ih,
        List.countP_cons_of_neg (by simp [adds])]
    | add =>
      have hadd : counts (Int32.ofNat n) ⟨.add, r⟩ = Int32.ofNat (n + 1) :=
        (Int32.ofNat_add n 1).symm
      rw [hadd, ih, List.countP_cons_of_pos rfl]
      congr 1
      omega

/-- **The goroutines of a round.**  In any order of their steps, each makes its call, and the
    counter has the number of calls that succeeded. -/
theorem joins_accounts {σ : Type} {others : σ → σ → Prop} {ts : List Target} {s s' : σ}
    {created : Int32} {tr : List (Event callSig)}
    (h : Joins (callAct others) (ts.map goroutine) [] (0, s) tr (created, s')) :
    (called tr).Perm ts ∧ created = Int32.ofNat (succeeded tr) := by
  obtain ⟨parts, hprograms, hparts, hperm⟩ := h.parts
  obtain ⟨hcalled, hadds⟩ := emits_goroutines hprograms hparts
  constructor
  · rw [← hcalled]
    exact hperm.filterMap calledBy
  · have hcount : created = tr.foldl counts 0 :=
      h.foldl (f := Prod.fst) (fun op s r s' hact => hact.1)
    rw [hcount, show (0 : Int32) = Int32.ofNat 0 from rfl, foldl_counts, Nat.zero_add,
      hperm.countP_eq, hadds, succeeded, succeeded, hperm.countP_eq]

/-- What others keep, they keep during the round. -/
theorem joins_keeps {σ : Type} {others : σ → σ → Prop} {I : σ → Prop}
    (hI : ∀ s s', I s → others s s' → I s') {goroutines : List (Prog callSig Unit)} {s s' : σ}
    {created : Int32} {tr : List (Event callSig)}
    (h : Joins (callAct others) goroutines [] (0, s) tr (created, s')) (hs : I s) : I s' :=
  h.keeps (I := fun x => I x.2) (fun _ _ _ _ hx hact => hI _ _ hx hact.2) hs

end CheckpointRestore.Schedule.Lifecycle
