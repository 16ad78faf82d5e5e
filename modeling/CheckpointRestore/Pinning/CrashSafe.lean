import CheckpointRestore.Pinning.Pin

namespace CheckpointRestore.Pinning

open Interaction

/-!
# Markers as a crash-safe reference count

Any sequence of `pinCheckpoint` and `unpinCheckpoint` calls on one archive, each run to its
end or cut short by a crash, with no failing system calls.

* `History` — those sequences, with the state they lead to;
* `Counts` — the requests that count: all that were completed, and any of those cut short;
* `RefCount` — the marker lists exactly a given set of owners;
* `marker_refCount` — in every state the marker lists the owners whose last request was a pin,
  and a marker of somebody else is never touched.
-/

/-! ### Requests and histories -/

/-- A request of an owner. -/
inductive Request where
  | pin (owner : String)
  | unpin (owner : String)
  deriving DecidableEq

/-- Whose request it is. -/
def Request.owner : Request → String
  | .pin owner => owner
  | .unpin owner => owner

/-- The call it makes. -/
def Request.prog (path : String) : Request → Prog fsSig Unit
  | .pin owner => do
    let _ ← pinCheckpoint path owner
    return ()
  | .unpin owner => unpinCheckpoint path owner

/-- What it makes of the marker. -/
def Request.after : Request → Option Content → Option Content
  | .pin owner => afterPin owner
  | .unpin owner => afterUnpin owner

/-- `History path s₀ calls s`: the calls lead from `s₀` to `s`, those marked `true` having run
    to their end and the others having been cut short by a crash. -/
inductive History (path : String) (s₀ : FS) : List (Request × Bool) → FS → Prop
  | start : History path s₀ [] s₀
  | done {calls : List (Request × Bool)} {s s' : FS} {req : Request} {tr : List (Event fsSig)}
      (h : History path s₀ calls s) (hr : Runs (FsOp.act FsOp.noFault) (req.prog path) s tr () s') :
      History path s₀ (calls ++ [(req, true)]) s'
  | cut {calls : List (Request × Bool)} {s s' : FS} {req : Request}
      (h : History path s₀ calls s)
      (hc : Crashes (FsOp.act FsOp.noFault) FsOp.tear (req.prog path) s s') :
      History path s₀ (calls ++ [(req, false)]) s'

/-- The requests that count. -/
inductive Counts : List (Request × Bool) → List Request → Prop
  | nil : Counts [] []
  | count {calls : List (Request × Bool)} {reqs : List Request} (h : Counts calls reqs)
      (req : Request) (completed : Bool) : Counts (calls ++ [(req, completed)]) (reqs ++ [req])
  | skip {calls : List (Request × Bool)} {reqs : List Request} (h : Counts calls reqs)
      (req : Request) : Counts (calls ++ [(req, false)]) reqs

/-- The last request of `owner` is a pin. -/
def LastIsPin (reqs : List Request) (owner : String) : Prop :=
  (reqs.filter (fun r => r.owner == owner)).getLast? = some (.pin owner)

theorem not_lastIsPin_nil (owner : String) : ¬ LastIsPin [] owner := by
  intro h
  exact absurd h (by simp [LastIsPin])

theorem lastIsPin_pin (reqs : List Request) (owner x : String) :
    LastIsPin (reqs ++ [.pin owner]) x ↔ x = owner ∨ LastIsPin reqs x := by
  unfold LastIsPin
  rw [List.filter_append]
  by_cases hx : owner = x
  · subst hx
    simp [Request.owner]
  · have hne : x ≠ owner := fun h => hx h.symm
    simp [Request.owner, hx, hne]

theorem lastIsPin_unpin (reqs : List Request) (owner x : String) :
    LastIsPin (reqs ++ [.unpin owner]) x ↔ x ≠ owner ∧ LastIsPin reqs x := by
  unfold LastIsPin
  rw [List.filter_append]
  by_cases hx : owner = x
  · subst hx
    simp [Request.owner]
  · have hne : x ≠ owner := fun h => hx h.symm
    simp [Request.owner, hx, hne]

/-! ### The reference count -/

/-- The marker lists exactly the owners in `P`: it is absent if there are none, and a complete
    managed marker with a sorted list without duplicates otherwise. -/
def RefCount (P : String → Prop) : Option Content → Prop
  | none => ∀ owner, ¬ P owner
  | some content => ∃ owners, content = .bytes (markerData ⟨podRestorePinManager, owners⟩) ∧
      parsePodRestorePinMarker content = some ⟨podRestorePinManager, owners⟩ ∧
      owners.Pairwise (· < ·) ∧ owners ≠ [] ∧ ∀ owner, owner ∈ owners ↔ P owner

variable {P : String → Prop}

theorem refCount_markerData {owners : List String} (hsorted : owners.Pairwise (· < ·))
    (hne : owners ≠ []) (hmem : ∀ owner, owner ∈ owners ↔ P owner) :
    RefCount P (some (.bytes (markerData ⟨podRestorePinManager, owners⟩))) :=
  ⟨owners, rfl, parse_markerData owners, hsorted, hne, hmem⟩

/-- Sorting a list without duplicates. -/
theorem sortStrings_pairwise {ss : List String} (h : ss.Nodup) :
    (sortStrings ss).Pairwise (· < ·) := by
  have hle : (sortStrings ss).Pairwise (fun a b => decide (a ≤ b) = true) := by
    apply List.pairwise_mergeSort
    · intro a b c hab hbc
      rw [decide_eq_true_eq] at hab hbc ⊢
      exact le_trans hab hbc
    · intro a b
      rw [Bool.or_eq_true, decide_eq_true_eq, decide_eq_true_eq]
      exact le_total a b
  have hne : (sortStrings ss).Nodup := (List.mergeSort_perm ss _).nodup_iff.mpr h
  refine (hle.and hne).imp ?_
  rintro a b ⟨hab, hne⟩
  exact lt_of_le_of_ne (of_decide_eq_true hab) hne

variable {c : Option Content}

/-- A pin adds its owner. -/
theorem refCount_afterPin (h : RefCount P c) (owner : String) :
    RefCount (fun x => x = owner ∨ P x) (afterPin owner c) := by
  cases c with
  | none =>
    refine refCount_markerData (List.pairwise_singleton _ _) (List.cons_ne_nil _ _) ?_
    intro x
    rw [List.mem_singleton]
    exact ⟨Or.inl, fun hx => hx.resolve_right (h x)⟩
  | some content =>
    obtain ⟨owners, rfl, hparse, hsorted, hne, hmem⟩ := h
    rw [afterPin, hparse]
    dsimp only
    split_ifs with hin
    · rw [List.contains_iff_mem] at hin
      refine refCount_markerData hsorted hne (fun x => ?_)
      rw [hmem x]
      exact ⟨Or.inr, fun hx => hx.elim (fun heq => heq ▸ (hmem owner).mp hin) id⟩
    · rw [List.contains_iff_mem] at hin
      have hnodup : (owners ++ [owner]).Nodup :=
        List.nodup_append'.mpr ⟨hsorted.imp (fun h => ne_of_lt h), List.nodup_singleton _,
          List.disjoint_singleton.mpr hin⟩
      refine refCount_markerData (sortStrings_pairwise hnodup) ?_ (fun x => ?_)
      · intro hnil
        have hlast : owner ∈ sortStrings (owners ++ [owner]) :=
          mem_sortStrings.mpr (List.mem_append_right _ (List.mem_singleton.mpr rfl))
        rw [hnil] at hlast
        exact absurd hlast (by simp)
      · rw [mem_sortStrings, List.mem_append, List.mem_singleton, hmem x]
        exact or_comm

/-- An unpin removes its owner. -/
theorem refCount_afterUnpin (h : RefCount P c) (owner : String) :
    RefCount (fun x => x ≠ owner ∧ P x) (afterUnpin owner c) := by
  cases c with
  | none => exact fun x hx => h x hx.2
  | some content =>
    obtain ⟨owners, rfl, hparse, hsorted, hne, hmem⟩ := h
    have hiff : ∀ x, x ∈ removeString owners owner ↔ x ≠ owner ∧ P x := by
      intro x
      rw [mem_removeString, hmem x]
      exact and_comm
    rw [afterUnpin, hparse]
    dsimp only
    split_ifs with hlen hpos
    · -- nothing was filtered out
      have hall : removeString owners owner = owners := List.filter_sublist.eq_of_length hlen
      exact refCount_markerData hsorted hne (fun x => by rw [← hiff x, hall])
    · exact refCount_markerData (hsorted.sublist List.filter_sublist)
        (List.ne_nil_of_length_pos hpos) hiff
    · intro x hx
      have hmem := (hiff x).mpr hx
      exact hpos (List.length_pos_of_mem hmem)

/-! ### One request -/

theorem path_ne_keepPath (path : String) : path ≠ keepPath path := by
  intro h
  have hlen := congrArg String.length h
  simp [keepPath] at hlen

theorem path_ne_tmpPath (path : String) : path ≠ tmpPath (keepPath path) := by
  intro h
  have hlen := congrArg String.length h
  have htmp : ".tmp".length = 4 := rfl
  simp only [keepPath, tmpPath, String.length_append] at hlen
  omega

/-- The archive itself is not touched. -/
theorem Frame.archive {path : String} {s s' : FS} (h : Frame path s s') :
    path ∈ s' ↔ path ∈ s := by
  rw [← AList.lookup_isSome, ← AList.lookup_isSome,
    h path (path_ne_keepPath path) (path_ne_tmpPath path)]

/-- A request on an existing archive takes the marker over to `Request.after` in one step. -/
theorem cwp_request {path : String} {s : FS} (harch : path ∈ s) (req : Request) :
    cwp (FsOp.act FsOp.noFault) FsOp.tear (req.prog path)
      (fun _ s' => Frame path s s' ∧ keepContent s' path = req.after (keepContent s path))
      (Between path s (req.after (keepContent s path))) s := by
  cases req with
  | unpin owner =>
    refine cwp_mono ?_ (fun _ h => h) (cwp_unpinCheckpoint path owner)
    rintro - s' - ⟨hframe, hkeep | ⟨hfaulty, -⟩⟩
    · exact ⟨hframe, hkeep⟩
    · exact absurd hfaulty FsOp.not_noFault
  | pin owner =>
    have hstart := Between.start path s (afterPin owner (keepContent s path))
    show cwp _ _ (pinCheckpoint path owner >>= fun _ => pure ()) _ _ _
    unfold pinCheckpoint
    rw [cwp_bind, cwp_bind]
    refine cwp_perform hstart (fun _ h => absurd h id) ?_
    rintro r s' ⟨hr, rfl⟩
    obtain rfl := hr.resolve_right (fun h => h.1)
    refine ⟨hstart, ?_⟩
    cases hstat : s'.stat path with
    | none =>
      have hsome := FS.stat_isSome.mpr harch
      rw [hstat] at hsome
      exact absurd hsome (by simp)
    | some info =>
      refine cwp_mono ?_ (fun _ h => h) (cwp_pinLocked path owner)
      rintro ok s'' hb ⟨hframe, ⟨-, hkeep⟩ | ⟨hfaulty, -⟩⟩
      · exact cwp_pure hb ⟨hframe, hkeep⟩
      · exact absurd hfaulty FsOp.not_noFault

/-- A request that counts moves the set of owners along. -/
theorem refCount_request {reqs : List Request} (h : RefCount (LastIsPin reqs) c) (req : Request) :
    RefCount (LastIsPin (reqs ++ [req])) (req.after c) := by
  cases req with
  | pin owner =>
    have hset : LastIsPin (reqs ++ [.pin owner]) = fun x => x = owner ∨ LastIsPin reqs x :=
      funext (fun x => propext (lastIsPin_pin reqs owner x))
    rw [hset]
    exact refCount_afterPin h owner
  | unpin owner =>
    have hset : LastIsPin (reqs ++ [.unpin owner]) = fun x => x ≠ owner ∧ LastIsPin reqs x :=
      funext (fun x => propext (lastIsPin_unpin reqs owner x))
    rw [hset]
    exact refCount_afterUnpin h owner

/-- A marker that is not the operator's is never touched. -/
theorem Request.after_unmanaged {content : Content}
    (h : parsePodRestorePinMarker content = none) (req : Request) :
    req.after (some content) = some content := by
  cases req with
  | pin owner => show afterPin owner (some content) = _; rw [afterPin, h]
  | unpin owner => show afterUnpin owner (some content) = _; rw [afterUnpin, h]

/-! ### Whole histories -/

section Histories
variable {path : String} {s₀ s : FS} {calls : List (Request × Bool)}

/-- A property of the marker that every counted request keeps holds after every history, for
    some choice of the requests that count. -/
theorem History.marker {I : List Request → Option Content → Prop} (harch : path ∈ s₀)
    (h0 : I [] (keepContent s₀ path))
    (hstep : ∀ reqs c req, I reqs c → I (reqs ++ [req]) (Request.after req c))
    (h : History path s₀ calls s) :
    path ∈ s ∧ ∃ reqs, Counts calls reqs ∧ I reqs (keepContent s path) := by
  induction h with
  | start => exact ⟨harch, [], .nil, h0⟩
  | @done calls s s' req tr _ hr ih =>
    obtain ⟨hmem, reqs, hcounts, hI⟩ := ih
    obtain ⟨hframe, hkeep⟩ := runs_of_cwp (cwp_request hmem req) hr
    refine ⟨hframe.archive.mpr hmem, reqs ++ [req], hcounts.count req true, ?_⟩
    rw [hkeep]
    exact hstep reqs _ req hI
  | @cut calls s s' req _ hc ih =>
    obtain ⟨hmem, reqs, hcounts, hI⟩ := ih
    obtain ⟨hframe, hkeep | hkeep⟩ := crashes_of_cwp (cwp_request hmem req) hc
    · exact ⟨hframe.archive.mpr hmem, reqs, hcounts.skip req, by rw [hkeep]; exact hI⟩
    · refine ⟨hframe.archive.mpr hmem, reqs ++ [req], hcounts.count req false, ?_⟩
      rw [hkeep]
      exact hstep reqs _ req hI

/-- **Pin markers are a crash-safe reference count.**  After every history on an archive that
    started without a marker, the marker lists exactly the owners whose last request was a
    pin, an interrupted request counting as done or not done; a marker that is not the
    operator's keeps its bytes. -/
theorem marker_refCount (harch : path ∈ s₀) (h : History path s₀ calls s) :
    (keepContent s₀ path = none →
      ∃ reqs, Counts calls reqs ∧ RefCount (LastIsPin reqs) (keepContent s path)) ∧
    (∀ content, keepContent s₀ path = some content → parsePodRestorePinMarker content = none →
      keepContent s path = some content) := by
  refine ⟨fun hnone => ?_, fun content hsome hparse => ?_⟩
  · have h0 : RefCount (LastIsPin []) (keepContent s₀ path) := by
      rw [hnone]
      exact not_lastIsPin_nil
    exact (h.marker harch (I := fun reqs c => RefCount (LastIsPin reqs) c) h0
      (fun reqs c req hI => refCount_request hI req)).2
  · obtain ⟨-, reqs, -, hkeep⟩ := h.marker harch (I := fun _ c => c = some content) hsome
      (fun reqs c req hI => by rw [hI]; exact Request.after_unmanaged hparse req)
    exact hkeep

/-- One archive without a marker. -/
def sharedArchive : FS := FS.put ∅ "/ckpt/a.tar" (.tar 10240 ⟨[], none⟩) 0

/-- The same after a crash in the middle of writing the first marker. -/
def cutPin : FS :=
  sharedArchive.put "/ckpt/a.tar.keep.tmp" (.bytes ((markerData
    ⟨podRestorePinManager, ["default/redis-restore"]⟩).take 20)) 1

/-- And after a pin by another owner. -/
def pinnedAfterCrash : FS :=
  (exec (FsOp.answer 2) (Request.prog "/ckpt/a.tar" (.pin "default/redis-restore-2")) cutPin).2

theorem pinnedAfterCrash_history : History "/ckpt/a.tar" sharedArchive
    [(.pin "default/redis-restore", false), (.pin "default/redis-restore-2", true)]
    pinnedAfterCrash := by
  refine .done (.cut .start (.bind_left ?_ _)) (Runs.of_exec (FsOp.answer_act FsOp.noFault 2) _ _)
  -- the archive is found, there is no marker, the new one is torn
  refine .later (r := sharedArchive.stat "/ckpt/a.tar") ⟨.inl rfl, rfl⟩ ?_
  refine .later (r := ReadReply.notExist) ⟨rfl, Or.inl rfl⟩ ?_
  exact .torn ⟨20, 1, rfl⟩

/-- The marker is complete and lists the second owner. -/
theorem marker_refCount_afterCrash :
    keepContent sharedArchive "/ckpt/a.tar" = none ∧
    ∃ reqs, Counts [(.pin "default/redis-restore", false), (.pin "default/redis-restore-2", true)]
      reqs ∧ RefCount (LastIsPin reqs) (keepContent pinnedAfterCrash "/ckpt/a.tar") :=
  ⟨by decide, (marker_refCount (by decide) pinnedAfterCrash_history).1 (by decide)⟩

end Histories

end CheckpointRestore.Pinning
