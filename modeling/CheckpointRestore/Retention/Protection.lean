import CheckpointRestore.Retention.Ops

namespace CheckpointRestore.Retention

open Interaction Pinning

/-!
# A pin protects its archive

Any number of `pinCheckpoint`, `unpinCheckpoint` and `removeArchiveUnlessPinned` calls on any
archives, interleaved; the locked sections are atomic, and nobody else writes to the
directory.  `pinCheckpoint` looks for the archive before it takes the lock, and an `os.Stat` of a
marker that fails is taken for a missing marker.

* `PinState` — the files, and the pins in force: reported as `true` and not taken back;
* `NoRace` — no archive without a marker is removed while a `pinCheckpoint` of it is between
  its `os.Stat` and the lock;
* `pinned_archive_exists` — without such races, and where no `os.Stat` of a marker fails, a pin in
  force protects its archive;
* `pin_race` — with such a race it does not.
-/

/-! ### The world -/

/-- The files, and the pins in force as pairs of path and owner. -/
structure PinState where
  fs : FS
  held : Set (String × String)

/-- The pins in force after an operation. -/
def heldAfter (held : Set (String × String)) : (op : gcSig.Op) → gcSig.Reply op →
    Set (String × String)
  | .pin path owner, r => match (r : Bool) with
    | true => insert (path, owner) held
    | false => held
  | .unpin path owner, _ => held \ {(path, owner)}
  | _, _ => held

/-- The calls on archives, with no other writer; the file calls of `faulty` may fail. -/
def pinWorld (host : Host) (faulty : fsSig.Op → Prop) : World gcSig Unit PinState where
  act op s r s' := GcOp.act host faulty op s.fs r s'.fs ∧ s'.held = heldAfter s.held op r
  env _ _ := False
  start _ p :=
    (∃ path owner, IsArchive path ∧ p = pinTask path owner) ∨
    (∃ path owner, IsArchive path ∧ p = Gc.unpinCheckpoint path owner) ∨
    ∃ archive, IsArchive archive ∧ p = Gc.removeUnlessPinned archive

/-- No archive without a marker is removed while a `pinCheckpoint` of it is about to take the
    lock. -/
def NoRace (b : Pool gcSig Unit PinState) (l : Label gcSig Unit) : Prop :=
  ∀ i archive r t owner k, l = .act i ⟨GcOp.removeUnlessPinned archive, r⟩ → t ∈ b.threads →
    t.prog = .call (GcOp.pin archive owner) k → keepPath archive ∈ b.shared.fs

/-! ### What a marker guards -/

/-- A marker that keeps the archive for `owner`: somebody else's, or one that lists the
    owner. -/
def Guards (c : Option Content) (owner : String) : Prop :=
  ∃ content, c = some content ∧ ∀ marker, parsePodRestorePinMarker content = some marker →
    owner ∈ marker.owners

variable {owner : String}

theorem guards_markerData {marker : PodRestorePinMarker}
    (hm : marker.managedBy = podRestorePinManager) (ho : owner ∈ marker.owners) :
    Guards (some (.bytes (markerData marker))) owner := by
  obtain ⟨managedBy, owners⟩ := marker
  obtain rfl : managedBy = podRestorePinManager := hm
  refine ⟨_, rfl, fun m hparse => ?_⟩
  rw [parse_markerData] at hparse
  cases hparse
  exact ho

/-- A pin takes effect. -/
theorem guards_afterPin_self (owner : String) (c : Option Content) :
    Guards (afterPin owner c) owner := by
  rcases afterPin_cases owner c with ⟨content, rfl, heq, hin⟩ | ⟨owners, -, -, heq⟩
  · rw [heq]
    exact ⟨content, rfl, hin⟩
  · rw [heq]
    exact guards_markerData rfl (mem_sortStrings.mpr (by simp))

/-- A pin takes no other pin away. -/
theorem guards_afterPin {c : Option Content} {o : String} (h : Guards c o) (owner : String) :
    Guards (afterPin owner c) o := by
  rcases afterPin_cases owner c with ⟨content, rfl, heq, -⟩ | ⟨owners, -, hbefore, heq⟩
  · rw [heq]
    exact h
  · rw [heq]
    obtain ⟨content, rfl, hall⟩ := h
    rcases hbefore with ⟨hnone, -⟩ | ⟨content', hcontent, hparse⟩
    · exact absurd hnone (by simp)
    · obtain rfl := Option.some.inj hcontent
      have hold : o ∈ owners := hall _ hparse
      exact guards_markerData rfl (mem_sortStrings.mpr (List.mem_append_left _ hold))

/-- Nor does the unpin of another owner. -/
theorem guards_afterUnpin {c : Option Content} {o : String} (h : Guards c o) (hne : o ≠ owner) :
    Guards (afterUnpin owner c) o := by
  rcases afterUnpin_cases owner c with ⟨heq, -⟩ | ⟨content, owners, rfl, hparse, hwrite⟩
  · rw [heq]
    exact h
  · obtain ⟨content', hcontent, hall⟩ := h
    obtain rfl := Option.some.inj hcontent
    have hleft : o ∈ removeString owners owner := mem_removeString.mpr ⟨hall _ hparse, hne⟩
    rcases hwrite with ⟨-, heq⟩ | ⟨hnil, -⟩
    · rw [heq]
      exact guards_markerData rfl hleft
    · rw [hnil] at hleft
      exact absurd hleft List.not_mem_nil

/-! ### Paths of archives and markers -/

variable {s : FS}

section Paths
variable {archive path : String}

/-- A section on the marker of `path` leaves every archive in place. -/
theorem mem_of_frame {s' : FS} (hframe : Frame path s s') (h : IsArchive archive)
    (hmem : archive ∈ s) : archive ∈ s' := by
  have hlookup := hframe archive (h.ne_keepPath path) (h.ne_tmpPath (keepPath path))
  rw [← AList.lookup_isSome] at hmem ⊢
  rw [hlookup]
  exact hmem

/-- Removing an archive leaves every marker alone. -/
theorem keepContent_erase (h : IsArchive archive) (q : String) :
    keepContent (s.erase archive) q = keepContent s q := by
  unfold keepContent
  rw [AList.lookup_erase_ne (Ne.symm (h.ne_keepPath q))]

/-- A guarded archive has a marker. -/
theorem Guards.mem_keepPath (h : Guards (keepContent s path) owner) : keepPath path ∈ s := by
  obtain ⟨content, hcontent, -⟩ := h
  rw [← AList.lookup_isSome, ← Option.isSome_map (f := File.content)]
  show (keepContent s path).isSome = true
  rw [hcontent]
  rfl

end Paths

/-! ### The sections -/

section Sections
variable {faulty : fsSig.Op → Prop} {s s' : FS} {path owner : String} {tr : List (Event fsSig)}

/-- The pins of `s` other than those of `path` by `owner` are kept in `s'`. -/
def KeepsOthers (path owner : String) (s s' : FS) : Prop :=
  (∀ q, IsArchive q → q ∈ s → q ∈ s') ∧
  ∀ q o, (q, o) ≠ (path, owner) → Guards (keepContent s q) o → Guards (keepContent s' q) o

/-- Effects on the marker of `path` that keep the pins of other owners. -/
theorem keepsOthers_of_frame (hframe : Frame path s s')
    (h : ∀ o, o ≠ owner → Guards (keepContent s path) o → Guards (keepContent s' path) o) :
    KeepsOthers path owner s s' := by
  refine ⟨fun q hq hmem => mem_of_frame hframe hq hmem, fun q o hne hg => ?_⟩
  by_cases hq : q = path
  · subst hq
    exact h o (fun ho => hne (by rw [ho])) hg
  · rw [keepContent_of_frame hframe hq]
    exact hg

theorem runs_pinLocked {r : Bool} (h : Runs (FsOp.act faulty) (pinLocked path owner) s tr r s') :
    KeepsOthers path owner s s' ∧
    (r = true → Guards (keepContent s' path) owner) ∧
    (Guards (keepContent s path) owner → Guards (keepContent s' path) owner) := by
  obtain ⟨hframe, ⟨rfl, hkeep⟩ | ⟨-, rfl, hkeep⟩⟩ := runs_of_cwp (cwp_pinLocked path owner) h
  · rw [hkeep]
    refine ⟨keepsOthers_of_frame hframe (fun o _ hg => ?_), fun _ => guards_afterPin_self _ _,
      fun hg => guards_afterPin hg owner⟩
    rw [hkeep]
    exact guards_afterPin hg owner
  · rw [hkeep]
    refine ⟨keepsOthers_of_frame hframe (fun o _ hg => ?_), fun hr => absurd hr (by simp), id⟩
    rw [hkeep]
    exact hg

theorem runs_unpinCheckpoint
    (h : Runs (FsOp.act faulty) (unpinCheckpoint path owner) s tr () s') :
    KeepsOthers path owner s s' := by
  obtain ⟨hframe, hkeep | ⟨-, hkeep⟩⟩ := runs_of_cwp (cwp_unpinCheckpoint path owner) h
  · exact keepsOthers_of_frame hframe (fun o ho hg => by rw [hkeep]; exact guards_afterUnpin hg ho)
  · exact keepsOthers_of_frame hframe (fun o _ hg => by rw [hkeep]; exact hg)

end Sections

/-! ### What the traces say -/

/-- When the lock is taken for a pin, the archive was found in the step before; only archives
    are pinned or removed. -/
def Issued (tr : List (Event gcSig)) : gcSig.Op → Prop
  | .pin path _ => IsArchive path ∧ ∃ info, tr = [⟨GcOp.stat path, some info⟩]
  | .removeUnlessPinned archive => IsArchive archive
  | _ => True

variable {host : Host} {faulty : fsSig.Op → Prop} {b : Pool gcSig Unit PinState}

theorem task_issued {p : Prog gcSig Unit} (h : (pinWorld host faulty).start b p) :
    wp (traceContract Issued (fun _ => True)) p (fun _ _ => True) [] := by
  rcases h with ⟨path, owner, harch, rfl⟩ | ⟨path, owner, -, rfl⟩ | ⟨archive, harch, rfl⟩
  · refine ⟨trivial, ?_⟩
    rintro r tr ⟨-, rfl⟩
    cases r with
    | none => exact trivial
    | some info => exact ⟨⟨harch, info, rfl⟩, fun _ _ _ => trivial⟩
  · exact ⟨trivial, fun _ _ _ => trivial⟩
  · exact ⟨harch, fun _ _ _ => trivial⟩

variable {ok : Pool gcSig Unit PinState → Label gcSig Unit → Prop} {s₀ : PinState} {op : gcSig.Op}

/-- Every operation a thread of a reachable pool issues next is permitted by its trace. -/
theorem issued_of_reaches (h : Reaches (pinWorld host faulty) ok ⟨s₀, []⟩ b)
    {t : Thread gcSig Unit} (ht : t ∈ b.threads) {k : gcSig.Reply op → Prog gcSig Unit}
    (hp : t.prog = .call op k) : Issued t.trace op := by
  obtain ⟨p, hwp, hu⟩ := h.unfolds (P := fun p =>
    wp (traceContract Issued (fun _ => True)) p (fun _ _ => True) []) rfl
    (fun _ _ hst => task_issued hst) t ht
  rw [hp] at hu
  exact pre_of_unfolds hwp hu (fun _ _ => trivial)

/-! ### The invariant -/

/-- A pin in force has its archive and a marker that guards it; so has a pin about to take the
    lock its archive. -/
structure PinInv (b : Pool gcSig Unit PinState) : Prop where
  held : ∀ path owner, (path, owner) ∈ b.shared.held →
    IsArchive path ∧ path ∈ b.shared.fs ∧ Guards (keepContent b.shared.fs path) owner
  pending : ∀ t ∈ b.threads, ∀ path owner k, t.prog = .call (GcOp.pin path owner) k →
    path ∈ b.shared.fs

/-- The pins in force after an operation other than a successful pin were in force before. -/
theorem mem_heldAfter {held : Set (String × String)} {r : gcSig.Reply op} {x : String × String}
    (h : x ∈ heldAfter held op r) (hop : ∀ path owner, op = .pin path owner → x ≠ (path, owner)) :
    x ∈ held := by
  cases op with
  | pin path owner =>
    cases (r : Bool) with
    | true => exact (Set.mem_insert_iff.mp h).resolve_left (hop path owner rfl)
    | false => exact h
  | unpin path owner => exact h.1
  | _ => exact h

section Steps
variable {host : Host} {faulty : fsSig.Op → Prop} {op : gcSig.Op} {s s' : FS}
  {r : gcSig.Reply op} {q o : String}

/-- An archive disappears only in a removal, and only if it has no marker, for the marker can be
    looked at. -/
theorem act_keeps_archive (hstat : ¬ faulty (.stat (keepPath q)))
    (hact : GcOp.act host faulty op s r s') (hq : IsArchive q) (hmem : q ∈ s)
    (hrem : op = .removeUnlessPinned q → keepPath q ∈ s) : q ∈ s' := by
  cases op with
  | removeUnlessPinned archive =>
    obtain ⟨tr, hruns⟩ := hact
    rcases runs_removeArchiveUnlessPinned hruns with rfl | ⟨hno, rfl⟩
    · exact hmem
    · have hne : q ≠ archive := by
        rintro rfl
        exact hstat (hno (hrem rfl))
      exact AList.mem_erase.mpr ⟨hne, hmem⟩
  | pin path owner =>
    obtain ⟨tr, hruns⟩ := hact
    exact (runs_pinLocked hruns).1.1 q hq hmem
  | unpin path owner =>
    obtain ⟨tr, hruns⟩ := hact
    exact (runs_unpinCheckpoint hruns).1 q hq hmem
  | _ =>
    rw [fs_of_quiet hact trivial]
    exact hmem

/-- A pin is taken away only by the unpin of the same path and owner. -/
theorem act_keeps_guard (hact : GcOp.act host faulty op s r s')
    (harch : ∀ archive, op = .removeUnlessPinned archive → IsArchive archive)
    (hne : op ≠ .unpin q o) (hg : Guards (keepContent s q) o) : Guards (keepContent s' q) o := by
  cases op with
  | removeUnlessPinned archive =>
    obtain ⟨tr, hruns⟩ := hact
    rcases runs_removeArchiveUnlessPinned hruns with rfl | ⟨-, rfl⟩
    · exact hg
    · rw [keepContent_erase (harch archive rfl)]
      exact hg
  | pin path owner =>
    obtain ⟨tr, hruns⟩ := hact
    obtain ⟨hothers, -, hself⟩ := runs_pinLocked hruns
    by_cases heq : (q, o) = (path, owner)
    · cases heq
      exact hself hg
    · exact hothers.2 q o heq hg
  | unpin path owner =>
    obtain ⟨tr, hruns⟩ := hact
    refine (runs_unpinCheckpoint hruns).2 q o (fun heq => hne ?_) hg
    cases heq
    rfl
  | _ =>
    rw [fs_of_quiet hact trivial]
    exact hg

end Steps

/-- A thread about to take the lock has just found its archive. -/
theorem found_of_pending {c : Pool gcSig Unit PinState}
    (h : Reaches (pinWorld host faulty) ok ⟨s₀, []⟩ c) {tr : List (Event gcSig)}
    {p : Prog gcSig Unit} {e : Event gcSig} (ht : ⟨tr ++ [e], p⟩ ∈ c.threads) {path : String}
    {k : gcSig.Reply (.pin path owner) → Prog gcSig Unit} (hp : p = .call (GcOp.pin path owner) k) :
    ∃ info, e = ⟨GcOp.stat path, some info⟩ := by
  obtain ⟨-, info, htr⟩ := issued_of_reaches h ht hp
  exact ⟨info, (List.append_eq_singleton_iff.mp htr).elim
    (fun h => (List.cons.inj h.2).1) (fun h => absurd h.2 (by simp))⟩

/-- The step lemma. -/
theorem PinInv.step (hstat : ∀ archive, ¬ faulty (.stat (keepPath archive)))
    {c : Pool gcSig Unit PinState} {l : Label gcSig Unit}
    (hb : Reaches (pinWorld host faulty) NoRace ⟨s₀, []⟩ b) (h : PinInv b) (hok : NoRace b l)
    (hs : Step (pinWorld host faulty) b l c) : PinInv c := by
  have hc := Reaches.step hb hok hs
  cases hs with
  | env he => exact absurd he id
  | @spawn p hst =>
    refine ⟨h.held, fun t ht path owner k hp => ?_⟩
    rcases List.mem_append.mp ht with ht | hnew
    · exact h.pending t ht path owner k hp
    · -- a thread that has just started has not looked for its archive yet
      obtain ⟨-, info, htr⟩ := issued_of_reaches hc ht hp
      rw [List.mem_singleton.mp hnew] at htr
      exact absurd htr (by simp)
  | @act i tr op k r s' hi hact =>
    obtain ⟨hfs, hheld⟩ := hact
    have hissued := issued_of_reaches hb (List.mem_of_getElem? hi) rfl
    refine ⟨fun path owner hmem => ?_, fun t ht path owner k' hp => ?_⟩
    · dsimp only at hmem ⊢
      rw [hheld] at hmem
      by_cases hnew : op = .pin path owner
      · subst hnew
        have harch := hissued.1
        have hpath : path ∈ b.shared.fs := h.pending _ (List.mem_of_getElem? hi) path owner k rfl
        obtain ⟨tr', hruns⟩ := hfs
        obtain ⟨hothers, htrue, hself⟩ := runs_pinLocked hruns
        refine ⟨harch, hothers.1 path harch hpath, ?_⟩
        cases r with
        | true => exact htrue rfl
        | false => exact hself (h.held path owner hmem).2.2
      · have hold := mem_heldAfter hmem (fun p o hop heq => hnew (by rw [hop]; cases heq; rfl))
        obtain ⟨harch, hpath, hguard⟩ := h.held path owner hold
        refine ⟨harch, act_keeps_archive (hstat path) hfs harch hpath
          (fun _ => hguard.mem_keepPath), ?_⟩
        refine act_keeps_guard hfs (fun archive hop => ?_) (fun hop => ?_) hguard
        · subst hop
          exact hissued
        · subst hop
          exact hmem.2 rfl
    · -- every pin about to take the lock has its archive before the step
      have hbefore : path ∈ b.shared.fs ∧ (op = .removeUnlessPinned path →
          keepPath path ∈ b.shared.fs) := by
        rcases mem_threads_set ht with rfl | ⟨j, -, hj⟩
        · obtain ⟨info, he⟩ := found_of_pending hc ht hp
          cases he
          have hinfo : some info = b.shared.fs.stat path :=
            hfs.1.resolve_right (fun h => absurd h.2 (by simp))
          exact ⟨FS.stat_isSome.mp (by rw [← hinfo]; rfl), fun hop => absurd hop (by simp)⟩
        · refine ⟨h.pending t (List.mem_of_getElem? hj) path owner k' hp, fun hop => ?_⟩
          subst hop
          exact hok i path r t owner k' rfl (List.mem_of_getElem? hj) hp
      have harch := (issued_of_reaches hc ht hp).1
      exact act_keeps_archive (hstat path) hfs harch hbefore.1 hbefore.2

/-- **A pin in force protects its archive**, in every interleaving in which no archive without
    a marker is removed while a `pinCheckpoint` of it is about to take the lock, and in which no
    `os.Stat` of a marker fails. -/
theorem pinned_archive_exists {host : Host} {faulty : fsSig.Op → Prop}
    (hstat : ∀ archive, ¬ faulty (.stat (keepPath archive))) {fs : FS}
    {b : Pool gcSig Unit PinState} (h : Reaches (pinWorld host faulty) NoRace ⟨⟨fs, ∅⟩, []⟩ b)
    {path owner : String} (hheld : (path, owner) ∈ b.shared.held) : path ∈ b.shared.fs := by
  have hinit : PinInv (⟨⟨fs, ∅⟩, []⟩ : Pool gcSig Unit PinState) :=
    ⟨fun path owner hmem => absurd hmem (by simp), fun t ht => absurd ht (by simp)⟩
  have hinv : PinInv b :=
    h.invariant hinit (fun b l c hb hI hok hs => PinInv.step hstat hb hI hok hs)
  exact (hinv.held path owner hheld).2.1

/-! ### Runs on one archive -/

/-- One archive without a marker. -/
def oneArchive : FS := FS.put ∅ "/ckpt/a.tar" (.tar 10240 ⟨[], none⟩) 0

theorem oneArchive_isArchive : IsArchive "/ckpt/a.tar" := ⟨"/ckpt/a".toList, by decide⟩

/-- The thread of a `pinCheckpoint` that has found the archive. -/
def foundThread : Thread gcSig Unit :=
  ⟨[⟨GcOp.stat "/ckpt/a.tar", some ⟨10240, 0⟩⟩],
    .call (GcOp.pin "/ckpt/a.tar" "default/restore") (fun _ => .pure ())⟩

/-- A step of the pool, from the effect on the files. -/
theorem pinWorld_step {i : ℕ} {tr : List (Event gcSig)} {k : gcSig.Reply op → Prog gcSig Unit}
    {r : gcSig.Reply op} {fs : FS} (hi : b.threads[i]? = some ⟨tr, .call op k⟩)
    (h : GcOp.act host faulty op b.shared.fs r fs) :
    Step (pinWorld host faulty) b (.act i ⟨op, r⟩)
      ⟨⟨fs, heldAfter b.shared.held op r⟩, b.threads.set i ⟨tr ++ [⟨op, r⟩], k r⟩⟩ :=
  .act hi ⟨h, rfl⟩

/-- A `pinCheckpoint` finds the archive. -/
theorem reaches_found
    (hok : ∀ b l, (∀ i archive r, l ≠ .act i ⟨GcOp.removeUnlessPinned archive, r⟩) → ok b l) :
    Reaches (pinWorld host faulty) ok ⟨⟨oneArchive, ∅⟩, []⟩
      ⟨⟨oneArchive, ∅⟩, [foundThread]⟩ := by
  have hspawn : Reaches (pinWorld host faulty) ok ⟨⟨oneArchive, ∅⟩, []⟩
      ⟨⟨oneArchive, ∅⟩, [⟨[], pinTask "/ckpt/a.tar" "default/restore"⟩]⟩ :=
    .step .refl (hok _ _ (by simp))
      (.spawn (Or.inl ⟨_, _, oneArchive_isArchive, rfl⟩))
  have hstat : GcOp.act host faulty (.stat "/ckpt/a.tar") oneArchive (some ⟨10240, 0⟩)
      oneArchive := ⟨Or.inl rfl, rfl⟩
  have hfound := Reaches.step hspawn
    (l := .act 0 ⟨GcOp.stat "/ckpt/a.tar", some ⟨10240, 0⟩⟩) (hok _ _ ?_)
    (pinWorld_step rfl hstat)
  · exact hfound
  · intro i archive r h
    injection h with _ he
    exact absurd (congrArg Event.op he) (by simp)

/-- The files after the pin. -/
def pinnedArchive : FS :=
  (exec (FsOp.answer 1) (pinLocked "/ckpt/a.tar" "default/restore") oneArchive).2

/-- A removal that comes after the pin finds the marker. -/
theorem pinned_archive_exists_removal :
    ∃ b, Reaches (pinWorld plainHost FsOp.noFault) NoRace ⟨⟨oneArchive, ∅⟩, []⟩ b ∧
      (∃ t ∈ b.threads, t.trace = [⟨GcOp.removeUnlessPinned "/ckpt/a.tar", ()⟩]) ∧
      ("/ckpt/a.tar", "default/restore") ∈ b.shared.held ∧ "/ckpt/a.tar" ∈ b.shared.fs := by
  have hfound : Reaches (pinWorld plainHost FsOp.noFault) NoRace
      ⟨⟨oneArchive, ∅⟩, []⟩ ⟨⟨oneArchive, ∅⟩, [foundThread]⟩ :=
    reaches_found (fun b l hl i archive r t owner k h => absurd h (hl i archive r))
  have hpin : GcOp.act plainHost FsOp.noFault (.pin "/ckpt/a.tar" "default/restore")
      oneArchive true pinnedArchive := ⟨_, Runs.of_exec (FsOp.answer_act FsOp.noFault 1) _ _⟩
  have hpinned := Reaches.step hfound
    (l := .act 0 ⟨GcOp.pin "/ckpt/a.tar" "default/restore", true⟩)
    (fun i archive r t owner k h => by
      injection h with _ he
      exact absurd (congrArg Event.op he) (by simp))
    (pinWorld_step rfl hpin)
  have hspawn := Reaches.step hpinned (fun i archive r t owner k h => by cases h)
    (.spawn (p := Gc.removeUnlessPinned "/ckpt/a.tar")
      (Or.inr (Or.inr ⟨_, oneArchive_isArchive, rfl⟩)))
  have hremove : GcOp.act plainHost FsOp.noFault (.removeUnlessPinned "/ckpt/a.tar")
      pinnedArchive () pinnedArchive := ⟨_, Runs.of_exec (FsOp.answer_act FsOp.noFault 1) _ _⟩
  have hkept := Reaches.step hspawn (l := .act 1 ⟨GcOp.removeUnlessPinned "/ckpt/a.tar", ()⟩)
    (fun i archive r t owner k h ht hp => by
      -- the pin has returned, so no thread is about to take the lock
      rcases List.mem_pair.mp ht with rfl | rfl <;> exact absurd hp (by rintro ⟨⟩))
    (pinWorld_step rfl hremove)
  exact ⟨_, hkept, ⟨_, List.mem_pair.mpr (Or.inr rfl), rfl⟩, Set.mem_insert _ _,
    pinned_archive_exists (fun _ h => h) hkept (Set.mem_insert _ _)⟩

/-- The collector removes the archive after it was found and before the lock is taken: the pin
    is reported as written although the archive is gone.  No call fails. -/
theorem pin_race :
    ∃ b, Reaches (pinWorld plainHost FsOp.noFault) (fun _ _ => True) ⟨⟨oneArchive, ∅⟩, []⟩ b ∧
      ("/ckpt/a.tar", "default/restore") ∈ b.shared.held ∧ "/ckpt/a.tar" ∉ b.shared.fs := by
  have hfound : Reaches (pinWorld plainHost FsOp.noFault) (fun _ _ => True)
      ⟨⟨oneArchive, ∅⟩, []⟩ ⟨⟨oneArchive, ∅⟩, [foundThread]⟩ :=
    reaches_found (fun _ _ _ => trivial)
  have hspawn := Reaches.step hfound trivial
    (.spawn (p := Gc.removeUnlessPinned "/ckpt/a.tar")
      (Or.inr (Or.inr ⟨_, oneArchive_isArchive, rfl⟩)))
  have hremove : GcOp.act plainHost FsOp.noFault (.removeUnlessPinned "/ckpt/a.tar")
      oneArchive () ∅ := ⟨_, Runs.of_exec (FsOp.answer_act FsOp.noFault 1) _ _⟩
  have hgone := Reaches.step hspawn (l := .act 1 ⟨GcOp.removeUnlessPinned "/ckpt/a.tar", ()⟩)
    trivial (pinWorld_step rfl hremove)
  have hpin : GcOp.act plainHost FsOp.noFault (.pin "/ckpt/a.tar" "default/restore")
      ∅ true (exec (FsOp.answer 1) (pinLocked "/ckpt/a.tar" "default/restore") ∅).2 :=
    ⟨_, Runs.of_exec (FsOp.answer_act FsOp.noFault 1) _ _⟩
  have hpinned := Reaches.step hgone
    (l := .act 0 ⟨GcOp.pin "/ckpt/a.tar" "default/restore", true⟩) trivial
    (pinWorld_step rfl hpin)
  exact ⟨_, hpinned, Set.mem_insert _ _, by decide⟩

end CheckpointRestore.Retention
