import CheckpointRestore.Retention.Charge
import Mathlib.Data.Prod.Lex
import Mathlib.Algebra.Order.BigOperators.Group.Finset

namespace CheckpointRestore.Retention.Watcher

open Interaction

/-!
# A restart comes to its end

The worker sends on a channel without a buffer, the next collector waits for a lock, and the last
one for its goroutine: none of them waits for another in a circle.

* `mainRank`, `eventsRank`, `rank` — how much a collector has left to do before it is gone, and how
  far the worker is;
* `drive_told` — a collector that was told to stop and holds the lock can take a step towards its
  end;
* `drive_newest` — so can the newest one towards its `select`, or towards its watcher;
* `restart_completes` — from every state with a restart under way, steps of the worker, the
  collectors and their goroutines alone lead to one where the directory is watched.
-/

/-- The goroutines whose steps complete a restart. -/
def Task.Restarts : Task → Prop
  | .worker | .collector _ | .events _ => True
  | _ => False

/-- What a collector has left to do. -/
def mainRank : Option Phase → ℕ
  | some .begin => 32
  | some .locked => 31
  | some .opened => 30
  | some .podsStarted => 29
  | some .parking => 25
  | some (.parked _) => 24
  | some .eventsStarted => 12
  | some (.configured _) => 11
  | some .waiting => 10
  | some .closing => 9
  | some (.leaving _) => 8
  | some (.unlocked _) => 7
  | _ => 0

/-- What the goroutine over its channels has left to do. -/
def eventsRank : Option Phase → ℕ
  | some (.looking _) => 10
  | some (.creating _) => 9
  | some (.arming _) => 8
  | some .head => 7
  | some (.selecting _) => 6
  | some .cancelling => 5
  | some .stopping => 4
  | some .finishing => 3
  | _ => 0

/-- Both together. -/
def weight (ph : PhaseMap) (i : ℕ) : ℕ :=
  mainRank (ph (.collector i)) + eventsRank (ph (.events i))

/-- How far the worker is with the restart. -/
def workerRank (s : Shared) : Option Phase → ℕ
  | some .restarting => 5
  | some (.sending _) => if s.chan s.quit = .offered then 4 else 3
  | some .sent => 2
  | some .renewed => 1
  | _ => 0

/-- The rank of a state: the worker first, then all collectors. -/
def rank (s : Shared) (ph : PhaseMap) : ℕ ×ₗ ℕ :=
  toLex (workerRank s (ph .worker), ∑ i ∈ Finset.range s.collectors, weight ph i)

/-- The phases of a collector on its way to its watcher. -/
def Opening : Option Phase → Prop
  | some .begin | some .locked | some .opened | some .podsStarted | some .eventsStarted
  | some (.configured _) => True
  | _ => False

/-- A step of one collector or its goroutine that brings it further, and leaves the rest. -/
structure Advance (i : ℕ) (s : Shared) (ph : PhaseMap) (s' : Shared) (ph' : PhaseMap) :
    Prop extends Own i s s' where
  chan : s'.chan = s.chan
  worker : ph' .worker = ph .worker
  beside : ∀ j, j ≠ i → ph' (.collector j) = ph (.collector j) ∧ weight ph' j = weight ph j
  weight : weight ph' i < weight ph i

section Progress
variable {s s' : Shared} {ph ph' : PhaseMap} {φ : Phase} {op op' : sig.Op}
  {r : sig.Reply op} {i j : ℕ}

/-- A collector and its goroutine have one step to take in every phase, and so has the worker within
    a restart. -/
theorem permits_unique {t : Task} (hφ : t = .worker → φ ≠ .rest ∧ φ ≠ .applying) (ht : t.Restarts)
    (hp : Permits t φ op) (hp' : Permits t φ op') : op' = op := by
  cases hp with
  | dequeue | goImmediately => exact absurd rfl (hφ rfl).1
  | applySpec => exact absurd rfl (hφ rfl).2
  | kubernetesClient | goInformer | podsDone | notice | applyPolicies | write
  | applyPoliciesImmediately => exact ht.elim
  | _ =>
    cases hp'
    rfl

theorem forced {t : Task} (hi : ph t = some φ) (hp : Permits t φ op) (hact : act op s r s')
    (ht : t.Restarts) (hφ : t = .worker → φ ≠ .rest ∧ φ ≠ .applying) :
    phases.Forced system Task.Restarts s ph s' (after ph t φ ⟨op, r⟩) := by
  refine .step ht hi ?_ (fun _ x hx => ?_) hp (fun op' hp' => permits_unique hφ ht hp hp') hact
  · cases hp <;> first | exact id | exact ht.elim
  · cases t <;> first | exact ht.elim | cases hx

/-- A step of a goroutine of one collector that the phases force, and that brings it further. -/
def Drives (i : ℕ) (s : Shared) (ph : PhaseMap) (s' : Shared) (ph' : PhaseMap) : Prop :=
  phases.Forced system Task.Restarts s ph s' ph' ∧ Advance i s ph s' ph'

/-- A step of a collector. -/
theorem drives_collector (hi : ph (.collector i) = some φ) (hp : Permits (.collector i) φ op)
    (r : sig.Reply op) (hguard : guard op s r) (hchan : (effect op s r).chan = s.chan)
    (hweight : mainRank (some (next φ ⟨op, r⟩)) +
      eventsRank (after ph (.collector i) φ ⟨op, r⟩ (.events i)) <
        mainRank (some φ) + eventsRank (ph (.events i))) :
    Drives i s ph (effect op s r) (after ph (.collector i) φ ⟨op, r⟩) := by
  have hact : act op s r (effect op s r) := ⟨hguard, rfl⟩
  refine ⟨forced hi hp hact trivial (by simp), ?_⟩
  obtain ⟨hself, hothers, hevents, hworker⟩ := after_collector (r := r) ph hp
  refine ⟨collector_frame hp hact, hchan, hworker, fun j hj => ⟨hothers j hj, ?_⟩, ?_⟩
  · rw [weight, weight, hothers j hj, hevents j hj]
  · rwa [weight, weight, hself, hi]

/-- A step of the goroutine over its channels. -/
theorem drives_events (hi : ph (.events i) = some φ) (hp : Permits (.events i) φ op)
    (r : sig.Reply op) (hguard : guard op s r) (hchan : (effect op s r).chan = s.chan)
    (hweight : eventsRank (some (next φ ⟨op, r⟩)) < eventsRank (some φ)) :
    Drives i s ph (effect op s r) (after ph (.events i) φ ⟨op, r⟩) := by
  have hact : act op s r (effect op s r) := ⟨hguard, rfl⟩
  refine ⟨forced hi hp hact trivial (by simp), ?_⟩
  obtain ⟨hself, hothers, hmain, hworker⟩ := after_events (r := r) ph hp
  refine ⟨events_frame hp hact, hchan, hworker, fun j hj => ⟨hmain j, ?_⟩, ?_⟩
  · rw [weight, weight, hmain, hothers j hj]
  · rw [weight, weight, hself, hi, hmain]
    exact Nat.add_lt_add_left hweight _

/-- A collector that was told to stop and holds the lock can take a step towards giving it back. -/
theorem drive_told (h : Inv s ph) (hholds : Holds (ph (.collector i))) (htold : Told ph i) :
    ∃ s' ph', Drives i s ph s' ph' := by
  have hfits := h.fits i
  rw [Told] at htold
  rcases hm : ph (.collector i) with _ | φ
  · rw [hm] at hholds
    exact hholds.elim
  rw [hm] at hfits htold hholds
  cases φ with
  | locked | parking | parked q | opened | podsStarted =>
    -- without its goroutine the collector was not told
    rw [hfits.1] at htold
    exact (htold.elim id id).elim
  | eventsStarted =>
    exact ⟨_, _, drives_collector hm (.snapshot i) _ rfl rfl
      (Nat.add_lt_add_right (Nat.lt_succ_self 11) _)⟩
  | configured d =>
    exact ⟨_, _, drives_collector hm (.add i d) (some "") trivial rfl
      (Nat.add_lt_add_right (Nat.lt_succ_self 10) _)⟩
  | waiting =>
    obtain ⟨⟨ε, hε, hattends⟩, -⟩ := hfits
    rw [hε] at htold
    cases ε with
    | cancelling =>
      exact ⟨_, _, drives_events hε (.stopContext i) () trivial rfl (Nat.lt_succ_self 4)⟩
    | stopping =>
      exact ⟨_, _, drives_events hε (.stopTimers i) () trivial rfl (Nat.lt_succ_self 3)⟩
    | finishing =>
      exact ⟨_, _, drives_events hε (.closeDone i) () trivial rfl (Nat.zero_lt_succ 2)⟩
    | stopped =>
      exact ⟨_, _, drives_collector hm (.waitDone i) () hattends.1 rfl
        (Nat.add_lt_add_right (Nat.lt_succ_self 9) _)⟩
    | _ => exact (htold.elim id id).elim
  | closing =>
    exact ⟨_, _, drives_collector hm (.closeWatcher i) () trivial rfl
      (Nat.add_lt_add_right (Nat.lt_succ_self 8) _)⟩
  | leaving watched =>
    exact ⟨_, _, drives_collector hm (.unlock i watched) () trivial rfl
      (Nat.add_lt_add_right (Nat.lt_succ_self 7) _)⟩
  | _ => exact hholds.elim

/-- The newest collector is about to take the lock: it can, or the collector that holds it can take
    a step towards giving it back. -/
theorem drive_begin (h : Inv s ph) (hi : ph (.collector s.quit) = some .begin) :
    ∃ s' ph' j, Drives j s ph s' ph' ∧ Opening (ph' (.collector s.quit)) := by
  rcases hlocked : s.locked with _ | _
  · have hself : after ph (.collector s.quit) .begin ⟨.lock, ()⟩ (.collector s.quit)
        = some .locked := (after_collector ph (.lock s.quit)).1
    exact ⟨_, _, _, drives_collector hi (.lock _) () hlocked rfl
      (Nat.add_lt_add_right (Nat.lt_succ_self 31) _), (congrArg Opening hself).mpr trivial⟩
  · obtain ⟨j, hj⟩ := h.lock.locked.mp hlocked
    have hne : s.quit ≠ j := by
      rintro rfl
      rw [hi] at hj
      exact hj
    -- the holder is older, so it was told to stop
    have htold : Told ph j := by
      by_contra hnot
      rcases hm : ph (.collector j) with _ | φ
      · rw [hm] at hj
        exact hj
      · exact hne (h.hand.newest (by rw [hm]; rfl) hnot).symm
    obtain ⟨s', ph', hdrives⟩ := drive_told h hj htold
    refine ⟨s', ph', j, hdrives, ?_⟩
    rw [(hdrives.2.beside _ hne).1, hi]
    trivial

/-- The newest collector can take a step towards its watcher. -/
theorem drive_opening (h : Inv s ph) (hopening : Opening (ph (.collector s.quit))) :
    (∃ s' ph' j, Drives j s ph s' ph' ∧ Opening (ph' (.collector s.quit))) ∨
    ∃ d, ph (.collector s.quit) = some (.configured d) ∧
      (s.locals s.quit).watch = .opened none := by
  have hfits := h.fits s.quit
  rcases hm : ph (.collector s.quit) with _ | φ
  · rw [hm] at hopening
    exact hopening.elim
  rw [hm] at hfits hopening
  have main {op : sig.Op} {r : sig.Reply op} {s' : Shared} (hp : Permits (.collector s.quit) φ op)
      (hdrives : Drives s.quit s ph s' (after ph (.collector s.quit) φ ⟨op, r⟩))
      (hopening : Opening (some (next φ ⟨op, r⟩))) :
      ∃ s' ph' j, Drives j s ph s' ph' ∧ Opening (ph' (.collector s.quit)) :=
    ⟨_, _, _, hdrives, (after_collector ph hp).1 ▸ hopening⟩
  cases φ with
  | begin => exact .inl (drive_begin h hm)
  | locked =>
    exact .inl (main (.newWatcher _) (drives_collector hm (.newWatcher _) none trivial rfl
      (Nat.add_lt_add_right (Nat.lt_succ_self 30) _)) trivial)
  | opened =>
    exact .inl (main (.goPodWatcher _) (drives_collector hm (.goPodWatcher _) () trivial rfl
      (Nat.add_lt_add_right (Nat.lt_succ_self 29) _)) trivial)
  | podsStarted =>
    refine .inl (main (.goEvents _) (drives_collector hm (.goEvents _) () trivial rfl ?_) trivial)
    -- the goroutine is started here
    rw [after_spawned rfl, hfits.1]
    show 12 + 7 < 29 + 0
    omega
  | eventsStarted =>
    exact .inl (main (.snapshot _) (drives_collector hm (.snapshot _) _ rfl rfl
      (Nat.add_lt_add_right (Nat.lt_succ_self 11) _)) trivial)
  | configured d => exact .inr ⟨d, rfl, hfits.2⟩
  | _ => exact hopening.elim

/-- While the worker sends, the newest collector can take a step towards its end, or receive. -/
theorem drive_newest (h : Inv s ph) (htold : ¬ Told ph s.quit)
    (hsome : (ph (.collector s.quit)).isSome) (hchan : s.chan s.quit = .offered) :
    (∃ s' ph' j, Drives j s ph s' ph') ∨
    ∃ ph', phases.Forced system Task.Restarts s ph (s.setChan s.quit .taken) ph' ∧
      ph' .worker = ph .worker := by
  by_cases hopening : Opening (ph (.collector s.quit))
  · rcases drive_opening h hopening with ⟨s', ph', j, hdrives, -⟩ | ⟨d, hd, -⟩
    · exact .inl ⟨s', ph', j, hdrives⟩
    · exact .inl ⟨_, _, _, drives_collector hd (.add _ d) (some "") trivial rfl
        (Nat.add_lt_add_right (Nat.lt_succ_self 10) _)⟩
  have hfits := h.fits s.quit
  obtain ⟨φ, hm⟩ := Option.isSome_iff_exists.mp hsome
  rw [Told] at htold
  rw [hm] at hfits htold hopening
  -- it waits for the channel itself, or for its event loop, which does
  cases φ with
  | parking =>
    exact .inl ⟨_, _, _, drives_collector hm (.park _) s.quit rfl rfl
      (Nat.add_lt_add_right (Nat.lt_succ_self 24) _)⟩
  | parked q =>
    obtain rfl := h.hand.parked _ q hm
    have hact : act (.receive s.quit) s () _ := ⟨hchan, rfl⟩
    exact .inr ⟨_, forced hm (.receive _ _) hact trivial (by simp),
      (after_collector ph (.receive _ _)).2.2.2⟩
  | waiting =>
    obtain ⟨⟨ε, hε, hattends⟩, -⟩ := hfits
    rw [hε] at htold
    cases ε with
    | head =>
      exact .inl ⟨_, _, _, drives_events hε (.readQuit _) s.quit rfl rfl (Nat.lt_succ_self 6)⟩
    | selecting q =>
      obtain rfl := h.hand.selecting _ q hε
      have hact : act (.select s.quit s.quit) s .quit _ := ⟨hchan, rfl⟩
      exact .inr ⟨_, forced hε (.select _ _) hact trivial (by simp),
        (after_events ph (.select _ _)).2.2.2⟩
    | looking path =>
      refine .inl ⟨_, _, _, drives_events hε (.lookupTimer _ path) _ rfl rfl ?_⟩
      cases ((s.locals s.quit).timers path).isSome
      · exact Nat.lt_succ_self 9
      · exact Nat.lt_add_of_pos_right (n := 8) (k := 2) (by decide)
    | creating path =>
      exact .inl ⟨_, _, _, drives_events hε (.newTimer _ path) () trivial rfl (Nat.lt_succ_self 8)⟩
    | arming path =>
      exact .inl ⟨_, _, _, drives_events hε (.reset _ path) () trivial rfl (Nat.lt_succ_self 7)⟩
    | cancelling | stopping | finishing | stopped => exact absurd (.inr trivial) htold
    | _ => exact hattends.elim
  | closing =>
    rw [hfits.1] at htold
    exact absurd (.inr trivial) htold
  | leaving watched | unlocked watched | ended watched => exact absurd (.inl trivial) htold
  | begin | locked | opened | podsStarted | eventsStarted | configured =>
    exact absurd trivial hopening
  | _ => exact hfits.elim

theorem Inv.forced {A : Task → Prop} (h : Inv s ph) (hforced : phases.Forced system A s ph s' ph') :
    Inv s' ph' := by
  cases hforced with
  | step _ ht _ _ hp _ hact => exact h.act ht hp hact

/-- A step of a collector lowers the rank. -/
theorem Advance.rank_lt (hadvance : Advance i s ph s' ph') (h : Inv s ph) :
    rank s' ph' < rank s ph := by
  have hi : i < s.collectors := by
    by_contra hge
    obtain ⟨habsent, hfits, -⟩ := h.absent (Nat.not_lt.mp hge)
    have hweight := hadvance.weight
    rw [Watcher.weight, Watcher.weight, habsent, hfits.1] at hweight
    exact absurd hweight (Nat.not_lt_zero _)
  rw [rank, rank, Prod.Lex.toLex_lt_toLex]
  refine .inr ⟨?_, ?_⟩
  · show workerRank s' (ph' .worker) = workerRank s (ph .worker)
    rw [hadvance.worker]
    unfold workerRank
    rw [hadvance.chan, hadvance.quit]
  · show ∑ j ∈ Finset.range s'.collectors, Watcher.weight ph' j < _
    rw [hadvance.collectors]
    refine Finset.sum_lt_sum (fun j _ => ?_) ⟨i, Finset.mem_range.mpr hi, hadvance.weight⟩
    by_cases hj : j = i
    · exact hj ▸ hadvance.weight.le
    · exact (hadvance.beside j hj).2.le

/-- The worker comes further. -/
theorem rank_lt_of_worker (h : workerRank s' (ph' .worker) < workerRank s (ph .worker)) :
    rank s' ph' < rank s ph := by
  rw [rank, rank, Prod.Lex.toLex_lt_toLex]
  exact .inl h

/-- A state within a restart that began with the variables `vars` and the channel `q`. -/
structure Midway (vars : Variables) (q : ℕ) (s : Shared) (ph : PhaseMap) : Prop where
  inv : Inv s ph
  same : s.vars = vars
  worker : (∃ ρ, ph .worker = some ρ ∧ Restarting ρ ∧ s.quit = q) ∨
    (ph .worker = some .renewed ∧ s.quit = q + 1) ∨
    (ph .worker = some .rest ∧ s.quit = q + 1 ∧ Opening (ph (.collector s.quit)))

/-- The restart is over. -/
structure Over (vars : Variables) (q : ℕ) (s : Shared) : Prop where
  same : s.vars = vars
  quit : s.quit = q + 1
  watch : (s.locals s.quit).watch = .opened (some vars.checkpointDirectory)

/-- **A step of the restart.**  From every state within a restart a goroutine can take a step that
    lowers the rank or ends the restart. -/
theorem Midway.step {vars : Variables} {q : ℕ} (h : Midway vars q s ph) :
    ∃ s' ph', phases.Forced system Task.Restarts s ph s' ph' ∧
      (Over vars q s' ∨ Midway vars q s' ph' ∧ rank s' ph' < rank s ph) := by
  rcases h.worker with ⟨ρ, hρ, hrestarting, hq⟩ | ⟨hρ, hq⟩ | ⟨hworker, hq, hopening⟩
  · have hcurrent := h.inv.hand.at hρ
    cases ρ with
    | restarting =>
      have hact : act .offer s s.quit (s.setChan s.quit .offered) := ⟨⟨rfl, hcurrent.2.1⟩, rfl⟩
      have hself : after ph .worker .restarting ⟨.offer, s.quit⟩ .worker
          = some (.sending s.quit) := (after_worker ph .offer (by simp)).1
      refine ⟨_, _, forced hρ .offer hact trivial (by simp), .inr
        ⟨⟨h.inv.worker hρ .offer hact, h.same, .inl ⟨_, hself, trivial, hq⟩⟩,
          rank_lt_of_worker ?_⟩⟩
      rw [hself, hρ]
      show (if _ then 4 else 3) < 5
      split_ifs <;> omega
    | sending q' =>
      obtain ⟨rfl, hcollectors, ⟨hchan, htold⟩ | ⟨hchan, -⟩⟩ := hcurrent
      · -- the value is not received yet
        have hsome : (ph (.collector s.quit)).isSome := (h.inv.hand.known _).mpr (by omega)
        rcases drive_newest h.inv htold hsome hchan with
          ⟨s', ph', j, hforced, hadvance⟩ | ⟨ph', hforced, hworker⟩
        · refine ⟨s', ph', hforced, .inr ⟨⟨h.inv.forced hforced, hadvance.vars.trans h.same,
            .inl ⟨_, hadvance.worker.trans hρ, trivial, hadvance.quit.trans hq⟩⟩,
            hadvance.rank_lt h.inv⟩⟩
        · refine ⟨_, ph', hforced, .inr ⟨⟨h.inv.forced hforced, h.same,
            .inl ⟨_, hworker.trans hρ, trivial, hq⟩⟩, rank_lt_of_worker ?_⟩⟩
          have htaken : (s.setChan s.quit .taken).chan s.quit = .taken := Function.update_self ..
          rw [hworker, hρ]
          show (if (s.setChan s.quit .taken).chan s.quit = .offered then 4 else 3) <
            if s.chan s.quit = .offered then 4 else 3
          rw [if_pos hchan, htaken, if_neg (by simp)]
          omega
      · have hact : act (.taken s.quit) s () (s.setChan s.quit .idle) := ⟨hchan, rfl⟩
        have hself : after ph .worker (.sending s.quit) ⟨.taken s.quit, ()⟩ .worker = some .sent :=
          (after_worker ph (.taken s.quit) (by simp)).1
        refine ⟨_, _, forced hρ (.taken _) hact trivial (by simp), .inr
          ⟨⟨h.inv.worker hρ (.taken _) hact, h.same, .inl ⟨_, hself, trivial, hq⟩⟩,
            rank_lt_of_worker ?_⟩⟩
        rw [hself, hρ]
        show 2 < if s.chan s.quit = .offered then 4 else 3
        split_ifs <;> omega
    | sent =>
      have hact : act .makeQuit s () _ := ⟨trivial, rfl⟩
      have hself : after ph .worker .sent ⟨.makeQuit, ()⟩ .worker = some .renewed :=
        (after_worker ph .makeQuit (by simp)).1
      refine ⟨_, _, forced hρ .makeQuit hact trivial (by simp), .inr
        ⟨⟨h.inv.worker hρ .makeQuit hact, h.same, .inr (.inl ⟨hself, ?_⟩)⟩,
          rank_lt_of_worker ?_⟩⟩
      · exact h.inv.hand.channels.trans (congrArg (· + 1) hq)
      · rw [hself, hρ]
        exact Nat.lt_succ_self 1
    | _ => exact hrestarting.elim
  · have hcurrent := h.inv.hand.at hρ
    have hact : act .goCollector s s.collectors _ := ⟨rfl, rfl⟩
    obtain ⟨hself, hnew, -, -⟩ := after_goCollector ph s.collectors
    refine ⟨_, _, forced hρ .goCollector hact trivial (by simp), .inr
      ⟨⟨h.inv.worker hρ .goCollector hact, h.same, .inr (.inr ⟨hself, hq, ?_⟩)⟩,
        rank_lt_of_worker ?_⟩⟩
    · -- the new collector is the one of the variable's channel
      show Opening (after ph .worker .renewed ⟨.goCollector, s.collectors⟩ (.collector s.quit))
      rw [← hcurrent.1, hnew]
      trivial
    · rw [hself, hρ]
      exact Nat.zero_lt_one
  · rcases drive_opening h.inv hopening with ⟨s', ph', j, ⟨hforced, hadvance⟩, hopening'⟩ |
      ⟨d, hd, hwatch⟩
    · refine ⟨s', ph', hforced, .inr ⟨⟨h.inv.forced hforced, hadvance.vars.trans h.same,
        .inr (.inr ⟨hadvance.worker.trans hworker, hadvance.quit.trans hq, ?_⟩)⟩,
        hadvance.rank_lt h.inv⟩⟩
      rw [hadvance.quit]
      exact hopening'
    · have hact : act (.add s.quit d) s none _ := ⟨⟨none, hwatch⟩, rfl⟩
      refine ⟨_, _, forced hd (.add _ d) hact trivial (by simp), .inl ⟨h.same, hq, ?_⟩⟩
      show ((s.modify s.quit (fun l => { l with watch := .opened (some d) })).locals
        s.quit).watch = _
      rw [modify_self, ← h.same]
      -- outside a restart the snapshot is current
      rcases h.inv.directory d (.inl hd) with hdirectory | ⟨ρ', hρ', hrestarting⟩
      · rw [hdirectory]
      · rw [hworker] at hρ'
        cases hρ'
        exact hrestarting.elim

end Progress

variable {vars : Variables} {now : ℤ} {c : World} {tr : Trace}

/-- **A restart can always be completed.**  From every state that the operator reaches with a
    restart under way, steps of the worker, the collectors and the goroutines over their channels
    lead to one in which the next collector watches the configured directory: no request to the API
    and no time is needed, and neither the send on `quit` nor the lock is waited for in vain. -/
theorem restart_completes (h : system.Path (setup vars now) tr c) (hpending : pending tr = true) :
    ∃ tr' c', system.Path c tr' c' ∧
      (∀ x ∈ tr', ∃ t : Task, t.Restarts ∧ (x.2 = .again t ∨ ∃ e, x.2 = .act t e)) ∧
      c'.shared.vars = c.shared.vars ∧ c'.shared.quit = c.shared.quit + 1 ∧
      (c'.shared.locals c'.shared.quit).watch
        = .opened (some c.shared.vars.checkpointDirectory) := by
  obtain ⟨ph, htracks, hinv, hhistory⟩ := history_of_path h
  obtain ⟨ρ, hρ, hrestarting⟩ := hhistory.pending.mp hpending
  obtain ⟨tr', c', ph', hpath, -, hover, hmoves⟩ := htracks.reach phases_followed rank
    (P := Midway c.shared.vars c.shared.quit) (Q := fun s _ => Over c.shared.vars c.shared.quit s)
    (fun s ph hmidway => hmidway.step) ⟨hinv, rfl, .inl ⟨ρ, hρ, hrestarting, rfl⟩⟩
  exact ⟨tr', c', hpath, hmoves, hover.same, hover.quit, hover.watch⟩

/-- A run in which a spec moves the directory before the first collector has the lock. -/
theorem exists_path_pending :
    ∃ tr c, system.Path (setup .initial 0) tr c ∧ pending tr = true := by
  have h₀ : system.Path (setup .initial 0) [] _ := .nil
  have h₁ := h₀.act .worker .dequeue () rfl ⟨trivial, rfl⟩
  have h₂ := h₁.act .worker .get (.found ⟨directorySpec "/checkpoints", false⟩) rfl ⟨trivial, rfl⟩
  have h₃ := h₂.act .worker (.applySpec (directorySpec "/checkpoints")) _ rfl ⟨rfl, rfl⟩
  exact ⟨_, _, h₃, by decide⟩

theorem restart_completes_first : ∃ tr c tr' c', system.Path (setup .initial 0) tr c ∧
    pending tr = true ∧ system.Path c tr' c' ∧ (c'.shared.locals c'.shared.quit).watch
      = .opened (some c.shared.vars.checkpointDirectory) := by
  obtain ⟨tr, c, hpath, hpending⟩ := exists_path_pending
  obtain ⟨tr', c', hpath', -, -, -, hwatch⟩ := restart_completes hpath hpending
  exact ⟨tr, c, tr', c', hpath, hpending, hpath', hwatch⟩

end CheckpointRestore.Retention.Watcher
