import CheckpointRestore.Retention.Restart

namespace CheckpointRestore.Retention.Watcher

open Interaction

/-!
# The collector in charge

What the invariant says of the runs of the operator.

* `one_collector_in_charge` — one watcher is open at most, the collectors before it are gone, and
  nothing panics;
* `stopsOf`, `sendsOf`, `pending` — which collectors were told to stop along a run, how many sends
  on `quit` have returned, and whether a restart is under way;
* `stopped_in_turn` — every send stops one collector, the oldest that runs;
* `watches_directory` — the directory watched is the one configured.
-/

section Charge
variable {s : Shared} {ph : PhaseMap} {i j : ℕ}

/-- A collector with an open watcher holds the lock. -/
theorem Fits.holds {m e : Option Phase} {l : Locals} {d : Option String} (h : Fits m e l)
    (hwatch : l.watch = .opened d) : Holds m ∧ m.isSome := by
  rcases m with _ | φ
  · exact absurd (hwatch.symm.trans h.2.2) (by simp)
  · refine ⟨?_, rfl⟩
    cases φ with
    | begin => exact absurd (hwatch.symm.trans h.2.2) (by simp)
    | unlocked watched | ended watched =>
      cases watched <;> exact absurd (hwatch.symm.trans h.2.2) (by simp)
    | locked | parking | parked | opened | podsStarted | eventsStarted | configured | waiting
    | closing | leaving => trivial
    | _ => exact h.elim

/-- A collector that was told to stop and has given the lock back has left nothing behind. -/
theorem Fits.gone {m e : Option Phase} {l : Locals} (h : Fits m e l) (hfree : ¬ Holds m)
    (htold : Leaves m ∨ Stops e) :
    (l.timers = fun _ => none) ∧ (∀ ε, e = some ε → ε = .stopped) ∧
      (l.watch = .absent ∨ l.watch = .closed ∧ l.cancelled = true ∧ l.done = true) := by
  rcases m with _ | φ
  · obtain ⟨rfl, -, -⟩ := h
    exact (htold.elim id id).elim
  · cases φ with
    | begin =>
      obtain ⟨rfl, -, -⟩ := h
      exact (htold.elim id id).elim
    | unlocked watched | ended watched =>
      cases watched with
      | false =>
        obtain ⟨rfl, ⟨-, htimers⟩, hwatch⟩ := h
        exact ⟨htimers, fun ε hε => absurd hε (by simp), .inl hwatch⟩
      | true =>
        obtain ⟨rfl, ⟨hdone, hcancelled, htimers⟩, hwatch⟩ := h
        exact ⟨htimers, fun ε hε => (Option.some.inj hε).symm, .inr ⟨hwatch, hcancelled, hdone⟩⟩
    | locked | parking | parked | opened | podsStarted | eventsStarted | configured | waiting
    | closing | leaving => exact absurd trivial hfree
    | _ => exact h.elim

/-- The collectors before one that holds the lock were told to stop and have given it back. -/
theorem Inv.before (h : Inv s ph) (hi : Holds (ph (.collector i)))
    (hsome : (ph (.collector i)).isSome) (hj : j < i) :
    ¬ Holds (ph (.collector j)) ∧ Told ph j := by
  obtain ⟨ρ, -, hcurrent⟩ := h.hand.current
  have hle := hcurrent.collectors_le.2
  have hlt := (h.hand.known i).mp hsome
  refine ⟨fun hholds => ?_, h.hand.old j (by omega)⟩
  exact absurd (h.lock.alone j i hholds hi) (Nat.ne_of_lt hj)

/-- What is left of a goroutine that has stopped. -/
theorem owes_stopped {p : Prog sig Bool} (h : phases.Owes (.events j) p .stopped) :
    p = .pure false := by
  cases p with
  | pure again =>
    cases again with
    | false => rfl
    | true => exact absurd h (by simp [Discipline.Owes, wp, phases, entry])
  | call op k =>
    have hp : Permits (.events j) .stopped op := h.1
    cases hp

end Charge

/-! ### Along a run -/

/-- The collectors that were told to stop, in the order in which they were. -/
def stopsOf (tr : Trace) : List ℕ :=
  tr.filterMap (fun x => stopOf x.2)

/-- A send on `quit` that has returned. -/
def isSend : Move sig Task → Bool
  | .act _ ⟨.taken _, _⟩ => true
  | _ => false

/-- The number of sends that have returned. -/
def sendsOf (tr : Trace) : ℕ :=
  tr.countP (fun x => isSend x.2)

/-- A spec that moves the directory begins a restart, and another channel for `quit` ends it. -/
def pendingAfter (pending : Bool) : Move sig Task → Bool
  | .act _ ⟨.applySpec _, (_, true)⟩ => true
  | .act _ ⟨.makeQuit, _⟩ => false
  | _ => pending

/-- Whether a restart is under way. -/
def pending (tr : Trace) : Bool :=
  tr.foldl (fun pending x => pendingAfter pending x.2) false

/-- A `select` that received from a closed channel. -/
def sawClosed : Move sig Task → Bool
  | .act _ ⟨.select _ _, .event none⟩ | .act _ ⟨.select _ _, .error none⟩ => true
  | _ => false

variable {vars : Variables} {now : ℤ} {c : World} {tr : Trace}

/-- **One collector is in charge.**  In every state the operator reaches nothing has panicked, and a
    watcher that is open is the only one; the collectors before it have no timers, and their
    goroutines have returned, with their contexts cancelled and their watchers closed. -/
theorem one_collector_in_charge (h : system.Path (setup vars now) tr c) :
    c.shared.panicked = false ∧
      ∀ i d, (c.shared.locals i).watch = .opened d →
        (∀ j d', (c.shared.locals j).watch = .opened d' → j = i) ∧
        ∀ j, j < i → ((c.shared.locals j).timers = fun _ => none) ∧
          (∀ p, c.run (.events j) = some p → p = .pure false) ∧
          ((c.shared.locals j).watch = .absent ∨ (c.shared.locals j).watch = .closed ∧
            (c.shared.locals j).cancelled = true ∧ (c.shared.locals j).done = true) := by
  obtain ⟨ph, htracks, hinv⟩ := inv_of_path h
  refine ⟨hinv.panicked, fun i d hwatch => ⟨fun j d' hwatch' => ?_, fun j hj => ?_⟩⟩
  · exact hinv.lock.alone j i ((hinv.fits j).holds hwatch').1 ((hinv.fits i).holds hwatch).1
  · obtain ⟨hholds, hsome⟩ := (hinv.fits i).holds hwatch
    obtain ⟨hfree, htold⟩ := hinv.before hholds hsome hj
    obtain ⟨htimers, hstopped, hleft⟩ := (hinv.fits j).gone hfree htold
    refine ⟨htimers, fun p hp => ?_, hleft⟩
    obtain ⟨ε, hε, howes⟩ := htracks.phase hp
    obtain rfl := hstopped ε hε
    exact owes_stopped howes

/-- A run in which the first collector watches its directory, until a spec moves the directory and
    the second collector takes over. -/
theorem exists_path_restarted : ∃ tr c, system.Path (setup .initial 0) tr c ∧
    stopsOf tr = [0] ∧ sendsOf tr = 1 ∧ pending tr = false ∧
    (c.shared.locals 1).watch = .opened (some "/checkpoints") := by
  have h : system.Path (setup .initial 0) [] _ := .nil
  replace h := h.act (.collector 0) .lock () rfl ⟨rfl, rfl⟩
  replace h := h.act (.collector 0) (.newWatcher 0) none rfl ⟨trivial, rfl⟩
  replace h := h.act (.collector 0) (.goPodWatcher 0) () rfl ⟨trivial, rfl⟩
  replace h := h.act (.collector 0) (.goEvents 0) () rfl ⟨trivial, rfl⟩
  replace h := h.act (.collector 0) .snapshot _ rfl ⟨rfl, rfl⟩
  replace h := h.act (.collector 0) (.add 0 defaultDirectory) none rfl ⟨⟨none, rfl⟩, rfl⟩
  replace h := h.act .worker .dequeue () rfl ⟨trivial, rfl⟩
  replace h := h.act .worker .get (.found ⟨directorySpec "/checkpoints", false⟩) rfl ⟨trivial, rfl⟩
  replace h := h.act .worker (.applySpec (directorySpec "/checkpoints")) _ rfl ⟨rfl, rfl⟩
  replace h := h.act .worker .offer (0 : ℕ) rfl ⟨⟨rfl, rfl⟩, rfl⟩
  replace h := h.act (.events 0) .readQuit (0 : ℕ) rfl ⟨rfl, rfl⟩
  replace h := h.act (.events 0) (.select 0 0) .quit rfl ⟨rfl, rfl⟩
  replace h := h.act (.events 0) (.cancel 0) () rfl ⟨trivial, rfl⟩
  replace h := h.act (.events 0) (.stopTimers 0) () rfl ⟨trivial, rfl⟩
  replace h := h.act (.events 0) (.closeDone 0) () rfl ⟨trivial, rfl⟩
  replace h := h.act (.collector 0) (.waitDone 0) () rfl ⟨rfl, rfl⟩
  replace h := h.act (.collector 0) (.closeWatcher 0) () rfl ⟨trivial, rfl⟩
  replace h := h.act (.collector 0) .unlock () rfl ⟨trivial, rfl⟩
  replace h := h.act .worker (.taken 0) () rfl ⟨rfl, rfl⟩
  replace h := h.act .worker .makeQuit () rfl ⟨trivial, rfl⟩
  replace h := h.act .worker .goCollector (1 : ℕ) rfl ⟨rfl, rfl⟩
  replace h := h.act (.collector 1) .lock () rfl ⟨rfl, rfl⟩
  replace h := h.act (.collector 1) (.newWatcher 1) none rfl ⟨trivial, rfl⟩
  replace h := h.act (.collector 1) (.goPodWatcher 1) () rfl ⟨trivial, rfl⟩
  replace h := h.act (.collector 1) (.goEvents 1) () rfl ⟨trivial, rfl⟩
  replace h := h.act (.collector 1) .snapshot _ rfl ⟨rfl, rfl⟩
  replace h := h.act (.collector 1) (.add 1 "/checkpoints") none rfl ⟨⟨none, rfl⟩, rfl⟩
  exact ⟨_, _, h, by decide, by decide, by decide, by decide⟩

theorem one_collector_in_charge_restarted : ∃ c : World,
    (c.shared.locals 1).watch = .opened (some "/checkpoints") ∧ c.shared.panicked = false ∧
      (∀ j d, (c.shared.locals j).watch = .opened d → j = 1) ∧
      (∀ p, c.run (.events 0) = some p → p = .pure false) := by
  obtain ⟨tr, c, hpath, -, -, -, hwatch⟩ := exists_path_restarted
  obtain ⟨hpanicked, hcharge⟩ := one_collector_in_charge hpath
  obtain ⟨halone, hbefore⟩ := hcharge 1 _ hwatch
  exact ⟨c, hwatch, hpanicked, halone, (hbefore 0 Nat.zero_lt_one).2.1⟩

/-! ### Sends and stops -/

/-- A run against the state it leads to. -/
structure History (tr : Trace) (s : Shared) (ph : PhaseMap) : Prop where
  told : Told ph s.quit → stopsOf tr = List.range (s.quit + 1)
  untold : ¬ Told ph s.quit → stopsOf tr = List.range s.quit
  sends : sendsOf tr = s.quit + if ph .worker = some .sent then 1 else 0
  pending : pending tr = true ↔ ∃ ρ, ph .worker = some ρ ∧ Restarting ρ
  live : ∀ x ∈ tr, sawClosed x.2 = false

section History
variable {b : World} {m : Move sig Task} {s s' : Shared}
  {ph ph' : PhaseMap} {φ : Phase} {op : sig.Op} {r : sig.Reply op} {t : Task} {i : ℕ}

theorem stopsOf_snoc : stopsOf (tr ++ [(b, m)]) = stopsOf tr ++ (stopOf m).toList := by
  rw [stopsOf, List.filterMap_append]
  cases hm : stopOf m <;> simp [stopsOf, hm]

theorem sendsOf_snoc : sendsOf (tr ++ [(b, m)]) = sendsOf tr + (isSend m).toNat := by
  rw [sendsOf, List.countP_append]
  cases hm : isSend m <;> simp [sendsOf, hm]

theorem pending_snoc : pending (tr ++ [(b, m)]) = pendingAfter (pending tr) m := by
  rw [pending, List.foldl_append]
  rfl

theorem live_snoc (h : ∀ x ∈ tr, sawClosed x.2 = false) (hm : sawClosed m = false) :
    ∀ x ∈ tr ++ [(b, m)], sawClosed x.2 = false :=
  List.forall_mem_append.mpr ⟨h, List.forall_mem_singleton.mpr hm⟩

/-- A move that is no step of the restart. -/
structure Quiet (m : Move sig Task) : Prop where
  send : isSend m = false
  pending : ∀ p, pendingAfter p m = p
  closed : sawClosed m = false

theorem quiet_collector (hp : Permits (.collector i) φ op) :
    Quiet (.act (.collector i) ⟨op, r⟩) := by
  cases hp <;> exact ⟨rfl, fun _ => rfl, rfl⟩

theorem quiet_aside (ht : t.Aside) (hp : Permits t φ op) :
    Quiet (.act t ⟨op, r⟩) ∧ stopOf (.act t ⟨op, r⟩) = none := by
  cases hp with
  | podsDone | notice | write | kubernetesClient | applyPolicies | applyPoliciesImmediately
  | goInformer => exact ⟨⟨rfl, fun _ => rfl, rfl⟩, rfl⟩
  | _ => exact ht.elim

/-- The watcher is open as long as the goroutine over the channels selects. -/
theorem quiet_events (hp : Permits (.events i) φ op) (hact : act op s r s')
    (hopen : φ ≠ .stopped → ∃ d, (s.locals i).watch = .opened d) :
    Quiet (.act (.events i) ⟨op, r⟩) := by
  cases hp with
  | select _ q =>
    obtain ⟨d, hwatch⟩ := hopen (by simp)
    rcases (r : Received) with _ | (_ | event) | (_ | err)
    · exact ⟨rfl, fun _ => rfl, rfl⟩
    · exact absurd (hwatch.symm.trans hact.1) (by simp)
    · exact ⟨rfl, fun _ => rfl, rfl⟩
    · exact absurd (hwatch.symm.trans hact.1) (by simp)
    · exact ⟨rfl, fun _ => rfl, rfl⟩
  | _ => exact ⟨rfl, fun _ => rfl, rfl⟩

theorem History.isPending {ρ : Phase} (h : History tr s ph) (hρ : ph .worker = some ρ) :
    Watcher.pending tr = decide (Restarting ρ) := by
  rw [Bool.eq_iff_iff, h.pending, hρ, decide_eq_true_iff]
  simp

/-- A step that does not put another channel in place: a collector may be told to stop. -/
theorem History.step {ρ ρ' : Phase} (h : History tr s ph) (hinv : Inv s ph)
    (hρ : ph .worker = some ρ) (hρ' : ph' .worker = some ρ') (hquit : s'.quit = s.quit)
    (htold : (stopOf m = some i ∧ s.chan i = .offered ∧ Told ph' i) ∨
      (stopOf m = none ∧ (Told ph' s.quit ↔ Told ph s.quit)))
    (hclosed : sawClosed m = false)
    (hsends : (if ρ = .sent then 1 else 0) + (isSend m).toNat = if ρ' = .sent then 1 else 0)
    (hpending : pendingAfter (decide (Restarting ρ)) m = decide (Restarting ρ')) :
    History (tr ++ [(b, m)]) s' ph' := by
  have hstops : (Told ph' s.quit → stopsOf (tr ++ [(b, m)]) = List.range (s.quit + 1)) ∧
      (¬ Told ph' s.quit → stopsOf (tr ++ [(b, m)]) = List.range s.quit) := by
    rw [stopsOf_snoc]
    rcases htold with ⟨hstop, hchan, htold⟩ | ⟨hstop, htold⟩
    · -- it is the collector of the variable's channel, and was not told before
      obtain ⟨rfl, -, -, huntold⟩ := hinv.hand.offered hchan
      refine ⟨fun _ => ?_, fun hnot => absurd htold hnot⟩
      rw [hstop, h.untold huntold, List.range_succ]
      rfl
    · rw [hstop, Option.toList_none, List.append_nil, htold]
      exact ⟨h.told, h.untold⟩
  refine ⟨hquit ▸ hstops.1, hquit ▸ hstops.2, ?_, ?_, live_snoc h.live hclosed⟩
  · rw [sendsOf_snoc, h.sends, hρ, hρ', hquit]
    simpa [add_assoc] using hsends
  · rw [pending_snoc, h.isPending hρ, hpending, decide_eq_true_iff, hρ']
    simp

/-- A quiet move of a goroutine other than the worker. -/
theorem History.moves (h : History tr s ph) (hinv : Inv s ph) (hm : Quiet m)
    (hworker : ph' .worker = ph .worker) (hquit : s'.quit = s.quit)
    (htold : (stopOf m = some i ∧ s.chan i = .offered ∧ Told ph' i) ∨
      (stopOf m = none ∧ (Told ph' s.quit ↔ Told ph s.quit))) :
    History (tr ++ [(b, m)]) s' ph' := by
  obtain ⟨ρ, hρ, -⟩ := hinv.hand.current
  refine h.step hinv hρ (hworker.trans hρ) hquit htold hm.closed ?_ (hm.pending _)
  rw [hm.send]
  rfl

/-- The collector of the last channel was told to stop when another channel is put in place. -/
theorem History.renew (h : History tr s ph) (hinv : Inv s ph) (hρ : ph .worker = some .sent)
    (htold : ¬ Told ph' s.channels) (hρ' : ph' .worker = some .renewed)
    (e : sig.Reply .makeQuit) :
    History (tr ++ [(b, .act .worker ⟨.makeQuit, e⟩)])
      { s with quit := s.channels, channels := s.channels + 1 } ph' := by
  refine ⟨fun hnew => absurd hnew htold, fun _ => ?_, ?_, ?_, live_snoc h.live rfl⟩
  · rw [stopsOf_snoc, h.told (hinv.hand.at hρ).2.2, hinv.hand.channels]
    exact List.append_nil _
  · rw [sendsOf_snoc, h.sends, hρ, hρ', hinv.hand.channels]
    rfl
  · rw [pending_snoc, hρ']
    exact iff_of_false (by simp [pendingAfter]) (by simp [Restarting])

theorem History.worker (h : History tr s ph) (hinv : Inv s ph) (hρ : ph .worker = some φ)
    (hp : Permits .worker φ op) (hact : act op s r s') :
    History (tr ++ [(b, .act .worker ⟨op, r⟩)]) s' (after ph .worker φ ⟨op, r⟩) := by
  have hinv' := hinv.worker hρ hp hact
  obtain ⟨hguard, rfl⟩ := hact
  have hcurrent := hinv.hand.at hρ
  by_cases hφ : φ = .renewed
  · subst hφ
    cases hp
    obtain rfl : r = _ := hguard
    obtain ⟨hrest, -⟩ := after_goCollector ph s.collectors
    exact h.step hinv hρ hrest rfl (i := 0) (.inr ⟨rfl, iff_of_false (hinv'.hand.at hrest).2.2
      (hinv.absent hcurrent.1.le).2.2⟩) rfl rfl rfl
  obtain ⟨hself, hmain, hevents⟩ := after_worker (r := r) ph hp hφ
  have hmoved := told_congr hmain hevents
  cases hp with
  | dequeue | goImmediately | offer | taken =>
    exact h.step hinv hρ hself rfl (i := 0) (.inr ⟨rfl, hmoved _⟩) rfl rfl rfl
  | get =>
    refine h.step hinv hρ hself rfl (i := 0) (.inr ⟨rfl, hmoved _⟩) rfl ?_ ?_
    all_goals rcases (r : ApiReply Input) with _ | _ | _ <;> rfl
  | applySpec spec =>
    refine h.step hinv hρ hself rfl (i := 0) (.inr ⟨rfl, hmoved _⟩) rfl ?_ ?_
    all_goals rcases (r : PolicySnapshot × Bool) with ⟨_, _ | _⟩ <;> rfl
  | makeQuit =>
    -- the collector of the new channel is not there yet
    have hle : s.collectors ≤ s.channels := (hcurrent.1.trans hinv.hand.channels.symm).le
    exact h.renew hinv hρ (fun htold => (hinv.absent hle).2.2 ((hmoved _).mp htold)) hself r
  | goCollector => exact absurd rfl hφ

theorem History.act (h : History tr s ph) (hinv : Inv s ph) (ht : ph t = some φ)
    (hp : Permits t φ op) (hact : act op s r s') :
    History (tr ++ [(b, .act t ⟨op, r⟩)]) s' (after ph t φ ⟨op, r⟩) := by
  cases t with
  | worker => exact h.worker hinv ht hp hact
  | collector i =>
    obtain ⟨hself, hothers, hevents, hworker⟩ := after_collector (r := r) ph hp
    have hfits := hinv.fits i
    rw [ht] at hfits
    refine h.moves hinv (quiet_collector hp) hworker (collector_frame hp hact).quit (i := i) ?_
    rcases collector_told hp hact hfits with ⟨hstop, q, rfl, hchan, -, hleaves⟩ | ⟨hstop, -, htold⟩
    · obtain rfl := hinv.hand.parked i q ht
      exact .inl ⟨hstop, hchan, .inl (hself ▸ hleaves)⟩
    · refine .inr ⟨hstop, ?_⟩
      by_cases hi : s.quit = i
      · rw [hi, Told, Told, hself, ht]
        exact htold
      · rw [Told, Told, hothers _ hi, hevents _ hi]
  | events i =>
    obtain ⟨hself, hothers, hmain, hworker⟩ := after_events (r := r) ph hp
    have hfits := hinv.fits i
    rw [ht] at hfits
    obtain ⟨-, hopen⟩ := hfits.attends
    refine h.moves hinv (quiet_events hp hact hopen) hworker (events_frame hp hact).quit (i := i) ?_
    rcases events_told hp hact hopen with ⟨hstop, q, rfl, hchan, -, hstops⟩ | ⟨hstop, -, htold⟩
    · obtain rfl := hinv.hand.selecting i q ht
      exact .inl ⟨hstop, hchan, .inr (hself ▸ hstops)⟩
    · refine .inr ⟨hstop, ?_⟩
      by_cases hi : s.quit = i
      · rw [hi, Told, Told, hself, ht, hmain]
        exact or_congr_right htold
      · rw [Told, Told, hmain, hothers _ hi]
  | podWatcher i | informer i | handler i path n | immediately n policies =>
    obtain ⟨rfl, hspawns⟩ := aside_frame (by trivial) hp hact
    obtain ⟨hquiet, hstop⟩ := quiet_aside (by trivial) hp
    refine h.moves hinv hquiet (after_of_ne (by simp) (fun hu => hspawns _ hu)) rfl (i := 0)
      (.inr ⟨hstop, told_congr (fun j => ?_) (fun j => ?_) _⟩)
    all_goals exact after_of_ne (by simp) (fun hu => hspawns _ hu)

theorem History.env {t : Option Task} (h : History tr s ph) (hinv : Inv s ph)
    (hs : Happens s t s') : History (tr ++ [(b, .env t)]) s' (started entry t ph) := by
  have hquiet : Quiet (.env t) := ⟨rfl, fun _ => rfl, rfl⟩
  cases hs with
  | tick => exact h.moves hinv hquiet rfl rfl (i := 0) (.inr ⟨rfl, .rfl⟩)
  | fire =>
    refine h.moves hinv hquiet (started_of_ne (by simp)) rfl (i := 0)
      (.inr ⟨rfl, told_congr (fun j => ?_) (fun j => ?_) _⟩)
    all_goals exact started_of_ne (by simp)

end History

/-- Every run against its state. -/
theorem history_of_path (h : system.Path (setup vars now) tr c) :
    ∃ ph, phases.Tracks c.run ph ∧ Inv c.shared ph ∧ History tr c.shared ph := by
  refine h.tracked phases_followed (I := fun tr s ph => Inv s ph ∧ History tr s ph)
    (tracks_setup vars now) ⟨inv_setup vars now, ?_⟩
    (fun _ _ _ _ _ _ _ _ hI ht hp hact => ⟨hI.1.act ht hp hact, hI.2.act hI.1 ht hp hact⟩)
    (fun _ _ _ _ hI => ⟨hI.1, ?_⟩)
    (fun _ _ _ _ _ hI hs => ⟨hI.1.env hs, hI.2.env hI.1 hs⟩)
  · have hrest : setupPhases .worker = some .rest := started_self ..
    have hcurrent := (inv_setup vars now).hand.at hrest
    refine ⟨fun htold => absurd htold hcurrent.2.2, fun _ => rfl, ?_, ?_, fun x hx => ?_⟩
    · rw [hrest]
      rfl
    · rw [hrest]
      exact iff_of_false (by simp [pending]) (by simp [Restarting])
    · exact absurd hx (List.not_mem_nil)
  · exact hI.2.moves hI.1 ⟨rfl, fun _ => rfl, rfl⟩ rfl rfl (i := 0) (.inr ⟨rfl, .rfl⟩)

/-- **Every send stops one collector.**  Along every run the collectors are told to stop in the
    order in which they were started, each once.  The sends on `quit` that have returned are as many
    as the collectors that were told, but for one that may be about to return; and no collector is
    stopped by a closed channel. -/
theorem stopped_in_turn (h : system.Path (setup vars now) tr c) :
    stopsOf tr = List.range (stopsOf tr).length ∧ sendsOf tr ≤ (stopsOf tr).length ∧
      (stopsOf tr).length ≤ sendsOf tr + 1 ∧ ∀ x ∈ tr, sawClosed x.2 = false := by
  obtain ⟨ph, -, hinv, hhistory⟩ := history_of_path h
  have hsends := hhistory.sends
  by_cases htold : Told ph c.shared.quit
  · rw [hhistory.told htold, List.length_range]
    refine ⟨rfl, ?_, ?_, hhistory.live⟩
    · rw [hsends]
      split_ifs <;> omega
    · omega
  · have hunsent : ph .worker ≠ some .sent := fun hsent => htold (hinv.hand.at hsent).2.2
    rw [if_neg hunsent] at hsends
    rw [hhistory.untold htold, List.length_range]
    exact ⟨rfl, by omega, by omega, hhistory.live⟩

theorem stopped_in_turn_restarted : ∃ tr c, system.Path (setup .initial 0) tr c ∧
    stopsOf tr = [0] ∧ sendsOf tr = 1 ∧ stopsOf tr = List.range (stopsOf tr).length ∧
    ∀ x ∈ tr, sawClosed x.2 = false := by
  obtain ⟨tr, c, hpath, hstops, hsends, -⟩ := exists_path_restarted
  obtain ⟨hturn, -, -, hlive⟩ := stopped_in_turn hpath
  exact ⟨tr, c, hpath, hstops, hsends, hturn, hlive⟩

/-- **The directory watched is the one configured.**  In every state the operator reaches, a
    directory added to an open watcher is the one in the variables, unless a restart is under way or
    the watcher's collector was told to stop. -/
theorem watches_directory {i : ℕ} {d : String}
    (h : system.Path (setup vars now) tr c)
    (hwatch : (c.shared.locals i).watch = .opened (some d)) :
    d = c.shared.vars.checkpointDirectory ∨ pending tr = true ∨ i ∈ stopsOf tr := by
  obtain ⟨ph, -, hinv, hhistory⟩ := history_of_path h
  obtain ⟨ρ, -, hcurrent⟩ := hinv.hand.current
  obtain ⟨-, hsome⟩ := (hinv.fits i).holds hwatch
  have hlt := (hinv.hand.known i).mp hsome
  have hle := hcurrent.collectors_le.2
  rcases Nat.lt_or_ge i c.shared.quit with hold | hnew
  · refine .inr (.inr ?_)
    by_cases htold : Told ph c.shared.quit
    · rw [hhistory.told htold, List.mem_range]
      omega
    · rwa [hhistory.untold htold, List.mem_range]
  · obtain rfl : i = c.shared.quit := by omega
    rcases hinv.directory d (.inr hwatch) with hd | hrestarting
    · exact .inl hd
    · exact .inr (.inl (hhistory.pending.mpr hrestarting))

theorem watches_directory_restarted : ∃ tr c, system.Path (setup .initial 0) tr c ∧
    (c.shared.locals 1).watch = .opened (some "/checkpoints") ∧
    c.shared.vars.checkpointDirectory = "/checkpoints" := by
  obtain ⟨tr, c, hpath, hstops, -, hpending, hwatch⟩ := exists_path_restarted
  rcases watches_directory hpath hwatch with hdirectory | hrestarting | hstopped
  · exact ⟨tr, c, hpath, hwatch, hdirectory.symm⟩
  · exact absurd hrestarting (by simp [hpending])
  · exact absurd hstopped (by simp [hstops])

end CheckpointRestore.Retention.Watcher
