import CheckpointRestore.Retention.CollectorSteps

namespace CheckpointRestore.Retention.Watcher

open Interaction

/-!
# Restarts of the collector — the invariant

What holds of the worker, the collectors and what they share, however their steps interleave.

* `Hand` — which collector has the channel in the variable `quit`, and how far its end has come;
* `Lock` — who holds the lock;
* `Inv` — both, with the stages of the collectors and the directory the newest one watches;
* `Inv.own`, `Inv.work` — a goroutine of one collector moves, or the worker does;
* `Inv.act`, `Inv.env` — every step keeps the invariant;
* `inv_of_path` — so every run has it.
-/

/-- How far the worker is with the collector of the variable's channel: between restarts that one
    was not told to stop, and within one the worker is told when it was. -/
def Current (s : Shared) (told : Prop) : Phase → Prop
  | .rest | .reading | .applying | .restarting =>
      s.collectors = s.quit + 1 ∧ s.chan s.quit = .idle ∧ ¬ told
  | .sending q => q = s.quit ∧ s.collectors = s.quit + 1 ∧
      (s.chan s.quit = .offered ∧ ¬ told ∨ s.chan s.quit = .taken ∧ told)
  | .sent => s.collectors = s.quit + 1 ∧ s.chan s.quit = .idle ∧ told
  | .renewed => s.collectors = s.quit ∧ s.chan s.quit = .idle
  | _ => False

/-- The channels: every collector has its own, the newest is in the variable, and all collectors
    before that one were told to stop. -/
structure Hand (s : Shared) (ph : PhaseMap) : Prop where
  channels : s.channels = s.quit + 1
  known : ∀ i, (ph (.collector i)).isSome ↔ i < s.collectors
  old : ∀ i, i < s.quit → Told ph i
  idle : ∀ q, q ≠ s.quit → s.chan q = .idle
  parked : ∀ i q, ph (.collector i) = some (.parked q) → q = i
  selecting : ∀ i q, ph (.events i) = some (.selecting q) → q = i
  current : ∃ ρ, ph .worker = some ρ ∧ Current s (Told ph s.quit) ρ

/-- The lock: it is locked while a collector holds it, and one does at most. -/
structure Lock (s : Shared) (ph : PhaseMap) : Prop where
  locked : s.locked = true ↔ ∃ i, Holds (ph (.collector i))
  alone : ∀ i j, Holds (ph (.collector i)) → Holds (ph (.collector j)) → i = j

/-- The phases of a worker that has applied another directory, up to the next channel. -/
def Restarting : Phase → Prop
  | .restarting | .sending _ | .sent => True
  | _ => False

instance : DecidablePred Restarting := fun ρ => by
  cases ρ <;> first | exact isTrue trivial | exact isFalse id

/-- The invariant of the collectors. -/
structure Inv (s : Shared) (ph : PhaseMap) : Prop where
  panicked : s.panicked = false
  fits : ∀ i, Fits (ph (.collector i)) (ph (.events i)) (s.locals i)
  lock : Lock s ph
  hand : Hand s ph
  directory : ∀ d, ph (.collector s.quit) = some (.configured d) ∨
    (s.locals s.quit).watch = .opened (some d) →
    d = s.vars.checkpointDirectory ∨ ∃ ρ, ph .worker = some ρ ∧ Restarting ρ

section Invariant
variable {s s' : Shared} {ph ph' : PhaseMap} {φ : Phase} {op : sig.Op}
  {r : sig.Reply op} {i : ℕ}

/-- At most one collector is newer than the channel. -/
theorem Current.collectors_le {told : Prop} {ρ : Phase} (h : Current s told ρ) :
    s.quit ≤ s.collectors ∧ s.collectors ≤ s.quit + 1 := by
  cases ρ <;> simp only [Current] at h <;> omega

theorem Current.congr {told told' : Prop} {ρ : Phase} (h : Current s told ρ)
    (hquit : s'.quit = s.quit) (hcollectors : s'.collectors = s.collectors)
    (hchan : s'.chan = s.chan) (htold : told' ↔ told) : Current s' told' ρ := by
  unfold Current at h ⊢
  rw [hquit, hcollectors, hchan, propext htold]
  exact h

theorem Hand.at {ρ : Phase} (h : Hand s ph) (hρ : ph .worker = some ρ) :
    Current s (Told ph s.quit) ρ := by
  obtain ⟨ρ', hρ', hcurrent⟩ := h.current
  rw [hρ] at hρ'
  cases hρ'
  exact hcurrent

/-- A value on a channel waits for the collector of the variable. -/
theorem Hand.offered (h : Hand s ph) (hchan : s.chan i = .offered) :
    i = s.quit ∧ ph .worker = some (.sending s.quit) ∧ s.collectors = s.quit + 1 ∧
      ¬ Told ph s.quit := by
  obtain rfl : i = s.quit := by
    by_contra hne
    exact absurd ((h.idle i hne).symm.trans hchan) (by simp)
  obtain ⟨ρ, hρ, hcurrent⟩ := h.current
  cases ρ <;> simp_all [Current]

/-- Only the newest collector has not been told to stop. -/
theorem Hand.newest (h : Hand s ph) (hi : (ph (.collector i)).isSome) (htold : ¬ Told ph i) :
    i = s.quit := by
  obtain ⟨ρ, -, hcurrent⟩ := h.current
  have hle := hcurrent.collectors_le.2
  have hlt := (h.known i).mp hi
  have hold : ¬ i < s.quit := fun hi => htold (h.old i hi)
  omega

/-- A collector that is not there was not told to stop. -/
theorem Inv.absent (h : Inv s ph) (hi : s.collectors ≤ i) :
    ph (.collector i) = none ∧ Fits none (ph (.events i)) (s.locals i) ∧ ¬ Told ph i := by
  have habsent : ph (.collector i) = none := by
    rw [← Option.not_isSome_iff_eq_none, h.hand.known]
    exact Nat.not_lt.mpr hi
  have hfits := h.fits i
  rw [habsent] at hfits
  refine ⟨habsent, hfits, fun htold => ?_⟩
  rw [Told, habsent, hfits.1] at htold
  exact htold.elim id id

/-- The same collectors hold the lock. -/
theorem Lock.congr (h : Lock s ph) (hlocked : s'.locked = s.locked)
    (hholds : ∀ j, Holds (ph' (.collector j)) ↔ Holds (ph (.collector j))) : Lock s' ph' := by
  refine ⟨?_, fun j k hj hk => h.alone j k ((hholds j).mp hj) ((hholds k).mp hk)⟩
  rw [hlocked, h.locked]
  exact exists_congr fun j => (hholds j).symm

/-- A step of a collector. -/
theorem Lock.collector (h : Lock s ph) (hi : ph (.collector i) = some φ)
    (hp : Permits (.collector i) φ op) (hact : act op s r s')
    (hi' : ph' (.collector i) = some (next φ ⟨op, r⟩))
    (hothers : ∀ j, j ≠ i → ph' (.collector j) = ph (.collector j)) :
    Lock s' ph' ∧ (s.panicked = false → s'.panicked = false) := by
  rcases collector_lock hp hact with ⟨hfree, hlocked, hpanicked, hholds⟩ |
    ⟨hlocked, hpanicked, hheld, hholds⟩ | ⟨hlocked, hpanicked, hholds⟩
  · -- the lock was free, so no other collector holds it
    have hnobody : ∀ j, ¬ Holds (ph (.collector j)) := fun j hj =>
      absurd (h.locked.mpr ⟨j, hj⟩) (by simp [hfree])
    have honly : ∀ j, Holds (ph' (.collector j)) → j = i := by
      intro j hj
      by_contra hne
      exact hnobody j (hothers j hne ▸ hj)
    refine ⟨⟨iff_of_true hlocked ⟨i, hi' ▸ hholds⟩, fun j k hj hk => ?_⟩, fun hp => hpanicked ▸ hp⟩
    rw [honly j hj, honly k hk]
  · -- the collector held the lock, and no other one did
    rw [← hi] at hheld
    have hnobody : ∀ j, ¬ Holds (ph' (.collector j)) := by
      intro j hj
      by_cases hji : j = i
      · rw [hji, hi'] at hj
        exact hholds hj
      · rw [hothers j hji] at hj
        exact hji (h.alone j i hj hheld)
    refine ⟨⟨iff_of_false (by simp [hlocked]) (fun ⟨j, hj⟩ => hnobody j hj), fun j _ hj => ?_⟩,
      fun hp => ?_⟩
    · exact absurd hj (hnobody j)
    · rw [hpanicked, hp, h.locked.mpr ⟨i, hheld⟩]
      rfl
  · have hall : ∀ j, Holds (ph' (.collector j)) ↔ Holds (ph (.collector j)) := by
      intro j
      by_cases hji : j = i
      · rw [hji, hi', hi]
        exact hholds
      · rw [hothers j hji]
    exact ⟨h.congr hlocked hall, fun hp => hpanicked ▸ hp⟩

/-- A goroutine over the channels that was not told to stop belongs to a collector that is not on
    its way out. -/
theorem Fits.stays {m : Option Phase} {ε : Phase} {l : Locals} (h : Fits m (some ε) l)
    (hε : ¬ Stops (some ε)) : m.isSome ∧ ¬ Leaves m := by
  rcases m with _ | φ
  · exact absurd h.1 (by simp)
  · refine ⟨rfl, fun hleaves => ?_⟩
    cases φ with
    | leaving watched | unlocked watched | ended watched =>
      cases watched with
      | false => exact absurd h.1 (by simp)
      | true =>
        cases h.1
        exact hε trivial
    | _ => exact hleaves

/-- **A goroutine of one collector moves.**  What is left to show is about this collector alone. -/
theorem Inv.own (h : Inv s ph) (hown : Own i s s') (hworker : ph' .worker = ph .worker)
    (hothers : ∀ j, j ≠ i → ph' (.collector j) = ph (.collector j) ∧
      ph' (.events j) = ph (.events j))
    (hpanicked : s'.panicked = false) (hlock : Lock s' ph')
    (hfits : Fits (ph' (.collector i)) (ph' (.events i)) (s'.locals i))
    (hknown : (ph' (.collector i)).isSome ↔ (ph (.collector i)).isSome)
    (htold : s.chan i = .offered ∧ s' = s.setChan i .taken ∧ Told ph' i ∨
      s'.chan = s.chan ∧ (Told ph' i ↔ Told ph i))
    (hparked : ∀ q, ph' (.collector i) = some (.parked q) → q = i)
    (hselecting : ∀ q, ph' (.events i) = some (.selecting q) → q = i)
    (hdirectory : ∀ d, ph' (.collector i) = some (.configured d) ∨
      (s'.locals i).watch = .opened (some d) → d = s.vars.checkpointDirectory ∨
      ph (.collector i) = some (.configured d) ∨ (s.locals i).watch = .opened (some d)) :
    Inv s' ph' := by
  have hall {P : ℕ → Prop} (hi : P i) (hj : ∀ j, j ≠ i → P j) (j : ℕ) : P j :=
    (eq_or_ne j i).elim (fun heq => heq ▸ hi) (hj j)
  have hsame : ∀ j, j ≠ i → (Told ph' j ↔ Told ph j) := fun j hj => by
    rw [Told, Told, (hothers j hj).1, (hothers j hj).2]
  have hcurrent : (∀ j, j < s.quit → Told ph' j) ∧ (∀ q, q ≠ s.quit → s'.chan q = .idle) ∧
      ∃ ρ, ph' .worker = some ρ ∧ Current s' (Told ph' s.quit) ρ := by
    rcases htold with ⟨hchan, rfl, htold⟩ | ⟨hchan, htold⟩
    · -- the value on the channel was for this collector, which is the newest
      obtain ⟨rfl, hρ, hcollectors, -⟩ := h.hand.offered hchan
      refine ⟨fun j hj => (hsame j (Nat.ne_of_lt hj)).mpr (h.hand.old j hj), fun q hq => ?_, _,
        hworker.trans hρ, rfl, hcollectors, .inr ⟨Function.update_self .., htold⟩⟩
      exact (Function.update_of_ne hq ..).trans (h.hand.idle q hq)
    · obtain ⟨ρ, hρ, hcurrent⟩ := h.hand.current
      have htold := hall htold hsame
      refine ⟨fun j hj => (htold j).mpr (h.hand.old j hj), fun q hq => ?_, ρ, hworker.trans hρ,
        hcurrent.congr hown.quit hown.collectors hchan (htold s.quit)⟩
      rw [hchan, h.hand.idle q hq]
  rw [← hown.quit] at hcurrent
  obtain ⟨hold, hidle, hcurrent⟩ := hcurrent
  refine ⟨hpanicked, hall hfits (fun j hj => ?_), hlock, ⟨?_, ?_, hold, hidle,
    hall hparked (fun j hj q hq => ?_), hall hselecting (fun j hj q hq => ?_), hcurrent⟩,
    fun d hd => ?_⟩
  · rw [(hothers j hj).1, (hothers j hj).2, hown.others j hj]
    exact h.fits j
  · rw [hown.channels, hown.quit, h.hand.channels]
  · rw [hown.collectors]
    refine hall (hknown.trans (h.hand.known i)) (fun j hj => ?_)
    rw [(hothers j hj).1, h.hand.known]
  · exact h.hand.parked j q ((hothers j hj).1 ▸ hq)
  · exact h.hand.selecting j q ((hothers j hj).2 ▸ hq)
  · rw [hown.vars, hworker]
    rw [hown.quit] at hd
    by_cases hi : s.quit = i
    · rw [hi] at hd
      exact (hdirectory d hd).elim .inl (fun hd => h.directory d (hi ▸ hd))
    · rw [(hothers _ hi).1, hown.others _ hi] at hd
      exact h.directory d hd

/-- A step of a collector. -/
theorem Inv.collector (h : Inv s ph) (hi : ph (.collector i) = some φ)
    (hp : Permits (.collector i) φ op) (hact : act op s r s') :
    Inv s' (after ph (.collector i) φ ⟨op, r⟩) := by
  obtain ⟨hself, hothers, hevents, hworker⟩ := after_collector (r := r) ph hp
  have hfits := h.fits i
  rw [hi] at hfits
  obtain ⟨hlock, hpanicked⟩ := h.lock.collector hi hp hact hself hothers
  refine h.own (collector_frame hp hact) hworker (fun j hj => ⟨hothers j hj, hevents j hj⟩)
    (hpanicked h.panicked) hlock ?_ ?_ ?_ (fun q hq => ?_) (fun q hq => ?_) (fun d hd => ?_)
  · rw [hself]
    exact fits_collector hp hact hfits
  · rw [hself, hi]
    exact .rfl
  · rw [Told, Told, hself, hi]
    obtain ⟨-, q, rfl, hchan, hs', hleaves⟩ | ⟨-, htold⟩ := collector_told hp hact hfits
    · obtain rfl := h.hand.parked i q hi
      exact .inl ⟨hchan, hs', .inl hleaves⟩
    · exact .inr htold
  · -- a collector that parks was not told to stop, so it has the channel of the variable
    rw [hself] at hq
    obtain ⟨rfl, rfl⟩ := collector_parked hp hact (Option.some.inj hq)
    refine (h.hand.newest (by rw [hi]; rfl) (fun htold => ?_)).symm
    rw [Told, hi, hfits.1] at htold
    exact htold.elim id id
  · by_cases hs : spawns ⟨op, r⟩ = some (.events i)
    · rw [after_spawned hs] at hq
      exact absurd hq (by simp [entry])
    · rw [after_of_ne (by simp) hs] at hq
      exact h.hand.selecting i q hq
  · rw [hself] at hd
    rw [hi]
    exact (collector_directory hp hact (hd.imp_left Option.some.inj)).imp_right
      (Or.imp_left (congrArg some))

/-- A step of its event loop. -/
theorem Inv.events (h : Inv s ph) (hi : ph (.events i) = some φ)
    (hp : Permits (.events i) φ op) (hact : act op s r s') :
    Inv s' (after ph (.events i) φ ⟨op, r⟩) := by
  obtain ⟨hself, hothers, hmain, hworker⟩ := after_events (r := r) ph hp
  have hfits := h.fits i
  rw [hi] at hfits
  obtain ⟨hattends, hopen⟩ := hfits.attends
  obtain ⟨hlocked, hpanicked, hwatch⟩ := events_lock hp hact hattends
  refine h.own (events_frame hp hact) hworker (fun j hj => ⟨hmain j, hothers j hj⟩)
    (hpanicked.trans h.panicked) (h.lock.congr hlocked (fun j => by rw [hmain])) ?_
    (by rw [hmain]) ?_ (fun q hq => h.hand.parked i q (hmain i ▸ hq)) (fun q hq => ?_)
    (fun d hd => ?_)
  · rw [hmain, hself]
    exact fits_events hp hact hfits
  · rw [Told, Told, hmain, hself, hi]
    obtain ⟨-, q, rfl, hchan, hs', hstops⟩ | ⟨-, hchan, htold⟩ := events_told hp hact hopen
    · obtain rfl := h.hand.selecting i q hi
      exact .inl ⟨hchan, hs', .inr hstops⟩
    · exact .inr ⟨hchan, or_congr_right htold⟩
  · -- the goroutine was not told to stop, so its collector has the channel of the variable
    rw [hself] at hq
    obtain ⟨rfl, rfl⟩ := events_selecting hp hact (Option.some.inj hq)
    obtain ⟨hsome, hstays⟩ := hfits.stays id
    refine (h.hand.newest hsome (fun htold => ?_)).symm
    rw [Told, hi] at htold
    exact htold.elim hstays id
  · rw [hmain, hwatch] at hd
    exact .inr hd

theorem told_congr (hmain : ∀ j, ph' (.collector j) = ph (.collector j))
    (hevents : ∀ j, ph' (.events j) = ph (.events j)) (j : ℕ) : Told ph' j ↔ Told ph j := by
  rw [Told, Told, hmain, hevents]

/-- The worker moves, and the collectors are the same: what they share changes in the variables, the
    channels and the counters they do not look at. -/
theorem Inv.work {ρ ρ' : Phase} {vars : Variables} {chan : ℕ → Chan} {fired immediates : ℕ}
    {now : ℤ} (h : Inv s ph) (hρ : ph .worker = some ρ)
    (hmain : ∀ j, ph' (.collector j) = ph (.collector j))
    (hevents : ∀ j, ph' (.events j) = ph (.events j)) (hworker : ph' .worker = some ρ')
    (hidle : ∀ q, q ≠ s.quit → chan q = s.chan q)
    (hcurrent : Current { s with chan } (Told ph s.quit) ρ')
    (hdirectory : Restarting ρ' ∨
      ¬ Restarting ρ ∧ vars.checkpointDirectory = s.vars.checkpointDirectory) :
    Inv { s with vars, chan, fired, immediates, now } ph' := by
  have htold := told_congr hmain hevents
  refine ⟨h.panicked, fun j => ?_, h.lock.congr rfl (fun j => by rw [hmain]), ⟨h.hand.channels,
    fun j => ?_, fun j hj => (htold j).mpr (h.hand.old j hj), fun q hq => ?_, fun j q hq => ?_,
    fun j q hq => ?_, ρ', hworker, hcurrent.congr rfl rfl rfl (htold s.quit)⟩, fun d hd => ?_⟩
  · rw [hmain, hevents]
    exact h.fits j
  · rw [hmain]
    exact h.hand.known j
  · exact (hidle q hq).trans (h.hand.idle q hq)
  · exact h.hand.parked j q (hmain j ▸ hq)
  · exact h.hand.selecting j q (hevents j ▸ hq)
  · rcases hdirectory with hρ' | ⟨hρ', hvars⟩
    · exact .inr ⟨ρ', hworker, hρ'⟩
    · rw [hmain] at hd
      rcases h.directory d hd with hd | ⟨ρ'', hρ'', hrestarting⟩
      · exact .inl (hd.trans hvars.symm)
      · rw [hρ] at hρ''
        cases hρ''
        exact absurd hrestarting hρ'

/-- Another channel is put in place: the collector of the last one was told to stop. -/
theorem Inv.renew (h : Inv s ph) (hρ : ph .worker = some .sent)
    (hmain : ∀ j, ph' (.collector j) = ph (.collector j))
    (hevents : ∀ j, ph' (.events j) = ph (.events j)) (hworker : ph' .worker = some .renewed) :
    Inv { s with quit := s.channels, channels := s.channels + 1 } ph' := by
  obtain ⟨hcollectors, hchan, hlast⟩ := h.hand.at hρ
  have hquit := h.hand.channels
  have htold := told_congr hmain hevents
  have hall : ∀ q, s.chan q = .idle := by
    intro q
    by_cases hq : q = s.quit
    · rw [hq, hchan]
    · exact h.hand.idle q hq
  obtain ⟨habsent, hfits, -⟩ := h.absent (hcollectors.trans hquit.symm).le
  refine ⟨h.panicked, fun j => ?_, h.lock.congr rfl (fun j => by rw [hmain]), ⟨rfl, fun j => ?_,
    fun j hj => ?_, fun q _ => hall q, fun j q hq => ?_, fun j q hq => ?_, .renewed, hworker,
    hcollectors.trans hquit.symm, hall _⟩, fun d hd => ?_⟩
  · rw [hmain, hevents]
    exact h.fits j
  · rw [hmain]
    exact h.hand.known j
  · rw [htold]
    have hj : j < s.channels := hj
    rcases Nat.lt_or_ge j s.quit with hlt | hge
    · exact h.hand.old j hlt
    · obtain rfl : j = s.quit := by omega
      exact hlast
  · exact h.hand.parked j q (hmain j ▸ hq)
  · exact h.hand.selecting j q (hevents j ▸ hq)
  · -- the collector of the new channel is not there yet
    rcases hd with hd | hd
    · rw [hmain, habsent] at hd
      exact absurd hd (by simp)
    · exact absurd (hfits.2.2.symm.trans hd) (by simp)

/-- The collector of the new channel is started. -/
theorem Inv.restart (h : Inv s ph) (hρ : ph .worker = some .renewed)
    (hnew : ph' (.collector s.collectors) = some .begin)
    (hmain : ∀ j, j ≠ s.collectors → ph' (.collector j) = ph (.collector j))
    (hevents : ∀ j, ph' (.events j) = ph (.events j)) (hworker : ph' .worker = some .rest) :
    Inv { s with collectors := s.collectors + 1 } ph' := by
  obtain ⟨hcollectors, hchan⟩ := h.hand.at hρ
  obtain ⟨habsent, hfits, -⟩ := h.absent le_rfl
  have hholds : ∀ j, Holds (ph' (.collector j)) ↔ Holds (ph (.collector j)) := by
    intro j
    by_cases hj : j = s.collectors
    · rw [hj, hnew, habsent]
      exact .rfl
    · rw [hmain j hj]
  have hnot : ¬ Told ph' s.quit := by
    rw [Told, hevents, ← hcollectors, hnew, hfits.1]
    exact fun htold => htold.elim id id
  refine ⟨h.panicked, fun j => ?_, h.lock.congr rfl hholds, ⟨h.hand.channels, fun j => ?_,
    fun j hj => ?_, h.hand.idle, fun j q hq => ?_, fun j q hq => ?_, .rest, hworker,
    congrArg (· + 1) hcollectors, hchan, hnot⟩, fun d hd => ?_⟩
  · rw [hevents]
    by_cases hj : j = s.collectors
    · rw [hj, hnew]
      exact hfits
    · rw [hmain j hj]
      exact h.fits j
  · by_cases hj : j = s.collectors
    · rw [hj, hnew]
      exact iff_of_true rfl (Nat.lt_succ_self _)
    · rw [hmain j hj, h.hand.known]
      show j < s.collectors ↔ j < s.collectors + 1
      omega
  · have hj : j < s.quit := hj
    have hold := h.hand.old j hj
    rwa [Told, ← hmain j (by omega), ← hevents] at hold
  · by_cases hj : j = s.collectors
    · rw [hj, hnew] at hq
      exact absurd hq (by simp)
    · exact h.hand.parked j q (hmain j hj ▸ hq)
  · exact h.hand.selecting j q (hevents j ▸ hq)
  · have hquit : s.quit = s.collectors := hcollectors.symm
    rcases hd with hd | hd
    · rw [show Shared.quit _ = s.collectors from hquit, hnew] at hd
      exact absurd hd (by simp)
    · have hwatch : (s.locals s.collectors).watch = .opened (some d) := hquit ▸ hd
      exact absurd (hfits.2.2.symm.trans hwatch) (by simp)

/-- A spec that does not move the directory keeps it. -/
theorem applyPolicySpec_keeps {spec : CheckpointRestoreOperatorSpec} {vars : Variables}
    (h : (applyPolicySpec spec vars).restartGarbageCollector = false) :
    (applyPolicySpec spec vars).vars.checkpointDirectory = vars.checkpointDirectory := by
  unfold applyPolicySpec at h ⊢
  dsimp only at h ⊢
  split at h
  · exact absurd h (by simp)
  · rename_i hsame
    rw [if_neg hsame]
    rfl

/-- A step of the reconciler. -/
theorem Inv.worker (h : Inv s ph) (hρ : ph .worker = some φ) (hp : Permits .worker φ op)
    (hact : act op s r s') : Inv s' (after ph .worker φ ⟨op, r⟩) := by
  obtain ⟨hguard, rfl⟩ := hact
  have hcurrent := h.hand.at hρ
  by_cases hφ : φ = .renewed
  · subst hφ
    cases hp
    obtain rfl : r = _ := hguard
    obtain ⟨hself, hnew, hmain, hevents⟩ := after_goCollector ph s.collectors
    exact h.restart hρ hnew hmain hevents hself
  obtain ⟨hself, hmain, hevents⟩ := after_worker (r := r) ph hp hφ
  cases hp with
  | dequeue | goImmediately =>
    exact h.work hρ hmain hevents hself (fun _ _ => rfl) hcurrent (.inr ⟨id, rfl⟩)
  | get =>
    refine h.work hρ hmain hevents hself (fun _ _ => rfl) ?_ (.inr ⟨id, rfl⟩)
    rcases (r : ApiReply Input) with _ | _ | _ <;> exact hcurrent
  | applySpec spec =>
    obtain rfl : r = _ := hguard
    refine h.work hρ hmain hevents hself (fun _ _ => rfl) ?_ ?_
    all_goals
      generalize hr : (applyPolicySpec spec s.vars).restartGarbageCollector = restart
      rcases restart with _ | _
    · exact hcurrent
    · exact hcurrent
    · exact .inr ⟨id, applyPolicySpec_keeps hr⟩
    · exact .inl trivial
  | offer =>
    obtain ⟨rfl, -⟩ := hguard
    obtain ⟨hcollectors, -, htold⟩ := hcurrent
    exact h.work hρ hmain hevents hself (fun q hq => Function.update_of_ne hq ..)
      ⟨rfl, hcollectors, .inl ⟨Function.update_self .., htold⟩⟩ (.inl trivial)
  | taken q =>
    obtain ⟨rfl, hcollectors, ⟨hoffered, -⟩ | ⟨-, htold⟩⟩ := hcurrent
    · exact absurd (hoffered.symm.trans hguard) (by simp)
    · exact h.work hρ hmain hevents hself (fun q hq => Function.update_of_ne hq ..)
        ⟨hcollectors, Function.update_self .., htold⟩ (.inl trivial)
  | makeQuit => exact h.renew hρ hmain hevents hself
  | goCollector => exact absurd rfl hφ

/-- The phases of goroutines beside the collectors change, or a counter. -/
theorem Inv.beside {fired : ℕ} {now : ℤ} (h : Inv s ph) (hworker : ph' .worker = ph .worker)
    (hmain : ∀ j, ph' (.collector j) = ph (.collector j))
    (hevents : ∀ j, ph' (.events j) = ph (.events j)) : Inv { s with fired, now } ph' := by
  obtain ⟨ρ, hρ, hcurrent⟩ := h.hand.current
  refine h.work hρ hmain hevents (hworker.trans hρ) (fun _ _ => rfl) hcurrent ?_
  by_cases hrestarting : Restarting ρ
  · exact .inl hrestarting
  · exact .inr ⟨hrestarting, rfl⟩

/-- A timer that is there belongs to a goroutine that has not stopped the timers. -/
theorem Fits.timer {m e : Option Phase} {l : Locals} {path : String} {t : Option ℤ}
    (h : Fits m e l) (ht : l.timers path = some t) :
    (∃ d, l.watch = .opened d) ∧ ∀ timers, Fits m e { l with timers } := by
  have hsome : l.timers ≠ fun _ => none := fun hnone => by simp [hnone] at ht
  rcases e with _ | ε
  · exact absurd h.unattended.2 hsome
  · obtain ⟨hattends, hopen⟩ := h.attends
    have hε : ε ≠ .stopped := by
      rintro rfl
      exact hsome hattends.2.2
    refine ⟨hopen hε, fun timers => h.attend hε rfl ?_⟩
    cases ε with
    | finishing | stopped => exact absurd hattends.2.2 hsome
    | _ => exact hattends

/-- A timer fires. -/
theorem Inv.fire {path : String} {t : Option ℤ} (h : Inv s ph)
    (ht : (s.locals i).timers path = some t) : Inv (s.setTimer i path none) ph := by
  refine h.own ⟨rfl, rfl, rfl, rfl, fun _ hj => Function.update_of_ne hj ..⟩ rfl
    (fun _ _ => ⟨rfl, rfl⟩) h.panicked (h.lock.congr rfl (fun _ => .rfl)) ?_ .rfl (.inr ⟨rfl, .rfl⟩)
    (h.hand.parked i) (h.hand.selecting i) (fun d hd => .inr ?_)
  · rw [Shared.setTimer, modify_self]
    exact ((h.fits i).timer ht).2 _
  · rwa [Shared.setTimer, modify_self] at hd

/-- The goroutines beside the worker, the collectors and those over their channels. -/
def Task.Aside : Task → Prop
  | .worker | .collector _ | .events _ => False
  | _ => True

/-- They change nothing that is shared, and start only each other. -/
theorem aside_frame {t : Task} (ht : t.Aside) (hp : Permits t φ op) (hact : act op s r s') :
    s' = s ∧ ∀ u, spawns ⟨op, r⟩ = some u → u.Aside := by
  obtain ⟨-, rfl⟩ := hact
  cases hp with
  | goInformer i =>
    refine ⟨rfl, fun u hu => ?_⟩
    obtain rfl := Option.some.inj hu
    trivial
  | podsDone | notice | write | kubernetesClient | applyPolicies | applyPoliciesImmediately =>
    exact ⟨rfl, by simp [spawns]⟩
  | _ => exact ht.elim

/-- **A step of any goroutine keeps the invariant.** -/
theorem Inv.act {t : Task} (h : Inv s ph) (ht : ph t = some φ) (hp : Permits t φ op)
    (hact : act op s r s') : Inv s' (after ph t φ ⟨op, r⟩) := by
  cases t with
  | worker => exact h.worker ht hp hact
  | collector i => exact h.collector ht hp hact
  | events i => exact h.events ht hp hact
  | podWatcher i | informer i | handler i path n | immediately n policies =>
    obtain ⟨rfl, hspawns⟩ := aside_frame (by trivial) hp hact
    refine h.beside ?_ (fun j => ?_) (fun j => ?_)
    all_goals exact after_of_ne (by simp) (fun hu => hspawns _ hu)

/-- What happens by itself keeps the invariant. -/
theorem Inv.env {t : Option Task} (h : Inv s ph) (hs : Happens s t s') :
    Inv s' (started entry t ph) := by
  cases hs with
  | tick => exact h.beside rfl (fun _ => rfl) (fun _ => rfl)
  | fire htimer =>
    exact (h.fire htimer).beside (started_of_ne (by simp)) (fun _ => started_of_ne (by simp))
      (fun _ => started_of_ne (by simp))

end Invariant

/-! ### Runs -/

/-- The phases after `SetupWithManager`. -/
def setupPhases : PhaseMap :=
  started entry (some .worker) (started entry (some (.collector 0)) (fun _ => none))

theorem tracks_setup (vars : Variables) (now : ℤ) :
    phases.Tracks (setup vars now).run setupPhases := by
  have hnone : phases.Tracks (fun _ => none) (fun _ => none) := fun _ => .none
  exact (hnone.start (G := system) phases_followed (some (.collector 0))).start (G := system)
    phases_followed (some .worker)

theorem setupPhases_events (i : ℕ) : setupPhases (.events i) = none := by
  rw [setupPhases, started_of_ne (by simp), started_of_ne (by simp)]

/-- The invariant holds after the setup. -/
theorem inv_setup (vars : Variables) (now : ℤ) : Inv (setup vars now).shared setupPhases := by
  -- before the first collector all is as within a restart, with the channel in place
  have hbefore : Inv { (setup vars now).shared with collectors := 0 }
      (fun t => match t with | .worker => some .renewed | _ => none) := by
    refine ⟨rfl, fun _ => ⟨rfl, ⟨rfl, rfl⟩, rfl⟩,
      ⟨iff_of_false Bool.false_ne_true (fun ⟨_, hholds⟩ => hholds), fun _ _ hholds => hholds.elim⟩,
      ⟨rfl, fun i => iff_of_false Bool.false_ne_true (Nat.not_lt_zero i),
        fun i hi => absurd hi (Nat.not_lt_zero i), fun _ _ => rfl, by simp, by simp, _, rfl, rfl,
        rfl⟩, fun d hd => ?_⟩
    exact absurd hd (by simp [setup, Locals.initial])
  refine hbefore.restart rfl ?_ (fun j hj => ?_) setupPhases_events (started_self ..)
  · exact (started_of_ne (by simp)).trans (started_self ..)
  · exact (started_of_ne (by simp)).trans (started_of_ne (by simpa using Ne.symm hj))

variable {vars : Variables} {now : ℤ} {c : World} {tr : Trace}

/-- **The invariant.**  It holds along every run of the operator. -/
theorem inv_of_path (h : system.Path (setup vars now) tr c) :
    ∃ ph, phases.Tracks c.run ph ∧ Inv c.shared ph :=
  h.tracked phases_followed (I := fun _ s ph => Inv s ph) (tracks_setup vars now)
    (inv_setup vars now)
    (fun _ _ _ _ _ _ _ _ hinv ht hp hact => hinv.act ht hp hact)
    (fun _ _ _ _ hinv => hinv)
    (fun _ _ _ _ _ hinv hs => hinv.env hs)

end CheckpointRestore.Retention.Watcher
