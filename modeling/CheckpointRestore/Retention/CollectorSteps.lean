import CheckpointRestore.Retention.Watcher

namespace CheckpointRestore.Retention.Watcher

open Interaction

/-!
# Steps of the collectors

What one step of the worker, of a collector or of the goroutine over its channels does, each said
once.

* `Fits` — how a collector, the goroutine over its channels and its variables go together;
* `Holds`, `Told` — the collectors that hold the lock, and those that were told to stop;
* `fits_collector`, `fits_events` — steps keep this;
* `collector_lock`, `collector_told`, `events_told`, `collector_directory` — when the lock, the
  channel in the variable `quit` and the watched directory change;
* `spawns_worker`, `spawns_collector`, `spawns_events` — which goroutines a step starts.
-/

/-- The configurations of the operator. -/
abbrev World := Config sig Task Shared

/-- The histories of the operator. -/
abbrev Trace := Interaction.Trace sig Task Shared

/-- The phases of all goroutines that were started. -/
abbrev PhaseMap := Task → Option Phase

/-- The phases after a step. -/
def after (ph : PhaseMap) (t : Task) (φ : Phase) (e : Event sig) : PhaseMap :=
  started entry (spawns e) (Function.update ph t (some (next φ e)))

section After
variable {ph : PhaseMap} {t u : Task} {φ : Phase} {e : Event sig}

theorem after_self (h : spawns e ≠ some t) : after ph t φ e t = some (next φ e) := by
  rw [after, started_of_ne h, Function.update_self]

theorem after_of_ne (hu : u ≠ t) (h : spawns e ≠ some u) : after ph t φ e u = ph u := by
  rw [after, started_of_ne h, Function.update_of_ne hu]

theorem after_spawned (h : spawns e = some u) : after ph t φ e u = some (entry u) := by
  rw [after, h, started_self]

end After

/-! ### A collector and its goroutine -/

/-- The goroutine over the channels, and the variables it shares with its collector. -/
def Attends : Phase → Locals → Prop
  | .head, l | .selecting _, l | .looking _, l | .creating _, l | .arming _, l
  | .cancelling, l => l.done = false
  | .stopping, l => l.done = false ∧ l.cancelled = true
  | .finishing, l => l.done = false ∧ l.cancelled = true ∧ l.timers = fun _ => none
  | .stopped, l => l.done = true ∧ l.cancelled = true ∧ l.timers = fun _ => none
  | _, _ => False

/-- The variables of a collector without the goroutine. -/
def Unattended (l : Locals) : Prop := l.done = false ∧ l.timers = fun _ => none

/-- The stages of a collector: it has no watcher, has opened it, is about to add the directory,
    waits, is about to close the watcher, or has closed it. -/
inductive Stage where
  | idle
  | opening
  | adding
  | watching
  | closing
  | over

/-- The stage of a phase; the phases of other goroutines have none. -/
def stage : Option Phase → Option Stage
  | none | some .begin | some .locked | some .parking | some (.parked _) | some (.leaving false)
  | some (.unlocked false) | some (.ended false) => some .idle
  | some .opened | some .podsStarted => some .opening
  | some .eventsStarted | some (.configured _) => some .adding
  | some .waiting => some .watching
  | some .closing => some .closing
  | some (.leaving true) | some (.unlocked true) | some (.ended true) => some .over
  | _ => none

/-- A collector, the goroutine over its channels, and the variables of both. -/
def Fits (m e : Option Phase) (l : Locals) : Prop :=
  match stage m with
  | some .idle => e = none ∧ Unattended l ∧ l.watch = .absent
  | some .opening => e = none ∧ Unattended l ∧ l.watch = .opened none
  | some .adding => (∃ ε, e = some ε ∧ Attends ε l) ∧ l.watch = .opened none
  | some .watching => (∃ ε, e = some ε ∧ Attends ε l) ∧ ∃ d, l.watch = .opened d
  | some .closing => e = some .stopped ∧ Attends .stopped l ∧ ∃ d, l.watch = .opened d
  | some .over => e = some .stopped ∧ Attends .stopped l ∧ l.watch = .closed
  | none => False

/-- The phases of a collector that holds the lock. -/
def Holds : Option Phase → Prop
  | some .locked | some .parking | some (.parked _) | some .opened | some .podsStarted
  | some .eventsStarted | some (.configured _) | some .waiting | some .closing
  | some (.leaving _) => True
  | _ => False

/-- A collector on its way out. -/
def Leaves : Option Phase → Prop
  | some (.leaving _) | some (.unlocked _) | some (.ended _) => True
  | _ => False

/-- A goroutine over the channels that was told to stop. -/
def Stops : Option Phase → Prop
  | some .cancelling | some .stopping | some .finishing | some .stopped => True
  | _ => False

/-- A collector that was told to stop. -/
def Told (ph : PhaseMap) (i : ℕ) : Prop :=
  Leaves (ph (.collector i)) ∨ Stops (ph (.events i))

variable {m : Option Phase} {ε : Phase} {l : Locals}

/-- A goroutine over the channels that has not stopped has an open watcher. -/
theorem Fits.attends (h : Fits m (some ε) l) :
    Attends ε l ∧ (ε ≠ .stopped → ∃ d, l.watch = .opened d) := by
  unfold Fits at h
  split at h
  · exact absurd h.1 (by simp)
  · exact absurd h.1 (by simp)
  · obtain ⟨⟨ε', hε, hattends⟩, hwatch⟩ := h
    cases hε
    exact ⟨hattends, fun _ => ⟨none, hwatch⟩⟩
  · obtain ⟨⟨ε', hε, hattends⟩, hwatch⟩ := h
    cases hε
    exact ⟨hattends, fun _ => hwatch⟩
  · obtain ⟨hε, hattends, -⟩ := h
    cases hε
    exact ⟨hattends, fun hne => absurd rfl hne⟩
  · obtain ⟨hε, hattends, -⟩ := h
    cases hε
    exact ⟨hattends, fun hne => absurd rfl hne⟩
  · exact h.elim

/-- A collector without the goroutine. -/
theorem Fits.unattended (h : Fits m none l) : Unattended l := by
  unfold Fits at h
  split at h
  · exact h.2.1
  · exact h.2.1
  · obtain ⟨⟨ε, hε, -⟩, -⟩ := h
    exact absurd hε (by simp)
  · obtain ⟨⟨ε, hε, -⟩, -⟩ := h
    exact absurd hε (by simp)
  · exact absurd h.1 (by simp)
  · exact absurd h.1 (by simp)
  · exact h.elim

/-- The goroutine moves on. -/
theorem Fits.attend {ε' : Phase} {l' : Locals} (h : Fits m (some ε) l) (hε : ε ≠ .stopped)
    (hwatch : l'.watch = l.watch) (hattends : Attends ε' l') : Fits m (some ε') l' := by
  unfold Fits at h ⊢
  split at h
  · exact absurd h.1 (by simp)
  · exact absurd h.1 (by simp)
  · exact ⟨⟨ε', rfl, hattends⟩, hwatch.trans h.2⟩
  · exact ⟨⟨ε', rfl, hattends⟩, hwatch ▸ h.2⟩
  · exact absurd (Option.some.inj h.1) hε
  · exact absurd (Option.some.inj h.1) hε
  · exact h.elim

/-- The context is cancelled as well. -/
theorem Attends.cancel (h : Attends ε l) : Attends ε { l with cancelled := true } := by
  unfold Attends at h ⊢
  split at h
  all_goals first
    | exact h
    | exact ⟨h.1, rfl⟩
    | exact ⟨h.1, rfl, h.2.2⟩

/-- Only the goroutine that has stopped leaves the channel closed. -/
theorem Attends.stopped (h : Attends ε l) (hdone : l.done = true) : ε = .stopped := by
  cases ε <;> simp_all [Attends]

section Steps
variable {s s' : Shared} {ph : PhaseMap} {φ : Phase} {op : sig.Op} {r : sig.Reply op}
  {i : ℕ}

theorem modify_self (f : Locals → Locals) : (s.modify i f).locals i = f (s.locals i) :=
  Function.update_self ..

theorem modify_of_ne {j : ℕ} (hj : j ≠ i) (f : Locals → Locals) :
    (s.modify i f).locals j = s.locals j :=
  Function.update_of_ne hj ..

theorem setTimer_self (path : String) (t : Option ℤ) :
    ((s.setTimer i path t).locals i).timers path = some t := by
  rw [Shared.setTimer, modify_self]
  exact Function.update_self ..

theorem setTimer_of_ne {p path : String} (hp : p ≠ path) (t : Option ℤ) :
    ((s.setTimer i path t).locals i).timers p = (s.locals i).timers p := by
  rw [Shared.setTimer, modify_self]
  exact Function.update_of_ne hp ..

/-- A step of a collector. -/
theorem fits_collector (hp : Permits (.collector i) φ op) (hact : act op s r s')
    (h : Fits (some φ) (ph (.events i)) (s.locals i)) :
    Fits (some (next φ ⟨op, r⟩)) (after ph (.collector i) φ ⟨op, r⟩ (.events i)) (s'.locals i) := by
  obtain ⟨hguard, rfl⟩ := hact
  cases hp with
  | newWatcher =>
    rcases (r : Option String) with _ | err
    · rw [effect, modify_self]
      exact ⟨h.1, h.2.1, rfl⟩
    · exact h
  | goEvents => exact ⟨⟨.head, after_spawned rfl, h.2.1.1⟩, h.2.2⟩
  | add _ directory =>
    obtain ⟨ε, hε, hattends⟩ := h.1
    rcases (r : Option String) with _ | err
    · rw [effect, modify_self]
      refine ⟨⟨ε, hε, ?_⟩, some directory, rfl⟩
      cases ε <;> exact hattends
    · exact ⟨h.1, none, h.2⟩
  | waitDone =>
    obtain ⟨⟨ε, hε, hattends⟩, hwatch⟩ := h
    obtain rfl := hattends.stopped hguard
    exact ⟨hε, hattends, hwatch⟩
  | closeWatcher =>
    rw [effect, modify_self]
    exact ⟨h.1, h.2.1, rfl⟩
  | unlock _ watched => cases watched <;> exact h
  | cancel _ watched =>
    rw [effect, modify_self]
    cases watched with
    | false => exact h
    | true => exact ⟨h.1, h.2.1.cancel, h.2.2⟩
  | _ => exact h

/-- A step of the goroutine over the channels. -/
theorem fits_events (hp : Permits (.events i) φ op) (hact : act op s r s')
    (h : Fits m (some φ) (s.locals i)) : Fits m (some (next φ ⟨op, r⟩)) (s'.locals i) := by
  obtain ⟨hattends, -⟩ := h.attends
  obtain ⟨hguard, rfl⟩ := hact
  cases hp with
  | readQuit => exact h.attend (by simp) rfl hattends
  | select _ q =>
    rcases (r : Received) with _ | (_ | event) | (_ | err)
    case event.some =>
      refine h.attend (by simp) rfl ?_
      show Attends (if arms event then _ else _) _
      split_ifs <;> exact hattends
    all_goals exact h.attend (by simp) rfl hattends
  | lookupTimer => cases (r : Bool) <;> exact h.attend (by simp) rfl hattends
  | newTimer | reset =>
    rw [effect, Shared.setTimer, modify_self]
    exact h.attend (by simp) rfl hattends
  | stopContext =>
    rw [effect, modify_self]
    exact h.attend (by simp) rfl ⟨hattends, rfl⟩
  | stopTimers =>
    rw [effect, modify_self]
    exact h.attend (by simp) rfl ⟨hattends.1, hattends.2, rfl⟩
  | closeDone =>
    rw [effect, modify_self]
    exact h.attend (by simp) rfl ⟨rfl, hattends.2.1, hattends.2.2⟩

/-! ### What a step leaves alone -/

/-- The worker does not touch the collectors' variables. -/
theorem worker_frame (hp : Permits .worker φ op) (hact : act op s r s') :
    s'.locals = s.locals ∧ s'.locked = s.locked ∧ s'.panicked = s.panicked := by
  obtain ⟨-, rfl⟩ := hact
  cases hp <;> exact ⟨rfl, rfl, rfl⟩

/-- A step of a collector or of its goroutine: the variables of the others stay. -/
structure Own (i : ℕ) (s s' : Shared) : Prop where
  vars : s'.vars = s.vars
  quit : s'.quit = s.quit
  channels : s'.channels = s.channels
  collectors : s'.collectors = s.collectors
  others : ∀ j, j ≠ i → s'.locals j = s.locals j

theorem collector_frame (hp : Permits (.collector i) φ op) (hact : act op s r s') :
    Own i s s' := by
  obtain ⟨-, rfl⟩ := hact
  cases hp with
  | newWatcher | add =>
    rcases (r : Option String) with _ | err
    · exact ⟨rfl, rfl, rfl, rfl, fun _ hj => Function.update_of_ne hj ..⟩
    · exact ⟨rfl, rfl, rfl, rfl, fun _ _ => rfl⟩
  | closeWatcher | cancel =>
    exact ⟨rfl, rfl, rfl, rfl, fun _ hj => Function.update_of_ne hj ..⟩
  | _ => exact ⟨rfl, rfl, rfl, rfl, fun _ _ => rfl⟩

/-- A collector does not touch its timers, and its watcher does not go away. -/
theorem collector_keeps (hp : Permits (.collector i) φ op) (hact : act op s r s') (j : ℕ) :
    (s'.locals j).timers = (s.locals j).timers ∧
      ((s.locals j).watch ≠ .absent → (s'.locals j).watch ≠ .absent) := by
  by_cases hj : j = i
  · subst hj
    obtain ⟨-, rfl⟩ := hact
    cases hp with
    | newWatcher | add =>
      rcases (r : Option String) with _ | err
      · simp [effect, modify_self]
      · exact ⟨rfl, id⟩
    | closeWatcher | cancel => simp [effect, modify_self]
    | _ => exact ⟨rfl, id⟩
  · rw [(collector_frame hp hact).others j hj]
    exact ⟨rfl, id⟩

theorem events_frame (hp : Permits (.events i) φ op) (hact : act op s r s') : Own i s s' := by
  obtain ⟨-, rfl⟩ := hact
  cases hp with
  | newTimer | reset | stopContext | stopTimers | closeDone =>
    exact ⟨rfl, rfl, rfl, rfl, fun _ hj => Function.update_of_ne hj ..⟩
  | select =>
    rcases (r : Received) with _ | (_ | event) | (_ | err)
    all_goals exact ⟨rfl, rfl, rfl, rfl, fun _ _ => rfl⟩
  | _ => exact ⟨rfl, rfl, rfl, rfl, fun _ _ => rfl⟩

/-- A step of the goroutine over the channels leaves the lock and the watcher alone. -/
theorem events_lock (hp : Permits (.events i) φ op) (hact : act op s r s')
    (h : Attends φ (s.locals i)) :
    s'.locked = s.locked ∧ s'.panicked = s.panicked ∧
      (s'.locals i).watch = (s.locals i).watch := by
  obtain ⟨-, rfl⟩ := hact
  cases hp with
  | newTimer | reset | stopContext | stopTimers =>
    exact ⟨rfl, rfl, by simp [effect, Shared.setTimer, modify_self]⟩
  | closeDone =>
    refine ⟨rfl, ?_, by simp [effect, modify_self]⟩
    show (s.panicked || (s.locals i).done) = s.panicked
    rw [h.1, Bool.or_false]
  | select =>
    rcases (r : Received) with _ | (_ | event) | (_ | err)
    all_goals exact ⟨rfl, rfl, rfl⟩
  | _ => exact ⟨rfl, rfl, rfl⟩

/-- A step of a collector takes the lock when it is free, gives it back, or leaves it. -/
theorem collector_lock (hp : Permits (.collector i) φ op) (hact : act op s r s') :
    (s.locked = false ∧ s'.locked = true ∧ s'.panicked = s.panicked ∧
      Holds (some (next φ ⟨op, r⟩))) ∨
    (s'.locked = false ∧ s'.panicked = (s.panicked || !s.locked) ∧ Holds (some φ) ∧
      ¬ Holds (some (next φ ⟨op, r⟩))) ∨
    (s'.locked = s.locked ∧ s'.panicked = s.panicked ∧
      (Holds (some (next φ ⟨op, r⟩)) ↔ Holds (some φ))) := by
  obtain ⟨hguard, rfl⟩ := hact
  cases hp with
  | lock => exact .inl ⟨hguard, rfl, rfl, trivial⟩
  | unlock => exact .inr (.inl ⟨rfl, rfl, trivial, id⟩)
  | newWatcher | add =>
    rcases (r : Option String) with _ | err
    all_goals exact .inr (.inr ⟨rfl, rfl, .rfl⟩)
  | _ => exact .inr (.inr ⟨rfl, rfl, .rfl⟩)

/-! ### Telling a collector to stop -/

/-- The collector that a move tells to stop. -/
def stopOf : Move sig Task → Option ℕ
  | .act (.collector i) ⟨.receive _, _⟩ => some i
  | .act (.events i) ⟨.select _ _, .quit⟩ => some i
  | _ => none

/-- A step of a collector: without a watcher it can be told to stop; otherwise it stays as told as
    it was. -/
theorem collector_told (hp : Permits (.collector i) φ op) (hact : act op s r s')
    (h : Fits (some φ) (ph (.events i)) (s.locals i)) :
    (stopOf (.act (.collector i) ⟨op, r⟩) = some i ∧ ∃ q, φ = .parked q ∧ s.chan q = .offered ∧
      s' = s.setChan q .taken ∧ Leaves (some (next φ ⟨op, r⟩))) ∨
    (stopOf (.act (.collector i) ⟨op, r⟩) = none ∧ s'.chan = s.chan ∧
      (Leaves (some (next φ ⟨op, r⟩)) ∨
        Stops (after ph (.collector i) φ ⟨op, r⟩ (.events i)) ↔
          Leaves (some φ) ∨ Stops (ph (.events i)))) := by
  obtain ⟨hguard, rfl⟩ := hact
  cases hp with
  | receive _ q => exact .inl ⟨rfl, q, rfl, hguard, rfl, trivial⟩
  | goEvents =>
    refine .inr ⟨rfl, rfl, ?_⟩
    rw [after_spawned rfl, h.1]
    exact .rfl
  | closeWatcher =>
    have hstops : Stops (ph (.events i)) := by
      rw [h.1]
      trivial
    exact .inr ⟨rfl, rfl, iff_of_true (.inl trivial) (.inr hstops)⟩
  | newWatcher | add =>
    rcases (r : Option String) with _ | err
    all_goals exact .inr ⟨rfl, rfl, .rfl⟩
  | _ => exact .inr ⟨rfl, rfl, .rfl⟩

/-- A step of the goroutine over the channels: it can be told to stop through the channel it selects
    on, and in no other way. -/
theorem events_told (hp : Permits (.events i) φ op) (hact : act op s r s')
    (hopen : φ ≠ .stopped → ∃ d, (s.locals i).watch = .opened d) :
    (stopOf (.act (.events i) ⟨op, r⟩) = some i ∧ ∃ q, φ = .selecting q ∧ s.chan q = .offered ∧
      s' = s.setChan q .taken ∧ Stops (some (next φ ⟨op, r⟩))) ∨
    (stopOf (.act (.events i) ⟨op, r⟩) = none ∧ s'.chan = s.chan ∧
      (Stops (some (next φ ⟨op, r⟩)) ↔ Stops (some φ))) := by
  obtain ⟨hguard, rfl⟩ := hact
  cases hp with
  | select _ q =>
    obtain ⟨d, hwatch⟩ := hopen (by simp)
    rcases (r : Received) with _ | (_ | event) | (_ | err)
    · exact .inl ⟨rfl, q, rfl, hguard, rfl, trivial⟩
    · exact absurd (hwatch.symm.trans hguard) (by simp)
    · refine .inr ⟨rfl, rfl, ?_⟩
      show Stops (some (if arms event then _ else _)) ↔ _
      split_ifs <;> exact .rfl
    · exact absurd (hwatch.symm.trans hguard) (by simp)
    · exact .inr ⟨rfl, rfl, .rfl⟩
  | lookupTimer => cases (r : Bool) <;> exact .inr ⟨rfl, rfl, .rfl⟩
  | _ => exact .inr ⟨rfl, rfl, .rfl⟩

/-- The channel that a goroutine is about to receive from is the one in the variable. -/
theorem collector_parked {q : ℕ} (hp : Permits (.collector i) φ op) (hact : act op s r s')
    (h : next φ ⟨op, r⟩ = .parked q) : φ = .parking ∧ q = s.quit := by
  cases hp with
  | park => exact ⟨rfl, (Phase.parked.inj h).symm.trans hact.1⟩
  | newWatcher =>
    rcases (r : Option String) with _ | err
    all_goals exact absurd h (by simp [next])
  | _ => exact absurd h (by simp [next])

theorem events_selecting {q : ℕ} (hp : Permits (.events i) φ op) (hact : act op s r s')
    (h : next φ ⟨op, r⟩ = .selecting q) : φ = .head ∧ q = s.quit := by
  cases hp with
  | readQuit => exact ⟨rfl, (Phase.selecting.inj h).symm.trans hact.1⟩
  | select =>
    rcases (r : Received) with _ | (_ | event) | (_ | err)
    case event.some =>
      have harms : (if arms event then Phase.looking event.name else .head) = .selecting q := h
      split_ifs at harms
    all_goals exact absurd h (by simp [next])
  | lookupTimer => cases (r : Bool) <;> exact absurd h (by simp [next])
  | _ => exact absurd h (by simp [next])

/-- The directory of a collector comes from the variable, through the watcher. -/
theorem collector_directory {d : String} (hp : Permits (.collector i) φ op) (hact : act op s r s')
    (h : next φ ⟨op, r⟩ = .configured d ∨ (s'.locals i).watch = .opened (some d)) :
    d = s.vars.checkpointDirectory ∨ φ = .configured d ∨
      (s.locals i).watch = .opened (some d) := by
  obtain ⟨hguard, rfl⟩ := hact
  cases hp with
  | snapshot =>
    obtain rfl : r = _ := hguard
    exact h.imp (fun hnext => (Phase.configured.inj hnext).symm) .inr
  | newWatcher =>
    rcases (r : Option String) with _ | err
    · exact absurd h (by simp [next, effect, modify_self])
    · exact .inr (.inr (h.resolve_left (by simp [next])))
  | add _ directory =>
    rcases (r : Option String) with _ | err
    · have hwatch := h.resolve_left (by simp [next])
      rw [effect, modify_self] at hwatch
      exact .inr (.inl (congrArg _ (Option.some.inj (Watch.opened.inj hwatch))))
    · exact .inr (.inr (h.resolve_left (by simp [next])))
  | closeWatcher => exact absurd h (by simp [next, effect, modify_self])
  | cancel =>
    have hwatch := h.resolve_left (by simp [next])
    rw [effect, modify_self] at hwatch
    exact .inr (.inr hwatch)
  | _ => exact .inr (.inr (h.resolve_left (by simp [next])))

/-! ### What a step starts -/

theorem spawns_worker {u : Task} (hp : Permits .worker φ op) (h : spawns ⟨op, r⟩ = some u) :
    (∃ n policies, u = .immediately n policies) ∨ φ = .renewed := by
  cases hp with
  | goCollector => exact .inr rfl
  | goImmediately policies => exact .inl ⟨r, policies, (Option.some.inj h).symm⟩
  | _ => exact absurd h (by simp [spawns])

theorem spawns_collector {u : Task} (hp : Permits (.collector i) φ op)
    (h : spawns ⟨op, r⟩ = some u) : u = .podWatcher i ∨ u = .events i := by
  cases hp with
  | goPodWatcher => exact .inl (Option.some.inj h).symm
  | goEvents => exact .inr (Option.some.inj h).symm
  | _ => exact absurd h (by simp [spawns])

theorem spawns_events (hp : Permits (.events i) φ op) : spawns ⟨op, r⟩ = none := by
  cases hp <;> rfl

/-- The phases after a step of a collector. -/
theorem after_collector (ph : PhaseMap) (hp : Permits (.collector i) φ op) :
    after ph (.collector i) φ ⟨op, r⟩ (.collector i) = some (next φ ⟨op, r⟩) ∧
    (∀ j, j ≠ i → after ph (.collector i) φ ⟨op, r⟩ (.collector j) = ph (.collector j)) ∧
    (∀ j, j ≠ i → after ph (.collector i) φ ⟨op, r⟩ (.events j) = ph (.events j)) ∧
    after ph (.collector i) φ ⟨op, r⟩ .worker = ph .worker := by
  have hspawns : ∀ u : Task, u ≠ .podWatcher i → u ≠ .events i → spawns ⟨op, r⟩ ≠ some u :=
    fun u hpods hevents hu => (spawns_collector hp hu).elim hpods hevents
  refine ⟨after_self (hspawns _ (by simp) (by simp)), fun j hj => ?_, fun j hj => ?_,
    after_of_ne (by simp) (hspawns _ (by simp) (by simp))⟩
  · exact after_of_ne (by simpa using hj) (hspawns _ (by simp) (by simp))
  · exact after_of_ne (by simp) (hspawns _ (by simp) (by simpa using hj))

/-- The phases after a step of the goroutine over the channels. -/
theorem after_events (ph : PhaseMap) (hp : Permits (.events i) φ op) :
    after ph (.events i) φ ⟨op, r⟩ (.events i) = some (next φ ⟨op, r⟩) ∧
    (∀ j, j ≠ i → after ph (.events i) φ ⟨op, r⟩ (.events j) = ph (.events j)) ∧
    (∀ j, after ph (.events i) φ ⟨op, r⟩ (.collector j) = ph (.collector j)) ∧
    after ph (.events i) φ ⟨op, r⟩ .worker = ph .worker := by
  have hspawns : ∀ u : Task, spawns ⟨op, r⟩ ≠ some u := by simp [spawns_events hp]
  refine ⟨after_self (hspawns _), fun j hj => ?_, fun j => ?_, ?_⟩
  · exact after_of_ne (by simpa using hj) (hspawns _)
  · exact after_of_ne (by simp) (hspawns _)
  · exact after_of_ne (by simp) (hspawns _)

/-- The phases after a step of the worker that starts no collector. -/
theorem after_worker (ph : PhaseMap) (hp : Permits .worker φ op) (hφ : φ ≠ .renewed) :
    after ph .worker φ ⟨op, r⟩ .worker = some (next φ ⟨op, r⟩) ∧
    (∀ j, after ph .worker φ ⟨op, r⟩ (.collector j) = ph (.collector j)) ∧
    (∀ j, after ph .worker φ ⟨op, r⟩ (.events j) = ph (.events j)) := by
  have hspawns : ∀ u, (∀ n policies, u ≠ .immediately n policies) → spawns ⟨op, r⟩ ≠ some u := by
    intro u hu hs
    rcases spawns_worker hp hs with ⟨n, policies, rfl⟩ | hrenewed
    · exact hu n policies rfl
    · exact hφ hrenewed
  refine ⟨after_self (hspawns _ (by simp)), fun j => ?_, fun j => ?_⟩
  · exact after_of_ne (by simp) (hspawns _ (by simp))
  · exact after_of_ne (by simp) (hspawns _ (by simp))

/-- The phases after a step that starts a collector. -/
theorem after_goCollector (ph : PhaseMap) (n : ℕ) :
    after ph .worker .renewed ⟨.goCollector, n⟩ .worker = some .rest ∧
    after ph .worker .renewed ⟨.goCollector, n⟩ (.collector n) = some .begin ∧
    (∀ j, j ≠ n → after ph .worker .renewed ⟨.goCollector, n⟩ (.collector j) = ph (.collector j)) ∧
    (∀ j, after ph .worker .renewed ⟨.goCollector, n⟩ (.events j) = ph (.events j)) := by
  refine ⟨after_self (by simp [spawns]), after_spawned rfl, fun j hj => ?_, fun j => ?_⟩
  · refine after_of_ne (by simp) (fun hs => hj ?_)
    exact (Task.collector.inj (Option.some.inj hs)).symm
  · exact after_of_ne (by simp) (by simp [spawns])

end Steps

end CheckpointRestore.Retention.Watcher
