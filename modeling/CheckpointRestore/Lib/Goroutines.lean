import CheckpointRestore.Lib.Prog
import Mathlib.Logic.Function.Basic
import Mathlib.Order.WellFounded

namespace Interaction

/-!
# Goroutines

Programs that start further programs, over one shared state.  Goroutines have names; each runs the
body of its name, and an operation may start another one.  A body that returns `true` was one round
of an endless loop and is run again, one that returns `false` ends the goroutine.

* `System` — the bodies, what starts a goroutine, the effects of operations, and what happens by
  itself;
* `System.Step` / `System.Path` — the moves of a system, and the runs, each move with the
  configuration before it;
* `Since` — the last moment of a history with some property;
* `Discipline` — phases of goroutines: which operations a phase permits and where they lead;
* `System.Path.tracked` — the invariant rule: a property of the history, the shared state and the
  phases that every permitted move keeps;
* `Discipline.Forced` — the steps of goroutines whose phase permits one operation only;
* `Discipline.Tracks.reach` — the ranking rule: such steps lead to a goal when a rank decreases.
-/

variable {S : Signature} {τ σ Φ β : Type}

/-- Goroutines over a shared state: the body of each name, the goroutine that an operation starts,
    the answers and effects of operations, and what happens by itself, which may also start a
    goroutine. -/
structure System (S : Signature) (τ σ : Type) where
  body : τ → Prog S Bool
  spawns : Event S → Option τ
  act : (op : S.Op) → σ → S.Reply op → σ → Prop
  env : σ → Option τ → σ → Prop

/-- The shared state, and what is left of every goroutine that was started. -/
structure Config (S : Signature) (τ σ : Type) where
  shared : σ
  run : τ → Option (Prog S Bool)

/-- What happens in a step: a goroutine performs an operation or begins its next round, or
    something happens by itself. -/
inductive Move (S : Signature) (τ : Type) where
  | act (t : τ) (e : Event S)
  | again (t : τ)
  | env (started : Option τ)

/-- A history: the moves made, each with the configuration before it. -/
abbrev Trace (S : Signature) (τ σ : Type) := List (Config S τ σ × Move S τ)

/-- A goroutine is entered with what `f` gives for its name. -/
def started [DecidableEq τ] (f : τ → β) (t : Option τ) (run : τ → Option β) : τ → Option β :=
  match t with
  | none => run
  | some t => Function.update run t (some (f t))

section Started
variable [DecidableEq τ] {f : τ → β} {run : τ → Option β}

@[simp] theorem started_self (t : τ) : started f (some t) run t = some (f t) :=
  Function.update_self ..

theorem started_of_ne {t : Option τ} {u : τ} (h : t ≠ some u) : started f t run u = run u := by
  cases t with
  | none => rfl
  | some t => exact Function.update_of_ne (fun heq => h (congrArg some heq.symm)) ..

end Started

/-! ### Histories -/

section History
variable {α : Type} {p : α → Prop} {l pre post : List α} {x y : α}

/-- `x` is in a history, and nothing after it has the property `p`. -/
def Since (p : α → Prop) (x : α) (l : List α) : Prop :=
  ∃ pre post, l = pre ++ x :: post ∧ ∀ y ∈ post, ¬ p y

theorem since_snoc_self : Since p x (l ++ [x]) :=
  ⟨l, [], rfl, fun _ hy => absurd hy List.not_mem_nil⟩

theorem Since.snoc (h : Since p x l) (hy : ¬ p y) : Since p x (l ++ [y]) := by
  obtain ⟨pre, post, rfl, hpost⟩ := h
  refine ⟨pre, post ++ [y], by simp, fun z hz => ?_⟩
  rcases List.mem_append.mp hz with hz | hz
  · exact hpost z hz
  · rwa [List.mem_singleton.mp hz]

/-- A moment of a history that has grown by one is its end, or was there before. -/
theorem snoc_split (h : l ++ [y] = pre ++ x :: post) :
    (l = pre ∧ y = x ∧ post = []) ∨ ∃ post', post = post' ++ [y] ∧ l = pre ++ x :: post' := by
  rcases List.eq_nil_or_concat post with rfl | ⟨post', z, rfl⟩
  · obtain ⟨rfl, heq⟩ := List.append_inj' h rfl
    exact .inl ⟨rfl, (List.cons.inj heq).1, rfl⟩
  · rw [List.concat_eq_append, ← List.cons_append, ← List.append_assoc] at h
    obtain ⟨rfl, heq⟩ := List.append_inj' h rfl
    obtain rfl := (List.cons.inj heq).1
    exact .inr ⟨post', List.concat_eq_append, rfl⟩

end History

/-! ### Runs -/

section Steps
variable [DecidableEq τ]

/-- The moves of a system. -/
inductive System.Step (G : System S τ σ) : Config S τ σ → Move S τ → Config S τ σ → Prop
  | act {a : Config S τ σ} {t : τ} {op : S.Op} {k : S.Reply op → Prog S Bool} {r : S.Reply op}
      {s' : σ} (hrun : a.run t = some (.call op k)) (h : G.act op a.shared r s') :
      G.Step a (.act t ⟨op, r⟩)
        ⟨s', started G.body (G.spawns ⟨op, r⟩) (Function.update a.run t (some (k r)))⟩
  | again {a : Config S τ σ} {t : τ} (hrun : a.run t = some (.pure true)) :
      G.Step a (.again t) ⟨a.shared, Function.update a.run t (some (G.body t))⟩
  | env {a : Config S τ σ} {t : Option τ} {s' : σ} (h : G.env a.shared t s') :
      G.Step a (.env t) ⟨s', started G.body t a.run⟩

/-- The runs of a system. -/
inductive System.Path (G : System S τ σ) (a : Config S τ σ) : Trace S τ σ → Config S τ σ → Prop
  | nil : G.Path a [] a
  | snoc {tr : Trace S τ σ} {b c : Config S τ σ} {m : Move S τ}
      (h : G.Path a tr b) (hs : G.Step b m c) : G.Path a (tr ++ [(b, m)]) c

variable {G : System S τ σ} {a b c : Config S τ σ} {tr tr' : Trace S τ σ}

theorem System.Step.path {m : Move S τ} (h : G.Step a m b) : G.Path a [(a, m)] b :=
  .snoc .nil h

/-- A run and one more operation of a goroutine. -/
theorem System.Path.act (h : G.Path a tr b) (t : τ) (op : S.Op) (r : S.Reply op)
    {k : S.Reply op → Prog S Bool} {s' : σ} (hrun : b.run t = some (.call op k))
    (hact : G.act op b.shared r s') : G.Path a (tr ++ [(b, .act t ⟨op, r⟩)])
      ⟨s', started G.body (G.spawns ⟨op, r⟩) (Function.update b.run t (some (k r)))⟩ :=
  .snoc h (.act hrun hact)

theorem System.Path.trans (h : G.Path a tr b) (h' : G.Path b tr' c) : G.Path a (tr ++ tr') c := by
  induction h' with
  | nil => rwa [List.append_nil]
  | snoc _ hs ih => exact List.append_assoc .. ▸ ih.snoc hs

/-- A run up to one of its moves, and from there. -/
theorem System.Path.split {x : Config S τ σ × Move S τ} (h : G.Path a (tr ++ x :: tr') b) :
    ∃ c, G.Path a tr x.1 ∧ G.Step x.1 x.2 c ∧ G.Path c tr' b := by
  generalize hall : tr ++ x :: tr' = all at h
  induction h generalizing tr' with
  | nil => exact absurd hall (by simp)
  | @snoc all b c m h hs ih =>
    rcases snoc_split hall.symm with ⟨rfl, rfl, rfl⟩ | ⟨post, rfl, hbefore⟩
    · exact ⟨c, h, hs, .nil⟩
    · obtain ⟨d, hbefore, hmove, hafter⟩ := ih hbefore.symm
      exact ⟨d, hbefore, hmove, hafter.snoc hs⟩

end Steps

/-! ### Phases -/

/-- Phases of goroutines: the one a body begins in, what a phase permits, where an operation leads,
    and in which phases a goroutine may end. -/
structure Discipline (S : Signature) (τ Φ : Type) where
  entry : τ → Φ
  permits : τ → Φ → S.Op → Prop
  next : Φ → Event S → Φ
  done : τ → Φ → Prop

/-- The contract of a goroutine over its phase. -/
def Discipline.contract (D : Discipline S τ Φ) (t : τ) : Contract S Φ where
  pre op φ := D.permits t φ op
  post op φ r φ' := φ' = D.next φ ⟨op, r⟩

/-- What is left of a goroutine keeps to the phases: a round ends where the next one begins. -/
def Discipline.Owes (D : Discipline S τ Φ) (t : τ) (p : Prog S Bool) (φ : Φ) : Prop :=
  wp (D.contract t) p (fun again φ' => if again then φ' = D.entry t else D.done t φ') φ

/-- Every goroutine that was started is in a phase and keeps to the phases from there. -/
def Discipline.Tracks (D : Discipline S τ Φ) (run : τ → Option (Prog S Bool))
    (ph : τ → Option Φ) : Prop :=
  ∀ t, Option.Rel (D.Owes t) (run t) (ph t)

/-- The phases after an operation of a goroutine. -/
def Discipline.after [DecidableEq τ] (D : Discipline S τ Φ) (G : System S τ σ) (ph : τ → Option Φ)
    (t : τ) (φ : Φ) (e : Event S) : τ → Option Φ :=
  started D.entry (G.spawns e) (Function.update ph t (some (D.next φ e)))

section Tracks
variable {D : Discipline S τ Φ} {G : System S τ σ} {run : τ → Option (Prog S Bool)}
  {ph : τ → Option Φ}

theorem Discipline.Tracks.get (h : D.Tracks run ph) {t : τ} {φ : Φ} (ht : ph t = some φ) :
    ∃ p, run t = some p ∧ D.Owes t p φ := by
  have hrel := h t
  rw [ht] at hrel
  generalize run t = p at hrel
  cases hrel with
  | some howes => exact ⟨_, rfl, howes⟩

theorem Discipline.Tracks.phase (h : D.Tracks run ph) {t : τ} {p : Prog S Bool}
    (ht : run t = some p) : ∃ φ, ph t = some φ ∧ D.Owes t p φ := by
  have hrel := h t
  rw [ht] at hrel
  generalize ph t = φ at hrel
  cases hrel with
  | some howes => exact ⟨_, rfl, howes⟩

variable [DecidableEq τ]

/-- One goroutine moves on. -/
theorem Discipline.Tracks.update (h : D.Tracks run ph) {t : τ} {p : Prog S Bool} {φ : Φ}
    (howes : D.Owes t p φ) :
    D.Tracks (Function.update run t (some p)) (Function.update ph t (some φ)) := by
  intro u
  by_cases hu : u = t
  · subst hu
    rw [Function.update_self, Function.update_self]
    exact .some howes
  · rw [Function.update_of_ne hu, Function.update_of_ne hu]
    exact h u

/-- A goroutine begins its next round. -/
theorem Discipline.Tracks.again (h : D.Tracks run ph)
    (hG : ∀ t, D.Owes t (G.body t) (D.entry t)) {t : τ} (ht : ph t = some (D.entry t)) :
    D.Tracks (Function.update run t (some (G.body t))) ph := by
  have hmoved := h.update (hG t)
  have hsame : Function.update ph t (some (D.entry t)) = ph := by rw [← ht, Function.update_eq_self]
  rwa [hsame] at hmoved

/-- A goroutine is started. -/
theorem Discipline.Tracks.start (h : D.Tracks run ph)
    (hG : ∀ t, D.Owes t (G.body t) (D.entry t)) (t : Option τ) :
    D.Tracks (started G.body t run) (started D.entry t ph) := by
  cases t with
  | none => exact h
  | some t => exact h.update (hG t)

/-- **The invariant rule.**  What every move that the phases permit keeps holds along every run. -/
theorem System.Path.tracked (hG : ∀ t, D.Owes t (G.body t) (D.entry t))
    {I : Trace S τ σ → σ → (τ → Option Φ) → Prop} {a b : Config S τ σ} {tr : Trace S τ σ}
    {ph₀ : τ → Option Φ} (h : G.Path a tr b) (h0 : D.Tracks a.run ph₀) (hI : I [] a.shared ph₀)
    (hact : ∀ (tr : Trace S τ σ) (b : Config S τ σ) (ph : τ → Option Φ) (t : τ) (φ : Φ) (op : S.Op)
      (r : S.Reply op) (s' : σ), I tr b.shared ph → ph t = some φ → D.permits t φ op →
      G.act op b.shared r s' → I (tr ++ [(b, .act t ⟨op, r⟩)]) s' (D.after G ph t φ ⟨op, r⟩))
    (hagain : ∀ (tr : Trace S τ σ) (b : Config S τ σ) (ph : τ → Option Φ) (t : τ),
      I tr b.shared ph → I (tr ++ [(b, .again t)]) b.shared ph)
    (henv : ∀ (tr : Trace S τ σ) (b : Config S τ σ) (ph : τ → Option Φ) (t : Option τ) (s' : σ),
      I tr b.shared ph → G.env b.shared t s' →
      I (tr ++ [(b, .env t)]) s' (started D.entry t ph)) :
    ∃ ph, D.Tracks b.run ph ∧ I tr b.shared ph := by
  induction h with
  | nil => exact ⟨ph₀, h0, hI⟩
  | @snoc tr b c m _ hs ih =>
    obtain ⟨ph, htracks, hI⟩ := ih
    cases hs with
    | @act t op k r s' hrun hw =>
      obtain ⟨φ, hφ, hpre, hrest⟩ := htracks.phase hrun
      have hmoved := htracks.update (hrest r _ rfl)
      exact ⟨_, hmoved.start hG _, hact tr b ph t φ op r s' hI hφ hpre hw⟩
    | @again t hrun =>
      obtain ⟨φ, hφ, howes⟩ := htracks.phase hrun
      obtain rfl : φ = D.entry t := howes
      exact ⟨ph, htracks.again hG hφ, hagain tr b ph t hI⟩
    | env hw => exact ⟨_, htracks.start hG _, henv tr b ph _ _ hI hw⟩

/-- A step that the phases force: a goroutine of `A` is in a phase that permits one operation only,
    and performs it. -/
inductive Discipline.Forced (D : Discipline S τ Φ) (G : System S τ σ) (A : τ → Prop) :
    σ → (τ → Option Φ) → σ → (τ → Option Φ) → Prop
  | step {s s' : σ} {ph : τ → Option Φ} {t : τ} {φ : Φ} {op : S.Op} {r : S.Reply op} (hA : A t)
      (ht : ph t = some φ) (hdone : ¬ D.done t φ) (hbody : φ = D.entry t → ∀ x, G.body t ≠ .pure x)
      (hp : D.permits t φ op) (hop : ∀ op', D.permits t φ op' → op' = op)
      (hact : G.act op s r s') : D.Forced G A s ph s' (D.after G ph t φ ⟨op, r⟩)

/-- A forced step can be made; the goroutine may have to begin its next round first. -/
theorem Discipline.Forced.perform {A : τ → Prop} {b : Config S τ σ} {s' : σ} {ph' : τ → Option Φ}
    (hforced : D.Forced G A b.shared ph s' ph') (hG : ∀ t, D.Owes t (G.body t) (D.entry t))
    (h : D.Tracks b.run ph) :
    ∃ tr c, G.Path b tr c ∧ c.shared = s' ∧ D.Tracks c.run ph' ∧
      ∀ x ∈ tr, ∃ t, A t ∧ (x.2 = .again t ∨ ∃ e, x.2 = .act t e) := by
  obtain @⟨_, _, t, φ, op, r, hA, ht, hdone, hbody, -, hop, hact⟩ := hforced
  obtain ⟨p, hrun, howes⟩ := h.get ht
  cases p with
  | call op' k =>
    obtain rfl := hop op' howes.1
    have hmoved := h.update (howes.2 r _ rfl)
    refine ⟨_, _, (System.Step.act hrun hact).path, rfl, hmoved.start hG _, fun x hx => ?_⟩
    rw [List.mem_singleton.mp hx]
    exact ⟨t, hA, .inr ⟨_, rfl⟩⟩
  | pure again =>
    cases again with
    | false => exact absurd howes hdone
    | true =>
      -- the next round begins with the operation
      obtain rfl : φ = D.entry t := howes
      have htracks := h.again hG ht
      have hfirst : G.Step b (.again t) ⟨b.shared, Function.update b.run t (some (G.body t))⟩ :=
        .again hrun
      cases hp : G.body t with
      | pure x => exact absurd hp (hbody rfl x)
      | call op' k =>
        have hnext : D.Owes t (.call op' k) (D.entry t) := hp ▸ hG t
        obtain rfl := hop op' hnext.1
        rw [hp] at hfirst htracks
        have hmoved := htracks.update (hnext.2 r _ rfl)
        refine ⟨_, _, hfirst.path.snoc (.act (Function.update_self ..) hact), rfl,
          hmoved.start hG _, fun x hx => ?_⟩
        rcases List.mem_append.mp hx with hx | hx
        · rw [List.mem_singleton.mp hx]
          exact ⟨t, hA, .inl rfl⟩
        · rw [List.mem_singleton.mp hx]
          exact ⟨t, hA, .inr ⟨_, rfl⟩⟩

/-- **The ranking rule.**  Where every state of `P` has a forced step to one of `Q`, or to one of
    `P` of smaller rank, a run of forced steps leads to `Q`. -/
theorem Discipline.Tracks.reach {α : Type} [LT α] [WellFoundedLT α]
    (hG : ∀ t, D.Owes t (G.body t) (D.entry t)) {A : τ → Prop}
    {P Q : σ → (τ → Option Φ) → Prop} (rank : σ → (τ → Option Φ) → α)
    (hstep : ∀ s ph, P s ph → ∃ s' ph', D.Forced G A s ph s' ph' ∧
      (Q s' ph' ∨ P s' ph' ∧ rank s' ph' < rank s ph))
    {b : Config S τ σ} (h : D.Tracks b.run ph) (hP : P b.shared ph) :
    ∃ tr c ph', G.Path b tr c ∧ D.Tracks c.run ph' ∧ Q c.shared ph' ∧
      ∀ x ∈ tr, ∃ t, A t ∧ (x.2 = .again t ∨ ∃ e, x.2 = .act t e) := by
  generalize hr : rank b.shared ph = r
  induction r using WellFoundedLT.induction generalizing b ph with
  | ind r ih =>
    obtain ⟨s', ph', hforced, hnext⟩ := hstep b.shared ph hP
    obtain ⟨tr, c, hpath, rfl, htracks, hmoves⟩ := hforced.perform hG h
    rcases hnext with hgoal | ⟨hP', hlt⟩
    · exact ⟨tr, c, _, hpath, htracks, hgoal, hmoves⟩
    · obtain ⟨tr', c', ph'', hpath', htracks', hgoal, hmoves'⟩ := ih _ (hr ▸ hlt) htracks hP' rfl
      refine ⟨_, c', ph'', hpath.trans hpath', htracks', hgoal, fun x hx => ?_⟩
      exact (List.mem_append.mp hx).elim (hmoves x) (hmoves' x)

end Tracks

end Interaction
