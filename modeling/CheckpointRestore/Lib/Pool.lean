import CheckpointRestore.Lib.Prog

namespace Interaction

/-!
# Interaction programs — thread pools and their interleavings

Any number of programs run side by side over one shared state.  A step of the pool
starts a program, lets one thread issue its next operation, or lets the environment
change the shared state.  Every thread keeps the trace of its operations and replies.

* `Step` / `Reaches` — labelled steps, and the pools reachable by steps that all meet a
  side condition `ok` (take `fun _ _ => True` for every interleaving);
* `Reaches.invariant` — a property every step preserves holds in every reachable pool;
* `Step.event` / `Reaches.act` — one operation of a thread, given with its reply;
* `Reaches.run` / `Reaches.runNew` — a program that can run to its end can do so in the pool,
  and `Reaches.replay` lets it run up to an operation;
* `Reaches.modular` — the thread-modular form: a property of the shared state and one of
  each thread, kept by the thread that moves and by everybody else's moves;
* `Reaches.unfolds` / `Reaches.valid` — every thread is what its trace has left of a
  program that was started, and its replies are replies the world gives.
-/

variable {S : Signature} {α σ : Type}

/-- A running program with the operations it has issued so far. -/
structure Thread (S : Signature) (α : Type) where
  trace : List (Event S)
  prog : Prog S α

/-- A shared state and the threads working on it. -/
structure Pool (S : Signature) (α σ : Type) where
  shared : σ
  threads : List (Thread S α)

/-- What the threads run against: the effect of an operation on the shared state, the
    changes that happen by themselves, and which programs may be started. -/
structure World (S : Signature) (α σ : Type) where
  act : (op : S.Op) → σ → S.Reply op → σ → Prop
  env : σ → σ → Prop
  start : Pool S α σ → Prog S α → Prop

/-- What a step of the pool does: start a program, let thread `i` issue an operation,
    or nothing visible. -/
inductive Label (S : Signature) (α : Type) where
  | spawn (p : Prog S α)
  | act (i : ℕ) (e : Event S)
  | env

/-- The steps of a pool. -/
inductive Step (W : World S α σ) : Pool S α σ → Label S α → Pool S α σ → Prop
  | spawn {a : Pool S α σ} {p : Prog S α} (h : W.start a p) :
      Step W a (.spawn p) { a with threads := a.threads ++ [⟨[], p⟩] }
  | act {a : Pool S α σ} {i : ℕ} {tr : List (Event S)} {op : S.Op}
      {k : S.Reply op → Prog S α} {r : S.Reply op} {s' : σ}
      (hi : a.threads[i]? = some ⟨tr, .call op k⟩) (h : W.act op a.shared r s') :
      Step W a (.act i ⟨op, r⟩)
        { shared := s', threads := a.threads.set i ⟨tr ++ [⟨op, r⟩], k r⟩ }
  | env {a : Pool S α σ} {s' : σ} (h : W.env a.shared s') :
      Step W a .env { a with shared := s' }

/-- The pools reachable from `a` by steps that meet `ok`, a condition on the pool
    before the step and on the step's label. -/
inductive Reaches (W : World S α σ) (ok : Pool S α σ → Label S α → Prop) (a : Pool S α σ) :
    Pool S α σ → Prop
  | refl : Reaches W ok a a
  | step {b c : Pool S α σ} {l : Label S α} (h : Reaches W ok a b) (hok : ok b l)
      (hs : Step W b l c) : Reaches W ok a c

variable {tr : List (Event S)} {p : Prog S α} {s' s : σ} {ts : List (Thread S α)} {x : α}

section Rules
variable {W : World S α σ} {ok : Pool S α σ → Label S α → Prop} {a b : Pool S α σ}

/-- Restricting the steps restricts the reachable pools. -/
theorem Reaches.mono {ok' : Pool S α σ → Label S α → Prop} (hok : ∀ b l, ok b l → ok' b l)
    (h : Reaches W ok a b) : Reaches W ok' a b := by
  induction h with
  | refl => exact .refl
  | step _ ho hs ih => exact .step ih (hok _ _ ho) hs

/-- The invariant rule; what is known of every reachable pool may be used at each step. -/
theorem Reaches.invariant {I : Pool S α σ → Prop} (h : Reaches W ok a b) (h0 : I a)
    (hstep : ∀ b l c, Reaches W ok a b → I b → ok b l → Step W b l c → I c) : I b := by
  induction h with
  | refl => exact h0
  | step hr ho hs ih => exact hstep _ _ _ hr ih ho hs

/-- A thread issues an operation, given with its reply. -/
theorem Step.event (i : ℕ) (e : Event S) {k : S.Reply e.op → Prog S α}
    (hi : b.threads[i]? = some ⟨tr, p⟩) (hp : p = .call e.op k)
    (hact : W.act e.op b.shared e.reply s') :
    Step W b (.act i e) ⟨s', b.threads.set i ⟨tr ++ [e], k e.reply⟩⟩ := by
  subst hp
  exact .act hi hact

theorem Reaches.act (h : Reaches W ok a b) (i : ℕ) (e : Event S) {k : S.Reply e.op → Prog S α}
    (hi : b.threads[i]? = some ⟨tr, p⟩) (hp : p = .call e.op k) (hok : ok b (.act i e))
    (hact : W.act e.op b.shared e.reply s') :
    Reaches W ok a ⟨s', b.threads.set i ⟨tr ++ [e], k e.reply⟩⟩ :=
  h.step hok (.event i e hi hp hact)

/-- A thread whose program can run to its end can do so in the pool, if it is the last one
    and may make these moves. -/
theorem Reaches.runEvents (tr₀ : List (Event S)) (hrun : Runs W.act p s tr x s')
    (hok : ∀ s q tr', ∀ e ∈ tr, ok ⟨s, ts ++ [⟨tr₀ ++ tr', q⟩]⟩ (.act ts.length e))
    (h : Reaches W ok a ⟨s, ts ++ [⟨tr₀, p⟩]⟩) :
    Reaches W ok a ⟨s', ts ++ [⟨tr₀ ++ tr, .pure x⟩]⟩ := by
  induction hrun generalizing tr₀ with
  | pure x s => simpa using h
  | @call op k s s₁ s₂ r tr x hact _ ih =>
    have hget : (ts ++ [⟨tr₀, .call op k⟩])[ts.length]? = some ⟨tr₀, .call op k⟩ := by simp
    have hfirst : ok ⟨s, ts ++ [⟨tr₀, .call op k⟩]⟩ (.act ts.length ⟨op, r⟩) := by
      simpa using hok s (.call op k) [] ⟨op, r⟩ List.mem_cons_self
    have hstep := Reaches.step h hfirst (Step.act hget hact)
    have hset : ∀ t u : Thread S α, (ts ++ [t]).set ts.length u = ts ++ [u] := by
      intro t u; simp
    dsimp only at hstep
    rw [hset] at hstep
    have hrest := ih (tr₀ ++ [⟨op, r⟩]) (fun s q tr' e he => by
      rw [List.append_assoc]
      exact hok s q _ e (List.mem_cons_of_mem _ he)) hstep
    rwa [List.append_assoc, List.singleton_append] at hrest

/-- The same where the thread may always move from here on. -/
theorem Reaches.run (tr₀ : List (Event S)) (hrun : Runs W.act p s tr x s')
    (hok : ∀ s q tr' e, ok ⟨s, ts ++ [⟨tr₀ ++ tr', q⟩]⟩ (.act ts.length e))
    (h : Reaches W ok a ⟨s, ts ++ [⟨tr₀, p⟩]⟩) :
    Reaches W ok a ⟨s', ts ++ [⟨tr₀ ++ tr, .pure x⟩]⟩ :=
  Reaches.runEvents tr₀ hrun (fun s q tr' e _ => hok s q tr' e) h

/-- A program can be started and run to its end, its first operation under a condition of
    its own. -/
theorem Reaches.runNew {e : Event S} (hrun : Runs W.act p s (e :: tr) x s')
    (hstart : W.start ⟨s, ts⟩ p) (hspawn : ok ⟨s, ts⟩ (.spawn p))
    (hfirst : ok ⟨s, ts ++ [⟨[], p⟩]⟩ (.act ts.length e))
    (hrest : ∀ s q tr' e', ok ⟨s, ts ++ [⟨e :: tr', q⟩]⟩ (.act ts.length e'))
    (h : Reaches W ok a ⟨s, ts⟩) : Reaches W ok a ⟨s', ts ++ [⟨e :: tr, .pure x⟩]⟩ := by
  have hnew := Reaches.step h hspawn (Step.spawn hstart)
  cases hrun with
  | @call op k s s₁ s₂ r tr x hact hk =>
    have hget : (ts ++ [⟨[], .call op k⟩])[ts.length]? = some ⟨[], .call op k⟩ := by simp
    have hstep := Reaches.step hnew hfirst (Step.act hget hact)
    have hset : ∀ t u : Thread S α, (ts ++ [t]).set ts.length u = ts ++ [u] := by
      intro t u; simp
    dsimp only at hstep
    rw [hset] at hstep
    exact Reaches.run [⟨op, r⟩] hk (fun s q tr' e => hrest s q tr' e) hstep

/-- A program can be started and issue operations that leave the shared state as it is. -/
theorem Reaches.replay (ts : List (Thread S α)) {q : Prog S α} (hu : Unfolds p tr q)
    (hact : ∀ e ∈ tr, W.act e.op s e.reply s) (hstart : W.start ⟨s, ts⟩ p) (hok : ∀ b l, ok b l)
    (h : Reaches W ok a ⟨s, ts⟩) : Reaches W ok a ⟨s, ts ++ [⟨tr, q⟩]⟩ := by
  induction hu with
  | nil => exact .step h (hok _ _) (.spawn hstart)
  | @snoc tr op k hu r ih =>
    have hbefore := ih (fun e he => hact e (List.mem_append_left _ he))
    have hget : (ts ++ [⟨tr, .call op k⟩])[ts.length]? = some ⟨tr, .call op k⟩ := by simp
    have hlast : W.act op s r s := hact ⟨op, r⟩ (by simp)
    have hstep := Reaches.step hbefore (hok _ _) (Step.act hget hlast)
    simpa using hstep

/-- A thread of an updated pool is the updated one or one of the others. -/
theorem mem_threads_set {i : ℕ} {t u : Thread S α} (h : u ∈ ts.set i t) :
    u = t ∨ ∃ j, j ≠ i ∧ ts[j]? = some u := by
  obtain ⟨j, hj, rfl⟩ := List.getElem_of_mem h
  rw [List.length_set] at hj
  by_cases hij : i = j
  · left; subst hij; simp
  · right; exact ⟨j, Ne.symm hij, by simp [List.getElem_set_ne hij, hj]⟩

/-- The thread-modular rule.  `I` speaks of the shared state, `A` of one thread and the
    shared state; a moving thread re-establishes both and every other thread's `A`
    survives its move. -/
theorem Reaches.modular {I : σ → Prop} {A : Thread S α → σ → Prop}
    (h : Reaches W ok a b) (h0 : I a.shared) (hA : ∀ t ∈ a.threads, A t a.shared)
    (hspawn : ∀ b p, I b.shared → W.start b p → A ⟨[], p⟩ b.shared)
    (hact : ∀ (b : Pool S α σ) (i : ℕ) (tr : List (Event S)) (op : S.Op)
      (k : S.Reply op → Prog S α) (r : S.Reply op) (s' : σ),
      I b.shared → (∀ t ∈ b.threads, A t b.shared) → b.threads[i]? = some ⟨tr, .call op k⟩ →
      ok b (.act i ⟨op, r⟩) → W.act op b.shared r s' →
      I s' ∧ A ⟨tr ++ [⟨op, r⟩], k r⟩ s' ∧
        ∀ j u, j ≠ i → b.threads[j]? = some u → A u s')
    (henv : ∀ s s', I s → W.env s s' → I s' ∧ ∀ t, A t s → A t s') :
    I b.shared ∧ ∀ t ∈ b.threads, A t b.shared := by
  refine h.invariant (I := fun b => I b.shared ∧ ∀ t ∈ b.threads, A t b.shared) ⟨h0, hA⟩ ?_
  rintro b l c - ⟨hI, hT⟩ ho hs
  cases hs with
  | spawn hst =>
    refine ⟨hI, fun t ht => ?_⟩
    rcases List.mem_append.mp ht with ht | ht
    · exact hT t ht
    · rw [List.mem_singleton] at ht; subst ht
      exact hspawn b _ hI hst
  | act hi hw =>
    obtain ⟨hI', hA', hrest⟩ := hact b _ _ _ _ _ _ hI hT hi ho hw
    refine ⟨hI', fun t ht => ?_⟩
    rcases mem_threads_set ht with rfl | ⟨j, hj, hu⟩
    · exact hA'
    · exact hrest j t hj hu
  | env hw =>
    obtain ⟨hI', hA'⟩ := henv _ _ hI hw
    exact ⟨hI', fun t ht => hA' t (hT t ht)⟩

/-- Starting from an empty pool, every thread is what its trace has left of a program
    that was allowed to start. -/
theorem Reaches.unfolds {P : Prog S α → Prop} (h : Reaches W ok a b) (h0 : a.threads = [])
    (hstart : ∀ b p, W.start b p → P p) :
    ∀ t ∈ b.threads, ∃ p, P p ∧ Unfolds p t.trace t.prog := by
  refine (h.modular (I := fun _ => True)
    (A := fun t _ => ∃ p, P p ∧ Unfolds p t.trace t.prog) trivial ?_ ?_ ?_ ?_).2
  · simp [h0]
  · intro b p _ hst
    exact ⟨p, hstart b p hst, .nil p⟩
  · intro b i tr op k r s' _ hT hi _ _
    obtain ⟨p, hp, hu⟩ := hT _ (List.mem_of_getElem? hi)
    exact ⟨trivial, ⟨p, hp, .snoc hu r⟩, fun j u _ hu' => hT u (List.mem_of_getElem? hu')⟩
  · exact fun _ _ _ _ => ⟨trivial, fun _ ht => ht⟩

/-- Starting from an empty pool, every reply in a trace is one the world can give. -/
theorem Reaches.valid {V : Event S → Prop} (h : Reaches W ok a b) (h0 : a.threads = [])
    (hV : ∀ op s r s', W.act op s r s' → V ⟨op, r⟩) :
    ∀ t ∈ b.threads, ∀ e ∈ t.trace, V e := by
  refine (h.modular (I := fun _ => True) (A := fun t _ => ∀ e ∈ t.trace, V e)
    trivial ?_ ?_ ?_ ?_).2
  · simp [h0]
  · intro b p _ _ e he
    exact absurd he (by simp)
  · intro b i tr op k r s' _ hT hi _ hw
    refine ⟨trivial, ?_, fun j u _ hu' => hT u (List.mem_of_getElem? hu')⟩
    intro e he
    rcases List.mem_append.mp he with he | he
    · exact hT _ (List.mem_of_getElem? hi) e he
    · rw [List.mem_singleton] at he; subst he; exact hV _ _ _ _ hw
  · exact fun _ _ _ _ => ⟨trivial, fun _ ht => ht⟩

end Rules

end Interaction
