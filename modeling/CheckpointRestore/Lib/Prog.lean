import Mathlib.Logic.Basic
import Mathlib.Data.List.Basic

namespace Interaction

/-!
# Interaction programs — sequential code over an effect signature

A program that talks to the outside world (a file system, an API server, a clock)
is a tree: it returns, or it issues an operation and continues with the reply.

* `Prog S α` — programs over the signature `S`, with their monad structure, so that
  the model of a stateful function is written in `do` notation;
* `exec` — execution against a deterministic world;
* `wp` — weakest preconditions against a `Contract`, which says of every operation
  when it may be issued and which replies and next states are possible; `wp_foldlM` and
  `wp_forM` are the rules for loops;
* `Issues` — which operations a program can issue, with the frame rule `wp_of_issues`;
* `Runs` — the runs against a nondeterministic world, with `wp_runs` and `Runs.of_exec`;
* `wp_bind_panic`, `exec_bind_panic` — the rules for code that can panic, `OptionT (Prog S)`, in
  which `none` is a panic; `untilPanic` is a loop over such code;
* `Unfolds` — the program that is left after a list of operations and replies, and
  `wp_unfolds`, which carries a `wp` fact along it;
* `Visits` — the runs with the state after each operation.

The interleaving semantics of many such programs is in `Pool.lean`.
-/

/-- An effect signature: the operations, and the type of the replies to each. -/
structure Signature where
  Op : Type
  Reply : Op → Type

/-- Programs over `S`: return a value, or issue an operation and continue with
    the reply. -/
inductive Prog (S : Signature) (α : Type) : Type where
  | pure (a : α) : Prog S α
  | call (op : S.Op) (k : S.Reply op → Prog S α) : Prog S α

variable {S : Signature} {α β γ σ : Type}

namespace Prog

/-- Sequential composition: graft the continuation onto every leaf. -/
def bind : Prog S α → (α → Prog S β) → Prog S β
  | .pure a, f => f a
  | .call op k, f => .call op (fun r => (k r).bind f)

instance : Monad (Prog S) where
  pure := Prog.pure
  bind := Prog.bind

protected theorem id_map (p : Prog S α) : id <$> p = p := by
  induction p with
  | pure a => rfl
  | call op k ih => exact congrArg (Prog.call op) (funext ih)

protected theorem bind_assoc (p : Prog S α) (f : α → Prog S β) (g : β → Prog S γ) :
    (p >>= f) >>= g = p >>= fun a => f a >>= g := by
  induction p with
  | pure a => rfl
  | call op k ih => exact congrArg (Prog.call op) (funext ih)

instance : LawfulMonad (Prog S) :=
  LawfulMonad.mk' (Prog S) Prog.id_map (fun _ _ => rfl) Prog.bind_assoc

/-- Issue one operation and return its reply. -/
def perform (op : S.Op) : Prog S (S.Reply op) := .call op .pure

end Prog

/-! ### Execution against a deterministic world -/

/-- Run a program against a world that answers every operation. -/
def exec (h : (op : S.Op) → σ → S.Reply op × σ) : Prog S α → σ → α × σ
  | .pure a, s => (a, s)
  | .call op k, s => exec h (k (h op s).1) (h op s).2

section Exec
variable (h : (op : S.Op) → σ → S.Reply op × σ)

@[simp] theorem exec_pure (a : α) (s : σ) : exec h (pure a) s = (a, s) := rfl

@[simp] theorem exec_leaf (a : α) (s : σ) : exec h (Prog.pure a) s = (a, s) := rfl

@[simp] theorem exec_call (op : S.Op) (k : S.Reply op → Prog S α) (s : σ) :
    exec h (.call op k) s = exec h (k (h op s).1) (h op s).2 := rfl

@[simp] theorem exec_perform (op : S.Op) (s : σ) : exec h (.perform op) s = h op s := rfl

@[simp] theorem exec_bind (p : Prog S α) (f : α → Prog S β) (s : σ) :
    exec h (p >>= f) s = exec h (f (exec h p s).1) (exec h p s).2 := by
  induction p generalizing s with
  | pure a => rfl
  | call op k ih => exact ih _ _

end Exec

/-! ### Weakest preconditions -/

/-- What is assumed and owed about the operations of `S` over states `σ`: `pre` is
    owed by the program when it issues an operation, `post` bounds the replies and
    next states it has to cope with. -/
structure Contract (S : Signature) (σ : Type) where
  pre : (op : S.Op) → σ → Prop
  post : (op : S.Op) → σ → S.Reply op → σ → Prop

/-- `wp C p Q s`: started in `s`, the program `p` issues only operations `C` permits
    and every result it can return satisfies `Q`. -/
def wp (C : Contract S σ) : Prog S α → (α → σ → Prop) → σ → Prop
  | .pure a, Q, s => Q a s
  | .call op k, Q, s => C.pre op s ∧ ∀ r s', C.post op s r s' → wp C (k r) Q s'

variable {p : Prog S α} {s : σ} {ι : Type} {b : β} {I : σ → Prop}

section Wp
variable {C : Contract S σ}

@[simp] theorem wp_pure (a : α) (Q : α → σ → Prop) (s : σ) :
    wp C (pure a) Q s ↔ Q a s := Iff.rfl

@[simp] theorem wp_call (op : S.Op) (k : S.Reply op → Prog S α) (Q : α → σ → Prop) (s : σ) :
    wp C (.call op k) Q s ↔ C.pre op s ∧ ∀ r s', C.post op s r s' → wp C (k r) Q s' := Iff.rfl

@[simp] theorem wp_perform (op : S.Op) (Q : S.Reply op → σ → Prop) (s : σ) :
    wp C (.perform op) Q s ↔ C.pre op s ∧ ∀ r s', C.post op s r s' → Q r s' := Iff.rfl

/-- The rule of sequential composition. -/
theorem wp_bind (p : Prog S α) (f : α → Prog S β) (Q : β → σ → Prop) (s : σ) :
    wp C (p >>= f) Q s ↔ wp C p (fun a s' => wp C (f a) Q s') s := by
  induction p generalizing s with
  | pure a => exact Iff.rfl
  | call op k ih =>
    show (_ ∧ _) ↔ (_ ∧ _)
    refine and_congr_right (fun _ => ?_)
    refine forall_congr' (fun r => forall_congr' (fun s' => imp_congr_right (fun _ => ?_)))
    exact ih r s'

/-- The rule of consequence. -/
theorem wp_mono {Q Q' : α → σ → Prop} (hQ : ∀ a s', Q a s' → Q' a s') (hp : wp C p Q s) :
    wp C p Q' s := by
  induction p generalizing s with
  | pure a => exact hQ a s hp
  | call op k ih => exact ⟨hp.1, fun r s' hr => ih r (hp.2 r s' hr)⟩

/-- The loop rule: an invariant of the accumulator and the state that every round keeps. -/
theorem wp_foldlM {f : β → ι → Prog S β} {l : List ι} {I : β → σ → Prop}
    (hstep : ∀ b s, ∀ x ∈ l, I b s → wp C (f b x) I s) (hb : I b s) : wp C (l.foldlM f b) I s := by
  induction l generalizing b s with
  | nil => exact hb
  | cons x l ih =>
    rw [List.foldlM_cons, wp_bind]
    refine wp_mono (fun b' s' hI => ?_) (hstep b s x List.mem_cons_self hb)
    exact ih (fun b s y hy => hstep b s y (List.mem_cons_of_mem _ hy)) hI

/-- The loop rule without an accumulator. -/
theorem wp_forM {f : ι → Prog S PUnit} {l : List ι}
    (hstep : ∀ s, ∀ x ∈ l, I s → wp C (f x) (fun _ => I) s) (hs : I s) :
    wp C (l.forM f) (fun _ => I) s := by
  induction l generalizing s with
  | nil => exact hs
  | cons x l ih =>
    rw [List.forM_eq_forM, List.forM_cons, wp_bind]
    refine wp_mono (fun _ s' hI => ?_) (hstep s x List.mem_cons_self hs)
    exact ih (fun s y hy => hstep s y (List.mem_cons_of_mem _ hy)) hI

end Wp

/-! ### Which operations a program can issue -/

/-- Every operation the program can issue satisfies `P`. -/
def Issues (P : S.Op → Prop) : Prog S α → Prop
  | .pure _ => True
  | .call op k => P op ∧ ∀ r, Issues P (k r)

variable {op : S.Op} {f : α → Prog S β} {h : (op : S.Op) → σ → S.Reply op × σ}

section Issues
variable {P : S.Op → Prop}

theorem Issues.pure (a : α) : Issues P (pure a : Prog S α) := trivial

theorem Issues.perform (h : P op) : Issues P (Prog.perform op) :=
  ⟨h, fun _ => trivial⟩

theorem Issues.bind (hp : Issues P p) (hf : ∀ a, Issues P (f a)) : Issues P (p >>= f) := by
  induction p with
  | pure a => exact hf a
  | call op k ih => exact ⟨hp.1, fun r => ih r (hp.2 r)⟩

theorem Issues.foldlM {f : β → ι → Prog S β} {l : List ι} (h : ∀ b x, Issues P (f b x)) (b : β) :
    Issues P (l.foldlM f b) := by
  induction l generalizing b with
  | nil => exact Issues.pure b
  | cons x l ih =>
    rw [List.foldlM_cons]
    exact Issues.bind (h b x) (fun b' => ih b')

theorem Issues.forM {f : ι → Prog S PUnit} {l : List ι} (h : ∀ x, Issues P (f x)) :
    Issues P (l.forM f) := by
  induction l with
  | nil => exact Issues.pure PUnit.unit
  | cons x l ih =>
    rw [List.forM_eq_forM, List.forM_cons]
    exact Issues.bind (h x) (fun _ => ih)

theorem Issues.mono {P' : S.Op → Prop} (hp : Issues P p) (h : ∀ op, P op → P' op) :
    Issues P' p := by
  induction p with
  | pure a => trivial
  | call op k ih => exact ⟨h op hp.1, fun r => ih r (hp.2 r)⟩

/-- The frame rule: operations that keep `I` keep it along the whole program. -/
theorem wp_of_issues {C : Contract S σ}
    (hI : ∀ op s, P op → I s → C.pre op s ∧ ∀ r s', C.post op s r s' → I s') (hp : Issues P p)
    (hs : I s) : wp C p (fun _ s' => I s') s := by
  induction p generalizing s with
  | pure a => exact hs
  | call op k ih =>
    obtain ⟨hpre, hpost⟩ := hI op s hp.1 hs
    exact ⟨hpre, fun r s' hr => ih r (hp.2 r) (hpost r s' hr)⟩

/-- Operations a deterministic world answers without a change leave its state alone. -/
theorem exec_state_of_issues (hP : ∀ op s, P op → (h op s).2 = s) (hp : Issues P p) (s : σ) :
    (exec h p s).2 = s := by
  induction p generalizing s with
  | pure a => rfl
  | call op k ih =>
    rw [exec_call, ih _ (hp.2 _), hP op s hp.1]

end Issues

/-! ### Executions against a nondeterministic world -/

/-- One operation together with the reply it got. -/
structure Event (S : Signature) where
  op : S.Op
  reply : S.Reply op

/-- `Runs act p s tr a s'`: the program can run from `s` to `s'`, returning `a`, when `act`
    says which replies and next states an operation can have; `tr` is what it issued. -/
inductive Runs (act : (op : S.Op) → σ → S.Reply op → σ → Prop) :
    Prog S α → σ → List (Event S) → α → σ → Prop
  | pure (a : α) (s : σ) : Runs act (.pure a) s [] a s
  | call {op : S.Op} {k : S.Reply op → Prog S α} {s s' s'' : σ} {r : S.Reply op}
      {tr : List (Event S)} {a : α} (h : act op s r s') (hk : Runs act (k r) s' tr a s'') :
      Runs act (.call op k) s (⟨op, r⟩ :: tr) a s''

variable {s' s'' : σ} {tr : List (Event S)} {a : α} {κ : Type} {P : S.Op → Prop}

section Runs
variable {act : (op : S.Op) → σ → S.Reply op → σ → Prop}

/-- One operation runs as the world answers it. -/
theorem Runs.perform {r : S.Reply op} (h : act op s r s') :
    Runs act (Prog.perform op) s [⟨op, r⟩] r s' :=
  .call h (.pure r s')

/-- Sequential composition runs its parts one after the other. -/
theorem Runs.bind {tr' : List (Event S)} (hp : Runs act p s tr a s')
    (hf : Runs act (f a) s' tr' b s'') : Runs act (p >>= f) s (tr ++ tr') b s'' := by
  induction hp with
  | pure a s => exact hf
  | call h _ ih => exact .call h (ih hf)

/-- A program that only returns does nothing else. -/
theorem Runs.of_pure {b : α} (h : Runs act (Prog.pure a) s tr b s') : tr = [] ∧ b = a ∧ s' = s := by
  cases h with
  | pure => exact ⟨rfl, rfl, rfl⟩

/-- One operation issues itself. -/
theorem Runs.of_perform {r : S.Reply op} (h : Runs act (Prog.perform op) s tr r s') :
    tr = [⟨op, r⟩] ∧ act op s r s' := by
  cases h with
  | call hact hk =>
    obtain ⟨rfl, rfl, rfl⟩ := Runs.of_pure hk
    exact ⟨rfl, hact⟩

/-- A run of a sequential composition is a run of its first part and one of the rest. -/
theorem Runs.of_bind (h : Runs act (p >>= f) s tr b s'') :
    ∃ tr₁ tr₂ a s', tr = tr₁ ++ tr₂ ∧ Runs act p s tr₁ a s' ∧ Runs act (f a) s' tr₂ b s'' := by
  induction p generalizing s tr with
  | pure a => exact ⟨[], tr, a, s, rfl, .pure a s, h⟩
  | call op k ih =>
    cases h with
    | @call _ _ _ s₁ _ r tr' _ hact hk =>
      obtain ⟨tr₁, tr₂, a, s', rfl, hp, hf⟩ := ih r hk
      exact ⟨⟨op, r⟩ :: tr₁, tr₂, a, s', rfl, .call hact hp, hf⟩

/-- So is a run of an operation and what comes behind it. -/
theorem Runs.of_call {k : S.Reply op → Prog S β} (h : Runs act (Prog.perform op >>= k) s tr b s'') :
    ∃ r tr' s', tr = [⟨op, r⟩] ++ tr' ∧ act op s r s' ∧ Runs act (k r) s' tr' b s'' := by
  obtain ⟨tr₁, tr', r, s', rfl, hop, hrest⟩ := h.of_bind
  obtain ⟨rfl, hact⟩ := hop.of_perform
  exact ⟨r, tr', s', rfl, hact, hrest⟩

theorem Runs.exists_bind (hp : Runs act p s tr a s') (hf : ∃ tr', Runs act (f a) s' tr' b s'') :
    ∃ tr, Runs act (p >>= f) s tr b s'' := by
  obtain ⟨tr', hf⟩ := hf
  exact ⟨tr ++ tr', hp.bind hf⟩

/-- A loop over items with distinct keys, each round of which issues operations of its own key
    only and leaves what the accumulator has for the others: each key sees its own round. -/
theorem Runs.of_foldlM_keyed {f : β → ι → Prog S β} (key : ι → κ) (sel : κ → Event S → Bool)
    (mem : β → κ → Prop) (I : β → Prop)
    (hround : ∀ b x s tr b' s', I b → Runs act (f b x) s tr b' s' →
      I b' ∧ ∀ k, k ≠ key x → tr.filter (sel k) = [] ∧ (mem b' k ↔ mem b k))
    {l : List ι} (hl : (l.map key).Nodup) {b' : β} (h : Runs act (l.foldlM f b) s tr b' s')
    (hI : I b) :
    I b' ∧ (∀ k, k ∉ l.map key → tr.filter (sel k) = [] ∧ (mem b' k ↔ mem b k)) ∧
    ∀ x ∈ l, ∃ b₀ s₀ tr₀ b₁ s₁, I b₀ ∧ Runs act (f b₀ x) s₀ tr₀ b₁ s₁ ∧
      tr.filter (sel (key x)) = tr₀.filter (sel (key x)) ∧
      (mem b₀ (key x) ↔ mem b (key x)) ∧ (mem b' (key x) ↔ mem b₁ (key x)) := by
  induction l generalizing b s tr with
  | nil =>
    obtain ⟨rfl, rfl, rfl⟩ := Runs.of_pure h
    exact ⟨hI, fun k _ => ⟨rfl, Iff.rfl⟩, fun x hx => absurd hx List.not_mem_nil⟩
  | cons x l ih =>
    rw [List.foldlM_cons] at h
    obtain ⟨tr₁, tr₂, b₁, s₁, rfl, hx, hrest⟩ := Runs.of_bind h
    rw [List.map_cons, List.nodup_cons] at hl
    obtain ⟨hI₁, hothers⟩ := hround b x s tr₁ b₁ s₁ hI hx
    obtain ⟨hI', hout, hin⟩ := ih hl.2 hrest hI₁
    refine ⟨hI', fun k hk => ?_, fun y hy => ?_⟩
    · rw [List.map_cons, List.mem_cons, not_or] at hk
      obtain ⟨hfirst, hmem₁⟩ := hothers k hk.1
      obtain ⟨hlast, hmem⟩ := hout k hk.2
      exact ⟨by rw [List.filter_append, hfirst, hlast, List.nil_append], hmem.trans hmem₁⟩
    · rcases List.mem_cons.mp hy with rfl | hy
      · -- the rest of the loop has other keys
        obtain ⟨hlast, hmem⟩ := hout (key y) hl.1
        refine ⟨b, s, tr₁, b₁, s₁, hI, hx, ?_, Iff.rfl, hmem⟩
        rw [List.filter_append, hlast, List.append_nil]
      · have hne : key y ≠ key x := fun heq => hl.1 (heq ▸ List.mem_map_of_mem hy)
        obtain ⟨hfirst, hmem₁⟩ := hothers (key y) hne
        obtain ⟨b₀, s₀, tr₀, b₂, s₂, hI₀, hrun, hfilter, hmem₀, hmem₂⟩ := hin y hy
        refine ⟨b₀, s₀, tr₀, b₂, s₂, hI₀, hrun, ?_, hmem₀.trans hmem₁, hmem₂⟩
        rw [List.filter_append, hfirst, List.nil_append, hfilter]

/-- A run issues only what the program can issue. -/
theorem Issues.of_runs (hp : Issues P p) (h : Runs act p s tr a s') : ∀ e ∈ tr, P e.op := by
  induction h with
  | pure a s => exact fun e he => absurd he List.not_mem_nil
  | call _ _ ih =>
    intro e he
    rcases List.mem_cons.mp he with rfl | he
    · exact hp.1
    · exact ih (hp.2 _) e he

/-- Every reply in a run is one that the world has given. -/
theorem Runs.act_of_mem (h : Runs act p s tr a s') : ∀ e ∈ tr, ∃ s₁ s₂, act e.op s₁ e.reply s₂ := by
  induction h with
  | pure a s => exact fun e he => absurd he List.not_mem_nil
  | call hact _ ih =>
    intro e he
    rcases List.mem_cons.mp he with rfl | he
    · exact ⟨_, _, hact⟩
    · exact ih e he

/-- A weakest precondition is a statement about every run. -/
theorem wp_runs {C : Contract S σ} {Q : α → σ → Prop} (hp : wp C p Q s)
    (h : Runs C.post p s tr a s') : Q a s' := by
  induction h with
  | pure a s => exact hp
  | call h _ ih => exact ih (hp.2 _ _ h)

/-- The frame rule for runs. -/
theorem Runs.keeps (hI : ∀ op s r s', P op → I s → act op s r s' → I s') (hp : Issues P p)
    (h : Runs act p s tr a s') (hs : I s) : I s' := by
  have hwp : wp ⟨fun _ _ => True, act⟩ p (fun _ s' => I s') s :=
    wp_of_issues (fun op s hop hs => ⟨trivial, fun r s' hr => hI op s r s' hop hs hr⟩) hp hs
  exact wp_runs hwp h

/-- The operations and replies of a run against a deterministic world. -/
def trace (h : (op : S.Op) → σ → S.Reply op × σ) : Prog S α → σ → List (Event S)
  | .pure _, _ => []
  | .call op k, s => ⟨op, (h op s).1⟩ :: trace h (k (h op s).1) (h op s).2

/-- A deterministic world whose answers are possible ones gives a run. -/
theorem Runs.of_exec (hact : ∀ op s, act op s (h op s).1 (h op s).2) (p : Prog S α) (s : σ) :
    Runs act p s (trace h p s) (exec h p s).1 (exec h p s).2 := by
  induction p generalizing s with
  | pure a => exact .pure a s
  | call op k ih => exact .call (hact op s) (ih _ _)

/-- It is enough that the answers to the operations that the program issues are possible ones. -/
theorem Runs.of_exec_issues (hact : ∀ op s, P op → act op s (h op s).1 (h op s).2)
    (hp : Issues P p) (s : σ) : Runs act p s (trace h p s) (exec h p s).1 (exec h p s).2 := by
  induction p generalizing s with
  | pure a => exact .pure a s
  | call op k ih => exact .call (hact op s hp.1) (ih _ (hp.2 _) _)

/-- What holds of every answer of a deterministic world holds of the events of its traces. -/
theorem forall_mem_trace {P : Event S → Prop} (hP : ∀ op s, P ⟨op, (h op s).1⟩) (p : Prog S α)
    (s : σ) : ∀ e ∈ trace h p s, P e := by
  induction p generalizing s with
  | pure a => exact fun e he => absurd he List.not_mem_nil
  | call op k ih =>
    intro e he
    rcases List.mem_cons.mp he with rfl | he
    · exact hP op s
    · exact ih _ _ e he

end Runs

/-! ### Code that can panic -/

variable {act : (op : S.Op) → σ → S.Reply op → σ → Prop}

section Panics
variable {C : Contract S σ} {h : (op : S.Op) → σ → S.Reply op × σ}

/-- The rule of sequential composition, where a panic skips the rest. -/
theorem wp_bind_panic (p : OptionT (Prog S) α) (f : α → OptionT (Prog S) β)
    (Q : Option β → σ → Prop) (s : σ) :
    wp C (p >>= f).run Q s ↔
      wp C p.run (fun r s' => r.elim (Q none s') (fun a => wp C (f a).run Q s')) s := by
  refine (wp_bind p.run _ Q s).trans (iff_of_eq ?_)
  congr 1
  funext r s'
  cases r <;> rfl

/-- Code that cannot panic. -/
theorem wp_lift (p : Prog S α) (Q : Option α → σ → Prop) (s : σ) :
    wp C (monadLift p : OptionT (Prog S) α).run Q s ↔ wp C p (fun a => Q (some a)) s :=
  wp_bind p _ Q s

/-- The loop rule: what every round keeps is kept, with or without a panic. -/
theorem wp_forM_panic {f : ι → OptionT (Prog S) PUnit} {l : List ι}
    (hstep : ∀ s, ∀ x ∈ l, I s → wp C (f x).run (fun _ => I) s) (hs : I s) :
    wp C (l.forM f).run (fun _ => I) s := by
  induction l generalizing s with
  | nil => exact hs
  | cons x l ih =>
    rw [List.forM_eq_forM, List.forM_cons, wp_bind_panic]
    refine wp_mono (fun r s' hI => ?_) (hstep s x List.mem_cons_self hs)
    cases r with
    | none => exact hI
    | some _ => exact ih (fun s y hy => hstep s y (List.mem_cons_of_mem _ hy)) hI

theorem exec_bind_panic (p : OptionT (Prog S) α) (f : α → OptionT (Prog S) β) (s : σ) :
    exec h (p >>= f).run s = (exec h p.run s).1.elim (none, (exec h p.run s).2)
      (fun a => exec h (f a).run (exec h p.run s).2) := by
  refine (exec_bind h p.run _ s).trans ?_
  cases (exec h p.run s).1 <;> rfl

theorem exec_lift (p : Prog S α) (s : σ) :
    exec h (monadLift p : OptionT (Prog S) α).run s = (some (exec h p s).1, (exec h p s).2) :=
  exec_bind h p _ s

/-- Something is done for every item, up to the first panic. -/
def untilPanic {ι : Type} (g : ι → σ → Option Unit × σ) : List ι → σ → Option Unit × σ
  | [], s => (some (), s)
  | i :: rest, s => (g i s).1.elim (none, (g i s).2) (fun _ => untilPanic g rest (g i s).2)

/-- Code that cannot panic runs, and then the rest. -/
theorem Runs.exists_bind_lift {f : α → OptionT (Prog S) β} {b : Option β}
    (hp : Runs act p s tr a s') (hf : ∃ tr', Runs act (f a).run s' tr' b s'') :
    ∃ tr, Runs act (monadLift p >>= f : OptionT (Prog S) β).run s tr b s'' :=
  Runs.exists_bind (p := (monadLift p : OptionT (Prog S) α).run)
    (hp.bind (.pure (some a) s')) hf

/-- A loop of programs runs them up to the first panic. -/
theorem Runs.forM_panic {f : ι → OptionT (Prog S) Unit} {g : ι → σ → Option Unit × σ}
    (h : ∀ i s, ∃ tr, Runs act (f i).run s tr (g i s).1 (g i s).2) (l : List ι) (s : σ) :
    ∃ tr, Runs act (l.forM f).run s tr (untilPanic g l s).1 (untilPanic g l s).2 := by
  induction l generalizing s with
  | nil => exact ⟨[], .pure (some ()) s⟩
  | cons i rest ih =>
    obtain ⟨tr, hfirst⟩ := h i s
    refine Runs.exists_bind (p := (f i).run) hfirst ?_
    unfold untilPanic
    cases (g i s).1 with
    | none => exact ⟨[], .pure none _⟩
    | some _ => exact ih (g i s).2

/-- What every item keeps is kept. -/
theorem untilPanic_keeps {g : ι → σ → Option Unit × σ} {l : List ι}
    (hstep : ∀ i ∈ l, ∀ s, I s → I (g i s).2) (hs : I s) : I (untilPanic g l s).2 := by
  induction l generalizing s with
  | nil => exact hs
  | cons i rest ih =>
    have hfirst := hstep i List.mem_cons_self s hs
    unfold untilPanic
    cases (g i s).1 with
    | none => exact hfirst
    | some _ => exact ih (fun j hj => hstep j (List.mem_cons_of_mem _ hj)) hfirst

theorem untilPanic_append (g : ι → σ → Option Unit × σ) (l l' : List ι) (s : σ) :
    untilPanic g (l ++ l') s = (untilPanic g l s).1.elim (none, (untilPanic g l s).2)
      (fun _ => untilPanic g l' (untilPanic g l s).2) := by
  induction l generalizing s with
  | nil => rfl
  | cons i rest ih =>
    rw [List.cons_append, untilPanic, untilPanic]
    cases (g i s).1 with
    | none => rfl
    | some _ => exact ih (g i s).2

/-- A loop over the items of every key is a loop of loops. -/
theorem untilPanic_flatMap (g : ι → σ → Option Unit × σ) (f : κ → List ι) (l : List κ) (s : σ) :
    untilPanic g (l.flatMap f) s = untilPanic (fun k => untilPanic g (f k)) l s
    := by
  induction l generalizing s with
  | nil => rfl
  | cons k rest ih =>
    rw [List.flatMap_cons, untilPanic_append, untilPanic]
    cases (untilPanic g (f k) s).1 with
    | none => rfl
    | some _ => exact ih (untilPanic g (f k) s).2

theorem untilPanic_map (g : ι → σ → Option Unit × σ) (f : κ → ι) (l : List κ) (s : σ) :
    untilPanic g (l.map f) s = untilPanic (fun k => g (f k)) l s := by
  induction l generalizing s with
  | nil => rfl
  | cons k rest ih =>
    rw [List.map_cons, untilPanic, untilPanic]
    cases (g (f k) s).1 with
    | none => rfl
    | some _ => exact ih (g (f k) s).2

/-- Without a panic it is a fold. -/
theorem untilPanic_eq_foldl {g : ι → σ → Option Unit × σ} {l : List ι}
    (hstep : ∀ i ∈ l, ∀ s, I s → (g i s).1 = some () ∧ I (g i s).2) (hs : I s) :
    untilPanic g l s = (some (), l.foldl (fun s i => (g i s).2) s) := by
  induction l generalizing s with
  | nil => rfl
  | cons i rest ih =>
    obtain ⟨hreturns, hI⟩ := hstep i List.mem_cons_self s hs
    rw [untilPanic, hreturns]
    exact ih (fun j hj => hstep j (List.mem_cons_of_mem _ hj)) hI

/-- Items that change nothing change nothing together. -/
theorem untilPanic_idle {g : ι → σ → Option Unit × σ} {l : List ι}
    (h : ∀ i ∈ l, g i s = (some (), s)) : untilPanic g l s = (some (), s) := by
  induction l with
  | nil => rfl
  | cons i rest ih =>
    unfold untilPanic
    rw [h i List.mem_cons_self]
    exact ih (fun j hj => h j (List.mem_cons_of_mem _ hj))

/-- If the loop returns, what each item brings about and the others keep holds in the end. -/
theorem untilPanic_reaches {g : ι → σ → Option Unit × σ} {R : ι → σ → Prop} {l : List ι}
    (hstep : ∀ i ∈ l, ∀ s, I s → I (g i s).2)
    (hreach : ∀ i ∈ l, ∀ s, I s → (g i s).1 = some () → R i (g i s).2)
    (hkeep : ∀ i ∈ l, ∀ j, ∀ s, I s → R j s → R j (g i s).2) (hs : I s)
    (hreturns : (untilPanic g l s).1 = some ()) : ∀ i ∈ l, R i (untilPanic g l s).2 := by
  induction l generalizing s with
  | nil => exact fun i hi => absurd hi List.not_mem_nil
  | cons first rest ih =>
    have hI := hstep first List.mem_cons_self s hs
    unfold untilPanic at hreturns ⊢
    cases hfirst : (g first s).1 with
    | none =>
      rw [hfirst] at hreturns
      exact absurd hreturns (by simp)
    | some _ =>
      rw [hfirst] at hreturns
      have hrest := ih (fun j hj => hstep j (List.mem_cons_of_mem _ hj))
        (fun j hj => hreach j (List.mem_cons_of_mem _ hj))
        (fun j hj => hkeep j (List.mem_cons_of_mem _ hj)) hI hreturns
      intro i hi
      rcases List.mem_cons.mp hi with rfl | hi
      · -- brought about by the first item, and kept by all others
        have hR := hreach i List.mem_cons_self s hs hfirst
        exact (untilPanic_keeps (I := fun t => I t ∧ R i t) (fun j hj t ht =>
          ⟨hstep j (List.mem_cons_of_mem _ hj) t ht.1,
            hkeep j (List.mem_cons_of_mem _ hj) i t ht.1 ht.2⟩) ⟨hI, hR⟩).2
      · exact hrest i hi

end Panics

/-! ### Traces -/

/-- `Unfolds p tr q`: issuing the operations of `tr` and getting its replies, `p`
    has become `q`. -/
inductive Unfolds : Prog S α → List (Event S) → Prog S α → Prop
  | nil (p : Prog S α) : Unfolds p [] p
  | snoc {p : Prog S α} {tr : List (Event S)} {op : S.Op} {k : S.Reply op → Prog S α}
      (h : Unfolds p tr (.call op k)) (r : S.Reply op) : Unfolds p (tr ++ [⟨op, r⟩]) (k r)

variable {q : Prog S α}

theorem Unfolds.cons {k : S.Reply op → Prog S α} {r : S.Reply op} (h : Unfolds (k r) tr q) :
    Unfolds (.call op k) (⟨op, r⟩ :: tr) q := by
  induction h with
  | nil => exact Unfolds.snoc (.nil (.call op k)) r
  | snoc _ r' ih => exact Unfolds.snoc ih r'

/-- A run unfolds the program to its result. -/
theorem Runs.unfolds (h : Runs act p s tr a s') : Unfolds p tr (.pure a) := by
  induction h with
  | pure a s => exact .nil _
  | call _ _ ih => exact Unfolds.cons ih

/-! ### Runs with their states -/

/-- `Visits act p s ts a`: the program can run from `s`, returning `a`; `ts` is what it issued,
    each operation with the state after it. -/
inductive Visits (act : (op : S.Op) → σ → S.Reply op → σ → Prop) :
    Prog S α → σ → List (Event S × σ) → α → Prop
  | pure (a : α) (s : σ) : Visits act (.pure a) s [] a
  | call {op : S.Op} {k : S.Reply op → Prog S α} {s s' : σ} {r : S.Reply op}
      {ts : List (Event S × σ)} {a : α} (h : act op s r s') (hk : Visits act (k r) s' ts a) :
      Visits act (.call op k) s ((⟨op, r⟩, s') :: ts) a

section Visits
variable {act : (op : S.Op) → σ → S.Reply op → σ → Prop} {p : Prog S α} {s : σ}
  {ts : List (Event S × σ)} {a : α}

theorem Visits.unfolds (h : Visits act p s ts a) :
    Unfolds p (ts.map Prod.fst) (.pure a) := by
  induction h with
  | pure a s => exact .nil _
  | call _ _ ih => exact Unfolds.cons ih

/-- Every state in a run is one that the world has moved to. -/
theorem Visits.act_of_mem (h : Visits act p s ts a) :
    ∀ x ∈ ts, ∃ s₁, act x.1.op s₁ x.1.reply x.2 := by
  induction h with
  | pure a s => exact fun x hx => absurd hx List.not_mem_nil
  | call hact _ ih =>
    intro x hx
    rcases List.mem_cons.mp hx with rfl | hx
    · exact ⟨_, hact⟩
    · exact ih x hx

/-- A transitive relation that every operation respects holds between the states of a run, from
    its start on. -/
theorem Visits.pairwise {R : σ → σ → Prop} (htrans : ∀ {s₁ s₂ s₃}, R s₁ s₂ → R s₂ s₃ → R s₁ s₃)
    (hR : ∀ {op s r s'}, act op s r s' → R s s') (h : Visits act p s ts a) :
    (∀ x ∈ ts, R s x.2) ∧ ts.Pairwise (fun x y => R x.2 y.2) := by
  induction h with
  | pure a s => exact ⟨fun x hx => absurd hx List.not_mem_nil, .nil⟩
  | call hact _ ih =>
    obtain ⟨hlater, hpairs⟩ := ih
    refine ⟨fun x hx => ?_, List.pairwise_cons.mpr ⟨hlater, hpairs⟩⟩
    rcases List.mem_cons.mp hx with rfl | hx
    · exact hR hact
    · exact htrans (hR hact) (hlater x hx)

end Visits

/-! ### Contracts over traces -/

/-- The contract over the program's own trace: `φ` says when an operation may be
    issued, `V` which replies can occur at all. -/
def traceContract (φ : List (Event S) → S.Op → Prop) (V : Event S → Prop) :
    Contract S (List (Event S)) where
  pre op tr := φ tr op
  post op tr r tr' := V ⟨op, r⟩ ∧ tr' = tr ++ [⟨op, r⟩]

variable {φ : List (Event S) → S.Op → Prop} {V : Event S → Prop} {Q : α → List (Event S) → Prop}

/-- A trace contract may be weakened. -/
theorem wp_traceContract_mono {φ' : List (Event S) → S.Op → Prop}
    (hφ : ∀ tr op, φ tr op → φ' tr op) (hp : wp (traceContract φ V) p Q tr) :
    wp (traceContract φ' V) p Q tr := by
  induction p generalizing tr with
  | pure a => exact hp
  | call op k ih => exact ⟨hφ tr op hp.1, fun r tr' hr => ih r (hp.2 r tr' hr)⟩

/-- A trace contract proved of a program holds of whatever is left of it. -/
theorem wp_unfolds (hp : wp (traceContract φ V) p Q []) (hu : Unfolds p tr q) (hV : ∀ e ∈ tr, V e) :
    wp (traceContract φ V) q Q tr := by
  induction hu with
  | nil => exact hp
  | snoc h r ih =>
    have hcall := ih (fun e he => hV e (List.mem_append_left _ he))
    exact hcall.2 r _ ⟨hV _ (List.mem_append_right _ (List.mem_singleton.mpr rfl)), rfl⟩

/-- In particular every operation it still issues is permitted by its trace. -/
theorem pre_of_unfolds {k : S.Reply op → Prog S α} (hp : wp (traceContract φ V) p Q [])
    (hu : Unfolds p tr (.call op k)) (hV : ∀ e ∈ tr, V e) : φ tr op :=
  (wp_unfolds hp hu hV).1

/-- And every operation in its trace was permitted when it was issued. -/
theorem pre_of_mem_unfolds (hp : wp (traceContract φ V) p Q []) (hu : Unfolds p tr q)
    (hV : ∀ e ∈ tr, V e) {tr₁ tr₂ : List (Event S)} {e : Event S} (he : tr = tr₁ ++ e :: tr₂) :
    φ tr₁ e.op := by
  induction hu generalizing tr₂ with
  | nil => exact absurd he (by simp)
  | @snoc tr op k h r ih =>
    rcases List.eq_nil_or_concat tr₂ with rfl | ⟨init, last, rfl⟩
    · obtain ⟨rfl, heq⟩ := List.append_inj' he rfl
      obtain ⟨rfl, -⟩ := List.cons.inj heq
      exact pre_of_unfolds hp h (fun e he => hV e (List.mem_append_left _ he))
    · rw [List.concat_eq_append, ← List.cons_append, ← List.append_assoc] at he
      obtain ⟨rfl, -⟩ := List.append_inj' he rfl
      exact ih (fun e he => hV e (List.mem_append_left _ he)) rfl

end Interaction
