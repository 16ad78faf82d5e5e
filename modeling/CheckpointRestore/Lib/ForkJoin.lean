import CheckpointRestore.Lib.Prog

namespace Interaction

/-!
# Fork and join

A parent starts programs one after the other and waits until all of them have returned; those that
have been started take their steps in any order, over shared state.

* `Joins` — the runs of such a group;
* `Emits` — the complete traces of one program;
* `Joins.parts` — its trace is a shuffle of one trace of each program;
* `Joins.foldl` — what the steps do to a part of the state, read off the trace;
* `Joins.keeps` — the frame rule;
* `Joins.first`, `Joins.inTurn` — programs may run one after the other.
-/

variable {S : Signature} {σ τ : Type}

/-- The programs of `todo` still have to be started; those of `running` take steps in any order. -/
inductive Joins (act : (op : S.Op) → σ → S.Reply op → σ → Prop) :
    List (Prog S Unit) → List (Prog S Unit) → σ → List (Event S) → σ → Prop
  | done {running : List (Prog S Unit)} {s : σ} (h : ∀ p ∈ running, p = .pure ()) :
      Joins act [] running s [] s
  | spawn {p : Prog S Unit} {todo running : List (Prog S Unit)} {s s' : σ} {tr : List (Event S)}
      (h : Joins act todo (running ++ [p]) s tr s') : Joins act (p :: todo) running s tr s'
  | step {todo before after : List (Prog S Unit)} {op : S.Op} {k : S.Reply op → Prog S Unit}
      {s s₁ s' : σ} {r : S.Reply op} {tr : List (Event S)} (hact : act op s r s₁)
      (h : Joins act todo (before ++ k r :: after) s₁ tr s') :
      Joins act todo (before ++ .call op k :: after) s (⟨op, r⟩ :: tr) s'

/-- A complete trace of a program, whatever its operations do. -/
def Emits (p : Prog S Unit) (tr : List (Event S)) : Prop :=
  Runs (fun _ (_ : Unit) _ _ => True) p () tr () ()

section Joins
variable {act : (op : S.Op) → σ → S.Reply op → σ → Prop} {todo running : List (Prog S Unit)}
  {s s' : σ} {tr : List (Event S)}

/-- Every program has a trace of its own, from its start to its return, and the trace of the group
    is made of these. -/
theorem Joins.parts (h : Joins act todo running s tr s') :
    ∃ parts : List (Prog S Unit × List (Event S)), parts.map Prod.fst = running ++ todo ∧
      (∀ part ∈ parts, Emits part.1 part.2) ∧ tr.Perm (parts.flatMap Prod.snd) := by
  induction h with
  -- read backwards: at the end every program has returned and emitted nothing more
  | @done running s h =>
    refine ⟨running.map (fun p => (p, [])), by simp [Function.comp_def], ?_, ?_⟩
    · intro part hpart
      obtain ⟨p, hp, rfl⟩ := List.mem_map.mp hpart
      rw [h p hp]
      exact .pure () ()
    · simp [List.flatMap_map]
  | spawn _ ih =>
    rw [List.append_assoc, List.singleton_append] at ih
    exact ih
  | @step todo before after op k s s₁ s' r tr hact _ ih =>
    obtain ⟨parts, hprograms, hparts, hperm⟩ := ih
    rw [List.append_assoc, List.cons_append] at hprograms
    -- the program that made the step gets its event in front of what it emits later
    obtain ⟨parts₁, rest, rfl, rfl, hrest⟩ := List.map_eq_append_iff.mp hprograms
    obtain ⟨⟨p, t⟩, parts₂, rfl, hp, hafter⟩ := List.map_eq_cons_iff.mp hrest
    subst hp
    have hfirst : Emits (k r) t := hparts (k r, t) (by simp)
    refine ⟨parts₁ ++ (.call op k, ⟨op, r⟩ :: t) :: parts₂, by simp [hafter], ?_, ?_⟩
    · intro part hpart
      rcases List.mem_append.mp hpart with hpart | hpart
      · exact hparts part (List.mem_append_left _ hpart)
      · rcases List.mem_cons.mp hpart with rfl | hpart
        · exact .call trivial hfirst
        · exact hparts part (by simp [hpart])
    · simp only [List.flatMap_append, List.flatMap_cons, List.cons_append] at hperm ⊢
      exact (hperm.cons _).trans List.perm_middle.symm

/-- A part of the state that every step changes by its event. -/
theorem Joins.foldl {f : σ → τ} {g : τ → Event S → τ}
    (hf : ∀ op s r s', act op s r s' → f s' = g (f s) ⟨op, r⟩)
    (h : Joins act todo running s tr s') : f s' = tr.foldl g (f s) := by
  induction h with
  | done _ => rfl
  | spawn _ ih => exact ih
  | step hact _ ih => rw [ih, List.foldl_cons, hf _ _ _ _ hact]

/-- The frame rule. -/
theorem Joins.keeps {I : σ → Prop} (hI : ∀ op s r s', I s → act op s r s' → I s')
    (h : Joins act todo running s tr s') (hs : I s) : I s' := by
  induction h with
  | done _ => exact hs
  | spawn _ ih => exact ih hs
  | step hact _ ih => exact ih (hI _ _ _ _ hs hact)

/-- The next program may run to its end before any other takes a step. -/
theorem Joins.first {p : Prog S Unit} {s₁ : σ} {tr' : List (Event S)} {a : Unit}
    (hp : Runs act p s tr a s₁) (h : Joins act todo (running ++ [.pure ()]) s₁ tr' s') :
    Joins act (p :: todo) running s (tr ++ tr') s' := by
  refine .spawn ?_
  induction hp with
  | pure a s => exact h
  | call hact _ ih => exact .step hact (ih h)

/-- The programs run one after the other, in a deterministic world. -/
def inTurn (h : (op : S.Op) → σ → S.Reply op × σ) : List (Prog S Unit) → σ → List (Event S) × σ
  | [], s => ([], s)
  | p :: ps, s =>
    let (tr, s') := inTurn h ps (exec h p s).2
    (trace h p s ++ tr, s')

theorem Joins.inTurn {h : (op : S.Op) → σ → S.Reply op × σ}
    (hact : ∀ op s, act op s (h op s).1 (h op s).2) (ps : List (Prog S Unit))
    {running : List (Prog S Unit)} (hrunning : ∀ p ∈ running, p = .pure ()) (s : σ) :
    Joins act ps running s (Interaction.inTurn h ps s).1 (Interaction.inTurn h ps s).2 := by
  induction ps generalizing running s with
  | nil => exact .done hrunning
  | cons p ps ih =>
    have hreturned : ∀ q ∈ running ++ [Prog.pure ()], q = .pure () := by
      intro q hq
      rcases List.mem_append.mp hq with hq | hq
      · exact hrunning q hq
      · exact List.mem_singleton.mp hq
    exact Joins.first (Runs.of_exec hact p s) (ih hreturned _)

end Joins

end Interaction
