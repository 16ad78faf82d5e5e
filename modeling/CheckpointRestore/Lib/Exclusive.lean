import CheckpointRestore.Lib.Pool

namespace Interaction

/-!
# Interaction programs — one program at a time for each key

Programs that belong to keys run in a pool, among others, such that a key has one program at a
time.  What a key's program works on is the key's *view* of the shared state: the program is
proved by itself, with a contract over the view, and the pool keeps what the proof needs.

* `Keyed` — programs by keys, their contracts, and what holds of a view at rest;
* `Keyed.Guarded` — what is to be shown of the programs and of the world, once and for all; other
  parties may change a view as far as the key's contract does not notice (`Contract.Yields`);
* `Keyed.Guarded.inv` — at every time a key is at rest, or its program is on its proved way;
* `Keyed.Sound` — the same where other parties leave the view of a busy key alone;
* `Keyed.Sound.returned` — when a program of a key returns, its postcondition holds.
-/

variable {S : Signature} {α σ κ V : Type}

/-- The first operation of a thread, past or to come. -/
def Thread.first (t : Thread S α) : Option S.Op :=
  match t.trace, t.prog with
  | e :: _, _ => some e.op
  | [], .call op _ => some op
  | [], .pure _ => none

/-- The thread has returned. -/
def Thread.Done (t : Thread S α) : Prop := ∃ x, t.prog = .pure x

variable {tr : List (Event S)} {op : S.Op}

theorem Thread.not_done_call {k : S.Reply op → Prog S α} :
    ¬ (⟨tr, .call op k⟩ : Thread S α).Done := by
  rintro ⟨x, hx⟩
  exact absurd hx (by simp)

/-- A step does not change what came first. -/
theorem Thread.first_step (tr : List (Event S)) (k : S.Reply op → Prog S α) (r : S.Reply op) :
    (⟨tr ++ [⟨op, r⟩], k r⟩ : Thread S α).first = (⟨tr, .call op k⟩ : Thread S α).first := by
  cases tr with
  | nil => rfl
  | cons e tr => rfl

/-- A contract over a view, with the program's trace beside the view. -/
def traced (C : Contract S V) : Contract S (List (Event S) × V) where
  pre op x := C.pre op x.2
  post op x r y := C.post op x.2 r y.2 ∧ y.1 = x.1 ++ [⟨op, r⟩]

variable {p : Prog S α} {v : V}

/-- A result that does not speak of the trace is proved without it. -/
theorem wp_traced {C : Contract S V} {Q : α → List (Event S) × V → Prop} (tr : List (Event S))
    (h : wp C p (fun x v' => ∀ tr', Q x (tr', v')) v) : wp (traced C) p Q (tr, v) := by
  induction p generalizing tr v with
  | pure x => exact h tr
  | call op k ih =>
    refine ⟨h.1, fun r y hy => ?_⟩
    exact ih r y.1 (h.2 r y.2 hy.1)

/-- A state may give way to another one under a program's feet: what the contract permits there it
    permits here, and what can come of it here can come of it there. -/
structure Contract.Yields (C : Contract S V) (v v' : V) : Prop where
  pre : ∀ op, C.pre op v → C.pre op v'
  post : ∀ op r w, C.post op v' r w → C.post op v r w

theorem Contract.Yields.refl (C : Contract S V) (v : V) : C.Yields v v :=
  ⟨fun _ h => h, fun _ _ _ h => h⟩

variable {v' : V}

/-- What a program that has not returned owes, it owes in the state that came instead. -/
theorem Contract.Yields.wp {C : Contract S V} (h : C.Yields v v') {k : S.Reply op → Prog S α}
    {Q : α → List (Event S) × V → Prop} (hwp : wp (traced C) (.call op k) Q (tr, v)) :
    wp (traced C) (.call op k) Q (tr, v') :=
  ⟨h.pre op hwp.1, fun r y hy => hwp.2 r y ⟨h.post op r y.2 hy.1, hy.2⟩⟩

/-- Programs by keys.  `first` is the first operation of a key's program, `view` what the program
    works on, `rest` what holds of the view while no program of the key is under way, and `post`
    what holds when one returns. -/
structure Keyed (S : Signature) (α σ κ V : Type) where
  first : κ → S.Op
  prog : κ → Prog S α
  view : κ → σ → V
  contract : κ → Contract S V
  rest : κ → V → Prop
  post : κ → List (Event S) → α → V → Prop

/-- A program of the key is under way: it has issued an operation and has not returned. -/
def Keyed.Busy (K : Keyed S α σ κ V) (b : Pool S α σ) (key : κ) : Prop :=
  ∃ t ∈ b.threads, t.first = some (K.first key) ∧ t.trace ≠ [] ∧ ¬ t.Done

/-- What a program of the key still has to do. -/
def Keyed.Owes (K : Keyed S α σ κ V) (key : κ) (t : Thread S α) (v : V) : Prop :=
  wp (traced (K.contract key)) t.prog (fun x y => K.post key y.1 x y.2 ∧ K.rest key y.2)
    (t.trace, v)

/-- A view may change while a program of the key is under way, and while none is. -/
structure Keyed.Keeps (K : Keyed S α σ κ V) (key : κ) (v v' : V) : Prop where
  yields : (K.contract key).Yields v v'
  rest : K.rest key v → K.rest key v'

variable {key : κ}

theorem Keyed.Keeps.of_eq {K : Keyed S α σ κ V} (h : v' = v) : K.Keeps key v v' := by
  subst h
  exact ⟨.refl _ _, id⟩

/-- The programs meet their contracts from views at rest, and only one program of a key is started
    at a time. -/
structure Keyed.Starts (K : Keyed S α σ κ V) (W : World S α σ) : Prop where
  first_inj : ∀ key key', K.first key = K.first key' → key = key'
  first_prog : ∀ key, (⟨[], K.prog key⟩ : Thread S α).first = some (K.first key)
  spec : ∀ key v, K.rest key v → K.Owes key ⟨[], K.prog key⟩ v
  start : ∀ b p, W.start b p →
    (∃ key, p = K.prog key ∧ ∀ t ∈ b.threads, t.first = some (K.first key) → t.Done) ∨
    ∀ key, (⟨[], p⟩ : Thread S α).first ≠ some (K.first key)

/-- What is to be shown: an operation that a contract permits has the effect the contract says,
    which the other keys do not notice; and what everybody else does a key does not notice, or
    finds the key at rest and leaves it so.  `G` is an invariant of the shared state. -/
structure Keyed.Guarded (K : Keyed S α σ κ V) (W : World S α σ)
    (ok : Pool S α σ → Label S α → Prop) (G : σ → Prop) : Prop extends K.Starts W where
  act : ∀ (b : Pool S α σ) i key op r s', G b.shared → ok b (.act i ⟨op, r⟩) →
    (K.contract key).pre op (K.view key b.shared) → W.act op b.shared r s' →
    G s' ∧ (K.contract key).post op (K.view key b.shared) r (K.view key s') ∧
      ∀ key', key' ≠ key → K.Keeps key' (K.view key' b.shared) (K.view key' s')
  other : ∀ (b b₀ : Pool S α σ) p i tr op k r s', W.start b₀ p → Unfolds p tr (.call op k) →
    (∀ key, (⟨tr, .call op k⟩ : Thread S α).first ≠ some (K.first key)) → G b.shared →
    ok b (.act i ⟨op, r⟩) → W.act op b.shared r s' →
    G s' ∧ ∀ key, K.Keeps key (K.view key b.shared) (K.view key s') ∨ ¬ K.Busy b key ∧
      (K.rest key (K.view key b.shared) → K.rest key (K.view key s'))
  env : ∀ s s', G s → W.env s s' → G s' ∧ ∀ key, K.Keeps key (K.view key s) (K.view key s')

/-- The same where an operation has an effect on no view but the key's own, and what everybody else
    does leaves a view alone or finds it at rest and leaves it so. -/
structure Keyed.Sound (K : Keyed S α σ κ V) (W : World S α σ)
    (ok : Pool S α σ → Label S α → Prop) (G : σ → Prop) : Prop extends K.Starts W where
  act : ∀ key op s r s', G s → (K.contract key).pre op (K.view key s) → W.act op s r s' →
    G s' ∧ (K.contract key).post op (K.view key s) r (K.view key s') ∧
      ∀ key', key' ≠ key → K.view key' s' = K.view key' s
  other : ∀ (b b₀ : Pool S α σ) p i tr op k r s', W.start b₀ p → Unfolds p tr (.call op k) →
    (∀ key, (⟨tr, .call op k⟩ : Thread S α).first ≠ some (K.first key)) → G b.shared →
    ok b (.act i ⟨op, r⟩) → W.act op b.shared r s' →
    G s' ∧ ∀ key, K.view key s' = K.view key b.shared ∨ ¬ K.Busy b key ∧
      (K.rest key (K.view key b.shared) → K.rest key (K.view key s'))
  env : ∀ s s', G s → W.env s s' → G s' ∧ ∀ key, K.view key s' = K.view key s

/-- The invariant: a key that is not busy is at rest, a key has one unfinished program at most, and
    that one is on its way. -/
structure Keyed.Inv (K : Keyed S α σ κ V) (G : σ → Prop) (b : Pool S α σ) : Prop where
  shared : G b.shared
  resting : ∀ key, ¬ K.Busy b key → K.rest key (K.view key b.shared)
  alone : ∀ (i j : ℕ) t u key, b.threads[i]? = some t → b.threads[j]? = some u →
    t.first = some (K.first key) → u.first = some (K.first key) → ¬ t.Done → ¬ u.Done → i = j
  fresh : ∀ t ∈ b.threads, ∀ key, t.first = some (K.first key) → t.trace = [] → t.prog = K.prog key
  owes : ∀ t ∈ b.threads, ∀ key, t.first = some (K.first key) → t.trace ≠ [] → ¬ t.Done →
    K.Owes key t (K.view key b.shared)

variable {t : Thread S α} {i : ℕ} {s' : σ}

section Sound
variable {K : Keyed S α σ κ V} {W : World S α σ} {ok : Pool S α σ → Label S α → Prop}
  {G : σ → Prop} {a b c : Pool S α σ}

/-- A program that is under way does not notice what its view may give way to. -/
theorem Keyed.Keeps.owes (h : K.Keeps key v v') (hdone : ¬ t.Done) (howes : K.Owes key t v) :
    K.Owes key t v' := by
  obtain ⟨tr, p⟩ := t
  cases p with
  | pure x => exact absurd ⟨x, rfl⟩ hdone
  | call op k => exact h.yields.wp howes

/-- A step of a key's program is on its proved way, if the step has the effect that the contract
    says. -/
theorem Keyed.Inv.moves (hI : K.Inv G b)
    (hspec : ∀ key v, K.rest key v → K.Owes key ⟨[], K.prog key⟩ v) {k : S.Reply op → Prog S α}
    {r : S.Reply op} {P : Prop} (hi : b.threads[i]? = some ⟨tr, .call op k⟩)
    (hkey : (⟨tr, .call op k⟩ : Thread S α).first = some (K.first key))
    (hact : (K.contract key).pre op (K.view key b.shared) →
      (K.contract key).post op (K.view key b.shared) r (K.view key s') ∧ P) :
    K.Owes key ⟨tr ++ [⟨op, r⟩], k r⟩ (K.view key s') ∧ P := by
  have howes : K.Owes key ⟨tr, .call op k⟩ (K.view key b.shared) := by
    by_cases htr : tr = []
    · -- the program has not begun, and nobody else is under way for the key
      have hprog := hI.fresh _ (List.mem_of_getElem? hi) key hkey htr
      subst htr
      dsimp only at hprog
      rw [hprog]
      refine hspec key _ (hI.resting key ?_)
      rintro ⟨u, hu, hfirst, htrace, hdone⟩
      obtain ⟨j, hj⟩ := List.getElem?_of_mem hu
      obtain rfl := hI.alone i j _ u key hi hj hkey hfirst Thread.not_done_call hdone
      rw [hi] at hj
      exact htrace (congrArg Thread.trace (Option.some.inj hj)).symm
    · exact hI.owes _ (List.mem_of_getElem? hi) key hkey htr Thread.not_done_call
  obtain ⟨hpre, hrest⟩ := howes
  obtain ⟨hpost, hP⟩ := hact hpre
  refine ⟨?_, hP⟩
  exact hrest r (tr ++ [⟨op, r⟩], K.view key s') ⟨hpost, rfl⟩

/-- Whether a key is busy depends on its own threads. -/
theorem Keyed.busy_set {t' : Thread S α} (hi : b.threads[i]? = some t)
    (hfirst : t'.first = t.first) (hkey : t.first ≠ some (K.first key)) :
    K.Busy ⟨s', b.threads.set i t'⟩ key ↔ K.Busy b key := by
  constructor
  · rintro ⟨u, hu, hu₁, hu₂, hu₃⟩
    rcases mem_threads_set hu with rfl | ⟨j, -, hj⟩
    · exact absurd (hfirst ▸ hu₁) hkey
    · exact ⟨u, List.mem_of_getElem? hj, hu₁, hu₂, hu₃⟩
  · rintro ⟨u, hu, hu₁, hu₂, hu₃⟩
    obtain ⟨j, hj⟩ := List.getElem?_of_mem hu
    have hij : i ≠ j := by
      rintro rfl
      rw [hi] at hj
      exact hkey (Option.some.inj hj ▸ hu₁)
    refine ⟨u, List.mem_of_getElem? (i := j) ?_, hu₁, hu₂, hu₃⟩
    rw [List.getElem?_set_ne hij]
    exact hj

/-- A program is started. -/
theorem Keyed.Guarded.inv_spawn (h : K.Guarded W ok G) (hI : K.Inv G b) (hstart : W.start b p) :
    K.Inv G { b with threads := b.threads ++ [⟨[], p⟩] } := by
  have hnew : ∀ {j : ℕ} {u : Thread S α}, (b.threads ++ [⟨[], p⟩])[j]? = some u →
      b.threads[j]? = some u ∨ j = b.threads.length ∧ u = ⟨[], p⟩ := by
    intro j u hj
    rw [List.getElem?_append] at hj
    split_ifs at hj with hlt
    · exact .inl hj
    · rw [List.getElem?_singleton] at hj
      split_ifs at hj with hzero
      exact .inr ⟨by omega, (Option.some.inj hj).symm⟩
  -- a started program of a key finds the key's other programs done
  have halone : ∀ key, (⟨[], p⟩ : Thread S α).first = some (K.first key) →
      p = K.prog key ∧ ∀ t ∈ b.threads, t.first = some (K.first key) → t.Done := by
    intro key hkey
    rcases h.start b p hstart with ⟨key', rfl, hdone⟩ | hother
    · rw [h.first_prog] at hkey
      obtain rfl := h.first_inj _ _ (Option.some.inj hkey)
      exact ⟨rfl, hdone⟩
    · exact absurd hkey (hother key)
  refine ⟨hI.shared, fun key hidle => hI.resting key ?_, ?_, ?_, ?_⟩
  · rintro ⟨t, ht, hbusy⟩
    exact hidle ⟨t, List.mem_append_left _ ht, hbusy⟩
  · intro i j t u key hi hj ht hu htd hud
    rcases hnew hi with hi | ⟨rfl, rfl⟩ <;> rcases hnew hj with hj | ⟨rfl, rfl⟩
    · exact hI.alone i j t u key hi hj ht hu htd hud
    · exact absurd ((halone key hu).2 t (List.mem_of_getElem? hi) ht) htd
    · exact absurd ((halone key ht).2 u (List.mem_of_getElem? hj) hu) hud
    · rfl
  · intro t ht key hkey htrace
    rcases List.mem_append.mp ht with ht | ht
    · exact hI.fresh t ht key hkey htrace
    · obtain rfl := List.mem_singleton.mp ht
      exact (halone key hkey).1
  · intro t ht key hkey htrace hdone
    rcases List.mem_append.mp ht with ht | ht
    · exact hI.owes t ht key hkey htrace hdone
    · obtain rfl := List.mem_singleton.mp ht
      exact absurd rfl htrace

/-- A moved thread is still alone for its key. -/
theorem Keyed.Inv.alone_set (hI : K.Inv G b) {t' : Thread S α} (hi : b.threads[i]? = some t)
    (hfirst : t'.first = t.first) (htd : ¬ t.Done) :
    ∀ (j j' : ℕ) u u' key, (b.threads.set i t')[j]? = some u →
      (b.threads.set i t')[j']? = some u' → u.first = some (K.first key) →
      u'.first = some (K.first key) → ¬ u.Done → ¬ u'.Done → j = j' := by
  -- an unfinished thread after the step was unfinished before it
  have hbefore : ∀ (j : ℕ) u, (b.threads.set i t')[j]? = some u → ¬ u.Done →
      ∃ v, b.threads[j]? = some v ∧ v.first = u.first ∧ ¬ v.Done := by
    intro j u hj hud
    by_cases hij : i = j
    · subst hij
      rw [List.getElem?_set_self', hi] at hj
      obtain rfl := Option.some.inj hj
      exact ⟨t, hi, hfirst.symm, htd⟩
    · rw [List.getElem?_set_ne hij] at hj
      exact ⟨u, hj, rfl, hud⟩
  intro j j' u u' key hj hj' hu hu' hud hud'
  obtain ⟨v, hv, hvf, hvd⟩ := hbefore j u hj hud
  obtain ⟨v', hv', hvf', hvd'⟩ := hbefore j' u' hj' hud'
  exact hI.alone j j' v v' key hv hv' (hvf.trans hu) (hvf'.trans hu') hvd hvd'

/-- A program of a key moves. -/
theorem Keyed.Guarded.inv_act (h : K.Guarded W ok G) (hI : K.Inv G b) {k : S.Reply op → Prog S α}
    {r : S.Reply op} (hi : b.threads[i]? = some ⟨tr, .call op k⟩)
    (hkey : (⟨tr, .call op k⟩ : Thread S α).first = some (K.first key))
    (hok : ok b (.act i ⟨op, r⟩)) (hact : W.act op b.shared r s') :
    K.Inv G ⟨s', b.threads.set i ⟨tr ++ [⟨op, r⟩], k r⟩⟩ := by
  obtain ⟨howes, hG, hframe⟩ := hI.moves h.spec hi hkey (fun hpre =>
    and_left_comm.mp (h.act b i key op r s' hI.shared hok hpre hact))
  have hfirst := Thread.first_step tr k r
  have hlt : i < b.threads.length := (List.getElem?_eq_some_iff.mp hi).1
  refine ⟨hG, fun key' hidle => ?_, hI.alone_set hi hfirst Thread.not_done_call, ?_, ?_⟩
  · by_cases hkk : key' = key
    · -- the key's own program has returned
      subst hkk
      cases hkr : k r with
      | pure x =>
        rw [hkr] at howes
        exact howes.2
      | call op' k' =>
        refine absurd ⟨_, List.mem_of_getElem? (List.getElem?_set_self hlt), hfirst.trans hkey,
          by simp, ?_⟩ hidle
        rw [hkr]
        exact Thread.not_done_call
    · refine (hframe key' hkk).rest (hI.resting key' (fun hbusy =>
        hidle ((Keyed.busy_set hi hfirst ?_).mpr hbusy)))
      rw [hkey]
      exact fun heq => hkk (h.first_inj _ _ (Option.some.inj heq)).symm
  · intro t ht key' hkey' htrace
    rcases mem_threads_set ht with rfl | ⟨j, -, hj⟩
    · exact absurd htrace (by simp)
    · exact hI.fresh t (List.mem_of_getElem? hj) key' hkey' htrace
  · intro t ht key' hkey' htrace hdone
    rcases mem_threads_set ht with rfl | ⟨j, hji, hj⟩
    · rw [hfirst, hkey] at hkey'
      obtain rfl := h.first_inj _ _ (Option.some.inj hkey')
      exact howes
    · have hne : key' ≠ key := by
        rintro rfl
        exact hji (hI.alone j i t _ key' hj hi hkey' hkey hdone Thread.not_done_call)
      exact (hframe key' hne).owes hdone
        (hI.owes t (List.mem_of_getElem? hj) key' hkey' htrace hdone)

/-- Somebody else moves. -/
theorem Keyed.Guarded.inv_other (h : K.Guarded W ok G) (hI : K.Inv G b)
    {k : S.Reply op → Prog S α} {r : S.Reply op} {b₀ : Pool S α σ} (hstart : W.start b₀ p)
    (hu : Unfolds p tr (.call op k)) (hi : b.threads[i]? = some ⟨tr, .call op k⟩)
    (hother : ∀ key, (⟨tr, .call op k⟩ : Thread S α).first ≠ some (K.first key))
    (hok : ok b (.act i ⟨op, r⟩)) (hact : W.act op b.shared r s') :
    K.Inv G ⟨s', b.threads.set i ⟨tr ++ [⟨op, r⟩], k r⟩⟩ := by
  obtain ⟨hG, hviews⟩ := h.other b b₀ p i tr op k r s' hstart hu hother hI.shared hok hact
  have hfirst := Thread.first_step tr k r
  refine ⟨hG, fun key hidle => ?_, hI.alone_set hi hfirst Thread.not_done_call, ?_, ?_⟩
  · have hrest := hI.resting key
      (fun hbusy => hidle ((Keyed.busy_set hi hfirst (hother key)).mpr hbusy))
    rcases hviews key with hkeep | ⟨-, hkeep⟩
    · exact hkeep.rest hrest
    · exact hkeep hrest
  · intro t ht key hkey htrace
    rcases mem_threads_set ht with rfl | ⟨j, -, hj⟩
    · exact absurd htrace (by simp)
    · exact hI.fresh t (List.mem_of_getElem? hj) key hkey htrace
  · intro t ht key hkey htrace hdone
    rcases mem_threads_set ht with rfl | ⟨j, -, hj⟩
    · exact absurd (hfirst ▸ hkey) (hother key)
    · rcases hviews key with hkeep | ⟨hidle, -⟩
      · exact hkeep.owes hdone (hI.owes t (List.mem_of_getElem? hj) key hkey htrace hdone)
      · exact absurd ⟨t, List.mem_of_getElem? hj, hkey, htrace, hdone⟩ hidle

/-- **One at a time.**  In every reachable pool the invariant holds. -/
theorem Keyed.Guarded.inv (h : K.Guarded W ok G) (hr : Reaches W ok a b) (h0 : a.threads = [])
    (hG : G a.shared) (hrest : ∀ key, K.rest key (K.view key a.shared)) : K.Inv G b := by
  refine hr.invariant (I := K.Inv G) ?_ ?_
  · refine ⟨hG, fun key _ => hrest key, ?_, ?_, ?_⟩ <;> simp [h0]
  · intro b l c hreach hI hok hs
    cases hs with
    | spawn hst => exact h.inv_spawn hI hst
    | @act i tr op k r s' hi hact =>
      by_cases hkey : ∃ key, (⟨tr, .call op k⟩ : Thread S α).first = some (K.first key)
      · obtain ⟨key, hkey⟩ := hkey
        exact h.inv_act hI hi hkey hok hact
      · obtain ⟨p, ⟨b₀, hst⟩, hu⟩ := hreach.unfolds h0 (P := fun p => ∃ b₀, W.start b₀ p)
          (fun b₀ p hst => ⟨b₀, hst⟩) _ (List.mem_of_getElem? hi)
        exact h.inv_other hI hst hu hi (fun key heq => hkey ⟨key, heq⟩) hok hact
    | @env s' hs =>
      obtain ⟨hG', hviews⟩ := h.env b.shared s' hI.shared hs
      refine ⟨hG', fun key hidle => ?_, hI.alone, hI.fresh, fun t ht key hkey htr hd => ?_⟩
      · exact (hviews key).rest (hI.resting key hidle)
      · exact (hviews key).owes hd (hI.owes t ht key hkey htr hd)

/-- Where every view is left alone, no view is noticed to change. -/
theorem Keyed.Sound.guarded (h : K.Sound W ok G) : K.Guarded W ok G where
  toStarts := h.toStarts
  act b i key op r s' hG _ hpre hact := by
    obtain ⟨hG', hpost, hframe⟩ := h.act key op b.shared r s' hG hpre hact
    exact ⟨hG', hpost, fun key' hne => .of_eq (hframe key' hne)⟩
  other b b₀ p i tr op k r s' hstart hu hother hG hok hact := by
    obtain ⟨hG', hviews⟩ := h.other b b₀ p i tr op k r s' hstart hu hother hG hok hact
    exact ⟨hG', fun key => (hviews key).imp_left .of_eq⟩
  env s s' hG henv := by
    obtain ⟨hG', hviews⟩ := h.env s s' hG henv
    exact ⟨hG', fun key => .of_eq (hviews key)⟩

theorem Keyed.Sound.inv (h : K.Sound W ok G) (hr : Reaches W ok a b) (h0 : a.threads = [])
    (hG : G a.shared) (hrest : ∀ key, K.rest key (K.view key a.shared)) : K.Inv G b :=
  h.guarded.inv hr h0 hG hrest

/-- **A return.**  The step with which a program of a key returns leads to its postcondition. -/
theorem Keyed.Sound.returned (h : K.Sound W ok G) (hI : K.Inv G b) {e : Event S}
    (hs : Step W b (.act i e) c) {x : α} (hi : c.threads[i]? = some ⟨tr, .pure x⟩)
    (hkey : (⟨tr, .pure x⟩ : Thread S α).first = some (K.first key)) :
    K.post key tr x (K.view key c.shared) := by
  cases hs with
  | @act _ tr₀ op k r s' hi₀ hact =>
    have hlt : i < b.threads.length := (List.getElem?_eq_some_iff.mp hi₀).1
    dsimp only at hi
    rw [List.getElem?_set_self hlt] at hi
    have heq := Option.some.inj hi
    have hkey₀ : (⟨tr₀, .call op k⟩ : Thread S α).first = some (K.first key) := by
      rw [← Thread.first_step tr₀ k r, heq]
      exact hkey
    obtain ⟨howes, -⟩ := hI.moves h.spec hi₀ hkey₀ (fun hpre =>
      and_left_comm.mp (h.act key op b.shared r s' hI.shared hpre hact))
    rw [heq] at howes
    exact howes.1

/-- The state is reached, and every program that was started has returned. -/
def Rests (W : World S α σ) (ok : Pool S α σ → Label S α → Prop) (a : Pool S α σ) (s : σ) : Prop :=
  ∃ ts : List (Thread S α), (∀ t ∈ ts, t.Done) ∧ Reaches W ok a ⟨s, ts⟩

theorem Rests.refl (W : World S α σ) (ok : Pool S α σ → Label S α → Prop) (s : σ) :
    Rests W ok ⟨s, []⟩ s := ⟨[], by simp, .refl⟩

/-- One more program runs, all by itself. -/
theorem Rests.run {s : σ} (h : Rests W ok a s) {x : α} (hrun : Runs W.act p s tr x s')
    (hstart : ∀ ts, (∀ t ∈ ts, t.Done) → W.start ⟨s, ts⟩ p) (hspawn : ∀ b, ok b (.spawn p))
    (hok : ∀ b i, ∀ e ∈ tr, ok b (.act i e)) : Rests W ok a s' := by
  obtain ⟨ts, hts, hr⟩ := h
  refine ⟨ts ++ [⟨tr, .pure x⟩], fun t ht => ?_, ?_⟩
  · rcases List.mem_append.mp ht with ht | ht
    · exact hts t ht
    · rw [List.mem_singleton.mp ht]
      exact ⟨x, rfl⟩
  · have hlast := hr.step (hspawn _) (.spawn (hstart ts hts))
    have hmoved := Reaches.runEvents [] hrun (fun s q tr' e he => hok _ _ e he) hlast
    rwa [List.nil_append] at hmoved

/-- What is left of a program keeps the program's first operation. -/
theorem Unfolds.first {k : S.Reply op → Prog S α} {q : Prog S α} (h : Unfolds (.call op k) tr q) :
    (⟨tr, q⟩ : Thread S α).first = some op := by
  induction h with
  | nil => rfl
  | snoc _ r ih => exact (Thread.first_step _ _ r).trans ih

end Sound

end Interaction
