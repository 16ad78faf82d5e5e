import Mathlib.Data.List.AList

namespace Locks

/-!
# Lock tables — a lock for each key, kept while somebody uses it

A table of lock objects by key.  A user registers for a key, which creates the lock object if there
is none and counts the user; acquires and releases the object; and deregisters, which drops the
object with its last user.  Each of these is one atomic step, so users of one key can meet at any
of them.

* `LockTable` and its four operations;
* `Phase` — where a user is between the operations;
* `Inv` — the invariant: every user's object is the one in the table, counted and held as the
  users' phases say;
* `Inv.register` … `Inv.deregister` — each operation keeps it;
* `Inv.holding_unique` — at most one user of a key holds its lock.
-/

variable {κ : Type}

/-! ### Users -/

/-- Where a user is: not yet registered, waiting for the object, holding it, released but still
    registered, or gone. -/
inductive Phase (κ : Type) where
  | idle
  | waiting (key : κ) (l : ℕ)
  | holding (key : κ) (l : ℕ)
  | leaving (key : κ) (l : ℕ)
  | done
  deriving DecidableEq

namespace Phase

/-- The key a registered user is registered for, and the object it uses. -/
def uses : Phase κ → Option (κ × ℕ)
  | .waiting key l | .holding key l | .leaving key l => some (key, l)
  | _ => none

/-- The object that is held. -/
def holds : Phase κ → Option ℕ
  | .holding _ l => some l
  | _ => none

section Simp
variable (key : κ) (l : ℕ)

@[simp] theorem uses_idle : (idle : Phase κ).uses = none := rfl
@[simp] theorem uses_waiting : (waiting key l).uses = some (key, l) := rfl
@[simp] theorem uses_holding : (holding key l).uses = some (key, l) := rfl
@[simp] theorem uses_leaving : (leaving key l).uses = some (key, l) := rfl
@[simp] theorem uses_done : (done : Phase κ).uses = none := rfl
@[simp] theorem holds_idle : (idle : Phase κ).holds = none := rfl
@[simp] theorem holds_waiting : (waiting key l).holds = none := rfl
@[simp] theorem holds_holding : (holding key l).holds = some l := rfl
@[simp] theorem holds_leaving : (leaving key l).holds = none := rfl
@[simp] theorem holds_done : (done : Phase κ).holds = none := rfl

end Simp

end Phase

/-! ### The table -/

variable [DecidableEq κ]

/-- A lock object: how many users are registered, and whether it is held. -/
structure LockObject where
  refs : ℤ
  held : Bool

/-- The table: the object of a key, and all objects there have been. -/
structure LockTable (κ : Type) where
  locks : AList (fun _ : κ => ℕ)
  objects : List LockObject

namespace LockTable

/-- The table without entries. -/
def empty : LockTable κ := ⟨∅, []⟩

/-- Count a user of the key, with a new object if there is none. -/
def register (t : LockTable κ) (key : κ) : LockTable κ × ℕ :=
  match t.locks.lookup key with
  | some l =>
    ({ t with objects := t.objects.modify l (fun o => { o with refs := o.refs + 1 }) }, l)
  | none =>
    ({ locks := t.locks.insert key t.objects.length, objects := t.objects ++ [⟨1, false⟩] },
      t.objects.length)

/-- The object is free. -/
def Free (t : LockTable κ) (l : ℕ) : Prop := ∃ o, t.objects[l]? = some o ∧ o.held = false

/-- Hold or free the object. -/
def setHeld (t : LockTable κ) (l : ℕ) (held : Bool) : LockTable κ :=
  { t with objects := t.objects.modify l (fun o => { o with held := held }) }

/-- Discount a user, and drop the entry of the key with the last one. -/
def deregister (t : LockTable κ) (key : κ) (l : ℕ) : LockTable κ where
  locks := if t.objects[l]?.any (fun o => o.refs - 1 == 0) then t.locks.erase key else t.locks
  objects := t.objects.modify l (fun o => { o with refs := o.refs - 1 })

end LockTable

/-! ### The invariant -/

namespace LockTable

/-- The table fits its users. -/
structure Inv (t : LockTable κ) (users : List (Phase κ)) : Prop where
  /-- Every registered user uses the object in the table. -/
  entry : ∀ u ∈ users, ∀ key l, u.uses = some (key, l) → t.locks.lookup key = some l
  /-- An object in the table counts its users, and there are some. -/
  refs : ∀ key l, t.locks.lookup key = some l → ∃ o, t.objects[l]? = some o ∧
    o.refs = users.countP (fun u => u.uses = some (key, l)) ∧
    0 < users.countP (fun u => u.uses = some (key, l))
  /-- Different keys have different objects. -/
  inj : ∀ key key' l, t.locks.lookup key = some l → t.locks.lookup key' = some l → key = key'
  /-- An object is held by one user or by none. -/
  held : ∀ l o, t.objects[l]? = some o →
    users.countP (fun u => u.holds = some l) = if o.held then 1 else 0

end LockTable

/-- Counting after one element has changed. -/
theorem countP_set_add {α : Type} (p : α → Bool) {l : List α} {i : ℕ} {x : α}
    (h : l[i]? = some x) (y : α) :
    (l.set i y).countP p + (if p x then 1 else 0) = l.countP p + if p y then 1 else 0 := by
  induction l generalizing i with
  | nil => exact absurd h (by simp)
  | cons a l ih =>
    cases i with
    | zero =>
      obtain rfl : a = x := by simpa using h
      simp only [List.set_cons_zero, List.countP_cons]
      omega
    | succ i =>
      have hrest := ih (by simpa using h)
      simp only [List.set_cons_succ, List.countP_cons]
      omega

/-- What a change of one object does to the list of them. -/
theorem getElem?_modify_eq_some {f : LockObject → LockObject} {objects : List LockObject}
    {l l' : ℕ} {o : LockObject} (h : (objects.modify l f)[l']? = some o) :
    ∃ o', objects[l']? = some o' ∧ o = if l = l' then f o' else o' := by
  rw [List.getElem?_modify] at h
  obtain ⟨o', ho', rfl⟩ := Option.map_eq_some_iff.mp h
  exact ⟨o', ho', rfl⟩

/-- A change that does not hold or free an object. -/
theorem held_modify {f : LockObject → LockObject} (hf : ∀ o, (f o).held = o.held)
    {objects : List LockObject} {l l' : ℕ} {o : LockObject}
    (h : (objects.modify l f)[l']? = some o) :
    ∃ o', objects[l']? = some o' ∧ o.held = o'.held := by
  obtain ⟨o', ho', rfl⟩ := getElem?_modify_eq_some h
  refine ⟨o', ho', ?_⟩
  split
  · exact hf o'
  · rfl

namespace LockTable

section Steps
variable {t : LockTable κ} {users : List (Phase κ)} {i l : ℕ} {key : κ}

theorem inv_empty : Inv (empty : LockTable κ) [] where
  entry := by simp
  refs := by simp [empty]
  inj := by simp [empty]
  held := by simp [empty]

/-- A user that has not registered does not matter. -/
theorem Inv.spawn (h : Inv t users) : Inv t (users ++ [.idle]) where
  entry u hu key l huses := by
    rcases List.mem_append.mp hu with hu | hu
    · exact h.entry u hu key l huses
    · obtain rfl := List.mem_singleton.mp hu
      exact absurd huses (by simp)
  refs key l hl := by simpa using h.refs key l hl
  inj := h.inj
  held l o ho := by simpa using h.held l o ho

/-- The object a registered user uses. -/
theorem Inv.object (h : Inv t users) {u : Phase κ} (hu : u ∈ users)
    (huses : u.uses = some (key, l)) : ∃ o, t.objects[l]? = some o := by
  obtain ⟨o, ho, -⟩ := h.refs key l (h.entry u hu key l huses)
  exact ⟨o, ho⟩

/-- An object that does not exist has no users. -/
theorem Inv.countP_holds_of_none (h : Inv t users) (hnone : t.objects[l]? = none) :
    users.countP (fun u => u.holds = some l) = 0 := by
  rw [List.countP_eq_zero]
  intro u hu hholds
  cases u with
  | holding key l' =>
    obtain rfl : l' = l := by simpa using hholds
    obtain ⟨o, ho⟩ := h.object hu rfl
    exact absurd (hnone.symm.trans ho) (by simp)
  | _ => exact absurd hholds (by simp)

/-- A user registers for a key that is in the table. -/
theorem Inv.register_some (h : Inv t users) (hi : users[i]? = some .idle)
    (hl : t.locks.lookup key = some l) :
    Inv { t with objects := t.objects.modify l (fun o => { o with refs := o.refs + 1 }) }
      (users.set i (.waiting key l)) where
  entry u hu key' l' huses := by
    rcases List.mem_or_eq_of_mem_set hu with hu | rfl
    · exact h.entry u hu key' l' huses
    · obtain ⟨rfl, rfl⟩ : key = key' ∧ l = l' := by simpa using huses
      exact hl
  refs key' l' hl' := by
    obtain ⟨o, ho, hrefs, hpos⟩ := h.refs key' l' hl'
    have hcount := countP_set_add (fun u => decide (u.uses = some (key', l'))) hi (.waiting key l)
    by_cases heq : l = l'
    · obtain rfl := heq
      obtain rfl := h.inj key key' l hl hl'
      refine ⟨{ o with refs := o.refs + 1 }, by simp [ho], ?_, ?_⟩
      · simp at hcount
        simp only [hrefs]
        omega
      · simp at hcount
        omega
    · simp [heq] at hcount
      refine ⟨o, by simp [heq, ho], ?_, ?_⟩ <;> omega
  inj := h.inj
  held l' o ho := by
    have hcount := countP_set_add (fun u => decide (u.holds = some l')) hi (.waiting key l)
    simp at hcount
    obtain ⟨o', ho', heq⟩ := held_modify (f := fun o => { o with refs := o.refs + 1 })
      (fun _ => rfl) ho
    rw [hcount, h.held l' o' ho', heq]

/-- A user registers for a key that is not in the table. -/
theorem Inv.register_none (h : Inv t users) (hi : users[i]? = some .idle)
    (hnone : t.locks.lookup key = none) :
    Inv { locks := t.locks.insert key t.objects.length, objects := t.objects ++ [⟨1, false⟩] }
      (users.set i (.waiting key t.objects.length)) where
  entry u hu key' l' huses := by
    rcases List.mem_or_eq_of_mem_set hu with hu | rfl
    · have hentry := h.entry u hu key' l' huses
      have hne : key' ≠ key := by
        rintro rfl
        exact absurd (hnone.symm.trans hentry) (by simp)
      rwa [AList.lookup_insert_ne hne]
    · obtain ⟨rfl, rfl⟩ : key = key' ∧ t.objects.length = l' := by simpa using huses
      exact AList.lookup_insert _
  refs key' l' hl' := by
    have hcount := countP_set_add (fun u => decide (u.uses = some (key', l'))) hi
      (.waiting key t.objects.length)
    by_cases heq : key' = key
    · -- the new object: nobody has used it
      subst heq
      obtain rfl : t.objects.length = l' := by simpa using hl'
      have hzero : users.countP (fun u => u.uses = some (key', t.objects.length)) = 0 := by
        rw [List.countP_eq_zero]
        intro u hu huses
        have hentry := h.entry u hu key' _ (by simpa using huses)
        exact absurd (hnone.symm.trans hentry) (by simp)
      simp at hcount
      rw [hzero] at hcount
      exact ⟨⟨1, false⟩, by simp, by rw [hcount]; rfl, by rw [hcount]; exact Nat.one_pos⟩
    · rw [AList.lookup_insert_ne heq] at hl'
      obtain ⟨o, ho, hrefs, hpos⟩ := h.refs key' l' hl'
      have hlt : l' < t.objects.length := (List.getElem?_eq_some_iff.mp ho).1
      simp [Ne.symm heq] at hcount
      refine ⟨o, by rw [List.getElem?_append_left hlt, ho], ?_, ?_⟩ <;> omega
  inj key₁ key₂ l' h₁ h₂ := by
    have hold : ∀ key', key' ≠ key →
        (t.locks.insert key t.objects.length).lookup key' = some l' → l' < t.objects.length := by
      intro key' hne hl'
      rw [AList.lookup_insert_ne hne] at hl'
      obtain ⟨o, ho, -⟩ := h.refs key' l' hl'
      exact (List.getElem?_eq_some_iff.mp ho).1
    have hnew : ∀ key', key' = key →
        (t.locks.insert key t.objects.length).lookup key' = some l' → l' = t.objects.length := by
      rintro key' rfl hl'
      simpa using hl'.symm
    by_cases heq₁ : key₁ = key <;> by_cases heq₂ : key₂ = key
    · rw [heq₁, heq₂]
    · exact absurd (hnew key₁ heq₁ h₁) (Nat.ne_of_lt (hold key₂ heq₂ h₂))
    · exact absurd (hnew key₂ heq₂ h₂) (Nat.ne_of_lt (hold key₁ heq₁ h₁))
    · rw [AList.lookup_insert_ne heq₁] at h₁
      rw [AList.lookup_insert_ne heq₂] at h₂
      exact h.inj key₁ key₂ l' h₁ h₂
  held l' o ho := by
    have hcount := countP_set_add (fun u => decide (u.holds = some l')) hi
      (.waiting key t.objects.length)
    simp at hcount
    rw [hcount]
    rcases lt_trichotomy l' t.objects.length with hlt | rfl | hgt
    · rw [List.getElem?_append_left hlt] at ho
      exact h.held l' o ho
    · rw [h.countP_holds_of_none (List.getElem?_eq_none le_rfl)]
      obtain rfl : ⟨1, false⟩ = o := by simpa using ho
      rfl
    · rw [List.getElem?_eq_none (by simp; omega)] at ho
      exact absurd ho (by simp)

/-- A user registers. -/
theorem Inv.register (h : Inv t users) (hi : users[i]? = some .idle) :
    Inv (t.register key).1 (users.set i (.waiting key (t.register key).2)) := by
  unfold LockTable.register
  cases hl : t.locks.lookup key with
  | some l => exact h.register_some hi hl
  | none => exact h.register_none hi hl

/-- A user that only changes its hold keeps its entry. -/
theorem Inv.setHeld (h : Inv t users) {old new : Phase κ} {b : Bool} (hi : users[i]? = some old)
    (huses : old.uses = new.uses)
    (hheld : ∀ l' o, t.objects[l']? = some o →
      (users.set i new).countP (fun u => u.holds = some l') =
        if (if l = l' then b else o.held) then 1 else 0) :
    Inv (t.setHeld l b) (users.set i new) where
  entry u hu key' l' hu' := by
    rcases List.mem_or_eq_of_mem_set hu with hu | rfl
    · exact h.entry u hu key' l' hu'
    · exact h.entry old (List.mem_of_getElem? hi) key' l' (huses.trans hu')
  refs key' l' hl' := by
    obtain ⟨o, ho, hrefs, hpos⟩ := h.refs key' l' hl'
    have hcount := countP_set_add (fun u => decide (u.uses = some (key', l'))) hi new
    rw [huses, Nat.add_right_cancel_iff] at hcount
    rw [hcount]
    refine ⟨if l = l' then { o with held := b } else o, ?_, ?_, hpos⟩
    · by_cases heq : l = l' <;> simp [LockTable.setHeld, heq, ho]
    · rw [← hrefs]
      split <;> rfl
  inj := h.inj
  held l' o ho := by
    obtain ⟨o', ho', rfl⟩ := getElem?_modify_eq_some ho
    rw [hheld l' o' ho']
    by_cases heq : l = l' <;> simp [heq]

/-- A waiting user acquires an object that is free. -/
theorem Inv.acquire (h : Inv t users) (hi : users[i]? = some (.waiting key l)) (hfree : t.Free l) :
    Inv (t.setHeld l true) (users.set i (.holding key l)) := by
  refine h.setHeld hi rfl (fun l' o ho => ?_)
  have hcount := countP_set_add (fun u => decide (u.holds = some l')) hi (.holding key l)
  obtain ⟨o', ho', hnot⟩ := hfree
  by_cases heq : l = l'
  · subst heq
    obtain rfl := Option.some.inj (ho.symm.trans ho')
    have hnobody := h.held l o ho
    rw [hnot, if_neg (by simp)] at hnobody
    simp only [Phase.holds_waiting, Phase.holds_holding] at hcount
    rw [hnobody] at hcount
    simpa using hcount
  · simp [heq] at hcount
    simp [heq, hcount, h.held l' o ho]

/-- A holding user releases its object. -/
theorem Inv.release (h : Inv t users) (hi : users[i]? = some (.holding key l)) :
    Inv (t.setHeld l false) (users.set i (.leaving key l)) := by
  refine h.setHeld hi rfl (fun l' o ho => ?_)
  have hcount := countP_set_add (fun u => decide (u.holds = some l')) hi (.leaving key l)
  have hholder := h.held l' o ho
  by_cases heq : l = l'
  · subst heq
    simp at hcount
    simp only [if_true, Bool.false_eq_true, if_false]
    split at hholder <;> omega
  · simp [heq] at hcount
    simp [heq, hcount, hholder]

/-- The other keys keep their entries. -/
theorem lookup_deregister_ne {key' : κ} (hne : key' ≠ key) :
    (t.deregister key l).locks.lookup key' = t.locks.lookup key' := by
  unfold LockTable.deregister
  dsimp only
  split
  · exact AList.lookup_erase_ne hne
  · rfl

/-- How the users of an object change when one leaves. -/
theorem countP_leave (hi : users[i]? = some (.leaving key l)) (key' : κ) (l' : ℕ) :
    (users.set i .done).countP (fun u => u.uses = some (key', l')) +
      (if (key, l) = (key', l') then 1 else 0) =
        users.countP (fun u => u.uses = some (key', l')) := by
  simpa using countP_set_add (fun u => decide (u.uses = some (key', l'))) hi .done

/-- The last user drops the entry. -/
theorem Inv.lookup_deregister (h : Inv t users) (hi : users[i]? = some (.leaving key l)) :
    (t.deregister key l).locks.lookup key =
      if (users.set i .done).countP (fun u => u.uses = some (key, l)) = 0 then none
      else some l := by
  have hentry := h.entry _ (List.mem_of_getElem? hi) key l rfl
  obtain ⟨o, ho, hrefs, -⟩ := h.refs key l hentry
  have hself := countP_leave hi key l
  rw [if_pos rfl] at hself
  have hlast : t.objects[l]?.any (fun o => o.refs - 1 == 0) = true ↔
      (users.set i .done).countP (fun u => u.uses = some (key, l)) = 0 := by
    rw [ho, Option.any_some, beq_iff_eq, hrefs]
    omega
  unfold LockTable.deregister
  dsimp only
  by_cases hzero : (users.set i .done).countP (fun u => u.uses = some (key, l)) = 0
  · rw [if_pos (hlast.mpr hzero), if_pos hzero]
    exact AList.lookup_erase _ _
  · rw [if_neg (fun hlast' => hzero (hlast.mp hlast')), if_neg hzero]
    exact hentry

/-- A user that has released its object deregisters. -/
theorem Inv.deregister (h : Inv t users) (hi : users[i]? = some (.leaving key l)) :
    Inv (t.deregister key l) (users.set i .done) := by
  have hentry := h.entry _ (List.mem_of_getElem? hi) key l rfl
  have hcount := countP_leave hi
  have hself := h.lookup_deregister hi
  have hold : ∀ key' l', (t.deregister key l).locks.lookup key' = some l' →
      t.locks.lookup key' = some l' := by
    intro key' l' hl'
    by_cases heq : key' = key
    · subst heq
      rw [hself] at hl'
      split_ifs at hl'
      exact hl' ▸ hentry
    · rwa [lookup_deregister_ne heq] at hl'
  refine ⟨fun u hu key' l' huses => ?_, fun key' l' hl' => ?_,
    fun key₁ key₂ l' h₁ h₂ => h.inj key₁ key₂ l' (hold key₁ l' h₁) (hold key₂ l' h₂),
    fun l' o' ho' => ?_⟩
  · -- a user that is left keeps the entry from being dropped
    have hmem : u ∈ users := by
      rcases List.mem_or_eq_of_mem_set hu with hmem | rfl
      · exact hmem
      · exact absurd huses (by simp)
    have hbefore := h.entry u hmem key' l' huses
    by_cases heq : key' = key
    · subst heq
      obtain rfl := Option.some.inj (hbefore.symm.trans hentry)
      rw [hself, if_neg]
      rw [List.countP_eq_zero]
      exact fun hnone => hnone u hu (by simpa using huses)
    · rwa [lookup_deregister_ne heq]
  · have hbefore := hold key' l' hl'
    obtain ⟨o', ho', hrefs', hpos'⟩ := h.refs key' l' hbefore
    have hcount' := hcount key' l'
    by_cases heq : key' = key
    · subst heq
      rw [hself] at hl'
      split_ifs at hl' with hzero
      obtain rfl := Option.some.inj hl'
      rw [if_pos rfl] at hcount'
      refine ⟨{ o' with refs := o'.refs - 1 }, by simp [LockTable.deregister, ho'], ?_,
        Nat.pos_of_ne_zero hzero⟩
      dsimp only
      omega
    · have hne : l ≠ l' := fun hl => heq (h.inj key' key l' hbefore (hl ▸ hentry))
      rw [if_neg (by simp [hne]), Nat.add_zero] at hcount'
      rw [hcount']
      exact ⟨o', by simp [LockTable.deregister, hne, ho'], hrefs', hpos'⟩
  · obtain ⟨o₀, ho₀, heq⟩ := held_modify (f := fun o => { o with refs := o.refs - 1 })
      (fun _ => rfl) ho'
    have hholds := countP_set_add (fun u => decide (u.holds = some l')) hi .done
    simp at hholds
    rw [hholds, h.held l' o₀ ho₀, heq]

/-- At most one user holds an object. -/
theorem Inv.holding_unique (h : Inv t users) {j : ℕ} {key' : κ}
    (hi : users[i]? = some (.holding key l)) (hj : users[j]? = some (.holding key' l)) : i = j := by
  by_contra hne
  obtain ⟨o, ho⟩ := h.object (List.mem_of_getElem? hi) rfl
  have hheld := h.held l o ho
  -- without the first holder there is still the second
  have hcount := countP_set_add (fun u => decide (u.holds = some l)) hi .done
  have hsecond : 0 < (users.set i .done).countP (fun u => u.holds = some l) := by
    rw [List.countP_pos_iff]
    refine ⟨.holding key' l, List.mem_of_getElem? (i := j) ?_, by simp⟩
    rwa [List.getElem?_set_ne hne]
  simp at hcount
  split at hheld <;> omega

end Steps

end LockTable

end Locks
