import Mathlib.Data.List.Nodup
import Mathlib.Data.List.Perm.Basic

/-! # Condition Variables

    One condition variable of a monitor: the threads that sleep on it, and
    those that were woken and wait for the mutex.  Which sleeper a signal
    wakes is up to the system.

    `Covered need`: no thread sleeps, or at least `need` threads are on
    their way to the mutex.  A signal for every unit of work that is added
    keeps it, although a woken thread may come too late and find its work
    gone: whoever takes a unit lowers the need as well. -/

universe u

/-- A condition variable; a thread is at most once in its lists. -/
structure CondVar (Thread : Type u) where
  sleeping : List Thread
  woken : List Thread
  nodup : (sleeping ++ woken).Nodup

namespace CondVar

variable {Thread : Type u}

def new : CondVar Thread := ⟨[], [], List.nodup_nil⟩

/-- The threads inside `wait`. -/
def waiting (c : CondVar Thread) : List Thread := c.sleeping ++ c.woken

/-- Some of the need is taken care of by every thread that was woken. -/
def Covered (c : CondVar Thread) (need : Nat) : Prop :=
  c.sleeping = [] ∨ need ≤ c.woken.length

/-- The threads a signal may choose; none only when none sleeps. -/
def MayWake (c : CondVar Thread) : Option Thread → Prop
  | none => c.sleeping = []
  | some t => t ∈ c.sleeping

def notifyAll (c : CondVar Thread) : CondVar Thread := ⟨[], c.sleeping ++ c.woken, c.nodup⟩

variable {c : CondVar Thread} {t : Thread} {need : Nat}

@[simp] theorem sleeping_new : (new : CondVar Thread).sleeping = [] := rfl

@[simp] theorem waiting_new : (new : CondVar Thread).waiting = [] := rfl

@[simp] theorem sleeping_notifyAll : c.notifyAll.sleeping = [] := rfl

/-- A thread that was woken does not sleep. -/
theorem not_mem_woken (h : t ∈ c.sleeping) : t ∉ c.woken :=
  fun hw => (List.nodup_append.mp c.nodup).2.2 t h t hw rfl

theorem covered_new : (new : CondVar Thread).Covered need := Or.inl rfl

theorem Covered.mono {need' : Nat} (h : c.Covered need) (hle : need' ≤ need) :
    c.Covered need' := by
  rcases h with hs | hw
  · exact Or.inl hs
  · exact Or.inr (Nat.le_trans hle hw)

theorem covered_notifyAll : c.notifyAll.Covered need := Or.inl rfl

/-- **Nobody is stranded**: when all threads inside `wait` are asleep and
    some are, there is nothing to do. -/
theorem Covered.need_eq_zero (h : c.Covered need) (hsleeping : c.sleeping ≠ [])
    (hwoken : c.woken = []) : need = 0 := by
  rcases h with hs | hw
  · exact absurd hs hsleeping
  · rw [hwoken] at hw
    exact Nat.le_zero.mp hw

section Wake

variable [DecidableEq Thread]

instance (c : CondVar Thread) (choice : Option Thread) : Decidable (c.MayWake choice) :=
  match choice with
  | none => inferInstanceAs (Decidable (c.sleeping = []))
  | some t => inferInstanceAs (Decidable (t ∈ c.sleeping))

/-- `t` falls asleep, and releases the mutex. -/
def wait (c : CondVar Thread) (t : Thread) : CondVar Thread :=
  if h : t ∈ c.waiting then c
  else ⟨t :: c.sleeping, c.woken, List.nodup_cons.mpr ⟨h, c.nodup⟩⟩

/-- `t` wakes up, by a signal or for no reason. -/
def wake (c : CondVar Thread) (t : Thread) : CondVar Thread :=
  if h : t ∈ c.sleeping then
    ⟨c.sleeping.erase t, t :: c.woken,
      List.nodup_middle.mpr
        ((((List.perm_cons_erase h).append_right c.woken).nodup_iff).mp c.nodup)⟩
  else c

/-- A signal, with the sleeper it wakes. -/
def notify (c : CondVar Thread) : Option Thread → CondVar Thread
  | none => c
  | some t => c.wake t

/-- `t` has the mutex again, and leaves `wait`. -/
def resume (c : CondVar Thread) (t : Thread) : CondVar Thread :=
  ⟨c.sleeping, c.woken.erase t, c.nodup.sublist (c.woken.erase_sublist.append_left c.sleeping)⟩

/-! ## Who waits -/

@[simp] theorem sleeping_resume : (c.resume t).sleeping = c.sleeping := rfl

theorem mem_waiting_wait {u : Thread} : u ∈ (c.wait t).waiting ↔ u = t ∨ u ∈ c.waiting := by
  unfold wait
  split
  · -- it waits already
    next h =>
    refine ⟨Or.inr, ?_⟩
    rintro (rfl | hu)
    · exact h
    · exact hu
  · exact List.mem_cons

theorem mem_waiting_wake {u : Thread} : u ∈ (c.wake t).waiting ↔ u ∈ c.waiting := by
  unfold wake
  split
  · next h =>
    have hperm := (List.perm_cons_erase h).append_right c.woken
    exact (List.perm_middle.mem_iff).trans hperm.symm.mem_iff
  · rfl

theorem mem_waiting_notify {choice : Option Thread} {u : Thread} :
    u ∈ (c.notify choice).waiting ↔ u ∈ c.waiting := by
  cases choice with
  | none => rfl
  | some t => exact mem_waiting_wake

/-- Only the thread that resumes leaves. -/
theorem mem_waiting_resume (h : t ∈ c.woken) {u : Thread} :
    u ∈ (c.resume t).waiting ↔ u ≠ t ∧ u ∈ c.waiting := by
  have hnodup := List.nodup_append.mp c.nodup
  have hnot : t ∉ c.sleeping := fun hs => hnodup.2.2 t hs t h rfl
  simp only [waiting, resume, List.mem_append, hnodup.2.1.mem_erase_iff]
  constructor
  · rintro (hs | ⟨hne, hw⟩)
    · exact ⟨fun heq => hnot (heq ▸ hs), Or.inl hs⟩
    · exact ⟨hne, Or.inr hw⟩
  · rintro ⟨hne, hs | hw⟩
    · exact Or.inl hs
    · exact Or.inr ⟨hne, hw⟩

theorem sleeping_wake_subset {u : Thread} (h : u ∈ (c.wake t).sleeping) : u ∈ c.sleeping := by
  unfold wake at h
  split at h
  · exact List.mem_of_mem_erase h
  · exact h

theorem sleeping_notify_subset {choice : Option Thread} {u : Thread}
    (h : u ∈ (c.notify choice).sleeping) : u ∈ c.sleeping := by
  cases choice with
  | none => exact h
  | some t => exact sleeping_wake_subset h

/-! ## Enough threads are awake -/

/-- A thread falls asleep only when there is nothing to do. -/
theorem covered_wait : (c.wait t).Covered 0 := Or.inr (Nat.zero_le _)

/-- Waking somebody does not hurt. -/
theorem Covered.wake (h : c.Covered need) : (c.wake t).Covered need := by
  unfold CondVar.wake
  split
  · -- who is woken was asleep, so enough are awake already
    next hmem =>
    rcases h with hs | hw
    · rw [hs] at hmem
      exact absurd hmem List.not_mem_nil
    · exact Or.inr (Nat.le_succ_of_le hw)
  · exact h

theorem Covered.notify (h : c.Covered need) (choice : Option Thread) :
    (c.notify choice).Covered need := by
  cases choice with
  | none => exact h
  | some t => exact h.wake

/-- **A signal covers one more**: the thread it wakes, if any sleeps. -/
theorem Covered.signal (h : c.Covered need) {choice : Option Thread} (hchoice : c.MayWake choice) :
    (c.notify choice).Covered (need + 1) := by
  cases choice with
  | none => exact Or.inl hchoice
  | some t =>
    have hmem : t ∈ c.sleeping := hchoice
    rcases h with hs | hw
    · rw [hs] at hmem
      exact absurd hmem List.not_mem_nil
    · -- the unit that was added is for `t`
      refine Or.inr ?_
      rw [CondVar.notify, CondVar.wake, dif_pos hmem]
      exact Nat.succ_le_succ hw

/-- A woken thread leaves, and takes a unit with it. -/
theorem Covered.resume (h : c.Covered need) : (c.resume t).Covered (need - 1) := by
  rcases h with hs | hw
  · exact Or.inl hs
  · refine Or.inr ?_
    have hlen : c.woken.length - 1 ≤ (c.woken.erase t).length := by
      rw [List.length_erase]
      split <;> omega
    exact Nat.le_trans (Nat.sub_le_sub_right hw 1) hlen

end Wake

end CondVar
