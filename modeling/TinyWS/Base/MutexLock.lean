import TinyWS.Framework.Machine
import TinyWS.Framework.Monitor
import Mathlib.Logic.Function.Basic

/-! # MutexLock

    `lock` and `unlock` keep `holder_`; nothing else writes it.
    `Condition::wait` hands the raw mutex to `pthread_cond_wait`, which
    releases it and takes it again without the two.  So a waiting thread
    stays in `holder_`, and a thread that comes back from `wait` finds
    there whatever the others left.

    Every call of the system and every write of `holder_` is a step of
    its own. -/

namespace TinyWS

/-- A thread, as `Thread::gettid()` returns it in that thread: never 0. -/
abbrev Tid := { tid : Int // 0 < tid }

/-- The threads of a process, numbered. -/
def tid (n : Nat) : Tid := ⟨n + 1, by omega⟩

/-- Where a thread is, as far as the mutex goes. -/
inductive Place (Cond : Type) where
  | outside
  /-- In `lock()`, behind `pthread_mutex_lock`. -/
  | locking
  /-- `lock()` or `wait()` has returned. -/
  | holding
  /-- In `unlock()`, in front of `pthread_mutex_unlock`. -/
  | unlocking
  | waiting (cond : Cond)
  deriving DecidableEq

namespace Place

variable {Cond : Type}

/-- Whether a thread there has the mutex. -/
def inside : Place Cond → Bool
  | .outside => false
  | .locking => true
  | .holding => true
  | .unlocking => true
  | .waiting _ => false

end Place

/-- `class MutexLock` with its threads, and the objects of `class
    Condition` made for it. -/
structure MutexLock (Cond : Type) where
  /-- The thread that has the mutex. -/
  mutex_ : Option Tid
  holder_ : Int
  cond_ : Cond → CondVar Tid
  place : Tid → Place Cond

namespace MutexLock

variable {Cond : Type}

/-- The constructors, with every thread outside. -/
def new : MutexLock Cond where
  mutex_ := none
  holder_ := 0
  cond_ := fun _ => CondVar.new
  place := fun _ => .outside

/-- `isLockedByThisThread()`, called in the thread `t`. -/
def isLockedByThisThread (s : MutexLock Cond) (t : Tid) : Bool := s.holder_ == t.val

def setPlace (s : MutexLock Cond) (t : Tid) (p : Place Cond) : MutexLock Cond :=
  { s with place := Function.update s.place t p }

/-- `pthread_mutex_lock(&mutex_)` in `lock()`. -/
def lockMutex (s : MutexLock Cond) (t : Tid) : MutexLock Cond :=
  { s with mutex_ := some t }.setPlace t .locking

/-- `holder_ = Thread::gettid()` in `lock()`. -/
def setHolder (s : MutexLock Cond) (t : Tid) : MutexLock Cond :=
  { s with holder_ := t.val }.setPlace t .holding

/-- `holder_ = 0` in `unlock()`. -/
def clearHolder (s : MutexLock Cond) (t : Tid) : MutexLock Cond :=
  { s with holder_ := 0 }.setPlace t .unlocking

/-- `pthread_mutex_unlock(&mutex_)` in `unlock()`. -/
def unlockMutex (s : MutexLock Cond) (t : Tid) : MutexLock Cond :=
  { s with mutex_ := none }.setPlace t .outside

variable [DecidableEq Cond]

def setCond (s : MutexLock Cond) (c : Cond) (v : CondVar Tid) : MutexLock Cond :=
  { s with cond_ := Function.update s.cond_ c v }

/-- `Condition::wait()` or `waitForSecond`: `pthread_cond_wait` puts the
    thread to sleep and releases the mutex in one step. -/
def wait (s : MutexLock Cond) (t : Tid) (c : Cond) : MutexLock Cond :=
  ({ s with mutex_ := none }.setCond c ((s.cond_ c).wait t)).setPlace t (.waiting c)

/-- `pthread_cond_wait` has the mutex again, and returns. -/
def resume (s : MutexLock Cond) (t : Tid) (c : Cond) : MutexLock Cond :=
  ({ s with mutex_ := some t }.setCond c ((s.cond_ c).resume t)).setPlace t .holding

/-- The steps of the threads. -/
inductive Step (Cond : Type) where
  | lockMutex (t : Tid)
  | setHolder (t : Tid)
  | clearHolder (t : Tid)
  | unlockMutex (t : Tid)
  | wait (t : Tid) (c : Cond)
  /-- The time of `waitForSecond` is over, or the wakeup is spurious. -/
  | wake (t : Tid) (c : Cond)
  | notify (c : Cond) (woken : Option Tid)
  | notifyAll (c : Cond)
  | resume (t : Tid) (c : Cond)

/-- The mutex is taken by one thread at a time, and `unlock` and `wait`
    are called by the thread that has it. -/
def guard (s : MutexLock Cond) : Step Cond → Prop
  | .lockMutex t => s.place t = .outside ∧ s.mutex_ = none
  | .setHolder t => s.place t = .locking
  | .clearHolder t => s.place t = .holding
  | .unlockMutex t => s.place t = .unlocking
  | .wait t _ => s.place t = .holding
  | .wake t c => t ∈ (s.cond_ c).sleeping
  | .notify c woken => (s.cond_ c).MayWake woken
  | .notifyAll _ => True
  | .resume t c => t ∈ (s.cond_ c).woken ∧ s.mutex_ = none

instance (s : MutexLock Cond) : DecidablePred s.guard
  | .lockMutex _ => inferInstanceAs (Decidable (_ ∧ _))
  | .setHolder t => inferInstanceAs (Decidable (s.place t = .locking))
  | .clearHolder t => inferInstanceAs (Decidable (s.place t = .holding))
  | .unlockMutex t => inferInstanceAs (Decidable (s.place t = .unlocking))
  | .wait t _ => inferInstanceAs (Decidable (s.place t = .holding))
  | .wake t c => inferInstanceAs (Decidable (t ∈ (s.cond_ c).sleeping))
  | .notify c woken => inferInstanceAs (Decidable ((s.cond_ c).MayWake woken))
  | .notifyAll _ => inferInstanceAs (Decidable True)
  | .resume _ _ => inferInstanceAs (Decidable (_ ∧ _))

def next (s : MutexLock Cond) : Step Cond → MutexLock Cond
  | .lockMutex t => s.lockMutex t
  | .setHolder t => s.setHolder t
  | .clearHolder t => s.clearHolder t
  | .unlockMutex t => s.unlockMutex t
  | .wait t c => s.wait t c
  | .wake t c => s.setCond c ((s.cond_ c).wake t)
  | .notify c woken => s.setCond c ((s.cond_ c).notify woken)
  | .notifyAll c => s.setCond c (s.cond_ c).notifyAll
  | .resume t c => s.resume t c

end MutexLock

/-- Any number of threads and conditions. -/
def mutexLock (Cond : Type) [DecidableEq Cond] :
    Machine (MutexLock Cond) (MutexLock.Step Cond) where
  guard := MutexLock.guard
  next := MutexLock.next

instance (Cond : Type) [DecidableEq Cond] (s : MutexLock Cond) (l : MutexLock.Step Cond) :
    Decidable ((mutexLock Cond).guard s l) :=
  inferInstanceAs (Decidable (s.guard l))

namespace MutexLock

variable {Cond : Type}

/-! ## The specification -/

/-- The thread holds the mutex outside of `wait`. -/
def Holds (s : MutexLock Cond) (t : Tid) : Prop := s.mutex_ = some t ∧ s.place t = .holding

/-- The thread that holds the mutex, and no other, is told that it does. -/
def HolderKnown (s : MutexLock Cond) : Prop :=
  ∀ t, s.Holds t → ∀ u, s.isLockedByThisThread u = true ↔ u = t

/-- `holder_` is 0 when nobody has the mutex. -/
def FreeKnown (s : MutexLock Cond) : Prop := s.mutex_ = none → s.holder_ = 0

/-- A thread that returns from `wait` is still in `holder_`. -/
def Restored (s : MutexLock Cond) : Step Cond → Prop
  | .resume t _ => s.holder_ = t.val
  | _ => True

/-! ## Mutual exclusion -/

/-- One thread at a time is inside, the owner of the mutex. -/
def Exclusive (s : MutexLock Cond) : Prop := ∀ t, s.mutex_ = some t ↔ (s.place t).inside = true

/-- The owner goes to `p`, or somebody when there is no owner. -/
structure Moves (s : MutexLock Cond) (t : Tid) (p : Place Cond) (s' : MutexLock Cond) : Prop where
  only : ∀ u, s.mutex_ = some u → u = t
  place : s'.place = Function.update s.place t p
  mutex_ : s'.mutex_ = if p.inside then some t else none

variable {s s' : MutexLock Cond} {t u : Tid} {p : Place Cond}

theorem exclusive_new : (new : MutexLock Cond).Exclusive := by
  intro t
  simp [new, Place.inside]

/-- A thread that is inside is the owner. -/
theorem Exclusive.owner (h : s.Exclusive) (hp : s.place t = p) (hin : p.inside = true) :
    s.mutex_ = some t := by
  rw [h t, hp]
  exact hin

theorem Exclusive.only (h : s.Exclusive) (hp : s.place t = p) (hin : p.inside = true) :
    ∀ u, s.mutex_ = some u → u = t := by
  intro u hu
  rw [h.owner hp hin] at hu
  exact (Option.some.inj hu).symm

theorem only_of_free (hfree : s.mutex_ = none) : ∀ u, s.mutex_ = some u → u = t := by
  intro u hu
  rw [hfree] at hu
  cases hu

/-- The other threads are outside. -/
theorem Moves.others (hm : s.Moves t p s') (h : s.Exclusive) (hut : u ≠ t) :
    (s.place u).inside = false := by
  cases hin : (s.place u).inside with
  | false => rfl
  | true => exact absurd (hm.only u (h.owner rfl hin)) hut

theorem Moves.exclusive (hm : s.Moves t p s') (h : s.Exclusive) : s'.Exclusive := by
  intro u
  rw [hm.place, hm.mutex_]
  by_cases hut : u = t
  · rw [hut, Function.update_self]
    cases p.inside <;> simp
  · rw [Function.update_of_ne hut, hm.others h hut]
    refine iff_of_false (fun heq => ?_) Bool.noConfusion
    split at heq
    · exact hut (Option.some.inj heq).symm
    · cases heq

/-! ## The holder in `holder_` -/

/-- The thread that holds the mutex is in `holder_`. -/
structure Named (s : MutexLock Cond) : Prop where
  exclusive : s.Exclusive
  holding : ∀ t, s.place t = .holding → s.holder_ = t.val

theorem named_new : (new : MutexLock Cond).Named where
  exclusive := exclusive_new
  holding := by
    intro t ht
    cases ht

theorem isLockedByThisThread_iff (h : s.holder_ = t.val) :
    s.isLockedByThisThread u = true ↔ u = t := by
  rw [isLockedByThisThread, beq_iff_eq, h]
  constructor
  · intro heq
    exact (Subtype.ext heq).symm
  · intro heq
    rw [heq]

theorem Named.holderKnown (h : s.Named) : s.HolderKnown :=
  fun t ht _ => isLockedByThisThread_iff (h.holding t ht.2)

theorem Named.move (h : s.Named) (hm : s.Moves t p s')
    (hholder : p = .holding → s'.holder_ = t.val) : s'.Named where
  exclusive := hm.exclusive h.exclusive
  holding := by
    intro u hu
    rw [hm.place] at hu
    by_cases hut : u = t
    · rw [hut, Function.update_self] at hu
      rw [hut]
      exact hholder hu
    · rw [Function.update_of_ne hut] at hu
      have hother := hm.others h.exclusive hut
      rw [hu] at hother
      cases hother

/-! ## Nobody waits -/

/-- What `lock` and `unlock` leave in `holder_` when the thread they are
    called in is at `p`. -/
def recorded (t : Tid) : Place Cond → Int
  | .holding => t.val
  | _ => 0

/-- No thread waits, and `holder_` is what `lock` and `unlock` left. -/
structure Recorded (s : MutexLock Cond) : Prop where
  exclusive : s.Exclusive
  free : s.FreeKnown
  inside : ∀ t p, s.place t = p → p.inside = true → s.holder_ = recorded t p
  awake : ∀ c u, u ∉ (s.cond_ c).waiting

theorem recorded_new : (new : MutexLock Cond).Recorded where
  exclusive := exclusive_new
  free := fun _ => rfl
  inside := by
    intro t p hp hin
    subst hp
    cases hin
  awake := by
    intro c u hu
    cases hu

theorem Recorded.named (h : s.Recorded) : s.Named where
  exclusive := h.exclusive
  holding := fun t ht => h.inside t .holding ht rfl

theorem recorded_eq_zero (h : p.inside = false) : recorded t p = 0 := by
  cases p with
  | holding => cases h
  | outside => rfl
  | locking => rfl
  | unlocking => rfl
  | waiting _ => rfl

theorem Recorded.move (h : s.Recorded) (hm : s.Moves t p s')
    (hholder : s'.holder_ = recorded t p) (hcond : s'.cond_ = s.cond_) : s'.Recorded where
  exclusive := hm.exclusive h.exclusive
  free := by
    intro hfree
    rw [hm.mutex_] at hfree
    cases hp : p.inside with
    | true =>
      rw [hp] at hfree
      cases hfree
    | false => rw [hholder, recorded_eq_zero hp]
  inside := by
    intro u q hq hin
    rw [hm.place] at hq
    by_cases hut : u = t
    · rw [hut, Function.update_self] at hq
      rw [hholder, hut, hq]
    · rw [Function.update_of_ne hut] at hq
      have hother := hm.others h.exclusive hut
      rw [hq, hin] at hother
      cases hother
  awake := by
    rw [hcond]
    exact h.awake

/-! ## The steps -/

/-- The thread a step moves, and where; none moves at a signal. -/
def Step.mover : Step Cond → Option (Tid × Place Cond)
  | .lockMutex t => some (t, .locking)
  | .setHolder t => some (t, .holding)
  | .clearHolder t => some (t, .unlocking)
  | .unlockMutex t => some (t, .outside)
  | .wait t c => some (t, .waiting c)
  | .wake _ _ => none
  | .notify _ _ => none
  | .notifyAll _ => none
  | .resume t _ => some (t, .holding)

section Steps

variable [DecidableEq Cond] {l : Step Cond} {ls : List (Step Cond)}

/-- Somebody moves. -/
theorem moves_next (h : s.Exclusive) (hguard : s.guard l) (hmover : l.mover = some (t, p)) :
    s.Moves t p (s.next l) := by
  cases l with
  | lockMutex t =>
    cases hmover
    exact ⟨only_of_free hguard.2, rfl, rfl⟩
  | setHolder t =>
    cases hmover
    have hplace : s.place t = .locking := hguard
    exact ⟨h.only hplace rfl, rfl, h.owner hplace rfl⟩
  | clearHolder t =>
    cases hmover
    have hplace : s.place t = .holding := hguard
    exact ⟨h.only hplace rfl, rfl, h.owner hplace rfl⟩
  | unlockMutex t =>
    cases hmover
    have hplace : s.place t = .unlocking := hguard
    exact ⟨h.only hplace rfl, rfl, rfl⟩
  | wait t c =>
    cases hmover
    have hplace : s.place t = .holding := hguard
    exact ⟨h.only hplace rfl, rfl, rfl⟩
  | resume t c =>
    cases hmover
    exact ⟨only_of_free hguard.2, rfl, rfl⟩
  | wake t c => cases hmover
  | notify c woken => cases hmover
  | notifyAll c => cases hmover

/-- A step that finds the returning thread in `holder_`, if one returns
    from `wait`. -/
theorem named_next (h : s.Named) (hguard : s.guard l) (hrestored : s.Restored l) :
    (s.next l).Named := by
  have hmoves : ∀ {t p}, l.mover = some (t, p) → s.Moves t p (s.next l) :=
    moves_next h.exclusive hguard
  cases l with
  | lockMutex t => exact h.move (hmoves rfl) (fun hp => by cases hp)
  | setHolder t => exact h.move (hmoves rfl) (fun _ => rfl)
  | clearHolder t => exact h.move (hmoves rfl) (fun hp => by cases hp)
  | unlockMutex t => exact h.move (hmoves rfl) (fun hp => by cases hp)
  | wait t c => exact h.move (hmoves rfl) (fun hp => by cases hp)
  | wake t c => exact ⟨h.exclusive, h.holding⟩
  | notify c woken => exact ⟨h.exclusive, h.holding⟩
  | notifyAll c => exact ⟨h.exclusive, h.holding⟩
  | resume t c => exact h.move (hmoves rfl) (fun _ => hrestored)

/-- **A lost name**: the thread returns from `wait`, and `holder_` has
    another one or none. -/
theorem not_holderKnown_resume {c : Cond} (h : s.holder_ ≠ t.val) :
    ¬ (s.resume t c).HolderKnown := by
  intro hknown
  have hholds : (s.resume t c).Holds t := ⟨rfl, Function.update_self ..⟩
  have hlocked := (hknown t hholds t).mpr rfl
  exact h (beq_iff_eq.mp hlocked)

/-- A signal while nobody waits. -/
theorem Recorded.setCond {c : Cond} {v : CondVar Tid} (h : s.Recorded)
    (hv : ∀ u, u ∈ v.waiting → u ∈ (s.cond_ c).waiting) : (s.setCond c v).Recorded where
  exclusive := h.exclusive
  free := h.free
  inside := h.inside
  awake := by
    intro d u hu
    change u ∈ (Function.update s.cond_ c v d).waiting at hu
    by_cases hd : d = c
    · rw [hd, Function.update_self] at hu
      exact h.awake c u (hv u hu)
    · rw [Function.update_of_ne hd] at hu
      exact h.awake d u hu

theorem recorded_next (h : s.Recorded) (hguard : s.guard l) (hwait : ∀ t c, l ≠ .wait t c) :
    (s.next l).Recorded := by
  have hmoves : ∀ {t p}, l.mover = some (t, p) → s.Moves t p (s.next l) :=
    moves_next h.exclusive hguard
  cases l with
  | lockMutex t => exact h.move (hmoves rfl) (h.free hguard.2) rfl
  | setHolder t => exact h.move (hmoves rfl) rfl rfl
  | clearHolder t => exact h.move (hmoves rfl) rfl rfl
  | unlockMutex t =>
    -- `unlock` has cleared `holder_` already
    exact h.move (hmoves rfl) (h.inside t .unlocking hguard rfl) rfl
  | wait t c => exact absurd rfl (hwait t c)
  | wake t c => exact h.setCond fun u hu => CondVar.mem_waiting_wake.mp hu
  | notify c woken => exact h.setCond fun u hu => CondVar.mem_waiting_notify.mp hu
  | notifyAll c => exact h.setCond fun u hu => hu
  | resume t c =>
    -- nobody has waited, so nobody was woken
    exact absurd (List.mem_append_right _ hguard.1) (h.awake c t)

/-- **A name left behind**: the mutex is free and `holder_` has the thread
    that waits. -/
theorem not_freeKnown_wait {c : Cond} (h : s.Named) (hplace : s.place t = .holding) :
    ¬ (s.wait t c).FreeKnown := by
  intro hfree
  have hzero : s.holder_ = 0 := hfree rfl
  have hpos := t.property
  rw [h.holding t hplace] at hzero
  omega

/-! ## All runs -/

/-- What is promised of `holder_`. -/
def KnowsHolder (s : MutexLock Cond) : Prop := s.HolderKnown ∧ s.FreeKnown

/-- **Only runs without a wait** know the holder all the time. -/
theorem knowsHolder_iff_no_wait (hvalid : (mutexLock Cond).Valid new ls) :
    (∀ pre, pre <+: ls → ((mutexLock Cond).run new pre).KnowsHolder) ↔
      ∀ l ∈ ls, ∀ t c, l ≠ .wait t c := by
  rw [← Machine.along_iff_forall (mutexLock Cond) new]
  refine Machine.always_iff_along (mutexLock Cond)
    (fun s ls => s.Recorded ∧ (mutexLock Cond).Valid s ls) KnowsHolder ?_ ?_ ?_
    ⟨recorded_new, hvalid⟩
  · intro s ls h
    exact ⟨h.1.named.holderKnown, h.1.free⟩
  · intro s l ls h hcond
    exact ⟨recorded_next h.1 h.2.1 hcond, h.2.2⟩
  · intro s l ls h hcond hgood
    cases l with
    | wait t c =>
      -- the first wait of the run, so its thread is in `holder_`
      exact not_freeKnown_wait h.1.named h.2.1 hgood.2
    | _ => exact hcond fun t c hl => by cases hl

/-- **The right thread is told so** all the time, exactly when nobody has
    used the lock while a thread waited. -/
theorem holderKnown_iff_restored (hvalid : (mutexLock Cond).Valid new ls) :
    (∀ pre, pre <+: ls → ((mutexLock Cond).run new pre).HolderKnown) ↔
      (mutexLock Cond).Along Restored new ls := by
  refine Machine.always_iff_along (mutexLock Cond)
    (fun s ls => s.Named ∧ (mutexLock Cond).Valid s ls) HolderKnown ?_ ?_ ?_
    ⟨named_new, hvalid⟩
  · intro s ls h
    exact h.1.holderKnown
  · intro s l ls h hcond
    exact ⟨named_next h.1 h.2.1 hcond, h.2.2⟩
  · intro s l ls h hcond hgood
    cases l with
    | resume t c => exact not_holderKnown_resume hcond hgood
    | _ => exact hcond trivial

end Steps

/-- **The holder of a MutexLock**: all states of a run know it exactly when
    no thread waits, and the threads are told right exactly when each one
    that returns from `wait` is still in `holder_`. -/
theorem mutexLock_knows_holder_iff [DecidableEq Cond] {ls : List (Step Cond)}
    (hvalid : (mutexLock Cond).Valid new ls) :
    ((∀ pre, pre <+: ls → ((mutexLock Cond).run new pre).KnowsHolder) ↔
        ∀ l ∈ ls, ∀ t c, l ≠ .wait t c) ∧
      ((∀ pre, pre <+: ls → ((mutexLock Cond).run new pre).HolderKnown) ↔
        (mutexLock Cond).Along Restored new ls) :=
  ⟨knowsHolder_iff_no_wait hvalid, holderKnown_iff_restored hvalid⟩

section Runs

/-- `lock()`, and the whole of `unlock()`. -/
def lockSteps (t : Tid) : List (Step Unit) := [.lockMutex t, .setHolder t]

def unlockSteps (t : Tid) : List (Step Unit) := [.clearHolder t, .unlockMutex t]

/-- One thread waits, another one locks, notifies and unlocks. -/
def waitedRun : List (Step Unit) :=
  lockSteps (tid 0) ++ [.wait (tid 0) ()] ++ lockSteps (tid 1) ++ [.notify () (some (tid 0))] ++
    unlockSteps (tid 1) ++ [.resume (tid 0) ()]

/-- Two threads take turns. -/
def turnsRun : List (Step Unit) :=
  lockSteps (tid 0) ++ unlockSteps (tid 0) ++ lockSteps (tid 1) ++ [.notifyAll ()] ++
    unlockSteps (tid 1)

theorem mutexLock_knows_holder_turns :
    ((∀ pre, pre <+: turnsRun → ((mutexLock Unit).run new pre).KnowsHolder) ↔
        ∀ l ∈ turnsRun, ∀ t c, l ≠ .wait t c) ∧
      ((∀ pre, pre <+: turnsRun → ((mutexLock Unit).run new pre).HolderKnown) ↔
        (mutexLock Unit).Along Restored new turnsRun) :=
  mutexLock_knows_holder_iff (by decide +kernel)

/-- The waiting thread is in `holder_` of a free mutex, and when it has the
    mutex again nobody is. -/
theorem mutexLock_forgets_holder :
    (mutexLock Unit).Valid new waitedRun ∧
      ((mutexLock Unit).run new (waitedRun.take 3)).mutex_ = none ∧
      ((mutexLock Unit).run new (waitedRun.take 3)).holder_ = 1 ∧
      ((mutexLock Unit).run new waitedRun).Holds (tid 0) ∧
      ((mutexLock Unit).run new waitedRun).isLockedByThisThread (tid 0) = false := by
  unfold Holds
  decide +kernel

end Runs

end MutexLock

end TinyWS
