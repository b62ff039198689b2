import TinyWS.Net.TimerQueue

/-! # The Two Timer Sets Agree

    `timers_` orders the pending timers by expiry and `activeTimers_` by
    address.  Both hold the same timers, each under its own key: an entry
    has the expiry of its timer, an active timer has the sequence number
    of its own.

    A timer leaves both sets when it is cancelled or collected, and comes
    back to both when it is added or restarted.  In between it stands
    *outside*, once: in the functor that will add it, or in the batch of
    `handleRead`.  This is what keeps every insertion new and every
    removal exact.

    The clock may show any time at any moment. -/

namespace TinyWS

open Std

/-! ## Ordered sets -/

section OrderedSet

variable {α : Type} {cmp : α → α → Ordering} [TransCmp cmp] [LawfulEqCmp cmp]

theorem mem_insert_iff {s : ExtTreeSet α cmp} {k a : α} : a ∈ s.insert k ↔ a = k ∨ a ∈ s := by
  rw [ExtTreeSet.mem_insert, LawfulEqCmp.compare_eq_iff_eq, eq_comm]

theorem mem_erase_iff {s : ExtTreeSet α cmp} {k a : α} : a ∈ s.erase k ↔ a ≠ k ∧ a ∈ s := by
  rw [ExtTreeSet.mem_erase, Ne, LawfulEqCmp.compare_eq_iff_eq, eq_comm]

theorem mem_filter_iff {s : ExtTreeSet α cmp} {f : α → Bool} {a : α} :
    a ∈ s.filter f ↔ a ∈ s ∧ f a = true := by
  rw [ExtTreeSet.mem_filter]
  constructor
  · rintro ⟨hmem, hf⟩
    rw [ExtTreeSet.get_eq] at hf
    exact ⟨hmem, hf⟩
  · rintro ⟨hmem, hf⟩
    refine ⟨hmem, ?_⟩
    rw [ExtTreeSet.get_eq]
    exact hf

theorem nodup_toList (s : ExtTreeSet α cmp) : s.toList.Nodup := by
  refine ExtTreeSet.distinct_toList.imp ?_
  rintro a b hne rfl
  exact hne ReflCmp.compare_self

end OrderedSet

instance : LawfulEqCmp ActiveTimer.cmp where
  eq_of_compare {a b} h := by
    rw [ActiveTimer.cmp, compareLex_eq_eq] at h
    have htimer := LawfulEqOrd.eq_of_compare h.1
    have hsequence := LawfulEqOrd.eq_of_compare h.2
    cases a
    cases b
    simp_all

/-- There is an object at the address. -/
theorem mem_heap_iff {heap : ExtTreeMap TimerPtr Timer compare} {t : TimerPtr} :
    t ∈ heap ↔ ∃ timer, heap[t]? = some timer := by
  rw [ExtTreeMap.mem_iff_isSome_getElem?, Option.isSome_iff_exists]

namespace TimerQueue

/-! ## The invariant -/

/-- The entries tell the truth about the timers, and no timer is at once
    in the set and about to be inserted. -/
structure WellKept (q : TimerQueue) (outside : List TimerPtr) : Prop where
  time : ∀ e ∈ q.timers_, ∃ timer, q.heap[e.timer]? = some timer ∧ timer.expiredTime_ = e.time
  known : ∀ t ∈ outside, t ∈ q.heap
  absent : ∀ t ∈ outside, ∀ e ∈ q.timers_, e.timer ≠ t
  distinct : outside.Nodup

/-- The timers that are not in the set but may be put there. -/
def outside (q : TimerQueue) : List TimerPtr :=
  match q.phase with
  | .idle | .rearming _ _ => q.adding
  | .calling _ expired _ => expired.map Entry.timer ++ q.adding

/-- The same timers are in both sets. -/
def SameTimers (q : TimerQueue) : Prop :=
  ∀ a, a ∈ q.activeTimers_ ↔
    (∃ e ∈ q.timers_, e.timer = a.timer) ∧
      q.heap[a.timer]?.map Timer.sequence_ = some a.sequence

/-- No assert about the sets has failed. -/
def SetAssertsHold (q : TimerQueue) : Prop :=
  ∀ a ∈ q.failedAsserts, a = .sentry ∨ a = .cancelTimer

/-- A timer has one entry. -/
theorem WellKept.entry_unique {q : TimerQueue} {ts : List TimerPtr} (h : q.WellKept ts)
    {e e' : Entry} (he : e ∈ q.timers_) (he' : e' ∈ q.timers_) (heq : e.timer = e'.timer) :
    e = e' := by
  obtain ⟨timer, htimer, htime⟩ := h.time e he
  obtain ⟨timer', htimer', htime'⟩ := h.time e' he'
  rw [heq, htimer'] at htimer
  cases htimer
  cases e
  cases e'
  simp_all

/-- Both sets list their timers once, so they are of one size. -/
theorem size_eq {q : TimerQueue} {ts : List TimerPtr} (h : q.WellKept ts) (hs : q.SameTimers) :
    q.timers_.size = q.activeTimers_.size := by
  have htimers : (q.timers_.toList.map Entry.timer).Nodup := by
    refine List.Nodup.map_on (fun e he e' he' heq => ?_) (nodup_toList _)
    exact h.entry_unique (ExtTreeSet.mem_toList.mp he) (ExtTreeSet.mem_toList.mp he') heq
  have hactive : (q.activeTimers_.toList.map ActiveTimer.timer).Nodup := by
    refine List.Nodup.map_on (fun a ha a' ha' heq => ?_) (nodup_toList _)
    -- one timer has one sequence number
    have hseq := ((hs a).mp (ExtTreeSet.mem_toList.mp ha)).2
    have hseq' := ((hs a').mp (ExtTreeSet.mem_toList.mp ha')).2
    rw [heq, hseq'] at hseq
    cases a
    cases a'
    simp_all
  have hperm : (q.timers_.toList.map Entry.timer).Perm
      (q.activeTimers_.toList.map ActiveTimer.timer) := by
    refine (List.perm_ext_iff_of_nodup htimers hactive).mpr fun t => ?_
    simp only [List.mem_map, ExtTreeSet.mem_toList]
    constructor
    · rintro ⟨e, he, rfl⟩
      obtain ⟨timer, htimer, -⟩ := h.time e he
      exact ⟨⟨e.timer, timer.sequence_⟩, (hs _).mpr ⟨⟨e, he, rfl⟩, by rw [htimer]; rfl⟩, rfl⟩
    · rintro ⟨a, ha, rfl⟩
      exact ((hs a).mp ha).1
  have hlength := hperm.length_eq
  rwa [List.length_map, List.length_map, ExtTreeSet.length_toList,
    ExtTreeSet.length_toList] at hlength

/-- An assert that holds leaves no trace. -/
@[simp] theorem check_true (q : TimerQueue) (a : TimerAssert) : q.check a true = q := rfl

theorem checkSizes_eq {q : TimerQueue} {ts : List TimerPtr} (h : q.WellKept ts)
    (hs : q.SameTimers) : q.checkSizes = q := by
  rw [checkSizes, size_eq h hs, beq_self_eq_true, check_true]

/-! ## Insertion -/

@[simp] theorem timers_insert (q : TimerQueue) (t : TimerPtr) (timer : Timer) :
    (q.insert t timer).1.timers_ = q.timers_.insert ⟨timer.expiredTime_, t⟩ := by
  simp only [insert, checkSizes, check]

@[simp] theorem heap_insert (q : TimerQueue) (t : TimerPtr) (timer : Timer) :
    (q.insert t timer).1.heap = q.heap := by
  simp only [insert, checkSizes, check]

theorem mem_insert {q : TimerQueue} {t : TimerPtr} {timer : Timer} {e : Entry}
    (h : e ∈ (q.insert t timer).1.timers_) :
    e = ⟨timer.expiredTime_, t⟩ ∨ e ∈ q.timers_ := by
  rw [timers_insert, ExtTreeSet.mem_insert] at h
  rcases h with h | h
  · exact Or.inl (LawfulEqCmp.eq_of_compare h).symm
  · exact Or.inr h

theorem mem_insert_self (q : TimerQueue) (t : TimerPtr) (timer : Timer) :
    ⟨timer.expiredTime_, t⟩ ∈ (q.insert t timer).1.timers_ := by
  rw [timers_insert, ExtTreeSet.mem_insert]
  exact Or.inl ReflCmp.compare_self

/-- Inserting one of the timers that stood outside. -/
theorem wellKept_insert {q : TimerQueue} {t : TimerPtr} {ts : List TimerPtr} {timer : Timer}
    (h : q.WellKept (t :: ts)) (ht : q.heap[t]? = some timer) :
    (q.insert t timer).1.WellKept ts := by
  obtain ⟨hnot, hnodup⟩ := List.nodup_cons.mp h.distinct
  refine ⟨?_, ?_, ?_, hnodup⟩
  · -- the new entry has the time of its timer
    intro e he
    rw [heap_insert]
    rcases mem_insert he with rfl | he
    · exact ⟨timer, ht, rfl⟩
    · exact h.time e he
  · intro u hu
    rw [heap_insert]
    exact h.known u (List.mem_cons_of_mem t hu)
  · -- and is of none of the timers that stay outside
    intro u hu e he
    rcases mem_insert he with rfl | he
    · rintro rfl
      exact hnot hu
    · exact h.absent u (List.mem_cons_of_mem t hu) e he

theorem WellKept.perm {q : TimerQueue} {ts us : List TimerPtr} (h : q.WellKept ts)
    (hperm : ts.Perm us) : q.WellKept us :=
  ⟨h.time, fun t ht => h.known t (hperm.mem_iff.mpr ht),
    fun t ht => h.absent t (hperm.mem_iff.mpr ht), hperm.nodup_iff.mp h.distinct⟩

theorem WellKept.tail {q : TimerQueue} {t : TimerPtr} {ts : List TimerPtr}
    (h : q.WellKept (t :: ts)) : q.WellKept ts :=
  ⟨h.time, fun u hu => h.known u (List.mem_cons_of_mem t hu),
    fun u hu => h.absent u (List.mem_cons_of_mem t hu), (List.nodup_cons.mp h.distinct).2⟩

/-- Fewer entries over the same timers. -/
theorem WellKept.mono {q q' : TimerQueue} {ts : List TimerPtr} (h : q.WellKept ts)
    (hheap : q'.heap = q.heap) (htimers : ∀ e ∈ q'.timers_, e ∈ q.timers_) : q'.WellKept ts := by
  refine ⟨fun e he => ?_, fun t ht => ?_, fun t ht e he => ?_, h.distinct⟩
  · rw [hheap]
    exact h.time e (htimers e he)
  · rw [hheap]
    exact h.known t ht
  · exact h.absent t ht e (htimers e he)

/-! ## Steps that keep the entries -/

/-- The two sets agree, over the timers that do not stand outside. -/
structure Agrees (q : TimerQueue) (ts : List TimerPtr) : Prop where
  kept : q.WellKept ts
  same : q.SameTimers
  asserts : q.SetAssertsHold

theorem Agrees.perm {q : TimerQueue} {ts us : List TimerPtr} (h : q.Agrees ts)
    (hperm : ts.Perm us) : q.Agrees us :=
  ⟨h.kept.perm hperm, h.same, h.asserts⟩

theorem Agrees.tail {q : TimerQueue} {t : TimerPtr} {ts : List TimerPtr}
    (h : q.Agrees (t :: ts)) : q.Agrees ts :=
  ⟨h.kept.tail, h.same, h.asserts⟩

/-- Only the two sets, the timers and the asserts are looked at. -/
theorem Agrees.congr {q q' : TimerQueue} {ts : List TimerPtr} (h : q.Agrees ts)
    (htimers : q'.timers_ = q.timers_) (hactive : q'.activeTimers_ = q.activeTimers_)
    (hheap : q'.heap = q.heap) (hasserts : q'.failedAsserts = q.failedAsserts) :
    q'.Agrees ts := by
  refine ⟨h.kept.mono hheap (fun e he => htimers ▸ he), fun a => ?_, ?_⟩
  · rw [hactive, htimers, hheap]
    exact h.same a
  · rw [SetAssertsHold, hasserts]
    exact h.asserts

theorem Agrees.checkSizes {q : TimerQueue} {ts : List TimerPtr} (h : q.Agrees ts) :
    q.checkSizes = q :=
  checkSizes_eq h.kept h.same

/-- A function that works on the sets leaves the rest alone. -/
structure SameRest (q q' : TimerQueue) : Prop where
  adding : q'.adding = q.adding
  clock : q'.clock = q.clock
  timerfd_ : q'.timerfd_ = q.timerfd_
  phase : q'.phase = q.phase
  fired : q'.fired = q.fired
  callingExpiredTimers_ : q'.callingExpiredTimers_ = q.callingExpiredTimers_

theorem SameRest.refl (q : TimerQueue) : SameRest q q := ⟨rfl, rfl, rfl, rfl, rfl, rfl⟩

theorem SameRest.trans {q q' q'' : TimerQueue} (h : SameRest q q') (h' : SameRest q' q'') :
    SameRest q q'' :=
  ⟨h'.adding.trans h.adding, h'.clock.trans h.clock, h'.timerfd_.trans h.timerfd_,
    h'.phase.trans h.phase, h'.fired.trans h.fired,
    h'.callingExpiredTimers_.trans h.callingExpiredTimers_⟩

/-- The same timers stand outside. -/
theorem SameRest.outside {q q' : TimerQueue} (h : SameRest q q') : q'.outside = q.outside := by
  rw [TimerQueue.outside, TimerQueue.outside, h.phase, h.adding]

theorem insert_frame (q : TimerQueue) (t : TimerPtr) (timer : Timer) :
    SameRest q (q.insert t timer).1 ∧
      (q.insert t timer).1.cancelingTimers_ = q.cancelingTimers_ := by
  constructor
  · simp only [insert, checkSizes, check]
    exact ⟨rfl, rfl, rfl, rfl, rfl, rfl⟩
  · simp only [insert, checkSizes, check]

/-- The state after `insert`. -/
def inserted (q : TimerQueue) (t : TimerPtr) (timer : Timer) : TimerQueue :=
  { q with
    timers_ := q.timers_.insert ⟨timer.expiredTime_, t⟩
    activeTimers_ := q.activeTimers_.insert ⟨t, timer.sequence_⟩ }

/-- A timer that stood outside goes into both sets. -/
theorem agrees_inserted {q : TimerQueue} {t : TimerPtr} {ts : List TimerPtr} {timer : Timer}
    (h : q.Agrees (t :: ts)) (ht : q.heap[t]? = some timer) : (q.inserted t timer).Agrees ts := by
  refine ⟨(wellKept_insert h.kept ht).mono rfl fun e he => he, fun a => ?_, h.asserts⟩
  show a ∈ q.activeTimers_.insert ⟨t, timer.sequence_⟩ ↔
    (∃ e ∈ q.timers_.insert ⟨timer.expiredTime_, t⟩, e.timer = a.timer) ∧
      q.heap[a.timer]?.map Timer.sequence_ = some a.sequence
  rw [mem_insert_iff, h.same a]
  constructor
  · rintro (rfl | ⟨⟨e, he, hea⟩, hseq⟩)
    · exact ⟨⟨_, mem_insert_iff.mpr (Or.inl rfl), rfl⟩, by rw [ht]; rfl⟩
    · exact ⟨⟨e, mem_insert_iff.mpr (Or.inr he), hea⟩, hseq⟩
  · rintro ⟨⟨e, he, hea⟩, hseq⟩
    rcases mem_insert_iff.mp he with rfl | he
    · -- the new timer, under its own sequence number
      left
      change t = a.timer at hea
      rw [← hea, ht] at hseq
      cases a
      simp_all
    · exact Or.inr ⟨⟨e, he, hea⟩, hseq⟩

/-- All asserts of `insert` hold. -/
theorem insert_eq {q : TimerQueue} {t : TimerPtr} {ts : List TimerPtr} {timer : Timer}
    (h : q.Agrees (t :: ts)) (ht : q.heap[t]? = some timer) :
    (q.insert t timer).1 = q.inserted t timer := by
  have hentry : q.timers_.contains ⟨timer.expiredTime_, t⟩ = false := by
    rw [Bool.eq_false_iff, Ne, ExtTreeSet.contains_iff_mem]
    intro he
    exact h.kept.absent t (by simp) _ he rfl
  have hactive : q.activeTimers_.contains ⟨t, timer.sequence_⟩ = false := by
    rw [Bool.eq_false_iff, Ne, ExtTreeSet.contains_iff_mem]
    intro ha
    obtain ⟨⟨e, he, hea⟩, -⟩ := (h.same _).mp ha
    exact h.kept.absent t (by simp) e he hea
  have hsizes := (agrees_inserted h ht).checkSizes
  simp only [insert, h.checkSizes, hentry, hactive, Bool.not_false, check_true]
  exact hsizes

theorem agrees_insert {q : TimerQueue} {t : TimerPtr} {ts : List TimerPtr} {timer : Timer}
    (h : q.Agrees (t :: ts)) (ht : q.heap[t]? = some timer) :
    (q.insert t timer).1.Agrees ts := by
  rw [insert_eq h ht]
  exact agrees_inserted h ht

/-! ## User operations -/

theorem mem_outside_of_adding {q : TimerQueue} {t : TimerPtr} (h : t ∈ q.adding) :
    t ∈ q.outside := by
  unfold outside
  cases q.phase with
  | idle => exact h
  | calling now expired rest => exact List.mem_append_right _ h
  | rearming expired when_ => exact h

theorem WellKept.getElem? {q : TimerQueue} {ts : List TimerPtr} (h : q.WellKept ts)
    {t : TimerPtr} (ht : t ∈ ts) : ∃ timer, q.heap[t]? = some timer :=
  mem_heap_iff.mp (h.known t ht)

/-- An entry has a timer, so none is at a fresh address. -/
theorem WellKept.fresh {q : TimerQueue} {ts : List TimerPtr} (h : q.WellKept ts) {t : TimerPtr}
    (ht : t ∉ q.heap) : ∀ e ∈ q.timers_, e.timer ≠ t := by
  rintro e he rfl
  obtain ⟨timer, htimer, -⟩ := h.time e he
  exact ht (mem_heap_iff.mpr ⟨timer, htimer⟩)

/-- Every other object stays where it is. -/
theorem getElem?_insert_of_ne {heap : ExtTreeMap TimerPtr Timer compare} {t u : TimerPtr}
    {timer : Timer} (hne : u ≠ t) : (heap.insert t timer)[u]? = heap[u]? := by
  rw [ExtTreeMap.getElem?_insert, if_neg]
  intro heq
  exact hne (LawfulEqOrd.eq_of_compare heq).symm

theorem getElem?_insert_self {heap : ExtTreeMap TimerPtr Timer compare} {t : TimerPtr}
    {timer : Timer} : (heap.insert t timer)[t]? = some timer := by
  rw [ExtTreeMap.getElem?_insert, if_pos ReflCmp.compare_self]

theorem outside_addTimer (q : TimerQueue) (t : TimerPtr) (timeout interval : Int) :
    (q.addTimer t timeout interval).outside.Perm (t :: q.outside) := by
  show (outside { q with adding := t :: q.adding }).Perm _
  unfold outside
  cases q.phase with
  | idle => exact List.Perm.refl _
  | calling now expired rest => exact List.perm_middle
  | rearming expired when_ => exact List.Perm.refl _

/-- A new timer stands outside. -/
theorem wellKept_addTimer {q : TimerQueue} {ts : List TimerPtr} (h : q.WellKept ts)
    {t : TimerPtr} (ht : t ∉ q.heap) (timeout interval : Int) :
    (q.addTimer t timeout interval).WellKept (t :: ts) := by
  have hfresh := h.fresh ht
  refine ⟨fun e he => ?_, fun u hu => ?_, fun u hu e he => ?_,
    List.nodup_cons.mpr ⟨fun hm => ht (h.known t hm), h.distinct⟩⟩
  · obtain ⟨timer, htimer, htime⟩ := h.time e he
    refine ⟨timer, ?_, htime⟩
    show (q.heap.insert t _)[e.timer]? = some timer
    rw [getElem?_insert_of_ne (hfresh e he), htimer]
  · show u ∈ q.heap.insert t _
    rw [ExtTreeMap.mem_insert]
    rcases List.mem_cons.mp hu with rfl | hu
    · exact Or.inl ReflCmp.compare_self
    · exact Or.inr (h.known u hu)
  · rcases List.mem_cons.mp hu with rfl | hu
    · exact hfresh e he
    · exact h.absent u hu e he

theorem agrees_addTimer {q : TimerQueue} {ts : List TimerPtr} (h : q.Agrees ts) {t : TimerPtr}
    (ht : t ∉ q.heap) (timeout interval : Int) :
    (q.addTimer t timeout interval).Agrees (t :: ts) := by
  refine ⟨wellKept_addTimer h.kept ht timeout interval, fun a => ?_, h.asserts⟩
  show a ∈ q.activeTimers_ ↔ (∃ e ∈ q.timers_, e.timer = a.timer) ∧
    (q.heap.insert t _)[a.timer]?.map Timer.sequence_ = some a.sequence
  rw [h.same a]
  refine and_congr_right ?_
  rintro ⟨e, he, hea⟩
  rw [getElem?_insert_of_ne (hea ▸ h.kept.fresh ht e he)]

/-- `addTimerInLoop` inserts the timer, and sets `timerfd_` if it is the
    earliest one now. -/
theorem addTimerInLoop_spec {q : TimerQueue} {t : TimerPtr} {timer : Timer}
    (ht : q.heap[t]? = some timer) :
    ∃ fd, q.addTimerInLoop t =
        { (q.insert t timer).1 with adding := q.adding.erase t, timerfd_ := fd } ∧
      fd = if (q.insert t timer).2 then
        .armed (q.clock + q.howMuchTimeFromNow timer.expiredTime_) q.clock else q.timerfd_ := by
  obtain ⟨hrest, -⟩ := q.insert_frame t timer
  simp only [addTimerInLoop, ht, howMuchTimeFromNow]
  rw [← hrest.adding, ← hrest.clock, ← hrest.timerfd_]
  by_cases hb : (q.insert t timer).2 = true
  · rw [if_pos hb, if_pos hb]
    exact ⟨_, rfl, rfl⟩
  · rw [if_neg hb, if_neg hb]
    exact ⟨_, rfl, rfl⟩

/-- The timer added is one of those outside. -/
theorem outside_addTimerInLoop {q : TimerQueue} {t : TimerPtr} (hadding : t ∈ q.adding)
    {q' : TimerQueue} (hphase : q'.phase = q.phase) (hrest : q'.adding = q.adding.erase t) :
    q.outside.Perm (t :: q'.outside) := by
  unfold outside
  rw [hphase, hrest]
  cases q.phase with
  | idle => exact List.perm_cons_erase hadding
  | calling now expired rest =>
    exact ((List.perm_cons_erase hadding).append_left _).trans List.perm_middle
  | rearming expired when_ => exact List.perm_cons_erase hadding

theorem agrees_addTimerInLoop {q : TimerQueue} (h : q.Agrees q.outside) {t : TimerPtr}
    (hadding : t ∈ q.adding) : (q.addTimerInLoop t).Agrees (q.addTimerInLoop t).outside := by
  obtain ⟨timer, ht⟩ := h.kept.getElem? (mem_outside_of_adding hadding)
  obtain ⟨fd, heq, -⟩ := addTimerInLoop_spec ht
  have hout : q.outside.Perm (t :: (q.addTimerInLoop t).outside) :=
    outside_addTimerInLoop hadding (by rw [heq]; rfl) (by rw [heq])
  refine (agrees_insert (h.perm hout) ht).congr ?_ ?_ ?_ ?_
  all_goals rw [heq]

/-! ## Cancelling -/

/-- `cancelInLoop` takes at most one entry away. -/
theorem cancelLocked_frame (q : TimerQueue) (t : TimerPtr) (cancelTimer : Option Timer) :
    (∀ e ∈ (q.cancelLocked t cancelTimer).timers_, e ∈ q.timers_) ∧
      (q.cancelLocked t cancelTimer).heap = q.heap ∧
      SameRest q (q.cancelLocked t cancelTimer) := by
  have hsub : ∀ e entry : Entry, e ∈ q.timers_.erase entry → e ∈ q.timers_ :=
    fun e entry he => ExtTreeSet.mem_of_mem_erase he
  unfold cancelLocked
  dsimp only [checkSizes, check]
  split
  · exact ⟨fun _ he => he, rfl, ⟨rfl, rfl, rfl, rfl, rfl, rfl⟩⟩
  · split
    · exact ⟨fun e he => hsub e _ he, rfl, ⟨rfl, rfl, rfl, rfl, rfl, rfl⟩⟩
    · split
      · exact ⟨fun _ he => he, rfl, ⟨rfl, rfl, rfl, rfl, rfl, rfl⟩⟩
      · exact ⟨fun _ he => he, rfl, ⟨rfl, rfl, rfl, rfl, rfl, rfl⟩⟩

/-- What `cancelInLoop` does with a timer it could lock. -/
theorem cancelLocked_cases {q : TimerQueue} {ts : List TimerPtr} (h : q.Agrees ts) {t : TimerPtr}
    {timer : Timer} (ht : q.heap[t]? = some timer) :
    ((∃ e ∈ q.timers_, e.timer = t) ∧ ⟨timer.expiredTime_, t⟩ ∈ q.timers_ ∧
        q.cancelLocked t (some timer) = checkSizes
          { q with
            timers_ := q.timers_.erase ⟨timer.expiredTime_, t⟩
            activeTimers_ := q.activeTimers_.erase ⟨t, timer.sequence_⟩ }) ∨
      ((∀ e ∈ q.timers_, e.timer ≠ t) ∧
        q.cancelLocked t (some timer) =
          if q.callingExpiredTimers_ then
            { q with cancelingTimers_ := q.cancelingTimers_.insert ⟨t, timer.sequence_⟩ }
          else q) := by
  by_cases hin : ∃ e ∈ q.timers_, e.timer = t
  · -- in both sets: the entry is the one that is erased
    obtain ⟨e, he, rfl⟩ := hin
    obtain ⟨timer', ht', htime⟩ := h.kept.time e he
    rw [ht] at ht'
    cases ht'
    have hentry : (⟨timer.expiredTime_, e.timer⟩ : Entry) ∈ q.timers_ := by rwa [htime]
    have hactive : (⟨e.timer, timer.sequence_⟩ : ActiveTimer) ∈ q.activeTimers_ :=
      (h.same _).mpr ⟨⟨e, he, rfl⟩, by rw [ht]; rfl⟩
    have hfound := ExtTreeSet.contains_iff_mem.mpr hentry
    have hfound' := ExtTreeSet.contains_iff_mem.mpr hactive
    refine Or.inl ⟨⟨e, he, rfl⟩, hentry, ?_⟩
    simp only [cancelLocked, h.checkSizes, hfound', hfound, if_true, check_true]
  · -- in neither set: it is remembered if callbacks are running
    have hout : ∀ e ∈ q.timers_, e.timer ≠ t := fun e he heq => hin ⟨e, he, heq⟩
    have hactive : ¬ q.activeTimers_.contains ⟨t, timer.sequence_⟩ = true := by
      rw [ExtTreeSet.contains_iff_mem, h.same]
      exact fun ha => hin ha.1
    refine Or.inr ⟨hout, ?_⟩
    have hagain : q.checkSizes = q := h.checkSizes
    by_cases hcalling : q.callingExpiredTimers_ = true
    · have hmarked : Agrees
          { q with
            cancelingTimers_ := q.cancelingTimers_.insert ⟨t, timer.sequence_⟩ } ts :=
        h.congr rfl rfl rfl rfl
      simp only [cancelLocked, hagain, if_neg hactive, if_pos hcalling]
      exact hmarked.checkSizes
    · simp only [cancelLocked, hagain, if_neg hactive, if_neg hcalling]

/-- A timer that leaves both sets. -/
theorem agrees_erase {q : TimerQueue} {ts : List TimerPtr} (h : q.Agrees ts) {t : TimerPtr}
    {timer : Timer} (ht : q.heap[t]? = some timer) :
    { q with
      timers_ := q.timers_.erase ⟨timer.expiredTime_, t⟩
      activeTimers_ := q.activeTimers_.erase ⟨t, timer.sequence_⟩ }.Agrees ts := by
  refine ⟨h.kept.mono rfl fun e he => ExtTreeSet.mem_of_mem_erase he, fun a => ?_, h.asserts⟩
  show a ∈ q.activeTimers_.erase ⟨t, timer.sequence_⟩ ↔
    (∃ e ∈ q.timers_.erase ⟨timer.expiredTime_, t⟩, e.timer = a.timer) ∧
      q.heap[a.timer]?.map Timer.sequence_ = some a.sequence
  rw [mem_erase_iff, h.same a]
  constructor
  · rintro ⟨hne, ⟨e, he, hea⟩, hseq⟩
    refine ⟨⟨e, mem_erase_iff.mpr ⟨?_, he⟩, hea⟩, hseq⟩
    rintro rfl
    -- the sequence number of `t` is that of `a`
    apply hne
    change t = a.timer at hea
    rw [← hea, ht] at hseq
    cases a
    simp_all
  · rintro ⟨⟨e, he, hea⟩, hseq⟩
    obtain ⟨hne, he⟩ := mem_erase_iff.mp he
    refine ⟨?_, ⟨e, he, hea⟩, hseq⟩
    rintro rfl
    -- `t` has no other entry
    apply hne
    obtain ⟨timer', ht', htime⟩ := h.kept.time e he
    change e.timer = t at hea
    rw [hea, ht] at ht'
    cases ht'
    cases e
    simp_all

theorem agrees_cancelLocked {q : TimerQueue} {ts : List TimerPtr} (h : q.Agrees ts)
    {t : TimerPtr} {cancelTimer : Option Timer}
    (ht : ∀ timer ∈ cancelTimer, q.heap[t]? = some timer) :
    (q.cancelLocked t cancelTimer).Agrees ts := by
  cases cancelTimer with
  | none =>
    -- the lock failed, and with it the other assert
    have heq : q.cancelLocked t none = q.check .cancelTimer false := by
      simp only [cancelLocked, h.checkSizes]
    rw [heq]
    refine ⟨h.kept.mono rfl fun _ he => he, h.same, ?_⟩
    intro a ha
    rcases List.mem_append.mp ha with ha | ha
    · exact h.asserts a ha
    · exact Or.inr (List.mem_singleton.mp ha)
  | some timer =>
    have htimer := ht timer rfl
    rcases cancelLocked_cases h htimer with ⟨-, -, heq⟩ | ⟨-, heq⟩
    · rw [heq, (agrees_erase h htimer).checkSizes]
      exact agrees_erase h htimer
    · rw [heq]
      split
      · exact h.congr rfl rfl rfl rfl
      · exact h

/-! ## Collecting the expired timers -/

/-- The entries `getExpired(now)` returns. -/
def expiredAt (q : TimerQueue) (now : Int) : List Entry := q.timers_.toList.filter (beforeSentry now)

/-- The entries it leaves. -/
def laterThan (q : TimerQueue) (now : Int) : ExtTreeSet Entry Entry.cmp :=
  q.timers_.filter fun e => !beforeSentry now e

theorem mem_expiredAt {q : TimerQueue} {now : Int} {e : Entry} :
    e ∈ q.expiredAt now ↔ e ∈ q.timers_ ∧ beforeSentry now e = true := by
  rw [expiredAt, List.mem_filter, ExtTreeSet.mem_toList]

theorem mem_laterThan {q : TimerQueue} {now : Int} {e : Entry} :
    e ∈ q.laterThan now ↔ e ∈ q.timers_ ∧ beforeSentry now e = false := by
  rw [laterThan, mem_filter_iff, Bool.not_eq_true']

/-- The collected timers stand outside, together with those that did. -/
theorem wellKept_collect {q : TimerQueue} {ts : List TimerPtr} (h : q.WellKept ts) (now : Int) :
    { q with timers_ := q.laterThan now }.WellKept ((q.expiredAt now).map Entry.timer ++ ts) := by
  refine ⟨fun e he => h.time e (mem_laterThan.mp he).1, fun t ht => ?_, fun t ht e he => ?_, ?_⟩
  · rcases List.mem_append.mp ht with ht | ht
    · obtain ⟨e, he, rfl⟩ := List.mem_map.mp ht
      obtain ⟨timer, htimer, -⟩ := h.time e (mem_expiredAt.mp he).1
      exact mem_heap_iff.mpr ⟨timer, htimer⟩
    · exact h.known t ht
  · obtain ⟨hmem, hlater⟩ := mem_laterThan.mp he
    rcases List.mem_append.mp ht with ht | ht
    · obtain ⟨x, hx, rfl⟩ := List.mem_map.mp ht
      intro heq
      obtain ⟨hmem', hbefore⟩ := mem_expiredAt.mp hx
      -- one entry cannot be on both sides of the sentry
      rw [← h.entry_unique hmem hmem' heq, hlater] at hbefore
      cases hbefore
    · exact h.absent t ht e hmem
  · refine List.nodup_append.mpr ⟨?_, h.distinct, ?_⟩
    · refine List.Nodup.map_on (fun e he e' he' heq => ?_) ((nodup_toList _).filter _)
      exact h.entry_unique (mem_expiredAt.mp he).1 (mem_expiredAt.mp he').1 heq
    · rintro t ht u hu rfl
      obtain ⟨e, he, rfl⟩ := List.mem_map.mp ht
      exact h.absent e.timer hu e (mem_expiredAt.mp he).1 rfl

theorem handleRead_spec (q : TimerQueue) :
    q.handleRead.timers_ = q.laterThan q.clock ∧ q.handleRead.heap = q.heap ∧
      q.handleRead.adding = q.adding ∧ q.handleRead.fired = q.fired ∧
      q.handleRead.phase = .calling q.clock (q.expiredAt q.clock) (q.expiredAt q.clock) := by
  simp only [handleRead, getExpired, checkSizes, check, readTimerfd, true_and]
  exact ⟨rfl, rfl⟩

theorem outside_idle {q : TimerQueue} (h : q.phase = .idle) : q.outside = q.adding := by
  rw [outside, h]

theorem outside_calling {q : TimerQueue} {now : Int} {expired rest : List Entry}
    (h : q.phase = .calling now expired rest) :
    q.outside = expired.map Entry.timer ++ q.adding := by
  rw [outside, h]

/-- A collected timer stands outside. -/
theorem mem_outside_of_batch {q : TimerQueue} {now : Int} {expired rest : List Entry}
    (h : q.phase = .calling now expired rest) {t : TimerPtr} (ht : t ∈ expired.map Entry.timer) :
    t ∈ q.outside := by
  rw [outside_calling h]
  exact List.mem_append_left _ ht

/-- The timers of a batch are distinct, and none of them is still to be
    added. -/
theorem WellKept.batch_distinct {q : TimerQueue} (hkept : q.WellKept q.outside) {now : Int}
    {expired rest : List Entry} (h : q.phase = .calling now expired rest) :
    (expired.map Entry.timer).Nodup ∧ ∀ t ∈ expired.map Entry.timer, t ∉ q.adding := by
  have hdistinct := hkept.distinct
  rw [outside_calling h] at hdistinct
  obtain ⟨hnodup, -, hapart⟩ := List.nodup_append.mp hdistinct
  exact ⟨hnodup, fun t ht hadding => hapart t ht t hadding rfl⟩

theorem outside_rearming {q : TimerQueue} {expired : List Entry} {when_ : Int}
    (h : q.phase = .rearming expired when_) : q.outside = q.adding := by
  rw [outside, h]

/-- The loop of `getExpired` over `activeTimers_`, and whether each `erase`
    took one. -/
def release (sequenceOf : TimerPtr → Int) (es : List Entry)
    (r : ExtTreeSet ActiveTimer ActiveTimer.cmp × Bool) :
    ExtTreeSet ActiveTimer ActiveTimer.cmp × Bool :=
  es.foldl (fun r e =>
    let active := ⟨e.timer, sequenceOf e.timer⟩
    (r.1.erase active, r.2 && r.1.contains active)) r

/-- Every timer is there once, so every `erase` takes one. -/
theorem release_spec (sequenceOf : TimerPtr → Int) (es : List Entry) :
    ∀ {r : ExtTreeSet ActiveTimer ActiveTimer.cmp × Bool}, (es.map Entry.timer).Nodup →
      (∀ e ∈ es, ⟨e.timer, sequenceOf e.timer⟩ ∈ r.1) →
      (∀ a, a ∈ (release sequenceOf es r).1 ↔
        a ∈ r.1 ∧ ∀ e ∈ es, a ≠ ⟨e.timer, sequenceOf e.timer⟩) ∧
      (release sequenceOf es r).2 = r.2 := by
  induction es with
  | nil =>
    intro r _ _
    simp [release]
  | cons e es ih =>
    intro r hnodup hmem
    obtain ⟨hnot, hnodup'⟩ := List.nodup_cons.mp hnodup
    have hhead : r.1.contains ⟨e.timer, sequenceOf e.timer⟩ = true :=
      ExtTreeSet.contains_iff_mem.mpr (hmem e (by simp))
    -- the others are at other addresses, and stay
    have hrest : ∀ x ∈ es, (⟨x.timer, sequenceOf x.timer⟩ : ActiveTimer) ∈
        r.1.erase ⟨e.timer, sequenceOf e.timer⟩ := by
      intro x hx
      refine mem_erase_iff.mpr ⟨fun heq => ?_, hmem x (by simp [hx])⟩
      rw [ActiveTimer.mk.injEq] at heq
      exact hnot (heq.1 ▸ List.mem_map_of_mem hx)
    obtain ⟨hiff, hflag⟩ := @ih (r.1.erase ⟨e.timer, sequenceOf e.timer⟩,
      r.2 && r.1.contains ⟨e.timer, sequenceOf e.timer⟩) hnodup' hrest
    refine ⟨fun a => (hiff a).trans ?_, hflag.trans ?_⟩
    · rw [mem_erase_iff, List.forall_mem_cons]
      tauto
    · simp [hhead]

theorem sequenceOf_eq {q : TimerQueue} {t : TimerPtr} {n : Int}
    (h : q.heap[t]?.map Timer.sequence_ = some n) : q.sequenceOf t = n := by
  rw [sequenceOf, h]
  rfl

/-- A failed assert about the sentry says nothing about the sets. -/
theorem setAssertsHold_check {q : TimerQueue} (h : q.SetAssertsHold) {a : TimerAssert}
    (ha : a = .sentry ∨ a = .cancelTimer) (b : Bool) : (q.check a b).SetAssertsHold := by
  intro x hx
  cases b with
  | true => exact h x hx
  | false =>
    rcases List.mem_append.mp hx with hx | hx
    · exact h x hx
    · rw [List.mem_singleton.mp hx]
      exact ha

/-- `it == timers_.end() || now < it->first`. -/
def sentryHolds (q : TimerQueue) (now : Int) : Bool :=
  ((begin? (q.laterThan now)).map fun e => decide (now < e.time)).getD true

/-- A timer that is collected is active, with the number it got. -/
theorem active_of_expiredAt {q : TimerQueue} {ts : List TimerPtr} (hkept : q.WellKept ts)
    (hsame : q.SameTimers) {now : Int} {e : Entry} (he : e ∈ q.expiredAt now) :
    (⟨e.timer, q.sequenceOf e.timer⟩ : ActiveTimer) ∈ q.activeTimers_ := by
  have hmem := (mem_expiredAt.mp he).1
  obtain ⟨timer, htimer, -⟩ := hkept.time e hmem
  have hseq : q.heap[e.timer]?.map Timer.sequence_ = some timer.sequence_ := by
    rw [htimer]
    rfl
  rw [sequenceOf_eq hseq]
  exact (hsame _).mpr ⟨⟨e, hmem, rfl⟩, hseq⟩

/-- What is left of the active timers goes with what is left of the
    entries. -/
theorem sameTimers_laterThan {q : TimerQueue} {ts : List TimerPtr} (hkept : q.WellKept ts)
    (hsame : q.SameTimers) {now : Int} {active : ExtTreeSet ActiveTimer ActiveTimer.cmp}
    (hactive : ∀ a, a ∈ active ↔ a ∈ q.activeTimers_ ∧
      ∀ e ∈ q.expiredAt now, a ≠ ⟨e.timer, q.sequenceOf e.timer⟩) :
    { q with timers_ := q.laterThan now, activeTimers_ := active }.SameTimers := by
  intro a
  show a ∈ active ↔ (∃ e ∈ q.laterThan now, e.timer = a.timer) ∧
    q.heap[a.timer]?.map Timer.sequence_ = some a.sequence
  rw [hactive a, hsame a]
  constructor
  · rintro ⟨⟨⟨e, he, hea⟩, hseq⟩, hno⟩
    refine ⟨⟨e, mem_laterThan.mpr ⟨he, ?_⟩, hea⟩, hseq⟩
    -- had it been collected, `a` would have been erased
    rw [Bool.eq_false_iff]
    intro hbefore
    apply hno e (mem_expiredAt.mpr ⟨he, hbefore⟩)
    rw [hea, sequenceOf_eq hseq]
  · rintro ⟨⟨e, he, hea⟩, hseq⟩
    obtain ⟨hmem, hlater⟩ := mem_laterThan.mp he
    refine ⟨⟨⟨e, hmem, hea⟩, hseq⟩, fun x hx heq => ?_⟩
    -- a timer has one entry, and that one was not collected
    obtain ⟨hmemx, hbefore⟩ := mem_expiredAt.mp hx
    rw [heq] at hea
    rw [← hkept.entry_unique hmem hmemx hea, hlater] at hbefore
    cases hbefore

/-- The collected timers leave both sets.  All asserts of `getExpired` hold,
    but for the one about the sentry. -/
theorem collect_spec {q : TimerQueue} {ts : List TimerPtr} (hkept : q.WellKept ts)
    (hsame : q.SameTimers) (now : Int) :
    ∃ active, (q.getExpired now).1 =
        { q.check .sentry (q.sentryHolds now) with
          timers_ := q.laterThan now, activeTimers_ := active } ∧
      { q.check .sentry (q.sentryHolds now) with
        timers_ := q.laterThan now, activeTimers_ := active }.SameTimers := by
  have hcollect := wellKept_collect hkept now
  have hshape : (q.getExpired now).1 = checkSizes
      { (q.checkSizes.check .sentry (q.sentryHolds now)).check .erased
          (release q.sequenceOf (q.expiredAt now) (q.activeTimers_, true)).2 with
        timers_ := q.laterThan now
        activeTimers_ := (release q.sequenceOf (q.expiredAt now) (q.activeTimers_, true)).1 } :=
    rfl
  obtain ⟨hiff, hflag⟩ := @release_spec q.sequenceOf (q.expiredAt now) (q.activeTimers_, true)
    (List.nodup_append.mp hcollect.distinct).1 fun e he => active_of_expiredAt hkept hsame he
  generalize release q.sequenceOf (q.expiredAt now) (q.activeTimers_, true) = r
    at hshape hiff hflag
  have hleft : { q.check .sentry (q.sentryHolds now) with
      timers_ := q.laterThan now, activeTimers_ := r.1 }.SameTimers :=
    sameTimers_laterThan hkept hsame hiff
  have hkept' : { q.check .sentry (q.sentryHolds now) with
      timers_ := q.laterThan now, activeTimers_ := r.1 }.WellKept
      ((q.expiredAt now).map Entry.timer ++ ts) :=
    hcollect.mono rfl fun _ he => he
  refine ⟨r.1, ?_, hleft⟩
  -- the sizes agree before and behind, and every `erase` takes one
  rw [hshape, checkSizes_eq hkept hsame, hflag, check_true]
  exact checkSizes_eq hkept' hleft

theorem getExpired_eq {q : TimerQueue} {ts : List TimerPtr} (h : q.Agrees ts) (now : Int) :
    ∃ active, (q.getExpired now).1 =
        { q.check .sentry (q.sentryHolds now) with
          timers_ := q.laterThan now, activeTimers_ := active } ∧
      { q.check .sentry (q.sentryHolds now) with
        timers_ := q.laterThan now, activeTimers_ := active }.Agrees
        ((q.expiredAt now).map Entry.timer ++ ts) := by
  obtain ⟨active, heq, hsame⟩ := collect_spec h.kept h.same now
  exact ⟨active, heq, (wellKept_collect h.kept now).mono rfl fun _ he => he, hsame,
    setAssertsHold_check h.asserts (Or.inl rfl) _⟩

theorem agrees_handleRead {q : TimerQueue} (h : q.Agrees q.outside) (hidle : q.phase = .idle) :
    q.handleRead.Agrees q.handleRead.outside := by
  rw [outside_idle hidle] at h
  have hread : q.readTimerfd.Agrees q.adding := h.congr rfl rfl rfl rfl
  obtain ⟨active, heq, hagrees⟩ := getExpired_eq hread q.clock
  obtain ⟨htimers, hheap, hadding, -, hcalling⟩ := q.handleRead_spec
  have hactive : q.handleRead.activeTimers_ = active := by
    show (q.readTimerfd.getExpired q.clock).1.activeTimers_ = active
    rw [heq]
  have hasserts : q.handleRead.failedAsserts = (q.readTimerfd.check .sentry
      (q.readTimerfd.sentryHolds q.clock)).failedAsserts := by
    show (q.readTimerfd.getExpired q.clock).1.failedAsserts = _
    rw [heq]
  rw [outside_calling hcalling, hadding]
  exact hagrees.congr htimers hactive hheap hasserts

/-! ## Restarting -/

/-- The timer of an entry gets its next time, and nothing else changes. -/
theorem wellKept_restart {q : TimerQueue} {e : Entry} {timer : Timer} {ts : List TimerPtr}
    (h : q.WellKept (e.timer :: ts)) :
    { q with heap := q.heap.insert e.timer timer }.WellKept (e.timer :: ts) := by
  refine ⟨fun x hx => ?_, fun t ht => ?_, h.absent, h.distinct⟩
  · obtain ⟨timer', htimer', htime'⟩ := h.time x hx
    refine ⟨timer', ?_, htime'⟩
    show (q.heap.insert e.timer timer)[x.timer]? = some timer'
    rw [getElem?_insert_of_ne (h.absent e.timer (by simp) x hx), htimer']
  · show t ∈ q.heap.insert e.timer timer
    rw [ExtTreeMap.mem_insert]
    exact Or.inr (h.known t ht)

theorem agrees_restart {q : TimerQueue} {e : Entry} {timer : Timer} {ts : List TimerPtr}
    (h : q.Agrees (e.timer :: ts)) :
    { q with heap := q.heap.insert e.timer timer }.Agrees (e.timer :: ts) := by
  refine ⟨wellKept_restart h.kept, fun a => ?_, h.asserts⟩
  show a ∈ q.activeTimers_ ↔ (∃ x ∈ q.timers_, x.timer = a.timer) ∧
    (q.heap.insert e.timer timer)[a.timer]?.map Timer.sequence_ = some a.sequence
  rw [h.same a]
  refine and_congr_right ?_
  rintro ⟨x, hx, hxa⟩
  rw [getElem?_insert_of_ne (hxa ▸ h.kept.absent e.timer (by simp) x hx)]

/-- A timer restarts when it is periodic and was not cancelled. -/
theorem restarting_eq_some {q : TimerQueue} {e : Entry} {timer : Timer} :
    q.restarting e = some timer ↔ q.heap[e.timer]? = some timer ∧ timer.repeat_ = true ∧
      (⟨e.timer, timer.sequence_⟩ : ActiveTimer) ∉ q.cancelingTimers_ := by
  rw [restarting, Option.filter_eq_some_iff, Bool.and_eq_true, Bool.not_eq_true',
    Bool.eq_false_iff, Ne, ExtTreeSet.contains_iff_mem]

theorem Timer.restart_periodic {timer : Timer} (h : timer.repeat_ = true) (now : Int) :
    timer.restart now = { timer with expiredTime_ := timer.following now } := by
  rw [Timer.restart, if_pos h]

/-- What one turn of the loop in `reset` does. -/
theorem resetEntry_cases (now : Int) (q : TimerQueue) (e : Entry) :
    (q.restarting e = none ∧ resetEntry now q e = q) ∨
      ∃ timer q', q.restarting e = some timer ∧
        q' = { q with heap := q.heap.insert e.timer (timer.restart now) } ∧
        resetEntry now q e = (q'.insert e.timer (timer.restart now)).1 := by
  unfold resetEntry
  cases hr : q.restarting e with
  | none => exact Or.inl ⟨rfl, rfl⟩
  | some timer => exact Or.inr ⟨timer, _, rfl, rfl, rfl⟩

/-- What the turn leaves alone. -/
theorem resetEntry_frame (now : Int) (q : TimerQueue) (e : Entry) :
    SameRest q (resetEntry now q e) ∧
      (resetEntry now q e).cancelingTimers_ = q.cancelingTimers_ := by
  rcases resetEntry_cases now q e with ⟨-, heq⟩ | ⟨timer, q', -, rfl, heq⟩
  · rw [heq]
    exact ⟨.refl q, rfl⟩
  · rw [heq]
    obtain ⟨hrest, hmarks⟩ :=
      insert_frame { q with heap := q.heap.insert e.timer (timer.restart now) } e.timer
        (timer.restart now)
    exact ⟨⟨hrest.adding, hrest.clock, hrest.timerfd_, hrest.phase, hrest.fired,
      hrest.callingExpiredTimers_⟩, hmarks⟩

/-- A timer stays as it is, or is periodic and gets its next time. -/
theorem resetEntry_heap (now : Int) {q : TimerQueue} (e : Entry) {t : TimerPtr} {timer : Timer}
    (ht : q.heap[t]? = some timer) :
    (resetEntry now q e).heap[t]? = some timer ∨
      t = e.timer ∧ timer.repeat_ = true ∧
        (resetEntry now q e).heap[t]? = some (timer.restart now) := by
  rcases resetEntry_cases now q e with ⟨-, heq⟩ | ⟨timer', q', hr, rfl, heq⟩
  · rw [heq]
    exact Or.inl ht
  · rw [heq]
    show (q.heap.insert e.timer (timer'.restart now))[t]? = _ ∨
      _ ∧ _ ∧ (q.heap.insert e.timer (timer'.restart now))[t]? = _
    by_cases hte : t = e.timer
    · subst hte
      obtain ⟨ht', hrepeat, -⟩ := restarting_eq_some.mp hr
      rw [ht] at ht'
      cases ht'
      exact Or.inr ⟨rfl, hrepeat, getElem?_insert_self⟩
    · rw [getElem?_insert_of_ne hte]
      exact Or.inl ht

/-- One turn: the timer stays outside, or is inserted at its next time. -/
theorem resetEntry_spec {q : TimerQueue} {e : Entry} {todo : List Entry} {others : List TimerPtr}
    (now : Int) (hkept : q.WellKept (e.timer :: (todo.map Entry.timer ++ others))) :
    (resetEntry now q e).WellKept (todo.map Entry.timer ++ others) ∧
      (∀ x, x ∈ (resetEntry now q e).timers_ ↔ x ∈ q.timers_ ∨
        ∃ timer, q.restarting e = some timer ∧ x = ⟨timer.following now, e.timer⟩) ∧
      ∀ x ∈ todo, (resetEntry now q e).restarting x = q.restarting x := by
  rcases resetEntry_cases now q e with ⟨hr, heq⟩ | ⟨timer, q', hr, rfl, heq⟩
  · -- one-shot, or cancelled in a callback
    rw [heq]
    refine ⟨hkept.tail, fun x => ?_, fun _ _ => rfl⟩
    simp [hr]
  · obtain ⟨-, hrepeat, -⟩ := restarting_eq_some.mp hr
    rw [heq]
    refine ⟨wellKept_insert (wellKept_restart hkept) getElem?_insert_self, fun x => ?_,
      fun x hx => ?_⟩
    · show x ∈ q.timers_.insert ⟨(timer.restart now).expiredTime_, e.timer⟩ ↔ _
      rw [mem_insert_iff, Timer.restart_periodic hrepeat]
      simp [hr, or_comm]
    · -- the other expired timers are at other addresses
      have hne : x.timer ≠ e.timer := by
        intro hsame
        apply (List.nodup_cons.mp hkept.distinct).1
        rw [← hsame]
        exact List.mem_append_left _ (List.mem_map_of_mem hx)
      show Option.filter _ (q.heap.insert e.timer (timer.restart now))[x.timer]? = _
      rw [getElem?_insert_of_ne hne]
      rfl

theorem agrees_resetEntry {q : TimerQueue} {e : Entry} {ts : List TimerPtr} (now : Int)
    (h : q.Agrees (e.timer :: ts)) : (resetEntry now q e).Agrees ts := by
  rcases resetEntry_cases now q e with ⟨-, heq⟩ | ⟨timer, q', -, rfl, heq⟩
  · rw [heq]
    exact h.tail
  · rw [heq]
    exact agrees_insert (agrees_restart h) getElem?_insert_self

/-- The whole loop of `reset`. -/
theorem foldl_resetEntry (now : Int) {others : List TimerPtr} (todo : List Entry) :
    ∀ {q : TimerQueue}, q.WellKept (todo.map Entry.timer ++ others) →
      (todo.foldl (resetEntry now) q).WellKept others ∧
        ∀ x, x ∈ (todo.foldl (resetEntry now) q).timers_ ↔ x ∈ q.timers_ ∨
          ∃ e ∈ todo, ∃ timer, q.restarting e = some timer ∧
            x = ⟨timer.following now, e.timer⟩ := by
  induction todo with
  | nil =>
    intro q hkept
    exact ⟨hkept, fun x => by simp⟩
  | cons e todo ih =>
    intro q hkept
    obtain ⟨hkept', htimers, hrestarting⟩ := resetEntry_spec now hkept
    obtain ⟨hk, hx⟩ := ih hkept'
    refine ⟨hk, fun x => (hx x).trans ?_⟩
    rw [htimers x, List.exists_mem_cons_iff, or_assoc]
    refine or_congr_right (or_congr_right ?_)
    exact exists_congr fun y => and_congr_right fun hy => by rw [hrestarting y hy]

theorem foldl_resetEntry_frame (now : Int) (todo : List Entry) : ∀ q : TimerQueue,
    SameRest q (todo.foldl (resetEntry now) q) ∧
      (todo.foldl (resetEntry now) q).cancelingTimers_ = q.cancelingTimers_ := by
  induction todo with
  | nil => exact fun q => ⟨.refl q, rfl⟩
  | cons e todo ih =>
    intro q
    obtain ⟨hrest, hmarks⟩ := resetEntry_frame now q e
    obtain ⟨hrest', hmarks'⟩ := ih (resetEntry now q e)
    exact ⟨hrest.trans hrest', hmarks'.trans hmarks⟩

theorem agrees_foldl_resetEntry (now : Int) {others : List TimerPtr} (todo : List Entry) :
    ∀ {q : TimerQueue}, q.Agrees (todo.map Entry.timer ++ others) →
      (todo.foldl (resetEntry now) q).Agrees others := by
  induction todo with
  | nil => exact fun h => h
  | cons e todo ih => exact fun h => ih (agrees_resetEntry now h)

/-- `reset` is its loop, and a decision about what comes next. -/
theorem reset_eq (q : TimerQueue) (expired : List Entry) (now : Int) :
    ∃ p, (p = .idle ∨ ∃ when_, p = .rearming expired when_) ∧
      q.reset expired now =
        { expired.foldl (resetEntry now) { q with callingExpiredTimers_ := false } with
          phase := p } := by
  unfold reset
  dsimp only
  split
  · exact ⟨_, Or.inl rfl, rfl⟩
  · split
    · exact ⟨_, Or.inl rfl, rfl⟩
    · split
      · exact ⟨_, Or.inr ⟨_, rfl⟩, rfl⟩
      · exact ⟨_, Or.inl rfl, rfl⟩

theorem phase_reset (q : TimerQueue) (expired : List Entry) (now : Int) :
    (q.reset expired now).phase = .idle ∨
      ∃ when_, (q.reset expired now).phase = .rearming expired when_ := by
  obtain ⟨p, hp, heq⟩ := q.reset_eq expired now
  rw [heq]
  exact hp

/-- The batch is over. -/
theorem phase_reset_ne (q : TimerQueue) (expired : List Entry) (now now' : Int)
    (expired' rest : List Entry) : (q.reset expired now).phase ≠ .calling now' expired' rest := by
  rcases q.phase_reset expired now with hp | ⟨when_, hp⟩
  · rw [hp]
    exact TimerPhase.noConfusion
  · rw [hp]
    exact TimerPhase.noConfusion

theorem outside_reset (q : TimerQueue) (expired : List Entry) (now : Int) :
    (q.reset expired now).outside = q.adding := by
  obtain ⟨p, hp, heq⟩ := q.reset_eq expired now
  obtain ⟨hrest, -⟩ := foldl_resetEntry_frame now expired { q with callingExpiredTimers_ := false }
  rw [heq]
  rcases hp with rfl | ⟨when_, rfl⟩
  · rw [outside_idle rfl]
    exact hrest.adding
  · rw [outside_rearming rfl]
    exact hrest.adding

/-- What `reset` does: the periodic timers that were not cancelled get a
    new entry. -/
theorem reset_spec {q : TimerQueue} (h : q.WellKept q.outside) {now : Int}
    {expired : List Entry} (hphase : q.phase = .calling now expired []) :
    (q.reset expired now).adding = q.adding ∧ (q.reset expired now).fired = q.fired ∧
      ∀ x, x ∈ (q.reset expired now).timers_ ↔ x ∈ q.timers_ ∨
        ∃ e ∈ expired, ∃ timer, q.restarting e = some timer ∧
          x = ⟨timer.following now, e.timer⟩ := by
  obtain ⟨p, -, heq⟩ := q.reset_eq expired now
  obtain ⟨hrest, -⟩ := foldl_resetEntry_frame now expired { q with callingExpiredTimers_ := false }
  rw [outside_calling hphase] at h
  have hstart : WellKept { q with callingExpiredTimers_ := false }
      (expired.map Entry.timer ++ q.adding) := h.mono rfl fun _ he => he
  rw [heq]
  exact ⟨hrest.adding, hrest.fired, (foldl_resetEntry now expired hstart).2⟩

theorem agrees_reset {q : TimerQueue} (h : q.Agrees q.outside) {now : Int}
    {expired : List Entry} (hphase : q.phase = .calling now expired []) :
    (q.reset expired now).Agrees (q.reset expired now).outside := by
  obtain ⟨p, -, heq⟩ := q.reset_eq expired now
  rw [outside_calling hphase] at h
  have hstart : Agrees { q with callingExpiredTimers_ := false }
      (expired.map Entry.timer ++ q.adding) := h.congr rfl rfl rfl rfl
  rw [outside_reset, heq]
  exact (agrees_foldl_resetEntry now expired hstart).congr rfl rfl rfl rfl

/-! ## One step -/

theorem next_runTimer {q : TimerQueue} {now : Int} {e : Entry} {expired rest : List Entry}
    (hphase : q.phase = .calling now expired (e :: rest)) :
    q.next .runTimer =
      { q with phase := .calling now expired rest, fired := q.fired ++ [(e.timer, now)] } := by
  simp [next, hphase]

theorem next_reset {q : TimerQueue} {now : Int} {expired rest : List Entry}
    (hphase : q.phase = .calling now expired rest) : q.next .reset = q.reset expired now := by
  simp [next, hphase]

theorem next_resetTimerfd {q : TimerQueue} {expired : List Entry} {when_ : Int}
    (hphase : q.phase = .rearming expired when_) :
    q.next .resetTimerfd = { q.resetTimerfd when_ with phase := .idle } := by
  simp [next, hphase]

theorem lock_mem {q : TimerQueue} {t : TimerPtr} : ∀ timer ∈ q.lock t, q.heap[t]? = some timer := by
  intro timer h
  unfold lock at h
  split at h
  · exact h
  · cases h

/-- The two sets agree after every step. -/
theorem agrees_next {q : TimerQueue} (h : q.Agrees q.outside) {l : TimerStep}
    (hguard : q.guard l) : (q.next l).Agrees (q.next l).outside := by
  cases l with
  | elapse d => exact h.congr rfl rfl rfl rfl
  | addTimer t timeout interval =>
    exact (agrees_addTimer h hguard.2 timeout interval).perm
      (q.outside_addTimer t timeout interval).symm
  | addTimerInLoop t => exact agrees_addTimerInLoop h hguard.2
  | cancelInLoop t =>
    obtain ⟨-, -, hrest⟩ := q.cancelLocked_frame t (q.lock t)
    show (q.cancelLocked t (q.lock t)).Agrees (q.cancelLocked t (q.lock t)).outside
    rw [hrest.outside]
    exact agrees_cancelLocked h lock_mem
  | handleRead => exact agrees_handleRead h hguard
  | runTimer =>
    obtain ⟨now, expired, e, rest, hphase⟩ := hguard
    rw [outside_calling hphase] at h
    rw [next_runTimer hphase]
    exact h.congr rfl rfl rfl rfl
  | reset =>
    obtain ⟨now, expired, hphase⟩ := hguard
    rw [next_reset hphase]
    exact agrees_reset h hphase
  | resetTimerfd =>
    obtain ⟨expired, when_, hphase⟩ := hguard
    rw [outside_rearming hphase] at h
    rw [next_resetTimerfd hphase]
    exact h.congr rfl rfl rfl rfl

theorem agrees_new (clock : Int) : (new clock).Agrees [] := by
  refine ⟨⟨fun e he => ?_, fun t ht => ?_, fun t ht => ?_, List.nodup_nil⟩, fun a => ?_,
    fun a ha => ?_⟩
  · exact absurd he ExtTreeSet.not_mem_empty
  · cases ht
  · cases ht
  · refine iff_of_false ExtTreeSet.not_mem_empty ?_
    rintro ⟨⟨e, he, -⟩, -⟩
    exact ExtTreeSet.not_mem_empty he
  · cases ha

/-! ## Any clock -/

end TimerQueue

/-- A step of the queue, or a jump of the clock. -/
inductive ClockStep where
  | clock (now : Int)
  | step (l : TimerStep)
  deriving DecidableEq, Repr

/-- The queue under a clock that shows any time at any moment. -/
def anyClock : Machine TimerQueue ClockStep where
  guard
    | _, .clock _ => True
    | q, .step l => q.guard l
  next
    | q, .clock now => { q with clock := now }
    | q, .step l => q.next l

instance (q : TimerQueue) : (l : ClockStep) → Decidable (anyClock.guard q l)
  | .clock _ => isTrue trivial
  | .step l => inferInstanceAs (Decidable (q.guard l))

namespace TimerQueue

theorem agrees_anyClock {q : TimerQueue} (h : q.Agrees q.outside) {l : ClockStep}
    (hguard : anyClock.guard q l) : (anyClock.next q l).Agrees (anyClock.next q l).outside := by
  cases l with
  | clock now => exact h.congr rfl rfl rfl rfl
  | step l => exact agrees_next h hguard

theorem agrees_run (clock : Int) {steps : List ClockStep}
    (hvalid : anyClock.Valid (new clock) steps) :
    (anyClock.run (new clock) steps).Agrees (anyClock.run (new clock) steps).outside :=
  anyClock.invariant_run (fun q => q.Agrees q.outside) (fun _ _ h hl => agrees_anyClock h hl)
    (agrees_new clock) hvalid

/-- `timers_` is `{(t.expiredTime_, t)}` and `activeTimers_` is
    `{(t, t.sequence_)}`, for the timers of `S`. -/
structure BothHold (q : TimerQueue) (S : Set TimerPtr) : Prop where
  objects : ∀ t ∈ S, t ∈ q.heap
  timers : ∀ e, e ∈ q.timers_ ↔
    ∃ t ∈ S, ∃ timer, q.heap[t]? = some timer ∧ e = ⟨timer.expiredTime_, t⟩
  active : ∀ a, a ∈ q.activeTimers_ ↔
    ∃ t ∈ S, ∃ timer, q.heap[t]? = some timer ∧ a = ⟨t, timer.sequence_⟩

theorem bothHold_of_agrees {q : TimerQueue} {ts : List TimerPtr} (h : q.Agrees ts) :
    q.BothHold {t | ∃ e ∈ q.timers_, e.timer = t} := by
  refine ⟨?_, fun e => ⟨fun he => ?_, ?_⟩, fun a => ⟨fun ha => ?_, ?_⟩⟩
  · rintro t ⟨e, he, rfl⟩
    obtain ⟨timer, htimer, -⟩ := h.kept.time e he
    exact mem_heap_iff.mpr ⟨timer, htimer⟩
  · obtain ⟨timer, htimer, htime⟩ := h.kept.time e he
    exact ⟨e.timer, ⟨e, he, rfl⟩, timer, htimer, by rw [htime]⟩
  · rintro ⟨t, ⟨x, hx, rfl⟩, timer, htimer, rfl⟩
    obtain ⟨timer', htimer', htime⟩ := h.kept.time x hx
    rw [htimer] at htimer'
    cases htimer'
    rwa [htime]
  · obtain ⟨hmem, hseq⟩ := (h.same a).mp ha
    obtain ⟨timer, htimer, hsequence⟩ := Option.map_eq_some_iff.mp hseq
    exact ⟨a.timer, hmem, timer, htimer, by rw [hsequence]⟩
  · rintro ⟨t, hmem, timer, htimer, rfl⟩
    exact (h.same _).mpr ⟨hmem, by rw [htimer]; rfl⟩

/-- **The timer sets agree**: in every reachable state they hold the same
    timers, each under its key, and no assert about their sizes, an
    insertion or an erasure has failed. -/
theorem timerSets_agree (clock : Int) (steps : List ClockStep)
    (hvalid : anyClock.Valid (new clock) steps) :
    (∃ S, (anyClock.run (new clock) steps).BothHold S) ∧
      ∀ a ∈ (anyClock.run (new clock) steps).failedAsserts,
        a ≠ .sizes ∧ a ≠ .inserted ∧ a ≠ .erased := by
  have hagrees := agrees_run clock hvalid
  refine ⟨⟨_, bothHold_of_agrees hagrees⟩, fun a ha => ?_⟩
  rcases hagrees.asserts a ha with rfl | rfl
  · decide
  · decide

/-- A periodic timer cancels itself and is cancelled again, another one is
    added in its callback. -/
theorem timerSets_agree_callback :
    let steps : List ClockStep :=
      [.step (.addTimer 1 200 500), .step (.addTimerInLoop 1), .step (.addTimer 2 300 0),
        .step (.addTimerInLoop 2), .clock 301, .step .handleRead, .step .runTimer,
        .step (.cancelInLoop 1), .step (.cancelInLoop 1), .step (.addTimer 3 100 0),
        .step (.addTimerInLoop 3), .clock 50, .step .runTimer, .step .reset]
    ∃ S, (anyClock.run (new 0) steps).BothHold S :=
  (timerSets_agree 0 _ (by decide +kernel)).1

end TimerQueue

end TinyWS
