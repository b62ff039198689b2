import TinyWS.MultiProcess.TimerQueue
import TinyWS.Net.TimerCancel

/-! # The Timer Sets of the Multi-process Libraries

    The two containers of the queue under a clock that shows any time at
    any moment.  `cancel` remembers a timer outside of the callbacks too,
    and `reset` inserts the periodic timers one turn at a time; while it
    does, those of the later turns stand outside of both sets. -/

namespace TinyWS

open Std

namespace Process

/-- A step of the queue, or a jump of the clock. -/
inductive ClockStep where
  | clock (now : Int)
  | step (l : TimerStep)
  deriving DecidableEq, Repr

/-- The queue under a clock that shows any time at any moment. -/
def anyClock : Machine TimerQueue ClockStep where
  guard
    | _, .clock _ => True
    | q, .step l => q.guard l
  next
    | q, .clock now => { q with clock := now }
    | q, .step l => q.next l

instance (q : TimerQueue) : (l : ClockStep) → Decidable (anyClock.guard q l)
  | .clock _ => isTrue trivial
  | .step l => inferInstanceAs (Decidable (q.guard l))

namespace TimerQueue

/-! ## Cancelling -/

section Cancel

variable {q : TinyWS.TimerQueue} {t : TimerPtr} {timer : Timer} {ts : List TimerPtr}

/-- `cancel` erases a timer that is active, and remembers one that is not,
    if it is alive. -/
theorem cancel_cases (ht : q.heap[t]? = some timer) :
    (q.activeTimers_.contains ⟨t, timer.sequence_⟩ = true ∧
        cancel q t = TinyWS.TimerQueue.checkSizes
          { q.checkSizes.check .erased (q.timers_.contains ⟨timer.expiredTime_, t⟩) with
            timers_ := q.timers_.erase ⟨timer.expiredTime_, t⟩
            activeTimers_ := q.activeTimers_.erase ⟨t, timer.sequence_⟩ }) ∨
      (q.activeTimers_.contains ⟨t, timer.sequence_⟩ = false ∧ q.alive t = true ∧
        cancel q t = TinyWS.TimerQueue.checkSizes
          { q.checkSizes with
            cancelingTimers_ := q.cancelingTimers_.insert ⟨t, timer.sequence_⟩ }) ∨
      (q.activeTimers_.contains ⟨t, timer.sequence_⟩ = false ∧ q.alive t = false ∧
        cancel q t = q.checkSizes) := by
  have halive : q.activeTimers_.contains ⟨t, timer.sequence_⟩ = true → q.alive t = true := by
    intro hactive
    have hmem := ExtTreeSet.mem_toList.mpr (ExtTreeSet.contains_iff_mem.mp hactive)
    have hany : q.activeTimers_.toList.any (·.timer == t) = true :=
      List.any_eq_true.mpr ⟨_, hmem, beq_self_eq_true t⟩
    simp only [TinyWS.TimerQueue.alive, hany, Bool.or_true, Bool.true_or]
  rw [cancel, TinyWS.TimerQueue.lock, ht]
  cases hactive : q.activeTimers_.contains ⟨t, timer.sequence_⟩ with
  | true =>
    left
    rw [if_pos (halive hactive)]
    have hactive' : q.checkSizes.activeTimers_.contains ⟨t, timer.sequence_⟩ = true := hactive
    simp only [cancelLocked, hactive', if_true]
    exact ⟨trivial, rfl⟩
  | false =>
    right
    cases hcase : q.alive t with
    | true =>
      left
      have hactive' : ¬ q.checkSizes.activeTimers_.contains ⟨t, timer.sequence_⟩ = true := by
        rw [show q.checkSizes.activeTimers_ = q.activeTimers_ from rfl, hactive]
        simp
      simp only [cancelLocked, if_true, if_neg hactive']
      exact ⟨trivial, trivial, rfl⟩
    | false => exact Or.inr ⟨rfl, rfl, rfl⟩

theorem agrees_cancel (h : q.Agrees ts) (ht : t ∈ q.heap) : (cancel q t).Agrees ts := by
  obtain ⟨timer, htimer⟩ := mem_heap_iff.mp ht
  have hsame : q.checkSizes = q := h.checkSizes
  rcases cancel_cases htimer with ⟨hactive, heq⟩ | ⟨-, -, heq⟩ | ⟨-, -, heq⟩
  · -- what is active has its entry
    obtain ⟨⟨e, he, heq'⟩, -⟩ := (h.same _).mp (ExtTreeSet.contains_iff_mem.mp hactive)
    obtain ⟨timer', htimer', htime⟩ := h.kept.time e he
    change e.timer = t at heq'
    rw [heq', htimer] at htimer'
    cases htimer'
    have hentry : q.timers_.contains ⟨timer.expiredTime_, t⟩ = true := by
      rw [ExtTreeSet.contains_iff_mem, htime, ← heq']
      exact he
    have herased := TinyWS.TimerQueue.agrees_erase h htimer
    rw [heq, hsame, hentry, TinyWS.TimerQueue.check_true, herased.checkSizes]
    exact herased
  · have hmarked : TinyWS.TimerQueue.Agrees
        { q with cancelingTimers_ := q.cancelingTimers_.insert ⟨t, timer.sequence_⟩ } ts :=
      h.congr rfl rfl rfl rfl
    rw [heq, hsame, hmarked.checkSizes]
    exact hmarked
  · rw [heq, hsame]
    exact h

theorem agrees_addTimer (h : q.Agrees ts) (ht : t ∉ q.heap) (timeout interval : Int) :
    (addTimer q t timeout interval).Agrees ts := by
  obtain ⟨timer, q₁, fd, rfl, rfl, heq, -⟩ := addTimer_spec q t timeout interval
  have hcreated : TinyWS.TimerQueue.Agrees
      { q with
        numCreated := q.numCreated + 1
        heap := q.heap.insert t (Timer.new timeout interval (q.numCreated + 1)) } (t :: ts) :=
    (TinyWS.TimerQueue.agrees_addTimer h ht timeout interval).congr rfl rfl rfl rfl
  have hinserted := TinyWS.TimerQueue.agrees_insert hcreated
    TinyWS.TimerQueue.getElem?_insert_self
  rw [heq]
  exact hinserted.congr rfl rfl rfl rfl

end Cancel

/-! ## One step -/

/-- The timers that are not in the sets but may be put there. -/
def outside (q : TimerQueue) : List TimerPtr :=
  match q.resetting with
  | none => q.toTimerQueue.outside
  | some todo => todo.map Entry.timer ++ q.adding

theorem outside_of_none {q : TimerQueue} (h : q.resetting = none) :
    q.outside = q.toTimerQueue.outside := by
  rw [outside, h]

theorem outside_of_some {q : TimerQueue} {todo : List Entry} (h : q.resetting = some todo) :
    q.outside = todo.map Entry.timer ++ q.adding := by
  rw [outside, h]

/-- A step between the turns of `reset` that keeps the phase. -/
theorem outside_congr {q q' : TimerQueue} (hphase : q'.phase = q.phase)
    (hadding : q'.adding = q.adding) (hresetting : q'.resetting = q.resetting) :
    q'.outside = q.outside := by
  rw [outside, outside, hresetting, TinyWS.TimerQueue.outside, TinyWS.TimerQueue.outside, hphase,
    hadding]

/-- The sets agree, and `reset` is under way only while there is something
    left of its loop. -/
structure Sound (q : TimerQueue) : Prop where
  agrees : q.toTimerQueue.Agrees q.outside
  resetting : ∀ todo, q.resetting = some todo →
    todo ≠ [] ∧ ∃ now expired, q.phase = .calling now expired []
  batch : ∀ now expired rest, q.phase = .calling now expired rest → rest <:+ expired
  adding : q.adding = []

theorem sound_new (clock : Int) : (new clock).Sound where
  agrees := TinyWS.TimerQueue.agrees_new clock
  resetting todo h := by cases h
  batch now expired rest h := by cases h
  adding := rfl

section Step

variable {q : TimerQueue}

/-- A step that keeps the phase and the place in `reset`. -/
theorem Sound.congr (h : q.Sound) {q' : TimerQueue} (hagrees : q'.toTimerQueue.Agrees q.outside)
    (hphase : q'.phase = q.phase) (hadding : q'.adding = q.adding)
    (hresetting : q'.resetting = q.resetting) : q'.Sound where
  agrees := by
    rw [outside_congr hphase hadding hresetting]
    exact hagrees
  resetting := by
    rw [hphase, hresetting]
    exact h.resetting
  batch := by
    rw [hphase]
    exact h.batch
  adding := hadding.trans h.adding

/-- Outside of `reset`. -/
theorem sound_of_none (hnone : q.resetting = none)
    (hagrees : q.toTimerQueue.Agrees q.toTimerQueue.outside)
    (hbatch : ∀ now expired rest, q.phase = .calling now expired rest → rest <:+ expired)
    (hadding : q.adding = []) : q.Sound where
  agrees := by
    rw [outside_of_none hnone]
    exact hagrees
  resetting todo htodo := by
    rw [hnone] at htodo
    cases htodo
  batch := hbatch
  adding := hadding

/-- In `reset`. -/
theorem sound_of_some {todo : List Entry} (hsome : q.resetting = some todo) (hcons : todo ≠ [])
    {now : Int} {expired : List Entry} (hphase : q.phase = .calling now expired [])
    (hagrees : q.toTimerQueue.Agrees (todo.map Entry.timer ++ q.adding)) (hadding : q.adding = []) :
    q.Sound where
  agrees := by
    rw [outside_of_some hsome]
    exact hagrees
  resetting todo' htodo' := by
    rw [hsome] at htodo'
    cases htodo'
    exact ⟨hcons, now, expired, hphase⟩
  batch now' expired' rest' hphase' := by
    rw [hphase] at hphase'
    cases hphase'
    exact List.nil_suffix
  adding := hadding

theorem Sound.handleRead (h : q.Sound) (hguard : q.guard .handleRead) :
    (q.next .handleRead).Sound := by
  obtain ⟨hnone, hidle⟩ := hguard
  obtain ⟨-, -, hadding, -, hcalling⟩ := q.toTimerQueue.handleRead_spec
  have hagrees := h.agrees
  rw [outside_of_none hnone] at hagrees
  refine sound_of_none hnone (TinyWS.TimerQueue.agrees_handleRead hagrees hidle) ?_
    (hadding.trans h.adding)
  intro now expired rest hphase
  rw [show (q.next .handleRead).phase = _ from hcalling] at hphase
  cases hphase
  exact List.suffix_refl _

theorem next_runTimer {now : Int} {e : Entry} {expired rest : List Entry}
    (hphase : q.phase = .calling now expired (e :: rest)) :
    q.next .runTimer =
      { q with phase := .calling now expired rest, fired := q.fired ++ [(e.timer, now)] } := by
  show { q with toTimerQueue := q.toTimerQueue.next .runTimer } = _
  rw [TinyWS.TimerQueue.next_runTimer hphase]

theorem Sound.runTimer (h : q.Sound) (hguard : q.guard .runTimer) : (q.next .runTimer).Sound := by
  obtain ⟨hnone, now, expired, e, rest, hphase⟩ := hguard
  have hagrees := h.agrees
  rw [outside_of_none hnone, TinyWS.TimerQueue.outside_calling hphase] at hagrees
  rw [next_runTimer hphase]
  refine sound_of_none hnone (hagrees.congr rfl rfl rfl rfl) ?_ h.adding
  intro now' expired' rest' hphase'
  cases hphase'
  exact (List.suffix_cons e rest).trans (h.batch now expired _ hphase)

theorem Sound.reset (h : q.Sound) (hguard : q.guard .reset) : (q.next .reset).Sound := by
  obtain ⟨hnone, now, expired, hphase⟩ := hguard
  have hagrees := h.agrees
  rw [outside_of_none hnone, TinyWS.TimerQueue.outside_calling hphase] at hagrees
  rw [next_reset hphase]
  split
  · next hnil =>
    subst hnil
    refine sound_of_none hnone (hagrees.congr rfl rfl rfl rfl) ?_ h.adding
    intro now' expired' rest' hphase'
    cases hphase'
  · next hcons =>
    exact sound_of_some rfl hcons hphase (hagrees.congr rfl rfl rfl rfl) h.adding

/-- A turn of `reset` changes its entry, and `timerfd_`. -/
theorem resetTurn_eq (now : Int) (q : TinyWS.TimerQueue) (e : Entry) :
    ∃ fd, resetTurn now q e = { TinyWS.TimerQueue.resetEntry now q e with timerfd_ := fd } := by
  unfold resetTurn
  dsimp only
  split
  · exact ⟨_, rfl⟩
  · split
    · exact ⟨_, rfl⟩
    · split
      · exact ⟨_, rfl⟩
      · exact ⟨_, rfl⟩

theorem Sound.resetTurn (h : q.Sound) (hguard : q.guard .resetTurn) :
    (q.next .resetTurn).Sound := by
  obtain ⟨todo, htodo⟩ := Option.ne_none_iff_exists'.mp hguard
  obtain ⟨hcons, now, expired, hphase⟩ := h.resetting todo htodo
  cases todo with
  | nil => exact absurd rfl hcons
  | cons e rest =>
    obtain ⟨fd, heq⟩ := resetTurn_eq now q.toTimerQueue e
    obtain ⟨hrest, -⟩ := TinyWS.TimerQueue.resetEntry_frame now q.toTimerQueue e
    have hadding := hrest.adding.trans h.adding
    have hagrees := h.agrees
    rw [outside_of_some htodo, List.map_cons, List.cons_append, ← hrest.adding] at hagrees
    have hdone := TinyWS.TimerQueue.agrees_resetEntry now hagrees
    rw [next_resetTurn hphase htodo, heq]
    split
    · next hnil =>
      subst hnil
      refine sound_of_none rfl (hdone.congr rfl rfl rfl rfl) ?_ hadding
      intro now' expired' rest' hphase'
      cases hphase'
    · next hmore =>
      exact sound_of_some rfl hmore (hrest.phase.trans hphase) (hdone.congr rfl rfl rfl rfl)
        hadding

/-- **Step**: the sets agree after every step. -/
theorem Sound.next (h : q.Sound) {l : TimerStep} (hguard : q.guard l) : (q.next l).Sound := by
  cases l with
  | elapse d => exact h.congr (h.agrees.congr rfl rfl rfl rfl) rfl rfl rfl
  | addTimer t timeout interval =>
    obtain ⟨hphase, hadding⟩ := addTimer_frame q.toTimerQueue t timeout interval
    exact h.congr (agrees_addTimer h.agrees hguard.2.2 timeout interval) hphase hadding rfl
  | cancel t =>
    obtain ⟨-, -, hadding, hphase, -⟩ := cancelLocked_frame q.toTimerQueue t (q.lock t)
    exact h.congr (agrees_cancel h.agrees hguard.2) hphase hadding rfl
  | handleRead => exact h.handleRead hguard
  | runTimer => exact h.runTimer hguard
  | reset => exact h.reset hguard
  | resetTurn => exact h.resetTurn hguard

theorem Sound.anyClock (h : q.Sound) {l : ClockStep} (hguard : anyClock.guard q l) :
    (anyClock.next q l).Sound := by
  cases l with
  | clock now => exact h.congr (h.agrees.congr rfl rfl rfl rfl) rfl rfl rfl
  | step l => exact h.next hguard

end Step

theorem sound_run (clock : Int) {steps : List ClockStep}
    (hvalid : anyClock.Valid (new clock) steps) : (anyClock.run (new clock) steps).Sound :=
  anyClock.invariant_run Sound (fun _ _ h hl => h.anyClock hl) (sound_new clock) hvalid

/-! ## The sets -/

/-- **Both sets hold the same timers**, each under its key, in every state
    of every run, in the callbacks and between the turns of `reset` too;
    no assert about a size, an insertion or an erasure ever fails; and a
    timer that is still to be put back is in neither set. -/
theorem bothHold_run (clock : Int) (steps : List ClockStep)
    (hvalid : anyClock.Valid (new clock) steps) :
    (∃ S, (anyClock.run (new clock) steps).BothHold S ∧
        ∀ todo, (anyClock.run (new clock) steps).resetting = some todo →
          ∀ e ∈ todo, e.timer ∉ S) ∧
      ∀ a ∈ (anyClock.run (new clock) steps).failedAsserts,
        a ≠ .sizes ∧ a ≠ .inserted ∧ a ≠ .erased := by
  have h := sound_run clock hvalid
  generalize anyClock.run (new clock) steps = q at h
  refine ⟨⟨_, TinyWS.TimerQueue.bothHold_of_agrees h.agrees, fun todo htodo e he hmem => ?_⟩,
    fun a ha => ?_⟩
  · obtain ⟨x, hx, hxe⟩ := hmem
    refine h.agrees.kept.absent e.timer ?_ x hx hxe
    rw [outside_of_some htodo]
    exact List.mem_append_left _ (List.mem_map_of_mem he)
  · rcases h.agrees.asserts a ha with rfl | rfl
    · decide
    · decide

/-- Two periodic timers expire together, one cancels itself and the other
    one is put back. -/
theorem bothHold_run_turns :
    let steps : List ClockStep :=
      [.step (.addTimer 1 200 500), .step (.addTimer 2 200 300), .clock 250, .step .handleRead,
        .step .runTimer, .step (.cancel 1), .step .runTimer, .step .reset, .clock 240,
        .step .resetTurn]
    ∃ S, (anyClock.run (new 0) steps).BothHold S ∧
      ∀ todo, (anyClock.run (new 0) steps).resetting = some todo → ∀ e ∈ todo, e.timer ∉ S :=
  (bothHold_run 0 _ (by decide +kernel)).1

end TimerQueue

end Process

end TinyWS
