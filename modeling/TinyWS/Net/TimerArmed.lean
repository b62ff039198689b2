import TinyWS.Net.TimerSets

/-! # The Timer Queue Never Sleeps Through Its Timers

    `timerfd_` *covers* a time when it has expired or will expire no later
    than that time or 100 microseconds after it was set.  Between two
    events every pending timer has to be covered.

    `addTimerInLoop` and `cancelInLoop` keep this, and `reset` restores it
    after the callbacks, unless the earliest timer is due by then:
    `isValid` takes a timer that is merely late for one that is not there,
    and leaves `timerfd_` as `readTimerfd` left it.  And `timerfd_` is set
    too late for an expiry that lies so far back that the difference to
    the clock has no 64 bits. -/

namespace TinyWS

open Std

/-- Set to expire in time for `t`. -/
def Timerfd.Covers : Timerfd → Int → Prop
  | .disarmed, _ => False
  | .armed deadline setAt, t => deadline ≤ max t (setAt + 100)
  | .expired, _ => True

instance (fd : Timerfd) : DecidablePred fd.Covers :=
  fun t =>
    match fd with
    | .disarmed => isFalse id
    | .armed deadline setAt => inferInstanceAs (Decidable (deadline ≤ max t (setAt + 100)))
    | .expired => isTrue trivial

theorem Timerfd.Covers.mono {fd : Timerfd} {t t' : Int} (h : fd.Covers t) (hle : t ≤ t') :
    fd.Covers t' := by
  cases fd with
  | disarmed => exact h
  | armed deadline setAt =>
    have hd : deadline ≤ max t (setAt + 100) := h
    show deadline ≤ max t' (setAt + 100)
    omega
  | expired => trivial

namespace TimerQueue

/-! ## The specification -/

/-- Between two events, `timerfd_` covers the earliest timer. -/
def NeverAsleep (q : TimerQueue) : Prop :=
  q.phase = .idle → ∀ first, begin? q.timers_ = some first → q.timerfd_.Covers first.time

/-- The times of the entries `reset` will find in the set, those that are
    there and those it restarts, all satisfy `P`. -/
def AllTimes (q : TimerQueue) (P : Int → Prop) (now : Int) (expired : List Entry) : Prop :=
  (∀ e ∈ q.timers_, P e.time) ∧
    ∀ e ∈ expired, ∀ timer ∈ q.restarting e, P (timer.following now)

instance (q : TimerQueue) (P : Int → Prop) [DecidablePred P] (now : Int) (expired : List Entry) :
    Decidable (q.AllTimes P now expired) :=
  decidable_of_iff ((∀ e ∈ q.timers_.toList, P e.time) ∧
    ∀ e ∈ expired, ∀ timer ∈ q.restarting e, P (timer.following now))
    (by simp only [AllTimes, ExtTreeSet.mem_toList])

/-- The difference to the clock, in 64 bits, is not a longer time. -/
def Within64 (q : TimerQueue) (when_ : Int) : Prop :=
  TimeType64.wrap (when_ - q.clock) ≤ max (when_ - q.clock) 100

instance (q : TimerQueue) : DecidablePred q.Within64 :=
  fun when_ => inferInstanceAs (Decidable (_ ≤ max (when_ - q.clock) 100))

/-- The condition of the runs.  When `reset` looks, none of these timers is
    due, or a callback has set `timerfd_` so that it covers them; and
    outside of the callbacks `timerfd_` is not set for a time further back
    than 64 bits can tell. -/
def ResetsInTime (q : TimerQueue) : TimerStep → Prop
  | .addTimerInLoop t =>
      q.phase = .idle → ∀ timer ∈ q.heap[t]?, q.isEarliest timer = true →
        q.Within64 timer.expiredTime_
  | .reset =>
      match q.phase with
      | .calling now expired _ =>
          q.AllTimes (q.clock ≤ ·) now expired ∨ q.AllTimes q.timerfd_.Covers now expired
      | _ => True
  | .resetTimerfd =>
      match q.phase with
      | .rearming _ when_ => q.Within64 when_
      | _ => True
  | _ => True

instance (q : TimerQueue) : DecidablePred q.ResetsInTime
  | .addTimerInLoop t =>
      inferInstanceAs (Decidable (q.phase = .idle → ∀ timer ∈ q.heap[t]?,
        q.isEarliest timer = true → q.Within64 timer.expiredTime_))
  | .reset =>
      match h : q.phase with
      | .calling now expired _ =>
          decidable_of_iff (q.AllTimes (q.clock ≤ ·) now expired ∨
            q.AllTimes q.timerfd_.Covers now expired) (by simp [ResetsInTime, h])
      | .idle | .rearming _ _ => isTrue (by simp [ResetsInTime, h])
  | .resetTimerfd =>
      match h : q.phase with
      | .rearming _ when_ => decidable_of_iff (q.Within64 when_) (by simp [ResetsInTime, h])
      | .idle | .calling _ _ _ => isTrue (by simp [ResetsInTime, h])
  | .elapse _ | .addTimer _ _ _ | .cancelInLoop _ | .handleRead | .runTimer => isTrue trivial

/-- A time that is not due is within 64 bits. -/
theorem within64_of_le {q : TimerQueue} {when_ : Int} (h : q.clock ≤ when_) :
    q.Within64 when_ := by
  have hle := TimeType64.wrap_le (x := when_ - q.clock) (by omega)
  unfold Within64
  omega

/-- `resetTimerfd` covers the time it is called for if and only if that is
    within 64 bits. -/
theorem covers_armed_iff {q : TimerQueue} {when_ : Int} :
    (Timerfd.armed (q.clock + q.howMuchTimeFromNow when_) q.clock).Covers when_ ↔
      q.Within64 when_ := by
  show q.clock + max (TimeType64.wrap (when_ - q.clock)) 100 ≤ max when_ (q.clock + 100) ↔
    TimeType64.wrap (when_ - q.clock) ≤ max (when_ - q.clock) 100
  omega

/-! ## The first entry -/

theorem begin?_mem {q : TimerQueue} {first : Entry} (hfirst : begin? q.timers_ = some first) :
    first ∈ q.timers_ := by
  rw [begin?_eq_min?] at hfirst
  exact ExtTreeSet.min?_mem hfirst

/-- The first entry is no later than any other. -/
theorem begin?_time_le {q : TimerQueue} {first e : Entry}
    (hfirst : begin? q.timers_ = some first) (he : e ∈ q.timers_) : first.time ≤ e.time := by
  rw [begin?_eq_min?, ExtTreeSet.min?_eq_some_iff_mem_and_forall] at hfirst
  exact Entry.time_le_of_isLE (hfirst.2 e he)

theorem exists_begin? {q : TimerQueue} {e : Entry} (he : e ∈ q.timers_) :
    ∃ first, begin? q.timers_ = some first ∧ first.time ≤ e.time := by
  cases hfirst : begin? q.timers_ with
  | none =>
    rw [begin?_eq_min?, ExtTreeSet.min?_eq_none_iff] at hfirst
    rw [hfirst] at he
    exact absurd he ExtTreeSet.not_mem_empty
  | some first => exact ⟨first, rfl, begin?_time_le hfirst he⟩

/-! ## The invariant -/

/-- What the phase says about the pending timers. -/
def PhaseCovers (q : TimerQueue) : Prop :=
  match q.phase with
  | .idle => ∀ e ∈ q.timers_, q.timerfd_.Covers e.time
  | .calling _ _ _ => True
  | .rearming _ when_ => (∃ e ∈ q.timers_, e.time = when_) ∧ ∀ e ∈ q.timers_, when_ ≤ e.time

theorem phaseCovers_idle {q : TimerQueue} (h : q.phase = .idle) :
    q.PhaseCovers ↔ ∀ e ∈ q.timers_, q.timerfd_.Covers e.time := by
  rw [PhaseCovers, h]

theorem phaseCovers_calling {q : TimerQueue} {now : Int} {expired rest : List Entry}
    (h : q.phase = .calling now expired rest) : q.PhaseCovers := by
  rw [PhaseCovers, h]
  trivial

theorem phaseCovers_rearming {q : TimerQueue} {expired : List Entry} {when_ : Int}
    (h : q.phase = .rearming expired when_) :
    q.PhaseCovers ↔
      (∃ e ∈ q.timers_, e.time = when_) ∧ ∀ e ∈ q.timers_, when_ ≤ e.time := by
  rw [PhaseCovers, h]

structure Covered (q : TimerQueue) : Prop where
  kept : q.WellKept q.outside
  phase : q.PhaseCovers

theorem covered_new (clock : Int) : (new clock).Covered := by
  refine ⟨(agrees_new clock).kept, ?_⟩
  intro e he
  exact absurd he ExtTreeSet.not_mem_empty

/-- One timer that is not covered, and the earliest one is not. -/
theorem not_neverAsleep_of_mem {q : TimerQueue} (hidle : q.phase = .idle) {e : Entry}
    (he : e ∈ q.timers_) (huncovered : ¬ q.timerfd_.Covers e.time) : ¬ q.NeverAsleep := by
  intro hawake
  obtain ⟨first, hfirst, hle⟩ := exists_begin? he
  exact huncovered ((hawake hidle first hfirst).mono hle)

theorem neverAsleep_of_covered {q : TimerQueue} (h : q.Covered) : q.NeverAsleep := by
  intro hidle first hfirst
  exact (phaseCovers_idle hidle).mp h.phase first (begin?_mem hfirst)

/-! ## Insertion -/

/-- What the answer of `insert` says. -/
theorem insert_isEarliest (q : TimerQueue) (t : TimerPtr) (timer : Timer) :
    if (q.insert t timer).2 then ∀ e ∈ q.timers_, timer.expiredTime_ ≤ e.time
    else ∃ first ∈ q.timers_, first.time ≤ timer.expiredTime_ := by
  have hb : (q.insert t timer).2 = q.isEarliest timer := rfl
  rw [hb, isEarliest]
  cases hfirst : begin? q.timers_ with
  | none =>
    -- `timers_` is empty
    rw [if_pos rfl]
    intro e he
    obtain ⟨first, hfirst', -⟩ := exists_begin? he
    rw [hfirst] at hfirst'
    cases hfirst'
  | some first =>
    by_cases hlt : timer.expiredTime_ < first.time
    · rw [if_pos (by simpa using hlt)]
      intro e he
      have hle := begin?_time_le hfirst he
      omega
    · rw [if_neg (by simpa using hlt)]
      exact ⟨first, begin?_mem hfirst, by omega⟩

/-! ## User operations -/

/-- Set for the new timer if it is the earliest, and otherwise an earlier
    one was covered, and so this one is. -/
theorem covers_insert {q : TimerQueue} {t : TimerPtr} {timer : Timer}
    (hcovers : ∀ e ∈ q.timers_, q.timerfd_.Covers e.time) {fd : Timerfd}
    (hfd : fd = if (q.insert t timer).2 then
      .armed (q.clock + q.howMuchTimeFromNow timer.expiredTime_) q.clock else q.timerfd_)
    (hcond : q.isEarliest timer = true → q.Within64 timer.expiredTime_) :
    ∀ e ∈ (q.insert t timer).1.timers_, fd.Covers e.time := by
  have hearliest := q.insert_isEarliest t timer
  intro e he
  rw [hfd]
  by_cases hb : (q.insert t timer).2 = true
  · rw [if_pos hb] at hearliest ⊢
    have hle : timer.expiredTime_ ≤ e.time := by
      rcases mem_insert he with rfl | he
      · exact Int.le_refl _
      · exact hearliest e he
    exact (covers_armed_iff.mpr (hcond hb)).mono hle
  · -- `timerfd_` stays as it is
    rw [if_neg hb] at hearliest ⊢
    obtain ⟨first, hfirst, hle⟩ := hearliest
    rcases mem_insert he with rfl | he
    · exact (hcovers first hfirst).mono hle
    · exact hcovers e he

/-- Set for a time that is not within 64 bits, `timerfd_` does not cover
    the new timer. -/
theorem not_covers_insert {q : TimerQueue} {t : TimerPtr} {timer : Timer} {fd : Timerfd}
    (hfd : fd = if (q.insert t timer).2 then
      .armed (q.clock + q.howMuchTimeFromNow timer.expiredTime_) q.clock else q.timerfd_)
    (hearliest : q.isEarliest timer = true) (hfar : ¬ q.Within64 timer.expiredTime_) :
    ∃ e ∈ (q.insert t timer).1.timers_, ¬ fd.Covers e.time := by
  have hb : (q.insert t timer).2 = true := hearliest
  refine ⟨⟨timer.expiredTime_, t⟩, mem_insert_iff.mpr (.inl rfl), ?_⟩
  rw [hfd, if_pos hb, covers_armed_iff]
  exact hfar

theorem phase_addTimerInLoop {q : TimerQueue} {t : TimerPtr} {timer : Timer}
    (ht : q.heap[t]? = some timer) : (q.addTimerInLoop t).phase = q.phase := by
  obtain ⟨fd, heq, -⟩ := addTimerInLoop_spec ht
  rw [heq]
  rfl

theorem phaseCovers_addTimerInLoop {q : TimerQueue} (h : q.Covered) {t : TimerPtr}
    (hguard : q.guard (.addTimerInLoop t)) (hcond : q.ResetsInTime (.addTimerInLoop t)) :
    (q.addTimerInLoop t).PhaseCovers := by
  obtain ⟨huser, hadding⟩ := hguard
  obtain ⟨timer, ht⟩ := h.kept.getElem? (mem_outside_of_adding hadding)
  obtain ⟨fd, heq, hfd⟩ := addTimerInLoop_spec ht
  have hphase := phase_addTimerInLoop ht
  rcases hp : q.phase with _ | ⟨now, expired, rest⟩ | ⟨expired, when_⟩
  · rw [phaseCovers_idle (hphase.trans hp), heq]
    exact covers_insert ((phaseCovers_idle hp).mp h.phase) hfd (hcond hp timer ht)
  · -- a callback may add a timer that `timerfd_` does not cover: `reset` comes
    exact phaseCovers_calling (hphase.trans hp)
  · -- no user code runs inside `reset`
    rw [InUserCode, hp] at huser
    exact huser.elim

theorem not_neverAsleep_addTimerInLoop {q : TimerQueue} {t : TimerPtr}
    (hcond : ¬ q.ResetsInTime (.addTimerInLoop t)) : ¬ (q.addTimerInLoop t).NeverAsleep := by
  simp only [ResetsInTime, not_forall] at hcond
  obtain ⟨hidle, timer, ht, hearliest, hfar⟩ := hcond
  obtain ⟨fd, heq, hfd⟩ := addTimerInLoop_spec ht
  obtain ⟨e, he, huncovered⟩ := not_covers_insert hfd hearliest hfar
  have hphase := phase_addTimerInLoop ht
  rw [heq] at hphase ⊢
  exact not_neverAsleep_of_mem (hphase.trans hidle) he huncovered

/-- Fewer entries in the same phase, and the same ones inside `reset`. -/
theorem PhaseCovers.mono {q q' : TimerQueue} (h : q.PhaseCovers)
    (htimers : ∀ e ∈ q'.timers_, e ∈ q.timers_)
    (hsame : q'.timers_ = q.timers_ ∨ q.InUserCode)
    (hfd : ∀ t, q.timerfd_.Covers t → q'.timerfd_.Covers t) (hphase : q'.phase = q.phase) :
    q'.PhaseCovers := by
  cases hp : q.phase with
  | idle =>
    rw [phaseCovers_idle (hphase.trans hp)]
    intro e he
    exact hfd _ ((phaseCovers_idle hp).mp h e (htimers e he))
  | calling now expired rest => exact phaseCovers_calling (hphase.trans hp)
  | rearming expired when_ =>
    rw [phaseCovers_rearming (hphase.trans hp)]
    rcases hsame with hsame | huser
    · rw [hsame]
      exact (phaseCovers_rearming hp).mp h
    · rw [InUserCode, hp] at huser
      exact huser.elim

theorem phaseCovers_cancelInLoop {q : TimerQueue} (h : q.PhaseCovers) (huser : q.InUserCode)
    (t : TimerPtr) : (q.cancelInLoop t).PhaseCovers := by
  obtain ⟨htimers, -, hrest⟩ := q.cancelLocked_frame t (q.lock t)
  exact h.mono htimers (.inr huser) (fun _ hc => hrest.timerfd_.symm ▸ hc) hrest.phase

theorem covers_elapse {q : TimerQueue} {t : Int} (h : q.timerfd_.Covers t) (d : Nat) :
    (q.elapse d).timerfd_.Covers t := by
  unfold elapse
  cases hfd : q.timerfd_ with
  | disarmed =>
    rw [hfd] at h
    exact h.elim
  | armed deadline setAt =>
    -- it has expired by now, or is still set for the same time
    rw [hfd] at h
    dsimp only
    split
    · trivial
    · exact h
  | expired => trivial

/-! ## The reset -/

/-- The times `reset` leaves are those that were there and those of the
    timers it restarts. -/
theorem foldl_resetEntry_times {now : Int} {others : List TimerPtr} {expired : List Entry}
    {q : TimerQueue} (hkept : q.WellKept (expired.map Entry.timer ++ others)) (P : Int → Prop) :
    (∀ e ∈ (expired.foldl (resetEntry now) q).timers_, P e.time) ↔ q.AllTimes P now expired := by
  obtain ⟨-, htimers⟩ := foldl_resetEntry now expired hkept
  constructor
  · intro hall
    refine ⟨fun e he => hall e ((htimers e).mpr (Or.inl he)), fun e he timer hr => ?_⟩
    exact hall ⟨timer.following now, e.timer⟩ ((htimers _).mpr (Or.inr ⟨e, he, timer, hr, rfl⟩))
  · rintro ⟨hthere, hrestarted⟩ e he
    rcases (htimers e).mp he with he | ⟨x, hx, timer, hr, rfl⟩
    · exact hthere e he
    · exact hrestarted x hx timer hr

/-- The decision about `timerfd_`: it is set for the earliest timer if
    that is not due, and otherwise left alone. -/
theorem reset_cases {q : TimerQueue} (h : q.Covered) {now : Int} {expired : List Entry}
    (hphase : q.phase = .calling now expired []) :
    ∃ q' : TimerQueue, q'.timerfd_ = q.timerfd_ ∧
      (∀ P : Int → Prop, (∀ e ∈ q'.timers_, P e.time) ↔ q.AllTimes P now expired) ∧
      ((q.reset expired now = { q' with phase := .idle } ∧
          ∀ first, begin? q'.timers_ = some first → first.time < q.clock) ∨
        ∃ first, begin? q'.timers_ = some first ∧ q.clock ≤ first.time ∧
          q.reset expired now = { q' with phase := .rearming expired first.time }) := by
  have hkept := h.kept
  rw [outside_calling hphase] at hkept
  -- the state of the loop, with the flag taken back
  have hstart : WellKept { q with callingExpiredTimers_ := false }
      (expired.map Entry.timer ++ q.adding) := hkept.mono rfl fun _ he => he
  obtain ⟨hkept', -⟩ := foldl_resetEntry now expired hstart
  obtain ⟨hrest, -⟩ := foldl_resetEntry_frame now expired { q with callingExpiredTimers_ := false }
  have hclock := hrest.clock
  refine ⟨expired.foldl (resetEntry now) { q with callingExpiredTimers_ := false }, hrest.timerfd_,
    foldl_resetEntry_times hstart, ?_⟩
  unfold reset
  dsimp only
  generalize expired.foldl (resetEntry now) { q with callingExpiredTimers_ := false } = q'
    at hkept' hclock ⊢
  cases hfirst : begin? q'.timers_ with
  | none => exact Or.inl ⟨rfl, fun first hfirst => by cases hfirst⟩
  | some first =>
    obtain ⟨timer, htimer, htime⟩ := hkept'.time first (begin?_mem hfirst)
    dsimp only
    rw [htimer]
    dsimp only
    have hclock' : q'.clock = q.clock := hclock
    by_cases hvalid : timer.isValid q'.clock = true
    · rw [if_pos hvalid]
      rw [Timer.isValid, decide_eq_true_eq, htime, hclock'] at hvalid
      exact Or.inr ⟨first, rfl, hvalid, by rw [htime]⟩
    · rw [if_neg hvalid]
      rw [Timer.isValid, decide_eq_true_eq, htime, hclock'] at hvalid
      refine Or.inl ⟨rfl, fun first' hfirst' => ?_⟩
      cases hfirst'
      omega

/-- In time, `reset` leaves all timers covered, or about to be. -/
theorem phaseCovers_reset {q : TimerQueue} (h : q.Covered) {now : Int} {expired : List Entry}
    (hphase : q.phase = .calling now expired [])
    (hcond : q.AllTimes (q.clock ≤ ·) now expired ∨ q.AllTimes q.timerfd_.Covers now expired) :
    (q.reset expired now).PhaseCovers := by
  obtain ⟨q', hfd, htimes, ⟨heq, hdue⟩ | ⟨first, hfirst, -, heq⟩⟩ := reset_cases h hphase
  · rw [heq]
    show ∀ e ∈ q'.timers_, q'.timerfd_.Covers e.time
    rw [hfd]
    rcases hcond with hcond | hcond
    · -- nothing is due and the earliest timer is: there is none
      intro e he
      obtain ⟨first, hfirst, -⟩ := exists_begin? he
      have hle := (htimes _).mpr hcond first (begin?_mem hfirst)
      have hlt := hdue first hfirst
      omega
    · exact (htimes _).mpr hcond
  · rw [heq]
    exact ⟨⟨first, begin?_mem hfirst, rfl⟩, fun e he => begin?_time_le hfirst he⟩

/-- Too late, `reset` goes to sleep on a timer. -/
theorem not_neverAsleep_reset {q : TimerQueue} (h : q.Covered) {now : Int} {expired : List Entry}
    (hphase : q.phase = .calling now expired [])
    (hclock : ¬ q.AllTimes (q.clock ≤ ·) now expired)
    (hfd : ¬ q.AllTimes q.timerfd_.Covers now expired) :
    ¬ (q.reset expired now).NeverAsleep := by
  obtain ⟨q', hsame, htimes, hend⟩ := reset_cases h hphase
  rw [← htimes] at hclock hfd
  rw [← hsame] at hfd
  push Not at hclock hfd
  obtain ⟨e, he, hlate⟩ := hclock
  obtain ⟨x, hx, huncovered⟩ := hfd
  rcases hend with ⟨heq, -⟩ | ⟨first, hfirst, hvalid, -⟩
  · rw [heq]
    exact not_neverAsleep_of_mem rfl hx huncovered
  · have hle := begin?_time_le hfirst he
    omega

/-! ## The invariant over runs -/

theorem phaseCovers_resetTimerfd {q : TimerQueue} (h : q.PhaseCovers) {expired : List Entry}
    {when_ : Int} (hphase : q.phase = .rearming expired when_) (hcond : q.Within64 when_) :
    { q.resetTimerfd when_ with phase := .idle }.PhaseCovers := by
  intro e he
  have hle : when_ ≤ e.time := ((phaseCovers_rearming hphase).mp h).2 e he
  exact (covers_armed_iff.mpr hcond).mono hle

theorem not_neverAsleep_resetTimerfd {q : TimerQueue} (h : q.PhaseCovers) {expired : List Entry}
    {when_ : Int} (hphase : q.phase = .rearming expired when_) (hcond : ¬ q.Within64 when_) :
    ¬ { q.resetTimerfd when_ with phase := .idle }.NeverAsleep := by
  obtain ⟨⟨e, he, rfl⟩, -⟩ := (phaseCovers_rearming hphase).mp h
  exact not_neverAsleep_of_mem rfl he fun hcovers => hcond (covers_armed_iff.mp hcovers)

theorem phaseCovers_next {q : TimerQueue} (h : q.Covered) {l : TimerStep} (hguard : q.guard l)
    (hcond : q.ResetsInTime l) : (q.next l).PhaseCovers := by
  cases l with
  | elapse d => exact h.phase.mono (fun _ he => he) (.inl rfl) (fun t hc => covers_elapse hc d) rfl
  | addTimer t timeout interval => exact h.phase
  | addTimerInLoop t => exact phaseCovers_addTimerInLoop h hguard hcond
  | cancelInLoop t => exact phaseCovers_cancelInLoop h.phase hguard.1 t
  | handleRead => exact phaseCovers_calling rfl
  | runTimer =>
    obtain ⟨now, expired, e, rest, hphase⟩ := hguard
    rw [next_runTimer hphase]
    exact phaseCovers_calling rfl
  | reset =>
    obtain ⟨now, expired, hphase⟩ := hguard
    rw [ResetsInTime, hphase] at hcond
    rw [next_reset hphase]
    exact phaseCovers_reset h hphase hcond
  | resetTimerfd =>
    obtain ⟨expired, when_, hphase⟩ := hguard
    rw [ResetsInTime, hphase] at hcond
    rw [next_resetTimerfd hphase]
    exact phaseCovers_resetTimerfd h.phase hphase hcond

/-- **Step**: every step that meets the condition keeps all timers
    covered. -/
theorem covered_next {q : TimerQueue} (hagrees : q.Agrees q.outside) (h : q.Covered)
    {l : TimerStep} (hguard : q.guard l) (hcond : q.ResetsInTime l) : (q.next l).Covered :=
  ⟨(agrees_next hagrees hguard).kept, phaseCovers_next h hguard hcond⟩

/-- **Step**: one that misses the condition puts the queue to sleep. -/
theorem not_neverAsleep_next {q : TimerQueue} (h : q.Covered) {l : TimerStep} (hguard : q.guard l)
    (hcond : ¬ q.ResetsInTime l) : ¬ (q.next l).NeverAsleep := by
  cases l with
  | reset =>
    obtain ⟨now, expired, hphase⟩ := hguard
    rw [ResetsInTime, hphase] at hcond
    rw [next_reset hphase]
    exact not_neverAsleep_reset h hphase (fun hc => hcond (Or.inl hc)) fun hc => hcond (Or.inr hc)
  | addTimerInLoop t => exact not_neverAsleep_addTimerInLoop hcond
  | resetTimerfd =>
    obtain ⟨expired, when_, hphase⟩ := hguard
    rw [ResetsInTime, hphase] at hcond
    rw [next_resetTimerfd hphase]
    exact not_neverAsleep_resetTimerfd h.phase hphase hcond
  | elapse | addTimer | cancelInLoop | handleRead | runTimer => exact absurd trivial hcond

/-- **The queue never sleeps on its timers**, in every state of a run,
    exactly when every `reset` of the run comes in time and `timerfd_` is
    never set for a time that is not within 64 bits. -/
theorem neverAsleep_iff_resetsInTime (clock : Int) (steps : List TimerStep)
    (hvalid : timerQueue.Valid (new clock) steps) :
    (∀ pre, pre <+: steps → (timerQueue.run (new clock) pre).NeverAsleep) ↔
      timerQueue.Along ResetsInTime (new clock) steps := by
  apply timerQueue.always_iff_along
    (fun q steps => q.Agrees q.outside ∧ q.Covered ∧ timerQueue.Valid q steps) NeverAsleep
  · rintro q steps ⟨-, h, -⟩
    exact neverAsleep_of_covered h
  · rintro q l steps ⟨hagrees, h, hguard, hrest⟩ hcond
    exact ⟨agrees_next hagrees hguard, covered_next hagrees h hguard hcond, hrest⟩
  · rintro q l steps ⟨-, h, hguard, -⟩ hcond
    exact not_neverAsleep_next h hguard hcond
  · exact ⟨agrees_new clock, covered_new clock, hvalid⟩

/-- A periodic timer whose callback is quick. -/
theorem neverAsleep_periodic :
    let steps : List TimerStep :=
      [.addTimer 1 200 500, .addTimerInLoop 1, .elapse 201, .handleRead, .runTimer, .elapse 10,
        .reset, .resetTimerfd]
    ∀ pre, pre <+: steps → (timerQueue.run (new 0) pre).NeverAsleep :=
  (neverAsleep_iff_resetsInTime 0 _ (by decide +kernel)).mpr (by decide +kernel)

/-- Two timers, and a slow callback: when the first one is done the second
    is late, and `timerfd_` stays disarmed. -/
theorem asleep_slow_callback :
    let steps : List TimerStep :=
      [.addTimer 1 200 0, .addTimerInLoop 1, .addTimer 2 300 0, .addTimerInLoop 2, .elapse 201,
        .handleRead, .runTimer, .elapse 200, .reset]
    timerQueue.Valid (new 0) steps ∧ ¬ (timerQueue.run (new 0) steps).NeverAsleep := by
  refine ⟨by decide +kernel, fun h => ?_⟩
  have hcovers := h (by decide +kernel) ⟨300, 2⟩ (by decide +kernel)
  revert hcovers
  decide +kernel

end TimerQueue

end TinyWS
