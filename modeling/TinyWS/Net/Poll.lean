import TinyWS.Framework.Machine
import TinyWS.Net.Epoll

/-! # Poll

    A turn of the event loop asks the kernel for as many events as
    `events_` has room for.  The kernel goes round robin through the
    descriptors that are ready, and `events_` doubles whenever it was
    filled.

    So a poll that leaves a ready channel out makes the next one twice as
    large, and few polls of a run can leave anything out.  How long one
    channel waits depends only on how many are in front of it. -/

namespace TinyWS

/-- `struct epoll_event`, with the channel in `data.ptr`. -/
structure EpollEvent where
  events : BitVec 32
  ptr : ChannelPtr
  deriving DecidableEq, Repr

/-- The channels that were ready at a poll, in the order of the kernel,
    and those that the loop was given. -/
structure Turn where
  ready : List ChannelPtr
  active : List ChannelPtr
  deriving DecidableEq, Repr

/-- The part of `Epoll` and `EventLoop` that polls, with what the kernel
    knows.  The last field is a history. -/
structure Poller where
  events_ : List EpollEvent
  activeChannels_ : List ChannelPtr
  /-- `revents_` of the channels. -/
  revents_ : ChannelPtr → BitVec 32
  /-- The ready list of the kernel. -/
  ready : List ChannelPtr
  /-- The events that the kernel would report. -/
  reports : ChannelPtr → BitVec 32
  turns : List Turn

inductive PollStep where
  /-- A registered descriptor is ready, or ready for something else. -/
  | become (c : ChannelPtr) (events : BitVec 32)
  /-- It is not ready any more, or not registered. -/
  | cease (c : ChannelPtr)
  /-- The loop polls. -/
  | poll
  deriving DecidableEq, Repr

namespace Poller

/-! ## The model -/

def kInitEventListSize : Nat := 16

def new : Poller where
  events_ := List.replicate kInitEventListSize ⟨0, 0⟩
  activeChannels_ := []
  revents_ := fun _ => 0
  ready := []
  reports := fun _ => 0
  turns := []

/-- `epoll_wait`.  A descriptor that was reported goes to the end, since
    it may still be ready. -/
def epoll_wait (s : Poller) (maxevents : Int) : Poller × Int :=
  if maxevents ≤ 0 then (s, -1)
  else
    let n := min maxevents.toNat s.ready.length
    ({ s with
        events_ := ((s.ready.take n).map fun c => ⟨s.reports c, c⟩) ++ s.events_.drop n
        ready := s.ready.rotate n }, n)

/-- The channel of an event is active, and `setRevents` tells it why. -/
def activate (s : Poller) (event : EpollEvent) : Poller :=
  { s with
    revents_ := Function.update s.revents_ event.ptr event.events
    activeChannels_ := s.activeChannels_ ++ [event.ptr] }

def fillActiveChannels (s : Poller) (eventNums : Nat) : Poller :=
  (s.events_.take eventNums).foldl activate s

/-- `Epoll::poll`; the size of `events_` is cast to an `int`. -/
def poll (s : Poller) : Poller :=
  let (s, eventNums) := s.epoll_wait (BitVec.ofNat 32 s.events_.length).toInt
  if 0 < eventNums then
    let s := s.fillActiveChannels eventNums.toNat
    if eventNums.toNat = s.events_.length then
      { s with events_ := s.events_ ++ List.replicate s.events_.length ⟨0, 0⟩ }
    else s
  else s

/-- The part of `EventLoop::loop` in front of the handlers. -/
def turn (s : Poller) : Poller :=
  let t := { s with activeChannels_ := [] }.poll
  { t with turns := t.turns ++ [⟨s.ready, t.activeChannels_⟩] }

def become (s : Poller) (c : ChannelPtr) (events : BitVec 32) : Poller :=
  { s with
    ready := if c ∈ s.ready then s.ready else s.ready ++ [c]
    reports := Function.update s.reports c events }

def cease (s : Poller) (c : ChannelPtr) : Poller := { s with ready := s.ready.erase c }

def next (s : Poller) : PollStep → Poller
  | .become c events => s.become c events
  | .cease c => s.cease c
  | .poll => s.turn

end Poller

/-- The handlers, the peers and the clock decide what is ready.  No more
    than `limit` descriptors are ready at a time: a process has no more. -/
def poller (limit : Nat) : Machine Poller PollStep where
  guard s
    | .become c _ => c ∈ s.ready ∨ s.ready.length < limit
    | .cease _ | .poll => True
  next := Poller.next

namespace Poller

instance (limit : Nat) (s : Poller) : (l : PollStep) → Decidable ((poller limit).guard s l)
  | .become c _ => inferInstanceAs (Decidable (c ∈ s.ready ∨ s.ready.length < limit))
  | .cease _ | .poll => isTrue trivial

/-! ## The specification -/

/-- The poll left out a channel that was ready. -/
def Partial (t : Turn) : Prop := t.active ≠ t.ready

instance : DecidablePred Partial := fun t => inferInstanceAs (Decidable (t.active ≠ t.ready))

/-- The step does not give the channel to the loop. -/
def Skips (c : ChannelPtr) (s : Poller) : PollStep → Prop
  | .poll => c ∉ s.turn.activeChannels_
  | .become _ _ | .cease _ => True

/-- How often the loop polls. -/
def polls (ls : List PollStep) : Nat := ls.count .poll

/-- The event list is as large as the polls need that left something out,
    and the polls have reported what came first. -/
structure Rotating (limit : Nat) (s : Poller) : Prop where
  grown : kInitEventListSize * 2 ^ s.turns.countP (Partial ·) ≤ s.events_.length
  bound : s.events_.length ≤ max kInitEventListSize (2 * limit)
  nodup : s.ready.Nodup
  fits : s.ready.length ≤ limit
  turns : ∀ t ∈ s.turns, t.active <+: t.ready ∧ t.ready.Nodup
  few : ∀ m, limit ≤ kInitEventListSize * 2 ^ m → s.turns.countP (Partial ·) ≤ m

/-- **Turn**: what a turn of the loop does, as long as the size of
    `events_` is an `int`. -/
structure Turns (s t : Poller) : Prop where
  active : t.activeChannels_ = s.ready.take s.events_.length
  revents : ∀ c ∈ t.activeChannels_, t.revents_ c = s.reports c
  ready : t.ready = s.ready.rotate (min s.events_.length s.ready.length)
  events : t.events_.length =
    if s.events_.length ≤ s.ready.length then 2 * s.events_.length else s.events_.length
  turns : t.turns = s.turns ++ [⟨s.ready, t.activeChannels_⟩]

variable {s : Poller} {c : ChannelPtr} {limit : Nat}

/-! ## One turn -/

/-- The loop of `fillActiveChannels`. -/
theorem foldl_activate (s : Poller) (reports : ChannelPtr → BitVec 32) (l : List ChannelPtr) :
    let t := (l.map fun c => EpollEvent.mk (reports c) c).foldl activate s
    t.activeChannels_ = s.activeChannels_ ++ l ∧
      (∀ c, t.revents_ c = if c ∈ l then reports c else s.revents_ c) ∧
      t.ready = s.ready ∧ t.events_ = s.events_ ∧ t.turns = s.turns := by
  induction l generalizing s with
  | nil => simp
  | cons d l ih =>
    obtain ⟨hactive, hrevents, hrest⟩ := ih (s.activate ⟨reports d, d⟩)
    refine ⟨?_, ?_, hrest⟩
    · rw [List.map_cons, List.foldl_cons, hactive]
      exact List.append_assoc ..
    · intro c
      rw [List.map_cons, List.foldl_cons, hrevents]
      by_cases hc : c ∈ l
      · simp [hc]
      · by_cases hd : c = d
        · simp [hd, activate]
        · simp [hc, hd, activate]

/-- `static_cast<int>(events_.size())`. -/
theorem toInt_size {n : Nat} (h : n < 2 ^ 31) : (BitVec.ofNat 32 n).toInt = n := by
  have hmod : (BitVec.ofNat 32 n).toNat = n := by
    rw [BitVec.toNat_ofNat, Nat.mod_eq_of_lt (by omega)]
  rw [BitVec.toInt_eq_toNat_of_lt]
  · rw [hmod]
  · rw [hmod]
    omega

/-- How many events the kernel writes. -/
def reported (s : Poller) : Nat := min s.events_.length s.ready.length

/-- The state when `epoll_wait` has returned. -/
def waited (s : Poller) : Poller :=
  { s with
    events_ := ((s.ready.take s.reported).map fun c => ⟨s.reports c, c⟩) ++
      s.events_.drop s.reported
    ready := s.ready.rotate s.reported }

theorem epoll_wait_size (hpos : 0 < s.events_.length) (hint : s.events_.length < 2 ^ 31) :
    s.epoll_wait (BitVec.ofNat 32 s.events_.length).toInt = (s.waited, (s.reported : Int)) := by
  rw [toInt_size hint, epoll_wait, if_neg (by omega)]
  rfl

theorem length_waited : s.waited.events_.length = s.events_.length := by
  have hle : s.reported ≤ s.events_.length := Nat.min_le_left _ _
  have hready : s.reported ≤ s.ready.length := Nat.min_le_right _ _
  rw [waited, List.length_append, List.length_map, List.length_take, List.length_drop]
  omega

/-- The state behind `fillActiveChannels`. -/
def filled (s : Poller) : Poller := s.waited.fillActiveChannels s.reported

/-- What `fillActiveChannels` reads has just been written. -/
theorem filled_spec (hnone : s.activeChannels_ = []) :
    s.filled.activeChannels_ = s.ready.take s.events_.length ∧
      (∀ c ∈ s.filled.activeChannels_, s.filled.revents_ c = s.reports c) ∧
      s.filled.ready = s.ready.rotate s.reported ∧
      s.filled.events_.length = s.events_.length ∧ s.filled.turns = s.turns := by
  have hwritten : ((s.ready.take s.reported).map fun c =>
      EpollEvent.mk (s.reports c) c).length = s.reported := by
    rw [List.length_map, List.length_take]
    exact Nat.min_eq_left (Nat.min_le_right _ _)
  have hfilled : s.filled = ((s.ready.take s.reported).map fun c =>
      EpollEvent.mk (s.reports c) c).foldl activate s.waited := by
    -- the kernel wrote to the front of the list, and as many as are read
    rw [filled, fillActiveChannels, waited, List.take_left' hwritten]
  have htake : s.ready.take s.reported = s.ready.take s.events_.length := by
    rw [reported, List.take_eq_take_iff]
    omega
  obtain ⟨hactive, hrevents, hready, hevents, hturns⟩ :=
    foldl_activate s.waited s.reports (s.ready.take s.reported)
  rw [← hfilled, htake] at hactive hrevents
  rw [← hfilled] at hready hevents hturns
  have hactive' : s.filled.activeChannels_ = s.ready.take s.events_.length := by
    rw [hactive]
    show s.activeChannels_ ++ _ = _
    rw [hnone, List.nil_append]
  refine ⟨hactive', ?_, hready, ?_, hturns⟩
  · intro c hc
    rw [hactive'] at hc
    rw [hrevents, if_pos hc]
  · rw [hevents, length_waited]

/-- A poll that reports nothing fills nothing. -/
theorem poll_eq (hpos : 0 < s.events_.length) (hint : s.events_.length < 2 ^ 31) :
    s.poll =
      if s.reported = s.filled.events_.length then
        { s.filled with
          events_ := s.filled.events_ ++ List.replicate s.filled.events_.length ⟨0, 0⟩ }
      else s.filled := by
  unfold poll
  rw [epoll_wait_size hpos hint]
  simp only [Int.natCast_pos, Int.toNat_natCast]
  by_cases hsome : 0 < s.reported
  · rw [if_pos hsome]
    rfl
  · -- nothing was reported, and the list, which is not empty, is not full
    have hzero : s.reported = 0 := Nat.eq_zero_of_not_pos hsome
    have hfilled : s.filled = s.waited := by
      rw [filled, hzero]
      rfl
    rw [if_neg hsome, hfilled, length_waited, if_neg (by omega)]

/-- The event list doubles if the kernel has filled it. -/
theorem length_poll (hpos : 0 < s.events_.length) (hint : s.events_.length < 2 ^ 31)
    (hnone : s.activeChannels_ = []) : s.poll.events_.length =
      if s.events_.length ≤ s.ready.length then 2 * s.events_.length else s.events_.length := by
  obtain ⟨-, -, -, hevents, -⟩ := filled_spec hnone
  rw [poll_eq hpos hint, hevents]
  by_cases hfull : s.events_.length ≤ s.ready.length
  · have hall : s.reported = s.events_.length := Nat.min_eq_left hfull
    rw [if_pos hall, if_pos hfull, List.length_append, List.length_replicate, hevents]
    exact (Nat.two_mul _).symm
  · have hsome : s.reported ≠ s.events_.length := by
      intro heq
      rw [reported] at heq
      omega
    rw [if_neg hsome, if_neg hfull, hevents]

theorem turns_turn (hpos : 0 < s.events_.length) (hint : s.events_.length < 2 ^ 31) :
    s.Turns s.turn := by
  let cleared : Poller := { s with activeChannels_ := [] }
  obtain ⟨hactive, hrevents, hready, -, hturns⟩ := filled_spec (s := cleared) rfl
  have hlength := length_poll (s := cleared) hpos hint rfl
  -- apart from the event list, `poll` does what `fillActiveChannels` does
  have hrest : cleared.poll.activeChannels_ = cleared.filled.activeChannels_ ∧
      cleared.poll.revents_ = cleared.filled.revents_ ∧
      cleared.poll.ready = cleared.filled.ready ∧ cleared.poll.turns = cleared.filled.turns := by
    rw [poll_eq (s := cleared) hpos hint]
    split
    · exact ⟨rfl, rfl, rfl, rfl⟩
    · exact ⟨rfl, rfl, rfl, rfl⟩
  obtain ⟨hactive', hrevents', hready', hturns'⟩ := hrest
  constructor
  · exact hactive'.trans hactive
  · intro c hc
    have hmem : c ∈ cleared.filled.activeChannels_ := hactive' ▸ hc
    exact (congrFun hrevents' c).trans (hrevents c hmem)
  · exact hready'.trans hready
  · exact hlength
  · show cleared.poll.turns ++ _ = _
    rw [hturns', hturns]
    rfl

/-! ## Every turn of a run -/

theorem rotating_new (limit : Nat) : (new).Rotating limit where
  grown := by
    show kInitEventListSize * 2 ^ 0 ≤ (List.replicate kInitEventListSize _).length
    rw [List.length_replicate]
    exact Nat.le_refl _
  bound := by
    show (List.replicate kInitEventListSize _).length ≤ _
    rw [List.length_replicate]
    exact Nat.le_max_left _ _
  nodup := List.nodup_nil
  fits := Nat.zero_le limit
  turns t ht := absurd ht List.not_mem_nil
  few m _ := Nat.zero_le m

/-- The list is never empty, -/
theorem Rotating.pos (h : s.Rotating limit) : 0 < s.events_.length := by
  have hpow : 0 < kInitEventListSize * 2 ^ s.turns.countP (Partial ·) :=
    Nat.mul_pos (by decide) (Nat.pow_pos (by decide))
  exact Nat.lt_of_lt_of_le hpow h.grown

/-- and its size is an `int`. -/
theorem Rotating.int (h : s.Rotating limit) (hlimit : limit < 2 ^ 30) :
    s.events_.length < 2 ^ 31 := by
  have hbound := h.bound
  rw [kInitEventListSize] at hbound
  omega

/-- What changes the ready list only, and keeps to the limit. -/
theorem Rotating.withReady (h : s.Rotating limit) {t : Poller} (hevents : t.events_ = s.events_)
    (hturns : t.turns = s.turns) (hnodup : t.ready.Nodup) (hfits : t.ready.length ≤ limit) :
    t.Rotating limit where
  grown := by
    rw [hturns, hevents]
    exact h.grown
  bound := hevents ▸ h.bound
  nodup := hnodup
  fits := hfits
  turns := hturns ▸ h.turns
  few := hturns ▸ h.few

/-- A poll leaves something out when the list is too small for all. -/
theorem countP_turn (hlimit : limit < 2 ^ 30) (h : s.Rotating limit) :
    s.turn.turns.countP (Partial ·) = s.turns.countP (Partial ·) +
      if s.events_.length < s.ready.length then 1 else 0 := by
  obtain ⟨hactive, -, -, -, hturns⟩ := turns_turn h.pos (h.int hlimit)
  have hsmall : Partial ⟨s.ready, s.turn.activeChannels_⟩ ↔
      s.events_.length < s.ready.length := by
    show s.turn.activeChannels_ ≠ s.ready ↔ _
    rw [hactive, ne_eq, List.take_eq_self_iff]
    omega
  rw [hturns, List.countP_append, List.countP_singleton]
  simp only [hsmall, decide_eq_true_eq]

/-- A poll that leaves something out makes the list twice as large, and
    it was smaller than the limit. -/
theorem rotating_turn (hlimit : limit < 2 ^ 30) (h : s.Rotating limit) :
    s.turn.Rotating limit := by
  obtain ⟨hactive, -, hready, hevents, hturns⟩ := turns_turn h.pos (h.int hlimit)
  have hcount := countP_turn hlimit h
  have hfits := h.fits
  have hgrown := h.grown
  constructor
  · -- one more poll has left something out, and the list has doubled
    rw [hcount, hevents]
    by_cases hless : s.events_.length < s.ready.length
    · rw [if_pos hless, if_pos hless.le, Nat.pow_succ, ← Nat.mul_assoc]
      omega
    · rw [if_neg hless, Nat.add_zero]
      split
      · omega
      · exact hgrown
  · rw [hevents]
    split
    · omega
    · exact h.bound
  · rw [hready]
    exact List.nodup_rotate.mpr h.nodup
  · rw [hready, List.length_rotate]
    exact hfits
  · intro t ht
    rw [hturns] at ht
    rcases List.mem_append.mp ht with hold | hnew
    · exact h.turns t hold
    · rw [List.mem_singleton.mp hnew]
      refine ⟨?_, h.nodup⟩
      rw [hactive]
      exact List.take_prefix _ _
  · intro m hm
    have hfew := h.few m hm
    rw [hcount]
    by_cases hless : s.events_.length < s.ready.length
    · rw [if_pos hless]
      -- the list was too small for the limit
      have hlt : kInitEventListSize * 2 ^ s.turns.countP (Partial ·) <
          kInitEventListSize * 2 ^ m := by omega
      exact (Nat.pow_lt_pow_iff_right (by decide)).mp (Nat.lt_of_mul_lt_mul_left hlt)
    · rw [if_neg hless]
      exact hfew

/-- **Step**: the event list stays large enough. -/
theorem rotating_next (hlimit : limit < 2 ^ 30) (h : s.Rotating limit) (l : PollStep)
    (hguard : (poller limit).guard s l) : (s.next l).Rotating limit := by
  cases l with
  | become c events =>
    refine h.withReady (t := s.become c events) rfl rfl ?_ ?_
    · unfold become
      split
      · exact h.nodup
      · next hc =>
        rw [List.nodup_append]
        exact ⟨h.nodup, List.nodup_singleton c, by grind⟩
    · unfold become
      split
      · exact h.fits
      · next hc =>
        rw [List.length_append, List.length_singleton]
        exact hguard.resolve_left hc
  | cease c =>
    refine h.withReady (t := s.cease c) rfl rfl ?_ ?_
    · exact h.nodup.erase c
    · exact List.length_erase_le.trans h.fits
  | poll => exact rotating_turn hlimit h

theorem rotating_run (hlimit : limit < 2 ^ 30) {ls : List PollStep}
    (hls : (poller limit).Valid new ls) : ((poller limit).run new ls).Rotating limit :=
  (poller limit).invariant_run (Rotating limit)
    (fun _ l h hguard => rotating_next hlimit h l hguard) (rotating_new limit) hls

/-- **Polls**: over every run, whatever becomes ready and ceases to be, a
    poll gives the loop ready channels, each once and those that came
    first; all but a few polls give it all of them, `log2 (limit / 16)`
    polls, rounded up, at most in the whole run; and the event list never
    has more than twice as many entries as descriptors. -/
theorem polls_complete (hlimit : limit < 2 ^ 30) {ls : List PollStep}
    (hls : (poller limit).Valid new ls) :
    let s := (poller limit).run new ls
    (∀ t ∈ s.turns, t.active <+: t.ready ∧ t.ready.Nodup) ∧
      (∀ m, limit ≤ kInitEventListSize * 2 ^ m → s.turns.countP (Partial ·) ≤ m) ∧
      s.events_.length ≤ max kInitEventListSize (2 * limit) := by
  intro s
  have h : s.Rotating limit := rotating_run hlimit hls
  exact ⟨h.turns, h.few, h.bound⟩

/-- Forty channels become ready. -/
def crowd : List PollStep := (List.range 40).map fun c => .become c 1

theorem valid_crowd : (poller 40).Valid new (crowd ++ [.poll, .poll, .poll]) := by
  decide +kernel

theorem polls_complete_crowd :
    let s := (poller 40).run new (crowd ++ [.poll, .poll, .poll])
    s.turns.map (fun t => t.active.length) = [16, 32, 40] ∧
      ∀ m, 40 ≤ kInitEventListSize * 2 ^ m → s.turns.countP (Partial ·) ≤ m :=
  ⟨by decide +kernel, (polls_complete (by decide) valid_crowd).2.1⟩

/-! ## How long a channel waits -/

/-- Whoever is in the list keeps the place when others become ready. -/
theorem getElem?_become {p : Nat} (hp : s.ready[p]? = some c) (d : ChannelPtr)
    (events : BitVec 32) : (s.become d events).ready[p]? = some c := by
  unfold become
  split
  · exact hp
  · obtain ⟨hlt, -⟩ := List.getElem?_eq_some_iff.mp hp
    rw [List.getElem?_append_left hlt]
    exact hp

/-- When another one leaves, the place is the same or one nearer. -/
theorem getElem?_cease {p : Nat} (hp : s.ready[p]? = some c) {d : ChannelPtr} (hne : d ≠ c) :
    ∃ q ≤ p, (s.cease d).ready[q]? = some c := by
  have herase : (s.cease d).ready = s.ready.eraseIdx (s.ready.idxOf d) :=
    List.erase_eq_eraseIdx_of_idxOf rfl
  by_cases hbehind : p < s.ready.idxOf d
  · -- `d` was behind it
    refine ⟨p, Nat.le_refl p, ?_⟩
    rw [herase, List.getElem?_eraseIdx_of_lt hbehind]
    exact hp
  · have hnot : p ≠ s.ready.idxOf d := by
      intro heq
      rw [heq] at hp
      obtain ⟨hlt, hget⟩ := List.getElem?_eq_some_iff.mp hp
      rw [List.getElem_idxOf] at hget
      exact hne hget
    -- `d` was in front of it
    refine ⟨p - 1, Nat.sub_le p 1, ?_⟩
    rw [herase, List.getElem?_eraseIdx_of_ge (by omega), Nat.sub_add_cancel (by omega)]
    exact hp

/-- A poll that does not come to the place `p` brings it nearer. -/
theorem getElem?_turn (hlimit : limit < 2 ^ 30) (h : s.Rotating limit) {p : Nat}
    (hp : s.ready[p]? = some c) (hfar : s.events_.length ≤ p) :
    s.turn.ready[p - s.events_.length]? = some c ∧
      s.turn.events_.length = 2 * s.events_.length := by
  obtain ⟨-, -, hready, hevents, -⟩ := turns_turn h.pos (h.int hlimit)
  obtain ⟨hlt, -⟩ := List.getElem?_eq_some_iff.mp hp
  have hfull : s.events_.length ≤ s.ready.length := by omega
  constructor
  · -- what was reported goes to the end, and `c` was behind that
    rw [hready, Nat.min_eq_left hfull, List.rotate_eq_drop_append_take hfull,
      List.getElem?_append_left, List.getElem?_drop, Nat.add_sub_cancel' hfar]
    · exact hp
    · rw [List.length_drop]
      omega
  · rw [hevents, if_pos hfull]

/-- A channel is left out if its place is behind the list. -/
theorem skips_poll_iff (hlimit : limit < 2 ^ 30) (h : s.Rotating limit) {p : Nat}
    (hp : s.ready[p]? = some c) : s.Skips c .poll ↔ s.events_.length ≤ p := by
  obtain ⟨hactive, -⟩ := turns_turn h.pos (h.int hlimit)
  show c ∉ s.turn.activeChannels_ ↔ _
  obtain ⟨hlt, hget⟩ := List.getElem?_eq_some_iff.mp hp
  have hmem : c ∈ s.ready := hget ▸ List.getElem_mem hlt
  have hplace : s.ready.idxOf c = p := by
    rw [← hget]
    exact h.nodup.idxOf_getElem p hlt
  rw [hactive, List.mem_take_iff_idxOf_lt hmem, hplace, Nat.not_lt]

/-- **Step**: as long as a channel is left out, what is in front of it and
    what the list holds add up to no more than at the start. -/
theorem skips_le (hlimit : limit < 2 ^ 30) : ∀ {s : Poller} {p : Nat} {ks : List PollStep},
    s.Rotating limit → (poller limit).Valid s ks → s.ready[p]? = some c →
      (∀ l ∈ ks, l ≠ .cease c) → (poller limit).Along (Skips c) s ks →
        s.events_.length * 2 ^ polls ks ≤ s.events_.length + p := by
  intro s p ks
  induction ks generalizing s p with
  | nil =>
    intro _ _ _ _ _
    rw [polls, List.count_nil, Nat.pow_zero]
    omega
  | cons l ks ih =>
    intro h hks hp hstays hskips
    obtain ⟨hguard, htail⟩ := hks
    have hnext := rotating_next hlimit h l hguard
    have hstays' : ∀ k ∈ ks, k ≠ .cease c := fun k hk => hstays k (List.mem_cons_of_mem l hk)
    cases l with
    | become d events =>
      exact ih (s := s.become d events) hnext htail (getElem?_become hp d events) hstays' hskips.2
    | cease d =>
      have hne : d ≠ c := by
        intro heq
        exact hstays _ List.mem_cons_self (by rw [heq])
      obtain ⟨q, hq, hplace⟩ := getElem?_cease hp hne
      have hle := ih (s := s.cease d) hnext htail hplace hstays' hskips.2
      exact hle.trans (Nat.add_le_add_left hq _)
    -- a poll brings `c` nearer by the size of the list, and doubles the size
    | poll =>
      have hfar := (skips_poll_iff hlimit h hp).mp hskips.1
      obtain ⟨hplace, hsize⟩ := getElem?_turn hlimit h hp hfar
      have hle := ih (s := s.turn) hnext htail hplace hstays' hskips.2
      change s.turn.events_.length * _ ≤ s.turn.events_.length + _ at hle
      rw [hsize] at hle
      rw [polls, List.count_cons_self, Nat.pow_succ', ← Nat.mul_assoc, Nat.mul_comm _ 2]
      rw [polls] at hle
      omega

/-- **Step**: nobody leaves, and each poll that leaves the channel out
    reports as many as the list holds. -/
theorem skips_of_le (hlimit : limit < 2 ^ 30) : ∀ {s : Poller} {p : Nat} {ks : List PollStep},
    s.Rotating limit → (poller limit).Valid s ks → s.ready[p]? = some c →
      (∀ l ∈ ks, ∀ d, l ≠ .cease d) →
        s.events_.length * 2 ^ polls ks ≤ s.events_.length + p →
          (poller limit).Along (Skips c) s ks := by
  intro s p ks
  induction ks generalizing s p with
  | nil =>
    intro _ _ _ _ _
    trivial
  | cons l ks ih =>
    intro h hks hp hstay hle
    obtain ⟨hguard, htail⟩ := hks
    have hnext := rotating_next hlimit h l hguard
    have hstay' : ∀ k ∈ ks, ∀ d, k ≠ .cease d := fun k hk => hstay k (List.mem_cons_of_mem l hk)
    cases l with
    | become d events =>
      refine ⟨trivial, ?_⟩
      exact ih (s := s.become d events) hnext htail (getElem?_become hp d events) hstay' hle
    | cease d => exact absurd rfl (hstay _ List.mem_cons_self d)
    | poll =>
      rw [polls, List.count_cons_self, Nat.pow_succ', ← Nat.mul_assoc, Nat.mul_comm _ 2] at hle
      -- with the bound for one more poll the place is behind the list
      have hpow : 2 * s.events_.length * 1 ≤ 2 * s.events_.length * 2 ^ ks.count .poll :=
        Nat.mul_le_mul_left _ Nat.one_le_two_pow
      have hfar : s.events_.length ≤ p := by omega
      obtain ⟨hplace, hsize⟩ := getElem?_turn hlimit h hp hfar
      refine ⟨(skips_poll_iff hlimit h hp).mpr hfar, ?_⟩
      apply ih (s := s.turn) hnext htail hplace hstay'
      show s.turn.events_.length * 2 ^ ks.count .poll ≤ s.turn.events_.length + _
      rw [hsize]
      omega

/-- **Waiting time**: from every state of every run, a channel that stays
    ready behind `p` others has been given to the loop after `n` polls, if
    `size * 2 ^ n` is larger than `size + p`; when nobody in front of it
    leaves, only then. -/
theorem waiting_time (hlimit : limit < 2 ^ 30) {ls ks : List PollStep}
    (hls : (poller limit).Valid new (ls ++ ks)) {p : Nat}
    (hp : ((poller limit).run new ls).ready[p]? = some c) (hstays : ∀ l ∈ ks, l ≠ .cease c) :
    let s := (poller limit).run new ls
    let size := s.events_.length
    ((poller limit).Along (Skips c) s ks → size * 2 ^ polls ks ≤ size + p) ∧
      ((∀ l ∈ ks, ∀ d, l ≠ .cease d) →
        ((poller limit).Along (Skips c) s ks ↔ size * 2 ^ polls ks ≤ size + p)) := by
  intro s size
  obtain ⟨hvalid, hks⟩ := ((poller limit).valid_append new ls ks).mp hls
  have h : s.Rotating limit := rotating_run hlimit hvalid
  have hle : (poller limit).Along (Skips c) s ks → size * 2 ^ polls ks ≤ size + p :=
    skips_le hlimit h hks hp hstays
  refine ⟨hle, ?_⟩
  intro hstay
  exact ⟨hle, skips_of_le hlimit h hks hp hstay⟩

/-- The last of forty channels is in the second poll. -/
theorem waiting_time_last :
    ¬ (poller 40).Along (Skips 39) ((poller 40).run new crowd) [.poll, .poll, .poll] := by
  intro hskips
  have hle := (waiting_time (by decide) (p := 39) valid_crowd (by decide +kernel)
    (by decide)).1 hskips
  exact absurd hle (by decide +kernel)

end Poller

end TinyWS
