import TinyWS.Net.ChannelMoves

/-! # Channels Are Deregistered

    A loop keeps its books in order while its owners do what they have to
    do before they go.  `Tended` is this invariant: it holds of a new loop,
    and every step under the condition `Tidy` keeps it and destroys only
    channels that were deregistered.

    The timer queue is the owner that never does it.  `Timed` holds in every
    run, so a run in which a loop is destroyed always leaves a registered
    channel behind. -/

namespace TinyWS

open Std

/-! ## One loop -/

namespace OwningLoop

/-- The channels of the loop, by their owners. -/
def owned (s : OwningLoop) (p : Nat) : Option Channel := (s.owners p).bind ChannelOwner.channel

/-- The books are in order, and the owners that are about to give up their
    channels have removed them. -/
structure Tended (s : OwningLoop) : Prop where
  accounted : Accounted s.epoll_ s.owned s.allocated
  removed : ∀ p c, s.owners p = some (.connection c) → c.removed = true → c.Retired
  waits : ∀ p c, s.owners p = some (.connector c) → .resetChannel ∈ c.pendingFunctors_ →
    ∀ ch ∈ c.channel_, ch.addedToLoop_ = false
  unborn : ∀ p, s.allocated ≤ p → s.owners p = none

variable {s : OwningLoop} {p : Nat}

theorem owned_eq {o : ChannelOwner} (ho : s.owners p = some o) : s.owned p = o.channel := by
  rw [owned, ho]
  rfl

/-- A loop in which the owner at `p` is another one. -/
theorem owned_update {s' : OwningLoop} {o : Option ChannelOwner}
    (howners : s'.owners = Function.update s.owners p o) :
    s'.owned = Function.update s.owned p (o.bind ChannelOwner.channel) := by
  funext q
  rw [owned, howners]
  by_cases hq : q = p
  · subst hq
    rw [Function.update_self, Function.update_self]
  · rw [Function.update_of_ne hq, Function.update_of_ne hq, owned]

/-- The owner at `p` becomes `o`: the others are as they were. -/
theorem Tended.update (h : s.Tended) {s' : OwningLoop} {o : Option ChannelOwner}
    (howners : s'.owners = Function.update s.owners p o) (hp : p < s'.allocated)
    (hle : s.allocated ≤ s'.allocated)
    (haccounted : Accounted s'.epoll_
      (Function.update s.owned p (o.bind ChannelOwner.channel)) s'.allocated)
    (hremoved : ∀ c, o = some (.connection c) → c.removed = true → c.Retired)
    (hwaits : ∀ c, o = some (.connector c) → .resetChannel ∈ c.pendingFunctors_ →
      ∀ ch ∈ c.channel_, ch.addedToLoop_ = false) : s'.Tended := by
  refine ⟨?_, ?_, ?_, ?_⟩
  · rw [owned_update howners]
    exact haccounted
  · intro q c hq
    rw [howners] at hq
    by_cases hqp : q = p
    · subst hqp
      rw [Function.update_self] at hq
      exact hremoved c hq
    · rw [Function.update_of_ne hqp] at hq
      exact h.removed q c hq
  · intro q c hq
    rw [howners] at hq
    by_cases hqp : q = p
    · subst hqp
      rw [Function.update_self] at hq
      exact hwaits c hq
    · rw [Function.update_of_ne hqp] at hq
      exact h.waits q c hq
  · intro q hq
    have hqp : q ≠ p := by
      rintro rfl
      omega
    rw [howners, Function.update_of_ne hqp]
    exact h.unborn q (Nat.le_trans hle hq)

/-- Owners have been allocated. -/
theorem Tended.lt_allocated (h : s.Tended) {o : ChannelOwner} (ho : s.owners p = some o) :
    p < s.allocated := by
  by_contra hle
  rw [h.unborn p (Nat.le_of_not_lt hle)] at ho
  cases ho

theorem tended_new (timerfd wakeupFd : Int) : (new timerfd wakeupFd).Tended := by
  -- the two channels are made and enabled one after the other
  have hempty : Accounted Epoll.new (fun _ => none) 0 := by
    refine ⟨fun fd p hp => ?_, fun o o' ch ch' ho => ?_, fun o ch ho => ?_⟩
    · rw [show Epoll.new.channels_[fd]? = none from ExtTreeMap.getElem?_empty] at hp
      cases hp
    · cases ho
    · cases ho
  have htimer := (hempty.create (o := 0) rfl timerfd).move (o := 0) (Function.update_self ..)
    (Channel.moved_enableReading (Channel.new 0 timerfd) Epoll.new)
  rw [Function.update_idem] at htimer
  have hloop := (htimer.create (o := 1) (by simp) wakeupFd).move (o := 1) (Function.update_self ..)
    (Channel.moved_enableReading (Channel.new 1 wakeupFd) _)
  rw [Function.update_idem] at hloop
  have howned : (new timerfd wakeupFd).owned =
      Function.update (Function.update (fun _ => none) 0
        (some ((Channel.new 0 timerfd).enableReading Epoll.new).2)) 1
        (some ((Channel.new 1 wakeupFd).enableReading
          ((Channel.new 0 timerfd).enableReading Epoll.new).1).2) := by
    funext p
    match p with
    | 0 => rfl
    | 1 => rfl
    | p + 2 => rfl
  have hnone : ∀ p o, (new timerfd wakeupFd).owners p = some o →
      (∃ ch, o = .timerQueue ch) ∨ ∃ ch, o = .eventLoop ch := by
    intro p o ho
    match p, ho with
    | 0, ho => exact Or.inl ⟨_, (Option.some.inj ho).symm⟩
    | 1, ho => exact Or.inr ⟨_, (Option.some.inj ho).symm⟩
  refine ⟨?_, ?_, ?_, ?_⟩
  · rw [howned]
    exact hloop
  · intro p c hp
    rcases hnone p _ hp with ⟨ch, hch⟩ | ⟨ch, hch⟩
    · cases hch
    · cases hch
  · intro p c hp
    rcases hnone p _ hp with ⟨ch, hch⟩ | ⟨ch, hch⟩
    · cases hch
    · cases hch
  · intro p hp
    match p, hp with
    | p + 2, _ => rfl

/-! ### What the steps have in common -/

/-- A new owner, with a new channel or with none. -/
theorem tended_allocate (h : s.Tended) {o : ChannelOwner}
    (hchannel : o.channel = none ∨ ∃ fd, o.channel = some (Channel.new s.allocated fd))
    (hconnection : ∀ c, o = .connection c → c.removed = false)
    (hconnector : ∀ c, o = .connector c → .resetChannel ∉ c.pendingFunctors_) :
    (s.allocate o).Tended := by
  have hvacant : s.owned s.allocated = none := by
    rw [owned, h.unborn s.allocated (Nat.le_refl _)]
    rfl
  refine h.update (p := s.allocated) (o := some o) rfl (Nat.lt_succ_self _) (Nat.le_succ _) ?_ ?_ ?_
  · rw [Option.bind_some]
    rcases hchannel with hnone | ⟨fd, hnew⟩
    · rw [hnone]
      have hsame := h.accounted.destroy (o := s.allocated) fun ch hch => by
        rw [hvacant] at hch
        cases hch
      exact hsame.mono (Nat.le_succ _)
    · rw [hnew]
      exact h.accounted.create hvacant fd
  · intro c hc hremoved
    rw [hconnection c (Option.some.inj hc)] at hremoved
    cases hremoved
  · intro c hc hqueued
    exact absurd hqueued (hconnector c (Option.some.inj hc))

/-- A connection runs a member function. -/
theorem tended_withConn (h : s.Tended) {c : OwnedConnection}
    (hc : s.owners p = some (.connection c)) {f : Endpoint → Endpoint} {removed : Bool}
    (hmoves : Endpoint.Moves (s.endpoint c) (f (s.endpoint c)))
    (hretired : removed = true → (f (s.endpoint c)).toTcpConnection.Retired) :
    (s.withConn p c removed f).Tended := by
  refine h.update (p := p) rfl (h.lt_allocated hc) (Nat.le_refl _) ?_ ?_ ?_
  · exact h.accounted.move (owned_eq hc) hmoves
  · intro c' hc' hremoved
    cases hc'
    exact hretired hremoved
  · intro c' hc'
    cases hc'

/-- An owner goes, whose channel was removed. -/
theorem tended_destroy (h : s.Tended) {o : ChannelOwner} (ho : s.owners p = some o)
    (hremoved : ∀ ch ∈ o.channel, ch.addedToLoop_ = false) : (s.setOwner p none).Tended := by
  refine h.update (p := p) rfl (h.lt_allocated ho) (Nat.le_refl _) ?_ ?_ ?_
  · exact h.accounted.destroy fun ch hch => hremoved ch ((owned_eq ho).symm.trans hch)
  · intro c hc
    cases hc
  · intro c hc
    cases hc

/-- The channel of an owner, if it was removed, may be destroyed. -/
theorem Tended.clean (h : s.Tended) {o : ChannelOwner} (ho : s.owners p = some o) {ch : Channel}
    (hch : o.channel = some ch) (hremoved : ch.addedToLoop_ = false) :
    (ch.destroy s.epoll_).Clean :=
  h.accounted.clean ((owned_eq ho).trans hch) hremoved

/-- The books as a connector finds them. -/
theorem Tended.kept (h : s.Tended) {c : Connector} (hc : s.owners p = some (.connector c)) :
    (s.inLoop c).Kept s.owned p s.allocated := by
  refine ⟨?_, h.waits p c hc⟩
  have hself : Function.update s.owned p c.channel_ = s.owned :=
    Function.update_eq_self_iff.mpr (owned_eq hc).symm
  show Accounted s.epoll_ (Function.update s.owned p c.channel_) s.allocated
  rw [hself]
  exact h.accounted

/-- An acceptor retires its channel and goes. -/
theorem accounted_retire (h : s.Tended) {ch : Channel} (hp : s.owners p = some (.acceptor ch)) :
    Accounted (ch.retire s.epoll_).1
      (Function.update s.owned p (some (ch.retire s.epoll_).2)) s.allocated :=
  h.accounted.move (owned_eq hp) (Channel.moved_retire ch s.epoll_)

/-! ### Who takes a step -/

/-- A condition on the connection at an address holds of a connection there. -/
theorem connection_of_match {o : Option ChannelOwner} {P : OwnedConnection → Prop}
    (h : match o with
      | some (.connection c) => P c
      | _ => False) : ∃ c, o = some (.connection c) ∧ P c := by
  split at h
  · next c => exact ⟨c, rfl, h⟩
  · exact h.elim

theorem connector_of_match {o : Option ChannelOwner} {P : Connector → Prop}
    (h : match o with
      | some (.connector c) => P c
      | _ => False) : ∃ c, o = some (.connector c) ∧ P c := by
  split at h
  · next c => exact ⟨c, rfl, h⟩
  · exact h.elim

theorem acceptor_of_guard (h : s.guard (.listen p)) : ∃ ch, s.owners p = some (.acceptor ch) := by
  simp only [guard] at h
  split at h
  · next ch hch => exact ⟨ch, hch⟩
  · exact h.elim

theorem connection_of_guard {l : ConnStep} (h : s.guard (.connection p l)) :
    ∃ c, s.owners p = some (.connection c) ∧ mayStep c l :=
  connection_of_match h

theorem connection_of_guard_established (h : s.guard (.connectionEstablished p)) :
    ∃ c, s.owners p = some (.connection c) ∧ c.removed = false := by
  obtain ⟨c, hc, -, hremoved⟩ := connection_of_match h
  exact ⟨c, hc, hremoved⟩

theorem connection_of_guard_destroy (h : s.guard (.destroyConnection p)) :
    ∃ c, s.owners p = some (.connection c) ∧ c.removed = true :=
  connection_of_match h

theorem connector_of_guard {l : ConnectorStep} (h : s.guard (.connector p l)) :
    ∃ c, s.owners p = some (.connector c) ∧ ∀ a ∈ l.attempt, a.channel = s.allocated := by
  obtain ⟨c, hc, -, hattempt⟩ := connector_of_match h
  exact ⟨c, hc, hattempt⟩

theorem connector_of_guard_destroy (h : s.guard (.destroyConnector p)) :
    ∃ c, s.owners p = some (.connector c) := by
  obtain ⟨c, hc, -⟩ := connector_of_match h
  exact ⟨c, hc⟩

/-- What the condition says of the connector that takes the step. -/
theorem startsVacant_of_tidy {c : Connector} {l : ConnectorStep}
    (hc : s.owners p = some (.connector c)) (h : s.Tidy (.connector p l)) :
    (s.inLoop c).StartsVacant l := by
  simp only [Tidy, hc] at h
  cases l with
  | start _ | restart _ | retryTimer _ _ => exact h
  | stop | handleEvent _ _ _ _ | doPendingFunctor => trivial

/-- It loses the same channel wherever the epoll is kept. -/
theorem loses_inLoop (s : OwningLoop) (c : Connector) (l : ConnectorStep) :
    (s.inLoop c).loses l = c.loses l := by
  cases l with
  | start _ | restart _ | retryTimer _ _ => rfl
  | stop | handleEvent _ _ _ _ | doPendingFunctor => rfl

/-- A connector that is destroyed has no channel in the loop. -/
theorem addedToLoop_of_tidy (h : s.Tended) {c : Connector} (hc : s.owners p = some (.connector c))
    (htidy : s.Tidy (.destroyConnector p)) : ∀ ch ∈ c.channel_, ch.addedToLoop_ = false := by
  simp only [Tidy, hc] at htidy
  rcases htidy with hnone | hqueued
  · intro ch hch
    rw [hnone] at hch
    cases hch
  · exact h.waits p c hc hqueued

/-- A connection that was removed leaves no rest. -/
theorem notLeavesRest_of_tidy {c : OwnedConnection} {l : ConnStep}
    (hc : s.owners p = some (.connection c)) (h : s.Tidy (.connection p l))
    (hremoved : c.removed = true) (w : WriteResult) (hl : l = .doPendingFunctor w) :
    ¬ (s.endpoint c).LeavesRest w := by
  subst hl
  simp only [Tidy, hc] at h
  exact h hremoved

/-! ### Steps -/

theorem tended_connection (h : s.Tended) {l : ConnStep} (hguard : s.guard (.connection p l))
    (htidy : s.Tidy (.connection p l)) :
    ∃ s', s.next (.connection p l) = some s' ∧ s'.Tended := by
  obtain ⟨c, hc, hmay⟩ := connection_of_guard hguard
  rw [next, hc]
  refine ⟨_, rfl, tended_withConn h hc (Endpoint.moves_step _ l) ?_⟩
  intro hremoved
  rw [Bool.or_eq_true, decide_eq_true_iff] at hremoved
  rcases hremoved with hremoved | rfl
  · have hmay' : mayStep ⟨c.toTcpConnection, c.pendingFunctors_, true⟩ l := by
      cases l with
      | handleRead _ | handleWrite _ | handleClose => exact hmay
      | send _ _ _ | shutdown _ | doPendingFunctor _ | connectionDestroyed => trivial
    exact Endpoint.retired_step (h.removed p c hc hremoved) hmay'
      (notLeavesRest_of_tidy hc htidy hremoved)
  · exact Endpoint.retired_connectionDestroyed _

theorem tended_connector (h : s.Tended) {l : ConnectorStep} (hguard : s.guard (.connector p l))
    (htidy : s.Tidy (.connector p l)) :
    ∃ s', s.next (.connector p l) = some s' ∧ s'.Tended := by
  obtain ⟨c, hc, hfresh⟩ := connector_of_guard hguard
  have hkept := Connector.kept_next (h.kept hc) (startsVacant_of_tidy hc htidy) hfresh
  rw [next, hc]
  refine ⟨_, rfl, h.update (p := p) rfl ?_ (Nat.le_succ _) hkept.accounted ?_ ?_⟩
  · exact Nat.lt_succ_of_lt (h.lt_allocated hc)
  · intro c' hc'
    cases hc'
  · intro c' hc'
    cases hc'
    exact hkept.waits

theorem tended_destroyAcceptor (h : s.Tended) {ch : Channel}
    (hp : s.owners p = some (.acceptor ch)) :
    Tended { s.setOwner p none with epoll_ := (ch.retire s.epoll_).1 } := by
  have hgone := (accounted_retire h hp).destroy (o := p) fun ch' hch' => by
    rw [Function.update_self] at hch'
    obtain rfl := Option.some.inj hch'
    exact Channel.addedToLoop_retire ch s.epoll_
  rw [Function.update_idem] at hgone
  refine h.update (p := p) rfl (h.lt_allocated hp) (Nat.le_refl _) hgone ?_ ?_
  · intro c hc
    cases hc
  · intro c hc
    cases hc

/-- **Step**: under the condition the loop goes on, and its books stay in
    order. -/
theorem tended_next (h : s.Tended) {l : OwnerStep} (hguard : s.guard l) (htidy : s.Tidy l) :
    ∃ s', s.next l = some s' ∧ s'.Tended := by
  cases l with
  | timer => exact ⟨s, rfl, h⟩
  | loop => exact ⟨_, rfl, h.accounted, h.removed, h.waits, h.unborn⟩
  | loopReturns => exact ⟨_, rfl, h.accounted, h.removed, h.waits, h.unborn⟩
  | newAcceptor fd =>
    -- a channel at a new address, in no loop yet
    refine ⟨_, rfl, tended_allocate h (Or.inr ⟨fd, rfl⟩) ?_ ?_⟩
    · intro c hc
      cases hc
    · intro c hc
      cases hc
  | listen p =>
    obtain ⟨ch, hch⟩ := acceptor_of_guard hguard
    rw [next, hch]
    refine ⟨_, rfl, h.update (p := p) rfl (h.lt_allocated hch) (Nat.le_refl _) ?_ ?_ ?_⟩
    · exact h.accounted.move (owned_eq hch) (Channel.moved_enableReading ch s.epoll_)
    · intro c hc
      cases hc
    · intro c hc
      cases hc
  | destroyAcceptor p =>
    obtain ⟨ch, hch⟩ := acceptor_of_guard hguard
    rw [next, hch]
    exact ⟨_, rfl, tended_destroyAcceptor h hch⟩
  | newConnection name fd writeComplete =>
    refine ⟨_, rfl, tended_allocate h (Or.inr ⟨fd, rfl⟩) ?_ ?_⟩
    · intro c hc
      cases hc
      rfl
    · intro c hc
      cases hc
  | connectionEstablished p =>
    obtain ⟨c, hc, hremoved⟩ := connection_of_guard_established hguard
    rw [next, hc]
    refine ⟨_, rfl, tended_withConn h hc (Endpoint.moves_connectionEstablished _) ?_⟩
    -- the guard says that `connectionDestroyed` has not run
    intro hgone
    rw [hremoved] at hgone
    cases hgone
  | connection p l => exact tended_connection h hguard htidy
  | destroyConnection p =>
    obtain ⟨c, hc, hremoved⟩ := connection_of_guard_destroy hguard
    refine ⟨_, rfl, tended_destroy h hc ?_⟩
    -- `connectionDestroyed` has taken the channel out of the loop
    intro ch hch
    obtain rfl := Option.some.inj hch
    exact (h.removed p c hc hremoved).addedToLoop_
  | newConnector =>
    refine ⟨_, rfl, tended_allocate h (Or.inl rfl) ?_ ?_⟩
    · intro c hc
      cases hc
    · intro c hc
      cases hc
      exact List.not_mem_nil
  | connector p l => exact tended_connector h hguard htidy
  | destroyConnector p =>
    obtain ⟨c, hc⟩ := connector_of_guard_destroy hguard
    exact ⟨_, rfl, tended_destroy h hc (addedToLoop_of_tidy h hc htidy)⟩
  | destroyEventLoop => exact absurd htidy id

/-- **Step**: under the condition every channel that is destroyed was
    deregistered. -/
theorem clean_destroys (h : s.Tended) {l : OwnerStep} (hguard : s.guard l) (htidy : s.Tidy l) :
    ∀ d ∈ s.destroys l, d.Clean := by
  intro d hd
  cases l with
  | destroyAcceptor p =>
    obtain ⟨ch, hch⟩ := acceptor_of_guard hguard
    rw [destroys, hch, List.mem_singleton] at hd
    subst hd
    exact (accounted_retire h hch).clean (Function.update_self ..) (Channel.addedToLoop_retire _ _)
  | destroyConnection p =>
    obtain ⟨c, hc, hremoved⟩ := connection_of_guard_destroy hguard
    rw [destroys, hc, List.mem_singleton] at hd
    subst hd
    exact h.clean hc rfl (h.removed p c hc hremoved).addedToLoop_
  | connector p l =>
    obtain ⟨c, hc, -⟩ := connector_of_guard hguard
    rw [destroys, hc, List.mem_map] at hd
    obtain ⟨ch, hch, rfl⟩ := hd
    rw [Option.mem_toList, ← loses_inLoop s c l] at hch
    obtain ⟨hchannel, hremoved⟩ :=
      Connector.addedToLoop_loses (h.kept hc) (startsVacant_of_tidy hc htidy) hch
    exact h.clean hc hchannel hremoved
  | destroyConnector p =>
    obtain ⟨c, hc⟩ := connector_of_guard_destroy hguard
    rw [destroys, hc, List.mem_map] at hd
    obtain ⟨ch, hch, rfl⟩ := hd
    rw [Option.mem_toList] at hch
    exact h.clean hc hch (addedToLoop_of_tidy h hc htidy ch hch)
  | destroyEventLoop => exact absurd htidy id
  | timer | loop | loopReturns | newAcceptor _ | listen _ | newConnection _ _ _
  | connectionEstablished _ | connection _ _ | newConnector => cases hd

/-! ### The channel of the timerfd

    Nobody removes it, so this holds in every run, tidy or not. -/

/-- The timer queue and the loop itself have their channels, and that of
    the timer queue is registered. -/
structure Timed (s : OwningLoop) : Prop where
  timerQueue : ∃ ch, s.owners 0 = some (.timerQueue ch) ∧ ch.addedToLoop_ = true
  eventLoop : ∃ ch, s.owners 1 = some (.eventLoop ch)
  allocated : 2 ≤ s.allocated

theorem timed_new (timerfd wakeupFd : Int) : (new timerfd wakeupFd).Timed :=
  ⟨⟨_, rfl, Channel.addedToLoop_update _ _⟩, ⟨_, rfl⟩, Nat.le_refl 2⟩

theorem Timed.update (h : s.Timed) {s' : OwningLoop} {o : Option ChannelOwner}
    (howners : s'.owners = Function.update s.owners p o) (hle : s.allocated ≤ s'.allocated)
    (htimer : p ≠ 0) (hloop : p ≠ 1) : s'.Timed := by
  refine ⟨?_, ?_, Nat.le_trans h.allocated hle⟩
  · rw [howners, Function.update_of_ne htimer.symm]
    exact h.timerQueue
  · rw [howners, Function.update_of_ne hloop.symm]
    exact h.eventLoop

theorem timed_allocate (h : s.Timed) (o : ChannelOwner) : (s.allocate o).Timed := by
  have htwo := h.allocated
  exact h.update (p := s.allocated) rfl (Nat.le_succ _) (by omega) (by omega)

/-- Another owner is replaced, so it stood at another address. -/
theorem Timed.replace (h : s.Timed) {o : ChannelOwner} (ho : s.owners p = some o)
    (hother : ∀ ch, o ≠ .timerQueue ch ∧ o ≠ .eventLoop ch) {s' : OwningLoop}
    {new : Option ChannelOwner} (howners : s'.owners = Function.update s.owners p new)
    (hle : s.allocated ≤ s'.allocated) : s'.Timed := by
  apply h.update howners hle
  · rintro rfl
    obtain ⟨ch, hch, -⟩ := h.timerQueue
    rw [ho] at hch
    exact (hother ch).1 (Option.some.inj hch)
  · rintro rfl
    obtain ⟨ch, hch⟩ := h.eventLoop
    rw [ho] at hch
    exact (hother ch).2 (Option.some.inj hch)

/-- **Step**: as long as there is the loop there is its registered timerfd. -/
theorem timed_next (h : s.Timed) {l : OwnerStep} (hguard : s.guard l) {s' : OwningLoop}
    (hnext : s.next l = some s') : s'.Timed := by
  cases l with
  | timer => exact Option.some.inj hnext ▸ h
  | loop | loopReturns =>
    rw [← Option.some.inj hnext]
    exact ⟨h.timerQueue, h.eventLoop, h.allocated⟩
  -- a new owner gets an address of its own
  | newAcceptor fd => exact Option.some.inj hnext ▸ timed_allocate h _
  | newConnection name fd writeComplete => exact Option.some.inj hnext ▸ timed_allocate h _
  | newConnector => exact Option.some.inj hnext ▸ timed_allocate h _
  -- the steps of an owner are about its own channel
  | listen p | destroyAcceptor p =>
    obtain ⟨ch, hch⟩ := acceptor_of_guard hguard
    rw [next, hch] at hnext
    rw [← Option.some.inj hnext]
    exact h.replace (p := p) hch (by simp) rfl (Nat.le_refl _)
  | connectionEstablished p =>
    obtain ⟨c, hc, -⟩ := connection_of_guard_established hguard
    rw [next, hc] at hnext
    rw [← Option.some.inj hnext]
    exact h.replace (p := p) hc (by simp) rfl (Nat.le_refl _)
  | connection p l =>
    obtain ⟨c, hc, -⟩ := connection_of_guard hguard
    rw [next, hc] at hnext
    rw [← Option.some.inj hnext]
    exact h.replace (p := p) hc (by simp) rfl (Nat.le_refl _)
  | destroyConnection p =>
    obtain ⟨c, hc, -⟩ := connection_of_guard_destroy hguard
    rw [← Option.some.inj hnext]
    exact h.replace (p := p) hc (by simp) rfl (Nat.le_refl _)
  | connector p l =>
    obtain ⟨c, hc, -⟩ := connector_of_guard hguard
    rw [next, hc] at hnext
    rw [← Option.some.inj hnext]
    exact h.replace (p := p) hc (by simp) rfl (Nat.le_succ _)
  | destroyConnector p =>
    obtain ⟨c, hc⟩ := connector_of_guard_destroy hguard
    rw [← Option.some.inj hnext]
    exact h.replace (p := p) hc (by simp) rfl (Nat.le_refl _)
  | destroyEventLoop => cases hnext

/-- The end of the loop destroys the channel as it stands. -/
theorem exists_not_clean (h : s.Timed) : ∃ d ∈ s.destroys .destroyEventLoop, ¬ d.Clean := by
  obtain ⟨timerfdChannel, htimer, hadded⟩ := h.timerQueue
  obtain ⟨wakeupChannel, hloop⟩ := h.eventLoop
  refine ⟨timerfdChannel.destroy (wakeupChannel.retire s.epoll_).1, ?_, ?_⟩
  · rw [destroys, hloop, htimer]
    exact List.mem_cons_of_mem _ List.mem_cons_self
  · intro hclean
    have hremoved : timerfdChannel.addedToLoop_ = false := hclean.1
    rw [hadded] at hremoved
    cases hremoved

end OwningLoop

/-! ## All loops -/

namespace ChannelLibrary

variable {s : ChannelLibrary}

/-- The state after the step of a loop that there is. -/
theorem next_inLoop {l : LoopId} {loop : OwningLoop} (hloop : s.loops l = some loop)
    (step : OwnerStep) :
    s.next (.inLoop l step) =
      { loops := Function.update s.loops l (loop.next step)
        destroyed := s.destroyed ++ loop.destroys step } := by
  simp only [next, hloop]

/-- A property of one loop, for all that there are. -/
def Each (P : OwningLoop → Prop) (s : ChannelLibrary) : Prop := ∀ l, ∀ loop ∈ s.loops l, P loop

theorem each_start (P : OwningLoop → Prop) : start.Each P := by
  intro l loop hloop
  cases hloop

/-- One loop is put in place of another. -/
theorem Each.update {P : OwningLoop → Prop} (h : s.Each P) {s' : ChannelLibrary} {k : LoopId}
    {x : Option OwningLoop} (hloops : s'.loops = Function.update s.loops k x)
    (hx : ∀ loop ∈ x, P loop) : s'.Each P := by
  intro j loop hloop
  rw [hloops] at hloop
  by_cases hj : j = k
  · subst hj
    rw [Function.update_self] at hloop
    exact hx loop hloop
  · rw [Function.update_of_ne hj] at hloop
    exact h j loop hloop

/-- What holds of new loops and is kept by every step of one. -/
theorem each_next {P : OwningLoop → Prop} (h : s.Each P) {l : LibraryStep}
    (hnew : ∀ timerfd wakeupFd, P (OwningLoop.new timerfd wakeupFd))
    (hstep : ∀ k step, l = .inLoop k step → ∀ loop ∈ s.loops k, ∀ loop' ∈ loop.next step, P loop') :
    (s.next l).Each P := by
  cases l with
  | newEventLoop k timerfd wakeupFd =>
    refine h.update (k := k) rfl ?_
    intro loop hloop
    obtain rfl := Option.some.inj hloop
    exact hnew timerfd wakeupFd
  | inLoop k step =>
    cases hk : s.loops k with
    | none =>
      rw [next, hk]
      exact h
    | some loop =>
      rw [next_inLoop hk]
      exact h.update (k := k) rfl (hstep k step rfl loop hk)

/-- **Step** of the library under the condition. -/
theorem deregistered_next (htended : s.Each OwningLoop.Tended) (h : s.Deregistered)
    {l : LibraryStep} (hguard : s.guard l) (htidy : s.Tidy l) :
    (s.next l).Each OwningLoop.Tended ∧ (s.next l).Deregistered := by
  cases l with
  | newEventLoop k timerfd wakeupFd =>
    refine ⟨each_next htended OwningLoop.tended_new ?_, h⟩
    intro k step hl
    cases hl
  | inLoop k step =>
    obtain ⟨loop, hloop, hmay⟩ := hguard
    have htidyLoop := htidy loop hloop
    refine ⟨each_next htended OwningLoop.tended_new ?_, ?_⟩
    · intro j step' hl old hold loop' hnext
      cases hl
      obtain rfl : loop = old := Option.some.inj (hloop.symm.trans hold)
      obtain ⟨s', hs', htended'⟩ := OwningLoop.tended_next (htended k loop hloop) hmay htidyLoop
      obtain rfl : s' = loop' := Option.some.inj (hs'.symm.trans hnext)
      exact htended'
    · rw [next_inLoop hloop]
      intro d hd
      rcases List.mem_append.mp hd with hold | hnew
      · exact h d hold
      · exact OwningLoop.clean_destroys (htended k loop hloop) hmay htidyLoop d hnew

theorem timed_next (h : s.Each OwningLoop.Timed) {l : LibraryStep} (hguard : s.guard l) :
    (s.next l).Each OwningLoop.Timed := by
  refine each_next h OwningLoop.timed_new ?_
  intro k step hl loop hloop loop' hnext
  subst hl
  obtain ⟨loop'', hloop'', hmay⟩ := hguard
  obtain rfl : loop'' = loop := Option.some.inj (hloop''.symm.trans hloop)
  exact OwningLoop.timed_next (h k loop'' hloop) hmay hnext

/-- What was destroyed stays destroyed. -/
theorem deregistered_of_next {l : LibraryStep} (h : (s.next l).Deregistered) : s.Deregistered := by
  intro d hd
  apply h d
  cases l with
  | newEventLoop k timerfd wakeupFd => exact hd
  | inLoop k step =>
    simp only [next]
    split
    · exact hd
    · exact List.mem_append_left _ hd

theorem deregistered_of_run {steps : List LibraryStep}
    (h : (channelLibrary.run s steps).Deregistered) : s.Deregistered := by
  induction steps generalizing s with
  | nil => exact h
  | cons l steps ih => exact deregistered_of_next (ih h)

/-- **Run** in which a loop is destroyed. -/
theorem not_deregistered_run {steps : List LibraryStep} {l : LoopId} (h : s.Each OwningLoop.Timed)
    (hvalid : channelLibrary.Valid s steps) (hmem : .inLoop l .destroyEventLoop ∈ steps) :
    ¬ (channelLibrary.run s steps).Deregistered := by
  induction steps generalizing s with
  | nil => cases hmem
  | cons k steps ih =>
    rcases List.mem_cons.mp hmem with rfl | hlater
    · -- the channel of its timerfd is among the destroyed ones now
      intro hend
      obtain ⟨loop, hloop, -⟩ := hvalid.1
      obtain ⟨d, hd, hdirty⟩ := OwningLoop.exists_not_clean (h l loop hloop)
      have hnow : (s.next (.inLoop l .destroyEventLoop)).Deregistered := deregistered_of_run hend
      rw [next_inLoop hloop] at hnow
      exact hdirty (hnow d (List.mem_append_right _ hd))
    · exact ih (timed_next h hvalid.1) hvalid.2 hlater

/-- **Run** under the condition. -/
theorem deregistered_run {steps : List LibraryStep} (hvalid : channelLibrary.Valid start steps)
    (htidy : channelLibrary.Along Tidy start steps) :
    (channelLibrary.run start steps).Deregistered := by
  have hboth := (channelLibrary.along_and start steps).mpr ⟨hvalid, htidy⟩
  have hstart : start.Each OwningLoop.Tended ∧ start.Deregistered :=
    ⟨each_start _, fun d hd => by cases hd⟩
  exact (channelLibrary.invariant_run (fun s => s.Each OwningLoop.Tended ∧ s.Deregistered)
    (fun s l h hl => deregistered_next h.1 h.2 hl.1 hl.2) hstart hboth).2

/-- **Channels are destroyed deregistered** in every run that meets the
    condition; a run in which an event loop is destroyed never does it. -/
theorem channels_deregistered (steps : List LibraryStep)
    (hvalid : channelLibrary.Valid start steps) :
    (channelLibrary.Along Tidy start steps →
        ∀ pre, pre <+: steps → (channelLibrary.run start pre).Deregistered) ∧
      ((∃ l, .inLoop l .destroyEventLoop ∈ steps) →
        ¬ (channelLibrary.run start steps).Deregistered) := by
  constructor
  · rintro htidy pre ⟨rest, rfl⟩
    exact deregistered_run ((channelLibrary.valid_append start pre rest).mp hvalid).1
      ((channelLibrary.along_append start pre rest).mp htidy).1
  · rintro ⟨l, hmem⟩
    exact not_deregistered_run (each_start _) hvalid hmem

/-- A connection, a connector and an acceptor, each made and destroyed in a
    loop that runs. -/
theorem channels_deregistered_servedLoop :
    let steps : List LibraryStep :=
      [.newEventLoop 0 3 4, .inLoop 0 .loop, .inLoop 0 (.newAcceptor 5), .inLoop 0 (.listen 2),
        .inLoop 0 (.newConnection "c" 6 true), .inLoop 0 (.connectionEstablished 3),
        .inLoop 0 .timer, .inLoop 0 (.connection 3 (.send true [1, 2] (.wrote 1))),
        .inLoop 0 (.connection 3 .handleClose), .inLoop 0 (.connection 3 .connectionDestroyed),
        .inLoop 0 (.destroyConnection 3), .inLoop 0 .newConnector,
        .inLoop 0 (.connector 4 (.start ⟨7, .EINPROGRESS, 5⟩)),
        .inLoop 0 (.connector 4 (.handleEvent false true false false)),
        .inLoop 0 (.connector 4 .doPendingFunctor), .inLoop 0 (.destroyConnector 4),
        .inLoop 0 (.destroyAcceptor 2), .inLoop 0 .loopReturns]
    (channelLibrary.run start steps).destroyed.length = 3 ∧
      (channelLibrary.run start steps).Deregistered :=
  ⟨by decide +kernel,
    (channels_deregistered _ (by decide +kernel)).1 (by decide +kernel) _ (List.prefix_refl _)⟩

/-- A loop that is created, runs, returns and is destroyed. -/
theorem not_channels_deregistered_loopExit :
    ¬ ∀ steps : List LibraryStep, channelLibrary.Valid start steps →
        ∀ pre, pre <+: steps → (channelLibrary.run start pre).Deregistered := by
  intro h
  have hend := h [.newEventLoop 0 3 4, .inLoop 0 .loop, .inLoop 0 .loopReturns,
    .inLoop 0 .destroyEventLoop] (by decide +kernel) _ (List.prefix_refl _)
  exact absurd hend (by decide +kernel)

end ChannelLibrary

end TinyWS
