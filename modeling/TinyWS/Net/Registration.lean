import TinyWS.Framework.Machine
import TinyWS.Net.Epoll

/-! # Registration

    The interest in a descriptor is kept three times: in the status of its
    channel, in `channels_` and in the kernel.  A `Registry` is an epoll
    with any number of channels on it, each on a descriptor of its own,
    and its machine runs the channel operations in any order.

    The operations are a parameter (`ChannelCode`): the multi-threaded
    library and the multi-process ones differ in them. -/

namespace TinyWS

open Std

/-! ## Entries of a map -/

section TreeMap

variable {β : Type} (map : ExtTreeMap Int β compare) {k fd : Int}

theorem getElem?_insert_elsewhere (v : β) (h : k ≠ fd) : (map.insert fd v)[k]? = map[k]? := by
  rw [ExtTreeMap.getElem?_insert, if_neg]
  intro heq
  exact h (LawfulEqOrd.eq_of_compare heq).symm

theorem getElem?_erase_elsewhere (h : k ≠ fd) : (map.erase fd)[k]? = map[k]? := by
  rw [ExtTreeMap.getElem?_erase, if_neg]
  intro heq
  exact h (LawfulEqOrd.eq_of_compare heq).symm

variable {map}

theorem mem_of_getElem?_eq_some {v : β} (h : map[fd]? = some v) : fd ∈ map := by
  rw [ExtTreeMap.mem_iff_isSome_getElem?, h]
  rfl

theorem notMem_of_getElem?_eq_none (h : map[fd]? = none) : fd ∉ map := by
  rw [ExtTreeMap.mem_iff_isSome_getElem?, h]
  exact Bool.false_ne_true

end TreeMap

/-! ## What a channel operation asks of epoll -/

/-- The operations on a channel that may reach the epoll of its loop. -/
inductive ChannelOp where
  | enableReading
  | enableWriting
  | disableWriting
  | disableAll
  | remove
  deriving DecidableEq, Repr

namespace Epoll

/-- The operation `updateChannel` passes to `epoll_ctl`. -/
def operation (ch : Channel) : EpollOp :=
  match ch.statusInEpoll_ with
  | .kNew | .kDeleted => .add
  | .kAdded => if ch.isNoneEvent then .del else .mod

/-- `epoll_ctl` accepts the operation: `ADD` for an absent descriptor,
    `MOD` and `DEL` for a present one. -/
def Legal (ep : Epoll) (ch : Channel) : EpollOp → Prop
  | .add => ch.fd_ ∉ ep.interest
  | .mod | .del => ch.fd_ ∈ ep.interest

instance (ep : Epoll) (ch : Channel) : DecidablePred (ep.Legal ch)
  | .add => inferInstanceAs (Decidable (ch.fd_ ∉ ep.interest))
  | .mod => inferInstanceAs (Decidable (ch.fd_ ∈ ep.interest))
  | .del => inferInstanceAs (Decidable (ch.fd_ ∈ ep.interest))

/-- The asserts of `updateChannel`. -/
def UpdateAsserts (ep : Epoll) (ch : Channel) : Prop :=
  match ch.statusInEpoll_ with
  | .kNew => ch.fd_ ∉ ep.channels_
  | .kDeleted | .kAdded => ep.channels_[ch.fd_]? = some ch.self

instance (ep : Epoll) (ch : Channel) : Decidable (ep.UpdateAsserts ch) :=
  match h : ch.statusInEpoll_ with
  | .kNew => decidable_of_iff (ch.fd_ ∉ ep.channels_) (by simp [UpdateAsserts, h])
  | .kDeleted | .kAdded =>
      decidable_of_iff (ep.channels_[ch.fd_]? = some ch.self) (by simp [UpdateAsserts, h])

/-- The entries of the other descriptors stay. -/
structure SameElsewhere (ep ep' : Epoll) (fd : Int) : Prop where
  channels_ : ∀ k, k ≠ fd → ep'.channels_[k]? = ep.channels_[k]?
  interest : ∀ k, k ≠ fd → ep'.interest[k]? = ep.interest[k]?

theorem SameElsewhere.refl (ep : Epoll) (fd : Int) : SameElsewhere ep ep fd :=
  ⟨fun _ _ => rfl, fun _ _ => rfl⟩

theorem SameElsewhere.trans {ep ep' ep'' : Epoll} {fd : Int} (h : SameElsewhere ep ep' fd)
    (h' : SameElsewhere ep' ep'' fd) : SameElsewhere ep ep'' fd :=
  ⟨fun k hk => (h'.channels_ k hk).trans (h.channels_ k hk),
    fun k hk => (h'.interest k hk).trans (h.interest k hk)⟩

theorem sameElsewhere_update (ep : Epoll) (op : EpollOp) (ch : Channel) :
    SameElsewhere ep (ep.update op ch) ch.fd_ := by
  refine ⟨fun k _ => by rw [update_channels], fun k hk => ?_⟩
  cases op with
  | add =>
    rw [update]
    split
    · rfl
    · exact getElem?_insert_elsewhere _ _ hk
  | mod =>
    rw [update]
    split
    · exact getElem?_insert_elsewhere _ _ hk
    · rfl
  | del => exact getElem?_erase_elsewhere _ hk

/-- What a legal operation leaves in the kernel's set. -/
theorem getElem?_update {ep : Epoll} {op : EpollOp} {ch : Channel} (h : ep.Legal ch op) :
    (ep.update op ch).interest[ch.fd_]? =
      if op = .del then none else some (ch.events_, ch.self) := by
  cases op with
  | add =>
    rw [update, if_neg h]
    exact ExtTreeMap.getElem?_insert_self
  | mod =>
    have hmem : ch.fd_ ∈ ep.interest := h
    rw [update, if_pos hmem]
    exact ExtTreeMap.getElem?_insert_self
  | del => exact ExtTreeMap.getElem?_erase_self

end Epoll

/-! ## The registry -/

/-- How one of the libraries writes the channel operations. -/
structure ChannelCode where
  apply : ChannelOp → Channel → Epoll → Epoll × Channel
  /-- The channel as `Epoll::updateChannel` gets it, if the operation goes
      there. -/
  updates : ChannelOp → Channel → Option Channel

/-- The calls of `epoll_ctl` an operation makes: `removeChannel` makes one
    if the status is `kAdded`. -/
def ChannelCode.calls (code : ChannelCode) (op : ChannelOp) (ch : Channel) : List EpollOp :=
  match code.updates op ch with
  | some ch => [Epoll.operation ch]
  | none => if op = .remove ∧ ch.statusInEpoll_ = .kAdded then [.del] else []

theorem ChannelCode.calls_updates {code : ChannelCode} {op : ChannelOp} {ch ch' : Channel}
    (h : code.updates op ch = some ch') : code.calls op ch = [Epoll.operation ch'] := by
  rw [calls, h]

theorem ChannelCode.calls_remove {code : ChannelCode} {ch : Channel}
    (h : code.updates .remove ch = none) :
    code.calls .remove ch = if ch.statusInEpoll_ = .kAdded then [.del] else [] := by
  rw [calls, h]
  simp

/-- The channels of one loop, with the loop's epoll. -/
structure Registry (ι : Type) where
  epoll_ : Epoll
  channel : ι → Channel
  /-- History: the calls of `epoll_ctl`, and whether they were legal. -/
  ctls : List (EpollOp × Bool)
  /-- History: the asserts of `updateChannel`. -/
  asserts : List Bool

namespace Registry

variable {ι : Type} [DecidableEq ι]

/-- New channels on the descriptors `fd`, at the addresses `self`. -/
def start (fd : ι → Int) (self : ι → ChannelPtr) : Registry ι where
  epoll_ := Epoll.new
  channel i := Channel.new (self i) (fd i)
  ctls := []
  asserts := []

/-- `op` on the channel `i`. -/
def next (code : ChannelCode) (r : Registry ι) (i : ι) (op : ChannelOp) : Registry ι :=
  let ch := r.channel i
  let done := code.apply op ch r.epoll_
  { epoll_ := done.1
    channel := Function.update r.channel i done.2
    ctls := r.ctls ++ (code.calls op ch).map fun c => (c, decide (r.epoll_.Legal ch c))
    asserts := r.asserts ++ (code.updates op ch).toList.map fun ch =>
      decide (r.epoll_.UpdateAsserts ch) }

/-- `remove` asserts that no event is enabled. -/
def guard (r : Registry ι) (i : ι) (op : ChannelOp) : Prop :=
  op = .remove → (r.channel i).isNoneEvent = true

instance (r : Registry ι) (i : ι) (op : ChannelOp) : Decidable (r.guard i op) :=
  inferInstanceAs (Decidable (_ → _))

end Registry

/-- Any order of operations on the channels. -/
def registry (code : ChannelCode) {ι : Type} [DecidableEq ι] :
    Machine (Registry ι) (ι × ChannelOp) where
  guard r l := r.guard l.1 l.2
  next r l := r.next code l.1 l.2

instance (code : ChannelCode) {ι : Type} [DecidableEq ι] (r : Registry ι) (l : ι × ChannelOp) :
    Decidable ((registry code).guard r l) :=
  inferInstanceAs (Decidable (r.guard l.1 l.2))

namespace Registry

variable {ι : Type} [DecidableEq ι] {code : ChannelCode} (r : Registry ι) (i : ι) (op : ChannelOp)

@[simp] theorem channel_next_self :
    (r.next code i op).channel i = (code.apply op (r.channel i) r.epoll_).2 :=
  Function.update_self i _ r.channel

theorem channel_next_ne {j : ι} (h : j ≠ i) : (r.next code i op).channel j = r.channel j :=
  Function.update_of_ne h _ r.channel

@[simp] theorem epoll_next :
    (r.next code i op).epoll_ = (code.apply op (r.channel i) r.epoll_).1 := rfl

/-- No call of `epoll_ctl` was illegal. -/
def AllLegal (r : Registry ι) : Prop := ∀ c ∈ r.ctls, c.2 = true

/-- No assert of `updateChannel` failed. -/
def AssertsHold (r : Registry ι) : Prop := ∀ b ∈ r.asserts, b = true

theorem allLegal_next_iff :
    (r.next code i op).AllLegal ↔
      r.AllLegal ∧ ∀ c ∈ code.calls op (r.channel i), r.epoll_.Legal (r.channel i) c := by
  simp only [AllLegal, next, List.mem_append, List.mem_map]
  constructor
  · intro h
    refine ⟨fun c hc => h c (Or.inl hc), fun c hc => ?_⟩
    exact of_decide_eq_true (h _ (Or.inr ⟨c, hc, rfl⟩))
  · rintro ⟨hold, hnew⟩ c (hc | ⟨c, hc, rfl⟩)
    · exact hold c hc
    · exact decide_eq_true (hnew c hc)

theorem assertsHold_next_iff :
    (r.next code i op).AssertsHold ↔
      r.AssertsHold ∧ ∀ ch ∈ code.updates op (r.channel i), r.epoll_.UpdateAsserts ch := by
  simp only [AssertsHold, next, List.mem_append, List.mem_map, Option.mem_toList]
  constructor
  · intro h
    refine ⟨fun b hb => h b (Or.inl hb), fun ch hch => ?_⟩
    exact of_decide_eq_true (h _ (Or.inr ⟨ch, hch, rfl⟩))
  · rintro ⟨hold, hnew⟩ b (hb | ⟨ch, hch, rfl⟩)
    · exact hold b hb
    · exact decide_eq_true (hnew ch hch)

end Registry

/-! ## The multi-threaded library -/

namespace Channel

/-- The channel operations of the multi-threaded library. -/
def apply : ChannelOp → Channel → Epoll → Epoll × Channel
  | .enableReading, ch, ep => ch.enableReading ep
  | .enableWriting, ch, ep => ch.enableWriting ep
  | .disableWriting, ch, ep => ch.disableWriting ep
  | .disableAll, ch, ep => ch.disableAll ep
  | .remove, ch, ep => ch.remove ep

/-- The events an operation leaves enabled. -/
def eventsAfter (ch : Channel) : ChannelOp → BitVec 32
  | .enableReading => ch.events_ ||| kReadEvent
  | .enableWriting => ch.events_ ||| kWriteEvent
  | .disableWriting => ch.events_ &&& ~~~kWriteEvent
  | .disableAll => kNoneEvent
  | .remove => ch.events_

end Channel

/-- All operations but `remove` end in `Channel::update`. -/
def threaded : ChannelCode where
  apply := Channel.apply
  updates op ch :=
    if op = .remove then none
    else some { ch with events_ := ch.eventsAfter op, addedToLoop_ := true }

theorem updates_threaded {op : ChannelOp} (h : op ≠ .remove) (ch : Channel) :
    threaded.updates op ch =
      some { ch with events_ := ch.eventsAfter op, addedToLoop_ := true } :=
  if_neg h

theorem apply_threaded {op : ChannelOp} (h : op ≠ .remove) (ch : Channel) (ep : Epoll) :
    threaded.apply op ch ep =
      ep.updateChannel { ch with events_ := ch.eventsAfter op, addedToLoop_ := true } := by
  cases op with
  | remove => exact absurd rfl h
  | enableReading | enableWriting | disableWriting | disableAll => rfl

namespace Epoll

/-! ### One channel -/

/-- The channel has its entry in `channels_` unless it is `kNew`. -/
def Listed (ep : Epoll) (ch : Channel) : Prop :=
  ep.channels_[ch.fd_]? = if ch.statusInEpoll_ = .kNew then none else some ch.self

/-- The kernel knows the channel's events if it is `kAdded`. -/
def Mirrored (ep : Epoll) (ch : Channel) : Prop :=
  ep.interest[ch.fd_]? =
    if ch.statusInEpoll_ = .kAdded then some (ch.events_, ch.self) else none

/-- The descriptor is in the kernel's set if the channel is `kAdded`, for
    whatever events. -/
def Known (ep : Epoll) (ch : Channel) : Prop :=
  ch.fd_ ∈ ep.interest ↔ ch.statusInEpoll_ = .kAdded

theorem known_of_mirrored {ep : Epoll} {ch : Channel} (h : ep.Mirrored ch) : ep.Known ch := by
  rw [Mirrored] at h
  rw [Known, ExtTreeMap.mem_iff_isSome_getElem?, h]
  split
  · next hadded => exact iff_of_true rfl hadded
  · next hadded => exact iff_of_false Bool.false_ne_true hadded

/-- The operation of `updateChannel` is legal. -/
theorem legal_operation {ep : Epoll} {ch : Channel} (h : ep.Known ch) :
    ep.Legal ch (operation ch) := by
  rw [Known] at h
  unfold operation
  cases hstatus : ch.statusInEpoll_ with
  | kNew =>
    show ch.fd_ ∉ ep.interest
    rw [h, hstatus]
    decide
  | kDeleted =>
    show ch.fd_ ∉ ep.interest
    rw [h, hstatus]
    decide
  | kAdded =>
    have hmem : ch.fd_ ∈ ep.interest := h.mpr hstatus
    dsimp only
    split
    · exact hmem
    · exact hmem

theorem updateAsserts_of_listed {ep : Epoll} {ch : Channel} (h : ep.Listed ch) :
    ep.UpdateAsserts ch := by
  unfold Listed at h
  unfold UpdateAsserts
  cases hstatus : ch.statusInEpoll_ with
  | kNew =>
    rw [hstatus] at h
    exact notMem_of_getElem?_eq_none h
  | kDeleted =>
    rw [hstatus] at h
    exact h
  | kAdded =>
    rw [hstatus] at h
    exact h

/-- `updateChannel` brings the three copies together. -/
theorem updateChannel_spec {ep : Epoll} {ch : Channel} (hlisted : ep.Listed ch)
    (hknown : ep.Known ch) :
    let done := ep.updateChannel ch
    done.2.fd_ = ch.fd_ ∧ done.2.self = ch.self ∧ done.2.events_ = ch.events_ ∧
      done.1.Listed done.2 ∧ done.1.Mirrored done.2 ∧ SameElsewhere ep done.1 ch.fd_ := by
  have hlegal := legal_operation hknown
  unfold operation at hlegal
  unfold Listed at hlisted
  unfold updateChannel
  cases hstatus : ch.statusInEpoll_ with
  | kNew =>
    -- entered in `channels_`, and in the kernel's set
    rw [hstatus] at hlegal
    dsimp only
    have hadd : Legal { ep with channels_ := ep.channels_.insert ch.fd_ ch.self }
        { ch with statusInEpoll_ := .kAdded } .add := hlegal
    have hinsert : SameElsewhere ep { ep with channels_ := ep.channels_.insert ch.fd_ ch.self }
        ch.fd_ := ⟨fun k hk => getElem?_insert_elsewhere _ _ hk, fun _ _ => rfl⟩
    refine ⟨rfl, rfl, rfl, ?_, getElem?_update hadd,
      hinsert.trans (sameElsewhere_update _ .add { ch with statusInEpoll_ := .kAdded })⟩
    rw [Listed, update_channels]
    exact ExtTreeMap.getElem?_insert_self
  | kDeleted =>
    -- `channels_` still has it, the kernel gets it again
    rw [hstatus] at hlegal hlisted
    dsimp only
    have hadd : Legal ep { ch with statusInEpoll_ := .kAdded } .add := hlegal
    refine ⟨rfl, rfl, rfl, ?_, getElem?_update hadd,
      sameElsewhere_update ep .add { ch with statusInEpoll_ := .kAdded }⟩
    rw [Listed, update_channels]
    exact hlisted
  | kAdded =>
    rw [hstatus] at hlegal hlisted
    dsimp only at hlegal ⊢
    by_cases hnone : ch.isNoneEvent = true
    · -- it leaves the kernel's set and keeps its entry in `channels_`
      rw [if_pos hnone] at hlegal ⊢
      refine ⟨rfl, rfl, rfl, ?_, getElem?_update hlegal, sameElsewhere_update ep .del ch⟩
      rw [Listed, update_channels]
      exact hlisted
    · -- it stays where it is, with other events
      rw [if_neg hnone] at hlegal ⊢
      refine ⟨rfl, rfl, rfl, ?_, ?_, sameElsewhere_update ep .mod ch⟩
      · rw [Listed, update_channels, hstatus]
        exact hlisted
      · rw [Mirrored, hstatus]
        exact getElem?_update hlegal

/-- `removeChannel` takes the channel out everywhere. -/
theorem removeChannel_spec {ep : Epoll} {ch : Channel} (hmirrored : ep.Mirrored ch) :
    let done := ep.removeChannel ch
    done.2.fd_ = ch.fd_ ∧ done.2.self = ch.self ∧ done.2.events_ = ch.events_ ∧
      done.1.Listed done.2 ∧ done.1.Mirrored done.2 ∧ SameElsewhere ep done.1 ch.fd_ := by
  unfold Mirrored at hmirrored
  have herase : SameElsewhere ep { ep with channels_ := ep.channels_.erase ch.fd_ } ch.fd_ :=
    ⟨fun k hk => getElem?_erase_elsewhere _ hk, fun _ _ => rfl⟩
  unfold removeChannel
  dsimp only
  by_cases hadded : ch.statusInEpoll_ = .kAdded
  · rw [if_pos hadded]
    refine ⟨rfl, rfl, rfl, ?_, ?_, herase.trans (sameElsewhere_update _ .del ch)⟩
    · rw [Listed, update_channels]
      exact ExtTreeMap.getElem?_erase_self
    · exact ExtTreeMap.getElem?_erase_self
  · rw [if_neg hadded] at hmirrored ⊢
    exact ⟨rfl, rfl, rfl, ExtTreeMap.getElem?_erase_self, hmirrored, herase⟩

end Epoll

/-! ### All channels -/

namespace Registry

variable {ι : Type}

/-- The three copies agree for every channel, and the kernel watches no
    other descriptor. -/
structure Agrees (fd : ι → Int) (r : Registry ι) : Prop where
  fd_ : ∀ i, (r.channel i).fd_ = fd i
  listed : ∀ i, r.epoll_.Listed (r.channel i)
  mirrored : ∀ i, r.epoll_.Mirrored (r.channel i)
  others : ∀ k, (∀ i, fd i ≠ k) → r.epoll_.interest[k]? = none
  legal : r.AllLegal
  asserts : r.AssertsHold

theorem agrees_start (fd : ι → Int) (self : ι → ChannelPtr) : (start fd self).Agrees fd where
  fd_ _ := rfl
  listed _ := ExtTreeMap.getElem?_empty
  mirrored _ := ExtTreeMap.getElem?_empty
  others _ _ := ExtTreeMap.getElem?_empty
  legal := by intro c hc; cases hc
  asserts := by intro b hb; cases hb

/-- What the agreement says about the kernel's set as a whole. -/
theorem Agrees.interest_iff {fd : ι → Int} {r : Registry ι} (h : r.Agrees fd) (k : Int)
    (v : BitVec 32 × ChannelPtr) :
    r.epoll_.interest[k]? = some v ↔
      ∃ i, (r.channel i).statusInEpoll_ = .kAdded ∧ (r.channel i).fd_ = k ∧
        v = ((r.channel i).events_, (r.channel i).self) := by
  constructor
  · intro hk
    by_cases hex : ∃ i, fd i = k
    · obtain ⟨i, rfl⟩ := hex
      have hm := h.mirrored i
      rw [Epoll.Mirrored, h.fd_, hk] at hm
      split at hm
      · next hadded => exact ⟨i, hadded, h.fd_ i, Option.some.inj hm⟩
      · cases hm
    · push Not at hex
      rw [h.others k hex] at hk
      cases hk
  · rintro ⟨i, hadded, rfl, rfl⟩
    rw [h.mirrored i, if_pos hadded]

theorem Agrees.channels_iff {fd : ι → Int} {r : Registry ι} (h : r.Agrees fd) (i : ι) :
    ((r.channel i).statusInEpoll_ = .kNew ↔ (r.channel i).fd_ ∉ r.epoll_.channels_) ∧
      ((r.channel i).statusInEpoll_ ≠ .kNew →
        r.epoll_.channels_[(r.channel i).fd_]? = some (r.channel i).self) := by
  have hl := h.listed i
  unfold Epoll.Listed at hl
  by_cases hnew : (r.channel i).statusInEpoll_ = .kNew
  · rw [if_pos hnew] at hl
    exact ⟨iff_of_true hnew (notMem_of_getElem?_eq_none hl), fun hne => absurd hnew hne⟩
  · rw [if_neg hnew] at hl
    exact ⟨iff_of_false hnew fun hnot => hnot (mem_of_getElem?_eq_some hl), fun _ => hl⟩

variable [DecidableEq ι]

/-- What an operation does to its channel, and to the other descriptors. -/
theorem apply_threaded_spec {ep : Epoll} {ch : Channel} (hlisted : ep.Listed ch)
    (hmirrored : ep.Mirrored ch) (op : ChannelOp) :
    let done := threaded.apply op ch ep
    done.2.fd_ = ch.fd_ ∧ done.1.Listed done.2 ∧ done.1.Mirrored done.2 ∧
      Epoll.SameElsewhere ep done.1 ch.fd_ := by
  by_cases hop : op = .remove
  · subst hop
    have hm : ep.Mirrored { ch with addedToLoop_ := false } := hmirrored
    obtain ⟨hfd, -, -, h⟩ := Epoll.removeChannel_spec hm
    exact ⟨hfd, h⟩
  · rw [apply_threaded hop]
    -- the channel that `updateChannel` gets
    have hl : ep.Listed { ch with events_ := ch.eventsAfter op, addedToLoop_ := true } := hlisted
    have hknown : ep.Known ch := Epoll.known_of_mirrored hmirrored
    have hk : ep.Known { ch with events_ := ch.eventsAfter op, addedToLoop_ := true } := hknown
    obtain ⟨hfd, -, -, h⟩ := Epoll.updateChannel_spec hl hk
    exact ⟨hfd, h⟩

theorem legal_calls {ep : Epoll} {ch : Channel} (hmirrored : ep.Mirrored ch) (op : ChannelOp) :
    ∀ c ∈ threaded.calls op ch, ep.Legal ch c := by
  have hknown := Epoll.known_of_mirrored hmirrored
  intro c hc
  by_cases hop : op = .remove
  · subst hop
    rw [ChannelCode.calls_remove rfl] at hc
    split at hc
    · next hadded =>
      rw [List.mem_singleton] at hc
      subst hc
      exact hknown.mpr hadded
    · cases hc
  · rw [ChannelCode.calls_updates (updates_threaded hop ch), List.mem_singleton] at hc
    subst hc
    have hk : ep.Known { ch with events_ := ch.eventsAfter op, addedToLoop_ := true } := hknown
    exact Epoll.legal_operation hk

theorem updateAsserts_updates {ep : Epoll} {ch : Channel} (hlisted : ep.Listed ch)
    (op : ChannelOp) : ∀ ch' ∈ threaded.updates op ch, ep.UpdateAsserts ch' := by
  intro ch' hch'
  by_cases hop : op = .remove
  · subst hop
    cases hch'
  · rw [updates_threaded hop] at hch'
    cases hch'
    have hl : ep.Listed { ch with events_ := ch.eventsAfter op, addedToLoop_ := true } := hlisted
    exact Epoll.updateAsserts_of_listed hl

/-- **Step**: an operation on one channel keeps the agreement of all. -/
theorem agrees_next {fd : ι → Int} (hfd : Function.Injective fd) {r : Registry ι}
    (h : r.Agrees fd) (i : ι) (op : ChannelOp) : (r.next threaded i op).Agrees fd := by
  obtain ⟨hself, hlisted, hmirrored, helsewhere⟩ :=
    apply_threaded_spec (h.listed i) (h.mirrored i) op
  -- the other channels are on other descriptors
  have hne : ∀ j, j ≠ i → (r.channel j).fd_ ≠ (r.channel i).fd_ := by
    intro j hj heq
    rw [h.fd_, h.fd_] at heq
    exact hj (hfd heq)
  refine ⟨fun j => ?_, fun j => ?_, fun j => ?_, fun k hk => ?_, ?_, ?_⟩
  · by_cases hj : j = i
    · subst hj
      rw [channel_next_self, hself, h.fd_]
    · rw [channel_next_ne r i op hj, h.fd_]
  · by_cases hj : j = i
    · subst hj
      rw [channel_next_self]
      exact hlisted
    · rw [channel_next_ne r i op hj, Epoll.Listed, epoll_next,
        helsewhere.channels_ _ (hne j hj)]
      exact h.listed j
  · by_cases hj : j = i
    · subst hj
      rw [channel_next_self]
      exact hmirrored
    · rw [channel_next_ne r i op hj, Epoll.Mirrored, epoll_next,
        helsewhere.interest _ (hne j hj)]
      exact h.mirrored j
  · rw [epoll_next, helsewhere.interest k fun heq => hk i (by rw [heq, h.fd_])]
    exact h.others k hk
  · exact (allLegal_next_iff r i op).mpr ⟨h.legal, legal_calls (h.mirrored i) op⟩
  · exact (assertsHold_next_iff r i op).mpr ⟨h.asserts, updateAsserts_updates (h.listed i) op⟩

theorem agrees_run {fd : ι → Int} (hfd : Function.Injective fd) (self : ι → ChannelPtr)
    {steps : List (ι × ChannelOp)} (hvalid : (registry threaded).Valid (start fd self) steps) :
    ((registry threaded).run (start fd self) steps).Agrees fd :=
  (registry threaded).invariant_run (Agrees fd) (fun _ l h _ => agrees_next hfd h l.1 l.2)
    (agrees_start fd self) hvalid

/-- **Registration**: after any operations on any channels the kernel's
    set is that of the channels that are `kAdded`, `channels_` lists those
    that are not `kNew`, no assert has failed and every call of
    `epoll_ctl` was legal. -/
theorem registration_agrees (fd : ι → Int) (self : ι → ChannelPtr) (hfd : Function.Injective fd)
    (steps : List (ι × ChannelOp)) (hvalid : (registry threaded).Valid (start fd self) steps) :
    let r := (registry threaded).run (start fd self) steps
    (∀ k v, r.epoll_.interest[k]? = some v ↔
        ∃ i, (r.channel i).statusInEpoll_ = .kAdded ∧ (r.channel i).fd_ = k ∧
          v = ((r.channel i).events_, (r.channel i).self)) ∧
      (∀ i, ((r.channel i).statusInEpoll_ = .kNew ↔ (r.channel i).fd_ ∉ r.epoll_.channels_) ∧
        ((r.channel i).statusInEpoll_ ≠ .kNew →
          r.epoll_.channels_[(r.channel i).fd_]? = some (r.channel i).self)) ∧
      (∀ b ∈ r.asserts, b = true) ∧ ∀ c ∈ r.ctls, c.2 = true := by
  have h := agrees_run hfd self hvalid
  exact ⟨h.interest_iff, h.channels_iff, h.asserts, h.legal⟩

/-- Two channels, one of them removed and registered again. -/
theorem registration_agrees_twoChannels :
    let steps : List (Bool × ChannelOp) :=
      [(true, .enableReading), (false, .disableAll), (true, .enableWriting), (true, .disableAll),
        (true, .remove), (false, .enableWriting), (true, .enableReading)]
    let r := (registry threaded).run (start (fun b => cond b 5 6) Bool.toNat) steps
    ∀ c ∈ r.ctls, c.2 = true :=
  (registration_agrees (fun b => cond b 5 6) Bool.toNat (by decide) _ (by decide +kernel)).2.2.2

end Registry

end TinyWS
