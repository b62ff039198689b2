import TinyWS.MultiProcess.Channel
import TinyWS.Net.Registration

/-! # Registration in multiProcess1

    Two small differences from the multi-threaded code make the kernel's
    set drift from the enabled events.  `enableWriting` does not reach
    epoll, and a channel whose last event is disabled keeps the status
    `kAdded` after `EPOLL_CTL_DEL`: it is *stranded*, and every later call
    of `epoll_ctl` for it is an illegal `MOD` or `DEL`.

    The kernel watches what is enabled exactly in the runs that do neither:
    no `enableWriting`, and no operation on a stranded channel. -/

namespace TinyWS

open Std

namespace Process

/-- The channel operations of `multiProcess1`. -/
def apply : ChannelOp → Channel → Epoll → Epoll × Channel
  | .enableReading, ch, ep => enableReading .process1 ch ep
  | .enableWriting, ch, ep => (ep, enableWriting ch)
  | .disableWriting, ch, ep => disableWriting .process1 ch ep
  | .disableAll, ch, ep => disableAll .process1 ch ep
  | .remove, ch, ep => remove ch ep

/-- `remove` and `enableWriting` do not go through `updateChannel`. -/
def code : ChannelCode where
  apply := apply
  updates op ch :=
    if op = .remove ∨ op = .enableWriting then none
    else some { ch with events_ := ch.eventsAfter op }

theorem updates_code {op : ChannelOp} (hremove : op ≠ .remove) (hwriting : op ≠ .enableWriting)
    (ch : Channel) : code.updates op ch = some { ch with events_ := ch.eventsAfter op } :=
  if_neg fun h => h.elim hremove hwriting

theorem apply_code {op : ChannelOp} (hremove : op ≠ .remove) (hwriting : op ≠ .enableWriting)
    (ch : Channel) (ep : Epoll) :
    code.apply op ch ep = updateChannel .process1 ep { ch with events_ := ch.eventsAfter op } := by
  cases op with
  | remove => exact absurd rfl hremove
  | enableWriting => exact absurd rfl hwriting
  | enableReading | disableWriting | disableAll => rfl

/-! ## The specification -/

/-- Marked `kAdded`, but not in the kernel's set. -/
def Stranded (ep : Epoll) (ch : Channel) : Prop :=
  ch.statusInEpoll_ = .kAdded ∧ ch.fd_ ∉ ep.interest

instance (ep : Epoll) (ch : Channel) : Decidable (Stranded ep ch) :=
  inferInstanceAs (Decidable (_ ∧ _))

variable {ι : Type}

/-- The kernel watches the enabled events of every channel that has any,
    and no call of `epoll_ctl` was illegal. -/
def KernelAgrees (r : Registry ι) : Prop :=
  (∀ i, (r.channel i).events_ ≠ Channel.kNoneEvent →
      r.epoll_.interest[(r.channel i).fd_]?.map Prod.fst = some (r.channel i).events_) ∧
    r.AllLegal

/-- The condition of the runs. -/
def ReachesKernel (r : Registry ι) (l : ι × ChannelOp) : Prop :=
  l.2 ≠ .enableWriting ∧ ¬ Stranded r.epoll_ (r.channel l.1)

instance (r : Registry ι) (l : ι × ChannelOp) : Decidable (ReachesKernel r l) :=
  inferInstanceAs (Decidable (_ ∧ ¬ _))

/-! ## One channel -/

/-- A channel is new, or in the kernel's set, or stranded.  Writing was
    never enabled. -/
inductive Fine (ep : Epoll) (ch : Channel) : Prop where
  | new (status : ch.statusInEpoll_ = .kNew) (events : ch.events_ = Channel.kNoneEvent)
      (absent : ep.interest[ch.fd_]? = none)
  | live (status : ch.statusInEpoll_ = .kAdded)
      (events : ch.events_ = Channel.kNoneEvent ∨ ch.events_ = Channel.kReadEvent)
      (present : ep.interest[ch.fd_]? = some (ch.events_, ch.self))
  | stranded (status : ch.statusInEpoll_ = .kAdded) (events : ch.events_ = Channel.kNoneEvent)
      (absent : ep.interest[ch.fd_]? = none)

theorem Fine.events_cases {ep : Epoll} {ch : Channel} (h : Fine ep ch) :
    ch.events_ = Channel.kNoneEvent ∨ ch.events_ = Channel.kReadEvent := by
  cases h with
  | new _ events _ => exact Or.inl events
  | live _ events _ => exact events
  | stranded _ events _ => exact Or.inl events

theorem Fine.watched {ep : Epoll} {ch : Channel} (h : Fine ep ch)
    (hevents : ch.events_ ≠ Channel.kNoneEvent) :
    ep.interest[ch.fd_]?.map Prod.fst = some ch.events_ := by
  cases h with
  | new _ events _ => exact absurd events hevents
  | live _ _ present => rw [present]; rfl
  | stranded _ events _ => exact absurd events hevents

theorem Fine.congr {ep ep' : Epoll} {ch : Channel} (h : Fine ep ch)
    (hsame : ep'.interest[ch.fd_]? = ep.interest[ch.fd_]?) : Fine ep' ch := by
  cases h with
  | new status events absent => exact .new status events (hsame.trans absent)
  | live status events present => exact .live status events (hsame.trans present)
  | stranded status events absent => exact .stranded status events (hsame.trans absent)

/-- Without `enableWriting` the events stay among these two. -/
theorem eventsAfter_cases {ch : Channel} {op : ChannelOp} (hop : op ≠ .enableWriting)
    (h : ch.events_ = Channel.kNoneEvent ∨ ch.events_ = Channel.kReadEvent) :
    ch.eventsAfter op = Channel.kNoneEvent ∨ ch.eventsAfter op = Channel.kReadEvent := by
  cases op with
  | enableWriting => exact absurd rfl hop
  | enableReading =>
    right
    rcases h with h | h
    · rw [Channel.eventsAfter, h]; decide
    · rw [Channel.eventsAfter, h]; decide
  | disableWriting =>
    rcases h with h | h
    · left; rw [Channel.eventsAfter, h]; decide
    · right; rw [Channel.eventsAfter, h]; decide
  | disableAll => exact Or.inl rfl
  | remove => exact h

/-- What `updateChannel` does to a channel that is not stranded. -/
theorem updateChannel_fine {ep : Epoll} {ch : Channel}
    (hevents : ch.events_ = Channel.kNoneEvent ∨ ch.events_ = Channel.kReadEvent)
    (hstatus : ch.statusInEpoll_ ≠ .kDeleted) (hknown : ep.Known ch) :
    let done := updateChannel .process1 ep ch
    done.2.fd_ = ch.fd_ ∧ Fine done.1 done.2 ∧ Epoll.SameElsewhere ep done.1 ch.fd_ := by
  have hlegal := Epoll.legal_operation hknown
  unfold Epoll.operation at hlegal
  unfold updateChannel
  cases hst : ch.statusInEpoll_ with
  | kDeleted => exact absurd hst hstatus
  | kNew =>
    rw [hst] at hlegal
    dsimp only
    have hadd : Epoll.Legal { ep with channels_ := ep.channels_.insert ch.fd_ ch.self }
        { ch with statusInEpoll_ := .kAdded } .add := hlegal
    have hinsert : Epoll.SameElsewhere ep
        { ep with channels_ := ep.channels_.insert ch.fd_ ch.self } ch.fd_ :=
      ⟨fun k hk => getElem?_insert_elsewhere _ _ hk, fun _ _ => rfl⟩
    exact ⟨rfl, .live rfl hevents (Epoll.getElem?_update hadd),
      hinsert.trans (Epoll.sameElsewhere_update _ .add { ch with statusInEpoll_ := .kAdded })⟩
  | kAdded =>
    rw [hst] at hlegal
    dsimp only at hlegal ⊢
    by_cases hnone : ch.isNoneEvent = true
    · -- the status stays `kAdded`
      rw [if_pos hnone] at hlegal ⊢
      have hev : ch.events_ = Channel.kNoneEvent := by simpa [Channel.isNoneEvent] using hnone
      exact ⟨rfl, .stranded hst hev (Epoll.getElem?_update hlegal),
        Epoll.sameElsewhere_update ep .del ch⟩
    · -- the events are replaced
      rw [if_neg hnone] at hlegal ⊢
      exact ⟨rfl, .live hst hevents (Epoll.getElem?_update hlegal),
        Epoll.sameElsewhere_update ep .mod ch⟩

theorem removeChannel_fine {ep : Epoll} {ch : Channel} (h : Fine ep ch)
    (hnone : ch.events_ = Channel.kNoneEvent) :
    let done := removeChannel ep ch
    done.2.fd_ = ch.fd_ ∧ Fine done.1 done.2 ∧ Epoll.SameElsewhere ep done.1 ch.fd_ := by
  have herase : Epoll.SameElsewhere ep { ep with channels_ := ep.channels_.erase ch.fd_ } ch.fd_ :=
    ⟨fun k hk => getElem?_erase_elsewhere _ hk, fun _ _ => rfl⟩
  unfold removeChannel
  dsimp only
  by_cases hadded : ch.statusInEpoll_ = .kAdded
  · rw [if_pos hadded]
    exact ⟨rfl, .new rfl hnone ExtTreeMap.getElem?_erase_self,
      herase.trans (Epoll.sameElsewhere_update _ .del ch)⟩
  · rw [if_neg hadded]
    refine ⟨rfl, .new rfl hnone ?_, herase⟩
    cases h with
    | new _ _ absent => exact absent
    | live status _ _ => exact absurd status hadded
    | stranded status _ _ => exact absurd status hadded

/-- A channel that is not stranded is `kAdded` exactly if the kernel knows
    its descriptor. -/
theorem Fine.known {ep : Epoll} {ch : Channel} (h : Fine ep ch) (hnot : ¬ Stranded ep ch) :
    ep.Known ch := by
  cases h with
  | new status _ absent =>
    exact iff_of_false (notMem_of_getElem?_eq_none absent) (by rw [status]; decide)
  | live status _ present => exact iff_of_true (mem_of_getElem?_eq_some present) status
  | stranded status _ absent => exact absurd ⟨status, notMem_of_getElem?_eq_none absent⟩ hnot

theorem Fine.status_ne {ep : Epoll} {ch : Channel} (h : Fine ep ch) :
    ch.statusInEpoll_ ≠ .kDeleted := by
  cases h with
  | new status _ _ => rw [status]; decide
  | live status _ _ => rw [status]; decide
  | stranded status _ _ => rw [status]; decide

/-- An operation that reaches the kernel. -/
theorem apply_fine {ep : Epoll} {ch : Channel} (h : Fine ep ch) {op : ChannelOp}
    (hguard : op = .remove → ch.isNoneEvent = true) (hop : op ≠ .enableWriting)
    (hnot : ¬ Stranded ep ch) :
    let done := code.apply op ch ep
    done.2.fd_ = ch.fd_ ∧ Fine done.1 done.2 ∧ Epoll.SameElsewhere ep done.1 ch.fd_ := by
  by_cases hremove : op = .remove
  · have hnone := hguard hremove
    have hev : ch.events_ = Channel.kNoneEvent := by simpa [Channel.isNoneEvent] using hnone
    subst hremove
    have hfine : Fine ep { ch with addedToLoop_ := false } := by
      cases h with
      | new status events absent => exact .new status events absent
      | live status events present => exact .live status events present
      | stranded status events absent => exact .stranded status events absent
    exact removeChannel_fine hfine hev
  · rw [apply_code hremove hop]
    have hknown : ep.Known { ch with events_ := ch.eventsAfter op } := h.known hnot
    have hstatus : { ch with events_ := ch.eventsAfter op }.statusInEpoll_ ≠ .kDeleted :=
      h.status_ne
    exact updateChannel_fine (eventsAfter_cases hop h.events_cases) hstatus hknown

theorem calls_legal {ep : Epoll} {ch : Channel} (h : Fine ep ch) {op : ChannelOp}
    (hop : op ≠ .enableWriting) (hnot : ¬ Stranded ep ch) :
    ∀ c ∈ code.calls op ch, ep.Legal ch c := by
  have hknown := h.known hnot
  intro c hc
  by_cases hremove : op = .remove
  · subst hremove
    rw [ChannelCode.calls_remove rfl] at hc
    split at hc
    · next hadded =>
      rw [List.mem_singleton] at hc
      subst hc
      exact hknown.mpr hadded
    · cases hc
  · rw [ChannelCode.calls_updates (updates_code hremove hop ch), List.mem_singleton] at hc
    subst hc
    have hk : ep.Known { ch with events_ := ch.eventsAfter op } := hknown
    exact Epoll.legal_operation hk

/-- `epoll_ctl` refuses every call for a stranded channel. -/
theorem not_legal_calls {ep : Epoll} {ch : Channel} (h : Stranded ep ch) {op : ChannelOp}
    (hop : op ≠ .enableWriting) : ¬ ∀ c ∈ code.calls op ch, ep.Legal ch c := by
  obtain ⟨hstatus, habsent⟩ := h
  intro hall
  by_cases hremove : op = .remove
  · subst hremove
    rw [ChannelCode.calls_remove rfl, if_pos hstatus] at hall
    exact habsent (hall .del (by simp))
  · rw [ChannelCode.calls_updates (updates_code hremove hop ch)] at hall
    have hlegal := hall _ (List.mem_singleton.mpr rfl)
    unfold Epoll.operation at hlegal
    dsimp only at hlegal
    rw [hstatus] at hlegal
    dsimp only at hlegal
    split at hlegal
    · exact habsent hlegal
    · exact habsent hlegal

/-- `enableWriting` leaves the kernel behind. -/
theorem not_watched_enableWriting {ep : Epoll} {ch : Channel} (h : Fine ep ch) :
    (enableWriting ch).events_ ≠ Channel.kNoneEvent ∧
      ep.interest[ch.fd_]?.map Prod.fst ≠ some (enableWriting ch).events_ := by
  have hevents : (enableWriting ch).events_ = ch.events_ ||| Channel.kWriteEvent := rfl
  rw [hevents]
  constructor
  · rcases h.events_cases with hev | hev
    · rw [hev]; decide
    · rw [hev]; decide
  · -- the kernel has the events from before the call, if any
    cases h with
    | new _ _ absent => simp [absent]
    | stranded _ _ absent => simp [absent]
    | live _ events present =>
      rw [present, Option.map_some, Ne, Option.some_inj]
      show ch.events_ ≠ ch.events_ ||| Channel.kWriteEvent
      rcases events with hev | hev
      · rw [hev]; decide
      · rw [hev]; decide

/-! ## All channels -/

/-- The invariant of the runs that meet the condition. -/
structure Sound (fd : ι → Int) (r : Registry ι) : Prop where
  fd_ : ∀ i, (r.channel i).fd_ = fd i
  fine : ∀ i, Fine r.epoll_ (r.channel i)
  legal : r.AllLegal

theorem sound_start (fd : ι → Int) (self : ι → ChannelPtr) :
    Sound fd (Registry.start fd self) where
  fd_ _ := rfl
  fine _ := .new rfl rfl ExtTreeMap.getElem?_empty
  legal := by intro c hc; cases hc

theorem Sound.kernelAgrees {fd : ι → Int} {r : Registry ι} (h : Sound fd r) : KernelAgrees r :=
  ⟨fun i hi => (h.fine i).watched hi, h.legal⟩

variable [DecidableEq ι]

/-- **Step**: an operation that reaches the kernel keeps the invariant. -/
theorem sound_next {fd : ι → Int} (hfd : Function.Injective fd) {r : Registry ι} (h : Sound fd r)
    {l : ι × ChannelOp} (hguard : r.guard l.1 l.2) (hcond : ReachesKernel r l) :
    Sound fd (r.next code l.1 l.2) := by
  obtain ⟨i, op⟩ := l
  obtain ⟨hop, hnot⟩ := hcond
  obtain ⟨hself, hfine, helsewhere⟩ := apply_fine (h.fine i) hguard hop hnot
  refine ⟨fun j => ?_, fun j => ?_, ?_⟩
  · by_cases hj : j = i
    · subst hj
      rw [Registry.channel_next_self, hself, h.fd_]
    · rw [Registry.channel_next_ne r i op hj, h.fd_]
  · by_cases hj : j = i
    · subst hj
      rw [Registry.channel_next_self]
      exact hfine
    · -- the other channels are on other descriptors
      have hne : (r.channel j).fd_ ≠ (r.channel i).fd_ := by
        rw [h.fd_, h.fd_]
        exact fun heq => hj (hfd heq)
      rw [Registry.channel_next_ne r i op hj]
      exact (h.fine j).congr (helsewhere.interest _ hne)
  · exact (r.allLegal_next_iff i op).mpr ⟨h.legal, calls_legal (h.fine i) hop hnot⟩

/-- **Step**: one that does not reach it breaks the agreement. -/
theorem not_kernelAgrees_next {fd : ι → Int} {r : Registry ι} (h : Sound fd r)
    {l : ι × ChannelOp} (hcond : ¬ ReachesKernel r l) :
    ¬ KernelAgrees (r.next code l.1 l.2) := by
  obtain ⟨i, op⟩ := l
  rintro ⟨hwatched, hlegal⟩
  by_cases hop : op = .enableWriting
  · subst hop
    obtain ⟨hevents, hkernel⟩ := not_watched_enableWriting (h.fine i)
    have hi := hwatched i
    rw [Registry.channel_next_self] at hi
    exact hkernel (hi hevents)
  · -- the operation makes a call, and the kernel refuses it
    have hstranded : Stranded r.epoll_ (r.channel i) := by
      by_contra hnot
      exact hcond ⟨hop, hnot⟩
    exact not_legal_calls hstranded hop ((r.allLegal_next_iff i op).mp hlegal).2

/-- **Registration in multiProcess1**: for any operations on any channels,
    the kernel agrees with the enabled events in every state of the run if
    and only if writing is never enabled and no operation meets a stranded
    channel. -/
theorem kernelAgrees_iff (fd : ι → Int) (self : ι → ChannelPtr) (hfd : Function.Injective fd)
    (steps : List (ι × ChannelOp))
    (hvalid : (registry code).Valid (Registry.start fd self) steps) :
    (∀ pre, pre <+: steps → KernelAgrees ((registry code).run (Registry.start fd self) pre)) ↔
      (registry code).Along ReachesKernel (Registry.start fd self) steps := by
  apply (registry code).always_iff_along
    (fun r steps => Sound fd r ∧ (registry code).Valid r steps) KernelAgrees
  · rintro r steps ⟨h, -⟩
    exact h.kernelAgrees
  · rintro r l steps ⟨h, hguard, hrest⟩ hcond
    exact ⟨sound_next hfd h hguard hcond, hrest⟩
  · rintro r l steps ⟨h, -, -⟩ hcond
    exact not_kernelAgrees_next h hcond
  · exact ⟨sound_start fd self, hvalid⟩

/-- Two channels that are only read from, one of them removed once. -/
theorem kernelAgrees_reading :
    let steps : List (Bool × ChannelOp) :=
      [(true, .enableReading), (false, .disableAll), (false, .remove), (false, .enableReading),
        (true, .disableAll)]
    ∀ pre, pre <+: steps →
      KernelAgrees ((registry code).run (Registry.start (fun b => cond b 5 6) Bool.toNat) pre) :=
  (kernelAgrees_iff (fun b => cond b 5 6) Bool.toNat (by decide) _ (by decide +kernel)).mpr
    (by decide +kernel)

/-- A channel is disabled and enabled again: `MOD` on a descriptor that is
    not there. -/
theorem not_kernelAgrees_reenabled :
    let steps : List (Unit × ChannelOp) :=
      [((), .enableReading), ((), .disableAll), ((), .enableReading)]
    let r₀ := Registry.start (fun _ : Unit => 5) fun _ => 1
    (registry code).Valid r₀ steps ∧ ¬ KernelAgrees ((registry code).run r₀ steps) := by
  refine ⟨by decide +kernel, fun h => ?_⟩
  have hwatched := h.1 ()
  revert hwatched
  decide +kernel

end Process

end TinyWS
