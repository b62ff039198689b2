import TinyWS.Net.TcpServer
import TinyWS.Framework.RoundRobin

/-! # Balance

    Which loop a connection gets, and how many a loop has.  `getNextLoop`
    deals the connections to the I/O loops in turn, and nothing that
    happens to a connection takes it to another loop. -/

namespace TinyWS

namespace TcpServer

/-- No connection is made, and none changes its loop. -/
structure SamePlaces (s s' : TcpServer) : Prop where
  numThreads : s'.numThreads = s.numThreads
  next_ : s'.next_ = s.next_
  created : s'.created = s.created
  getLoop : ∀ c, s'.getLoop c = s.getLoop c

namespace SamePlaces

variable {s s' s'' : TcpServer}

theorem refl (s : TcpServer) : SamePlaces s s := ⟨rfl, rfl, rfl, fun _ => rfl⟩

theorem trans (h : SamePlaces s s') (h' : SamePlaces s' s'') : SamePlaces s s'' where
  numThreads := h'.numThreads.trans h.numThreads
  next_ := h'.next_.trans h.next_
  created := h'.created.trans h.created
  getLoop c := (h'.getLoop c).trans (h.getLoop c)

theorem withConn {f : Endpoint → Endpoint} (hf : Keeps f) (s : TcpServer) (c : ConnPtr) :
    SamePlaces s (s.withConn c f) := ⟨rfl, rfl, rfl, getLoop_withConn hf s c⟩

theorem queueInLoop (s : TcpServer) (l : LoopId) (f : ServerFunctor) :
    SamePlaces s (s.queueInLoop l f) := ⟨rfl, rfl, rfl, fun _ => rfl⟩

theorem runInLoop (s : TcpServer) (caller l : LoopId) (f : ServerFunctor)
    {body : TcpServer → TcpServer} (hbody : SamePlaces s (body s)) :
    SamePlaces s (s.runInLoop caller l f body) := by
  unfold TcpServer.runInLoop
  split
  · exact hbody
  · exact queueInLoop s l f

theorem connectionEstablished (s : TcpServer) (l : LoopId) (c : ConnPtr) :
    SamePlaces s (s.connectionEstablished l c) :=
  (withConn keeps_connectionEstablished s c).trans ⟨rfl, rfl, rfl, fun _ => rfl⟩

theorem connectionDestroyed (s : TcpServer) (l : LoopId) (c : ConnPtr) :
    SamePlaces s (s.connectionDestroyed l c) :=
  (withConn keeps_connectionDestroyed s c).trans ⟨rfl, rfl, rfl, fun _ => rfl⟩

theorem removeConnectionInLoop (s : TcpServer) (c : ConnPtr) :
    SamePlaces s (s.removeConnectionInLoop c) := ⟨rfl, rfl, rfl, fun _ => rfl⟩

theorem handleEvent (s : TcpServer) (c : ConnPtr) (event : ConnStep) :
    SamePlaces s (s.handleEvent c event) := by
  have hevent := withConn (keeps_step event) s c
  unfold TcpServer.handleEvent
  split
  · have hlive : SamePlaces (s.withConn c (·.step event))
        ((s.withConn c (·.step event)).live c .handleClose) := ⟨rfl, rfl, rfl, fun _ => rfl⟩
    exact (hevent.trans hlive).trans (runInLoop _ _ _ _ (removeConnectionInLoop _ c))
  · exact hevent

theorem call (s : TcpServer) (l : LoopId) (f : ServerFunctor) (w : WriteResult) :
    SamePlaces s (s.call l f w) := by
  cases f with
  | connectionEstablished c => exact connectionEstablished s l c
  | removeConnectionInLoop c => exact removeConnectionInLoop s c
  | connectionDestroyed c => exact connectionDestroyed s l c
  | connectionDestroyedRaw c =>
    have hderef : SamePlaces s (s.deref (.connectionDestroyedRaw c) c) :=
      ⟨rfl, rfl, rfl, fun _ => rfl⟩
    exact hderef.trans (connectionDestroyed _ l c)
  | conn c g =>
    simp only [TcpServer.call]
    split
    · have hderef : SamePlaces s (s.deref (.conn c g) c) := ⟨rfl, rfl, rfl, fun _ => rfl⟩
      exact hderef.trans (withConn (keeps_runFunctor g w) _ c)
    · exact withConn (keeps_runFunctor g w) s c

theorem runFunctor (s : TcpServer) (l : LoopId) (w : WriteResult) :
    SamePlaces s (s.runFunctor l w) := by
  unfold TcpServer.runFunctor
  split
  · next called f fs _ =>
    have hbatch : SamePlaces s (s.setBatch l (some ⟨called ++ [f], fs⟩)) :=
      ⟨rfl, rfl, rfl, fun _ => rfl⟩
    exact hbatch.trans (call _ l f w)
  · exact refl s

theorem sendCheck (s : TcpServer) (t : ThreadId) (c : ConnPtr) (message : Bytes) :
    SamePlaces s (s.sendCheck t c message) := by
  unfold TcpServer.sendCheck
  split
  · exact ⟨rfl, rfl, rfl, getLoop_setConn rfl⟩
  · exact refl s

end SamePlaces

/-! ## The connections of a loop -/

/-- The connections that were given to a loop. -/
def connsOf (s : TcpServer) (l : LoopId) : List ConnPtr :=
  (List.range s.created).filter fun c => s.getLoop c = l

/-- The connections were dealt in turn, and `next_` is whose turn it is. -/
structure Dealt (n : Nat) (s : TcpServer) : Prop where
  numThreads : s.numThreads = n
  next_ : 0 < n → s.next_ = s.created % n
  getLoop : ∀ c < s.created, s.getLoop c = if n = 0 then 0 else c % n + 1

theorem Dealt.same {n : Nat} {s s' : TcpServer} (h : s.Dealt n) (hsame : SamePlaces s s') :
    s'.Dealt n where
  numThreads := hsame.numThreads.trans h.numThreads
  next_ hn := by
    rw [hsame.next_, hsame.created]
    exact h.next_ hn
  getLoop c hc := by
    rw [hsame.created] at hc
    rw [hsame.getLoop]
    exact h.getLoop c hc

/-- The loop that is next, and `next_` behind it. -/
theorem Dealt.getNextLoop {n : Nat} {s : TcpServer} (h : s.Dealt n) (id : Int) :
    ∃ k, getNextLoop { s with nextConnectionId_ := id } =
        ({ s with nextConnectionId_ := id, next_ := k },
          if n = 0 then 0 else s.created % n + 1) ∧
      (0 < n → k = (s.created + 1) % n) := by
  unfold TcpServer.getNextLoop
  by_cases hn : n = 0
  · refine ⟨s.next_, ?_, fun hpos => absurd hn (by omega)⟩
    rw [if_pos (h.numThreads.trans hn), if_pos hn]
  · have hpos : 0 < n := Nat.pos_of_ne_zero hn
    refine ⟨_, ?_, fun _ => RoundRobin.next_hand_wrap hpos⟩
    rw [if_neg (by rw [h.numThreads]; exact hn), if_neg hn]
    dsimp only
    rw [h.next_ hpos, h.numThreads]

/-- **A new connection** is the next card. -/
theorem Dealt.newConnection {n : Nat} {s : TcpServer} (h : s.Dealt n) (fd : Int)
    (writeComplete : Bool) : (s.newConnection fd writeComplete).Dealt n := by
  obtain ⟨k, hnext, hk⟩ := h.getNextLoop (s.nextConnectionId_ + 1)
  have hentered : Dealt n (TcpServer.enter
      { s with nextConnectionId_ := s.nextConnectionId_ + 1, next_ := k }
      (s.name_ ++ "#" ++ toString s.nextConnectionId_)
      (if n = 0 then 0 else s.created % n + 1) fd writeComplete) := by
    refine ⟨h.numThreads, hk, fun c hc => ?_⟩
    by_cases hnew : c = s.created
    · rw [hnew]
      exact getLoop_enter_self
    · rw [getLoop_enter_ne hnew]
      have hlt : c < s.created + 1 := hc
      exact h.getLoop c (by omega)
  unfold TcpServer.newConnection
  dsimp only
  rw [hnext]
  exact hentered.same (SamePlaces.runInLoop _ _ _ _ (SamePlaces.connectionEstablished _ _ _))

theorem Dealt.next {n : Nat} {s : TcpServer} (h : s.Dealt n) (l : ServerStep) :
    (s.next l).Dealt n := by
  cases l with
  | newConnection fd writeComplete => exact h.newConnection fd writeComplete
  | event c event => exact h.same (SamePlaces.handleEvent s c event)
  | swapFunctors l => exact h.same ⟨rfl, rfl, rfl, fun _ => rfl⟩
  | runFunctor l w => exact h.same (SamePlaces.runFunctor s l w)
  | batchDone l => exact h.same ⟨rfl, rfl, rfl, fun _ => rfl⟩
  | sendCheck t c message => exact h.same (SamePlaces.sendCheck s t c message)
  | sendPush t c message => exact h.same ⟨rfl, rfl, rfl, fun _ => rfl⟩

theorem dealt_run (name : String) (n : Nat) (steps : List ServerStep) :
    (tcpServer.run (new name n) steps).Dealt n := by
  refine tcpServer.invariant_run (Dealt n) (fun s l h _ => h.next l) ?_
    (tcpServer.along_true (new name n) steps)
  refine ⟨rfl, fun hn => (Nat.zero_mod n).symm, fun c hc => ?_⟩
  exact absurd hc (Nat.not_lt_zero c)

/-- **Balance**: with `n` I/O loops, whatever happens to the connections,
    the loop `i + 1` has every `n`th of them from the `i`th on, no loop has
    two more than another, and the base loop has none; without I/O loops
    it has them all. -/
theorem tcpServer_balance (name : String) (n : Nat) (steps : List ServerStep) :
    let s := tcpServer.run (new name n) steps
    (n = 0 → s.connsOf 0 = List.range s.created) ∧
      (0 < n → s.connsOf 0 = []) ∧
      (∀ i < n, s.connsOf (i + 1) = RoundRobin.dealt n i s.created) ∧
      ∀ i < n, ∀ j < n, (s.connsOf (i + 1)).length ≤ (s.connsOf (j + 1)).length + 1 := by
  intro s
  have h : s.Dealt n := dealt_run name n steps
  have hconns : 0 < n → ∀ i, s.connsOf (i + 1) = RoundRobin.dealt n i s.created := by
    intro hn i
    refine List.filter_congr fun c hc => ?_
    rw [h.getLoop c (List.mem_range.mp hc), if_neg (by omega)]
    simp
  refine ⟨fun hn => ?_, fun hn => ?_, fun i hi => hconns (by omega) i, fun i hi j hj => ?_⟩
  · refine List.filter_eq_self.mpr fun c hc => ?_
    rw [h.getLoop c (List.mem_range.mp hc), if_pos hn]
    rfl
  · refine List.filter_eq_nil_iff.mpr fun c hc => ?_
    rw [h.getLoop c (List.mem_range.mp hc), if_neg (by omega)]
    simp
  · rw [hconns (by omega) i, hconns (by omega) j]
    exact RoundRobin.length_dealt_le hi hj

end TcpServer

end TinyWS
