import TinyWS.Net.TcpServer

/-! # Server Teardown

    `~TcpServer` runs in the base loop's thread: it visits every connection
    and passes a `connectionDestroyed` that is bound to the raw pointer to
    its loop.  Then the members are destroyed, `connectionMap_` among them.
    The I/O loops go on in between and afterwards, the base loop only
    afterwards.

    A connection of the base loop is destroyed during its visit.  For one
    of an I/O loop nothing makes the map wait.  And `connectionDestroyed`
    disables the channel only in state `kConnected`, so a half-closed
    connection is removed with its events still on. -/

namespace TinyWS

open Std

/-! ## The model -/

/-- The server in its destructor. -/
structure Teardown extends TcpServer where
  /-- The connections the loop has still to visit. -/
  rest : List ConnPtr
  membersDestroyed : Bool

inductive TeardownStep where
  /-- The next turn of the loop in `~TcpServer`. -/
  | visit
  | destroyMembers
  | swapFunctors (l : LoopId)
  | runFunctor (l : LoopId) (w : WriteResult)
  | batchDone (l : LoopId)
  deriving DecidableEq, Repr

namespace TcpServer

/-- The connections of the map, in its order. -/
def connections (s : TcpServer) : List ConnPtr := s.connectionMap_.toList.map (·.2)

end TcpServer

namespace Teardown

/-- `~TcpServer` is entered. -/
def start (s : TcpServer) : Teardown := ⟨s, s.connections, false⟩

def visit (t : Teardown) : Teardown :=
  match t.rest with
  | [] => t
  | c :: rest =>
      ⟨t.runInLoop 0 (t.getLoop c) (.connectionDestroyedRaw c) fun s =>
        (s.deref (.connectionDestroyedRaw c) c).connectionDestroyed 0 c, rest, t.membersDestroyed⟩

def destroyMembers (t : Teardown) : Teardown :=
  { t with connectionMap_ := ∅, membersDestroyed := true }

/-- A step of a loop. -/
def inLoop (t : Teardown) (s : TcpServer) : Teardown := ⟨s, t.rest, t.membersDestroyed⟩

def next (t : Teardown) : TeardownStep → Teardown
  | .visit => t.visit
  | .destroyMembers => t.destroyMembers
  | .swapFunctors l => t.inLoop (t.toTcpServer.swapFunctors l)
  | .runFunctor l w => t.inLoop (t.toTcpServer.runFunctor l w)
  | .batchDone l => t.inLoop (t.toTcpServer.batchDone l)

/-- The base loop has to wait for the destructor. -/
def loopRuns (t : Teardown) (l : LoopId) : Bool := l != 0 || t.membersDestroyed

def guard (t : Teardown) : TeardownStep → Prop
  | .visit => t.rest ≠ []
  | .destroyMembers => t.rest = [] ∧ t.membersDestroyed = false
  | .swapFunctors l => t.loopRuns l = true ∧ t.toTcpServer.guard (.swapFunctors l)
  | .runFunctor l w => t.loopRuns l = true ∧ t.toTcpServer.guard (.runFunctor l w)
  | .batchDone l => t.loopRuns l = true ∧ t.toTcpServer.guard (.batchDone l)

instance (t : Teardown) : DecidablePred t.guard
  | .visit => inferInstanceAs (Decidable (t.rest ≠ []))
  | .destroyMembers => inferInstanceAs (Decidable (_ ∧ _))
  | .swapFunctors _ => inferInstanceAs (Decidable (_ ∧ _))
  | .runFunctor _ _ => inferInstanceAs (Decidable (_ ∧ _))
  | .batchDone _ => inferInstanceAs (Decidable (_ ∧ _))

end Teardown

/-- The destructor and the loops, in any interleaving. -/
def teardown : Machine Teardown TeardownStep where
  guard := Teardown.guard
  next := Teardown.next

instance (t : Teardown) (l : TeardownStep) : Decidable (teardown.guard t l) :=
  inferInstanceAs (Decidable (t.guard l))

/-! ## The specification -/

/-- A functor that a connection queued in its own loop. -/
def ServerFunctor.ownIn (f : ServerFunctor) (s : TcpServer) (l : LoopId) : Bool :=
  match f with
  | .conn c _ => s.getLoop c == l
  | _ => false

namespace TcpServer

/-- A connection in the map, between the two ends of its life. -/
structure Live (s : TcpServer) (name : String) (c : ConnPtr) : Prop where
  name : (s.conns c).name_ = name
  loop : s.getLoop c ≤ s.numThreads
  state : (s.conns c).state_ = .kConnected ∨ (s.conns c).state_ = .kDisconnecting
  reading : (s.conns c).channel_.isNoneEvent = false
  life : s.life c = [.connectionEstablished (s.getLoop c)]
  removeAsserts : (s.conns c).removeAsserts = []

/-- Any set of live connections, which may have any functors of their own
    in their queues: what the server owns when its destructor is entered. -/
structure Settled (s : TcpServer) : Prop where
  live : ∀ p ∈ s.connectionMap_.toList, s.Live p.1 p.2
  own : ∀ l, l ≤ s.numThreads → ∀ f ∈ (s.loops l).all, f.ownIn s l = true
  sending : s.sending = []
  dangling : s.dangling = []

instance (s : TcpServer) (name : String) (c : ConnPtr) : Decidable (s.Live name c) :=
  decidable_of_iff ((s.conns c).name_ = name ∧ s.getLoop c ≤ s.numThreads ∧
    ((s.conns c).state_ = .kConnected ∨ (s.conns c).state_ = .kDisconnecting) ∧
    (s.conns c).channel_.isNoneEvent = false ∧
    s.life c = [.connectionEstablished (s.getLoop c)] ∧ (s.conns c).removeAsserts = [])
    ⟨fun ⟨h₁, h₂, h₃, h₄, h₅, h₆⟩ => ⟨h₁, h₂, h₃, h₄, h₅, h₆⟩,
      fun h => ⟨h.name, h.loop, h.state, h.reading, h.life, h.removeAsserts⟩⟩

instance (s : TcpServer) : Decidable s.Settled :=
  decidable_of_iff ((∀ p ∈ s.connectionMap_.toList, s.Live p.1 p.2) ∧
    (∀ l, l ≤ s.numThreads → ∀ f ∈ (s.loops l).all, f.ownIn s l = true) ∧
    s.sending = [] ∧ s.dangling = [])
    ⟨fun ⟨h₁, h₂, h₃, h₄⟩ => ⟨h₁, h₂, h₃, h₄⟩,
      fun h => ⟨h.live, h.own, h.sending, h.dangling⟩⟩

/-- How often `connectionDestroyed` has run. -/
def ends (s : TcpServer) (c : ConnPtr) : Nat :=
  (s.life c).countP fun
    | .connectionDestroyed _ => true
    | .connectionEstablished _ | .handleClose => false

end TcpServer

namespace Teardown

/-- The destructor has returned and no loop has anything left to do. -/
def Finished (t : Teardown) : Prop :=
  t.membersDestroyed = true ∧ ∀ l, l ≤ t.numThreads → t.todo l = []

/-- What is promised of the connections of `s`. -/
structure TornDown (s : TcpServer) (t : Teardown) : Prop where
  /-- `connectionDestroyed` runs once, -/
  once : ∀ c ∈ s.connections, t.ends c ≤ 1 ∧ (t.Finished → t.ends c = 1)
  /-- on an object that exists, -/
  existing : ∀ c, .connectionDestroyedRaw c ∉ t.dangling
  /-- the assert in `Channel::remove` holds, -/
  removeAsserts : ∀ c ∈ s.connections, ∀ b ∈ (t.conns c).removeAsserts, b = true
  /-- and so does the assert in `~TcpConnection`. -/
  destructor : ∀ c ∈ s.connections, t.held c = false → (t.conns c).state_ = .kDisconnected

end Teardown

/-! ## Functors and objects -/

theorem Endpoint.connectionDestroyed_connected {e : Endpoint} (h : e.state_ = .kConnected) :
    e.connectionDestroyed.state_ = .kDisconnected ∧
      e.connectionDestroyed.removeAsserts = e.removeAsserts ++ [true] := by
  unfold Endpoint.connectionDestroyed
  rw [if_pos h]
  refine ⟨rfl, ?_⟩
  show e.removeAsserts ++ [(e.channel_.disableAll e.epoll_).2.isNoneEvent] = _
  rw [Channel.isNoneEvent_disableAll]

/-- Without the state the events stay as they are. -/
theorem Endpoint.connectionDestroyed_other {e : Endpoint} (h : e.state_ ≠ .kConnected) :
    e.connectionDestroyed.removeAsserts = e.removeAsserts ++ [e.channel_.isNoneEvent] := by
  unfold Endpoint.connectionDestroyed
  rw [if_neg h]
  rfl

/-- A failed `::write` completes nothing. -/
theorem Endpoint.pendingFunctors_failed (e : Endpoint) (f : ConnFunctor) :
    (e.runFunctor f (.failed true)).pendingFunctors_ = e.pendingFunctors_ := by
  cases f with
  | sendInLoop message =>
    show (e.sendInLoop message (.failed true)).pendingFunctors_ = _
    simp only [Endpoint.sendInLoop, WriteResult.accepted, reduceCtorEq, if_false]
    split_ifs <;> rfl
  | shutdownInLoop =>
    show e.shutdownInLoop.pendingFunctors_ = _
    unfold Endpoint.shutdownInLoop
    split
    · rfl
    · rfl
  | writeComplete => rfl

namespace TcpServer

theorem all_withConn (s : TcpServer) (c : ConnPtr) (f : Endpoint → Endpoint) (l : LoopId) :
    ((s.withConn c f).loops l).all =
      if l = s.getLoop c then
        (s.loops l).all ++ (f (s.endpoint c)).pendingFunctors_.map (.conn c)
      else (s.loops l).all := by
  show IoLoop.all (if l = s.getLoop c then _ else s.loops l) = _
  split
  · next hl =>
    subst hl
    simp [IoLoop.all, IoLoop.todo, IoLoop.functors, IoLoop.called]
  · rfl

theorem all_connectionDestroyed (s : TcpServer) (c : ConnPtr) (k l : LoopId) :
    ((s.connectionDestroyed k c).loops l).all = (s.loops l).all := by
  show ((s.withConn c Endpoint.connectionDestroyed).loops l).all = _
  rw [all_withConn, Endpoint.pendingFunctors_connectionDestroyed]
  split
  · exact List.append_nil _
  · rfl

theorem all_queueInLoop (s : TcpServer) (l k : LoopId) (f : ServerFunctor) :
    ((s.queueInLoop l f).loops k).all =
      if k = l then (s.loops k).all ++ [f] else (s.loops k).all := by
  show IoLoop.all (if k = l then _ else s.loops k) = _
  split
  · next hk =>
    subst hk
    simp [IoLoop.all, IoLoop.todo, IoLoop.functors, IoLoop.called]
  · rfl

/-- Calling a functor does not release it. -/
theorem all_called {s : TcpServer} {l : LoopId} {called fs : List ServerFunctor}
    {f : ServerFunctor} (hbatch : (s.loops l).batch = some ⟨called, f :: fs⟩) (k : LoopId) :
    ((s.setBatch l (some ⟨called ++ [f], fs⟩)).loops k).all = (s.loops k).all := by
  apply frame_setLoop IoLoop.all
  simp [IoLoop.all, IoLoop.todo, IoLoop.functors, IoLoop.called, hbatch]

theorem all_swapFunctors {s : TcpServer} {l : LoopId}
    (hidle : (s.loops l).callingPendingFuntors_ = false) (k : LoopId) :
    ((s.swapFunctors l).loops k).all = (s.loops k).all := by
  have hnone : (s.loops l).batch = none := by simpa [IoLoop.callingPendingFuntors_] using hidle
  apply frame_setLoop IoLoop.all
  simp [IoLoop.all, IoLoop.todo, IoLoop.functors, IoLoop.called, hnone]

theorem all_batchDone (s : TcpServer) (l k : LoopId) :
    ((s.batchDone l).loops k).all.Sublist (s.loops k).all := by
  show (IoLoop.all (if k = l then _ else s.loops k)).Sublist _
  split
  · next hk =>
    subst hk
    exact ((List.sublist_append_right _ _).trans (List.sublist_append_right _ _))
  · exact List.Sublist.refl _

/-- A connection of the map is held by it. -/
theorem held_of_mem_connections {s : TcpServer} {c : ConnPtr} (h : c ∈ s.connections) :
    s.held c = true := by
  obtain ⟨p, hp, rfl⟩ := List.mem_map.mp h
  have hany : s.connectionMap_.toList.any (·.2 == p.2) = true :=
    List.any_eq_true.mpr ⟨p, hp, beq_self_eq_true _⟩
  simp [held, hany]

/-- Without the map, a functor or a thread nobody holds it. -/
theorem not_held {s : TcpServer} {c : ConnPtr} (hmap : s.connectionMap_ = ∅)
    (hall : ∀ l, l ≤ s.numThreads → ∀ f ∈ (s.loops l).all, f.holds ≠ some c)
    (hsending : s.sending = []) : s.held c = false := by
  have hloops : (List.range (s.numThreads + 1)).any
      (fun l => (s.loops l).all.any (·.holds == some c)) = false := by
    rw [List.any_eq_false]
    intro l hl hany
    obtain ⟨f, hf, heq⟩ := List.any_eq_true.mp hany
    exact hall l (Nat.le_of_lt_succ (List.mem_range.mp hl)) f hf (beq_iff_eq.mp heq)
  simp [held, hmap, hloops, hsending]

/-- A functor that a connection queued for itself, and in its loop. -/
theorem exists_of_ownIn {s : TcpServer} {l : LoopId} {f : ServerFunctor}
    (h : f.ownIn s l = true) : ∃ c g, f = .conn c g ∧ s.getLoop c = l := by
  cases f with
  | conn c g => exact ⟨c, g, rfl, beq_iff_eq.mp h⟩
  | connectionEstablished c => cases h
  | removeConnectionInLoop c => cases h
  | connectionDestroyed c => cases h
  | connectionDestroyedRaw c => cases h

/-- Every connection is in the map once. -/
theorem nodup_connections {s : TcpServer} (h : s.Settled) : s.connections.Nodup := by
  refine List.Nodup.map_on ?_ ?_
  · intro p hp q hq heq
    have hname : p.1 = q.1 := by
      rw [← (h.live p hp).name, ← (h.live q hq).name, heq]
    exact Prod.ext hname heq
  · have hkeys := s.connectionMap_.distinct_keys_toList
    exact hkeys.imp fun hne heq => hne (by rw [heq]; exact ReflCmp.compare_self)

theorem exists_live {s : TcpServer} (h : s.Settled) {c : ConnPtr} (hc : c ∈ s.connections) :
    ∃ name, s.Live name c := by
  obtain ⟨p, hp, rfl⟩ := List.mem_map.mp hc
  exact ⟨p.1, h.live p hp⟩

end TcpServer

namespace Teardown

/-- What a visit leaves of the state around its connection. -/
structure Visits (t : Teardown) (c : ConnPtr) (rest : List ConnPtr) (t' : Teardown) : Prop where
  rest : t'.rest = rest
  membersDestroyed : t'.membersDestroyed = t.membersDestroyed
  connectionMap_ : t'.connectionMap_ = t.connectionMap_
  numThreads : t'.numThreads = t.numThreads
  sending : t'.sending = t.sending
  conns : ∀ d, d ≠ c → t'.conns d = t.conns d
  ends : ∀ d, d ≠ c → t'.ends d = t.ends d
  getLoop : ∀ d, t'.getLoop d = t.getLoop d

/-- In the base loop the connection is destroyed at once. -/
theorem visit_base {t : Teardown} {c : ConnPtr} {rest : List ConnPtr} (hrest : t.rest = c :: rest)
    (hloop : t.getLoop c = 0) :
    t.Visits c rest t.visit ∧
      t.visit.conns c = (t.endpoint c).connectionDestroyed.toTcpConnection ∧
      t.visit.ends c = t.ends c + 1 ∧ (∀ l, (t.visit.loops l).all = (t.loops l).all) ∧
      t.visit.dangling =
        if t.held c then t.dangling else t.dangling ++ [.connectionDestroyedRaw c] := by
  have hvisit : t.visit = ⟨(t.deref (.connectionDestroyedRaw c) c).connectionDestroyed 0 c, rest,
      t.membersDestroyed⟩ := by
    unfold visit
    rw [hrest]
    dsimp only
    rw [TcpServer.runInLoop, if_pos hloop.symm]
  have hself : ((t.deref (.connectionDestroyedRaw c) c).connectionDestroyed 0 c).conns c =
      (t.endpoint c).connectionDestroyed.toTcpConnection :=
    TcpServer.conns_withConn_self _ c Endpoint.connectionDestroyed
  have hlife : ∀ d, ((t.deref (.connectionDestroyedRaw c) c).connectionDestroyed 0 c).ends d =
      List.countP _ (if d = c then t.life d ++ [.connectionDestroyed 0] else t.life d) :=
    fun _ => rfl
  rw [hvisit]
  refine ⟨⟨rfl, rfl, rfl, rfl, rfl, fun d hd => TcpServer.conns_withConn_ne _ hd _, ?_, ?_⟩, hself,
    ?_, fun l => TcpServer.all_connectionDestroyed _ c 0 l, rfl⟩
  · intro d hd
    rw [hlife, if_neg hd]
    rfl
  · intro d
    exact TcpServer.getLoop_withConn TcpServer.keeps_connectionDestroyed _ c d
  · rw [hlife, if_pos rfl, List.countP_append]
    rfl

/-- In another loop a functor is queued, with nothing to hold its object. -/
theorem visit_io {t : Teardown} {c : ConnPtr} {rest : List ConnPtr} (hrest : t.rest = c :: rest)
    (hloop : t.getLoop c ≠ 0) :
    t.Visits c rest t.visit ∧ t.visit.conns c = t.conns c ∧
      ∀ l, (t.visit.loops l).all =
        if l = t.getLoop c then (t.loops l).all ++ [.connectionDestroyedRaw c]
        else (t.loops l).all := by
  have hvisit : t.visit = ⟨t.queueInLoop (t.getLoop c) (.connectionDestroyedRaw c), rest,
      t.membersDestroyed⟩ := by
    unfold visit
    rw [hrest]
    dsimp only
    rw [TcpServer.runInLoop, if_neg (Ne.symm hloop)]
  rw [hvisit]
  exact ⟨⟨rfl, rfl, rfl, rfl, rfl, fun _ _ => rfl, fun _ _ => rfl, fun _ => rfl⟩, rfl,
    fun l => TcpServer.all_queueInLoop _ _ l _⟩

/-! ## Teardown in order -/

/-- The state of a teardown in which every connection is destroyed during
    its visit. -/
structure Orderly (s : TcpServer) (t : Teardown) : Prop where
  functors : ∀ l, l ≤ t.numThreads → ∀ f ∈ (t.loops l).all, ∃ c g, f = .conn c g
  existing : ∀ c, .connectionDestroyedRaw c ∉ t.dangling
  nodup : t.rest.Nodup
  mapped : t.membersDestroyed = false → t.connectionMap_ = s.connectionMap_
  finished : t.membersDestroyed = true → t.rest = []
  waiting : ∀ c ∈ t.rest, c ∈ s.connections ∧ t.getLoop c = 0 ∧
    (t.conns c).state_ = .kConnected ∧ (t.conns c).removeAsserts = [] ∧ t.ends c = 0
  visited : ∀ c ∈ s.connections, c ∉ t.rest →
    (t.conns c).state_ = .kDisconnected ∧ (t.conns c).removeAsserts = [true] ∧ t.ends c = 1

theorem Orderly.held {s : TcpServer} {t : Teardown} (h : Orderly s t) {c : ConnPtr}
    (hc : c ∈ t.rest) : t.held c = true := by
  have hmap : t.membersDestroyed = false := by
    by_contra hne
    rw [h.finished (by simpa using hne)] at hc
    cases hc
  apply TcpServer.held_of_mem_connections
  rw [TcpServer.connections, h.mapped hmap]
  exact (h.waiting c hc).1

theorem tornDown_of_orderly {s : TcpServer} {t : Teardown} (h : Orderly s t) : TornDown s t := by
  refine ⟨?_, h.existing, ?_, ?_⟩
  · intro c hc
    by_cases hrest : c ∈ t.rest
    · -- not yet, but then the destructor has not returned either
      obtain ⟨-, -, -, -, hends⟩ := h.waiting c hrest
      refine ⟨by omega, ?_⟩
      rintro ⟨hdone, -⟩
      rw [h.finished hdone] at hrest
      cases hrest
    · obtain ⟨-, -, hends⟩ := h.visited c hc hrest
      exact ⟨by omega, fun _ => hends⟩
  · intro c hc b hb
    by_cases hrest : c ∈ t.rest
    · rw [(h.waiting c hrest).2.2.2.1] at hb
      cases hb
    · rw [(h.visited c hc hrest).2.1] at hb
      exact List.mem_singleton.mp hb
  · -- before its visit the map holds it
    intro c hc hfree
    have hrest : c ∉ t.rest := by
      intro hrest
      rw [h.held hrest] at hfree
      cases hfree
    exact (h.visited c hc hrest).1

theorem orderly_start {s : TcpServer} (h : s.Settled)
    (hcond : ∀ c ∈ s.connections, s.getLoop c = 0 ∧ (s.conns c).state_ = .kConnected) :
    Orderly s (start s) := by
  refine ⟨?_, ?_, TcpServer.nodup_connections h, fun _ => rfl, ?_, ?_, ?_⟩
  · intro l hl f hf
    obtain ⟨c, g, heq, -⟩ := TcpServer.exists_of_ownIn (h.own l hl f hf)
    exact ⟨c, g, heq⟩
  · -- no raw functor has run
    intro c hmem
    rw [show (start s).dangling = [] from h.dangling] at hmem
    cases hmem
  · intro hdone
    cases hdone
  · -- all connections are still to be visited
    intro c hc
    obtain ⟨hloop, hstate⟩ := hcond c hc
    obtain ⟨name, hlive⟩ := TcpServer.exists_live h hc
    refine ⟨hc, hloop, hstate, hlive.removeAsserts, ?_⟩
    show s.ends c = 0
    rw [TcpServer.ends, hlive.life]
    rfl
  · intro c hc hrest
    exact absurd hc hrest

/-- Steps of the loops, which do not end a connection. -/
theorem Orderly.inLoop {s : TcpServer} {t : Teardown} (h : Orderly s t) {s' : TcpServer}
    (hfunctors : ∀ l, l ≤ s'.numThreads → ∀ f ∈ (s'.loops l).all, ∃ c g, f = .conn c g)
    (hexisting : ∀ c, .connectionDestroyedRaw c ∉ s'.dangling)
    (hmap : s'.connectionMap_ = t.connectionMap_) (hlife : s'.life = t.life)
    (hconns : ∀ c, (s'.conns c).loop_ = (t.conns c).loop_ ∧
      (s'.conns c).state_ = (t.conns c).state_ ∧
      (s'.conns c).removeAsserts = (t.conns c).removeAsserts) : Orderly s (t.inLoop s') := by
  have hends : ∀ c, s'.ends c = t.ends c := by
    intro c
    rw [TcpServer.ends, TcpServer.ends, hlife]
  refine ⟨hfunctors, hexisting, h.nodup, fun hno => hmap.trans (h.mapped hno), h.finished, ?_, ?_⟩
  · intro c hc
    obtain ⟨hmem, hloop, hstate, hasserts, hend⟩ := h.waiting c hc
    obtain ⟨hloop', hstate', hasserts'⟩ := hconns c
    exact ⟨hmem, hloop'.trans hloop, hstate'.trans hstate, hasserts'.trans hasserts,
      (hends c).trans hend⟩
  · intro c hc hrest
    obtain ⟨hstate, hasserts, hend⟩ := h.visited c hc hrest
    obtain ⟨-, hstate', hasserts'⟩ := hconns c
    exact ⟨hstate'.trans hstate, hasserts'.trans hasserts, (hends c).trans hend⟩

/-- What `deref` notes is the functor it was called for. -/
theorem not_raw_deref {u : TcpServer} {c : ConnPtr} {g : ConnFunctor}
    (h : ∀ d, .connectionDestroyedRaw d ∉ u.dangling) :
    ∀ d, .connectionDestroyedRaw d ∉ (u.deref (.conn c g) c).dangling := by
  intro d hmem
  have hcases : .connectionDestroyedRaw d ∈
    if u.held c then u.dangling else u.dangling ++ [.conn c g] := hmem
  split at hcases
  · exact h d hcases
  · rcases List.mem_append.mp hcases with hcases | hcases
    · exact h d hcases
    · cases List.mem_singleton.mp hcases

/-- A functor of a connection runs, with or without that note. -/
theorem Orderly.withConn {s : TcpServer} {t : Teardown} (h : Orderly s t) {u : TcpServer}
    {c : ConnPtr} {g : ConnFunctor} {w : WriteResult}
    (hthreads : u.numThreads = t.numThreads) (hmap : u.connectionMap_ = t.connectionMap_)
    (hlife : u.life = t.life) (hconns : u.conns = t.conns)
    (hloops : ∀ k, (u.loops k).all = (t.loops k).all)
    (hdangling : ∀ d, .connectionDestroyedRaw d ∉ u.dangling) :
    Orderly s (t.inLoop (u.withConn c (·.runFunctor g w))) := by
  refine h.inLoop ?_ hdangling hmap hlife ?_
  · -- it queues nothing but functors of its connection
    intro k hk x hx
    rw [TcpServer.all_withConn, hloops] at hx
    split at hx
    · rcases List.mem_append.mp hx with hx | hx
      · exact h.functors k (hthreads ▸ hk) x hx
      · obtain ⟨y, -, rfl⟩ := List.mem_map.mp hx
        exact ⟨c, y, rfl⟩
    · exact h.functors k (hthreads ▸ hk) x hx
  · -- and does not end it
    intro d
    rw [← hconns]
    by_cases hd : d = c
    · subst hd
      have hsame := Endpoint.sameLife_runFunctor (u.endpoint d) g w
      rw [TcpServer.conns_withConn_self]
      exact ⟨hsame.loop_, hsame.state_, hsame.removeAsserts⟩
    · rw [TcpServer.conns_withConn_ne u hd]
      exact ⟨rfl, rfl, rfl⟩

theorem orderly_runFunctor {s : TcpServer} {t : Teardown} (h : Orderly s t) {l : LoopId}
    (hl : l ≤ t.numThreads) (w : WriteResult) :
    Orderly s (t.inLoop (t.toTcpServer.runFunctor l w)) := by
  unfold TcpServer.runFunctor
  split
  · next called f fs hbatch =>
    have hall := TcpServer.all_called hbatch
    obtain ⟨c, g, rfl⟩ := h.functors l hl f (by
      simp [IoLoop.all, IoLoop.todo, IoLoop.functors, hbatch])
    show Orderly s (t.inLoop ((if g.raw then _ else _ : TcpServer).withConn c (·.runFunctor g w)))
    split
    · exact h.withConn rfl rfl rfl rfl hall (not_raw_deref h.existing)
    · exact h.withConn rfl rfl rfl rfl hall h.existing
  · exact h.inLoop h.functors h.existing rfl rfl fun _ => ⟨rfl, rfl, rfl⟩

/-- The visit of a connection destroys it. -/
theorem orderly_visit {s : TcpServer} {t : Teardown} (h : Orderly s t) (hne : t.rest ≠ []) :
    Orderly s t.visit := by
  obtain ⟨c, rest, hrest⟩ := List.exists_cons_of_ne_nil hne
  have hmem : c ∈ t.rest := by
    rw [hrest]
    exact List.mem_cons_self
  obtain ⟨-, hloop, hstate, hasserts, hends⟩ := h.waiting c hmem
  obtain ⟨hvisits, hself, hends', hall, hdangling⟩ := visit_base hrest hloop
  obtain ⟨hstate', hasserts'⟩ := Endpoint.connectionDestroyed_connected (e := t.endpoint c) hstate
  have hnodup := h.nodup
  rw [hrest] at hnodup
  obtain ⟨hnot, hnodup⟩ := List.nodup_cons.mp hnodup
  rw [if_pos (h.held hmem)] at hdangling
  refine ⟨?_, ?_, ?_, ?_, ?_, ?_, ?_⟩
  · intro l hl f hf
    rw [hall] at hf
    exact h.functors l (hvisits.numThreads ▸ hl) f hf
  · -- the object was there
    intro d
    rw [hdangling]
    exact h.existing d
  · rw [hvisits.rest]
    exact hnodup
  · intro hno
    exact hvisits.connectionMap_.trans (h.mapped (hvisits.membersDestroyed ▸ hno))
  · -- a visit is made only before the members are destroyed
    intro hdone
    rw [h.finished (hvisits.membersDestroyed ▸ hdone)] at hrest
    cases hrest
  · -- the connections behind it are as they were
    intro d hd
    rw [hvisits.rest] at hd
    have hdc : d ≠ c := by
      rintro rfl
      exact hnot hd
    rw [hvisits.conns d hdc, hvisits.ends d hdc, hvisits.getLoop d]
    apply h.waiting d
    rw [hrest]
    exact List.mem_cons_of_mem c hd
  · intro d hd hnotin
    rw [hvisits.rest] at hnotin
    by_cases hdc : d = c
    · -- the connection of this visit
      subst hdc
      rw [hself, hends', hends]
      refine ⟨hstate', ?_, rfl⟩
      rw [hasserts']
      show (t.conns d).removeAsserts ++ [true] = [true]
      rw [hasserts]
      rfl
    · -- one that was visited before
      rw [hvisits.conns d hdc, hvisits.ends d hdc]
      apply h.visited d hd
      rw [hrest]
      exact List.not_mem_cons_of_ne_of_not_mem hdc hnotin

/-- **Step**: the teardown stays in order. -/
theorem orderly_next {s : TcpServer} {t : Teardown} (h : Orderly s t) {l : TeardownStep}
    (hguard : t.guard l) : Orderly s (t.next l) := by
  cases l with
  | visit => exact orderly_visit h hguard
  | destroyMembers =>
    refine ⟨h.functors, h.existing, h.nodup, ?_, fun _ => hguard.1, h.waiting, h.visited⟩
    intro hno
    cases hno
  | swapFunctors l =>
    refine h.inLoop ?_ h.existing rfl rfl fun _ => ⟨rfl, rfl, rfl⟩
    intro k hk f hf
    rw [TcpServer.all_swapFunctors hguard.2.2] at hf
    exact h.functors k hk f hf
  | runFunctor l w => exact orderly_runFunctor h hguard.2.1 w
  | batchDone l =>
    refine h.inLoop ?_ h.existing rfl rfl fun _ => ⟨rfl, rfl, rfl⟩
    intro k hk f hf
    exact h.functors k hk f ((TcpServer.all_batchDone _ l k).subset hf)

/-! ## Teardown out of order -/

/-- A connection that has not been visited is as it was. -/
theorem run_visits {c : ConnPtr} {post : List ConnPtr} (pre : List ConnPtr) :
    ∀ {t : Teardown}, t.rest = pre ++ c :: post → c ∉ pre →
      teardown.Valid t (List.replicate pre.length .visit) ∧
      (teardown.run t (List.replicate pre.length .visit)).rest = c :: post ∧
      (teardown.run t (List.replicate pre.length .visit)).conns c = t.conns c := by
  induction pre with
  | nil =>
    intro t hrest _
    exact ⟨trivial, hrest, rfl⟩
  | cons d pre ih =>
    intro t hrest hnot
    rw [List.mem_cons, not_or] at hnot
    have hvisits : t.Visits d (pre ++ c :: post) t.visit := by
      by_cases hloop : t.getLoop d = 0
      · exact (visit_base hrest hloop).1
      · exact (visit_io hrest hloop).1
    obtain ⟨hvalid, hrest', hconns⟩ := ih hvisits.rest hnot.2
    refine ⟨⟨?_, hvalid⟩, hrest', hconns.trans (hvisits.conns c hnot.1)⟩
    show t.rest ≠ []
    rw [hrest]
    simp

/-- **A half-closed connection of the base loop**: its visit removes a
    channel that is still reading. -/
theorem not_tornDown_halfClosed {s : TcpServer} (h : s.Settled) {c : ConnPtr}
    (hc : c ∈ s.connections) (hloop : s.getLoop c = 0) (hstate : (s.conns c).state_ ≠ .kConnected) :
    ∃ steps, teardown.Valid (start s) steps ∧ ¬ TornDown s (teardown.run (start s) steps) := by
  -- visit the connections in front of it first
  obtain ⟨pre, post, hsplit⟩ := List.append_of_mem hc
  have hnodup := TcpServer.nodup_connections h
  rw [hsplit] at hnodup
  have hnot : c ∉ pre := by
    intro hmem
    exact (List.nodup_append.mp hnodup).2.2 c hmem c List.mem_cons_self rfl
  obtain ⟨hvalid, hrest, hconns⟩ := run_visits pre (t := start s) hsplit hnot
  have hconns' : (teardown.run (start s) (List.replicate pre.length .visit)).conns c =
      s.conns c := hconns
  have hguard : teardown.guard (teardown.run (start s) (List.replicate pre.length .visit)) .visit := by
    show _ ≠ []
    rw [hrest]
    simp
  refine ⟨List.replicate pre.length .visit ++ [.visit],
    (teardown.along_append _ _ _).mpr ⟨hvalid, hguard, trivial⟩, fun htorn => ?_⟩
  rw [teardown.run_append] at htorn
  generalize teardown.run (start s) (List.replicate pre.length .visit) = t at *
  have hbase : t.getLoop c = 0 := by
    rw [TcpServer.getLoop, hconns']
    exact hloop
  -- its own visit fails the assert
  obtain ⟨-, hself, -⟩ := visit_base hrest hbase
  have hasserts := htorn.removeAsserts c hc
  obtain ⟨name, hlive⟩ := TcpServer.exists_live h hc
  have hstate' : (t.endpoint c).state_ ≠ .kConnected := by
    show (t.conns c).state_ ≠ _
    rw [hconns']
    exact hstate
  have hfalse : false ∈ (t.visit.conns c).removeAsserts := by
    rw [hself, Endpoint.connectionDestroyed_other hstate']
    show false ∈ (t.conns c).removeAsserts ++ [(t.conns c).channel_.isNoneEvent]
    rw [hconns', hlive.reading]
    simp
  exact Bool.false_ne_true (hasserts false hfalse)

/-! ### The functors that were queued before -/

/-- What steps of the loop `l` leave of the state. -/
structure Calm (l : LoopId) (t t' : Teardown) : Prop where
  loops : ∀ k, k ≠ l → t'.loops k = t.loops k
  state : ∀ c, (t'.conns c).state_ = (t.conns c).state_
  getLoop : ∀ c, t'.getLoop c = t.getLoop c
  rest : t'.rest = t.rest
  membersDestroyed : t'.membersDestroyed = t.membersDestroyed
  numThreads : t'.numThreads = t.numThreads
  sending : t'.sending = t.sending

theorem Calm.refl (l : LoopId) (t : Teardown) : Calm l t t :=
  ⟨fun _ _ => rfl, fun _ => rfl, fun _ => rfl, rfl, rfl, rfl, rfl⟩

theorem Calm.trans {l : LoopId} {t t' t'' : Teardown} (h : Calm l t t') (h' : Calm l t' t'') :
    Calm l t t'' :=
  ⟨fun k hk => (h'.loops k hk).trans (h.loops k hk), fun c => (h'.state c).trans (h.state c),
    fun c => (h'.getLoop c).trans (h.getLoop c), h'.rest.trans h.rest,
    h'.membersDestroyed.trans h.membersDestroyed, h'.numThreads.trans h.numThreads,
    h'.sending.trans h.sending⟩

theorem ownIn_congr {s s' : TcpServer} (hloop : ∀ c, s'.getLoop c = s.getLoop c)
    (f : ServerFunctor) (l : LoopId) : f.ownIn s' l = f.ownIn s l := by
  cases f with
  | conn c g =>
    show (s'.getLoop c == l) = (s.getLoop c == l)
    rw [hloop]
  | connectionEstablished c => rfl
  | removeConnectionInLoop c => rfl
  | connectionDestroyed c => rfl
  | connectionDestroyedRaw c => rfl

/-- A step that moves the functors of one loop. -/
theorem calm_setLoop (t : Teardown) (l : LoopId) (io : IoLoop) :
    Calm l t (t.inLoop (t.toTcpServer.setLoop l io)) :=
  ⟨fun _ hk => if_neg hk, fun _ => rfl, fun _ => rfl, rfl, rfl, rfl, rfl⟩

/-- A functor of a connection of this loop, whose `::write` fails. -/
theorem calm_withConn {t : Teardown} {l : LoopId} {u : TcpServer} (hcalm : Calm l t (t.inLoop u))
    {c : ConnPtr} (hloop : u.getLoop c = l) (g : ConnFunctor) :
    Calm l t (t.inLoop (u.withConn c (·.runFunctor g (.failed true)))) ∧
      ((u.withConn c (·.runFunctor g (.failed true))).loops l).batch = (u.loops l).batch ∧
      ((u.withConn c (·.runFunctor g (.failed true))).loops l).pendingFunctors_ =
        (u.loops l).pendingFunctors_ := by
  have hself := u.loops_withConn_self c (·.runFunctor g (.failed true))
  have hsame := Endpoint.sameLife_runFunctor (u.endpoint c) g (.failed true)
  rw [hloop, Endpoint.pendingFunctors_failed] at hself
  rw [hself]
  refine ⟨⟨?_, ?_, ?_, hcalm.rest, hcalm.membersDestroyed, hcalm.numThreads, hcalm.sending⟩, rfl, ?_⟩
  · intro k hk
    have hk' : k ≠ u.getLoop c := by
      rw [hloop]
      exact hk
    exact (u.loops_withConn_ne hk' (·.runFunctor g (.failed true))).trans (hcalm.loops k hk)
  · intro d
    refine Eq.trans ?_ (hcalm.state d)
    show ((u.withConn c (·.runFunctor g (.failed true))).conns d).state_ = (u.conns d).state_
    by_cases hd : d = c
    · subst hd
      rw [TcpServer.conns_withConn_self]
      exact hsame.state_
    · rw [u.conns_withConn_ne hd]
  · intro d
    exact (TcpServer.getLoop_withConn (TcpServer.keeps_runFunctor g _) u c d).trans (hcalm.getLoop d)
  · exact List.append_nil _

/-- The next functor of the batch. -/
theorem calm_runFunctor {t : Teardown} {l : LoopId} {called fs : List ServerFunctor}
    {f : ServerFunctor} (hbatch : (t.loops l).batch = some ⟨called, f :: fs⟩)
    (hown : f.ownIn t.toTcpServer l = true) :
    Calm l t (t.next (.runFunctor l (.failed true))) ∧
      ((t.next (.runFunctor l (.failed true))).loops l).batch = some ⟨called ++ [f], fs⟩ ∧
      ((t.next (.runFunctor l (.failed true))).loops l).pendingFunctors_ =
        (t.loops l).pendingFunctors_ := by
  obtain ⟨c, g, rfl, hloop⟩ := TcpServer.exists_of_ownIn hown
  have hnext : t.next (.runFunctor l (.failed true)) = t.inLoop
      (TcpServer.call (t.setBatch l (some ⟨called ++ [.conn c g], fs⟩)) l (.conn c g)
        (.failed true)) := by
    show t.inLoop (t.toTcpServer.runFunctor l (.failed true)) = _
    unfold TcpServer.runFunctor
    rw [hbatch]
  have hcalm : Calm l t (t.inLoop (t.setBatch l (some ⟨called ++ [.conn c g], fs⟩))) :=
    calm_setLoop t l _
  have hloops : (t.setBatch l (some ⟨called ++ [.conn c g], fs⟩)).loops l =
      { t.loops l with batch := some ⟨called ++ [.conn c g], fs⟩ } := if_pos rfl
  have hqueue : ((t.setBatch l (some ⟨called ++ [.conn c g], fs⟩)).loops l).pendingFunctors_ =
      (t.loops l).pendingFunctors_ := by rw [hloops]
  rw [hnext]
  unfold TcpServer.call
  dsimp only
  split
  · -- `deref` only takes a note
    have hderef : Calm l t
        (t.inLoop (TcpServer.deref (t.setBatch l (some ⟨called ++ [.conn c g], fs⟩)) (.conn c g) c)) :=
      ⟨hcalm.loops, hcalm.state, hcalm.getLoop, rfl, rfl, rfl, rfl⟩
    obtain ⟨hcalm', hbatch', hpending⟩ := calm_withConn hderef hloop g
    exact ⟨hcalm', hbatch'.trans (congrArg _ hloops), hpending.trans hqueue⟩
  · obtain ⟨hcalm', hbatch', hpending⟩ := calm_withConn hcalm hloop g
    exact ⟨hcalm', hbatch'.trans (congrArg _ hloops), hpending.trans hqueue⟩

/-- A loop can run its batch to the end. -/
theorem run_batch {l : LoopId} (hl : l ≠ 0) (fs : List ServerFunctor) :
    ∀ {t : Teardown} {called : List ServerFunctor}, (t.loops l).batch = some ⟨called, fs⟩ →
      l ≤ t.numThreads → (∀ f ∈ fs, f.ownIn t.toTcpServer l = true) →
      teardown.Valid t (List.replicate fs.length (.runFunctor l (.failed true))) ∧
      Calm l t (teardown.run t (List.replicate fs.length (.runFunctor l (.failed true)))) ∧
      (∃ all, ((teardown.run t (List.replicate fs.length (.runFunctor l (.failed true)))).loops
        l).batch = some ⟨all, []⟩) ∧
      ((teardown.run t (List.replicate fs.length (.runFunctor l (.failed true)))).loops
        l).pendingFunctors_ = (t.loops l).pendingFunctors_ := by
  induction fs with
  | nil =>
    intro t called hbatch _ _
    exact ⟨trivial, Calm.refl l t, ⟨called, hbatch⟩, rfl⟩
  | cons f fs ih =>
    intro t called hbatch hthreads hown
    obtain ⟨hcalm, hbatch', hpending⟩ := calm_runFunctor hbatch (hown f List.mem_cons_self)
    have hown' : ∀ g ∈ fs, g.ownIn (t.next (.runFunctor l (.failed true))).toTcpServer l = true := by
      intro g hg
      rw [ownIn_congr hcalm.getLoop]
      exact hown g (List.mem_cons_of_mem f hg)
    obtain ⟨hvalid, hcalm', hdone, hpending'⟩ :=
      ih hbatch' (hcalm.numThreads ▸ hthreads) hown'
    refine ⟨⟨⟨?_, hthreads, ?_, ?_⟩, hvalid⟩, hcalm.trans hcalm', hdone, hpending'.trans hpending⟩
    · simp [loopRuns, hl]
    · simp [IoLoop.callingPendingFuntors_, hbatch]
    · simp [IoLoop.functors, hbatch]

/-- A loop can finish what it is doing. -/
theorem exists_idle {t : Teardown} {l : LoopId} (hl : l ≠ 0) (hthreads : l ≤ t.numThreads)
    (hown : ∀ f ∈ (t.loops l).all, f.ownIn t.toTcpServer l = true) :
    ∃ steps, teardown.Valid t steps ∧ Calm l t (teardown.run t steps) ∧
      ((teardown.run t steps).loops l).batch = none ∧
      ((teardown.run t steps).loops l).pendingFunctors_ = (t.loops l).pendingFunctors_ := by
  cases hbatch : (t.loops l).batch with
  | none => exact ⟨[], trivial, Calm.refl l t, hbatch, rfl⟩
  | some batch =>
    obtain ⟨called, fs⟩ := batch
    have hfs : ∀ f ∈ fs, f.ownIn t.toTcpServer l = true := by
      intro f hf
      apply hown
      simp [IoLoop.all, IoLoop.todo, IoLoop.functors, hbatch, hf]
    obtain ⟨hvalid, hcalm, ⟨all, hdone⟩, hpending⟩ := run_batch hl fs hbatch hthreads hfs
    have hguard : teardown.guard
        (teardown.run t (List.replicate fs.length (.runFunctor l (.failed true)))) (.batchDone l) := by
      refine ⟨?_, hcalm.numThreads.symm ▸ hthreads, ?_, ?_⟩
      · simp [loopRuns, hl]
      · simp [IoLoop.callingPendingFuntors_, hdone]
      · simp [IoLoop.functors, hdone]
    -- the vector is released when all were called
    refine ⟨List.replicate fs.length (.runFunctor l (.failed true)) ++ [.batchDone l],
      (teardown.along_append _ _ _).mpr ⟨hvalid, hguard, trivial⟩, ?_⟩
    rw [teardown.run_append]
    refine ⟨hcalm.trans (calm_setLoop _ l _), ?_, ?_⟩
    · show IoLoop.batch (if l = l then _ else _) = none
      rw [if_pos rfl]
    · refine Eq.trans ?_ hpending
      show IoLoop.pendingFunctors_ (if l = l then _ else _) = _
      rw [if_pos rfl]

theorem all_eq_nil {io : IoLoop} (hbatch : io.batch = none) (hpending : io.pendingFunctors_ = []) :
    io.all = [] := by
  rw [IoLoop.all, IoLoop.todo, IoLoop.called, IoLoop.functors, hbatch, hpending]
  rfl

/-- A loop can run everything that is queued. -/
theorem exists_drained {t : Teardown} {l : LoopId} (hl : l ≠ 0) (hthreads : l ≤ t.numThreads)
    (hown : ∀ f ∈ (t.loops l).all, f.ownIn t.toTcpServer l = true) :
    ∃ steps, teardown.Valid t steps ∧ Calm l t (teardown.run t steps) ∧
      ((teardown.run t steps).loops l).all = [] := by
  obtain ⟨steps, hvalid, hcalm, hbatch, hpending⟩ := exists_idle hl hthreads hown
  have hnumThreads : l ≤ (teardown.run t steps).numThreads := hcalm.numThreads.symm ▸ hthreads
  have hguard : teardown.guard (teardown.run t steps) (.swapFunctors l) := by
    refine ⟨?_, hnumThreads, ?_⟩
    · simp [loopRuns, hl]
    · simp [IoLoop.callingPendingFuntors_, hbatch]
  -- the queue becomes the batch, and the queue is empty
  have hswap : Calm l (teardown.run t steps) ((teardown.run t steps).next (.swapFunctors l)) :=
    calm_setLoop _ l _
  have hloops : ((teardown.run t steps).next (.swapFunctors l)).loops l =
      { (teardown.run t steps).loops l with
        batch := some ⟨[], ((teardown.run t steps).loops l).pendingFunctors_⟩
        pendingFunctors_ := [] } := if_pos rfl
  have hown' : ∀ f ∈ (((teardown.run t steps).next (.swapFunctors l)).loops l).all,
      f.ownIn ((teardown.run t steps).next (.swapFunctors l)).toTcpServer l = true := by
    intro f hf
    have hmem : f ∈ (t.loops l).pendingFunctors_ := by
      rw [← hpending]
      simpa [IoLoop.all, IoLoop.todo, IoLoop.functors, IoLoop.called, hloops] using hf
    rw [ownIn_congr (hcalm.trans hswap).getLoop]
    exact hown f (by simp [IoLoop.all, IoLoop.todo, hmem])
  obtain ⟨steps', hvalid', hcalm', hbatch', hpending'⟩ :=
    exists_idle hl (hswap.numThreads.symm ▸ hnumThreads) hown'
  refine ⟨steps ++ .swapFunctors l :: steps',
    (teardown.along_append _ _ _).mpr ⟨hvalid, hguard, hvalid'⟩, ?_⟩
  rw [teardown.run_append]
  refine ⟨(hcalm.trans hswap).trans hcalm', ?_⟩
  rw [hloops] at hpending'
  exact all_eq_nil hbatch' hpending'

/-! ### Connections of the I/O loops -/

/-- Only the map keeps the connection alive, and it is not down. -/
structure Exposed (c : ConnPtr) (t : Teardown) : Prop where
  loop : t.getLoop c ≠ 0
  state : (t.conns c).state_ ≠ .kDisconnected
  functors : ∀ l, l ≤ t.numThreads → ∀ f ∈ (t.loops l).all, f.holds ≠ some c
  sending : t.sending = []

theorem exposed_visit {c : ConnPtr} {t : Teardown} (h : Exposed c t) {d : ConnPtr}
    {rest : List ConnPtr} (hrest : t.rest = d :: rest) :
    Exposed c t.visit ∧ t.Visits d rest t.visit := by
  by_cases hloop : t.getLoop d = 0
  · obtain ⟨hvisits, -, -, hall, -⟩ := visit_base hrest hloop
    have hcd : c ≠ d := by
      rintro rfl
      exact h.loop hloop
    refine ⟨⟨?_, ?_, ?_, hvisits.sending.trans h.sending⟩, hvisits⟩
    · rw [hvisits.getLoop]
      exact h.loop
    · rw [hvisits.conns c hcd]
      exact h.state
    · intro l hl f hf
      rw [hall] at hf
      exact h.functors l (hvisits.numThreads ▸ hl) f hf
  · obtain ⟨hvisits, hself, hall⟩ := visit_io hrest hloop
    refine ⟨⟨?_, ?_, ?_, hvisits.sending.trans h.sending⟩, hvisits⟩
    · rw [hvisits.getLoop]
      exact h.loop
    · by_cases hcd : c = d
      · subst hcd
        rw [hself]
        exact h.state
      · rw [hvisits.conns c hcd]
        exact h.state
    · intro l hl f hf
      rw [hall] at hf
      split at hf
      · rcases List.mem_append.mp hf with hf | hf
        · exact h.functors l (hvisits.numThreads ▸ hl) f hf
        · rw [List.mem_singleton.mp hf]
          simp [ServerFunctor.holds]
      · exact h.functors l (hvisits.numThreads ▸ hl) f hf

/-- Once its loop has run everything, no functor holds a connection. -/
theorem exposed_of_drained {s : TcpServer} (h : s.Settled) {c : ConnPtr} {name : String}
    (hlive : s.Live name c) (hloop : s.getLoop c ≠ 0) {t : Teardown}
    (hcalm : Calm (s.getLoop c) (start s) t) (hempty : (t.loops (s.getLoop c)).all = []) :
    Exposed c t := by
  refine ⟨?_, ?_, ?_, hcalm.sending.trans h.sending⟩
  · rw [hcalm.getLoop]
    exact hloop
  · rw [hcalm.state]
    show (s.conns c).state_ ≠ _
    rcases hlive.state with hstate | hstate
    · simp [hstate]
    · simp [hstate]
  · intro l hl f hf
    by_cases hlc : l = s.getLoop c
    · subst hlc
      rw [hempty] at hf
      cases hf
    · -- the functors of the other loops are of other connections
      rw [hcalm.loops l hlc] at hf
      obtain ⟨d, g, rfl, hld⟩ := TcpServer.exists_of_ownIn (h.own l (hcalm.numThreads ▸ hl) f hf)
      have hdc : d ≠ c := by
        intro heq
        exact hlc (heq ▸ hld.symm)
      simp only [ServerFunctor.holds]
      split
      · simp
      · simpa using hdc

/-- The destructor can run its loop to the end. -/
theorem exposed_visits {c : ConnPtr} (rest : List ConnPtr) :
    ∀ {t : Teardown}, t.rest = rest → Exposed c t →
      teardown.Valid t (List.replicate rest.length .visit) ∧
      (teardown.run t (List.replicate rest.length .visit)).rest = [] ∧
      (teardown.run t (List.replicate rest.length .visit)).membersDestroyed = t.membersDestroyed ∧
      Exposed c (teardown.run t (List.replicate rest.length .visit)) := by
  induction rest with
  | nil =>
    intro t hrest h
    exact ⟨trivial, hrest, rfl, h⟩
  | cons d rest ih =>
    intro t hrest h
    obtain ⟨h', hvisits⟩ := exposed_visit h hrest
    obtain ⟨hvalid, hrest', hmembers, h''⟩ := ih hvisits.rest h'
    refine ⟨⟨?_, hvalid⟩, hrest', hmembers.trans hvisits.membersDestroyed, h''⟩
    show t.rest ≠ []
    rw [hrest]
    simp

/-- **A connection of an I/O loop**: once that loop is idle, the map can be
    destroyed before the loop runs the new functor. -/
theorem not_tornDown_ioLoop {s : TcpServer} (h : s.Settled) {c : ConnPtr}
    (hc : c ∈ s.connections) (hloop : s.getLoop c ≠ 0) :
    ∃ steps, teardown.Valid (start s) steps ∧ ¬ TornDown s (teardown.run (start s) steps) := by
  obtain ⟨name, hlive⟩ := TcpServer.exists_live h hc
  -- let the loop run what it has, so that no functor holds the connection
  obtain ⟨drain, hvalid, hcalm, hempty⟩ := exists_drained (t := start s) hloop hlive.loop
    fun f hf => h.own _ hlive.loop f hf
  have hexposed := exposed_of_drained h hlive hloop hcalm hempty
  generalize hu : teardown.run (start s) drain = u at hcalm hexposed
  -- then the destructor goes through, and takes the map away
  obtain ⟨hvalid', hrest, hmembers, hexposed'⟩ := exposed_visits u.rest rfl hexposed
  have hguard : teardown.guard (teardown.run u (List.replicate u.rest.length .visit))
      .destroyMembers := ⟨hrest, hmembers.trans hcalm.membersDestroyed⟩
  refine ⟨drain ++ (List.replicate u.rest.length .visit ++ [.destroyMembers]), ?_, fun htorn => ?_⟩
  · refine (teardown.along_append _ _ _).mpr ⟨hvalid, ?_⟩
    rw [hu]
    exact (teardown.along_append _ _ _).mpr ⟨hvalid', hguard, trivial⟩
  · rw [teardown.run_append, teardown.run_append, hu] at htorn
    have hfree := TcpServer.not_held (s := (teardown.run u
      (List.replicate u.rest.length .visit)).destroyMembers.toTcpServer) (c := c) rfl
      hexposed'.functors hexposed'.sending
    exact hexposed'.state (htorn.destructor c hc hfree)

/-! ## Whole teardowns -/

/-- **Server teardown** is safe in every interleaving exactly when all
    connections are in the base loop and still connected. -/
theorem tornDown_iff (s : TcpServer) (h : s.Settled) :
    (∀ steps, teardown.Valid (start s) steps → TornDown s (teardown.run (start s) steps)) ↔
      ∀ c ∈ s.connections, s.getLoop c = 0 ∧ (s.conns c).state_ = .kConnected := by
  constructor
  · intro hall c hc
    by_contra hcond
    obtain ⟨steps, hvalid, hbad⟩ : ∃ steps, teardown.Valid (start s) steps ∧
        ¬ TornDown s (teardown.run (start s) steps) := by
      by_cases hloop : s.getLoop c = 0
      · exact not_tornDown_halfClosed h hc hloop fun hstate => hcond ⟨hloop, hstate⟩
      · exact not_tornDown_ioLoop h hc hloop
    exact hbad (hall steps hvalid)
  · intro hcond steps hvalid
    refine tornDown_of_orderly (teardown.invariant_run (Orderly s) ?_ (orderly_start h hcond) hvalid)
    intro t l ht hl
    exact orderly_next ht hl

/-- One connected client, in the base loop. -/
theorem tornDown_base_connected :
    let s := tcpServer.run (TcpServer.new "s" 0) [.newConnection 5 false]
    ∀ steps, teardown.Valid (start s) steps → TornDown s (teardown.run (start s) steps) :=
  (tornDown_iff _ (by decide +kernel)).mpr (by decide +kernel)

/-- A client in an I/O loop, whose object is gone with the map; and one
    in the base loop after `shutdown()`. -/
theorem not_tornDown_io_halfClosed :
    let io := tcpServer.run (TcpServer.new "s" 1)
      [.newConnection 5 false, .swapFunctors 1, .runFunctor 1 (.wrote 0), .batchDone 1]
    let halfClosed := tcpServer.run (TcpServer.new "s" 0)
      [.newConnection 5 false, .event 0 (.shutdown true)]
    io.Settled ∧ teardown.Valid (start io) [.visit, .destroyMembers] ∧
      ¬ TornDown io (teardown.run (start io) [.visit, .destroyMembers]) ∧
      halfClosed.Settled ∧ teardown.Valid (start halfClosed) [.visit] ∧
      ¬ TornDown halfClosed (teardown.run (start halfClosed) [.visit]) := by
  refine ⟨by decide +kernel, by decide +kernel, fun h => ?_, by decide +kernel, by decide +kernel,
    fun h => ?_⟩
  · have hstate := h.destructor 0 (by decide +kernel) (by decide +kernel)
    revert hstate
    decide +kernel
  · have hassert := h.removeAsserts 0 (by decide +kernel) false (by decide +kernel)
    cases hassert

end Teardown

end TinyWS
