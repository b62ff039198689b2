import TinyWS.Net.TcpServer

/-! # The Life of a Connection

    While the server exists a connection goes through the same stages in
    every interleaving.  Between two of them a single functor is on its way
    through some queue: it is the connection's *token*, and it says both
    where the connection is in its life and who keeps it alive.

    The invariant counts: of all functors that move a connection from one
    stage to the next, only its token is in any queue, and only once. -/

namespace TinyWS

open Std

/-! ## Stages -/

/-- The stages of a connection, by what comes next. -/
inductive Stage where
  | unborn
  /-- `connectionEstablished` is queued. -/
  | queued
  | up
  /-- `removeConnectionInLoop` is queued. -/
  | removing
  /-- `connectionDestroyed` is queued. -/
  | destroying
  | gone
  deriving DecidableEq, Repr

namespace Stage

/-- The functor on its way, and the loop in whose queue it is. -/
def token (c : ConnPtr) (io : LoopId) : Stage → Option (LoopId × ServerFunctor)
  | .queued => some (io, .connectionEstablished c)
  | .removing => some (0, .removeConnectionInLoop c)
  | .destroying => some (io, .connectionDestroyed c)
  | .unborn | .up | .gone => none

/-- The stages in `connectionMap_`. -/
def mapped : Stage → Bool
  | .queued | .up | .removing => true
  | .unborn | .destroying | .gone => false

/-- What has happened so far. -/
def life (io : LoopId) : Stage → List LifeEvent
  | .unborn | .queued => []
  | .up => [.connectionEstablished io]
  | .removing | .destroying => [.connectionEstablished io, .handleClose]
  | .gone => [.connectionEstablished io, .handleClose, .connectionDestroyed io]

/-! Each token belongs to one stage and one loop. -/

variable {c : ConnPtr} {io l : LoopId} {st : Stage}

theorem of_token_connectionEstablished
    (h : st.token c io = some (l, .connectionEstablished c)) : st = .queued ∧ l = io := by
  cases st <;> cases h
  exact ⟨rfl, rfl⟩

theorem of_token_removeConnectionInLoop
    (h : st.token c io = some (l, .removeConnectionInLoop c)) : st = .removing ∧ l = 0 := by
  cases st <;> cases h
  exact ⟨rfl, rfl⟩

theorem of_token_connectionDestroyed
    (h : st.token c io = some (l, .connectionDestroyed c)) : st = .destroying ∧ l = io := by
  cases st <;> cases h
  exact ⟨rfl, rfl⟩

theorem not_token_raw : st.token c io ≠ some (l, .connectionDestroyedRaw c) := by
  intro h
  cases st <;> cases h

end Stage

/-- The connection whose life a functor is about. -/
def ServerFunctor.lifeOf : ServerFunctor → Option ConnPtr
  | .connectionEstablished c | .removeConnectionInLoop c | .connectionDestroyed c
  | .connectionDestroyedRaw c => some c
  | .conn _ _ => none

namespace TcpServer

/-! ## Tokens -/

/-- Among the functors about the life of a connection only its token is
    queued. -/
def Tokens (s : TcpServer) (token : ConnPtr → Option (LoopId × ServerFunctor)) : Prop :=
  ∀ c l f, f.lifeOf = some c → (s.todo l).count f = if token c = some (l, f) then 1 else 0

/-- Queues that agree on the functors about lives. -/
theorem Tokens.congr {s s' : TcpServer} {token : ConnPtr → Option (LoopId × ServerFunctor)}
    (h : s.Tokens token)
    (hcount : ∀ c l f, f.lifeOf = some c → (s'.todo l).count f = (s.todo l).count f) :
    s'.Tokens token := by
  intro c l f hf
  rw [hcount c l f hf]
  exact h c l f hf

/-- A functor about a life at the front of a queue is the token. -/
theorem Tokens.front {s : TcpServer} {token : ConnPtr → Option (LoopId × ServerFunctor)}
    (h : s.Tokens token) {l : LoopId} {f : ServerFunctor} {rest : List ServerFunctor} {c : ConnPtr}
    (hfront : s.todo l = f :: rest) (hf : f.lifeOf = some c) : token c = some (l, f) := by
  have hcount := h c l f hf
  rw [hfront, List.count_cons_self] at hcount
  by_contra hne
  rw [if_neg hne] at hcount
  omega

/-- The token is taken out of its queue. -/
theorem Tokens.pop {s s' : TcpServer} {token : ConnPtr → Option (LoopId × ServerFunctor)}
    (h : s.Tokens token) {l : LoopId} {f : ServerFunctor} {c : ConnPtr} (hf : f.lifeOf = some c)
    (hfront : s.todo l = f :: s'.todo l) (hother : ∀ k, k ≠ l → s'.todo k = s.todo k) :
    s'.Tokens (Function.update token c none) := by
  have htoken := h.front hfront hf
  intro d k g hg
  have hcount := h d k g hg
  by_cases hk : k = l
  · subst hk
    rw [hfront, List.count_cons] at hcount
    by_cases hgf : f = g
    · -- the token itself: it stood here once, and is gone
      subst hgf
      have hd : d = c := Option.some.inj (hg.symm.trans hf)
      subst hd
      rw [if_pos htoken, if_pos (beq_self_eq_true f)] at hcount
      rw [Function.update_self, if_neg (by simp)]
      omega
    · rw [if_neg (by simpa using hgf), Nat.add_zero] at hcount
      rw [hcount]
      by_cases hd : d = c
      · -- another functor about the same life was not queued before either
        subst hd
        rw [htoken, Function.update_self, if_neg (by simp [hgf]), if_neg (by simp)]
      · rw [Function.update_of_ne hd]
  · rw [hother k hk, hcount]
    by_cases hd : d = c
    · -- the token was in the queue of `l`, so not in this one
      subst hd
      rw [htoken, Function.update_self, if_neg (by simp [Ne.symm hk]), if_neg (by simp)]
    · rw [Function.update_of_ne hd]

/-- The next token is put into a queue. -/
theorem Tokens.push {s : TcpServer} {token : ConnPtr → Option (LoopId × ServerFunctor)}
    (h : s.Tokens token) {l : LoopId} {f : ServerFunctor} {c : ConnPtr} (hf : f.lifeOf = some c)
    (hnone : token c = none) :
    (s.queueInLoop l f).Tokens (Function.update token c (some (l, f))) := by
  intro d k g hg
  have hcount := h d k g hg
  have hnew : ((s.queueInLoop l f).todo k).count g =
      (s.todo k).count g + if k = l ∧ f = g then 1 else 0 := by
    by_cases hk : k = l
    · subst hk
      rw [todo_queueInLoop_self, List.count_append, List.count_singleton]
      simp
    · rw [todo_queueInLoop_ne s f hk, if_neg (fun hc => hk hc.1), Nat.add_zero]
  rw [hnew, hcount]
  by_cases hd : d = c
  · -- nothing about this life was queued, so the new functor is the only one
    subst hd
    rw [hnone, if_neg (by simp), Function.update_self]
    simp [eq_comm]
  · have hfg : f ≠ g := by
      rintro rfl
      exact hd (Option.some.inj (hg.symm.trans hf))
    rw [Function.update_of_ne hd]
    simp [hfg]

/-- What a connection queues for itself is not about its life. -/
theorem count_todo_withConn (f : Endpoint → Endpoint) (s : TcpServer) (c d : ConnPtr) (l : LoopId)
    (g : ServerFunctor) (hg : g.lifeOf = some d) :
    ((s.withConn c f).todo l).count g = (s.todo l).count g := by
  have hown : ∀ fs : List ConnFunctor, (fs.map (ServerFunctor.conn c)).count g = 0 := by
    intro fs
    apply List.count_eq_zero_of_not_mem
    intro hmem
    obtain ⟨x, -, rfl⟩ := List.mem_map.mp hmem
    cases hg
  by_cases hl : l = s.getLoop c
  · subst hl
    simp [withConn, todo, setLoop, setConn, IoLoop.todo, IoLoop.functors, hown,
      ← List.append_assoc]
  · simp [withConn, todo, setLoop, setConn, hl]

/-! ## The invariant -/

/-- The name that the connection with this address was given. -/
def connectionName (s : TcpServer) (c : ConnPtr) : String :=
  s.name_ ++ "#" ++ toString ((c : Int) + 1)

theorem connectionName_injective (s : TcpServer) {c d : ConnPtr}
    (h : s.connectionName c = s.connectionName d) : c = d := by
  rw [connectionName, connectionName, String.append_right_inj] at h
  have hid : (c : Int) + 1 = d + 1 := Int.repr_inj.mp h
  exact Int.ofNat_inj.mp (add_right_cancel hid)

/-- All the books agree with the stages. -/
structure Kept (s : TcpServer) (stage : ConnPtr → Stage) : Prop where
  mapped : ∀ name c, s.connectionMap_[name]? = some c ↔
    (stage c).mapped = true ∧ name = s.connectionName c
  life : ∀ c, s.life c = (stage c).life (s.getLoop c)
  unborn : ∀ c, stage c = .unborn ↔ s.created ≤ c
  named : ∀ c, c < s.created → (s.conns c).name_ = s.connectionName c
  looped : ∀ c, s.getLoop c ≤ s.numThreads
  next : s.numThreads = 0 ∨ s.next_ < s.numThreads
  counter : s.nextConnectionId_ = s.created + 1
  inserted : ∀ b ∈ s.inserted, b = false
  erased : ∀ n ∈ s.erased, n = 1

theorem born_of_stage {s : TcpServer} {stage : ConnPtr → Stage} (h : s.Kept stage) {c : ConnPtr}
    (hne : stage c ≠ .unborn) : c < s.created :=
  Nat.lt_of_not_le fun hle => hne ((h.unborn c).mpr hle)

/-- A step of the loops moves functors about. -/
theorem Kept.setLoop {s : TcpServer} {stage : ConnPtr → Stage} (h : s.Kept stage) (l : LoopId)
    (io : IoLoop) : (s.setLoop l io).Kept stage :=
  ⟨h.mapped, h.life, h.unborn, h.named, h.looped, h.next, h.counter, h.inserted, h.erased⟩

def tokens (s : TcpServer) (stage : ConnPtr → Stage) : ConnPtr → Option (LoopId × ServerFunctor) :=
  fun c => (stage c).token c (s.getLoop c)

/-- Every connection is at its stage. -/
structure Lives (s : TcpServer) (stage : ConnPtr → Stage) : Prop where
  kept : s.Kept stage
  tokens : s.Tokens (s.tokens stage)

/-- In the middle of a step: the connection `c` is at its stage, but its
    token is in no queue. -/
structure Halfway (s : TcpServer) (stage : ConnPtr → Stage) (c : ConnPtr) : Prop where
  kept : s.Kept stage
  tokens : s.Tokens (Function.update (s.tokens stage) c none)

theorem lives_new (name : String) (numThreads : Nat) :
    (new name numThreads).Lives fun _ => .unborn := by
  refine ⟨⟨?_, fun _ => rfl, ?_, ?_, fun _ => Nat.zero_le _, ?_, rfl, ?_, ?_⟩, ?_⟩
  · -- the map is empty
    intro name c
    simp [new, Stage.mapped]
  · -- no object was made
    intro c
    simp [new]
  · intro c hc
    exact absurd hc (Nat.not_lt_zero c)
  · -- the round robin
    exact (Nat.eq_zero_or_pos numThreads)
  · -- the two histories are empty
    intro b hb
    cases hb
  · intro n hn
    cases hn
  · -- and so are all queues
    intro c l f _
    rfl

/-- Changing the stage of the connection whose token is missing. -/
theorem update_tokens (s : TcpServer) (stage : ConnPtr → Stage) (c : ConnPtr) (b : Stage) :
    Function.update (s.tokens (Function.update stage c b)) c none =
      Function.update (s.tokens stage) c none := by
  funext d
  by_cases hd : d = c
  · subst hd
    rw [Function.update_self, Function.update_self]
  · rw [Function.update_of_ne hd, Function.update_of_ne hd, tokens, tokens, Function.update_of_ne hd]

/-- A stage without a token. -/
theorem Halfway.lives {s : TcpServer} {stage : ConnPtr → Stage} {c : ConnPtr}
    (h : s.Halfway stage c) (hnone : (stage c).token c (s.getLoop c) = none) : s.Lives stage := by
  refine ⟨h.kept, ?_⟩
  have hsame : Function.update (s.tokens stage) c none = s.tokens stage :=
    Function.update_eq_self_iff.mpr hnone.symm
  have htokens := h.tokens
  rw [hsame] at htokens
  exact htokens

theorem Lives.halfway {s : TcpServer} {stage : ConnPtr → Stage} {c : ConnPtr}
    (h : s.Lives stage) (hnone : (stage c).token c (s.getLoop c) = none) : s.Halfway stage c := by
  refine ⟨h.kept, ?_⟩
  have hsame : Function.update (s.tokens stage) c none = s.tokens stage :=
    Function.update_eq_self_iff.mpr hnone.symm
  rw [hsame]
  exact h.tokens

/-- The token of the stage is queued. -/
theorem Halfway.queueInLoop {s : TcpServer} {stage : ConnPtr → Stage} {c : ConnPtr}
    (h : s.Halfway stage c) {l : LoopId} {f : ServerFunctor} (hf : f.lifeOf = some c)
    (htoken : (stage c).token c (s.getLoop c) = some (l, f)) : (s.queueInLoop l f).Lives stage := by
  have hpush := h.tokens.push (l := l) hf (by rw [Function.update_self])
  rw [Function.update_idem, ← htoken] at hpush
  have hsame : Function.update (s.tokens stage) c ((stage c).token c (s.getLoop c)) =
      s.tokens stage := Function.update_eq_self c _
  rw [hsame] at hpush
  exact ⟨h.kept.setLoop l _, hpush⟩

/-! ### Frames of the invariant -/

theorem Kept.setConn {s : TcpServer} {stage : ConnPtr → Stage} (h : s.Kept stage) {c : ConnPtr}
    {conn : TcpConnection} (hname : conn.name_ = (s.conns c).name_)
    (hloop : conn.loop_ = s.getLoop c) : (s.setConn c conn).Kept stage := by
  refine ⟨h.mapped, ?_, h.unborn, ?_, ?_, h.next, h.counter, h.inserted, h.erased⟩
  · intro d
    rw [getLoop_setConn hloop]
    exact h.life d
  · intro d hd
    rw [name_setConn hname]
    exact h.named d hd
  · intro d
    rw [getLoop_setConn hloop]
    exact h.looped d

/-- The books do not know who is inside `send`, nor about raw pointers. -/
theorem Kept.forget {s : TcpServer} {stage : ConnPtr → Stage} (h : s.Kept stage)
    (sending : List (ThreadId × ConnPtr × Bytes)) (dangling : List ServerFunctor) :
    Kept { s with sending := sending, dangling := dangling } stage :=
  ⟨h.mapped, h.life, h.unborn, h.named, h.looped, h.next, h.counter, h.inserted, h.erased⟩

theorem kept_withConn {s : TcpServer} {stage : ConnPtr → Stage} (h : s.Kept stage)
    {f : Endpoint → Endpoint} (hf : Keeps f) (c : ConnPtr) : (s.withConn c f).Kept stage :=
  (h.setConn (hf _).1 (hf _).2).setLoop _ _

theorem tokens_setConn {s : TcpServer} {c : ConnPtr} {conn : TcpConnection}
    (hloop : conn.loop_ = s.getLoop c) (stage : ConnPtr → Stage) :
    (s.setConn c conn).tokens stage = s.tokens stage := by
  funext d
  rw [tokens, tokens, getLoop_setConn hloop]

theorem tokens_withConn {f : Endpoint → Endpoint} (hf : Keeps f) (s : TcpServer)
    (stage : ConnPtr → Stage) (c : ConnPtr) : (s.withConn c f).tokens stage = s.tokens stage :=
  tokens_setConn (hf _).2 stage

theorem Lives.withConn {s : TcpServer} {stage : ConnPtr → Stage} (h : s.Lives stage)
    {f : Endpoint → Endpoint} (hf : Keeps f) (c : ConnPtr) : (s.withConn c f).Lives stage := by
  refine ⟨kept_withConn h.kept hf c, ?_⟩
  rw [tokens_withConn hf]
  exact h.tokens.congr (count_todo_withConn f s c)

theorem Halfway.withConn {s : TcpServer} {stage : ConnPtr → Stage} {c : ConnPtr}
    (h : s.Halfway stage c) {f : Endpoint → Endpoint} (hf : Keeps f) (d : ConnPtr) :
    (s.withConn d f).Halfway stage c := by
  refine ⟨kept_withConn h.kept hf d, ?_⟩
  rw [tokens_withConn hf]
  exact h.tokens.congr (count_todo_withConn f s d)

/-! ### From stage to stage -/

/-- A born connection stays born. -/
theorem Kept.unborn_update {s : TcpServer} {stage : ConnPtr → Stage} (h : s.Kept stage)
    {c : ConnPtr} {b : Stage} (hborn : stage c ≠ .unborn) (hb : b ≠ .unborn) (d : ConnPtr) :
    Function.update stage c b d = .unborn ↔ s.created ≤ d := by
  rw [← h.unborn d]
  by_cases hd : d = c
  · subst hd
    rw [Function.update_self]
    exact iff_of_false hb hborn
  · rw [Function.update_of_ne hd]

/-- An event in the life of a connection takes it to a stage whose life
    ends in it. -/
theorem Halfway.live {s : TcpServer} {stage : ConnPtr → Stage} {c : ConnPtr}
    (h : s.Halfway stage c) {event : LifeEvent} {b : Stage} (hborn : stage c ≠ .unborn)
    (hmapped : b.mapped = (stage c).mapped)
    (hlife : b.life (s.getLoop c) = (stage c).life (s.getLoop c) ++ [event]) :
    (s.live c event).Halfway (Function.update stage c b) c := by
  have hb : b ≠ .unborn := by
    rintro rfl
    simp [Stage.life] at hlife
  refine ⟨⟨?_, ?_, h.kept.unborn_update hborn hb, h.kept.named, h.kept.looped, h.kept.next,
    h.kept.counter, h.kept.inserted, h.kept.erased⟩, ?_⟩
  · -- the two stages are both in the map, or both not
    intro name d
    show s.connectionMap_[name]? = some d ↔ _
    rw [h.kept.mapped name d]
    by_cases hd : d = c
    · subst hd
      rw [Function.update_self, hmapped]
      rfl
    · rw [Function.update_of_ne hd]
      rfl
  · -- the event is what the new life has in addition
    intro d
    show (if d = c then s.life d ++ [event] else s.life d) = _
    rw [h.kept.life d]
    by_cases hd : d = c
    · subst hd
      rw [if_pos rfl, Function.update_self]
      exact hlife.symm
    · rw [if_neg hd, Function.update_of_ne hd]
      rfl
  · -- the missing token is the only one that depends on the stage of `c`
    have htokens := h.tokens
    rw [← update_tokens s stage c b] at htokens
    exact htokens

theorem Halfway.connectionEstablished {s : TcpServer} {stage : ConnPtr → Stage} {c : ConnPtr}
    (h : s.Halfway stage c) (hstage : stage c = .queued) :
    (s.connectionEstablished (s.getLoop c) c).Lives (Function.update stage c .up) := by
  have hmid := h.withConn keeps_connectionEstablished c
  have hloop := getLoop_withConn keeps_connectionEstablished s c c
  refine (hmid.live (b := .up) ?_ ?_ ?_).lives ?_
  · simp [hstage]
  · rw [hstage]
    rfl
  · rw [hstage, hloop]
    rfl
  · rw [Function.update_self]
    rfl

theorem Halfway.connectionDestroyed {s : TcpServer} {stage : ConnPtr → Stage} {c : ConnPtr}
    (h : s.Halfway stage c) (hstage : stage c = .destroying) :
    (s.connectionDestroyed (s.getLoop c) c).Lives (Function.update stage c .gone) := by
  have hmid := h.withConn keeps_connectionDestroyed c
  have hloop := getLoop_withConn keeps_connectionDestroyed s c c
  refine (hmid.live (b := .gone) ?_ ?_ ?_).lives ?_
  · simp [hstage]
  · rw [hstage]
    rfl
  · rw [hstage, hloop]
    rfl
  · rw [Function.update_self]
    rfl

/-- The entry of a connection is erased, and the others are where they
    were. -/
theorem Kept.mapped_erase {s : TcpServer} {stage : ConnPtr → Stage} (h : s.Kept stage)
    (c : ConnPtr) (name : String) (d : ConnPtr) :
    (s.connectionMap_.erase (s.connectionName c))[name]? = some d ↔
      (Function.update stage c .destroying d).mapped = true ∧ name = s.connectionName d := by
  rw [ExtTreeMap.getElem?_erase]
  by_cases hd : d = c
  · -- the connection had this one name
    subst hd
    rw [Function.update_self]
    refine iff_of_false ?_ (by simp [Stage.mapped])
    split
    · simp
    · next hne =>
      intro hget
      have hsame := ((h.mapped name d).mp hget).2
      exact hne (by rw [hsame]; exact ReflCmp.compare_self)
  · -- and no other connection has it
    rw [Function.update_of_ne hd]
    split
    · next heq =>
      refine iff_of_false (by simp) ?_
      rintro ⟨-, hsame⟩
      have hname' := LawfulEqOrd.eq_of_compare heq
      exact hd (s.connectionName_injective (hname'.trans hsame)).symm
    · exact h.mapped name d

/-- The entry is there, and its functor goes to the loop of the
    connection. -/
theorem Halfway.removeConnectionInLoop {s : TcpServer} {stage : ConnPtr → Stage} {c : ConnPtr}
    (h : s.Halfway stage c) (hstage : stage c = .removing) :
    (s.removeConnectionInLoop c).Lives (Function.update stage c .destroying) := by
  have hc : c < s.created := born_of_stage h.kept (by simp [hstage])
  have hname := h.kept.named c hc
  have hentry : s.connectionMap_[s.connectionName c]? = some c :=
    (h.kept.mapped _ c).mpr ⟨by rw [hstage]; rfl, rfl⟩
  have hcontains : s.connectionMap_.contains (s.connectionName c) = true := by
    rw [ExtTreeMap.contains_eq_isSome_getElem?, hentry]
    rfl
  unfold TcpServer.removeConnectionInLoop
  dsimp only
  apply Halfway.queueInLoop (c := c) _ rfl
  · show (Function.update stage c .destroying c).token c (s.getLoop c) = _
    rw [Function.update_self]
    rfl
  have hborn : stage c ≠ .unborn := by simp [hstage]
  refine ⟨⟨?_, ?_, h.kept.unborn_update hborn (by simp), h.kept.named, h.kept.looped, h.kept.next,
    h.kept.counter, h.kept.inserted, ?_⟩, ?_⟩
  · -- `destroying` is not in the map
    intro name d
    show (s.connectionMap_.erase (s.conns c).name_)[name]? = some d ↔ _
    rw [hname]
    exact h.kept.mapped_erase c name d
  · -- nothing happens to the connection itself yet
    intro d
    show s.life d = _
    rw [h.kept.life d]
    by_cases hd : d = c
    · subst hd
      rw [Function.update_self, hstage]
      rfl
    · rw [Function.update_of_ne hd]
      rfl
  · -- the entry that `hcontains` found is the one erased
    intro n hn
    rw [hname, hcontains] at hn
    rcases List.mem_append.mp hn with hn | hn
    · exact h.kept.erased n hn
    · simpa using hn
  · have htokens := h.tokens
    rw [← update_tokens s stage c .destroying] at htokens
    exact htokens

/-! ## Steps -/

/-- The round robin stays within the pool. -/
theorem getNextLoop_cases (s : TcpServer) (h : s.numThreads = 0 ∨ s.next_ < s.numThreads) :
    ∃ n l, s.getNextLoop = ({ s with next_ := n }, l) ∧ l ≤ s.numThreads ∧
      (s.numThreads = 0 ∨ n < s.numThreads) := by
  unfold getNextLoop
  by_cases hzero : s.numThreads = 0
  · rw [if_pos hzero]
    exact ⟨s.next_, 0, rfl, Nat.zero_le _, Or.inl hzero⟩
  · rw [if_neg hzero]
    have hlt : s.next_ < s.numThreads := h.resolve_left hzero
    refine ⟨_, _, rfl, hlt, Or.inr ?_⟩
    split
    · omega
    · omega

/-- A name that no earlier connection was given. -/
theorem Kept.fresh {s : TcpServer} {stage : ConnPtr → Stage} (h : s.Kept stage) :
    s.connectionMap_[s.connectionName s.created]? = none := by
  rw [Option.eq_none_iff_forall_ne_some]
  intro d hd
  obtain ⟨hmapped, hname⟩ := (h.mapped _ d).mp hd
  have hsame := s.connectionName_injective hname
  subst hsame
  rw [(h.unborn s.created).mpr (Nat.le_refl _)] at hmapped
  cases hmapped

/-- The new object is in the map under its new name, and the older ones
    are where they were. -/
theorem Kept.mapped_insert {s : TcpServer} {stage : ConnPtr → Stage} (h : s.Kept stage)
    (name : String) (d : ConnPtr) :
    (s.connectionMap_.insert (s.connectionName s.created) s.created)[name]? = some d ↔
      (Function.update stage s.created .queued d).mapped = true ∧ name = s.connectionName d := by
  have hunborn : stage s.created = .unborn := (h.unborn _).mpr (Nat.le_refl _)
  rw [ExtTreeMap.getElem?_insert]
  by_cases hd : d = s.created
  · -- the new connection is under its new name, and was under no other
    subst hd
    rw [Function.update_self]
    split
    · next heq => exact iff_of_true rfl ⟨rfl, (LawfulEqOrd.eq_of_compare heq).symm⟩
    · next hne =>
      refine iff_of_false ?_ ?_
      · intro hget
        obtain ⟨hmapped, -⟩ := (h.mapped name _).mp hget
        rw [hunborn] at hmapped
        cases hmapped
      · rintro ⟨-, hname⟩
        exact hne (by rw [hname]; exact ReflCmp.compare_self)
  · -- the older ones have other names
    rw [Function.update_of_ne hd]
    split
    · next heq =>
      refine iff_of_false (fun hsome => hd (Option.some.inj hsome).symm) ?_
      rintro ⟨-, hname⟩
      have hname' := LawfulEqOrd.eq_of_compare heq
      exact hd (s.connectionName_injective (hname'.trans hname)).symm
    · exact h.mapped name d

/-- An unborn connection had no token, and the new one is not queued yet. -/
theorem tokens_enter {s : TcpServer} {stage : ConnPtr → Stage} (hunborn : stage s.created = .unborn)
    (n : Nat) (l : LoopId) (fd : Int) (writeComplete : Bool) :
    Function.update (TcpServer.tokens (TcpServer.enter
        { s with nextConnectionId_ := s.nextConnectionId_ + 1, next_ := n }
        (s.connectionName s.created) l fd writeComplete)
        (Function.update stage s.created .queued)) s.created none = s.tokens stage := by
  funext d
  by_cases hd : d = s.created
  · subst hd
    rw [Function.update_self, TcpServer.tokens, hunborn]
    rfl
  · rw [Function.update_of_ne hd, TcpServer.tokens, TcpServer.tokens, Function.update_of_ne hd,
      getLoop_enter_ne hd]

theorem Lives.enter {s : TcpServer} {stage : ConnPtr → Stage} (h : s.Lives stage) {n : Nat}
    {l : LoopId} (hl : l ≤ s.numThreads) (hn : s.numThreads = 0 ∨ n < s.numThreads) (fd : Int)
    (writeComplete : Bool) :
    (TcpServer.enter { s with nextConnectionId_ := s.nextConnectionId_ + 1, next_ := n }
      (s.connectionName s.created) l fd writeComplete).Halfway
      (Function.update stage s.created .queued) s.created := by
  have hunborn : stage s.created = .unborn := (h.kept.unborn _).mpr (Nat.le_refl _)
  have hfresh := h.kept.fresh
  refine ⟨⟨?_, ?_, ?_, ?_, ?_, hn, ?_, ?_, h.kept.erased⟩, ?_⟩
  · intro name d
    exact h.kept.mapped_insert name d
  · -- the new connection is queued, the others live on
    intro d
    show s.life d = _
    rw [h.kept.life d]
    by_cases hd : d = s.created
    · subst hd
      rw [Function.update_self, hunborn]
      rfl
    · rw [Function.update_of_ne hd, getLoop_enter_ne hd]
  · -- the next object is the first one unborn
    intro d
    show _ ↔ s.created + 1 ≤ d
    by_cases hd : d = s.created
    · subst hd
      rw [Function.update_self]
      exact iff_of_false (by simp) (by omega)
    · rw [Function.update_of_ne hd, h.kept.unborn d]
      exact ⟨fun hle => Nat.lt_of_le_of_ne hle (Ne.symm hd), Nat.le_of_succ_le⟩
  · -- names and loops: as given to the new object, as before for the others
    intro d hd
    by_cases hnew : d = s.created
    · rw [hnew, conns_enter_self]
      rfl
    · have hold : d < s.created := Nat.lt_of_le_of_ne (Nat.le_of_lt_succ hd) hnew
      rw [conns_enter_ne hnew]
      exact h.kept.named d hold
  · intro d
    by_cases hnew : d = s.created
    · rw [hnew, getLoop_enter_self]
      exact hl
    · rw [getLoop_enter_ne hnew]
      exact h.kept.looped d
  · -- one name for each object made
    show s.nextConnectionId_ + 1 = ((s.created + 1 : Nat) : Int) + 1
    rw [h.kept.counter]
    rfl
  · intro b hb
    rcases List.mem_append.mp hb with hb | hb
    · exact h.kept.inserted b hb
    · -- the fresh name was not in the map
      rw [List.mem_singleton.mp hb]
      show s.connectionMap_.contains (s.connectionName s.created) = false
      rw [ExtTreeMap.contains_eq_isSome_getElem?, hfresh]
      rfl
  · -- and the token of the new connection is in its loop
    rw [tokens_enter hunborn]
    exact h.tokens

theorem lives_newConnection {s : TcpServer} {stage : ConnPtr → Stage} (h : s.Lives stage)
    (fd : Int) (writeComplete : Bool) : ∃ stage', (s.newConnection fd writeComplete).Lives stage' := by
  obtain ⟨n, l, hnext, hl, hn⟩ := getNextLoop_cases
    { s with nextConnectionId_ := s.nextConnectionId_ + 1 } h.kept.next
  have hname : s.name_ ++ "#" ++ toString s.nextConnectionId_ = s.connectionName s.created := by
    rw [h.kept.counter]
    rfl
  have hmid := h.enter hl hn fd writeComplete
  have hloop : getLoop (TcpServer.enter
      { s with nextConnectionId_ := s.nextConnectionId_ + 1, next_ := n }
      (s.connectionName s.created) l fd writeComplete) s.created = l := getLoop_enter_self
  unfold newConnection
  dsimp only
  rw [hnext, hname]
  unfold runInLoop
  split
  · -- the base loop itself: at once
    have hup := hmid.connectionEstablished (Function.update_self _ _ _)
    rw [hloop] at hup
    exact ⟨_, hup⟩
  · -- an I/O loop: `connectionEstablished` is the first token
    refine ⟨_, hmid.queueInLoop rfl ?_⟩
    rw [Function.update_self, hloop]
    rfl

theorem isOpen_iff {s : TcpServer} {stage : ConnPtr → Stage} (h : s.Kept stage) (c : ConnPtr) :
    s.isOpen c = true ↔ stage c = .up := by
  rw [isOpen, h.life c]
  cases stage c with
  | unborn => simp [Stage.life]
  | queued => simp [Stage.life]
  | up => simp [Stage.life]
  | removing => simp [Stage.life]
  | destroying => simp [Stage.life]
  | gone => simp [Stage.life]

theorem lives_handleEvent {s : TcpServer} {stage : ConnPtr → Stage} (h : s.Lives stage)
    {c : ConnPtr} (hopen : s.isOpen c = true) (event : ConnStep) :
    ∃ stage', (s.handleEvent c event).Lives stage' := by
  have hup := (isOpen_iff h.kept c).mp hopen
  have hmid := h.withConn (keeps_step event) c
  unfold handleEvent
  dsimp only
  split
  · have hloop := getLoop_withConn (keeps_step event) s c c
    -- between `handleClose` and what its callback does
    have hclosed : ((s.withConn c (·.step event)).live c .handleClose).Halfway
        (Function.update stage c .removing) c :=
      (hmid.halfway (by rw [hup]; rfl)).live (by simp [hup]) (by rw [hup]; rfl) (by rw [hup]; rfl)
    unfold removeConnection runInLoop
    split
    · -- the base loop itself: at once
      exact ⟨_, hclosed.removeConnectionInLoop (Function.update_self _ _ _)⟩
    · -- an I/O loop: `removeConnectionInLoop` goes to the base loop
      refine ⟨_, hclosed.queueInLoop rfl ?_⟩
      rw [Function.update_self]
      rfl
  · -- every other event leaves the connection up
    exact ⟨stage, hmid⟩

theorem Lives.deref {s : TcpServer} {stage : ConnPtr → Stage} (h : s.Lives stage)
    (f : ServerFunctor) (c : ConnPtr) : (s.deref f c).Lives stage :=
  ⟨h.kept.forget s.sending _, h.tokens⟩

/-- A functor about a life that is called next is the token of its
    connection. -/
theorem halfway_called {s : TcpServer} {stage : ConnPtr → Stage} (h : s.Lives stage) {l : LoopId}
    {called fs : List ServerFunctor} {f : ServerFunctor} {c : ConnPtr}
    (hbatch : (s.loops l).batch = some ⟨called, f :: fs⟩) (hf : f.lifeOf = some c) :
    (stage c).token c (s.getLoop c) = some (l, f) ∧
      (s.setBatch l (some ⟨called ++ [f], fs⟩)).Halfway stage c :=
  ⟨h.tokens.front (todo_called hbatch) hf, h.kept.setLoop l _,
    h.tokens.pop hf (todo_called hbatch) fun _ hk => s.todo_setBatch_ne hk _⟩

/-- One that a connection queued for itself moves nothing. -/
theorem lives_called {s : TcpServer} {stage : ConnPtr → Stage} (h : s.Lives stage) {l : LoopId}
    {called fs : List ServerFunctor} {f : ServerFunctor}
    (hbatch : (s.loops l).batch = some ⟨called, f :: fs⟩) (hf : f.lifeOf = none) :
    (s.setBatch l (some ⟨called ++ [f], fs⟩)).Lives stage := by
  refine ⟨h.kept.setLoop l _, h.tokens.congr ?_⟩
  intro d k x hx
  by_cases hk : k = l
  · subst hk
    rw [todo_called hbatch, List.count_cons_of_ne]
    rintro rfl
    rw [hf] at hx
    cases hx
  · rw [s.todo_setBatch_ne hk]

theorem lives_runFunctor {s : TcpServer} {stage : ConnPtr → Stage} (h : s.Lives stage)
    (l : LoopId) (w : WriteResult) : ∃ stage', (s.runFunctor l w).Lives stage' := by
  unfold runFunctor
  split
  · next called f fs hbatch =>
    cases f with
    | connectionEstablished c =>
      obtain ⟨htoken, hhalf⟩ := halfway_called h hbatch rfl
      obtain ⟨hstage, rfl⟩ := Stage.of_token_connectionEstablished htoken
      exact ⟨_, hhalf.connectionEstablished hstage⟩
    | removeConnectionInLoop c =>
      obtain ⟨htoken, hhalf⟩ := halfway_called h hbatch rfl
      obtain ⟨hstage, -⟩ := Stage.of_token_removeConnectionInLoop htoken
      exact ⟨_, hhalf.removeConnectionInLoop hstage⟩
    | connectionDestroyed c =>
      obtain ⟨htoken, hhalf⟩ := halfway_called h hbatch rfl
      obtain ⟨hstage, rfl⟩ := Stage.of_token_connectionDestroyed htoken
      exact ⟨_, hhalf.connectionDestroyed hstage⟩
    | connectionDestroyedRaw c =>
      -- only `~TcpServer` queues it
      obtain ⟨htoken, -⟩ := halfway_called h hbatch rfl
      exact absurd htoken Stage.not_token_raw
    | conn c g =>
      have hlives := lives_called h hbatch rfl
      refine ⟨stage, ?_⟩
      show ((if g.raw then _ else _ : TcpServer).withConn c (·.runFunctor g w)).Lives stage
      split
      · exact (hlives.deref _ c).withConn (keeps_runFunctor g w) c
      · exact hlives.withConn (keeps_runFunctor g w) c
  · exact ⟨stage, h⟩

theorem lives_swapFunctors {s : TcpServer} {stage : ConnPtr → Stage} (h : s.Lives stage)
    {l : LoopId} (hidle : (s.loops l).callingPendingFuntors_ = false) :
    (s.swapFunctors l).Lives stage := by
  refine ⟨h.kept.setLoop l _, h.tokens.congr ?_⟩
  intro c k f _
  rw [todo_swapFunctors hidle]

theorem lives_batchDone {s : TcpServer} {stage : ConnPtr → Stage} (h : s.Lives stage)
    {l : LoopId} (hdone : (s.loops l).functors = []) : (s.batchDone l).Lives stage := by
  refine ⟨h.kept.setLoop l _, h.tokens.congr ?_⟩
  intro c k f _
  rw [todo_batchDone hdone]

theorem lives_sendCheck {s : TcpServer} {stage : ConnPtr → Stage} (h : s.Lives stage)
    (t : ThreadId) (c : ConnPtr) (message : Bytes) : (s.sendCheck t c message).Lives stage := by
  unfold sendCheck
  split
  · have hkept : Kept (s.setConn c { s.conns c with sent := (s.conns c).sent ++ [message] })
        stage := h.kept.setConn rfl rfl
    have hsame : tokens (s.setConn c { s.conns c with sent := (s.conns c).sent ++ [message] })
        stage = s.tokens stage := by
      apply tokens_setConn
      rfl
    refine ⟨hkept.forget _ s.dangling, ?_⟩
    have htokens := h.tokens
    rw [← hsame] at htokens
    exact htokens
  · exact h

theorem lives_sendPush {s : TcpServer} {stage : ConnPtr → Stage} (h : s.Lives stage)
    (t : ThreadId) (c : ConnPtr) (message : Bytes) : (s.sendPush t c message).Lives stage := by
  refine ⟨(h.kept.setLoop _ _).forget _ s.dangling, h.tokens.congr ?_⟩
  intro d l f hf
  show ((s.queueInLoop (s.getLoop c) (.conn c (.sendInLoop message))).todo l).count f = _
  by_cases hl : l = s.getLoop c
  · subst hl
    rw [todo_queueInLoop_self, List.count_append, List.count_singleton, if_neg, Nat.add_zero]
    -- `sendInLoop` is no functor about a life
    intro heq
    rw [← beq_iff_eq.mp heq] at hf
    cases hf
  · rw [todo_queueInLoop_ne s _ hl]

/-- **Step**: every step leaves each connection at its stage or takes it
    to the next. -/
theorem lives_next {s : TcpServer} {stage : ConnPtr → Stage} (h : s.Lives stage) {l : ServerStep}
    (hguard : s.guard l) : ∃ stage', (s.next l).Lives stage' := by
  cases l with
  | newConnection fd writeComplete => exact lives_newConnection h fd writeComplete
  | event c event => exact lives_handleEvent h hguard.1 event
  | swapFunctors l => exact ⟨stage, lives_swapFunctors h hguard.2⟩
  | runFunctor l w => exact lives_runFunctor h l w
  | batchDone l => exact ⟨stage, lives_batchDone h hguard.2.2⟩
  | sendCheck t c message => exact ⟨stage, lives_sendCheck h t c message⟩
  | sendPush t c message => exact ⟨stage, lives_sendPush h t c message⟩

/-! ## Ownership -/

theorem held_of_mapped {s : TcpServer} {name : String} {c : ConnPtr}
    (h : s.connectionMap_[name]? = some c) : s.held c = true := by
  have hmem : (name, c) ∈ s.connectionMap_.toList :=
    ExtTreeMap.mem_toList_iff_getElem?_eq_some.mpr h
  have hany : s.connectionMap_.toList.any (·.2 == c) = true :=
    List.any_eq_true.mpr ⟨(name, c), hmem, beq_self_eq_true c⟩
  simp [held, hany]

theorem held_of_functor {s : TcpServer} {l : LoopId} {f : ServerFunctor} {c : ConnPtr}
    (hl : l ≤ s.numThreads) (hmem : f ∈ (s.loops l).all) (hf : f.holds = some c) :
    s.held c = true := by
  have hall : (s.loops l).all.any (·.holds == some c) = true :=
    List.any_eq_true.mpr ⟨f, hmem, by rw [hf]; exact beq_self_eq_true _⟩
  have hany : (List.range (s.numThreads + 1)).any
      (fun k => (s.loops k).all.any (·.holds == some c)) = true :=
    List.any_eq_true.mpr ⟨l, List.mem_range.mpr (Nat.lt_succ_of_le hl), hall⟩
  simp [held, hany]

/-- The token is in its queue. -/
theorem mem_todo_of_token {s : TcpServer} {stage : ConnPtr → Stage} (h : s.Lives stage)
    {c : ConnPtr} {l : LoopId} {f : ServerFunctor} (hf : f.lifeOf = some c)
    (htoken : (stage c).token c (s.getLoop c) = some (l, f)) : f ∈ s.todo l := by
  apply List.count_pos_iff.mp
  rw [h.tokens c l f hf, tokens, if_pos htoken]
  exact Nat.one_pos

/-- The map or the token keeps a connection alive, up to its
    `connectionDestroyed`. -/
theorem held_of_lives {s : TcpServer} {stage : ConnPtr → Stage} (h : s.Lives stage) {c : ConnPtr}
    (hc : c < s.created) (hgone : stage c ≠ .gone) : s.held c = true := by
  have hmapped : (stage c).mapped = true → s.held c = true := by
    intro hm
    exact held_of_mapped ((h.kept.mapped (s.connectionName c) c).mpr ⟨hm, rfl⟩)
  cases hstage : stage c with
  | unborn =>
    have hle := (h.kept.unborn c).mp hstage
    exact absurd hc (Nat.not_lt_of_le hle)
  | queued => exact hmapped (by rw [hstage]; rfl)
  | up => exact hmapped (by rw [hstage]; rfl)
  | removing => exact hmapped (by rw [hstage]; rfl)
  | destroying =>
    -- out of the map, but the queued functor has a `shared_ptr`
    have hmem := mem_todo_of_token h (f := .connectionDestroyed c) rfl (by rw [hstage]; rfl)
    exact held_of_functor (h.kept.looped c) (List.mem_append_right _ hmem) rfl
  | gone => exact absurd hstage hgone

/-! ## Whole runs -/

/-- What is promised of the connections of a server. -/
structure LifeCycle (s : TcpServer) : Prop where
  /-- No name was taken when it was inserted. -/
  inserted : ∀ b ∈ s.inserted, b = false
  /-- Every `removeConnectionInLoop` erased one entry. -/
  erased : ∀ n ∈ s.erased, n = 1
  /-- Each function runs at most once, in this order, in the right loop. -/
  life : ∀ c, s.life c <+: [.connectionEstablished (s.getLoop c), .handleClose,
    .connectionDestroyed (s.getLoop c)]
  /-- Nobody holds a connection any more: it was destroyed properly. -/
  destroyed : ∀ c, c < s.created → s.held c = false →
    .connectionDestroyed (s.getLoop c) ∈ s.life c

theorem lifeCycle_of_lives {s : TcpServer} {stage : ConnPtr → Stage} (h : s.Lives stage) :
    s.LifeCycle := by
  refine ⟨h.kept.inserted, h.kept.erased, ?_, ?_⟩
  · intro c
    rw [h.kept.life c]
    cases stage c with
    | unborn => exact List.nil_prefix
    | queued => exact List.nil_prefix
    | up => exact ⟨_, rfl⟩
    | removing => exact ⟨_, rfl⟩
    | destroying => exact ⟨_, rfl⟩
    | gone => exact List.prefix_refl _
  · intro c hc hfree
    have hgone : stage c = .gone := by
      by_contra hne
      rw [held_of_lives h hc hne] at hfree
      cases hfree
    rw [h.kept.life c, hgone]
    simp [Stage.life]

end TcpServer

end TinyWS
