import TinyWS.Base.AsyncLogging
import Mathlib.Data.List.Nodup

/-! # Double Buffering

    Who holds which buffer.  A producer that finds the current buffer full
    hands it over and takes the spare one, or a new one; the back-end
    thread gives its two spare buffers away and refills them from those it
    has written.  A producer takes the spare buffer only when it hands one
    over, so the back-end thread always has enough to refill with.

    Lines may have any length here, and assertions are compiled out or
    not. -/

namespace TinyWS

/-- `FixedBuffer::length()`. -/
def FixedBuffer.length (b : FixedBuffer) : Nat := b.written.length

namespace AsyncLogging

/-- A step with lines of any length. -/
def anyGuard (s : AsyncLogging) : Step → Prop
  | .append _ => s.backend ≠ .aborted
  | .start => s.guard .start
  | .stop => s.guard .stop
  | .join => s.guard .join
  | .begin => s.guard .begin
  | .testRunning => s.guard .testRunning
  | .lock => s.guard .lock
  | .wake => s.guard .wake
  | .handOver => s.guard .handOver
  | .write report fwrite => s.guard (.write report fwrite)

instance (s : AsyncLogging) : DecidablePred s.anyGuard
  | .append _ => inferInstanceAs (Decidable (s.backend ≠ .aborted))
  | .start => inferInstanceAs (Decidable (s.guard .start))
  | .stop => inferInstanceAs (Decidable (s.guard .stop))
  | .join => inferInstanceAs (Decidable (s.guard .join))
  | .begin => inferInstanceAs (Decidable (s.guard .begin))
  | .testRunning => inferInstanceAs (Decidable (s.guard .testRunning))
  | .lock => inferInstanceAs (Decidable (s.guard .lock))
  | .wake => inferInstanceAs (Decidable (s.guard .wake))
  | .handOver => inferInstanceAs (Decidable (s.guard .handOver))
  | .write report fwrite => inferInstanceAs (Decidable (s.guard (.write report fwrite)))

end AsyncLogging

/-- Any number of producers, with lines of any length. -/
def doubleBuffering (ndebug : Bool) : Machine AsyncLogging AsyncLogging.Step where
  guard := AsyncLogging.anyGuard
  next := AsyncLogging.next ndebug

instance (ndebug : Bool) (s : AsyncLogging) (l : AsyncLogging.Step) :
    Decidable ((doubleBuffering ndebug).guard s l) :=
  inferInstanceAs (Decidable (s.anyGuard l))

namespace AsyncLogging

/-! ## The specification -/

/-- The buffers that somebody holds at a loop head. -/
def held (s : AsyncLogging) : List Nat :=
  s.currentBuffer_.toList ++ s.nextBuffer_.toList ++ s.newBuffer1.toList ++ s.newBuffer2.toList ++
    s.buffers_

/-- The head of `while (running_)`, and the assertions behind it. -/
def AtHead (s : AsyncLogging) : Prop := s.backend = .loopHead ∨ s.backend = .locking

instance (s : AsyncLogging) : Decidable s.AtHead := inferInstanceAs (Decidable (_ ∨ _))

/-- `assert(buffer && buffer->length() == 0)`. -/
def SpareAssert (s : AsyncLogging) (buffer : Option Nat) : Prop :=
  ∃ b, buffer = some b ∧ (s.heap b).length = 0

/-- An iteration up to the refill: the buffers are written, and two are
    left. -/
def trim (s : AsyncLogging) (report : Bytes) (fwrite : Nat → List Nat) : AsyncLogging :=
  let s := (s.dropBuffers report (fwrite 0)).writeBuffers fun k => fwrite (k + 1)
  { s with buffersToWrite := s.buffersToWrite.take 2 }

theorem write_eq (s : AsyncLogging) (report : Bytes) (fwrite : Nat → List Nat) :
    s.write report fwrite =
      { (s.trim report fwrite).refill1.refill2 with buffersToWrite := [], backend := .loopHead } :=
  rfl

/-- The assertions behind the critical section, and in front of each
    `buffersToWrite.back()`. -/
structure WriteAsserts (s : AsyncLogging) (report : Bytes) (fwrite : Nat → List Nat) : Prop where
  handedOver : s.buffersToWrite ≠ []
  back1 : (s.trim report fwrite).newBuffer1 = none → (s.trim report fwrite).buffersToWrite ≠ []
  back2 : (s.trim report fwrite).refill1.newBuffer2 = none →
    (s.trim report fwrite).refill1.buffersToWrite ≠ []

/-! ## The owners of the buffers -/

/-- Every pointer to a buffer. -/
def pointers (s : AsyncLogging) : List Nat := s.held ++ s.buffersToWrite

/-- Nobody shares a buffer, and nobody holds one that does not exist. -/
structure Owners (s : AsyncLogging) : Prop where
  once : ∀ b, s.pointers.count b ≤ 1
  allocated : ∀ b, s.fresh ≤ b → s.pointers.count b = 0

/-- A step that hands buffers around and makes new ones. -/
theorem Owners.step {s s' : AsyncLogging} (h : s.Owners) (hfresh : s.fresh ≤ s'.fresh)
    (hcount : ∀ b, s'.pointers.count b ≤
      s.pointers.count b + if s.fresh ≤ b ∧ b < s'.fresh then 1 else 0) : s'.Owners := by
  refine ⟨fun b => ?_, fun b hb => ?_⟩
  · have hb := hcount b
    have hone := h.once b
    split at hb
    · next hnew =>
      have hzero := h.allocated b hnew.1
      omega
    · omega
  · have hle := hcount b
    have hzero := h.allocated b (Nat.le_trans hfresh hb)
    rw [if_neg (by omega)] at hle
    omega

theorem Owners.nodup_held {s : AsyncLogging} (h : s.Owners) : s.held.Nodup := by
  rw [List.nodup_iff_count_le_one]
  intro b
  have hone := h.once b
  rw [pointers, List.count_append] at hone
  omega

/-- Between the steps: producers and the back-end thread hold what they
    need, and the buffers to be given away are empty. -/
structure Buffered (s : AsyncLogging) : Prop where
  owners : s.Owners
  current : s.currentBuffer_ ≠ none
  next : s.nextBuffer_ = none → s.buffers_ ≠ []
  clean : ∀ b, s.newBuffer1 = some b ∨ s.newBuffer2 = some b ∨ s.fresh ≤ b →
    (s.heap b).written = []
  spare : s.Spare → s.newBuffer1 ≠ none ∧ s.newBuffer2 ≠ none
  toWrite : s.backend ≠ .writing → s.buffersToWrite = []
  writing : s.backend = .writing →
    s.buffersToWrite ≠ [] ∧ (s.newBuffer2 = none → 2 ≤ s.buffersToWrite.length)

theorem buffered_new : new.Buffered := by
  refine ⟨⟨fun b => ?_, fun b hb => ?_⟩, ?_, ?_, ?_, ?_, ?_, ?_⟩
  · have hnodup : new.pointers.Nodup := by decide
    exact List.nodup_iff_count_le_one.mp hnodup b
  · have hge : 2 ≤ b := hb
    have hnot : b ∉ new.pointers := by
      intro hmem
      have hlt : ∀ c ∈ new.pointers, c < 2 := by decide
      exact absurd (hlt b hmem) (Nat.not_lt.mpr hge)
    exact List.count_eq_zero.mpr hnot
  all_goals simp [new, Spare, FixedBuffer.new]

/-! ## The producers -/

theorem written_reset {heap : Nat → FixedBuffer} {c b : Nat} (h : (heap b).written = []) :
    (Function.update heap c (heap c).reset b).written = [] := by
  by_cases hb : b = c
  · subst hb
    rw [Function.update_self]
    rfl
  · rw [Function.update_of_ne hb]
    exact h

/-- Only a sleeping thread is woken. -/
theorem notify_backend (s : AsyncLogging) : s.notify.backend = s.backend ∨
    (s.backend = .asleep ∧ s.notify.backend = .woken) := by
  unfold notify
  by_cases hasleep : s.backend = .asleep
  · exact .inr ⟨hasleep, if_pos hasleep⟩
  · exact .inl (if_neg hasleep)

/-- What `append` does: the line is stored, or the current buffer is handed
    over and another one takes its place. -/
theorem append_spec {s : AsyncLogging} {current : Nat} (hcurrent : s.currentBuffer_ = some current)
    (logline : Bytes) :
    let t := s.append logline
    (t.newBuffer1 = s.newBuffer1 ∧ t.newBuffer2 = s.newBuffer2 ∧
      t.buffersToWrite = s.buffersToWrite) ∧
    (t.backend = s.backend ∨ (s.backend = .asleep ∧ t.backend = .woken)) ∧
    (∀ b, b ≠ current → s.nextBuffer_ ≠ some b → b < s.fresh ∨ t.fresh ≤ b →
      (s.heap b).written = [] → (t.heap b).written = []) ∧
    ((t.currentBuffer_ = some current ∧ t.nextBuffer_ = s.nextBuffer_ ∧
        t.buffers_ = s.buffers_ ∧ t.fresh = s.fresh) ∨
      (∃ next, s.nextBuffer_ = some next ∧ t.currentBuffer_ = some next ∧
        t.nextBuffer_ = none ∧ t.buffers_ = s.buffers_ ++ [current] ∧ t.fresh = s.fresh) ∨
      (s.nextBuffer_ = none ∧ t.currentBuffer_ = some s.fresh ∧ t.nextBuffer_ = none ∧
        t.buffers_ = s.buffers_ ++ [current] ∧ t.fresh = s.fresh + 1)) := by
  intro t
  by_cases hroom : (s.heap current).avail > logline.length
  · have heq : t = { s.store current logline with appended := t.appended } := by
      simp only [t, append, hcurrent, if_pos hroom]
    rw [heq]
    refine ⟨⟨rfl, rfl, rfl⟩, .inl rfl, fun b hb _ _ hclean => ?_, .inl ⟨hcurrent, rfl, rfl, rfl⟩⟩
    show (Function.update s.heap current _ b).written = []
    rw [Function.update_of_ne hb]
    exact hclean
  · -- the current buffer is full
    cases hnext : s.nextBuffer_ with
    | some next =>
      have heq : t =
          { ({ { s with buffers_ := s.buffers_ ++ [current] }.reset current with
              currentBuffer_ := some next
              nextBuffer_ := none }.store next logline).notify with
            appended := t.appended } := by
        simp only [t, append, hcurrent, if_neg hroom, reset, hnext]
      rw [heq]
      refine ⟨⟨rfl, rfl, rfl⟩, s.notify_backend, fun b _ hb _ hclean => ?_,
        .inr (.inl ⟨next, rfl, rfl, rfl, rfl, rfl⟩)⟩
      show (Function.update (Function.update s.heap current _) next _ b).written = []
      have hne : b ≠ next := fun heq => hb (by rw [heq])
      rw [Function.update_of_ne hne]
      exact written_reset hclean
    | none =>
      have heq : t =
          { ({ { s with buffers_ := s.buffers_ ++ [current] }.reset current with
              currentBuffer_ := some s.fresh
              fresh := s.fresh + 1 }.store s.fresh logline).notify with
            appended := t.appended } := by
        simp only [t, append, hcurrent, if_neg hroom, reset, hnext]
      rw [heq]
      -- the line is stored in a new buffer
      refine ⟨⟨rfl, rfl, rfl⟩, s.notify_backend, fun b _ _ hb hclean => ?_,
        .inr (.inr ⟨rfl, rfl, hnext, rfl, rfl⟩)⟩
      show (Function.update (Function.update s.heap current _) s.fresh _ b).written = []
      have hne : b ≠ s.fresh := by
        rcases hb with hlt | hge
        · exact Nat.ne_of_lt hlt
        · have hge' : s.fresh + 1 ≤ b := hge
          exact (Nat.ne_of_lt hge').symm
      rw [Function.update_of_ne hne]
      exact written_reset hclean

theorem count_pointers (s : AsyncLogging) (b : Nat) : s.pointers.count b =
    s.currentBuffer_.toList.count b + s.nextBuffer_.toList.count b + s.newBuffer1.toList.count b +
      s.newBuffer2.toList.count b + s.buffers_.count b + s.buffersToWrite.count b := by
  simp only [pointers, held, List.count_append]

/-- A spare buffer of the back-end thread is none of the producers'. -/
theorem Owners.spare_ne {s : AsyncLogging} (h : s.Owners) {b : Nat}
    (hb : s.newBuffer1 = some b ∨ s.newBuffer2 = some b) :
    s.currentBuffer_ ≠ some b ∧ s.nextBuffer_ ≠ some b ∧ b < s.fresh := by
  have hone := h.once b
  rw [count_pointers] at hone
  have hspare : 1 ≤ s.newBuffer1.toList.count b + s.newBuffer2.toList.count b := by
    rcases hb with hb | hb
    · simp [hb]
    · simp [hb]
  refine ⟨fun heq => ?_, fun heq => ?_, ?_⟩
  · have hself : s.currentBuffer_.toList.count b = 1 := by simp [heq]
    omega
  · have hself : s.nextBuffer_.toList.count b = 1 := by simp [heq]
    omega
  · by_contra hge
    have hzero := h.allocated b (Nat.le_of_not_lt hge)
    rw [count_pointers] at hzero
    omega

/-- Nobody holds a buffer that does not exist. -/
theorem Owners.fresh_ne {s : AsyncLogging} (h : s.Owners) {b : Nat} (hb : s.fresh ≤ b) :
    s.currentBuffer_ ≠ some b ∧ s.nextBuffer_ ≠ some b := by
  have hzero := h.allocated b hb
  rw [count_pointers] at hzero
  constructor
  · intro heq
    have hself : s.currentBuffer_.toList.count b = 1 := by simp [heq]
    omega
  · intro heq
    have hself : s.nextBuffer_.toList.count b = 1 := by simp [heq]
    omega

section Append

variable {s : AsyncLogging} {current : Nat} (hcurrent : s.currentBuffer_ = some current)
  (logline : Bytes)

include hcurrent

theorem fresh_append : s.fresh ≤ (s.append logline).fresh := by
  obtain ⟨-, -, -, hcases⟩ := append_spec hcurrent logline
  rcases hcases with ⟨-, -, -, hf⟩ | ⟨_, -, -, -, -, hf⟩ | ⟨-, -, -, -, hf⟩ <;> omega

/-- The buffers go around among the producers; at most one is new. -/
theorem Owners.append (h : s.Owners) : (s.append logline).Owners := by
  obtain ⟨⟨h1, h2, h3⟩, -, -, hcases⟩ := append_spec hcurrent logline
  apply h.step (fresh_append hcurrent logline)
  intro b
  rw [count_pointers, count_pointers, h1, h2, h3, hcurrent]
  rcases hcases with ⟨hc, hn, hb, hf⟩ | ⟨next, hnext, hc, hn, hb, hf⟩ | ⟨hnext, hc, hn, hb, hf⟩
  · rw [hc, hn, hb]
    omega
  · rw [hc, hn, hb, hnext]
    simp only [Option.toList_some, Option.toList_none, List.count_append, List.count_nil]
    omega
  · -- the only new pointer is the one to the new buffer
    rw [hc, hn, hb, hnext, hf]
    simp only [Option.toList_some, Option.toList_none, List.count_append, List.count_nil,
      List.count_singleton]
    by_cases heq : b = s.fresh
    · have hnew : s.fresh ≤ b ∧ b < s.fresh + 1 := by omega
      rw [if_pos hnew]
      split <;> split <;> omega
    · have hne : (s.fresh == b) = false := beq_eq_false_iff_ne.mpr (Ne.symm heq)
      simp only [hne, Bool.false_eq_true, if_false]
      omega

/-- A producer writes to no buffer of the back-end thread, and to no buffer
    that does not exist yet. -/
theorem Buffered.clean_append (h : s.Buffered) {b : Nat}
    (hb : s.newBuffer1 = some b ∨ s.newBuffer2 = some b ∨ (s.append logline).fresh ≤ b) :
    ((s.append logline).heap b).written = [] := by
  obtain ⟨-, -, hheap, -⟩ := append_spec hcurrent logline
  have hne : ∀ {c : Nat}, s.currentBuffer_ ≠ some c → c ≠ current := by
    intro c hc heq
    apply hc
    rw [hcurrent, heq]
  rcases or_assoc.mpr hb with hmine | hge
  · obtain ⟨hc, hn, hlt⟩ := h.owners.spare_ne hmine
    exact hheap b (hne hc) hn (.inl hlt) (h.clean b (or_assoc.mp (.inl hmine)))
  · have hold : s.fresh ≤ b := Nat.le_trans (fresh_append hcurrent logline) hge
    obtain ⟨hc, hn⟩ := h.owners.fresh_ne hold
    exact hheap b (hne hc) hn (.inr hge) (h.clean b (.inr (.inr hold)))

end Append

theorem Buffered.append {s : AsyncLogging} (h : s.Buffered) (logline : Bytes) :
    (s.append logline).Buffered := by
  obtain ⟨current, hcurrent⟩ := Option.ne_none_iff_exists'.mp h.current
  obtain ⟨⟨h1, h2, h3⟩, hbackend, -, hcases⟩ := append_spec hcurrent logline
  -- waking the back-end thread does not change what it holds
  have hspare : (s.append logline).Spare → s.Spare := by
    rcases hbackend with heq | ⟨hasleep, -⟩
    · simp only [Spare, heq]
      exact id
    · exact fun _ => .inr (.inr (.inl hasleep))
  have hwriting : (s.append logline).backend = .writing ↔ s.backend = .writing := by
    rcases hbackend with heq | ⟨hasleep, hwoken⟩
    · rw [heq]
    · rw [hasleep, hwoken]
      simp
  refine ⟨h.owners.append hcurrent logline, ?_, ?_, fun b hb => ?_, fun hs => ?_, fun hs => ?_,
    fun hs => ?_⟩
  · rcases hcases with ⟨hc, -⟩ | ⟨next, -, hc, -⟩ | ⟨-, hc, -⟩ <;> rw [hc] <;> simp
  · -- the spare buffer is taken for one that is handed over
    rcases hcases with ⟨-, hn, hb, -⟩ | ⟨next, -, -, -, hb, -⟩ | ⟨-, -, -, hb, -⟩
    · rw [hn, hb]
      exact h.next
    · rw [hb]
      simp
    · rw [hb]
      simp
  · rw [h1, h2] at hb
    exact h.clean_append hcurrent logline hb
  · rw [h1, h2]
    exact h.spare (hspare hs)
  · rw [h3]
    exact h.toWrite fun hw => hs (hwriting.mpr hw)
  · rw [h2, h3]
    exact h.writing (hwriting.mp hs)

/-! ## The back-end thread -/

/-- The current buffer goes to the back end, which gives its first spare
    buffer for it, and the second one if the producers have none left. -/
theorem handOver_spec {s : AsyncLogging} {current : Nat}
    (hcurrent : s.currentBuffer_ = some current) :
    let t := s.handOver
    (t.currentBuffer_ = s.newBuffer1 ∧ t.newBuffer1 = none ∧
      t.buffersToWrite = s.buffers_ ++ [current] ∧ t.buffers_ = s.buffersToWrite) ∧
    t.fresh = s.fresh ∧ t.backend = .writing ∧
    (∀ b, (s.heap b).written = [] → (t.heap b).written = []) ∧
    ((s.nextBuffer_ ≠ none ∧ t.nextBuffer_ = s.nextBuffer_ ∧ t.newBuffer2 = s.newBuffer2) ∨
      (s.nextBuffer_ = none ∧ t.nextBuffer_ = s.newBuffer2 ∧ t.newBuffer2 = none)) := by
  intro t
  cases hnext : s.nextBuffer_ with
  | some next =>
    have heq : t =
        { s.reset current with
          buffersToWrite := s.buffers_ ++ [current]
          buffers_ := s.buffersToWrite
          currentBuffer_ := s.newBuffer1
          newBuffer1 := none
          backend := .writing } := by
      simp only [t, handOver, hcurrent, reset, hnext]
    rw [heq]
    exact ⟨⟨rfl, rfl, rfl, rfl⟩, rfl, rfl, fun b hb => written_reset hb,
      .inl ⟨Option.some_ne_none next, hnext, rfl⟩⟩
  | none =>
    have heq : t =
        { s.reset current with
          buffersToWrite := s.buffers_ ++ [current]
          buffers_ := s.buffersToWrite
          currentBuffer_ := s.newBuffer1
          newBuffer1 := none
          nextBuffer_ := s.newBuffer2
          newBuffer2 := none
          backend := .writing } := by
      simp only [t, handOver, hcurrent, reset, hnext]
    rw [heq]
    exact ⟨⟨rfl, rfl, rfl, rfl⟩, rfl, rfl, fun b hb => written_reset hb, .inr ⟨rfl, rfl, rfl⟩⟩

/-- No buffer is made, and none is given away twice. -/
theorem Owners.handOver {s : AsyncLogging} (h : s.Owners) {current : Nat}
    (hcurrent : s.currentBuffer_ = some current) (hidle : s.buffersToWrite = []) :
    s.handOver.Owners := by
  obtain ⟨⟨hc, h1, hw, hb⟩, hf, -, -, hcases⟩ := handOver_spec hcurrent
  apply h.step (Nat.le_of_eq hf.symm)
  intro b
  rw [count_pointers, count_pointers, hc, h1, hw, hb, hidle, hcurrent]
  simp only [List.count_append, Option.toList_none, Option.toList_some, List.count_nil]
  rcases hcases with ⟨-, hn, h2⟩ | ⟨hnone, hn, h2⟩
  · rw [hn, h2]
    omega
  · rw [hn, h2, hnone]
    simp only [Option.toList_none, List.count_nil]
    omega

theorem Buffered.handOver {s : AsyncLogging} (h : s.Buffered) (hspare : s.Spare) :
    s.handOver.Buffered := by
  obtain ⟨current, hcurrent⟩ := Option.ne_none_iff_exists'.mp h.current
  obtain ⟨hnew1, hnew2⟩ := h.spare hspare
  have hidle : s.buffersToWrite = [] := by
    apply h.toWrite
    intro hwriting
    simp [Spare, hwriting] at hspare
  obtain ⟨⟨hc, h1, hw, hb⟩, hf, hbackend, hheap, hcases⟩ := handOver_spec hcurrent
  refine ⟨h.owners.handOver hcurrent hidle, ?_, ?_, fun b hclean => ?_, fun hs => ?_,
    fun hs => absurd hbackend hs, fun _ => ⟨?_, fun hnone => ?_⟩⟩
  · -- the first spare buffer is the current one now
    rw [hc]
    exact hnew1
  · -- the producers have a spare buffer: their own, or the second one
    rcases hcases with ⟨hsome, hn, -⟩ | ⟨-, hn, -⟩
    · exact fun hnone => absurd (hn.symm.trans hnone) hsome
    · exact fun hnone => absurd (hn.symm.trans hnone) hnew2
  · apply hheap b
    apply h.clean b
    rw [h1, hf] at hclean
    rcases hclean with hnone | hsecond | hfresh
    · exact absurd hnone (by simp)
    · rcases hcases with ⟨-, -, h2⟩ | ⟨-, -, h2⟩
      · exact .inr (.inl (h2.symm.trans hsecond))
      · rw [h2] at hsecond
        exact absurd hsecond (by simp)
    · exact .inr (.inr hfresh)
  · simp [Spare, hbackend] at hs
  · rw [hw]
    simp
  · -- the producers had no spare buffer, so they have handed one over
    rcases hcases with ⟨-, -, h2⟩ | ⟨hnext, -, -⟩
    · exact absurd (h2.symm.trans hnone) hnew2
    · rw [hw, List.length_append]
      have hpos := List.length_pos_iff.mpr (h.next hnext)
      exact Nat.succ_le_succ hpos

/-- The buffers left after the writing are among those handed over, and one
    or two of them as there were one or more. -/
theorem trim_spec (s : AsyncLogging) (report : Bytes) (fwrite : Nat → List Nat) :
    let t := s.trim report fwrite
    t.pointers.Sublist s.pointers ∧ t.buffersToWrite.length = min s.buffersToWrite.length 2 ∧
      (t.currentBuffer_ = s.currentBuffer_ ∧ t.nextBuffer_ = s.nextBuffer_ ∧
        t.buffers_ = s.buffers_ ∧ t.newBuffer1 = s.newBuffer1 ∧ t.newBuffer2 = s.newBuffer2) ∧
      t.heap = s.heap ∧ t.fresh = s.fresh := by
  intro t
  by_cases hmany : s.buffersToWrite.length > 25
  · have hleft : t.buffersToWrite = s.buffersToWrite.tail.take 2 := by
      simp only [t, trim, dropBuffers, if_pos hmany, writeBuffers]
    have hsub : t.buffersToWrite.Sublist s.buffersToWrite := by
      rw [hleft]
      exact (List.take_sublist _ _).trans (List.tail_sublist _)
    refine ⟨List.Sublist.append ?_ hsub, ?_, ?_, ?_, ?_⟩
    · simp only [t, trim, dropBuffers, if_pos hmany, writeBuffers, held]
      exact List.Sublist.refl _
    · rw [hleft, List.length_take, List.length_tail]
      omega
    all_goals simp only [t, trim, dropBuffers, if_pos hmany, writeBuffers, and_self]
  · have hleft : t.buffersToWrite = s.buffersToWrite.take 2 := by
      simp only [t, trim, dropBuffers, if_neg hmany, writeBuffers]
    refine ⟨List.Sublist.append ?_ ?_, ?_, ?_, ?_, ?_⟩
    · simp only [t, trim, dropBuffers, if_neg hmany, writeBuffers, held]
      exact List.Sublist.refl _
    · rw [hleft]
      exact List.take_sublist _ _
    · rw [hleft, List.length_take]
      omega
    all_goals simp only [t, trim, dropBuffers, if_neg hmany, writeBuffers, and_self]

/-- A spare buffer that is missing is refilled with the last one written. -/
theorem refill1_spec {s : AsyncLogging} (hback : s.newBuffer1 = none → s.buffersToWrite ≠ []) :
    let t := s.refill1
    t.newBuffer1 ≠ none ∧
      (∀ b, t.newBuffer1.toList.count b + t.buffersToWrite.count b =
        s.newBuffer1.toList.count b + s.buffersToWrite.count b) ∧
      s.buffersToWrite.length ≤ t.buffersToWrite.length + 1 ∧
      (∀ b, (s.heap b).written = [] → (t.heap b).written = []) ∧
      (∀ b, t.newBuffer1 = some b → s.newBuffer1 = some b ∨ (t.heap b).written = []) ∧
      (t.currentBuffer_ = s.currentBuffer_ ∧ t.nextBuffer_ = s.nextBuffer_ ∧
        t.buffers_ = s.buffers_ ∧ t.newBuffer2 = s.newBuffer2) ∧ t.fresh = s.fresh := by
  intro t
  cases hnew : s.newBuffer1 with
  | some first =>
    have heq : t = s := by simp only [t, refill1, hnew]
    rw [heq, hnew]
    exact ⟨Option.some_ne_none first, fun _ => rfl, Nat.le_succ _, fun _ hb => hb,
      fun _ hb => .inl hb, ⟨rfl, rfl, rfl, rfl⟩, rfl⟩
  | none =>
    obtain ⟨left, last, hlast⟩ :=
      (List.eq_nil_or_concat' s.buffersToWrite).resolve_left (hback hnew)
    have heq : t = { s with newBuffer1 := some last, buffersToWrite := left }.recycle last := by
      simp only [t, refill1, hnew, hlast, List.getLast?_append, List.getLast?_singleton,
        Option.some_or, List.dropLast_concat]
    rw [heq]
    refine ⟨Option.some_ne_none last, fun b => ?_, ?_, fun b hb => written_reset hb, fun b hb => ?_,
      ⟨rfl, rfl, rfl, rfl⟩, rfl⟩
    · show [last].count b + left.count b = [].count b + s.buffersToWrite.count b
      rw [hlast, List.count_append, List.count_nil]
      omega
    · rw [hlast, List.length_append]
      exact Nat.le_refl _
    · obtain rfl := Option.some.inj hb
      refine .inr ?_
      show (Function.update s.heap last _ last).written = []
      rw [Function.update_self]
      rfl

theorem refill2_spec {s : AsyncLogging} (hback : s.newBuffer2 = none → s.buffersToWrite ≠ []) :
    let t := s.refill2
    t.newBuffer2 ≠ none ∧
      (∀ b, t.newBuffer2.toList.count b ≤
        s.newBuffer2.toList.count b + s.buffersToWrite.count b) ∧
      (∀ b, (s.heap b).written = [] → (t.heap b).written = []) ∧
      (∀ b, t.newBuffer2 = some b → s.newBuffer2 = some b ∨ (t.heap b).written = []) ∧
      (t.currentBuffer_ = s.currentBuffer_ ∧ t.nextBuffer_ = s.nextBuffer_ ∧
        t.buffers_ = s.buffers_ ∧ t.newBuffer1 = s.newBuffer1) ∧ t.fresh = s.fresh := by
  intro t
  cases hnew : s.newBuffer2 with
  | some second =>
    have heq : t = s := by simp only [t, refill2, hnew]
    rw [heq, hnew]
    exact ⟨Option.some_ne_none second, fun _ => Nat.le_add_right _ _, fun _ hb => hb,
      fun _ hb => .inl hb, ⟨rfl, rfl, rfl, rfl⟩, rfl⟩
  | none =>
    obtain ⟨left, last, hlast⟩ :=
      (List.eq_nil_or_concat' s.buffersToWrite).resolve_left (hback hnew)
    have heq : t = { s with newBuffer2 := some last }.recycle last := by
      simp only [t, refill2, hnew, hlast, List.getLast?_append, List.getLast?_singleton,
        Option.some_or]
    rw [heq]
    refine ⟨Option.some_ne_none last, fun b => ?_, fun b hb => written_reset hb, fun b hb => ?_,
      ⟨rfl, rfl, rfl, rfl⟩, rfl⟩
    · show [last].count b ≤ [].count b + s.buffersToWrite.count b
      rw [hlast, List.count_append, List.count_nil]
      omega
    · obtain rfl := Option.some.inj hb
      refine .inr ?_
      show (Function.update s.heap last _ last).written = []
      rw [Function.update_self]
      rfl

/-- The assertions of an iteration hold. -/
theorem Buffered.writeAsserts {s : AsyncLogging} (h : s.Buffered) (hwriting : s.backend = .writing)
    (report : Bytes) (fwrite : Nat → List Nat) : s.WriteAsserts report fwrite := by
  obtain ⟨hne, htwo⟩ := h.writing hwriting
  have hpos := List.length_pos_iff.mpr hne
  obtain ⟨-, hlen, ⟨-, -, -, -, h2⟩, -⟩ := s.trim_spec report fwrite
  have hone : (s.trim report fwrite).buffersToWrite ≠ [] := by
    intro hnil
    rw [hnil, List.length_nil] at hlen
    omega
  obtain ⟨-, -, hleft, -, -, ⟨-, -, -, h2'⟩, -⟩ := refill1_spec fun _ => hone
  refine ⟨hne, fun _ => hone, fun hnone hnil => ?_⟩
  rw [h2', h2] at hnone
  have hmany := htwo hnone
  rw [hnil, List.length_nil] at hleft
  omega

section Write

variable {s : AsyncLogging} {report : Bytes} {fwrite : Nat → List Nat}
  (hasserts : s.WriteAsserts report fwrite)

include hasserts

theorem fresh_write : (s.write report fwrite).fresh = s.fresh := by
  obtain ⟨-, -, -, -, hf⟩ := s.trim_spec report fwrite
  obtain ⟨-, -, -, -, -, -, hf1⟩ := refill1_spec hasserts.back1
  obtain ⟨-, -, -, -, -, hf2⟩ := refill2_spec hasserts.back2
  rw [write_eq]
  exact hf2.trans (hf1.trans hf)

/-- What is refilled with was to be written, and nothing else moves. -/
theorem Owners.write (h : s.Owners) : (s.write report fwrite).Owners := by
  obtain ⟨hsub, -⟩ := s.trim_spec report fwrite
  obtain ⟨-, hcount1, -, -, -, ⟨hc1, hn1, hb1, h21⟩, -⟩ := refill1_spec hasserts.back1
  obtain ⟨-, hcount2, -, -, ⟨hc2, hn2, hb2, h12⟩, -⟩ := refill2_spec hasserts.back2
  apply h.step (Nat.le_of_eq (fresh_write hasserts).symm)
  intro b
  have hle := hsub.count_le b
  rw [count_pointers] at hle
  have hle1 := hcount1 b
  have hle2 := hcount2 b
  rw [h21] at hle2
  rw [write_eq, count_pointers]
  simp only [hc2, hc1, hn2, hn1, h12, hb2, hb1, List.count_nil]
  omega

/-- Buffers are emptied in an iteration, never filled. -/
theorem written_write {b : Nat} (hb : (s.heap b).written = []) :
    ((s.write report fwrite).heap b).written = [] := by
  obtain ⟨-, -, -, hheap, -⟩ := s.trim_spec report fwrite
  obtain ⟨-, -, -, hclean1, -⟩ := refill1_spec hasserts.back1
  obtain ⟨-, -, hclean2, -⟩ := refill2_spec hasserts.back2
  rw [write_eq]
  apply hclean2 b
  apply hclean1 b
  rw [hheap]
  exact hb

end Write

theorem Buffered.write {s : AsyncLogging} (h : s.Buffered) (hwriting : s.backend = .writing)
    (report : Bytes) (fwrite : Nat → List Nat) : (s.write report fwrite).Buffered := by
  have hasserts := h.writeAsserts hwriting report fwrite
  obtain ⟨-, -, ⟨hc, hn, hb, h1, h2⟩, -⟩ := s.trim_spec report fwrite
  obtain ⟨hsome1, -, -, -, hnew1, ⟨hc1, hn1, hb1, h21⟩, -⟩ := refill1_spec hasserts.back1
  obtain ⟨hsome2, -, hclean2, hnew2, ⟨hc2, hn2, hb2, h12⟩, -⟩ := refill2_spec hasserts.back2
  refine ⟨h.owners.write hasserts, ?_, ?_, fun b hb' => ?_, fun _ => ?_, fun _ => rfl,
    fun hs => absurd hs (by simp [write_eq])⟩
  · rw [write_eq]
    simp only [hc2, hc1, hc]
    exact h.current
  · rw [write_eq]
    simp only [hn2, hn1, hn, hb2, hb1, hb]
    exact h.next
  · -- a spare buffer was empty before, or has just been emptied
    have hkept := @written_write s report fwrite hasserts b
    rw [fresh_write hasserts, write_eq] at hb'
    rcases hb' with hfirst | hsecond | hge
    · rcases hnew1 b (h12.symm.trans hfirst) with hsame | hreset
      · exact hkept (h.clean b (.inl (h1.symm.trans hsame)))
      · exact hclean2 b hreset
    · rcases hnew2 b hsecond with hsame | hreset
      · exact hkept (h.clean b (.inr (.inl (h2.symm.trans (h21.symm.trans hsame)))))
      · exact hreset
    · exact hkept (h.clean b (.inr (.inr hge)))
  · rw [write_eq]
    simp only [h12]
    exact ⟨hsome1, hsome2⟩

/-- The back-end thread moves, and the buffers stay where they are. -/
theorem Buffered.move {s : AsyncLogging} (h : s.Buffered) {backend : Backend}
    (hspare : { s with backend := backend }.Spare → s.Spare) (hfrom : s.backend ≠ .writing)
    (hto : backend ≠ .writing) : { s with backend := backend }.Buffered :=
  ⟨⟨h.owners.once, h.owners.allocated⟩, h.current, h.next, h.clean, fun hs => h.spare (hspare hs),
    fun _ => h.toWrite hfrom, fun hs => absurd hs hto⟩

/-- Nobody looks at the flags to find a buffer. -/
theorem Buffered.flags {s : AsyncLogging} (h : s.Buffered)
    (running stopCalled stopReturned : Bool) :
    { s with
      running_ := running
      stopCalled := stopCalled
      stopReturned := stopReturned }.Buffered :=
  ⟨⟨h.owners.once, h.owners.allocated⟩, h.current, h.next, h.clean, h.spare, h.toWrite, h.writing⟩

theorem Buffered.begin {s : AsyncLogging} (h : s.Buffered) (hbackend : s.backend = .begins)
    (ndebug : Bool) : (s.begin ndebug).Buffered := by
  unfold AsyncLogging.begin
  split
  · exact h.move (by simp [Spare]) (by simp [hbackend]) (by simp)
  · have htoWrite := h.toWrite (by simp [hbackend])
    refine ⟨h.owners.step (Nat.le_add_right _ 2) fun b => ?_, h.current, h.next, fun b hb => ?_,
      fun _ => ⟨Option.some_ne_none _, Option.some_ne_none _⟩, fun _ => htoWrite,
      fun hs => absurd hs (by simp)⟩
    · -- two new buffers
      rw [count_pointers, count_pointers]
      simp only [Option.toList_some, List.count_singleton]
      by_cases hnew : s.fresh ≤ b ∧ b < s.fresh + 2
      · rw [if_pos hnew]
        by_cases hfirst : b = s.fresh
        · have hsecond : (s.fresh + 1 == b) = false := beq_eq_false_iff_ne.mpr (by omega)
          simp only [hsecond, Bool.false_eq_true, if_false]
          split <;> omega
        · have hfirst' : (s.fresh == b) = false := beq_eq_false_iff_ne.mpr (Ne.symm hfirst)
          simp only [hfirst', Bool.false_eq_true, if_false]
          split <;> omega
      · have hfirst : (s.fresh == b) = false := beq_eq_false_iff_ne.mpr (by omega)
        have hsecond : (s.fresh + 1 == b) = false := beq_eq_false_iff_ne.mpr (by omega)
        simp only [hfirst, hsecond, Bool.false_eq_true, if_false]
        omega
    · apply h.clean b
      refine .inr (.inr ?_)
      rcases hb with hb | hb | hb
      · exact Nat.le_of_eq (Option.some.inj hb)
      · have heq : s.fresh + 1 = b := Option.some.inj hb
        omega
      · have hge : s.fresh + 2 ≤ b := hb
        omega

/-! ## Runs -/

theorem buffered_next {ndebug : Bool} {s : AsyncLogging} (h : s.Buffered) {l : Step}
    (hl : s.anyGuard l) : (s.next ndebug l).Buffered := by
  cases l with
  | append logline => exact h.append logline
  | start =>
    have hbackend : s.backend = .notStarted := hl
    have hmove : Buffered { s with backend := .begins } :=
      h.move (by simp [Spare]) (by simp [hbackend]) (by simp)
    exact hmove.flags true s.stopCalled s.stopReturned
  | stop =>
    -- the notification wakes the back-end thread, which holds what it held
    by_cases hasleep : s.backend = .asleep
    · have hmove : Buffered { s with backend := .woken } :=
        h.move (fun _ => by simp [Spare, hasleep]) (by simp [hasleep]) (by simp)
      have heq : s.next ndebug .stop =
          { s with running_ := false, backend := .woken, stopCalled := true } := by
        simp only [next, stop, notify, if_pos hasleep]
      rw [heq]
      exact hmove.flags false true s.stopReturned
    · have heq : s.next ndebug .stop = { s with running_ := false, stopCalled := true } := by
        simp only [next, stop, notify, if_neg hasleep]
      rw [heq]
      exact h.flags false true s.stopReturned
  | join => exact h.flags s.running_ s.stopCalled true
  | begin => exact h.begin hl ndebug
  | testRunning =>
    have hbackend : s.backend = .loopHead := hl
    refine h.move (fun _ => ?_) (by simp [hbackend]) ?_
    · simp [Spare, hbackend]
    · split <;> simp
  | lock =>
    have hbackend : s.backend = .locking := hl
    show s.lock.Buffered
    unfold lock
    split
    · refine h.move (fun _ => ?_) (by simp [hbackend]) (by simp)
      simp [Spare, hbackend]
    · exact h.handOver (by simp [Spare, hbackend])
  | wake =>
    have hbackend : s.backend = .asleep := hl
    refine h.move (fun _ => ?_) (by simp [hbackend]) (by simp)
    simp [Spare, hbackend]
  | handOver =>
    have hbackend : s.backend = .woken := hl
    exact h.handOver (by simp [Spare, hbackend])
  | write report fwrite => exact h.write hl report fwrite

theorem buffered_run {ndebug : Bool} {ls : List Step}
    (hvalid : (doubleBuffering ndebug).Valid new ls) :
    ((doubleBuffering ndebug).run new ls).Buffered :=
  (doubleBuffering ndebug).invariant_run Buffered (fun _ _ h hl => buffered_next h hl)
    buffered_new hvalid

/-- **The back-end thread always has two empty buffers to give away**: in
    every interleaving of producers with the back-end loop, at the head of
    an iteration its spare buffers are there and empty, nothing is left to
    write, and no two of the buffers that producers and back end hold are
    the same; and in the iteration the assertions hold, whatever is
    reported and however much of it is written. -/
theorem double_buffering (ndebug : Bool) {ls : List Step}
    (hvalid : (doubleBuffering ndebug).Valid new ls) :
    let s := (doubleBuffering ndebug).run new ls
    (s.AtHead → s.SpareAssert s.newBuffer1 ∧ s.SpareAssert s.newBuffer2 ∧
      s.buffersToWrite = [] ∧ s.held.Nodup) ∧
      (s.backend = .writing → ∀ (report : Bytes) (fwrite : Nat → List Nat),
        s.WriteAsserts report fwrite) := by
  have h := buffered_run hvalid
  refine ⟨fun hhead => ?_, h.writeAsserts⟩
  have hspare : ((doubleBuffering ndebug).run new ls).Spare := by
    rcases hhead with hhead | hhead
    · exact .inl hhead
    · exact .inr (.inl hhead)
  obtain ⟨hnew1, hnew2⟩ := h.spare hspare
  obtain ⟨b1, hb1⟩ := Option.ne_none_iff_exists'.mp hnew1
  obtain ⟨b2, hb2⟩ := Option.ne_none_iff_exists'.mp hnew2
  refine ⟨⟨b1, hb1, ?_⟩, ⟨b2, hb2, ?_⟩, h.toWrite ?_, h.owners.nodup_held⟩
  · rw [FixedBuffer.length, h.clean b1 (.inl hb1)]
    rfl
  · rw [FixedBuffer.length, h.clean b2 (.inr (.inl hb2))]
    rfl
  · rcases hhead with hhead | hhead <;> simp [hhead]

/-- The back-end thread goes around once, and a line comes in between. -/
theorem double_buffering_once :
    let ls : List Step := [.start, .begin, .testRunning, .lock, .append (bytes "a"), .wake,
      .handOver, .append (bytes "b"), .write [] fun _ => []]
    ((doubleBuffering true).run new ls).held.Nodup :=
  ((double_buffering true (by decide)).1 (by decide)).2.2.2

end AsyncLogging

end TinyWS
