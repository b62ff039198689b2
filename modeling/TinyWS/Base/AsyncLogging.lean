import TinyWS.Framework.Machine
import TinyWS.Net.Buffer
import Mathlib.Logic.Function.Basic

/-! # AsyncLogging

    Producers append lines to a current buffer under one mutex; a back-end
    thread takes the filled buffers over, writes them to the log file and
    recycles them.  `stop` clears `running_` and joins the thread.

    `FixedBuffer::append` has an empty body, so nothing a producer appends
    ever reaches a buffer: a log is complete exactly when all its lines
    are empty.

    A step is a critical section of `mutex_`, a test of `running_` outside
    of it, or the part of an iteration that only the back-end thread can
    see; waiting splits the critical section of the back-end thread.
    Buffers are shared pointers into a heap. -/

namespace TinyWS

/-! ## Buffers and files -/

def kLargeBuffer : Nat := 4000 * 1000

/-- `FixedBuffer<kLargeBuffer>`, known by the bytes in front of `cur_`. -/
structure FixedBuffer where
  written : Bytes

namespace FixedBuffer

def new : FixedBuffer := ⟨[]⟩

/-- `append(buffer, len)`: the body is empty. -/
def append (b : FixedBuffer) (_buffer : Bytes) : FixedBuffer := b

def avail (b : FixedBuffer) : Nat := kLargeBuffer - b.written.length

/-- `reset()`: `cur_` is back at the start. -/
def reset (_b : FixedBuffer) : FixedBuffer := ⟨[]⟩

end FixedBuffer

namespace FileUtil

/-- The loop of `append`: it writes what is behind the first `n` bytes, over
    and over, until so many bytes are written or a write returns 0. -/
def retry (logline : Bytes) (n : Nat) : Bytes → Nat → List Nat → Bytes
  | file, _, [] => file
  | file, remain, tmp :: tmps =>
      if remain = 0 ∨ tmp = 0 then file
      else retry logline n (file ++ ((logline.drop n).take (min tmp remain))) (remain - tmp) tmps

/-- `append(logline, len)`, with the numbers that `fwrite` returns. -/
def append (file logline : Bytes) (fwrite : List Nat) : Bytes :=
  let n := min (fwrite.headD 0) logline.length
  retry logline n (file ++ logline.take n) (logline.length - n) fwrite.tail

end FileUtil

/-! ## The logger -/

/-- Where the back-end thread is. -/
inductive Backend where
  | notStarted
  /-- In front of `assert(running_ == false)`. -/
  | begins
  /-- The assertion failed, and the program is gone. -/
  | aborted
  /-- In front of `while (running_)`. -/
  | loopHead
  /-- In front of the critical section. -/
  | locking
  /-- Inside `condition_.waitForSecond(flushInterval_)`. -/
  | asleep
  | woken
  /-- Behind the critical section. -/
  | writing
  | exited
  deriving DecidableEq

/-- `class AsyncLogging` with the locals of `threadFunction`. -/
structure AsyncLogging where
  running_ : Bool
  /-- The buffers, by their address. -/
  heap : Nat → FixedBuffer
  /-- The next address. -/
  fresh : Nat
  currentBuffer_ : Option Nat
  nextBuffer_ : Option Nat
  buffers_ : List Nat
  newBuffer1 : Option Nat
  newBuffer2 : Option Nat
  buffersToWrite : List Nat
  backend : Backend
  /-- What the log file holds once it is flushed. -/
  file : Bytes
  stopCalled : Bool
  stopReturned : Bool
  /-- The lines appended before `stop` was called. -/
  appended : List Bytes
  /-- The positions of the lines handed to a buffer since it was recycled. -/
  batch : Nat → List Nat
  /-- The positions of the lines in batches that were reported as dropped. -/
  dropped : List Nat

namespace AsyncLogging

/-- The constructor. -/
def new : AsyncLogging where
  running_ := false
  heap := fun _ => FixedBuffer.new
  fresh := 2
  currentBuffer_ := some 0
  nextBuffer_ := some 1
  buffers_ := []
  newBuffer1 := none
  newBuffer2 := none
  buffersToWrite := []
  backend := .notStarted
  file := []
  stopCalled := false
  stopReturned := false
  appended := []
  batch := fun _ => []
  dropped := []

/-- `b->reset()`. -/
def reset (s : AsyncLogging) (b : Nat) : AsyncLogging :=
  { s with heap := Function.update s.heap b (s.heap b).reset }

/-- `b->append(logline, len)`; the line belongs to the batch of `b`. -/
def store (s : AsyncLogging) (b : Nat) (logline : Bytes) : AsyncLogging :=
  { s with
    heap := Function.update s.heap b ((s.heap b).append logline)
    batch :=
      if s.stopCalled then s.batch
      else Function.update s.batch b (s.batch b ++ [s.appended.length]) }

/-- `condition_.notify()`: only the back-end thread waits. -/
def notify (s : AsyncLogging) : AsyncLogging :=
  { s with backend := if s.backend = .asleep then .woken else s.backend }

/-- `append(logline, len)`.  A null pointer is not followed. -/
def append (s : AsyncLogging) (logline : Bytes) : AsyncLogging :=
  let s :=
    match s.currentBuffer_ with
    | none => s
    | some current =>
        if (s.heap current).avail > logline.length then s.store current logline
        else
          -- the buffer is emptied before the back end has seen it
          let s := { s with buffers_ := s.buffers_ ++ [current] }.reset current
          match s.nextBuffer_ with
          | some next =>
              ({ s with
                currentBuffer_ := some next
                nextBuffer_ := none }.store next logline).notify
          | none =>
              ({ s with
                currentBuffer_ := some s.fresh
                fresh := s.fresh + 1 }.store s.fresh logline).notify
  { s with appended := if s.stopCalled then s.appended else s.appended ++ [logline] }

/-- `start()`, up to the wait for the latch. -/
def start (s : AsyncLogging) : AsyncLogging :=
  { s with
    running_ := true
    backend := .begins }

/-- `stop()`, up to the join. -/
def stop (s : AsyncLogging) : AsyncLogging :=
  { { s with running_ := false }.notify with stopCalled := true }

/-- The first lines of `threadFunction`, with assertions compiled out or
    not. -/
def begin (ndebug : Bool) (s : AsyncLogging) : AsyncLogging :=
  if !ndebug && s.running_ then { s with backend := .aborted }
  else
    { s with
      newBuffer1 := some s.fresh
      newBuffer2 := some (s.fresh + 1)
      fresh := s.fresh + 2
      backend := .loopHead }

/-- `while (running_)`. -/
def testRunning (s : AsyncLogging) : AsyncLogging :=
  { s with backend := if s.running_ then .locking else .exited }

/-- The critical section behind the wait. -/
def handOver (s : AsyncLogging) : AsyncLogging :=
  let s :=
    match s.currentBuffer_ with
    | none => s
    | some current => { s with buffers_ := s.buffers_ ++ [current] }.reset current
  let s := { s with currentBuffer_ := s.newBuffer1, newBuffer1 := none }
  -- the two vectors are swapped
  let s := { s with buffersToWrite := s.buffers_, buffers_ := s.buffersToWrite }
  let s :=
    match s.nextBuffer_ with
    | some _ => s
    | none => { s with nextBuffer_ := s.newBuffer2, newBuffer2 := none }
  { s with backend := .writing }

/-- The critical section, up to the wait if there is nothing yet. -/
def lock (s : AsyncLogging) : AsyncLogging :=
  if s.buffers_ = [] then { s with backend := .asleep } else s.handOver

/-- Too many buffers: report it, and drop the first one. -/
def dropBuffers (s : AsyncLogging) (report : Bytes) (fwrite : List Nat) : AsyncLogging :=
  if s.buffersToWrite.length > 25 then
    { s with
      file := FileUtil.append s.file report fwrite
      dropped := s.dropped ++ s.buffersToWrite.head?.toList.flatMap s.batch
      buffersToWrite := s.buffersToWrite.tail }
  else s

/-- `output.append(buf->data(), buf->length())` for every buffer. -/
def writeBuffers (s : AsyncLogging) (fwrite : Nat → List Nat) : AsyncLogging :=
  { s with
    file := s.buffersToWrite.zipIdx.foldl
      (fun file b => FileUtil.append file (s.heap b.1).written (fwrite b.2)) s.file }

/-- The last buffer is empty again, and its batch is done with. -/
def recycle (s : AsyncLogging) (b : Nat) : AsyncLogging :=
  { s.reset b with batch := Function.update s.batch b [] }

/-- `if (!newBuffer1)`. -/
def refill1 (s : AsyncLogging) : AsyncLogging :=
  match s.newBuffer1, s.buffersToWrite.getLast? with
  | none, some b =>
      { s with
        newBuffer1 := some b
        buffersToWrite := s.buffersToWrite.dropLast }.recycle b
  | _, _ => s

/-- `if (!newBuffer2)`. -/
def refill2 (s : AsyncLogging) : AsyncLogging :=
  match s.newBuffer2, s.buffersToWrite.getLast? with
  | none, some b => { s with newBuffer2 := some b }.recycle b
  | _, _ => s

/-- The rest of an iteration, with the text of the report and what `fwrite`
    returns for it and for each buffer. -/
def write (s : AsyncLogging) (report : Bytes) (fwrite : Nat → List Nat) : AsyncLogging :=
  let s := (s.dropBuffers report (fwrite 0)).writeBuffers fun k => fwrite (k + 1)
  -- two buffers are enough to refill with
  let s := { s with buffersToWrite := s.buffersToWrite.take 2 }
  let s := s.refill1.refill2
  { s with buffersToWrite := [], backend := .loopHead }

/-- The steps of the producers, of the thread that starts and stops the
    logger, and of the back-end thread. -/
inductive Step where
  | append (logline : Bytes)
  | start
  | stop
  /-- `thread_.join()` returns. -/
  | join
  | begin
  | testRunning
  | lock
  /-- A timeout, or no reason. -/
  | wake
  | handOver
  | write (report : Bytes) (fwrite : Nat → List Nat)

def guard (s : AsyncLogging) : Step → Prop
  | .append logline => s.backend ≠ .aborted ∧ logline.length < kLargeBuffer
  | .start => s.backend = .notStarted
  | .stop => s.backend ≠ .notStarted ∧ s.backend ≠ .aborted ∧ s.stopCalled = false
  | .join => s.backend = .exited ∧ s.stopCalled = true ∧ s.stopReturned = false
  | .begin => s.backend = .begins
  | .testRunning => s.backend = .loopHead
  | .lock => s.backend = .locking
  | .wake => s.backend = .asleep
  | .handOver => s.backend = .woken
  | .write _ _ => s.backend = .writing

instance (s : AsyncLogging) : ∀ l : Step, Decidable (s.guard l)
  | .append logline =>
      inferInstanceAs (Decidable (s.backend ≠ .aborted ∧ logline.length < kLargeBuffer))
  | .start => inferInstanceAs (Decidable (s.backend = .notStarted))
  | .stop =>
      inferInstanceAs
        (Decidable (s.backend ≠ .notStarted ∧ s.backend ≠ .aborted ∧ s.stopCalled = false))
  | .join =>
      inferInstanceAs
        (Decidable (s.backend = .exited ∧ s.stopCalled = true ∧ s.stopReturned = false))
  | .begin => inferInstanceAs (Decidable (s.backend = .begins))
  | .testRunning => inferInstanceAs (Decidable (s.backend = .loopHead))
  | .lock => inferInstanceAs (Decidable (s.backend = .locking))
  | .wake => inferInstanceAs (Decidable (s.backend = .asleep))
  | .handOver => inferInstanceAs (Decidable (s.backend = .woken))
  | .write _ _ => inferInstanceAs (Decidable (s.backend = .writing))

def next (ndebug : Bool) (s : AsyncLogging) : Step → AsyncLogging
  | .append logline => s.append logline
  | .start => s.start
  | .stop => s.stop
  | .join => { s with stopReturned := true }
  | .begin => s.begin ndebug
  | .testRunning => s.testRunning
  | .lock => s.lock
  | .wake => { s with backend := .woken }
  | .handOver => s.handOver
  | .write report fwrite => s.write report fwrite

end AsyncLogging

/-- Any number of producers and one logger; with `ndebug` assertions are
    compiled out. -/
def asyncLogging (ndebug : Bool) : Machine AsyncLogging AsyncLogging.Step where
  guard := AsyncLogging.guard
  next := AsyncLogging.next ndebug

instance (ndebug : Bool) (s : AsyncLogging) (l : AsyncLogging.Step) :
    Decidable ((asyncLogging ndebug).guard s l) :=
  inferInstanceAs (Decidable (s.guard l))

namespace AsyncLogging

/-! ## The specification -/

/-- The lines stand in the file, one after the other, whatever is between
    them. -/
inductive Contains : Bytes → List Bytes → Prop where
  | nil (file : Bytes) : Contains file []
  | cons (before line : Bytes) {after : Bytes} {lines : List Bytes} :
      Contains after lines → Contains (before ++ line ++ after) (line :: lines)

/-- The lines that were not reported as dropped. -/
def kept (s : AsyncLogging) : List Bytes :=
  (s.appended.zipIdx.filter fun p => p.2 ∉ s.dropped).map Prod.fst

/-- The log file has every line appended before `stop` was called, in
    order. -/
def Complete (s : AsyncLogging) : Prop := Contains s.file s.kept

/-- What an empty file holds is empty. -/
theorem Contains.eq_nil {file : Bytes} {lines : List Bytes} (h : Contains file lines)
    (hfile : file = []) : ∀ line ∈ lines, line = [] := by
  induction h with
  | nil file => simp
  | cons before line hrest ih =>
    obtain ⟨hfront, hafter⟩ := List.append_eq_nil_iff.mp hfile
    have hline := (List.append_eq_nil_iff.mp hfront).2
    intro l hl
    rcases List.mem_cons.mp hl with rfl | hl
    · exact hline
    · exact ih hafter l hl

theorem contains_nil {lines : List Bytes} : Contains [] lines ↔ ∀ line ∈ lines, line = [] := by
  constructor
  · exact fun h => h.eq_nil rfl
  · intro h
    induction lines with
    | nil => exact .nil []
    | cons line lines ih =>
      have hline := h line List.mem_cons_self
      have hrest := ih fun l hl => h l (List.mem_cons_of_mem line hl)
      subst hline
      exact .cons [] [] hrest

/-! ## What a run leaves behind -/

/-- The states of the back-end thread in which it has a buffer to give. -/
def Spare (s : AsyncLogging) : Prop :=
  s.backend = .loopHead ∨ s.backend = .locking ∨ s.backend = .asleep ∨ s.backend = .woken

/-- Between the steps: all buffers are empty and the file as well, the
    producers have their two buffers, and the back-end thread has one to
    give or one to write. -/
structure Blank (s : AsyncLogging) : Prop where
  heap : ∀ b, (s.heap b).written = []
  file : s.file = []
  current : s.currentBuffer_ ≠ none
  next : s.nextBuffer_ ≠ none
  buffers : s.buffers_ = []
  spare : s.Spare → s.newBuffer1 ≠ none
  toWrite : s.buffersToWrite.length = if s.backend = .writing then 1 else 0
  dropped : s.dropped = []

theorem blank_new : new.Blank := by
  constructor <;> simp [new, Spare, FixedBuffer.new]

/-- A buffer takes nothing in. -/
theorem written_update {heap : Nat → FixedBuffer} (h : ∀ b, (heap b).written = []) {b : Nat}
    {buffer : FixedBuffer} (hbuffer : buffer.written = []) (c : Nat) :
    (Function.update heap b buffer c).written = [] := by
  by_cases heq : c = b
  · subst heq
    rw [Function.update_self]
    exact hbuffer
  · rw [Function.update_of_ne heq]
    exact h c

/-- Nothing is written of an empty text. -/
theorem append_nil (file : Bytes) (fwrite : List Nat) : FileUtil.append file [] fwrite = file := by
  rw [FileUtil.append]
  cases htmps : fwrite.tail with
  | nil => simp [FileUtil.retry]
  | cons tmp tmps => simp [FileUtil.retry]

/-- **A producer's line is gone**: there is always room for it, and it is
    not stored. -/
theorem Blank.append {s : AsyncLogging} (h : s.Blank) {logline : Bytes}
    (hlen : logline.length < kLargeBuffer) :
    ∃ current, s.append logline =
      { s.store current logline with
        appended := if s.stopCalled then s.appended else s.appended ++ [logline] } := by
  obtain ⟨current, hcurrent⟩ := Option.ne_none_iff_exists'.mp h.current
  have hroom : (s.heap current).avail > logline.length := by
    rw [FixedBuffer.avail, h.heap current]
    exact hlen
  refine ⟨current, ?_⟩
  simp only [AsyncLogging.append, hcurrent, if_pos hroom]
  rfl

theorem Blank.handOver {s : AsyncLogging} (h : s.Blank) (hspare : s.newBuffer1 ≠ none)
    (hidle : s.backend ≠ .writing) : s.handOver.Blank := by
  obtain ⟨current, hcurrent⟩ := Option.ne_none_iff_exists'.mp h.current
  obtain ⟨next, hnext⟩ := Option.ne_none_iff_exists'.mp h.next
  have htoWrite : s.buffersToWrite = [] := by
    have hlen := h.toWrite
    rw [if_neg hidle] at hlen
    exact List.length_eq_zero_iff.mp hlen
  have heq : s.handOver =
      { s.reset current with
        currentBuffer_ := s.newBuffer1
        newBuffer1 := none
        buffersToWrite := [current]
        backend := .writing } := by
    simp only [AsyncLogging.handOver, hcurrent, reset, hnext, h.buffers, htoWrite]
    rfl
  rw [heq]
  refine ⟨written_update h.heap rfl, h.file, hspare, h.next, h.buffers, ?_, rfl, h.dropped⟩
  simp [Spare]

theorem Blank.write {s : AsyncLogging} (h : s.Blank) (hwriting : s.backend = .writing)
    (report : Bytes) (fwrite : Nat → List Nat) : (s.write report fwrite).Blank := by
  obtain ⟨b, hb⟩ : ∃ b, s.buffersToWrite = [b] := by
    have hlen := h.toWrite
    rw [if_pos hwriting] at hlen
    exact List.length_eq_one_iff.mp hlen
  -- one buffer is not too many, and it is empty
  have hdrop : s.dropBuffers report (fwrite 0) = s := by simp [dropBuffers, hb]
  have hwrite : s.writeBuffers (fun k => fwrite (k + 1)) = s := by
    have hfile : s.buffersToWrite.zipIdx.foldl
        (fun file p => FileUtil.append file (s.heap p.1).written (fwrite (p.2 + 1))) s.file =
          s.file := by
      simp [hb, h.heap b, append_nil]
    rw [writeBuffers, hfile]
  have hone : { s with buffersToWrite := s.buffersToWrite.take 2 } = s := by
    have htake : s.buffersToWrite.take 2 = s.buffersToWrite := by
      rw [hb]
      rfl
    rw [htake]
  simp only [AsyncLogging.write, hdrop, hwrite, hone]
  by_cases hfirst : s.newBuffer1 = none
  · -- the buffer that was written is the next spare one
    have hrefill : s.refill1.refill2 =
        { s with newBuffer1 := some b, buffersToWrite := [] }.recycle b := by
      simp [refill1, refill2, hfirst, hb, recycle, reset]
    rw [hrefill]
    refine ⟨written_update h.heap rfl, h.file, h.current, h.next, h.buffers, ?_, rfl, h.dropped⟩
    intro _
    exact Option.some_ne_none b
  · have hrefill : s.refill1 = s := by
      obtain ⟨first, hsome⟩ := Option.ne_none_iff_exists'.mp hfirst
      simp [refill1, hsome]
    rw [hrefill]
    unfold refill2
    split
    · exact ⟨written_update h.heap rfl, h.file, h.current, h.next, h.buffers, fun _ => hfirst, rfl,
        h.dropped⟩
    · exact ⟨h.heap, h.file, h.current, h.next, h.buffers, fun _ => hfirst, rfl, h.dropped⟩

/-- The back-end thread moves, and the buffers stay where they are. -/
theorem Blank.move {s : AsyncLogging} (h : s.Blank) {backend : Backend}
    (hspare : { s with backend := backend }.Spare → s.Spare) (hfrom : s.backend ≠ .writing)
    (hto : backend ≠ .writing) : { s with backend := backend }.Blank := by
  refine ⟨h.heap, h.file, h.current, h.next, h.buffers, fun hs => h.spare (hspare hs), ?_,
    h.dropped⟩
  have hlen := h.toWrite
  rw [if_neg hfrom] at hlen
  show s.buffersToWrite.length = if backend = .writing then 1 else 0
  rw [if_neg hto]
  exact hlen

theorem Blank.notify {s : AsyncLogging} (h : s.Blank) : s.notify.Blank := by
  unfold AsyncLogging.notify
  split
  · next hasleep =>
    refine h.move (fun _ => ?_) (by simp [hasleep]) (by simp)
    simp [Spare, hasleep]
  · exact h

/-- The flags are in no buffer. -/
theorem Blank.flags {s : AsyncLogging} (h : s.Blank) (running stopCalled stopReturned : Bool) :
    { s with
      running_ := running
      stopCalled := stopCalled
      stopReturned := stopReturned }.Blank :=
  ⟨h.heap, h.file, h.current, h.next, h.buffers, h.spare, h.toWrite, h.dropped⟩

theorem blank_next {ndebug : Bool} {s : AsyncLogging} (h : s.Blank) {l : Step} (hl : s.guard l) :
    (s.next ndebug l).Blank := by
  cases l with
  | append logline =>
    obtain ⟨current, heq⟩ := h.append hl.2
    rw [next, heq]
    exact ⟨written_update h.heap (h.heap current), h.file, h.current, h.next, h.buffers, h.spare,
      h.toWrite, h.dropped⟩
  -- from here on the buffers do not change, but in `handOver` and `write`
  | start =>
    have hbackend : s.backend = .notStarted := hl
    have hmove : Blank { s with backend := .begins } :=
      h.move (by simp [Spare]) (by simp [hbackend]) (by simp)
    exact hmove.flags true s.stopCalled s.stopReturned
  | stop =>
    have hnotify := (h.flags false s.stopCalled s.stopReturned).notify
    exact hnotify.flags false true s.stopReturned
  | join => exact h.flags s.running_ s.stopCalled true
  | begin =>
    have hbackend : s.backend = .begins := hl
    show (s.begin ndebug).Blank
    unfold begin
    split
    · exact h.move (by simp [Spare]) (by simp [hbackend]) (by simp)
    · -- two new buffers
      have hlen := h.toWrite
      rw [if_neg (by simp [hbackend])] at hlen
      exact ⟨h.heap, h.file, h.current, h.next, h.buffers, fun _ => Option.some_ne_none _, hlen,
        h.dropped⟩
  | testRunning =>
    have hbackend : s.backend = .loopHead := hl
    refine h.move (fun _ => ?_) (by simp [hbackend]) ?_
    · simp [Spare, hbackend]
    · split <;> simp
  | lock =>
    have hbackend : s.backend = .locking := hl
    show s.lock.Blank
    unfold lock
    split
    · refine h.move (fun _ => ?_) (by simp [hbackend]) (by simp)
      simp [Spare, hbackend]
    · exact h.handOver (h.spare (by simp [Spare, hbackend])) (by simp [hbackend])
  | wake =>
    have hbackend : s.backend = .asleep := hl
    refine h.move (fun _ => ?_) (by simp [hbackend]) (by simp)
    simp [Spare, hbackend]
  | handOver =>
    have hbackend : s.backend = .woken := hl
    exact h.handOver (h.spare (by simp [Spare, hbackend])) (by simp [hbackend])
  | write report fwrite => exact h.write hl report fwrite

theorem blank_run {ndebug : Bool} {ls : List Step} (hvalid : (asyncLogging ndebug).Valid new ls) :
    ((asyncLogging ndebug).run new ls).Blank :=
  (asyncLogging ndebug).invariant_run Blank (fun _ _ h hl => blank_next h hl) blank_new hvalid

/-- Nothing is ever reported as dropped. -/
theorem Blank.kept_eq {s : AsyncLogging} (h : s.Blank) : s.kept = s.appended := by
  rw [kept, h.dropped]
  simp

/-- **The log is complete exactly when there is nothing to log**: in every
    run of producers, back-end thread and `stop`, with or without
    assertions, once `stop` has returned the file has every line appended
    before if and only if they were all empty. -/
theorem complete_iff_empty (ndebug : Bool) {ls : List Step}
    (hvalid : (asyncLogging ndebug).Valid new ls) :
    ((asyncLogging ndebug).run new ls).stopReturned = true →
      (((asyncLogging ndebug).run new ls).Complete ↔
        ∀ line ∈ ((asyncLogging ndebug).run new ls).appended, line = []) := by
  intro _
  have h := blank_run hvalid
  rw [Complete, h.kept_eq, h.file]
  exact contains_nil

/-- An empty line, and an iteration of the back-end thread. -/
theorem complete_iff_empty_line :
    let ls : List Step := [.start, .begin, .append [], .testRunning, .lock, .wake, .handOver,
      .write [] fun _ => [], .stop, .testRunning, .join]
    ((asyncLogging true).run new ls).Complete ↔
      ∀ line ∈ ((asyncLogging true).run new ls).appended, line = [] :=
  complete_iff_empty true (by decide) (by decide)

/-- A line that is handed over and written by the back-end thread long
    before `stop`; and, with assertions, one that is appended before the
    back-end thread has begun. -/
theorem not_complete_line :
    let ls : List Step := [.start, .begin, .append (bytes "a"), .testRunning, .lock, .wake,
      .handOver, .write [] fun _ => [1], .stop, .testRunning, .join]
    let ks : List Step := [.append (bytes "a"), .start, .stop, .begin, .testRunning, .join]
    ((asyncLogging true).Valid new ls ∧ ((asyncLogging true).run new ls).stopReturned = true ∧
      ¬ ((asyncLogging true).run new ls).Complete) ∧
      (asyncLogging false).Valid new ks ∧ ((asyncLogging false).run new ks).stopReturned = true ∧
        ¬ ((asyncLogging false).run new ks).Complete := by
  refine ⟨⟨by decide, by decide, fun h => ?_⟩, by decide, by decide, fun h => ?_⟩
  · have hline := h.eq_nil (by decide) (bytes "a") (by decide)
    exact absurd hline (by decide)
  · have hline := h.eq_nil (by decide) (bytes "a") (by decide)
    exact absurd hline (by decide)

end AsyncLogging

end TinyWS
