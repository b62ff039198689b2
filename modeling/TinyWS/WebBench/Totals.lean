import TinyWS.Framework.Machine
import TinyWS.WebBench.Request

/-! # The Totals of the Benchmark

    `bench` forks one child for each client.  A child writes one line with
    its three numbers into a pipe when its time is over; the parent reads
    numbers from the pipe until it has those of all its children, and adds
    them up in `int`s.

    The parent keeps its own copy of the pipe's writing end, so its
    `fscanf` finds no end of file: it waits until there is more to read.

    * **Format**: what `fscanf` makes of the lines.
    * **Totals**: whose numbers have been added, in every run.
    * **Return**: when the parent comes back from its loop. -/

namespace TinyWS

/-! ## The C library -/

/-- `\n` in ASCII. -/
def newline : UInt8 := 10

/-- What a conversion of `fscanf` comes to; `blocks` when it needs more
    input than there is. -/
inductive Conversion where
  | blocks
  | fails (rest : Bytes)
  | converts (v : Int) (rest : Bytes)

/-- `%d`: blanks, perhaps a sign, and digits up to the first character that
    is none, which is left in the stream. -/
def scanInt (input : Bytes) : Conversion :=
  match input.dropWhile isspace with
  | [] => .blocks
  | c :: cs =>
      let digits := if c = 45 ∨ c = 43 then cs else c :: cs
      let value : Int := Decimal.natValue (digits.takeWhile isdigit)
      match digits.dropWhile isdigit with
      | [] => .blocks
      | d :: rest =>
          if digits.takeWhile isdigit = [] then .fails (d :: rest)
          else .converts (if c = 45 then -value else value) (d :: rest)

/-- `fscanf` with so many `%d`: the numbers up to the first failure, and the
    rest of the stream; nothing as long as it blocks. -/
def fscanf : Nat → Bytes → Option (List Int × Bytes)
  | 0, input => some ([], input)
  | n + 1, input =>
      match scanInt input with
      | .blocks => none
      | .fails rest => some ([], rest)
      | .converts v rest => (fscanf n rest).map fun (vs, rest) => (v :: vs, rest)

namespace WebBench

/-! ## The model -/

/-- The numbers of a child when its time is over. -/
structure Report where
  speed : Int32
  failed : Int32
  bytes : Int32
  deriving DecidableEq

/-- `fprintf(f, "%d %d %d\n", speed, failed, bytes)`. -/
def Report.text (r : Report) : Bytes :=
  Decimal.text r.speed.toInt ++ (32 :: (Decimal.text r.failed.toInt ++
    (32 :: (Decimal.text r.bytes.toInt ++ [newline]))))

/-- What has become of a child. -/
inductive Child where
  | running
  | reported
  /-- Killed, or `fdopen` failed. -/
  | died
  deriving DecidableEq

/-- Where the parent is: in its loop, or out of it after a `break`. -/
inductive Reading where
  | reading
  /-- "Some of our childrens died." -/
  | childrenDied
  | returned
  deriving DecidableEq

/-- The parent, its children and the pipe.  The last field is a history:
    no code reads it. -/
structure Benchmark where
  child : Nat → Child
  mypipe : Bytes
  clients : Nat
  speed : Int32
  failed : Int32
  bytes : Int32
  i : Int32
  j : Int32
  k : Int32
  phase : Reading
  /-- Who has reported what, in the order of the lines. -/
  reports : List (Nat × Report)

inductive BenchmarkStep where
  /-- A child writes its line, in one piece, and exits. -/
  | report (c : Nat) (r : Report)
  | die (c : Nat)
  /-- `fscanf` returns, and the parent goes once round its loop. -/
  | fscanf

namespace Benchmark

/-- All children are forked. -/
def start (clients : Nat) (i j k : Int32) : Benchmark where
  child := fun _ => .running
  mypipe := []
  clients := clients
  speed := 0
  failed := 0
  bytes := 0
  i := i
  j := j
  k := k
  phase := .reading
  reports := []

/-- The numbers that were converted are stored. -/
def store (s : Benchmark) (values : List Int) (rest : Bytes) : Benchmark :=
  { s with
    mypipe := rest
    i := (values[0]?.map Int32.ofInt).getD s.i
    j := (values[1]?.map Int32.ofInt).getD s.j
    k := (values[2]?.map Int32.ofInt).getD s.k }

/-- The additions, and `if(--clients==0) break;`. -/
def add (s : Benchmark) : Benchmark :=
  { s with
    speed := s.speed + s.i
    failed := s.failed + s.j
    bytes := s.bytes + s.k
    clients := s.clients - 1
    phase := if s.clients - 1 = 0 then .returned else s.phase }

/-- The body of the parent's loop. -/
def round (s : Benchmark) : Benchmark :=
  match TinyWS.fscanf 3 s.mypipe with
  | none => s
  | some (values, rest) =>
      if values.length < 2 then { s.store values rest with phase := .childrenDied }
      else (s.store values rest).add

def next (s : Benchmark) : BenchmarkStep → Benchmark
  | .report c r =>
      { s with
        child := Function.update s.child c .reported
        mypipe := s.mypipe ++ r.text
        reports := s.reports ++ [(c, r)] }
  | .die c => { s with child := Function.update s.child c .died }
  | .fscanf => s.round

end Benchmark

/-- `bench` with `n` clients, once all children are forked. -/
def bench (n : Nat) : Machine Benchmark BenchmarkStep where
  guard s
    | .report c _ | .die c => c < n ∧ s.child c = .running
    | .fscanf => s.phase = .reading ∧ (TinyWS.fscanf 3 s.mypipe).isSome
  next := Benchmark.next

instance (n : Nat) (s : Benchmark) : (l : BenchmarkStep) → Decidable ((bench n).guard s l)
  | .report c _ | .die c => inferInstanceAs (Decidable (c < n ∧ s.child c = .running))
  | .fscanf =>
      inferInstanceAs (Decidable (s.phase = .reading ∧ (TinyWS.fscanf 3 s.mypipe).isSome))

/-! ## The format -/

/-- **`%d` reads back a number** that was written in decimal, whatever
    stands behind it, if it is no digit. -/
theorem scanInt_text {blanks : Bytes} (hblanks : ∀ c ∈ blanks, isspace c = true) (v : Int)
    {d : UInt8} (hd : isdigit d = false) (rest : Bytes) :
    scanInt (blanks ++ (Decimal.text v ++ d :: rest)) = .converts v (d :: rest) := by
  have hnat := Decimal.isNat_natText v.natAbs
  obtain ⟨c, cs, hcs⟩ := List.exists_cons_of_ne_nil hnat.nonempty
  obtain ⟨hspace, hminus, hplus⟩ := other_of_isdigit
    (isdigit_natText (n := v.natAbs) (c := c) (by rw [hcs]; exact List.mem_cons_self))
  have htake : (Decimal.natText v.natAbs ++ d :: rest).takeWhile isdigit =
      Decimal.natText v.natAbs := by
    rw [List.takeWhile_append_of_pos fun c hc => isdigit_natText hc,
      List.takeWhile_cons_of_neg (by simp [hd]), List.append_nil]
  have hdrop : (Decimal.natText v.natAbs ++ d :: rest).dropWhile isdigit = d :: rest := by
    rw [List.dropWhile_append_of_pos fun c hc => isdigit_natText hc,
      List.dropWhile_cons_of_neg (by simp [hd])]
  rw [scanInt, List.dropWhile_append_of_pos hblanks]
  by_cases hv : v < 0
  · have hstart : (Decimal.text v ++ d :: rest).dropWhile isspace =
        45 :: (Decimal.natText v.natAbs ++ d :: rest) := by
      rw [Decimal.text, if_pos hv]
      rfl
    rw [hstart]
    simp only [true_or, if_true, htake, hdrop, if_neg hnat.nonempty, hnat.value]
    congr 1
    omega
  · have hstart : (Decimal.text v ++ d :: rest).dropWhile isspace =
        c :: (cs ++ d :: rest) := by
      rw [Decimal.text, if_neg hv, hcs, List.cons_append,
        List.dropWhile_cons_of_neg (by simp [hspace])]
    rw [hstart]
    have hsign : ¬ (c = 45 ∨ c = 43) := by
      rintro (h | h)
      · exact hminus h
      · exact hplus h
    have hdigits : (if c = 45 ∨ c = 43 then cs ++ d :: rest else c :: (cs ++ d :: rest)) =
        Decimal.natText v.natAbs ++ d :: rest := by
      rw [if_neg hsign, hcs, List.cons_append]
    simp only [hdigits, if_neg hminus, htake, hdrop, if_neg hnat.nonempty, hnat.value]
    congr 1
    omega

/-- **A line** is read up to its end, behind the rest of the one before. -/
theorem fscanf_report {blanks : Bytes} (hblanks : ∀ c ∈ blanks, isspace c = true) (r : Report)
    (more : Bytes) :
    fscanf 3 (blanks ++ (r.text ++ more)) =
      some ([r.speed.toInt, r.failed.toInt, r.bytes.toInt], newline :: more) := by
  have hblank : ∀ c ∈ [(32 : UInt8)], isspace c = true := by simp [isspace]
  have hspeed := scanInt_text hblanks r.speed.toInt (d := 32) (by decide)
    (Decimal.text r.failed.toInt ++ (32 :: (Decimal.text r.bytes.toInt ++ newline :: more)))
  have hfailed := scanInt_text hblank r.failed.toInt (d := 32) (by decide)
    (Decimal.text r.bytes.toInt ++ newline :: more)
  have hbytes := scanInt_text hblank r.bytes.toInt (d := newline) (by decide)
    more
  have htext : r.text ++ more = Decimal.text r.speed.toInt ++ (32 :: (Decimal.text r.failed.toInt ++
      (32 :: (Decimal.text r.bytes.toInt ++ newline :: more)))) := by
    simp [Report.text]
  rw [htext]
  simp only [List.cons_append, List.nil_append] at hfailed hbytes
  simp only [fscanf, hspeed, hfailed, hbytes, Option.map_some]

/-- With the rest of a line alone, `fscanf` waits. -/
theorem fscanf_blanks {blanks : Bytes} (hblanks : ∀ c ∈ blanks, isspace c = true) :
    fscanf 3 blanks = none := by
  have hnone : blanks.dropWhile isspace = [] := List.dropWhile_eq_nil_iff.mpr hblanks
  simp [fscanf, scanInt, hnone]

/-! ## The invariant -/

namespace Benchmark

/-- The reports whose numbers have been added. -/
def added (n : Nat) (s : Benchmark) : List Report := (s.reports.take (n - s.clients)).map Prod.snd

/-- A column of reports added up, modulo 2 ^ 32. -/
def total (column : Report → Int32) (rs : List Report) : Int32 :=
  Int32.ofInt (rs.map fun r => (column r).toInt).sum

/-- Every line is of a child of its own, and the lines that were not read
    are in the pipe. -/
structure Sound (n : Nat) (s : Benchmark) : Prop where
  nodup : (s.reports.map Prod.fst).Nodup
  reported : ∀ c, c ∈ s.reports.map Prod.fst ↔ s.child c = .reported
  forked : ∀ c, s.child c ≠ .running → c < n
  clients : s.clients ≤ n
  read : n - s.clients ≤ s.reports.length
  /-- What is left of the line before is blank. -/
  mypipe : ∃ blanks, (∀ c ∈ blanks, isspace c = true) ∧
    s.mypipe = blanks ++ ((s.reports.drop (n - s.clients)).map fun p => p.2.text).flatten
  speed : s.speed = total Report.speed (s.added n)
  failed : s.failed = total Report.failed (s.added n)
  bytes : s.bytes = total Report.bytes (s.added n)
  phase : s.phase = if s.clients = 0 then .returned else .reading
  last : ∀ r ∈ (s.added n).getLast?, s.i = r.speed

variable {n : Nat} {s : Benchmark} {i j k : Int32}

theorem total_append (column : Report → Int32) (rs : List Report) (r : Report) :
    total column (rs ++ [r]) = total column rs + column r := by
  rw [total, List.map_append, List.sum_append, List.map_singleton, List.sum_singleton,
    Int32.ofInt_add, Int32.ofInt_toInt]
  rfl

theorem sound_start (hn : 0 < n) (i j k : Int32) : (start n i j k).Sound n where
  nodup := List.nodup_nil
  reported c := iff_of_false List.not_mem_nil Child.noConfusion
  forked c h := absurd rfl h
  clients := Nat.le_refl n
  read := by
    show n - n ≤ 0
    omega
  mypipe := ⟨[], fun c hc => absurd hc List.not_mem_nil, by simp [start]⟩
  speed := by simp [added, total, start]
  failed := by simp [added, total, start]
  bytes := by simp [added, total, start]
  phase := (if_neg (Nat.pos_iff_ne_zero.mp hn)).symm
  last r hr := by simp [added, start] at hr

/-- A child that is running has not written its line. -/
theorem Sound.not_mem_reports (h : s.Sound n) {c : Nat} (hrunning : s.child c = .running) :
    c ∉ s.reports.map Prod.fst := by
  intro hmem
  rw [(h.reported c).mp hmem] at hrunning
  cases hrunning

/-- Only a child that was forked ends. -/
theorem Sound.forked_update (h : s.Sound n) {c : Nat} (hc : c < n) (e : Child) (d : Nat)
    (hd : Function.update s.child c e d ≠ .running) : d < n := by
  by_cases hdc : d = c
  · rw [hdc]
    exact hc
  · rw [Function.update_of_ne hdc] at hd
    exact h.forked d hd

/-- **A line is written** behind those that are in the pipe. -/
theorem sound_report (h : s.Sound n) {c : Nat} (hc : c < n) (hrunning : s.child c = .running)
    (r : Report) : (s.next (.report c r)).Sound n := by
  have hnew : c ∉ s.reports.map Prod.fst := h.not_mem_reports hrunning
  have hadded : (s.next (.report c r)).added n = s.added n := by
    show ((s.reports ++ [(c, r)]).take (n - s.clients)).map Prod.snd = _
    rw [List.take_append_of_le_length h.read]
    rfl
  refine ⟨?_, ?_, h.forked_update hc .reported, h.clients, ?_, ?_, ?_, ?_, ?_, h.phase, ?_⟩
  · show ((s.reports ++ [(c, r)]).map Prod.fst).Nodup
    rw [List.map_append, List.map_singleton]
    refine List.nodup_append.mpr ⟨h.nodup, List.nodup_singleton c, ?_⟩
    intro a ha b hb heq
    have hb' : b = c := List.mem_singleton.mp hb
    rw [heq, hb'] at ha
    exact hnew ha
  · intro d
    show d ∈ (s.reports ++ [(c, r)]).map Prod.fst ↔
      Function.update s.child c .reported d = .reported
    rw [List.map_append, List.map_singleton, List.mem_append, List.mem_singleton, h.reported]
    by_cases hd : d = c
    · rw [hd, Function.update_self]
      simp
    · rw [Function.update_of_ne hd]
      simp [hd]
  · show n - s.clients ≤ (s.reports ++ [(c, r)]).length
    rw [List.length_append]
    exact Nat.le_add_right_of_le h.read
  · obtain ⟨blanks, hblanks, hpipe⟩ := h.mypipe
    refine ⟨blanks, hblanks, ?_⟩
    show s.mypipe ++ r.text =
      blanks ++ (((s.reports ++ [(c, r)]).drop (n - s.clients)).map fun p => p.2.text).flatten
    rw [List.drop_append_of_le_length h.read, List.map_append, List.flatten_append, hpipe]
    simp
  · rw [hadded]
    exact h.speed
  · rw [hadded]
    exact h.failed
  · rw [hadded]
    exact h.bytes
  · rw [hadded]
    exact h.last

theorem sound_die (h : s.Sound n) {c : Nat} (hc : c < n) (hrunning : s.child c = .running) :
    (s.next (.die c)).Sound n := by
  have hnew : c ∉ s.reports.map Prod.fst := h.not_mem_reports hrunning
  refine ⟨h.nodup, ?_, h.forked_update hc .died, h.clients, h.read, h.mypipe, h.speed, h.failed,
    h.bytes, h.phase, h.last⟩
  intro d
  show d ∈ s.reports.map Prod.fst ↔ Function.update s.child c .died d = .reported
  by_cases hd : d = c
  · rw [hd, Function.update_self]
    exact iff_of_false hnew (by decide)
  · rw [Function.update_of_ne hd]
    exact h.reported d

/-- The next line in the pipe, if `fscanf` does not block. -/
theorem Sound.exists_line (h : s.Sound n) (hready : (TinyWS.fscanf 3 s.mypipe).isSome) :
    ∃ p ps, s.reports.drop (n - s.clients) = p :: ps := by
  cases hdrop : s.reports.drop (n - s.clients) with
  | nil =>
    obtain ⟨blanks, hblanks, hpipe⟩ := h.mypipe
    rw [hpipe, hdrop, List.map_nil, List.flatten_nil, List.append_nil,
      fscanf_blanks hblanks] at hready
    cases hready
  | cons p ps => exact ⟨p, ps, rfl⟩

/-- **The parent goes round its loop**: it adds the numbers of the next
    line. -/
theorem round_eq (h : s.Sound n) {p : Nat × Report} {ps : List (Nat × Report)}
    (hdrop : s.reports.drop (n - s.clients) = p :: ps) :
    s.round = { s with
      mypipe := newline :: (ps.map fun p => p.2.text).flatten
      i := p.2.speed
      j := p.2.failed
      k := p.2.bytes
      speed := s.speed + p.2.speed
      failed := s.failed + p.2.failed
      bytes := s.bytes + p.2.bytes
      clients := s.clients - 1
      phase := if s.clients - 1 = 0 then .returned else s.phase } := by
  obtain ⟨blanks, hblanks, hpipe⟩ := h.mypipe
  have hscan := fscanf_report hblanks p.2 (ps.map fun p => p.2.text).flatten
  rw [hdrop, List.map_cons, List.flatten_cons] at hpipe
  rw [← hpipe] at hscan
  have hlen : ¬ [p.2.speed.toInt, p.2.failed.toInt, p.2.bytes.toInt].length < 2 := by simp
  rw [round, hscan]
  simp only [if_neg hlen, store, add, List.getElem?_cons_zero, List.getElem?_cons_succ,
    Option.map_some, Option.getD_some, Int32.ofInt_toInt]

theorem sound_round (h : s.Sound n) (hreading : s.phase = .reading)
    (hready : (TinyWS.fscanf 3 s.mypipe).isSome) : s.round.Sound n := by
  obtain ⟨p, ps, hdrop⟩ := h.exists_line hready
  have hle := h.clients
  have hpos : s.clients ≠ 0 := by
    intro hzero
    have hphase := h.phase
    rw [if_pos hzero, hreading] at hphase
    cases hphase
  -- one more line has been read
  have hcount : n - (s.clients - 1) = n - s.clients + 1 := by omega
  have hget : s.reports[n - s.clients]? = some p := by
    rw [← List.head?_drop, hdrop]
    rfl
  have htake : s.reports.take (n - s.clients + 1) = s.reports.take (n - s.clients) ++ [p] := by
    rw [List.take_add_one, hget]
    rfl
  have hrest : s.reports.drop (n - s.clients + 1) = ps := by
    rw [← List.tail_drop, hdrop]
    rfl
  have hround := round_eq h hdrop
  have hadded : s.round.added n = s.added n ++ [p.2] := by
    rw [hround]
    show (s.reports.take (n - (s.clients - 1))).map Prod.snd = _
    rw [hcount, htake, List.map_append]
    rfl
  have htotal : ∀ column,
      total column (s.round.added n) = total column (s.added n) + column p.2 := by
    intro column
    rw [hadded, total_append]
  refine ⟨?_, ?_, ?_, ?_, ?_, ?_, ?_, ?_, ?_, ?_, ?_⟩
  · rw [hround]
    exact h.nodup
  · rw [hround]
    exact h.reported
  · rw [hround]
    exact h.forked
  · rw [hround]
    show s.clients - 1 ≤ n
    omega
  · rw [hround]
    show n - (s.clients - 1) ≤ s.reports.length
    have hlt := (List.getElem?_eq_some_iff.mp hget).1
    omega
  · refine ⟨[newline], by simp [newline, isspace], ?_⟩
    rw [hround]
    show newline :: (ps.map fun p => p.2.text).flatten =
      [newline] ++ ((s.reports.drop (n - (s.clients - 1))).map fun p => p.2.text).flatten
    rw [hcount, hrest]
    rfl
  · rw [htotal, ← h.speed, hround]
  · rw [htotal, ← h.failed, hround]
  · rw [htotal, ← h.bytes, hround]
  · rw [hround, hreading]
  · intro r hr
    rw [hadded, List.getLast?_concat] at hr
    cases hr
    rw [hround]

/-- **Every step** keeps the lines and the totals in order. -/
theorem sound_next (h : s.Sound n) (l : BenchmarkStep) (hguard : (bench n).guard s l) :
    (s.next l).Sound n := by
  cases l with
  | report c r => exact sound_report h hguard.1 hguard.2 r
  | die c => exact sound_die h hguard.1 hguard.2
  | fscanf => exact sound_round h hguard.1 hguard.2

theorem sound_run (hn : 0 < n) {ls : List BenchmarkStep}
    (hls : (bench n).Valid (start n i j k) ls) : ((bench n).run (start n i j k) ls).Sound n :=
  (bench n).invariant_run (Sound n) (fun _ l h hguard => sound_next h l hguard)
    (sound_start hn i j k) hls

/-- A parent that has returned has read all the lines. -/
theorem Sound.clients_eq_zero (h : s.Sound n) (hreturned : s.phase = .returned) :
    s.clients = 0 := by
  by_contra hne
  rw [h.phase, if_neg hne] at hreturned
  cases hreturned

/-- The children that have reported are some of the `n`. -/
theorem Sound.subperm (h : s.Sound n) :
    List.Subperm (s.reports.map Prod.fst) (List.range n) := by
  apply List.subperm_of_subset h.nodup
  intro c hc
  rw [List.mem_range]
  apply h.forked
  rw [(h.reported c).mp hc]
  decide

/-- A parent that has returned has read a line of every child. -/
theorem Sound.perm (h : s.Sound n) (hreturned : s.phase = .returned) :
    (s.reports.map Prod.fst).Perm (List.range n) := by
  have hzero := h.clients_eq_zero hreturned
  -- no child has two lines, and there are `n`
  have hread := h.read
  apply h.subperm.perm_of_length_le
  rw [List.length_range, List.length_map]
  omega

end Benchmark

/-! ## The totals -/

open Benchmark

/-- **The totals**: for every number of clients, over every order in which
    the children write their lines or die and the parent reads: the parent
    never takes them for dead; it has added the numbers of the first lines,
    each line of another child, in `int`s; and when it returns, it has added
    those of all children, and its exit status is the speed of the child it
    read last. -/
theorem bench_totals {n : Nat} (hn : 0 < n) (i j k : Int32) {ls : List BenchmarkStep}
    (hls : (bench n).Valid (start n i j k) ls) :
    let s := (bench n).run (start n i j k) ls
    s.phase ≠ .childrenDied ∧ (s.reports.map Prod.fst).Nodup ∧ (∀ p ∈ s.reports, p.1 < n) ∧
      (s.added n).length = n - s.clients ∧ s.speed = total Report.speed (s.added n) ∧
      s.failed = total Report.failed (s.added n) ∧ s.bytes = total Report.bytes (s.added n) ∧
      (s.phase = .returned → (s.reports.map Prod.fst).Perm (List.range n) ∧
        s.added n = s.reports.map Prod.snd ∧ ∃ r ∈ (s.added n).getLast?, s.i = r.speed) := by
  intro s
  have h : s.Sound n := sound_run hn hls
  have hsub := h.subperm
  have hlen : (s.added n).length = n - s.clients := by
    rw [added, List.length_map, List.length_take, Nat.min_eq_left h.read]
  refine ⟨?_, h.nodup, ?_, hlen, h.speed, h.failed, h.bytes, ?_⟩
  · rw [h.phase]
    split
    · decide
    · decide
  · intro p hp
    exact List.mem_range.mp (hsub.subset (List.mem_map_of_mem hp))
  · intro hreturned
    have hzero := h.clients_eq_zero hreturned
    have hread := h.read
    have hle := hsub.length_le
    rw [List.length_map, List.length_range] at hle
    have hall : s.added n = s.reports.map Prod.snd := by
      rw [added, List.take_of_length_le (by omega)]
    have hne : s.added n ≠ [] := by
      apply List.ne_nil_of_length_pos
      omega
    have hlast := List.getLast?_eq_some_getLast hne
    exact ⟨h.perm hreturned, hall, _, hlast, h.last _ hlast⟩

/-- Two children write in turn, and their bytes overflow. -/
def overflowRun : List BenchmarkStep :=
  [.report 1 ⟨3, 0, 2000000000⟩, .fscanf, .report 0 ⟨5, 1, 2000000000⟩, .fscanf]

theorem valid_overflowRun : (bench 2).Valid (start 2 0 0 0) overflowRun := by
  decide +kernel

theorem bench_totals_overflow :
    let s := (bench 2).run (start 2 0 0 0) overflowRun
    s.speed = 8 ∧ s.bytes = total Report.bytes (s.added 2) ∧ s.bytes = -294967296 :=
  ⟨by decide +kernel, (bench_totals (by decide) 0 0 0 valid_overflowRun).2.2.2.2.2.2.1,
    by decide +kernel⟩

/-! ## The return -/

namespace Benchmark

variable {n : Nat} {s : Benchmark}

/-- A child that died stays dead. -/
theorem died_next {c : Nat} (h : s.child c = .died) {l : BenchmarkStep}
    (hguard : (bench n).guard s l) : (s.next l).child c = .died := by
  -- who writes a line or dies was running
  have hother : ∀ {d : Nat}, s.child d = .running → ∀ x, Function.update s.child d x c = .died := by
    intro d hrunning x
    have hne : c ≠ d := by
      intro heq
      rw [← heq, h] at hrunning
      cases hrunning
    rw [Function.update_of_ne hne]
    exact h
  cases l with
  | report d r => exact hother hguard.2 _
  | die d => exact hother hguard.2 _
  | fscanf =>
    have hround : s.round.child = s.child := by
      unfold round
      split
      · rfl
      · split
        · rfl
        · rfl
    show s.round.child c = .died
    rw [hround]
    exact h

/-- When the parent has read as many lines as there are, and still waits,
    some child is running or has died. -/
theorem Sound.exists_unreported (h : s.Sound n) (hall : s.reports.length < n) :
    ∃ c < n, s.child c ≠ .reported := by
  by_contra hnone
  -- else there were `n` lines
  have hsub : List.Subperm (List.range n) (s.reports.map Prod.fst) := by
    apply List.subperm_of_subset List.nodup_range
    intro c hc
    rw [h.reported]
    by_contra hne
    exact hnone ⟨c, List.mem_range.mp hc, hne⟩
  have hle := hsub.length_le
  rw [List.length_range, List.length_map] at hle
  omega

/-- A line in the pipe brings the parent one round further. -/
theorem canReturn_line {m : Nat}
    (ih : ∀ s : Benchmark, s.Sound n → (∀ c, s.child c ≠ .died) → s.clients = m →
      (bench n).CanReach (fun s => s.phase = .returned) s)
    (h : s.Sound n) (halive : ∀ c, s.child c ≠ .died) (hclients : s.clients = m + 1)
    {p : Nat × Report} {ps : List (Nat × Report)}
    (hdrop : s.reports.drop (n - s.clients) = p :: ps) :
    (bench n).CanReach (fun s => s.phase = .returned) s := by
  have hround := round_eq h hdrop
  have hphase : s.phase = .reading := by
    rw [h.phase, if_neg (by omega)]
  have hready : (TinyWS.fscanf 3 s.mypipe).isSome := by
    obtain ⟨blanks, hblanks, hpipe⟩ := h.mypipe
    rw [hpipe, hdrop, List.map_cons, List.flatten_cons, fscanf_report hblanks]
    rfl
  have hguard : (bench n).guard s .fscanf := ⟨hphase, hready⟩
  apply Machine.canReach_step _ hguard
  apply ih s.round (sound_round h hphase hready)
  · rw [hround]
    exact halive
  · rw [hround]
    show s.clients - 1 = m
    omega

/-- **With all children alive** the parent can return. -/
theorem canReturn (h : s.Sound n) (halive : ∀ c, s.child c ≠ .died) :
    (bench n).CanReach (fun s => s.phase = .returned) s := by
  -- by the lines that are still to be read
  induction hclients : s.clients generalizing s with
  | zero =>
    apply Machine.canReach_now
    rw [h.phase, if_pos hclients]
  | succ m ih =>
    cases hdrop : s.reports.drop (n - s.clients) with
    | cons p ps => exact canReturn_line (fun s hs hc hm => ih hs hc hm) h halive hclients hdrop
    | nil =>
      -- a child writes its line first
      have hlen := List.drop_eq_nil_iff.mp hdrop
      have hle := h.clients
      obtain ⟨c, hc, hne⟩ := h.exists_unreported (by omega)
      have hrunning : s.child c = .running := by
        cases hchild : s.child c with
        | running => rfl
        | reported => exact absurd hchild hne
        | died => exact absurd hchild (halive c)
      obtain ⟨r⟩ : Nonempty Report := ⟨⟨0, 0, 0⟩⟩
      have hguard : (bench n).guard s (.report c r) := ⟨hc, hrunning⟩
      apply Machine.canReach_step _ hguard
      have hnext := sound_report h hc hrunning r
      have hline : (s.next (.report c r)).reports.drop (n - s.clients) = [(c, r)] := by
        show (s.reports ++ [(c, r)]).drop (n - s.clients) = _
        rw [List.drop_append_of_le_length h.read, hdrop, List.nil_append]
      refine canReturn_line (fun s hs hc hm => ih hs hc hm) hnext ?_ hclients hline
      intro d
      show Function.update s.child c .reported d ≠ .died
      by_cases hd : d = c
      · rw [hd, Function.update_self]
        decide
      · rw [Function.update_of_ne hd]
        exact halive d

end Benchmark

/-- **The return**: after any run, the parent can still return if and only
    if no child has died: one that dies without a line leaves it in
    `fscanf` for ever. -/
theorem bench_returns_iff {n : Nat} (hn : 0 < n) (i j k : Int32) {ls : List BenchmarkStep}
    (hls : (bench n).Valid (start n i j k) ls) :
    let s := (bench n).run (start n i j k) ls
    (bench n).CanReach (fun s => s.phase = .returned) s ↔ ∀ c, s.child c ≠ .died := by
  intro s
  have h : s.Sound n := sound_run hn hls
  constructor
  · apply (bench n).can_of_canReach (Sound n) (fun s => ∀ c, s.child c ≠ .died) _ _ _ h
    · exact fun _ l h hguard => sound_next h l hguard
    · intro s l _ hguard hnext c hdied
      exact hnext c (died_next hdied hguard)
    · -- it has read a line of every child
      intro s h hreturned c hdied
      have hc := h.forked c (by rw [hdied]; decide)
      have hmem := (h.perm hreturned).mem_iff.mpr (List.mem_range.mpr hc)
      rw [h.reported, hdied] at hmem
      cases hmem
  · exact canReturn h

/-- One of two children dies. -/
def deathRun : List BenchmarkStep := [.report 1 ⟨3, 0, 200⟩, .die 0, .fscanf]

theorem valid_deathRun : (bench 2).Valid (start 2 0 0 0) deathRun := by
  decide +kernel

theorem bench_returns_iff_never :
    ¬ (bench 2).CanReach (fun s => s.phase = .returned)
      ((bench 2).run (start 2 0 0 0) deathRun) :=
  fun h => (bench_returns_iff (by decide) 0 0 0 valid_deathRun).mp h 0 (by decide +kernel)

end WebBench

end TinyWS
