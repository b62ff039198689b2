import TinyWS.Framework.Descriptors
import TinyWS.Framework.Machine
import Mathlib.Data.List.Nodup
import Mathlib.Logic.Function.Basic

/-! # Socket

    A `Socket` closes its descriptor when it is destroyed, unless a move
    has taken the descriptor away.  The numbers are those of the kernel,
    which gives a number out again once it is closed: a second close of one
    number would close the file of somebody else.

    The move assignment does not close what its target holds. -/

namespace TinyWS

/-- The `Socket` objects of a process, with the files of the kernel behind
    their descriptors.  The last field is a history. -/
structure Sockets where
  files : DescriptorTable Nat
  /-- `sockfd_` of the objects alive. -/
  sockfd_ : Nat → Option Int
  /-- How many files were opened; they are numbered. -/
  opened : Nat
  /-- What each `::close` hit. -/
  closes : List (Option Nat)

namespace Sockets

/-! ## The model -/

def new : Sockets where
  files := DescriptorTable.empty
  sockfd_ := fun _ => none
  opened := 0
  closes := []

def setFd (s : Sockets) (o : Nat) (fd : Option Int) : Sockets :=
  { s with sockfd_ := Function.update s.sockfd_ o fd }

/-- `isValid()`. -/
def isValid (fd : Int) : Bool := 0 ≤ fd

/-- `Socket(int sockfd)`, over what `accept4` has returned. -/
def construct (s : Sockets) (o : Nat) (accepts : Bool) : Sockets :=
  if accepts then
    { s with files := s.files.openFile s.opened, opened := s.opened + 1 }.setFd o
      (some s.files.lowest)
  else s.setFd o (some (-1))

/-- `sockfd_(socket.sockfd_)` and `socket.setNoneFd()`. -/
def give (s : Sockets) (o o' : Nat) : Sockets := (s.setFd o' (s.sockfd_ o)).setFd o (some (-1))

/-- `Socket(Socket &&socket)`, from `o` to the new object `o'`. -/
def moveConstruct (s : Sockets) (o o' : Nat) : Sockets := s.give o o'

/-- `operator=(Socket &&rhs)`, from `o` to `o'`. -/
def moveAssign (s : Sockets) (o o' : Nat) : Sockets := if o' ≠ o then s.give o o' else s

/-- `~Socket()`. -/
def destroy (s : Sockets) (o : Nat) : Sockets :=
  match s.sockfd_ o with
  | none => s
  | some fd =>
      if isValid fd then
        { s with
          files := s.files.close fd.toNat
          closes := s.closes ++ [s.files.file fd.toNat] }.setFd o none
      else s.setFd o none

inductive Step where
  | construct (o : Nat) (accepts : Bool)
  | moveConstruct (o o' : Nat)
  | moveAssign (o o' : Nat)
  | destroy (o : Nat)

def next (s : Sockets) : Step → Sockets
  | .construct o accepts => s.construct o accepts
  | .moveConstruct o o' => s.moveConstruct o o'
  | .moveAssign o o' => s.moveAssign o o'
  | .destroy o => s.destroy o

end Sockets

/-- An object is constructed once, and used until it is destroyed. -/
def sockets : Machine Sockets Sockets.Step where
  guard s
    | .construct o _ => s.sockfd_ o = none
    | .moveConstruct o o' => s.sockfd_ o ≠ none ∧ s.sockfd_ o' = none
    | .moveAssign o o' => s.sockfd_ o ≠ none ∧ s.sockfd_ o' ≠ none
    | .destroy o => s.sockfd_ o ≠ none
  next := Sockets.next

namespace Sockets

instance (s : Sockets) : (l : Step) → Decidable (sockets.guard s l)
  | .construct o _ => inferInstanceAs (Decidable (s.sockfd_ o = none))
  | .moveConstruct o o' =>
      inferInstanceAs (Decidable (s.sockfd_ o ≠ none ∧ s.sockfd_ o' = none))
  | .moveAssign o o' => inferInstanceAs (Decidable (s.sockfd_ o ≠ none ∧ s.sockfd_ o' ≠ none))
  | .destroy o => inferInstanceAs (Decidable (s.sockfd_ o ≠ none))

/-! ## The specification -/

/-- The object `o` refers to the file `f`. -/
def Holds (s : Sockets) (o f : Nat) : Prop :=
  ∃ n : Nat, s.sockfd_ o = some (n : Int) ∧ s.files.file n = some f

/-- Every file that was opened is closed or held. -/
def NoLeak (s : Sockets) : Prop :=
  ∀ f < s.opened, some f ∈ s.closes ∨ ∃ o, s.Holds o f

/-- An assignment goes to an object that holds nothing, or to itself. -/
def EmptyTarget (s : Sockets) : Step → Prop
  | .moveAssign o o' => o' ≠ o → ∀ f, ¬ s.Holds o' f
  | _ => True

/-- **Ownership**: an open file has one number and one object at most, and
    a close has hit the file of the object destroyed. -/
structure Owned (s : Sockets) : Prop where
  backed : ∀ o (n : Nat), s.sockfd_ o = some (n : Int) → ∃ f, s.files.file n = some f
  single : ∀ o o' f, s.Holds o f → s.Holds o' f → o = o'
  distinct : ∀ n n' f, s.files.file n = some f → s.files.file n' = some f → n = n'
  opened : ∀ n f, s.files.file n = some f → f < s.opened
  closes : ∀ c ∈ s.closes, ∃ f, c = some f ∧ f < s.opened ∧ ∀ n, s.files.file n ≠ some f
  nodup : s.closes.Nodup

variable {s : Sockets} {o o' : Nat}

theorem owned_new : new.Owned where
  backed _ _ h := by cases h
  single _ _ _ h := by
    obtain ⟨n, hn, -⟩ := h
    cases hn
  distinct _ _ _ h := by cases h
  opened _ _ h := by cases h
  closes _ h := absurd h List.not_mem_nil
  nodup := List.nodup_nil

@[simp] theorem setFd_self (s : Sockets) (o : Nat) (fd : Option Int) :
    (s.setFd o fd).sockfd_ o = fd := Function.update_self ..

theorem setFd_of_ne (s : Sockets) (fd : Option Int) {x : Nat} (h : x ≠ o) :
    (s.setFd o fd).sockfd_ x = s.sockfd_ x := Function.update_of_ne h ..

/-- An object that is set to no descriptor is out, and the others keep
    theirs. -/
theorem sockfd_setFd {fd : Option Int} (hfd : ∀ n : Nat, fd ≠ some (n : Int)) {x n : Nat} :
    (s.setFd o fd).sockfd_ x = some (n : Int) ↔ x ≠ o ∧ s.sockfd_ x = some (n : Int) := by
  by_cases hx : x = o
  · rw [hx, setFd_self]
    exact iff_of_false (hfd n) fun hno => hno.1 rfl
  · rw [setFd_of_ne s fd hx]
    exact ⟨fun hn => ⟨hx, hn⟩, And.right⟩

theorem none_ne (n : Nat) : (none : Option Int) ≠ some (n : Int) := nofun

theorem invalid_ne (n : Nat) : some (-1 : Int) ≠ some (n : Int) := by
  intro h
  have heq : (-1 : Int) = n := Option.some.inj h
  omega

/-- What the new object of an open socket is set to. -/
theorem sockfd_construct (s : Sockets) (o : Nat) :
    (s.construct o true).sockfd_ o = some (s.files.lowest : Int) := setFd_self ..

/-- A file is the new one, or it was there. -/
theorem file_construct {n f : Nat} (hf : (s.construct o true).files.file n = some f) :
    f = s.opened ∧ n = s.files.lowest ∨ s.files.file n = some f := by
  have hfile : (s.files.openFile s.opened).file n = some f := hf
  rw [DescriptorTable.file_openFile] at hfile
  split at hfile
  · next heq => exact .inl ⟨(Option.some.inj hfile).symm, heq⟩
  · exact .inr hfile

/-- What is open behind a close was open, under another number. -/
theorem file_of_close {n m f : Nat} (hf : (s.files.close n).file m = some f) :
    m ≠ n ∧ s.files.file m = some f := by
  rw [DescriptorTable.file_close] at hf
  split at hf
  · cases hf
  · next hm => exact ⟨hm, hf⟩

/-- An object with one number has one file. -/
theorem Holds.unique {f f' : Nat} (h : s.Holds o f) (h' : s.Holds o f') : f = f' := by
  obtain ⟨n, hn, hf⟩ := h
  obtain ⟨n', hn', hf'⟩ := h'
  rw [hn] at hn'
  have heq : n = n' := Int.ofNat_inj.mp (Option.some.inj hn')
  rw [heq, hf'] at hf
  exact (Option.some.inj hf).symm

/-! ## Who holds what -/

/-- The new file goes to the new object. -/
theorem holds_construct (h : s.Owned) (hnone : s.sockfd_ o = none) (x f : Nat) :
    (s.construct o true).Holds x f ↔ x = o ∧ f = s.opened ∨ s.Holds x f := by
  have hfiles : (s.construct o true).files = s.files.openFile s.opened := rfl
  by_cases hx : x = o
  · constructor
    · rintro ⟨n, hn, hf⟩
      rw [hx, sockfd_construct] at hn
      have heq : s.files.lowest = n := Int.ofNat_inj.mp (Option.some.inj hn)
      rw [hfiles, ← heq, DescriptorTable.file_openFile_lowest] at hf
      exact .inl ⟨hx, (Option.some.inj hf).symm⟩
    · rintro (⟨-, hf⟩ | ⟨n, hn, -⟩)
      · refine ⟨s.files.lowest, hx ▸ sockfd_construct s o, ?_⟩
        rw [hfiles, hf, DescriptorTable.file_openFile_lowest]
      · rw [hx, hnone] at hn
        cases hn
  · have hfd : (s.construct o true).sockfd_ x = s.sockfd_ x := setFd_of_ne _ _ hx
    constructor
    · rintro ⟨n, hn, hf⟩
      rw [hfd] at hn
      obtain ⟨g, hg⟩ := h.backed x n hn
      rw [hfiles, DescriptorTable.file_openFile_of_some hg] at hf
      exact .inr ⟨n, hn, hg.trans hf⟩
    · rintro (⟨heq, -⟩ | ⟨n, hn, hf⟩)
      · exact absurd heq hx
      · exact ⟨n, hfd.trans hn, DescriptorTable.file_openFile_of_some hf⟩

/-- An object without a descriptor holds nothing. -/
theorem holds_invalid (hnone : s.sockfd_ o = none) (x f : Nat) :
    (s.setFd o (some (-1))).Holds x f ↔ s.Holds x f := by
  constructor
  · rintro ⟨n, hn, hf⟩
    exact ⟨n, ((sockfd_setFd invalid_ne).mp hn).2, hf⟩
  · rintro ⟨n, hn, hf⟩
    refine ⟨n, (sockfd_setFd invalid_ne).mpr ⟨?_, hn⟩, hf⟩
    rintro rfl
    rw [hnone] at hn
    cases hn

/-- **A move** takes what the source holds to the target. -/
theorem holds_give (hne : o' ≠ o) (x f : Nat) :
    (s.give o o').Holds x f ↔ x = o' ∧ s.Holds o f ∨ x ≠ o ∧ x ≠ o' ∧ s.Holds x f := by
  -- the source has -1 now, the target what the source had, and the others theirs
  by_cases hx : x = o
  · constructor
    · rintro ⟨n, hn, -⟩
      exact absurd hx ((sockfd_setFd invalid_ne).mp hn).1
    · rintro (⟨heq, -⟩ | ⟨hno, -⟩)
      · exact absurd (heq.symm.trans hx) hne
      · exact absurd hx hno
  · by_cases hx' : x = o'
    · have hfd : (s.give o o').sockfd_ x = s.sockfd_ o := by
        rw [give, setFd_of_ne _ _ hx, hx', setFd_self]
      constructor
      · rintro ⟨n, hn, hf⟩
        exact .inl ⟨hx', n, hfd.symm.trans hn, hf⟩
      · rintro (⟨-, n, hn, hf⟩ | ⟨-, hno, -⟩)
        · exact ⟨n, hfd.trans hn, hf⟩
        · exact absurd hx' hno
    · have hfd : (s.give o o').sockfd_ x = s.sockfd_ x := by
        rw [give, setFd_of_ne _ _ hx, setFd_of_ne _ _ hx']
      constructor
      · rintro ⟨n, hn, hf⟩
        exact .inr ⟨hx, hx', n, hfd.symm.trans hn, hf⟩
      · rintro (⟨heq, -⟩ | ⟨-, -, n, hn, hf⟩)
        · exact absurd heq hx'
        · exact ⟨n, hfd.trans hn, hf⟩

/-- What `~Socket()` does to the file that the object holds. -/
theorem destroy_of_holds {f : Nat} (hf : s.Holds o f) : ∃ n, s.files.file n = some f ∧
    s.sockfd_ o = some (n : Int) ∧ s.destroy o =
      { s with files := s.files.close n, closes := s.closes ++ [some f] }.setFd o none := by
  obtain ⟨n, hn, hfile⟩ := hf
  refine ⟨n, hfile, hn, ?_⟩
  have hvalid : isValid (n : Int) = true := decide_eq_true (Int.natCast_nonneg n)
  rw [destroy, hn]
  simp only [if_pos hvalid, Int.toNat_natCast, hfile]

/-- An object that holds nothing is destroyed without a close. -/
theorem destroy_of_not_holds (h : s.Owned) (hf : ∀ f, ¬ s.Holds o f) (halive : s.sockfd_ o ≠ none) :
    s.destroy o = s.setFd o none := by
  obtain ⟨fd, hfd⟩ := Option.ne_none_iff_exists'.mp halive
  -- a number from 0 on would have an open file
  have hinvalid : ¬ isValid fd = true := by
    intro hvalid
    have hnat : ((fd.toNat : Nat) : Int) = fd := Int.toNat_of_nonneg (of_decide_eq_true hvalid)
    rw [← hnat] at hfd
    obtain ⟨f, hfile⟩ := h.backed o fd.toNat hfd
    exact hf f ⟨fd.toNat, hfd, hfile⟩
  rw [destroy, hfd]
  simp only [if_neg hinvalid]

/-- **A destruction** leaves the others what they hold. -/
theorem holds_destroy (h : s.Owned) (halive : s.sockfd_ o ≠ none) (x f : Nat) :
    (s.destroy o).Holds x f ↔ x ≠ o ∧ s.Holds x f := by
  have hgone : ∀ s' : Sockets, ¬ (s'.setFd o none).Holds o f := by
    rintro s' ⟨n, hn, -⟩
    exact ((sockfd_setFd none_ne).mp hn).1 rfl
  by_cases hheld : ∃ g, s.Holds o g
  · obtain ⟨g, hg⟩ := hheld
    obtain ⟨n, hfile, hfd, hdestroy⟩ := destroy_of_holds hg
    rw [hdestroy]
    by_cases hx : x = o
    · rw [hx]
      exact iff_of_false (hgone _) fun hno => hno.1 rfl
    · have hsame : ∀ {m : Nat}, s.sockfd_ x = some (m : Int) →
          (s.files.close n).file m = s.files.file m := by
        intro m hm
        rw [DescriptorTable.file_close, if_neg]
        -- another object has another number
        intro heq
        rw [heq] at hm
        exact hx (h.single x o g ⟨n, hm, hfile⟩ hg)
      constructor
      · rintro ⟨m, hm, hf⟩
        rw [setFd_of_ne _ _ hx] at hm
        exact ⟨hx, m, hm, (hsame hm).symm.trans hf⟩
      · rintro ⟨-, m, hm, hf⟩
        exact ⟨m, (setFd_of_ne _ _ hx).trans hm, (hsame hm).trans hf⟩
  · rw [destroy_of_not_holds h (fun g hg => hheld ⟨g, hg⟩) halive]
    by_cases hx : x = o
    · rw [hx]
      exact iff_of_false (hgone _) fun hno => hno.1 rfl
    · rw [Holds, Holds, setFd_of_ne s _ hx]
      exact ⟨fun hf => ⟨hx, hf⟩, fun hf => hf.2⟩

/-! ## Ownership -/

/-- A failed accept gives an object without a descriptor. -/
theorem owned_invalid (h : s.Owned) (hnone : s.sockfd_ o = none) :
    (s.setFd o (some (-1))).Owned := by
  refine ⟨?_, ?_, h.distinct, h.opened, h.closes, h.nodup⟩
  · intro x n hn
    exact h.backed x n ((sockfd_setFd invalid_ne).mp hn).2
  · intro x x' f hf hf'
    rw [holds_invalid hnone] at hf hf'
    exact h.single x x' f hf hf'

/-- The number of the next file is new. -/
theorem Owned.fresh (h : s.Owned) {n : Nat} : s.files.file n ≠ some s.opened := fun hf =>
  Nat.lt_irrefl _ (h.opened n _ hf)

/-- The file of a successful one is held by nobody else. -/
theorem owned_opened (h : s.Owned) (hnone : s.sockfd_ o = none) :
    (s.construct o true).Owned := by
  refine ⟨?_, ?_, ?_, ?_, ?_, h.nodup⟩
  · intro x n hn
    by_cases hx : x = o
    · rw [hx, sockfd_construct] at hn
      have heq : s.files.lowest = n := Int.ofNat_inj.mp (Option.some.inj hn)
      refine ⟨s.opened, ?_⟩
      rw [← heq]
      exact DescriptorTable.file_openFile_lowest
    · have hfd : (s.construct o true).sockfd_ x = s.sockfd_ x := setFd_of_ne _ _ hx
      obtain ⟨f, hf⟩ := h.backed x n (hfd.symm.trans hn)
      exact ⟨f, DescriptorTable.file_openFile_of_some hf⟩
  · intro x x' f hf hf'
    -- two holders of one file: the file is new to both or to neither
    rw [holds_construct h hnone] at hf hf'
    rcases hf with ⟨hx, hnumber⟩ | hf
    · rcases hf' with ⟨hx', -⟩ | ⟨n, -, hf'⟩
      · exact hx.trans hx'.symm
      · rw [hnumber] at hf'
        exact absurd hf' h.fresh
    · rcases hf' with ⟨-, hnumber⟩ | hf'
      · obtain ⟨n, -, hfile⟩ := hf
        rw [hnumber] at hfile
        exact absurd hfile h.fresh
      · exact h.single x x' f hf hf'
  · intro n n' f hf hf'
    rcases file_construct hf with ⟨hnumber, hn⟩ | hold
    · rcases file_construct hf' with ⟨-, hn'⟩ | hold'
      · exact hn.trans hn'.symm
      · rw [hnumber] at hold'
        exact absurd hold' h.fresh
    · rcases file_construct hf' with ⟨hnumber, -⟩ | hold'
      · rw [hnumber] at hold
        exact absurd hold h.fresh
      · exact h.distinct n n' f hold hold'
  · intro n f hf
    show f < s.opened + 1
    rcases file_construct hf with ⟨hnumber, -⟩ | hold
    · omega
    · exact Nat.lt_succ_of_lt (h.opened n f hold)
  · intro c hc
    obtain ⟨f, hf, hlt, hclosed⟩ := h.closes c hc
    refine ⟨f, hf, Nat.lt_succ_of_lt hlt, ?_⟩
    intro n hfile
    rcases file_construct hfile with ⟨hnumber, -⟩ | hold
    · omega
    · exact hclosed n hold

theorem owned_construct (h : s.Owned) (hnone : s.sockfd_ o = none) (accepts : Bool) :
    (s.construct o accepts).Owned := by
  cases accepts with
  | false => exact owned_invalid h hnone
  | true => exact owned_opened h hnone

theorem owned_give (h : s.Owned) (hne : o' ≠ o) : (s.give o o').Owned := by
  refine ⟨?_, ?_, h.distinct, h.opened, h.closes, h.nodup⟩
  · intro x n hn
    obtain ⟨-, hgiven⟩ := (sockfd_setFd invalid_ne).mp hn
    by_cases hx' : x = o'
    · rw [hx', setFd_self] at hgiven
      exact h.backed o n hgiven
    · rw [setFd_of_ne _ _ hx'] at hgiven
      exact h.backed x n hgiven
  · intro x x' f hf hf'
    rw [holds_give hne] at hf hf'
    rcases hf with ⟨hx, hf⟩ | ⟨hxo, -, hf⟩
    · rcases hf' with ⟨hx', -⟩ | ⟨hxo', -, hf'⟩
      · exact hx.trans hx'.symm
      · exact absurd (h.single x' o f hf' hf) hxo'
    · rcases hf' with ⟨-, hf'⟩ | ⟨-, -, hf'⟩
      · exact absurd (h.single x o f hf hf') hxo
      · exact h.single x x' f hf hf'

/-- **A close** hits the file of the object, for the first time. -/
theorem owned_close (h : s.Owned) {n g : Nat} (hfd : s.sockfd_ o = some (n : Int))
    (hfile : s.files.file n = some g)
    (hdestroy : s.destroy o =
      { s with files := s.files.close n, closes := s.closes ++ [some g] }.setFd o none)
    (hsingle : ∀ x x' f, (s.destroy o).Holds x f → (s.destroy o).Holds x' f → x = x') :
    (s.destroy o).Owned := by
  rw [hdestroy] at hsingle ⊢
  refine ⟨?_, hsingle, ?_, ?_, ?_, ?_⟩
  · intro x m hm
    obtain ⟨hx, hm⟩ := (sockfd_setFd none_ne).mp hm
    obtain ⟨f, hf⟩ := h.backed x m hm
    refine ⟨f, ?_⟩
    show (s.files.close n).file m = some f
    rw [DescriptorTable.file_close, if_neg]
    · exact hf
    · -- another object has another number
      intro heq
      rw [heq] at hm
      exact hx (h.single x o g ⟨n, hm, hfile⟩ ⟨n, hfd, hfile⟩)
  · intro m m' f hf hf'
    exact h.distinct m m' f (file_of_close hf).2 (file_of_close hf').2
  · intro m f hf
    exact h.opened m f (file_of_close hf).2
  · intro c hc
    rcases List.mem_append.mp hc with hc | hc
    · obtain ⟨f, hf, hlt, hclosed⟩ := h.closes c hc
      exact ⟨f, hf, hlt, fun m hm => hclosed m (file_of_close hm).2⟩
    · -- the file that is closed now had one number only
      refine ⟨g, List.mem_singleton.mp hc, h.opened n g hfile, ?_⟩
      intro m hm
      obtain ⟨hne, hold⟩ := file_of_close hm
      exact hne (h.distinct m n g hold hfile)
  · show (s.closes ++ [some g]).Nodup
    -- it was open until now, so no earlier close was of it
    refine List.nodup_append.mpr ⟨h.nodup, List.nodup_singleton _, ?_⟩
    intro c hc d hd heq
    rw [heq, List.mem_singleton.mp hd] at hc
    obtain ⟨f, hf, -, hclosed⟩ := h.closes _ hc
    rw [Option.some.inj hf] at hfile
    exact hclosed n hfile

theorem owned_destroy (h : s.Owned) (halive : s.sockfd_ o ≠ none) : (s.destroy o).Owned := by
  have hsingle : ∀ x x' f, (s.destroy o).Holds x f → (s.destroy o).Holds x' f → x = x' := by
    intro x x' f hf hf'
    rw [holds_destroy h halive] at hf hf'
    exact h.single x x' f hf.2 hf'.2
  by_cases hheld : ∃ g, s.Holds o g
  · obtain ⟨g, hg⟩ := hheld
    obtain ⟨n, hfile, hfd, hdestroy⟩ := destroy_of_holds hg
    exact owned_close h hfd hfile hdestroy hsingle
  · have hdestroy := destroy_of_not_holds h (fun g hg => hheld ⟨g, hg⟩) halive
    rw [hdestroy] at hsingle ⊢
    refine ⟨?_, hsingle, h.distinct, h.opened, h.closes, h.nodup⟩
    intro x n hn
    exact h.backed x n ((sockfd_setFd none_ne).mp hn).2

theorem owned_next (h : s.Owned) (l : Step) (hguard : sockets.guard s l) : (s.next l).Owned := by
  cases l with
  | construct o accepts => exact owned_construct h hguard accepts
  | moveConstruct o o' =>
    apply owned_give h
    intro heq
    have hnone : s.sockfd_ o' = none := hguard.2
    rw [heq] at hnone
    exact hguard.1 hnone
  | moveAssign o o' =>
    show (s.moveAssign o o').Owned
    unfold moveAssign
    split
    · next hne => exact owned_give h hne
    · exact h
  | destroy o => exact owned_destroy h hguard

/-! ## Leaks -/

/-- After a move all is held but what the target held. -/
theorem exists_holds_give (hne : o' ≠ o) (f : Nat) :
    (∃ x, (s.give o o').Holds x f) ↔ ∃ x, x ≠ o' ∧ s.Holds x f := by
  constructor
  · rintro ⟨x, hx⟩
    rcases (holds_give hne x f).mp hx with ⟨-, hf⟩ | ⟨-, hxo, hf⟩
    · exact ⟨o, fun heq => hne heq.symm, hf⟩
    · exact ⟨x, hxo, hf⟩
  · rintro ⟨x, hxo, hf⟩
    by_cases hx : x = o
    · exact ⟨o', (holds_give hne o' f).mpr (.inl ⟨rfl, hx ▸ hf⟩)⟩
    · exact ⟨x, (holds_give hne x f).mpr (.inr ⟨hx, hxo, hf⟩)⟩

/-- A file that is held is not closed. -/
theorem Owned.not_closed (h : s.Owned) {f : Nat} (hf : s.Holds o f) : some f ∉ s.closes := by
  intro hmem
  obtain ⟨n, -, hfile⟩ := hf
  obtain ⟨g, hg, -, hclosed⟩ := h.closes _ hmem
  rw [Option.some.inj hg] at hfile
  exact hclosed n hfile

theorem noLeak_construct (h : s.Owned) (hnone : s.sockfd_ o = none) (accepts : Bool) :
    (s.construct o accepts).NoLeak ↔ s.NoLeak := by
  cases accepts with
  | false =>
    have hsame : ∀ f, (∃ x, (s.construct o false).Holds x f) ↔ ∃ x, s.Holds x f := fun f =>
      exists_congr fun x => holds_invalid hnone x f
    exact forall₂_congr fun f _ => or_congr Iff.rfl (hsame f)
  | true =>
    constructor
    · intro hall f hf
      rcases hall f (Nat.lt_succ_of_lt hf) with hclosed | ⟨x, hx⟩
      · exact .inl hclosed
      · rcases (holds_construct h hnone x f).mp hx with ⟨-, hnew⟩ | hold
        · omega
        · exact .inr ⟨x, hold⟩
    · intro hall f hf
      have hle : f < s.opened + 1 := hf
      by_cases hnew : f = s.opened
      · exact .inr ⟨o, (holds_construct h hnone o f).mpr (.inl ⟨rfl, hnew⟩)⟩
      · rcases hall f (by omega) with hclosed | ⟨x, hx⟩
        · exact .inl hclosed
        · exact .inr ⟨x, (holds_construct h hnone x f).mpr (.inr hx)⟩

/-- **A move** loses the file that its target held. -/
theorem noLeak_give (h : s.Owned) (hne : o' ≠ o) :
    (s.give o o').NoLeak ↔ s.NoLeak ∧ ∀ f, ¬ s.Holds o' f := by
  constructor
  · intro hall
    have hkept : ∀ f < s.opened, some f ∈ s.closes ∨ ∃ x, x ≠ o' ∧ s.Holds x f := fun f hf =>
      (hall f hf).imp_right (exists_holds_give hne f).mp
    refine ⟨?_, ?_⟩
    · intro f hf
      exact (hkept f hf).imp_right fun ⟨x, _, hx⟩ => ⟨x, hx⟩
    · -- what the target held is open, and nobody else holds it
      intro f hf
      obtain ⟨n, -, hfile⟩ := id hf
      rcases hkept f (h.opened n f hfile) with hclosed | ⟨x, hxo, hx⟩
      · exact h.not_closed hf hclosed
      · exact hxo (h.single x o' f hx hf)
  · rintro ⟨hall, hempty⟩ f hf
    refine (hall f hf).imp_right fun ⟨x, hx⟩ => (exists_holds_give hne f).mpr ⟨x, ?_, hx⟩
    intro heq
    rw [heq] at hx
    exact hempty f hx

/-- A destruction closes what it takes. -/
theorem noLeak_destroy (h : s.Owned) (halive : s.sockfd_ o ≠ none) :
    (s.destroy o).NoLeak ↔ s.NoLeak := by
  by_cases hheld : ∃ g, s.Holds o g
  · obtain ⟨g, hg⟩ := hheld
    obtain ⟨n, -, -, hdestroy⟩ := destroy_of_holds hg
    have hcloses : (s.destroy o).closes = s.closes ++ [some g] := by
      rw [hdestroy]
      rfl
    have hopened : (s.destroy o).opened = s.opened := by
      rw [hdestroy]
      rfl
    unfold NoLeak
    rw [hcloses, hopened]
    refine forall₂_congr fun f _ => ?_
    rw [List.mem_append, List.mem_singleton, or_assoc]
    refine or_congr Iff.rfl ⟨?_, ?_⟩
    · rintro (hf | ⟨x, hx⟩)
      · exact ⟨o, Option.some.inj hf ▸ hg⟩
      · exact ⟨x, ((holds_destroy h halive x f).mp hx).2⟩
    · rintro ⟨x, hx⟩
      by_cases hxo : x = o
      · rw [hxo] at hx
        exact .inl (congrArg some (hx.unique hg))
      · exact .inr ⟨x, (holds_destroy h halive x f).mpr ⟨hxo, hx⟩⟩
  · have hdestroy := destroy_of_not_holds h (fun g hg => hheld ⟨g, hg⟩) halive
    have hsame : ∀ f, (∃ x, (s.destroy o).Holds x f) ↔ ∃ x, s.Holds x f := by
      intro f
      refine exists_congr fun x => (holds_destroy h halive x f).trans
        ⟨And.right, fun hx => ⟨?_, hx⟩⟩
      intro hxo
      rw [hxo] at hx
      exact hheld ⟨f, hx⟩
    have hcloses : (s.destroy o).closes = s.closes := by
      rw [hdestroy]
      rfl
    have hopened : (s.destroy o).opened = s.opened := by
      rw [hdestroy]
      rfl
    unfold NoLeak
    rw [hcloses, hopened]
    exact forall₂_congr fun f _ => or_congr Iff.rfl (hsame f)

/-- **Step**: a file is lost by an assignment over it, and by nothing else;
    what is lost stays lost. -/
theorem noLeak_next (h : s.Owned) (l : Step) (hguard : sockets.guard s l) :
    (s.next l).NoLeak ↔ s.NoLeak ∧ s.EmptyTarget l := by
  cases l with
  | construct o accepts =>
    exact (noLeak_construct h hguard accepts).trans ⟨fun hall => ⟨hall, trivial⟩, And.left⟩
  | destroy o => exact (noLeak_destroy h hguard).trans ⟨fun hall => ⟨hall, trivial⟩, And.left⟩
  | moveConstruct o o' =>
    -- a new object holds nothing yet
    have hnone : s.sockfd_ o' = none := hguard.2
    have hne : o' ≠ o := by
      intro heq
      rw [heq] at hnone
      exact hguard.1 hnone
    refine (noLeak_give h hne).trans ⟨fun hall => ⟨hall.1, trivial⟩, fun hall => ⟨hall.1, ?_⟩⟩
    rintro f ⟨n, hn, -⟩
    rw [hnone] at hn
    cases hn
  | moveAssign o o' =>
    show (s.moveAssign o o').NoLeak ↔ s.NoLeak ∧ (o' ≠ o → ∀ f, ¬ s.Holds o' f)
    unfold moveAssign
    split
    · next hne =>
      exact (noLeak_give h hne).trans (and_congr Iff.rfl ⟨fun he _ => he, fun he => he hne⟩)
    · next heq => exact ⟨fun hall => ⟨hall, fun hne => absurd hne heq⟩, And.left⟩

/-- **Descriptors and objects**: over every sequence of constructions,
    moves, assignments and destructions, with the numbers given out as the
    kernel does: every close hits an open file, and no file is closed twice;
    an object with a descriptor holds an open file, alone; and every file is
    closed or held, if and only if no assignment went to an object that
    held another one. -/
theorem sockets_run {ls : List Step} (hls : sockets.Valid new ls) :
    let s := sockets.run new ls
    (∀ c ∈ s.closes, c ≠ none) ∧ s.closes.Nodup ∧
      (∀ o (n : Nat), s.sockfd_ o = some (n : Int) → ∃ f, s.Holds o f ∧ some f ∉ s.closes ∧
        ∀ o', s.Holds o' f → o' = o) ∧
      (s.NoLeak ↔ sockets.Along EmptyTarget new ls) := by
  intro s
  have h : s.Owned :=
    sockets.invariant_run Owned (fun _ l h hguard => owned_next h l hguard) owned_new hls
  refine ⟨?_, h.nodup, ?_, ?_⟩
  · intro c hc
    obtain ⟨f, hf, -, -⟩ := h.closes c hc
    rw [hf]
    exact Option.some_ne_none f
  · intro o n hn
    obtain ⟨f, hf⟩ := h.backed o n hn
    have hholds : s.Holds o f := ⟨n, hn, hf⟩
    exact ⟨f, hholds, h.not_closed hholds, fun o' ho' => h.single o' o f ho' hholds⟩
  · refine sockets.run_iff_along Owned NoLeak ?_ ?_ ?_ owned_new hls ?_
    · exact fun _ l h hguard => owned_next h l hguard
    · exact fun _ l h hguard hall =>
        (noLeak_next h l hguard).trans ⟨And.right, fun hempty => ⟨hall, hempty⟩⟩
    · exact fun _ l h hguard hleak hall => hleak ((noLeak_next h l hguard).mp hall).1
    · intro f hf
      exact absurd hf (Nat.not_lt_zero f)

/-- An accepted socket is moved into a connection.  Its number comes again
    behind the close. -/
def acceptedRun : List Step :=
  [.construct 0 true, .moveConstruct 0 1, .destroy 0, .construct 2 true, .destroy 1,
    .construct 3 true, .moveAssign 3 2]

theorem valid_acceptedRun : sockets.Valid new acceptedRun := by
  decide +kernel

theorem sockets_run_accepted :
    let s := sockets.run new acceptedRun
    s.closes = [some 0] ∧ (s.NoLeak ↔ sockets.Along EmptyTarget new acceptedRun) :=
  ⟨by decide +kernel, (sockets_run valid_acceptedRun).2.2.2⟩

end Sockets

end TinyWS
