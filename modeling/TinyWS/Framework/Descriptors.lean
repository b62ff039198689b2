import Mathlib.Data.List.Basic
import Mathlib.Data.List.Count

/-! # Descriptor Tables

    The open files of a process, by number.  A new descriptor gets the
    lowest number that is free, so the number of a file says nothing about
    it once a descriptor has been closed.

    * `file`: the file a descriptor refers to.
    * `openFile`, `close`: what they do to every descriptor.
    * `count`: how many descriptors refer to a file.  An open adds one, and
      a close takes one away, from the file that was there.
    * `SameFor`: all other files are left alone. -/

universe u

/-- The open files of a process, by number. -/
structure DescriptorTable (File : Type u) where
  slots : List (Option File)
  deriving DecidableEq

namespace DescriptorTable

variable {File : Type u}

def empty : DescriptorTable File := ⟨[]⟩

/-- The file that a descriptor refers to. -/
def file (t : DescriptorTable File) (fd : Nat) : Option File := (t.slots[fd]?).join

/-- The number of the next descriptor. -/
def lowest (t : DescriptorTable File) : Nat := t.slots.findIdx Option.isNone

def openFile (t : DescriptorTable File) (f : File) : DescriptorTable File :=
  ⟨(t.slots ++ [none]).set t.lowest (some f)⟩

def close (t : DescriptorTable File) (fd : Nat) : DescriptorTable File := ⟨t.slots.set fd none⟩

variable {t : DescriptorTable File} {f g : File} {fd : Nat}

@[simp] theorem file_empty : (empty : DescriptorTable File).file fd = none := rfl

theorem lowest_le (t : DescriptorTable File) : t.lowest ≤ t.slots.length :=
  List.findIdx_le_length

/-- The next number is free, -/
theorem file_lowest (t : DescriptorTable File) : t.file t.lowest = none := by
  by_cases h : t.lowest < t.slots.length
  · have hnone : (t.slots[t.lowest]).isNone = true := List.findIdx_getElem (w := h)
    rw [file, List.getElem?_eq_getElem h, Option.isNone_iff_eq_none.mp hnone]
    rfl
  · rw [file, List.getElem?_eq_none (by omega)]
    rfl

/-- so it is not one in use. -/
theorem ne_lowest (h : t.file fd ≠ none) : fd ≠ t.lowest := by
  intro heq
  rw [heq, file_lowest] at h
  exact h rfl

/-- **Opening** takes the next number and leaves the others. -/
theorem file_openFile (t : DescriptorTable File) (f : File) (fd : Nat) :
    (t.openFile f).file fd = if fd = t.lowest then some f else t.file fd := by
  have hle := t.lowest_le
  unfold file openFile
  rw [List.getElem?_set]
  by_cases h : t.lowest = fd
  · have hlt : t.lowest < (t.slots ++ [none]).length := by
      rw [List.length_append, List.length_singleton]
      omega
    rw [if_pos h, if_pos hlt, if_pos h.symm]
    rfl
  · rw [if_neg h, if_neg fun heq => h heq.symm]
    by_cases hfd : fd < t.slots.length
    · rw [List.getElem?_append_left hfd]
    · have hnone : t.slots[fd]? = none := List.getElem?_eq_none (by omega)
      rw [hnone, List.getElem?_append_right (by omega)]
      cases hrest : fd - t.slots.length with
      | zero => rfl
      | succ _ => rfl

@[simp] theorem file_openFile_lowest : (t.openFile f).file t.lowest = some f := by
  rw [file_openFile, if_pos rfl]

/-- A descriptor in use keeps its file. -/
theorem file_openFile_of_some (h : t.file fd = some g) : (t.openFile f).file fd = some g := by
  have hne : t.file fd ≠ none := by
    rw [h]
    exact Option.some_ne_none g
  rw [file_openFile, if_neg (ne_lowest hne), h]

/-- **Closing** frees one number. -/
theorem file_close (t : DescriptorTable File) (fd k : Nat) :
    (t.close fd).file k = if k = fd then none else t.file k := by
  unfold file close
  rw [List.getElem?_set]
  by_cases h : fd = k
  · rw [if_pos h, if_pos h.symm]
    split
    · rfl
    · rfl
  · rw [if_neg h, if_neg fun heq => h heq.symm]

/-- A descriptor of another file keeps it. -/
theorem file_close_of_some {k : Nat} (h : t.file k = some g) (hfd : t.file fd ≠ some g) :
    (t.close fd).file k = some g := by
  have hne : k ≠ fd := by
    intro heq
    rw [heq] at h
    exact hfd h
  rw [file_close, if_neg hne, h]

/-! ## How many descriptors refer to a file -/

section Count

variable [DecidableEq File]

def count (t : DescriptorTable File) (f : File) : Nat := t.slots.count (some f)

@[simp] theorem count_empty : (empty : DescriptorTable File).count f = 0 := rfl

theorem count_openFile (t : DescriptorTable File) (f g : File) :
    (t.openFile f).count g = t.count g + if f = g then 1 else 0 := by
  have hlt : t.lowest < (t.slots ++ [none]).length := by
    have hle := t.lowest_le
    rw [List.length_append, List.length_singleton]
    omega
  have hfree : (t.slots ++ [none])[t.lowest] = none := by
    have hfile := t.file_lowest
    unfold file at hfile
    by_cases h : t.lowest < t.slots.length
    · rw [List.getElem?_eq_getElem h] at hfile
      rw [List.getElem_append_left h]
      exact hfile
    · rw [List.getElem_append_right (by omega)]
      exact List.getElem_singleton _
  unfold count openFile
  rw [List.count_set hlt, hfree, List.count_append]
  simp

theorem count_openFile_self (t : DescriptorTable File) (f : File) :
    (t.openFile f).count f = t.count f + 1 := by
  rw [count_openFile, if_pos rfl]

theorem count_openFile_ne (t : DescriptorTable File) (h : f ≠ g) :
    (t.openFile f).count g = t.count g := by
  rw [count_openFile, if_neg h, Nat.add_zero]

/-- A descriptor of the file is closed. -/
theorem count_close_self (h : t.file fd = some f) : (t.close fd).count f + 1 = t.count f := by
  unfold file at h
  have hsome : t.slots[fd]? = some (some f) := Option.join_eq_some_iff.mp h
  obtain ⟨hlt, heq⟩ := List.getElem?_eq_some_iff.mp hsome
  have hpos : 0 < t.slots.count (some f) := by
    rw [List.count_pos_iff, ← heq]
    exact List.getElem_mem hlt
  unfold count close
  rw [List.count_set hlt, heq]
  simp
  omega

/-- No descriptor of the file is closed. -/
theorem count_close_ne (h : t.file fd ≠ some f) : (t.close fd).count f = t.count f := by
  unfold count close
  by_cases hlt : fd < t.slots.length
  · have hne : t.slots[fd] ≠ some f := by
      intro heq
      rw [file, List.getElem?_eq_getElem hlt, heq] at h
      exact h rfl
    rw [List.count_set hlt]
    simp [hne]
  · rw [List.set_eq_of_length_le (by omega)]

/-- The descriptors of one file are the same in both tables. -/
structure SameFor (f : File) (t t' : DescriptorTable File) : Prop where
  file : ∀ fd, t.file fd = some f → t'.file fd = some f
  count : t'.count f = t.count f

theorem SameFor.trans {t₁ t₂ t₃ : DescriptorTable File} (h : SameFor f t₁ t₂)
    (h' : SameFor f t₂ t₃) : SameFor f t₁ t₃ :=
  ⟨fun fd hfd => h'.file fd (h.file fd hfd), h'.count.trans h.count⟩

/-- Another file is opened. -/
theorem sameFor_openFile (t : DescriptorTable File) (h : g ≠ f) : SameFor f t (t.openFile g) :=
  ⟨fun _ hfd => file_openFile_of_some hfd, count_openFile_ne t h⟩

/-- A descriptor of another file is closed. -/
theorem sameFor_close (hfd : t.file fd = some g) (h : g ≠ f) : SameFor f t (t.close fd) := by
  have hne : t.file fd ≠ some f := by
    rw [hfd]
    exact fun heq => h (Option.some.inj heq)
  exact ⟨fun _ hk => file_close_of_some hk hne, count_close_ne hne⟩

/-- A file that a descriptor refers to is counted. -/
theorem count_pos (h : t.file fd = some f) : 0 < t.count f := by
  have hself := count_close_self h
  omega

theorem file_ne_of_count_eq_zero (h : t.count f = 0) (fd : Nat) : t.file fd ≠ some f := by
  intro heq
  have hpos := count_pos heq
  omega

end Count

end DescriptorTable
