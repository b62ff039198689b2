import Mathlib.Data.List.Basic

/-! # Guarded Machines

    A machine is a step function with a guard.  Everything the
    environment decides (which event comes next, what a system call
    returns) is carried by the label, so a run is a list of labels and
    can be computed.

    This module collects the run-level rules used by every protocol of
    the development:

    * **Invariants** over runs whose steps all meet a side condition.
    * **Exact conditions**: when a property survives a run if and only
      if every step of the run meets the condition.
    * **Reachability**: when some run ends in a state with a property.
    * **Refinement**: when the runs of one machine are runs of another,
      step by step or with stuttering.
-/

universe u v w x

/-- A guarded machine.  The label says which step is taken and with
    which answers from the environment. -/
structure Machine (State : Type u) (Label : Type v) where
  /-- When the step may be taken. -/
  guard : State → Label → Prop
  /-- The state after the step. -/
  next : State → Label → State

namespace Machine

variable {State : Type u} {Label : Type v} (m : Machine State Label)

/-- The state after a list of steps. -/
def run : State → List Label → State
  | s, [] => s
  | s, l :: ls => run (m.next s l) ls

/-- Every step of the run meets `p`, read in the state before it. -/
def Along (p : State → Label → Prop) : State → List Label → Prop
  | _, [] => True
  | s, l :: ls => p s l ∧ Along p (m.next s l) ls

/-- The runs of the machine: every step meets its guard. -/
abbrev Valid (s : State) (ls : List Label) : Prop := m.Along m.guard s ls

instance decidableAlong (p : State → Label → Prop) [∀ s l, Decidable (p s l)] :
    ∀ s ls, Decidable (m.Along p s ls)
  | _, [] => isTrue trivial
  | s, l :: ls =>
      have := decidableAlong p (m.next s l) ls
      inferInstanceAs (Decidable (p s l ∧ m.Along p (m.next s l) ls))

/-! ## Runs -/

@[simp] theorem run_nil (s : State) : m.run s [] = s := rfl

@[simp] theorem run_cons (s : State) (l : Label) (ls : List Label) :
    m.run s (l :: ls) = m.run (m.next s l) ls := rfl

theorem run_append (s : State) (ls ks : List Label) :
    m.run s (ls ++ ks) = m.run (m.run s ls) ks := by
  induction ls generalizing s with
  | nil => rfl
  | cons l ls ih => exact ih (m.next s l)

variable {p q : State → Label → Prop}

@[simp] theorem along_nil (s : State) : m.Along p s [] := trivial

@[simp] theorem along_cons (s : State) (l : Label) (ls : List Label) :
    m.Along p s (l :: ls) ↔ p s l ∧ m.Along p (m.next s l) ls := Iff.rfl

theorem along_append (s : State) (ls ks : List Label) :
    m.Along p s (ls ++ ks) ↔ m.Along p s ls ∧ m.Along p (m.run s ls) ks := by
  induction ls generalizing s with
  | nil => simp
  | cons l ls ih => simp [ih, and_assoc]

/-- A run goes on where it stopped. -/
theorem valid_append (s : State) (ls ks : List Label) :
    m.Valid s (ls ++ ks) ↔ m.Valid s ls ∧ m.Valid (m.run s ls) ks :=
  m.along_append s ls ks

/-! ## Invariants -/

/-- **Invariant rule**: what every step meeting `p` preserves holds after
    every run whose steps all meet `p`. -/
theorem invariant_run (Inv : State → Prop)
    (hstep : ∀ s l, Inv s → p s l → Inv (m.next s l)) :
    ∀ {s ls}, Inv s → m.Along p s ls → Inv (m.run s ls) := by
  intro s ls
  induction ls generalizing s with
  | nil => exact fun h _ => h
  | cons l ls ih =>
    intro h hrun
    exact ih (hstep s l h hrun.1) hrun.2

/-- **Strengthening**: a side condition may be replaced by one that
    follows from it under an invariant. -/
theorem along_of_invariant (Inv : State → Prop)
    (hstep : ∀ s l, Inv s → p s l → Inv (m.next s l))
    (himp : ∀ s l, Inv s → p s l → q s l) :
    ∀ {s ls}, Inv s → m.Along p s ls → m.Along q s ls := by
  intro s ls
  induction ls generalizing s with
  | nil => exact fun _ _ => trivial
  | cons l ls ih =>
    intro h hrun
    exact ⟨himp s l h hrun.1, ih (hstep s l h hrun.1) hrun.2⟩

/-- A property of every label of the run. -/
theorem along_of_forall {r : Label → Prop} (s : State) {ls : List Label}
    (h : ∀ l ∈ ls, r l) : m.Along (fun _ l => r l) s ls := by
  induction ls generalizing s with
  | nil => trivial
  | cons l ls ih => exact ⟨h l (by simp), ih _ fun k hk => h k (by simp [hk])⟩

theorem along_iff_forall {r : Label → Prop} (s : State) (ls : List Label) :
    m.Along (fun _ l => r l) s ls ↔ ∀ l ∈ ls, r l := by
  constructor
  · intro h
    induction ls generalizing s with
    | nil => simp
    | cons l ls ih =>
      intro k hk
      rcases List.mem_cons.mp hk with rfl | hmem
      · exact h.1
      · exact ih _ h.2 k hmem
  · exact m.along_of_forall s

theorem along_true (s : State) (ls : List Label) : m.Along (fun _ _ => True) s ls :=
  m.along_of_forall s fun _ _ => trivial

theorem along_and (s : State) (ls : List Label) :
    m.Along (fun s l => p s l ∧ q s l) s ls ↔ m.Along p s ls ∧ m.Along q s ls := by
  induction ls generalizing s with
  | nil => simp
  | cons l ls ih => simp only [along_cons, ih]; tauto

/-! ## Exact conditions -/

/-- **Exact-condition rule**: if a good state stays good exactly under
    `cond`, and a bad state is never repaired, then the state after a run
    is good exactly when every step of the run met `cond`.  `Inv` is an
    invariant of all the runs considered. -/
theorem run_iff_along (Inv Good : State → Prop) {cond : State → Label → Prop}
    (hinv : ∀ s l, Inv s → p s l → Inv (m.next s l))
    (hgood : ∀ s l, Inv s → p s l → Good s → (Good (m.next s l) ↔ cond s l))
    (hbad : ∀ s l, Inv s → p s l → ¬ Good s → ¬ Good (m.next s l)) :
    ∀ {s ls}, Inv s → m.Along p s ls → Good s →
      (Good (m.run s ls) ↔ m.Along cond s ls) := by
  have hstuck : ∀ {ls s}, Inv s → m.Along p s ls → ¬ Good s → ¬ Good (m.run s ls) := by
    intro ls
    induction ls with
    | nil => exact fun _ _ h => h
    | cons l ls ih =>
      intro s hs hrun hb
      exact ih (hinv s l hs hrun.1) hrun.2 (hbad s l hs hrun.1 hb)
  intro s ls
  induction ls generalizing s with
  | nil => exact fun _ _ hg => ⟨fun _ => trivial, fun _ => hg⟩
  | cons l ls ih =>
    intro hs hrun hg
    have hs' := hinv s l hs hrun.1
    by_cases hc : cond s l
    · have hg' := (hgood s l hs hrun.1 hg).mpr hc
      simpa [hc] using ih hs' hrun.2 hg'
    · have hg' : ¬ Good (m.next s l) := fun h => hc ((hgood s l hs hrun.1 hg).mp h)
      simpa [hc] using hstuck hs' hrun.2 hg'

/-- **Exact condition for every state of a run**: while `cond` is met the
    state stays good, and the first step that misses it ends in a bad
    state.  The invariant may look at the labels still to come. -/
theorem always_iff_along (Inv : State → List Label → Prop) (Good : State → Prop)
    {cond : State → Label → Prop}
    (hgood : ∀ s ls, Inv s ls → Good s)
    (hkeep : ∀ s l ls, Inv s (l :: ls) → cond s l → Inv (m.next s l) ls)
    (hlose : ∀ s l ls, Inv s (l :: ls) → ¬ cond s l → ¬ Good (m.next s l)) :
    ∀ {s ls}, Inv s ls →
      ((∀ pre, pre <+: ls → Good (m.run s pre)) ↔ m.Along cond s ls) := by
  intro s ls
  induction ls generalizing s with
  | nil =>
    intro h
    refine ⟨fun _ => trivial, fun _ pre hpre => ?_⟩
    rw [List.prefix_nil] at hpre
    subst hpre
    exact hgood s [] h
  | cons l ls ih =>
    intro h
    by_cases hc : cond s l
    · rw [along_cons, ← ih (hkeep s l ls h hc)]
      refine ⟨fun hall => ⟨hc, fun pre hpre => ?_⟩, fun hall pre hpre => ?_⟩
      · exact hall (l :: pre) (List.cons_prefix_cons.mpr ⟨rfl, hpre⟩)
      · cases pre with
        | nil => exact hgood s _ h
        | cons k pre =>
          obtain ⟨rfl, htail⟩ := List.cons_prefix_cons.mp hpre
          exact hall.2 pre htail
    · refine iff_of_false (fun hall => ?_) (fun hall => hc hall.1)
      have hnext := hall [l] (List.cons_prefix_cons.mpr ⟨rfl, List.nil_prefix⟩)
      exact hlose s l ls h hc hnext

/-! ## Reachability -/

/-- Some run from `s` ends in a state with `P`. -/
def CanReach (P : State → Prop) (s : State) : Prop := ∃ ls, m.Valid s ls ∧ P (m.run s ls)

theorem canReach_now {P : State → Prop} {s : State} (h : P s) : m.CanReach P s :=
  ⟨[], trivial, h⟩

/-- What can be reached after a step can be reached. -/
theorem canReach_step {P : State → Prop} {s : State} {l : Label} (hguard : m.guard s l)
    (h : m.CanReach P (m.next s l)) : m.CanReach P s := by
  obtain ⟨ls, hvalid, hend⟩ := h
  exact ⟨l :: ls, ⟨hguard, hvalid⟩, hend⟩

/-- **Backward rule**: when no step of a run makes `P` come within reach,
    what is reached could be reached from the start.  `Can` is what `P`
    needs. -/
theorem can_of_canReach (Inv Can : State → Prop) {P : State → Prop}
    (hstep : ∀ s l, Inv s → m.guard s l → Inv (m.next s l))
    (hback : ∀ s l, Inv s → m.guard s l → Can (m.next s l) → Can s)
    (hnow : ∀ s, Inv s → P s → Can s) : ∀ {s}, Inv s → m.CanReach P s → Can s := by
  rintro s hs ⟨ls, hvalid, hend⟩
  induction ls generalizing s with
  | nil => exact hnow s hs hend
  | cons l ls ih =>
    obtain ⟨hguard, htail⟩ := hvalid
    exact hback s l hs hguard (ih (hstep s l hs hguard) htail hend)

/-! ## Refinement -/

/-- **Simulation rule**: when every step of `m` is one that `a` may take
    as well, and the two stay related, every run of `m` is a run of `a`. -/
theorem simulation_run {Abstract : Type w} (a : Machine Abstract Label)
    (R : State → Abstract → Prop)
    (hstep : ∀ s t l, R s t → m.guard s l → a.guard t l ∧ R (m.next s l) (a.next t l)) :
    ∀ {s t ls}, R s t → m.Valid s ls → a.Valid t ls ∧ R (m.run s ls) (a.run t ls) := by
  intro s t ls
  induction ls generalizing s t with
  | nil => exact fun h _ => ⟨trivial, h⟩
  | cons l ls ih =>
    intro h hrun
    obtain ⟨hguard, hnext⟩ := hstep s t l h hrun.1
    obtain ⟨hvalid, hend⟩ := ih hnext hrun.2
    exact ⟨⟨hguard, hvalid⟩, hend⟩

/-- **Stuttering simulation rule**: when every step of `m` that meets `p`
    is matched by some run of `a` whose steps meet `q`, an empty one
    perhaps, so is every such run of `m`. -/
theorem stuttering_run {Abstract : Type w} {AbstractLabel : Type x}
    (a : Machine Abstract AbstractLabel) (R : State → Abstract → Prop)
    {q : Abstract → AbstractLabel → Prop}
    (hstep : ∀ s t l, R s t → p s l → ∃ ks, a.Along q t ks ∧ R (m.next s l) (a.run t ks)) :
    ∀ {s t ls}, R s t → m.Along p s ls → ∃ ks, a.Along q t ks ∧ R (m.run s ls) (a.run t ks) := by
  intro s t ls
  induction ls generalizing s t with
  | nil => exact fun h _ => ⟨[], trivial, h⟩
  | cons l ls ih =>
    intro h hrun
    obtain ⟨ks, halong, hnext⟩ := hstep s t l h hrun.1
    obtain ⟨ks', halong', hend⟩ := ih hnext hrun.2
    refine ⟨ks ++ ks', (a.along_append t ks ks').mpr ⟨halong, halong'⟩, ?_⟩
    rw [a.run_append]
    exact hend

end Machine
