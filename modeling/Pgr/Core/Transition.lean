import Mathlib

/-!
# Runs of a step function

A concurrent program is a partial step function on its state: a label names who
moves and what it sees, and `none` means that the move is not enabled.  `Reaches
step cond start` is the set of states that runs from `start` can reach when each
of their steps meets `cond` in the state where it is taken.
-/

namespace Pgr.Transition

variable {S L : Type*}

/-- One enabled step that meets the condition. -/
def StepsTo (step : S → L → Option S) (cond : S → L → Prop) (s s' : S) : Prop :=
  ∃ l, cond s l ∧ step s l = some s'

def Reaches (step : S → L → Option S) (cond : S → L → Prop) : S → S → Prop :=
  Relation.ReflTransGen (StepsTo step cond)

/-- Reachability by arbitrary steps. -/
def Reachable (step : S → L → Option S) : S → S → Prop :=
  Reaches step fun _ _ => True

/-- The run of a list of labels. -/
def run (step : S → L → Option S) : S → List L → Option S
  | s, [] => some s
  | s, l :: ls => (step s l).bind fun s' => run step s' ls

/-- The run of a list of labels, as long as each step meets the condition. -/
def runWhile (step : S → L → Option S) (cond : S → L → Prop) [∀ s l, Decidable (cond s l)] :
    S → List L → Option S
  | s, [] => some s
  | s, l :: ls =>
      if cond s l then (step s l).bind fun s' => runWhile step cond s' ls else none

/-- Every label of the list is enabled and leads to a state with the property. -/
def HoldsAlong (step : S → L → Option S) (P : S → Prop) : S → List L → Prop
  | _, [] => True
  | s, l :: ls => ∃ s', step s l = some s' ∧ P s' ∧ HoldsAlong step P s' ls

/-- Every label of the list meets the condition in the state where it is taken. -/
def MeetsAlong (step : S → L → Option S) (cond : S → L → Prop) : S → List L → Prop
  | _, [] => True
  | s, l :: ls => cond s l ∧ ∀ s', step s l = some s' → MeetsAlong step cond s' ls

variable {step : S → L → Option S} {cond : S → L → Prop} {start s s' : S}

theorem Reaches.tail {l : L} (hreaches : Reaches step cond start s) (hcond : cond s l)
    (hstep : step s l = some s') : Reaches step cond start s' :=
  Relation.ReflTransGen.tail hreaches ⟨l, hcond, hstep⟩

/-- A run that meets a condition meets every weaker one. -/
theorem Reaches.mono {weaker : S → L → Prop} (hreaches : Reaches step cond start s)
    (hweaker : ∀ s l, cond s l → weaker s l) : Reaches step weaker start s := by
  induction hreaches with
  | refl => exact Relation.ReflTransGen.refl
  | tail _ hlast ih =>
      obtain ⟨l, hcond, hl⟩ := hlast
      exact Relation.ReflTransGen.tail ih ⟨l, hweaker _ l hcond, hl⟩

/-- What holds at the start and is kept by every step that meets the condition
holds in every state reached. -/
theorem Reaches.invariant {Inv : S → Prop} (hreaches : Reaches step cond start s)
    (hstart : Inv start)
    (hstep : ∀ s l s', Inv s → cond s l → step s l = some s' → Inv s') : Inv s := by
  induction hreaches with
  | refl => exact hstart
  | tail _ hlast ih =>
      obtain ⟨l, hcond, hl⟩ := hlast
      exact hstep _ l _ ih hcond hl

theorem Reachable.invariant {Inv : S → Prop} (hreachable : Reachable step start s)
    (hstart : Inv start) (hstep : ∀ s l s', Inv s → step s l = some s' → Inv s') : Inv s :=
  Reaches.invariant hreachable hstart fun s l s' hinv _ hl => hstep s l s' hinv hl

theorem run_append {ls ls' : List L} :
    run step start (ls ++ ls') = (run step start ls).bind fun s => run step s ls' := by
  induction ls generalizing start with
  | nil => rfl
  | cons l ls ih =>
      simp only [List.cons_append, run, Option.bind_assoc]
      congr 1
      funext middle
      exact ih

theorem reachable_of_run {ls : List L} (hrun : run step start ls = some s) :
    Reachable step start s := by
  induction ls generalizing start with
  | nil =>
      cases hrun
      exact Relation.ReflTransGen.refl
  | cons l ls ih =>
      obtain ⟨middle, hl, hrest⟩ := Option.bind_eq_some_iff.mp hrun
      exact Relation.ReflTransGen.head ⟨l, trivial, hl⟩ (ih hrest)

/-- What relates the start to no moves, and is kept when a step adds its label, relates
every state reached to the run that has reached it. -/
theorem run_invariant {Inv : S → List L → Prop} {ls : List L}
    (hrun : run step start ls = some s) (hstart : Inv start [])
    (hstep : ∀ s ls l s', Inv s ls → step s l = some s' → Inv s' (ls ++ [l])) : Inv s ls := by
  induction ls using List.reverseRecOn generalizing s with
  | nil =>
      cases hrun
      exact hstart
  | append_singleton ls l ih =>
      rw [run_append] at hrun
      obtain ⟨middle, hmiddle, hlast⟩ := Option.bind_eq_some_iff.mp hrun
      obtain ⟨last, hl, hnil⟩ := Option.bind_eq_some_iff.mp hlast
      cases hnil
      exact hstep middle ls l s (ih hmiddle) hl

theorem reaches_of_runWhile [∀ s l, Decidable (cond s l)] {ls : List L}
    (hrun : runWhile step cond start ls = some s) : Reaches step cond start s := by
  induction ls generalizing start with
  | nil =>
      cases hrun
      exact Relation.ReflTransGen.refl
  | cons l ls ih =>
      rw [runWhile] at hrun
      split_ifs at hrun with hcond
      obtain ⟨middle, hl, hrest⟩ := Option.bind_eq_some_iff.mp hrun
      exact Relation.ReflTransGen.head ⟨l, hcond, hl⟩ (ih hrest)

/-- A condition that decides for one step whether the property is kept decides it for
whole runs. -/
theorem holdsAlong_iff {P : S → Prop} (hstart : P start)
    (hstep : ∀ s l, P s → ((∃ s', step s l = some s' ∧ P s') ↔ cond s l)) (ls : List L) :
    HoldsAlong step P start ls ↔ MeetsAlong step cond start ls := by
  induction ls generalizing start with
  | nil => exact Iff.rfl
  | cons l ls ih =>
      constructor
      · rintro ⟨middle, hl, hmiddle, hrest⟩
        refine ⟨(hstep start l hstart).mp ⟨middle, hl, hmiddle⟩, ?_⟩
        intro s' hl'
        cases hl.symm.trans hl'
        exact (ih hmiddle).mp hrest
      · rintro ⟨hcond, hrest⟩
        obtain ⟨middle, hl, hmiddle⟩ := (hstep start l hstart).mpr hcond
        exact ⟨middle, hl, hmiddle, (ih hmiddle).mpr (hrest middle hl)⟩

/-- A program without a choice, which stops from every state when each of its steps
lowers a measure, has a state to stop in. -/
theorem exists_stopped {next : S → Option S}
    (hwf : WellFounded fun s' s : S => next s = some s') (s : S) :
    ∃ last, Relation.ReflTransGen (fun s s' => next s = some s') s last ∧ next last = none := by
  induction s using hwf.induction with
  | _ s ih =>
      cases hnext : next s with
      | none => exact ⟨s, Relation.ReflTransGen.refl, hnext⟩
      | some s' =>
          obtain ⟨last, hrun, hlast⟩ := ih s' hnext
          exact ⟨last, Relation.ReflTransGen.head hnext hrun, hlast⟩

end Pgr.Transition
