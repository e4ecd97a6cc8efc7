/-
  File:      Eri/Sql/Environment.lean
  Subject:   A service and the machine that answers its workers, side by side.

  What workers ask for is given by an environment that makes steps of its own. A worker is
  answered only with what the environment gives at that time; what was given once is given on.

  * `Environment`, `Service.Beside` -- the environment, and runs of both;
  * **`Beside.given`** -- every answer of a run is one the environment gives;
  * `beside_of_given` -- a run of the service whose answers are given is a run of both.
-/
import Eri.Sql.Server

namespace Sql

variable {S : Schema} {I : Interface} {C K α : Type}

/-! ## 1. Environments -/

/-- States and steps, and what is given in a state. -/
structure Environment (I : Interface) where
  State : Type
  start : State → Prop
  step : State → State → Prop
  gives : State → (q : I.Ask) → I.Answer q → Prop
  keeps : ∀ {s s' : State} (q : I.Ask) (a : I.Answer q), step s s' → gives s q a → gives s' q a

inductive Environment.Reachable (E : Environment I) : E.State → Prop where
  | start {s : E.State} (h : E.start s) : Reachable E s
  | step {s s' : E.State} (h : Reachable E s) (hs : E.step s s') : Reachable E s'

/-- What holds at the start and is kept holds of every run. -/
theorem Environment.Reachable.invariant {E : Environment I} {Inv : E.State → Prop} {s : E.State}
    (h : E.Reachable s) (hstart : ∀ s, E.start s → Inv s)
    (hstep : ∀ s s', Inv s → E.step s s' → Inv s') : Inv s := by
  induction h with
  | start h => exact hstart _ h
  | step _ hs ih => exact hstep _ _ ih hs

/-- A worker was answered. -/
def Server.Answered (W : Server S I C K α) (q : I.Ask) (a : I.Answer q) : Prop :=
  ∃ w ∈ W.workers, .answered q a ∈ w.record

namespace Service

variable (V : Service S I C K α) (E : Environment I) (db : Db S)

/-- **Runs of a service beside its environment**: each makes its own steps, and a step of the
    service adds only answers that are given. -/
inductive Beside : Server S I C K α → E.State → Prop where
  | start {s : E.State} (h : E.start s) : Beside ⟨.init db, []⟩ s
  | service {W W' : Server S I C K α} {s : E.State} (h : Beside W s) (hs : V.Step W W')
      (hnew : ∀ q a, W'.Answered q a → W.Answered q a ∨ E.gives s q a) : Beside W' s
  | environment {W : Server S I C K α} {s s' : E.State} (h : Beside W s) (hs : E.step s s') :
      Beside W s'

variable {V} {E} {db} {W W' : Server S I C K α} {s : E.State}

/-! ## 2. Runs of both -/

theorem Beside.reachable (h : V.Beside E db W s) : V.Reachable db W := by
  induction h with
  | start _ => exact .init
  | service _ hs _ ih => exact ih.step hs
  | environment _ _ ih => exact ih

theorem Beside.environment_reachable (h : V.Beside E db W s) : E.Reachable s := by
  induction h with
  | start h => exact .start h
  | service _ _ _ ih => exact ih
  | environment _ hs ih => exact ih.step hs

/-- **Every answer is given.** -/
theorem Beside.given (h : V.Beside E db W s) : ∀ q a, W.Answered q a → E.gives s q a := by
  induction h with
  | start _ =>
      rintro q a ⟨w, hw, _⟩
      cases hw
  | service _ _ hnew ih => exact fun q a ha => (hnew q a ha).elim (ih q a) id
  | environment _ hs ih => exact fun q a ha => E.keeps q a hs (ih q a ha)

/-- A worker that goes on keeps its record. -/
theorem answered_set {i : Nat} {t : K} {h es : Record I} {p p' : Progress I α} {q : I.Ask}
    {a : I.Answer q} (hi : W.At i t h p) (hworkers : W'.workers = W.workers.set i ⟨t, h ++ es, p'⟩)
    (ha : W.Answered q a) : W'.Answered q a := by
  obtain ⟨w, hw, hmem⟩ := ha
  obtain ⟨j, hj⟩ := List.mem_iff_getElem?.mp hw
  by_cases hji : i = j
  · subst hji
    obtain rfl : w = ⟨t, h, p⟩ := Option.some.inj (hj.symm.trans hi)
    refine ⟨⟨t, h ++ es, p'⟩, ?_, List.mem_append_left _ hmem⟩
    rw [hworkers]
    exact List.mem_of_getElem? (List.getElem?_set_self (List.getElem?_eq_some_iff.mp hi).1)
  · refine ⟨w, ?_, hmem⟩
    rw [hworkers]
    exact List.mem_of_getElem? ((List.getElem?_set_ne hji).trans hj)

/-- No answer is forgotten. -/
theorem Step.answered (hs : V.Step W W') {q : I.Ask} {a : I.Answer q} (ha : W.Answered q a) :
    W'.Answered q a := by
  cases hs with
  | arrive t =>
      obtain ⟨w, hw, hmem⟩ := ha
      exact ⟨w, List.mem_append_left _ hw, hmem⟩
  | answer i t h q' next a' hi _ => exact answered_set hi rfl ha
  | issue i t h next c M hi _ _ _ => exact answered_set hi rfl ha
  | receive i t h n next c r hi _ => exact answered_set hi rfl ha
  | lose i t h n next c hi _ => exact answered_set hi rfl ha
  | work => exact ha
  | visit => exact ha

/-- **A run whose answers are given**, by an environment that has made its steps before. -/
theorem beside_of_given (hW : V.Reachable db W) (hs : E.Reachable s)
    (hgiven : ∀ q a, W.Answered q a → E.gives s q a) : V.Beside E db W s := by
  have hstart : V.Beside E db ⟨.init db, []⟩ s := by
    clear hgiven
    induction hs with
    | start h => exact .start h
    | step _ hs ih => exact .environment ih hs
  induction hW with
  | init => exact hstart
  | step hW hs ih =>
      exact .service (ih fun q a ha => hgiven q a (hs.answered ha)) hs
        fun q a ha => Or.inr (hgiven q a ha)

end Service

end Sql
