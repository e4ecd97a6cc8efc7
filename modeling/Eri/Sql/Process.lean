/-
  File:      Eri/Sql/Process.lean
  Subject:   Processes: programs that make calls of a service and wait for their answers.

  A process asks its surroundings for values (a clock reading, another service's answer) and
  makes calls; what comes back is up to the surroundings. Its record lists what it asked and
  was answered so far.

  * `Process I α` -- the monad; a call is answered by a reply or, when the service failed, by
    none;
  * `Process.Meets` -- what a process does whatever it is answered: every call it makes is one
    it may make after the record so far, and where it ends it meets a postcondition of its
    record and its value;
  * `meets_bind`, `meets_bindE`, `Meets.mono` -- one rule for each way processes are put
    together.
-/
import Mathlib.Data.List.Basic

namespace Sql

/-! ## 1. Processes -/

/-- What processes ask for, what they are answered, and the calls they make. -/
structure Interface where
  Ask : Type
  Answer : Ask → Type
  Call : Type
  Reply : Type

/-- A process that returns an `α`. -/
inductive Process (I : Interface) (α : Type) : Type where
  | done (a : α)
  | ask (q : I.Ask) (next : I.Answer q → Process I α)
  | call (c : I.Call) (next : Option I.Reply → Process I α)

/-- What happened to a process: it was answered, it made the call with a number, the call
    was answered. -/
inductive Happening (I : Interface) : Type where
  | answered (q : I.Ask) (a : I.Answer q)
  | called (n : Nat) (c : I.Call)
  | replied (n : Nat) (r : Option I.Reply)

/-- The record of a process, the latest last. -/
abbrev Record (I : Interface) : Type := List (Happening I)

namespace Process

variable {I : Interface} {α β : Type}

def bind : Process I α → (α → Process I β) → Process I β
  | .done a, f => f a
  | .ask q next, f => .ask q fun a => (next a).bind f
  | .call c next, f => .call c fun r => (next r).bind f

instance : Monad (Process I) where
  pure := .done
  bind := bind

/-- Ask for a value. -/
def request (q : I.Ask) : Process I (I.Answer q) := .ask q .done

/-- Make a call and wait for its reply. -/
def perform (c : I.Call) : Process I (Option I.Reply) := .call c .done

/-! ## 2. What a process does -/

/-- Whatever it is answered within `ok`, the process makes only calls it `may` make, and ends
    in `Q`. -/
def Meets (ok : (q : I.Ask) → I.Answer q → Prop) (may : Record I → I.Call → Prop) :
    Process I α → Record I → (Record I → α → Prop) → Prop
  | .done a, h, Q => Q h a
  | .ask q next, h, Q => ∀ a, ok q a → (next a).Meets ok may (h ++ [.answered q a]) Q
  | .call c next, h, Q =>
      may h c ∧ ∀ n r, (next r).Meets ok may (h ++ [.called n c, .replied n r]) Q

variable {ok : (q : I.Ask) → I.Answer q → Prop} {may : Record I → I.Call → Prop}
  {h : Record I} {Q : Record I → β → Prop}

/-- **One process after another.** -/
theorem meets_bind {p : Process I α} {f : α → Process I β} :
    (p >>= f).Meets ok may h Q ↔
      p.Meets ok may h fun h a => (f a).Meets ok may h Q := by
  show (p.bind f).Meets ok may h Q ↔ _
  induction p generalizing h with
  | done a => exact Iff.rfl
  | ask q next ih => exact forall_congr' fun a => imp_congr_right fun _ => ih a
  | call c next ih =>
      exact and_congr_right fun _ => forall_congr' fun n => forall_congr' fun r => ih r

theorem meets_map {p : Process I α} {f : α → β} :
    (f <$> p).Meets ok may h Q ↔ p.Meets ok may h fun h a => Q h (f a) :=
  meets_bind (p := p) (f := fun a => .done (f a))

theorem meets_request {q : I.Ask} {Q : Record I → I.Answer q → Prop} :
    (request q).Meets ok may h Q ↔ ∀ a, ok q a → Q (h ++ [.answered q a]) a := Iff.rfl

theorem meets_perform {c : I.Call} {Q : Record I → Option I.Reply → Prop} :
    (perform c).Meets ok may h Q ↔
      may h c ∧ ∀ n r, Q (h ++ [.called n c, .replied n r]) r := Iff.rfl

/-- **What a process meets, it meets with weaker demands**, and the record only grows. -/
theorem Meets.mono {Q' : Record I → β → Prop} {p : Process I β} (hp : p.Meets ok may h Q)
    (hQ : ∀ h' a, h <+: h' → Q h' a → Q' h' a) : p.Meets ok may h Q' := by
  induction p generalizing h with
  | done a => exact hQ h a (List.prefix_refl h) hp
  | ask q next ih =>
      exact fun a ha => ih a (hp a ha) fun h' b hh =>
        hQ h' b ((List.prefix_append h _).trans hh)
  | call c next ih =>
      exact ⟨hp.1, fun n r => ih r (hp.2 n r) fun h' b hh =>
        hQ h' b ((List.prefix_append h _).trans hh)⟩

/-- The same, where more calls may be made. -/
theorem Meets.allow {may' : Record I → I.Call → Prop} {p : Process I β} (hp : p.Meets ok may h Q)
    (hmay : ∀ h c, may h c → may' h c) : p.Meets ok may' h Q := by
  induction p generalizing h with
  | done a => exact hp
  | ask q next ih => exact fun a ha => ih a (hp a ha)
  | call c next ih => exact ⟨hmay h c hp.1, fun n r => ih r (hp.2 n r)⟩

/-! ## 3. Processes that can fail -/

section Except

variable {ε : Type}

/-- The value of a local check, or its error. -/
def fromExcept (x : Except ε α) : ExceptT ε (Process I) α := ExceptT.mk (.done x)

variable {Q : Record I → Except ε β → Prop}

/-- **One process after another that can fail.** -/
theorem meets_bindE {p : ExceptT ε (Process I) α} {f : α → ExceptT ε (Process I) β} :
    Meets ok may (p >>= f).run h Q ↔
      Meets ok may p.run h fun h r =>
        match r with
        | .ok a => Meets ok may (f a).run h Q
        | .error e => Q h (.error e) := by
  show Meets ok may (p.run >>= ExceptT.bindCont f) h Q ↔ _
  rw [meets_bind]
  have hcont : ∀ h r, Meets ok may (ExceptT.bindCont f r) h Q ↔
      match r with
      | .ok a => Meets ok may (f a).run h Q
      | .error e => Q h (.error e) := by
    intro h r
    cases r with
    | ok a => exact Iff.rfl
    | error e => exact Iff.rfl
  exact ⟨fun hp => hp.mono fun h' r _ hr => (hcont h' r).mp hr,
    fun hp => hp.mono fun h' r _ hr => (hcont h' r).mpr hr⟩

theorem meets_fromExcept {x : Except ε β} :
    Meets ok may (fromExcept x : ExceptT ε (Process I) β).run h Q ↔ Q h x := Iff.rfl

theorem meets_liftE {p : Process I β} :
    Meets ok may (liftM p : ExceptT ε (Process I) β).run h Q ↔
      p.Meets ok may h fun h a => Q h (.ok a) :=
  meets_map (p := p) (f := Except.ok)

end Except

end Process

end Sql
