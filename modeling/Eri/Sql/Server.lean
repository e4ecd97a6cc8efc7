/-
  File:      Eri/Sql/Server.lean
  Subject:   Many processes at once over one machine.

  A worker runs the process of its task. It is answered whatever the surroundings may answer,
  starts its calls on the machine and waits for them there; statements of all calls interleave
  as the machine allows, and calls of others come in from outside.

  * `Service` -- what workers run and what they may be answered;
  * `Server`, `Service.Step`, `Service.Reachable` -- any number of workers, in any order;
  * `Sound`, **`sound_reachable`** -- what the processes of all tasks meet holds of every
    worker of a reachable server, and every call of the machine is one of a worker's record or
    came from outside;
  * **`lost_entry`** -- a call whose reply was lost took no effect;
  * `Sound.entry`, `Sound.owner` -- records and the log of the machine tell the same story;
  * `steps_serve`, `Service.serial`, `reachable_serial` -- a task served alone, and tasks one
    after the other, are runs.
-/
import Eri.Sql.Process
import Eri.Sql.Runs

namespace Sql

variable {S : Schema} {I : Interface} {C K α : Type}

/-! ## 1. Servers -/

/-- The calls made so far. -/
def Machine.calls {ρ : Type} (M : Machine S C ρ) : List C := M.threads.map (·.call)

/-- The programs of the calls and their contract, what a call asks for and which ones there
    are; the process of a task, what it may be answered, and the calls that do not come from
    workers. -/
structure Service (S : Schema) (I : Interface) (C K α : Type) : Type 1 where
  prog : C → Tx S I.Reply
  contract : Contract S C
  asks : C → I.Call
  possible : C → Prop
  body : K → Process I α
  answers : K → (q : I.Ask) → I.Answer q → Prop
  outside : C → Prop

inductive Progress (I : Interface) (α : Type) where
  | ready (p : Process I α)
  | waiting (n : Nat) (next : Option I.Reply → Process I α)

structure Worker (I : Interface) (K α : Type) where
  task : K
  record : Record I
  progress : Progress I α

structure Server (S : Schema) (I : Interface) (C K α : Type) : Type 1 where
  store : Machine S C I.Reply
  workers : List (Worker I K α)

/-- Worker `i` has the task `t` and the record `h`, and stands at `p`. -/
def Server.At (W : Server S I C K α) (i : Nat) (t : K) (h : Record I) (p : Progress I α) : Prop :=
  W.workers[i]? = some ⟨t, h, p⟩

namespace Service

variable (V : Service S I C K α)

/-- **One step of the server**: a task arrives; a worker is answered, starts a call, or hears
    from it; the machine executes a statement; a call of somebody else starts. -/
inductive Step : Server S I C K α → Server S I C K α → Prop where
  | arrive (W : Server S I C K α) (t : K) :
      Step W ⟨W.store, W.workers ++ [⟨t, [], .ready (V.body t)⟩]⟩
  | answer (W : Server S I C K α) (i : Nat) (t : K) (h : Record I) (q : I.Ask)
      (next : I.Answer q → Process I α) (a : I.Answer q) (hi : W.At i t h (.ready (.ask q next)))
      (ha : V.answers t q a) :
      Step W ⟨W.store, W.workers.set i ⟨t, h ++ [.answered q a], .ready (next a)⟩⟩
  | issue (W : Server S I C K α) (i : Nat) (t : K) (h : Record I)
      (next : Option I.Reply → Process I α) (c : C) (M : Machine S C I.Reply)
      (hi : W.At i t h (.ready (.call (V.asks c) next))) (hc : V.possible c)
      (hs : Sql.Step V.prog V.contract.compat W.store M) (hM : M.calls = W.store.calls ++ [c]) :
      Step W ⟨M, W.workers.set i ⟨t, h ++ [.called W.store.threads.length (V.asks c)],
        .waiting W.store.threads.length next⟩⟩
  | receive (W : Server S I C K α) (i : Nat) (t : K) (h : Record I) (n : Nat)
      (next : Option I.Reply → Process I α) (c : C) (r : I.Reply)
      (hi : W.At i t h (.waiting n next)) (hr : W.store.At n c (.replied r)) :
      Step W ⟨W.store, W.workers.set i ⟨t, h ++ [.replied n (some r)], .ready (next (some r))⟩⟩
  | lose (W : Server S I C K α) (i : Nat) (t : K) (h : Record I) (n : Nat)
      (next : Option I.Reply → Process I α) (c : C) (hi : W.At i t h (.waiting n next))
      (hr : W.store.At n c .failed) :
      Step W ⟨W.store, W.workers.set i ⟨t, h ++ [.replied n none], .ready (next none)⟩⟩
  | work (W : Server S I C K α) (M : Machine S C I.Reply)
      (hs : Sql.Step V.prog V.contract.compat W.store M) (hM : M.calls = W.store.calls) :
      Step W ⟨M, W.workers⟩
  | visit (W : Server S I C K α) (c : C) (M : Machine S C I.Reply) (hc : V.possible c)
      (hout : V.outside c) (hs : Sql.Step V.prog V.contract.compat W.store M)
      (hM : M.calls = W.store.calls ++ [c]) :
      Step W ⟨M, W.workers⟩

/-- The servers a run from the committed rows `db` goes through. -/
inductive Reachable (db : Db S) : Server S I C K α → Prop where
  | init : Reachable db ⟨.init db, []⟩
  | step {W W' : Server S I C K α} (h : Reachable db W) (hs : V.Step W W') : Reachable db W'

variable {V} {db : Db S} {W W' : Server S I C K α}

/-- The machine of a server makes a step of its own, or stays. -/
theorem Step.store (h : V.Step W W') :
    W'.store = W.store ∨ Sql.Step V.prog V.contract.compat W.store W'.store := by
  cases h with
  | issue i t r next c M hi hc hs hM => exact Or.inr hs
  | work M hs hM => exact Or.inr hs
  | visit c M hc hout hs hM => exact Or.inr hs
  | _ => exact Or.inl rfl

theorem task_set {l : List (Worker I K α)} {i j : Nat} {t : K} {h h' : Record I}
    {p p' : Progress I α} {w : Worker I K α} (hi : l[i]? = some ⟨t, h, p⟩) (hw : l[j]? = some w) :
    ∃ w', (l.set i ⟨t, h', p'⟩)[j]? = some w' ∧ w'.task = w.task := by
  by_cases hij : i = j
  · subst hij
    obtain rfl := Option.some.inj (hi.symm.trans hw)
    exact ⟨_, List.getElem?_set_self (List.getElem?_eq_some_iff.mp hi).1, rfl⟩
  · exact ⟨w, (List.getElem?_set_ne hij).trans hw, rfl⟩

/-- A worker keeps its task. -/
theorem Step.task_kept (hs : V.Step W W') {j : Nat} {w : Worker I K α}
    (hw : W.workers[j]? = some w) : ∃ w', W'.workers[j]? = some w' ∧ w'.task = w.task := by
  cases hs with
  | arrive t =>
      refine ⟨w, ?_, rfl⟩
      rw [List.getElem?_append_left (List.getElem?_eq_some_iff.mp hw).1]
      exact hw
  | answer i t h q next a hi ha => exact task_set hi hw
  | issue i t h next c M hi hc hs hM => exact task_set hi hw
  | receive i t h n next c r hi hr => exact task_set hi hw
  | lose i t h n next c hi hr => exact task_set hi hw
  | work M hs hM => exact ⟨w, hw, rfl⟩
  | visit c M hc hout hs hM => exact ⟨w, hw, rfl⟩

/-- **The machine of a reachable server is reachable.** -/
theorem Reachable.store (h : V.Reachable db W) :
    Sql.Reachable V.prog V.contract.compat db W.store := by
  induction h with
  | init => exact .init
  | step _ hs ih =>
      rcases hs.store with e | hstep
      · rwa [e]
      · exact ih.step hstep

end Service

/-! ## 2. What holds of every worker -/

/-- A record tells what happened: the answers are possible ones, each call was one the task
    may make then and is on the machine, and so are the replies. -/
structure Trail (V : Service S I C K α) (may : K → Record I → I.Call → Prop)
    (M : Machine S C I.Reply) (t : K) (h : Record I) : Prop where
  answered : ∀ q a, .answered q a ∈ h → V.answers t q a
  called : ∀ past n c, past ++ [.called n c] <+: h →
    may t past c ∧ ∃ x, M.calls[n]? = some x ∧ V.asks x = c
  replied : ∀ n r, .replied n (some r) ∈ h → ∃ x, M.At n x (.replied r)

/-- What a worker still does. -/
def Worker.Stands (V : Service S I C K α) (may : K → Record I → I.Call → Prop)
    (ends : K → Record I → α → Prop) (w : Worker I K α) : Prop :=
  match w.progress with
  | .ready p => p.Meets (V.answers w.task) (may w.task) w.record (ends w.task)
  | .waiting n next => ∀ r, (next r).Meets (V.answers w.task) (may w.task)
      (w.record ++ [.replied n r]) (ends w.task)

/-- **The workers of a server and its machine.** -/
structure Sound (V : Service S I C K α) (may : K → Record I → I.Call → Prop)
    (ends : K → Record I → α → Prop) (W : Server S I C K α) : Prop where
  trail : ∀ w ∈ W.workers, Trail V may W.store w.task w.record
  stands : ∀ w ∈ W.workers, w.Stands V may ends
  owned : ∀ n c, W.store.calls[n]? = some c →
    V.outside c ∨ ∃ w ∈ W.workers, .called n (V.asks c) ∈ w.record
  once : ∀ (i j : Nat) (w w' : Worker I K α) n c c', W.workers[i]? = some w →
    W.workers[j]? = some w' → .called n c ∈ w.record → .called n c' ∈ w'.record → i = j

/-- The machine goes on: its calls stay, and what was replied stays so. -/
structure Machine.Grows {ρ : Type} (M M' : Machine S C ρ) : Prop where
  calls : M.calls <+: M'.calls
  replied : ∀ n c r, M.At n c (.replied r) → M'.At n c (.replied r)

theorem Machine.Grows.refl {ρ : Type} (M : Machine S C ρ) : M.Grows M :=
  ⟨List.prefix_refl _, fun _ _ _ h => h⟩

theorem calls_at {ρ : Type} {M : Machine S C ρ} {n : Nat} {c : C} {st : Status S ρ}
    (h : M.At n c st) : M.calls[n]? = some c := by
  unfold Machine.calls
  rw [List.getElem?_map, show M.threads[n]? = _ from h]
  rfl

/-- A call that goes on is the same call. -/
theorem calls_set {ρ : Type} {M M' : Machine S C ρ} {n : Nat} {c : C} {st st' : Status S ρ}
    (hi : M.At n c st) (hM : M'.threads = M.threads.set n ⟨c, st'⟩) : M'.calls = M.calls := by
  obtain ⟨hlt, he⟩ := List.getElem?_eq_some_iff.mp (calls_at hi)
  unfold Machine.calls at hlt he ⊢
  rw [hM, List.map_set, ← he]
  exact List.set_getElem_self hlt

theorem grows_set {ρ : Type} {M M' : Machine S C ρ} {n : Nat} {c : C} {st st' : Status S ρ}
    (hi : M.At n c st) (hst : ∀ r, st ≠ .replied r) (hM : M'.threads = M.threads.set n ⟨c, st'⟩) :
    M.Grows M' := by
  refine ⟨?_, fun m x r hm => ?_⟩
  · have hcalls : M'.calls = M.calls := calls_set hi hM
    exact hcalls ▸ List.prefix_refl _
  · have hne : n ≠ m := by
      intro e
      subst e
      have e := Option.some.inj (hi.symm.trans hm)
      cases e
      exact hst r rfl
    unfold Machine.At
    rw [hM, List.getElem?_set_ne hne]
    exact hm

theorem grows_step {ρ : Type} {prog : C → Tx S ρ} {compat : C → C → Prop}
    {M M' : Machine S C ρ} (h : Sql.Step prog compat M M') : M.Grows M' := by
  cases h with
  | start c hc =>
      refine ⟨?_, fun n x r hn => ?_⟩
      · unfold Machine.calls
        rw [List.map_append]
        exact List.prefix_append ..
      · unfold Machine.At
        rw [List.getElem?_append_left (List.getElem?_eq_some_iff.mp hn).1]
        exact hn
  | stmt i c s k l hi hfree => exact grows_set hi nofun rfl
  | commit i c r l hi hw => exact grows_set hi nofun rfl
  | finish i c r p l hi ho => exact grows_set hi nofun rfl
  | fail i c p l hi ho => exact grows_set hi nofun rfl

theorem Service.Step.grows {V : Service S I C K α} {W W' : Server S I C K α}
    (h : V.Step W W') : W.store.Grows W'.store := by
  rcases h.store with e | hs
  · rw [e]
    exact .refl _
  · exact grows_step hs

section Sound

variable {V : Service S I C K α} {may : K → Record I → I.Call → Prop}
  {ends : K → Record I → α → Prop} {db : Db S} {W W' : Server S I C K α}

theorem Trail.grow {M M' : Machine S C I.Reply} {t : K} {h : Record I}
    (hT : Trail V may M t h) (hM : M.Grows M') : Trail V may M' t h where
  answered := hT.answered
  called past n c hpast := by
    obtain ⟨hmay, x, hx, hasks⟩ := hT.called past n c hpast
    refine ⟨hmay, x, ?_, hasks⟩
    obtain ⟨rest, hrest⟩ := hM.calls
    rw [← hrest, List.getElem?_append_left (List.getElem?_eq_some_iff.mp hx).1]
    exact hx
  replied n r hr := (hT.replied n r hr).imp fun x hx => hM.replied n x r hx

/-- One more happening. -/
theorem Trail.snoc {M : Machine S C I.Reply} {t : K} {h : Record I} {x : Happening I}
    (hT : Trail V may M t h) (hanswered : ∀ q a, x = .answered q a → V.answers t q a)
    (hcalled : ∀ n c, x = .called n c →
      may t h c ∧ ∃ y, M.calls[n]? = some y ∧ V.asks y = c)
    (hreplied : ∀ n r, x = .replied n (some r) → ∃ y, M.At n y (.replied r)) :
    Trail V may M t (h ++ [x]) where
  answered q a hmem := by
    rcases List.mem_append.mp hmem with hmem | hmem
    · exact hT.answered q a hmem
    · exact hanswered q a (List.mem_singleton.mp hmem).symm
  called past n c hpast := by
    rcases List.prefix_concat_iff.mp hpast with e | hpast
    · obtain ⟨rfl, hx⟩ := List.append_inj' e rfl
      exact hcalled n c (List.singleton_inj.mp hx).symm
    · exact hT.called past n c hpast
  replied n r hmem := by
    rcases List.mem_append.mp hmem with hmem | hmem
    · exact hT.replied n r hmem
    · exact hreplied n r (List.mem_singleton.mp hmem).symm

/-- **A worker goes on**: what it adds to its record is true, and it still stands. -/
theorem Sound.move {i : Nat} {t : K} {h : Record I} {p p' : Progress I α} {x : Happening I}
    (hS : Sound V may ends W) (hi : W.At i t h p) (hgrow : W.store.Grows W'.store)
    (hworkers : W'.workers = W.workers.set i ⟨t, h ++ [x], p'⟩)
    (htrail : Trail V may W'.store t (h ++ [x]))
    (hstands : Worker.Stands V may ends ⟨t, h ++ [x], p'⟩)
    (howned : ∀ (n : Nat) c, W'.store.calls[n]? = some c → W.store.calls[n]? = some c ∨
      x = .called n (V.asks c))
    (hnew : ∀ n c, x = .called n c → W.store.calls.length ≤ n) : Sound V may ends W' := by
  have hlt : i < W.workers.length := (List.getElem?_eq_some_iff.mp hi).1
  have hold : ∀ j w, W'.workers[j]? = some w → (j = i ∧ w = ⟨t, h ++ [x], p'⟩) ∨
      (j ≠ i ∧ W.workers[j]? = some w) := by
    intro j w hj
    rw [hworkers] at hj
    by_cases hji : j = i
    · subst hji
      rw [List.getElem?_set_self hlt] at hj
      exact Or.inl ⟨rfl, (Option.some.inj hj).symm⟩
    · rw [List.getElem?_set_ne (Ne.symm hji)] at hj
      exact Or.inr ⟨hji, hj⟩
  have hself : (⟨t, h ++ [x], p'⟩ : Worker I K α) ∈ W'.workers := by
    rw [hworkers]
    exact List.mem_of_getElem? (List.getElem?_set_self hlt)
  -- a record that names a call names one of the machine
  have hbound : ∀ w ∈ W.workers, ∀ n c, .called n c ∈ w.record → n < W.store.calls.length := by
    intro w hw n c hmem
    obtain ⟨past, rest, hsplit⟩ := List.append_of_mem hmem
    obtain ⟨_, y, hy, _⟩ := (hS.trail w hw).called past n c ⟨rest, by rw [hsplit]; simp⟩
    exact (List.getElem?_eq_some_iff.mp hy).1
  refine ⟨fun w hw => ?_, fun w hw => ?_, fun n c hc => ?_, fun j k w w' n c c' hj hk hc hc' => ?_⟩
  · obtain ⟨j, hj⟩ := List.mem_iff_getElem?.mp hw
    rcases hold j w hj with ⟨_, rfl⟩ | ⟨_, hj⟩
    · exact htrail
    · exact (hS.trail w (List.mem_of_getElem? hj)).grow hgrow
  · obtain ⟨j, hj⟩ := List.mem_iff_getElem?.mp hw
    rcases hold j w hj with ⟨_, rfl⟩ | ⟨_, hj⟩
    · exact hstands
    · exact hS.stands w (List.mem_of_getElem? hj)
  · rcases howned n c hc with hc | rfl
    · rcases hS.owned n c hc with hout | ⟨w, hw, hmem⟩
      · exact Or.inl hout
      · obtain ⟨j, hj⟩ := List.mem_iff_getElem?.mp hw
        by_cases hji : j = i
        · subst hji
          obtain rfl := Option.some.inj (hi.symm.trans hj)
          exact Or.inr ⟨_, hself, List.mem_append_left _ hmem⟩
        · refine Or.inr ⟨w, ?_, hmem⟩
          rw [hworkers]
          exact List.mem_of_getElem? ((List.getElem?_set_ne (Ne.symm hji)).trans hj)
    · exact Or.inr ⟨_, hself, List.mem_append_right _ List.mem_cons_self⟩
  · have hmine : ∀ {w₀ n c}, w₀ = (⟨t, h ++ [x], p'⟩ : Worker I K α) → .called n c ∈ w₀.record →
        .called n c ∈ h ∨ W.store.calls.length ≤ n := by
      rintro w₀ n c rfl hmem
      rcases List.mem_append.mp hmem with hmem | hmem
      · exact Or.inl hmem
      · exact Or.inr (hnew n c (List.mem_singleton.mp hmem).symm)
    rcases hold j w hj with ⟨rfl, hwj⟩ | ⟨hji, hj⟩ <;>
      rcases hold k w' hk with ⟨rfl, hwk⟩ | ⟨hki, hk⟩
    · rfl
    · rcases hmine hwj hc with hc | hle
      · exact hS.once j k _ w' n c c' hi hk hc hc'
      · exact absurd (hbound w' (List.mem_of_getElem? hk) n c' hc') (Nat.not_lt.mpr hle)
    · rcases hmine hwk hc' with hc' | hle
      · exact hS.once j k w _ n c c' hj hi hc hc'
      · exact absurd (hbound w (List.mem_of_getElem? hj) n c hc) (Nat.not_lt.mpr hle)
    · exact hS.once j k w w' n c c' hj hk hc hc'

/-- The machine goes on by itself, or with a call from outside. -/
theorem Sound.wait (hS : Sound V may ends W) (hgrow : W.store.Grows W'.store)
    (hworkers : W'.workers = W.workers)
    (howned : ∀ (n : Nat) c, W'.store.calls[n]? = some c →
      W.store.calls[n]? = some c ∨ V.outside c) :
    Sound V may ends W' := by
  refine ⟨fun w hw => ?_, fun w hw => ?_, fun n c hc => ?_, ?_⟩
  · rw [hworkers] at hw
    exact (hS.trail w hw).grow hgrow
  · rw [hworkers] at hw
    exact hS.stands w hw
  · rw [hworkers]
    rcases howned n c hc with hc | hout
    · exact hS.owned n c hc
    · exact Or.inl hout
  · rw [hworkers]
    exact hS.once

/-- A call is one of those that were there, or the new one. -/
theorem calls_snoc {M M' : Machine S C I.Reply} {c x : C} {n : Nat}
    (hM : M'.calls = M.calls ++ [c]) (hx : M'.calls[n]? = some x) :
    M.calls[n]? = some x ∨ (n = M.calls.length ∧ x = c) := by
  rw [hM] at hx
  by_cases hn : n < M.calls.length
  · rw [List.getElem?_append_left hn] at hx
    exact Or.inl hx
  · rw [List.getElem?_append_right (Nat.not_lt.mp hn)] at hx
    obtain ⟨hlt, he⟩ := List.getElem?_eq_some_iff.mp hx
    have hlen : n - M.calls.length < 1 := hlt
    exact Or.inr ⟨by omega, by simpa using he.symm⟩

theorem calls_length (M : Machine S C I.Reply) : M.calls.length = M.threads.length :=
  List.length_map ..

/-- **Every step keeps the records true and the workers on their way.** -/
theorem sound_step (hbody : ∀ t, (V.body t).Meets (V.answers t) (may t) [] (ends t))
    (hS : Sound V may ends W) (hs : V.Step W W') : Sound V may ends W' := by
  have hgrow := hs.grows
  cases hs with
  | arrive t =>
      have hcases : ∀ (j : Nat) (w new : Worker I K α), (W.workers ++ [new])[j]? = some w →
          W.workers[j]? = some w ∨ w = new := by
        intro j w new hj
        rcases List.mem_append.mp (List.mem_of_getElem? hj) with hw | hw
        · by_cases hlt : j < W.workers.length
          · rw [List.getElem?_append_left hlt] at hj
            exact Or.inl hj
          · rw [List.getElem?_append_right (Nat.not_lt.mp hlt)] at hj
            exact Or.inr (List.mem_singleton.mp (List.mem_of_getElem? hj))
        · exact Or.inr (List.mem_singleton.mp hw)
      refine ⟨fun w hw => ?_, fun w hw => ?_, fun n c hc => ?_, ?_⟩
      · rcases List.mem_append.mp hw with hw | hw
        · exact hS.trail w hw
        · obtain rfl := List.mem_singleton.mp hw
          exact ⟨nofun, fun past n c h => by simp at h, nofun⟩
      · rcases List.mem_append.mp hw with hw | hw
        · exact hS.stands w hw
        · obtain rfl := List.mem_singleton.mp hw
          exact hbody t
      · refine (hS.owned n c hc).imp_right ?_
        rintro ⟨w, hw, hmem⟩
        exact ⟨w, List.mem_append_left _ hw, hmem⟩
      · intro j k w w' n c c' hj hk hc hc'
        rcases hcases j w _ hj with hj | rfl
        · rcases hcases k w' _ hk with hk | rfl
          · exact hS.once j k w w' n c c' hj hk hc hc'
          · cases hc'
        · cases hc
  | answer i t h q next a hi ha =>
      have hw := List.mem_of_getElem? hi
      refine hS.move hi hgrow rfl ((hS.trail _ hw).snoc ?_ nofun nofun) ?_
        (fun n c hc => Or.inl hc) nofun
      · intro q' a' e
        cases e
        exact ha
      · exact hS.stands _ hw a ha
  | issue i t h next c M hi hc hstep hM =>
      have hw := List.mem_of_getElem? hi
      have hstands := hS.stands _ hw
      have hlength := calls_length W.store
      refine hS.move hi hgrow rfl (((hS.trail _ hw).grow hgrow).snoc nofun ?_ nofun) ?_ ?_ ?_
      · intro n c' e
        cases e
        refine ⟨hstands.1, c, ?_, rfl⟩
        rw [hM, ← hlength, List.getElem?_append_right (Nat.le_refl _), Nat.sub_self]
        rfl
      · intro r
        have hr := hstands.2 W.store.threads.length r
        rwa [← List.singleton_append, ← List.append_assoc] at hr
      · intro n x hx
        refine (calls_snoc hM hx).imp_right ?_
        rintro ⟨rfl, rfl⟩
        rw [hlength]
      · intro n c' e
        cases e
        exact Nat.le_of_eq hlength
  | receive i t h n next c r hi hr =>
      have hw := List.mem_of_getElem? hi
      refine hS.move hi hgrow rfl ((hS.trail _ hw).snoc nofun nofun ?_) ?_
        (fun n c hc => Or.inl hc) nofun
      · intro m r' e
        cases e
        exact ⟨c, hr⟩
      · exact hS.stands _ hw (some r)
  | lose i t h n next c hi hr =>
      have hw := List.mem_of_getElem? hi
      exact hS.move hi hgrow rfl ((hS.trail _ hw).snoc nofun nofun nofun) (hS.stands _ hw none)
        (fun n c hc => Or.inl hc) nofun
  | work M hstep hM =>
      refine hS.wait hgrow rfl fun n c hc => Or.inl ?_
      rwa [hM] at hc
  | visit c M hc hout hstep hM =>
      refine hS.wait hgrow rfl fun n x hx => (calls_snoc hM hx).imp_right ?_
      rintro ⟨_, rfl⟩
      exact hout

/-- **What the process of every task meets, its workers keep to in every run.** -/
theorem sound_reachable (hbody : ∀ t, (V.body t).Meets (V.answers t) (may t) [] (ends t))
    (h : V.Reachable db W) : Sound V may ends W := by
  induction h with
  | init =>
      exact ⟨nofun, nofun, fun n c hc => (by cases hc), fun i j w w' n c c' hi => (by cases hi)⟩
  | step _ hs ih => exact sound_step hbody ih hs

/-- A worker that has ended. -/
theorem Sound.ended {i : Nat} {t : K} {h : Record I} {a : α} (hS : Sound V may ends W)
    (hi : W.At i t h (.ready (.done a))) : ends t h a :=
  hS.stands _ (List.mem_of_getElem? hi)

/-- A call of a record is one the task might make. -/
theorem Sound.may_called {w : Worker I K α} {n : Nat} {c : I.Call} (hS : Sound V may ends W)
    (hw : w ∈ W.workers) (hc : .called n c ∈ w.record) :
    ∃ past, past ++ [.called n c] <+: w.record ∧ may w.task past c := by
  obtain ⟨past, rest, hsplit⟩ := List.append_of_mem hc
  have hpast : past ++ [.called n c] <+: w.record := ⟨rest, by rw [hsplit]; simp⟩
  exact ⟨past, hpast, ((hS.trail w hw).called past n c hpast).1⟩

/-- **A reply in a record is that of a call that took effect.** -/
theorem Sound.entry {w : Worker I K α} {n : Nat} {c : I.Call} {r : I.Reply}
    (hD : Lawful V.contract V.prog db) (h : V.Reachable db W) (hS : Sound V may ends W)
    (hw : w ∈ W.workers) (hc : .called n c ∈ w.record) (hr : .replied n (some r) ∈ w.record) :
    ∃ e ∈ W.store.log, e.thread = n ∧ V.asks e.call = c ∧ e.reply = r := by
  obtain ⟨past, rest, hsplit⟩ := List.append_of_mem hc
  have hpast : past ++ [.called n c] <+: w.record := ⟨rest, by rw [hsplit]; simp⟩
  obtain ⟨_, y, hy, hasks⟩ := (hS.trail w hw).called past n c hpast
  obtain ⟨x, hx⟩ := (hS.trail w hw).replied n r hr
  obtain rfl := Option.some.inj (hy.symm.trans (calls_at hx))
  obtain ⟨e, he, hthread, hcall, hreply⟩ := (linearized hD h.store).answered n y r hx
  exact ⟨e, he, hthread, hcall ▸ hasks, hreply⟩

/-- **A call that took effect stands in the record of a worker**, or came from outside. -/
theorem Sound.owner {e : Entry S C I.Reply} (hD : Lawful V.contract V.prog db)
    (h : V.Reachable db W) (hS : Sound V may ends W) (he : e ∈ W.store.log) :
    V.outside e.call ∨ ∃ w ∈ W.workers, .called e.thread (V.asks e.call) ∈ w.record := by
  obtain ⟨st, hst, _⟩ := (linearized hD h.store).made e he
  exact hS.owned e.thread e.call (calls_at hst)

/-- Every call on the machine is one that may be made. -/
theorem calls_possible (h : V.Reachable db W) : ∀ c ∈ W.store.calls, V.possible c := by
  induction h with
  | init => exact nofun
  | step _ hs ih =>
      have hsnoc : ∀ {M : Machine S C I.Reply} {c : C} {cs : List C}, V.possible c →
          (∀ x ∈ cs, V.possible x) → M.calls = cs ++ [c] → ∀ x ∈ M.calls, V.possible x := by
        intro M c cs hc hcs hM x hx
        rw [hM] at hx
        rcases List.mem_append.mp hx with hx | hx
        · exact hcs x hx
        · exact List.mem_singleton.mp hx ▸ hc
      cases hs with
      | issue i t r next c M hi hc hstep hM => exact hsnoc hc ih hM
      | visit c M hc hout hstep hM => exact hsnoc hc ih hM
      | work M hstep hM =>
          intro c hc
          exact ih c (hM ▸ hc)
      | _ => exact ih

/-- So is every call that took effect. -/
theorem entry_possible {e : Entry S C I.Reply} (hD : Lawful V.contract V.prog db)
    (h : V.Reachable db W) (he : e ∈ W.store.log) : V.possible e.call := by
  obtain ⟨st, hst, _⟩ := (linearized hD h.store).made e he
  exact calls_possible h e.call (List.mem_of_getElem? (calls_at hst))

end Sound

/-! ## 3. Lost calls -/

section Lost

variable {V : Service S I C K α} {db : Db S} {W W' : Server S I C K α}

/-- A call that failed stays so. -/
theorem failed_step {ρ : Type} {prog : C → Tx S ρ} {compat : C → C → Prop}
    {M M' : Machine S C ρ} {n : Nat} {c : C} (hs : Sql.Step prog compat M M')
    (h : M.At n c .failed) : M'.At n c .failed := by
  have hset : ∀ {i : Nat} {x : C} {st st' : Status S ρ}, M.At i x st → st ≠ .failed →
      (M.threads.set i ⟨x, st'⟩)[n]? = some ⟨c, .failed⟩ := by
    intro i x st st' hi hst
    have hne : i ≠ n := by
      intro e
      subst e
      cases Option.some.inj (hi.symm.trans h)
      exact hst rfl
    rw [List.getElem?_set_ne hne]
    exact h
  cases hs with
  | start x hx => exact (List.getElem?_append_left (List.getElem?_eq_some_iff.mp h).1).trans h
  | stmt i x s k l hi hfree => exact hset hi nofun
  | commit i x r l hi hw => exact hset hi nofun
  | finish i x r p l hi ho => exact hset hi nofun
  | fail i x p l hi ho => exact hset hi nofun

theorem Service.Step.failed (hs : V.Step W W') {n : Nat} {c : C} (h : W.store.At n c .failed) :
    W'.store.At n c .failed := by
  rcases hs.store with e | hstep
  · rwa [e]
  · exact failed_step hstep h

end Lost

/-! ## 4. One after the other -/

/-- What a worker that has ended came to. -/
def Worker.result (w : Worker I K α) : Option α :=
  match w.progress with
  | .ready (.done a) => some a
  | _ => none

theorem Server.at_of_result {W : Server S I C K α} {i : Nat} {a : α}
    (h : (W.workers[i]?).bind Worker.result = some a) :
    ∃ w, W.workers[i]? = some w ∧ W.At i w.task w.record (.ready (.done a)) := by
  obtain ⟨w, hw, hresult⟩ := Option.bind_eq_some_iff.mp h
  obtain ⟨t, record, progress⟩ := w
  refine ⟨_, hw, hw.trans ?_⟩
  unfold Worker.result at hresult
  match progress with
  | .ready (.done b) =>
      cases hresult
      rfl
  | .ready (.ask q next) => cases hresult
  | .ready (.call c next) => cases hresult
  | .waiting n next => cases hresult

namespace Service

variable {V : Service S I C K α} {db : Db S} {W : Server S I C K α}
  {ws : List (Worker I K α)} {M M' : Machine S C I.Reply}

theorem step_calls (h : Sql.Step V.prog V.contract.compat M M') :
    M'.calls = M.calls ∨ ∃ c, M'.calls = M.calls ++ [c] := by
  cases h with
  | start c hc => exact Or.inr ⟨c, List.map_append ..⟩
  | stmt i c s k l hi hfree => exact Or.inl (calls_set hi rfl)
  | commit i c r l hi hw => exact Or.inl (calls_set hi rfl)
  | finish i c r p l hi ho => exact Or.inl (calls_set hi rfl)
  | fail i c p l hi ho => exact Or.inl (calls_set hi rfl)

theorem steps_calls (h : Steps V.prog V.contract.compat M M') : M.calls <+: M'.calls := by
  induction h with
  | refl => exact List.prefix_refl _
  | tail _ hs ih => exact ih.trans (grows_step hs).calls

variable (V)

/-- Any number of steps of the server. -/
abbrev Steps : Server S I C K α → Server S I C K α → Prop := Relation.ReflTransGen V.Step

variable {V}

theorem Reachable.steps {W W' : Server S I C K α} (h : V.Reachable db W) (hs : V.Steps W W') :
    V.Reachable db W' := by
  induction hs with
  | refl => exact h
  | tail _ hstep ih => exact ih.step hstep

/-- Steps of the machine that start no call. -/
theorem steps_works (hs : Sql.Steps V.prog V.contract.compat M M') (hcalls : M'.calls = M.calls) :
    V.Steps ⟨M, ws⟩ ⟨M', ws⟩ := by
  induction hs with
  | refl => exact .refl
  | @tail M₁ M₂ hs hstep ih =>
      have hle := (steps_calls hs).length_le
      have hsame : M₁.calls = M.calls ∧ M₂.calls = M₁.calls := by
        rcases step_calls hstep with e | ⟨c, e⟩
        · exact ⟨e.symm.trans hcalls, e⟩
        · have hlength := congrArg List.length (e.symm.trans hcalls)
          rw [List.length_append, List.length_singleton] at hlength
          omega
      exact (ih hsame.1).tail (.work ⟨M₁, ws⟩ M₂ hstep hsame.2)

/-- **A worker's call, made alone.** -/
theorem steps_issues {i : Nat} {t : K} {r : Record I} {next : Option I.Reply → Process I α}
    {c : C} (hi : Server.At ⟨M, ws⟩ i t r (.ready (.call (V.asks c) next))) (hc : V.possible c)
    (hs : Sql.Steps V.prog V.contract.compat M M') (hcalls : M'.calls = M.calls ++ [c]) :
    V.Steps ⟨M, ws⟩ ⟨M', ws.set i ⟨t, r ++ [.called M.threads.length (V.asks c)],
      .waiting M.threads.length next⟩⟩ := by
  induction hs with
  | refl =>
      have hlength := congrArg List.length hcalls
      rw [List.length_append, List.length_singleton] at hlength
      omega
  | @tail M₁ M₂ hs hstep ih =>
      have hle := (steps_calls hs).length_le
      rcases step_calls hstep with e | ⟨x, e⟩
      · exact (ih (e.symm.trans hcalls)).tail (.work _ M₂ hstep e)
      · have hbefore : M₁.calls = M.calls ∧ x = c := by
          obtain ⟨h₁, h₂⟩ := List.append_inj' (e.symm.trans hcalls) rfl
          exact ⟨h₁, List.singleton_inj.mp h₂⟩
        have hthreads : M₁.threads.length = M.threads.length := by
          rw [← calls_length, ← calls_length, hbefore.1]
        rw [← hthreads]
        exact (steps_works hs hbefore.1).tail
          (.issue ⟨M₁, ws⟩ i t r next c M₂ hi hc hstep (hbefore.2 ▸ e))

variable (V)

/-- A process alone: its answers, and its calls made one after the other. -/
def play (answer : (q : I.Ask) → I.Answer q) (make : Nat → I.Call → C) :
    Process I α → Record I → Machine S C I.Reply → α × Record I × Machine S C I.Reply
  | .done a, h, M => (a, h, M)
  | .ask q next, h, M => play answer make (next (answer q)) (h ++ [.answered q (answer q)]) M
  | .call c next, h, M =>
      let n := M.threads.length
      let r := ((V.prog (make n c)).run M.db).1
      play answer make (next (some r)) (h ++ [.called n c, .replied n (some r)])
        (M.call V.prog (make n c))

/-- One more task, from its arrival to its end. -/
def serve (make : Nat → I.Call → C) (W : Server S I C K α)
    (task : K × ((q : I.Ask) → I.Answer q)) : Server S I C K α :=
  let out := V.play task.2 make (V.body task.1) [] W.store
  ⟨out.2.2, W.workers ++ [⟨task.1, out.2.1, .ready (.done out.1)⟩]⟩

/-- Tasks one after the other. -/
def serial (make : Nat → I.Call → C) (db : Db S)
    (tasks : List (K × ((q : I.Ask) → I.Answer q))) : Server S I C K α :=
  tasks.foldl (V.serve make) ⟨.init db, []⟩

variable {V} {make : Nat → I.Call → C} {answer : (q : I.Ask) → I.Answer q}

theorem play_calls : ∀ (p : Process I α) (h : Record I) (M : Machine S C I.Reply),
    M.calls <+: (V.play answer make p h M).2.2.calls
  | .done a, h, M => List.prefix_refl _
  | .ask q next, h, M => play_calls (next (answer q)) _ M
  | .call c next, h, M => by
      refine List.IsPrefix.trans ?_ (play_calls (next _) _ _)
      unfold Machine.calls Machine.call
      rw [List.map_append]
      exact List.prefix_append ..

/-- The calls of a process alone are made as `make` says. -/
theorem play_made : ∀ (p : Process I α) (h : Record I) (M : Machine S C I.Reply),
    (∀ (n : Nat) x, M.calls[n]? = some x → ∃ c, x = make n c) →
      ∀ (n : Nat) x, (V.play answer make p h M).2.2.calls[n]? = some x → ∃ c, x = make n c
  | .done a, h, M => fun hM => hM
  | .ask q next, h, M => play_made (next (answer q)) _ M
  | .call c next, h, M => fun hM => play_made (next _) _ _ fun n x hx => by
      have hcalls : (M.call V.prog (make M.threads.length c)).calls =
          M.calls ++ [make M.threads.length c] := List.map_append ..
      rcases calls_snoc hcalls hx with hx | ⟨hn, rfl⟩
      · exact hM n x hx
      · rw [calls_length] at hn
        exact ⟨c, by rw [hn]⟩

/-- **A process alone is a run of its worker.** -/
theorem steps_play {t : K} (hmake : ∀ n c, V.asks (make n c) = c ∧ V.possible (make n c))
    (hanswer : ∀ q, V.answers t q (answer q)) :
    ∀ (p : Process I α) (h : Record I) (M : Machine S C I.Reply), M.Idle →
      (V.play answer make p h M).2.2.calls.Pairwise V.contract.compat →
      V.Steps ⟨M, ws ++ [⟨t, h, .ready p⟩]⟩ ⟨(V.play answer make p h M).2.2,
        ws ++ [⟨t, (V.play answer make p h M).2.1,
          .ready (.done (V.play answer make p h M).1)⟩]⟩ ∧
      (V.play answer make p h M).2.2.Idle := by
  have hset : ∀ w w' : Worker I K α, (ws ++ [w]).set ws.length w' = ws ++ [w'] := fun w w' => by
    rw [List.set_append_right _ _ (Nat.le_refl _), Nat.sub_self]
    rfl
  have hat : ∀ (M : Machine S C I.Reply) h p,
      Server.At ⟨M, ws ++ [⟨t, h, p⟩]⟩ ws.length t h p := fun M h p => by
    unfold Server.At
    rw [List.getElem?_append_right (Nat.le_refl _), Nat.sub_self]
    rfl
  intro p
  induction p with
  | done a => exact fun h M hidle _ => ⟨.refl, hidle⟩
  | ask q next ih =>
      intro h M hidle hcompat
      have hstep := Step.answer (V := V) ⟨M, ws ++ [⟨t, h, .ready (.ask q next)⟩]⟩ _ _ _ q next
        (answer q) (hat M h _) (hanswer q)
      rw [hset] at hstep
      obtain ⟨hsteps, hidle⟩ := ih (answer q) _ M hidle hcompat
      exact ⟨.head hstep hsteps, hidle⟩
  | call c next ih =>
      intro h M hidle hcompat
      have hcalls : (M.call V.prog (make M.threads.length c)).calls =
          M.calls ++ [make M.threads.length c] := List.map_append ..
      have hapart : ∀ th ∈ M.threads, V.contract.compat th.call (make M.threads.length c) := by
        intro th hth
        obtain ⟨rest, hrest⟩ := play_calls (V := V) (next _) _ (M.call V.prog (make _ c))
        have hall : ((M.calls ++ [make M.threads.length c]) ++ rest).Pairwise
            V.contract.compat := by
          rw [← hcalls, hrest]
          exact hcompat
        exact (List.pairwise_append.mp (List.pairwise_append.mp hall).1).2.2 _
          (List.mem_map_of_mem hth) _ (List.mem_singleton_self _)
      have hsteps : Sql.Steps V.prog V.contract.compat M
          (M.call V.prog (make M.threads.length c)) :=
        Relation.ReflTransGen.mono (fun _ _ h => h.1) _ _ (steps_call hidle hapart)
      obtain ⟨hasks, hpossible⟩ := hmake M.threads.length c
      have hready : Server.At ⟨M, ws ++ [⟨t, h, .ready (.call c next)⟩]⟩ ws.length t h
          (.ready (.call (V.asks (make M.threads.length c)) next)) := by
        rw [hasks]
        exact hat M h (.ready (.call c next))
      have hissued := steps_issues hready hpossible hsteps hcalls
      rw [hset, hasks] at hissued
      have hreplied : (M.call V.prog (make M.threads.length c)).At M.threads.length
          (make M.threads.length c)
          (.replied ((V.prog (make M.threads.length c)).run M.db).1) := by
        unfold Machine.At Machine.call
        rw [List.getElem?_append_right (Nat.le_refl _), Nat.sub_self]
        rfl
      have hreceived := hissued.tail (.receive _ _ _ _ _ next _ _ (hat _ _ _) hreplied)
      rw [hset, List.append_assoc] at hreceived
      obtain ⟨hrest, hidle⟩ := ih _ _ _ (idle_call hidle) hcompat
      exact ⟨hreceived.trans hrest, hidle⟩

/-- **A task served alone.** -/
theorem steps_serve {task : K × ((q : I.Ask) → I.Answer q)} {W : Server S I C K α}
    (hmake : ∀ n c, V.asks (make n c) = c ∧ V.possible (make n c))
    (hanswer : ∀ q, V.answers task.1 q (task.2 q)) (hidle : W.store.Idle)
    (hcompat : (V.serve make W task).store.calls.Pairwise V.contract.compat) :
    V.Steps ⟨W.store, W.workers ++ [⟨task.1, [], .ready (V.body task.1)⟩]⟩
      (V.serve make W task) ∧ (V.serve make W task).store.Idle :=
  steps_play hmake hanswer _ _ _ hidle hcompat

theorem serial_snoc (tasks : List (K × ((q : I.Ask) → I.Answer q)))
    (task : K × ((q : I.Ask) → I.Answer q)) :
    V.serial make db (tasks ++ [task]) = V.serve make (V.serial make db tasks) task :=
  List.foldl_concat ..

theorem serial_made (tasks : List (K × ((q : I.Ask) → I.Answer q))) :
    ∀ (n : Nat) x, (V.serial make db tasks).store.calls[n]? = some x → ∃ c, x = make n c := by
  induction tasks using List.reverseRecOn with
  | nil => exact fun n x hx => by cases hx
  | append_singleton tasks task ih =>
      rw [serial_snoc]
      exact play_made _ _ _ ih

/-- Calls made by their number go together if the draws of different numbers do. -/
theorem serial_pairwise {tasks : List (K × ((q : I.Ask) → I.Answer q))}
    (hapart : ∀ n m c c', n < m → m < (V.serial make db tasks).store.calls.length →
      V.contract.compat (make n c) (make m c')) :
    (V.serial make db tasks).store.calls.Pairwise V.contract.compat := by
  refine List.pairwise_iff_getElem.mpr fun n m hn hm hlt => ?_
  obtain ⟨c, hc⟩ := serial_made tasks n _ (List.getElem?_eq_getElem hn)
  obtain ⟨c', hc'⟩ := serial_made tasks m _ (List.getElem?_eq_getElem hm)
  rw [hc, hc']
  exact hapart n m c c' hlt hm

theorem serial_tasks (tasks : List (K × ((q : I.Ask) → I.Answer q))) :
    (V.serial make db tasks).workers.map Worker.task = tasks.map Prod.fst := by
  induction tasks using List.reverseRecOn with
  | nil => rfl
  | append_singleton tasks task ih =>
      rw [serial_snoc, List.map_append, ← ih]
      exact List.map_append ..

/-- **Tasks one after the other are a run.** -/
theorem reachable_serial (hmake : ∀ n c, V.asks (make n c) = c ∧ V.possible (make n c))
    (tasks : List (K × ((q : I.Ask) → I.Answer q)))
    (hanswer : ∀ task ∈ tasks, ∀ q, V.answers task.1 q (task.2 q))
    (hcompat : (V.serial make db tasks).store.calls.Pairwise V.contract.compat) :
    V.Reachable db (V.serial make db tasks) ∧ (V.serial make db tasks).store.Idle := by
  induction tasks using List.reverseRecOn with
  | nil => exact ⟨.init, fun i c p l h => by cases h⟩
  | append_singleton tasks task ih =>
      rw [serial_snoc] at hcompat ⊢
      have hprefix : (V.serial make db tasks).store.calls <+:
          (V.serve make (V.serial make db tasks) task).store.calls := play_calls _ _ _
      obtain ⟨hreach, hidle⟩ := ih (fun x hx => hanswer x (List.mem_append_left _ hx))
        (hcompat.sublist hprefix.sublist)
      obtain ⟨hsteps, hidle⟩ := steps_serve hmake
        (hanswer task (List.mem_append_right _ List.mem_cons_self)) hidle hcompat
      exact ⟨(hreach.step (.arrive _ task.1)).steps hsteps, hidle⟩

end Service

end Sql
