/-
  File:      Eri/Browsing.lean
  Subject:   One browser at the server (src/web.rs): its cookies, its requests in flight, and the
             transactions it can complete.

  * `Browsing`, `Step`, `Reached` -- the server, the jar and the requests that wait, in any order;
  * `response_plain`, `Kept` -- **what a jar holds was given by the server**;
  * `Paced`, `Completable`, `transactions_completable` -- **the limit of `authorize` and the one
    of `callback` agree as long as the starts are paced**;
  * `tabs_overflow` -- five tabs at once.
-/
import Eri.Jar
import Eri.Returns
import Eri.Challenges

namespace Eri

namespace Web

/-! ## 1. Runs of a browser -/

def HttpRequest.headers : HttpRequest → HeaderMap
  | .authorizeGet _ headers | .authorizePost headers _ | .googleStart headers _
  | .callback _ headers | .consentGet _ headers | .consentPost headers _ => headers

/-- A request in flight: its worker at the server, and the cookies it was sent with. -/
structure Sent where
  worker : Nat
  request : HttpRequest
  jar : Jar

/-- The server, the cookies of the browser, and its requests in flight. -/
structure Browsing where
  server : Server
  jar : Jar
  waiting : List Sent

namespace Browsing

/-- The requests that wait for other workers. -/
def others (b : Browsing) (worker : Nat) : List Sent :=
  b.waiting.filter fun s => s.worker != worker

/-- **One step**: the browser sends a request, if it may, with the cookies it has then; the server
    goes on, for whomever; a response arrives, or never does; a cookie expires. -/
inductive Step (C : HttpCrates) (p : Provider) (admits : Browsing → HttpRequest → Prop) :
    Browsing → Browsing → Prop where
  | send (b : Browsing) (req : HttpRequest) (hc : Carries req.headers b.jar)
      (hmay : admits b req) :
      Step C p admits b ⟨⟨b.server.store,
        b.server.workers ++ [⟨(p, req), [], .ready (handle C p req)⟩]⟩, b.jar,
        b.waiting ++ [⟨b.server.workers.length, req, b.jar⟩]⟩
  | serve (b : Browsing) (W : Server) (hs : (service C).Step b.server W) :
      Step C p admits b ⟨W, b.jar, b.waiting⟩
  | receive (b : Browsing) (s : Sent) (task : Provider × HttpRequest) (record : Record)
      (r : Response) (hw : s ∈ b.waiting)
      (hi : b.server.At s.worker task record (.ready (.done r))) :
      Step C p admits b ⟨b.server, b.jar.receive r, b.others s.worker⟩
  | lose (b : Browsing) (worker : Nat) : Step C p admits b ⟨b.server, b.jar, b.others worker⟩
  | expire (b : Browsing) (name : String) :
      Step C p admits b ⟨b.server, b.jar.drop name, b.waiting⟩

/-- The states of a browser that starts without cookies at the migrated, empty database. -/
inductive Reached (C : HttpCrates) (p : Provider) (admits : Browsing → HttpRequest → Prop) :
    Browsing → Prop where
  | init : Reached C p admits ⟨⟨.init Sql.Db.empty, []⟩, .empty, []⟩
  | step {b b' : Browsing} (h : Reached C p admits b) (hs : Step C p admits b b') :
      Reached C p admits b'

section Runs

variable {C : HttpCrates} {p : Provider} {admits admits' : Browsing → HttpRequest → Prop}
  {b b' : Browsing}

/-- The server goes on. -/
theorem Reached.serves {W : Server} (h : Reached C p admits b)
    (hs : (service C).Steps b.server W) : Reached C p admits ⟨W, b.jar, b.waiting⟩ := by
  induction hs with
  | refl => exact h
  | tail _ hstep ih => exact ih.step (.serve _ _ hstep)

theorem Step.mono (hle : ∀ b req, admits b req → admits' b req) (hs : Step C p admits b b') :
    Step C p admits' b b' := by
  cases hs with
  | send req hc hmay => exact .send b req hc (hle b req hmay)
  | serve W hs => exact .serve b W hs
  | receive s task record r hw hi => exact .receive b s task record r hw hi
  | lose worker => exact .lose b worker
  | expire name => exact .expire b name

/-- A browser that sends less is one that sends more. -/
theorem Reached.mono (hle : ∀ b req, admits b req → admits' b req) (h : Reached C p admits b) :
    Reached C p admits' b := by
  induction h with
  | init => exact .init
  | step _ hs ih => exact ih.step (hs.mono hle)

end Runs

end Browsing

/-! ## 2. What a jar holds -/

theorem plain_of_isSecret {s : String} (h : IsSecret s) :
    (∀ c ∈ s.toList, PlainChar c) ∧ s.toList.length ≤ 512 := by
  have hsymbol : ∀ n : Fin 64, PlainChar (Base64Url.symbol n) := by decide
  obtain ⟨bytes, hs⟩ := h
  constructor
  · intro c hc
    rw [hs] at hc
    obtain ⟨n, hn, rfl⟩ := Base64Url.mem_encode hc
    exact hsymbol ⟨n, hn⟩
  · rw [hs, Base64Url.length_encode, Vector.length_toList]
    decide

/-- The secret that a reply hands out for a cookie. -/
def cookieSecret : Reply → Option String
  | .begun (.ok start) => some start.browserBinding
  | .completed (.ok completion) => some completion.session.raw
  | _ => none

theorem cookieSecret_run {P : Platform} {c : Request} {r : Reply} {db db' : Db} {v : String}
    (h : (program P c).run db = (r, db')) (hr : cookieSecret r = some v) :
    ∃ k, v = c.tape.secret k := by
  obtain ⟨call, t⟩ := c
  cases call with
  | beginGoogle pending state nonce allow =>
      obtain ⟨x, hx, rfl⟩ := Sql.run_of_map h
      rcases beginGoogle_run hx with ⟨⟨e, rfl⟩, _⟩ | ⟨rfl, _⟩
      · cases hr
      · cases hr
        exact ⟨1, rfl⟩
  | completeCallback claim identity lifetime registry =>
      obtain ⟨x, hx, rfl⟩ := Sql.run_of_map h
      rcases completeCallback_run hx with
        ⟨⟨e, rfl⟩, _⟩ | ⟨row, _, _, ⟨_, rfl, _⟩ | ⟨n, _, _, rfl, _⟩⟩
      · cases hr
      · cases hr
      · cases hr
        exact ⟨0, rfl⟩
  | _ =>
      obtain ⟨x, hx, rfl⟩ := Sql.run_of_map h
      cases hr

section Kept

variable {C : HttpCrates} {p : Provider} {admits : Browsing → HttpRequest → Prop} {W : Server}

/-- In a run they are secrets. -/
theorem cookieSecret_drawn (hW : Online C W) {e : Entry} (he : e ∈ W.store.log) {v : String}
    (hr : cookieSecret e.reply = some v) : IsSecret v := by
  obtain ⟨k, rfl⟩ :=
    cookieSecret_run (Sql.reachable_entry (lawful C.toPlatform) hW.reachable he).2 hr
  exact Sql.entry_possible (lawful C.toPlatform) hW he k

/-- **A response sets plain cookies**: their names are fixed or a transaction's, and their values
    are secrets. -/
theorem response_plain (hW : Online C W) {i : Nat} {task : Provider × HttpRequest}
    {record : Record} {r : Response} (hi : W.At i task record (.ready (.done r))) :
    ∀ c ∈ r.setCookies, c.maxAge ≠ some 0 → PlainCookie (c.name, c.value) := by
  have hw := List.mem_of_getElem? hi
  intro c hc hage
  cases ((keeping hW).ended hi).cookies c hc with
  | clear hclear =>
      rw [hclear] at hage
      exact absurd rfl hage
  | session hcall hreply hsession =>
      obtain ⟨e, he, _, _, hr⟩ := (keeping hW).entry (lawful C.toPlatform) hW hw hcall hreply
      obtain ⟨hvalue, hshort⟩ := plain_of_isSecret (cookieSecret_drawn hW he (by rw [hr]; rfl))
      rw [hsession]
      exact ⟨plain_sessionCookie, hvalue, hshort⟩
  | transaction hreq hcount hcall hreply htransaction =>
      obtain ⟨e, he, _, _, hr⟩ := (keeping hW).entry (lawful C.toPlatform) hW hw hcall hreply
      obtain ⟨hvalue, hshort⟩ := plain_of_isSecret (cookieSecret_drawn hW he (by rw [hr]; rfl))
      rw [htransaction]
      exact ⟨plain_txCookie _, hvalue, hshort⟩

/-- The request of a worker, sent with the cookies of a jar. -/
structure Sent.By (p : Provider) (W : Server) (s : Sent) : Prop where
  worker : ∃ w, W.workers[s.worker]? = some w ∧ w.task = (p, s.request)
  carries : Carries s.request.headers s.jar
  plain : ∀ e ∈ s.jar.cookies, PlainCookie e

/-- What holds of every browser. -/
structure Kept (C : HttpCrates) (p : Provider) (b : Browsing) : Prop where
  online : Online C b.server
  plain : ∀ e ∈ b.jar.cookies, PlainCookie e
  sent : ∀ s ∈ b.waiting, s.By p b.server

/-- A worker keeps its request. -/
theorem Sent.By.later {W' : Server} {s : Sent} (h : s.By p W) (hs : (service C).Step W W') :
    s.By p W' := by
  obtain ⟨⟨w, hw, htask⟩, hcarries, hplain⟩ := h
  obtain ⟨w', hw', hsame⟩ := hs.task_kept hw
  exact ⟨⟨w', hw', hsame.trans htask⟩, hcarries, hplain⟩

theorem kept_step {b b' : Browsing} (h : Kept C p b) (hs : Browsing.Step C p admits b b') :
    Kept C p b' := by
  have hothers : ∀ worker, ∀ s ∈ b.others worker, s.By p b.server :=
    fun worker s hs => h.sent s (List.mem_filter.mp hs).1
  cases hs with
  | send req hc hmay =>
      have harrive : (service C).Step b.server _ := .arrive _ (p, req)
      refine ⟨h.online.step harrive, h.plain, fun s hs => ?_⟩
      rcases List.mem_append.mp hs with hs | hs
      · exact (h.sent s hs).later harrive
      · rw [List.mem_singleton.mp hs]
        exact ⟨⟨_, List.getElem?_concat_length, rfl⟩, hc, h.plain⟩
  | serve W hs => exact ⟨h.online.step hs, h.plain, fun s hw => (h.sent s hw).later hs⟩
  | receive s task record r hw hi =>
      refine ⟨h.online, fun e he => ?_, hothers s.worker⟩
      rcases mem_receive he with he | ⟨c, hc, hage, rfl⟩
      · exact h.plain e he
      · exact response_plain h.online hi c hc hage
  | lose worker => exact ⟨h.online, h.plain, hothers worker⟩
  | expire name =>
      exact ⟨h.online, fun e he => h.plain e (Jar.mem_drop.mp he).1, h.sent⟩

theorem kept_reached {b : Browsing} (h : Browsing.Reached C p admits b) : Kept C p b := by
  induction h with
  | init => exact ⟨.init, nofun, nofun⟩
  | step _ hs ih => exact kept_step ih hs

end Kept

/-! ## 3. The two limits -/

/-- **A start**: an authorization request that the limit of `authorize` lets through, for the
    cookies it was sent with. -/
def Sent.starts (secure : Bool) (s : Sent) : Bool :=
  s.request.authorize.isSome && Nat.blt (s.jar.transactions secure).length 4

/-- The starts in flight. -/
def Browsing.starts (secure : Bool) (b : Browsing) : Nat := b.waiting.countP (Sent.starts secure)

/-- **A browser paces its starts**: with fewer than four transaction cookies it sends an
    authorization request only if these and the starts in flight are fewer than four together.
    With four of them it sends what it likes. -/
def Paced (secure : Bool) (b : Browsing) (req : HttpRequest) : Prop :=
  req.authorize.isSome = true → (b.jar.transactions secure).length < 4 →
    (b.jar.transactions secure).length + b.starts secure < 4

/-- It sends one after the other: no authorization request while one is in flight. -/
def Alone (b : Browsing) (req : HttpRequest) : Prop :=
  req.authorize.isSome = true → ∀ s ∈ b.waiting, s.request.authorize = none

/-- **The transactions of a browser can be completed**: it holds at most four transaction
    cookies, and a request with its cookies shows the binding of every transaction that awaits
    Google, expired or not. -/
structure Completable (p : Provider) (b : Browsing) : Prop where
  few : (b.jar.transactions p.secure).length ≤ 4
  found : ∀ row ∈ b.server.store.db.rows .browserAuthorizations,
    BrowserRow.stage row = .awaitingGoogle → ∀ binding,
      (txCookie (BrowserRow.id row) p.secure, binding) ∈ b.jar.cookies →
      ∀ h, Carries h b.jar →
        (txCookie (BrowserRow.id row) p.secure, binding) ∈ transactionCookies h p.secure

section Limits

variable {C : HttpCrates} {p : Provider} {admits : Browsing → HttpRequest → Prop}
  {b b' : Browsing}

/-- With at most four of them every transaction cookie is read. -/
theorem completable_of_few (h : Kept C p b) (hfew : (b.jar.transactions p.secure).length ≤ 4) :
    Completable p b where
  few := hfew
  found row _ _ binding hbinding headers hc := by
    rw [transactionCookies_carries h.plain hc, if_pos hfew]
    exact List.mem_filter.mpr ⟨hbinding, isTxName_txCookie _⟩

theorem one_at_a_time {secure : Bool} {req : HttpRequest} (h : Alone b req) :
    Paced secure b req := by
  intro hreq hfew
  have hnone : b.starts secure = 0 := by
    refine List.countP_eq_zero.mpr fun s hs hstarts => ?_
    unfold Sent.starts at hstarts
    rw [h hreq s hs] at hstarts
    cases hstarts
  rw [hnone]
  exact hfew

/-- **What the limit leaves**: the answer to a start gives one transaction cookie at most, and
    every other answer gives none. -/
theorem given_le (h : Kept C p b) {s : Sent} (hs : s ∈ b.waiting) {task : Provider × HttpRequest}
    {record : Record} {r : Response}
    (hi : b.server.At s.worker task record (.ready (.done r))) :
    (r.given p.secure).length ≤ if s.starts p.secure then 1 else 0 := by
  obtain ⟨⟨w, hw, htask⟩, hcarries, hplain⟩ := h.sent s hs
  obtain rfl : w = _ := Option.some.inj (hw.symm.trans hi)
  obtain rfl : task = (p, s.request) := htask
  have hends := (keeping h.online).ended hi
  by_cases hgiven : r.given p.secure = []
  · rw [hgiven]
    exact Nat.zero_le _
  -- a cookie that is given was let through
  obtain ⟨c, hc⟩ := List.exists_mem_of_ne_nil _ hgiven
  obtain ⟨hset, hgives⟩ := List.mem_filter.mp hc
  have hstarts : s.request.authorize.isSome = true ∧
      transactionCookieCount s.request.headers p.secure < 4 := by
    cases hends.cookies c hset with
    | clear hclear =>
        rw [hclear] at hgives
        cases hgives
    | session hcall hreply hsession =>
        unfold SetCookie.gives at hgives
        rw [hsession, isTxName_sessionCookie, Bool.and_false] at hgives
        cases hgives
    | @transaction raw headers n pending state nonce allow start hreq hcount _ _ _ =>
        have hheaders : s.request.headers = headers := by
          cases hrequest : s.request with
          | authorizeGet | authorizePost =>
              rw [hrequest] at hreq
              cases hreq
              rfl
          | _ =>
              rw [hrequest] at hreq
              cases hreq
        rw [hreq, hheaders]
        exact ⟨rfl, hcount⟩
  rw [transactionCookieCount_carries hplain hcarries] at hstarts
  have hstart : s.starts p.secure = true := by
    unfold Sent.starts
    rw [hstarts.1, Bool.true_and, Nat.blt_eq]
    exact hstarts.2
  rw [if_pos hstart]
  exact (List.length_filter_le ..).trans (hends.lone hstarts.1)

/-- A request that is no longer in flight. -/
theorem starts_others {secure : Bool} {s : Sent} (hs : s ∈ b.waiting) :
    (b.others s.worker).countP (Sent.starts secure) + (if s.starts secure then 1 else 0) ≤
      b.starts secure := by
  have hsplit := List.countP_eq_countP_filter_add b.waiting (Sent.starts secure)
    fun s' => s'.worker != s.worker
  have hself : (if s.starts secure then 1 else 0) ≤
      (b.waiting.filter fun s' => !(s'.worker != s.worker)).countP (Sent.starts secure) := by
    split
    · rename_i hstarts
      exact List.countP_pos_iff.mpr ⟨s, List.mem_filter.mpr ⟨hs, by simp⟩, hstarts⟩
    · exact Nat.zero_le _
  unfold Browsing.starts Browsing.others
  omega

theorem starts_others_le {secure : Bool} (worker : Nat) :
    (b.others worker).countP (Sent.starts secure) ≤ b.starts secure :=
  List.Sublist.countP_le List.filter_sublist

/-- **The ledger of a browser that paces its starts**: what is in the jar and what may come. -/
theorem paced_step (h : Kept C p b)
    (hroom : (b.jar.transactions p.secure).length + b.starts p.secure ≤ 4)
    (hs : Browsing.Step C p (Paced p.secure) b b') :
    (b'.jar.transactions p.secure).length + b'.starts p.secure ≤ 4 := by
  cases hs with
  | send req hc hmay =>
      have hcount : (b.waiting ++ [(⟨b.server.workers.length, req, b.jar⟩ : Sent)]).countP
          (Sent.starts p.secure) = b.starts p.secure +
            if req.authorize.isSome ∧ (b.jar.transactions p.secure).length < 4 then 1 else 0 := by
        rw [List.countP_append, List.countP_singleton]
        unfold Sent.starts
        simp only [Bool.and_eq_true, Nat.blt_eq]
        rfl
      show (b.jar.transactions p.secure).length + (b.waiting ++ [_]).countP _ ≤ 4
      rw [hcount]
      split
      · rename_i hstart
        have hpaced := hmay hstart.1 hstart.2
        omega
      · exact hroom
  | serve W hs => exact hroom
  | receive s task record r hw hi =>
      have hgiven := given_le h hw hi
      have hothers : (b.others s.worker).countP (Sent.starts p.secure) +
          (if s.starts p.secure then 1 else 0) ≤ b.starts p.secure := starts_others hw
      have hjar : ((b.jar.receive r).transactions p.secure).length ≤
          (b.jar.transactions p.secure).length + (r.given p.secure).length :=
        length_transactions_receive r
      show ((b.jar.receive r).transactions p.secure).length + (b.others s.worker).countP _ ≤ 4
      omega
  | lose worker =>
      have hothers : (b.others worker).countP (Sent.starts p.secure) ≤ b.starts p.secure :=
        starts_others_le worker
      show (b.jar.transactions p.secure).length + (b.others worker).countP _ ≤ 4
      omega
  | expire name =>
      have hjar : ((b.jar.drop name).transactions p.secure).length ≤
          (b.jar.transactions p.secure).length := length_transactions_drop name
      show ((b.jar.drop name).transactions p.secure).length + b.starts p.secure ≤ 4
      omega

theorem paced_reached (h : Browsing.Reached C p (Paced p.secure) b) :
    (b.jar.transactions p.secure).length + b.starts p.secure ≤ 4 := by
  induction h with
  | init => exact Nat.zero_le 4
  | step hb hs ih => exact paced_step (kept_reached hb) ih hs

/-- **The two limits agree as long as the starts are paced**: in every run of a browser that
    sends no start while its transaction cookies and its starts in flight are four, its
    transactions can be completed; so they can when it sends one start after the other. -/
theorem transactions_completable (C : HttpCrates) (p : Provider) :
    (∀ b, Browsing.Reached C p (Paced p.secure) b → Completable p b) ∧
    ∀ b, Browsing.Reached C p Alone b → Completable p b := by
  have hpaced : ∀ b, Browsing.Reached C p (Paced p.secure) b → Completable p b := fun b h =>
    completable_of_few (kept_reached h) ((Nat.le_add_right ..).trans (paced_reached h))
  exact ⟨hpaced, fun b h => hpaced b (h.mono fun _ _ => one_at_a_time)⟩

end Limits

/-! ## 4. Tabs -/

namespace Sample

open Browsing (Reached)

/-- Tabs without a cookie: the first is for a client that needs no consent, and the user is to be
    asked in the others. -/
def tab : Nat → HttpRequest
  | 0 => .authorizeGet (some authorizeQuery) []
  | _ + 1 => .authorizeGet (some (authorizeQuery ++ "&prompt=consent")) []

def tabs (n : Nat) : List (Provider × HttpRequest) :=
  (List.range n).map fun k => (localProvider, tab k)

/-- The jar after the answers to the first requests. -/
def collected (W : Server) : Nat → Jar
  | 0 => .empty
  | n + 1 => (((W.workers[n]?).bind Sql.Worker.result).elim (collected W n)
      fun r => (collected W n).receive r)

theorem tabs_succ (n : Nat) : tabs (n + 1) = tabs n ++ [(localProvider, tab n)] := by
  rw [tabs, List.range_succ, List.map_append]
  rfl

theorem length_tabs (n : Nat) : (served (tabs n)).workers.length = n := by
  rw [← List.length_map Sql.Worker.task, served_tasks, tabs, List.length_map,
    List.length_range]

theorem headers_tab (n : Nat) : (tab n).headers = [] := by
  cases n <;> rfl

section Runs

variable {admits : Browsing → HttpRequest → Prop} {n : Nat} {j : Jar} {waiting : List Sent}

/-- A tab of this browser. -/
theorem reached_tab (h : Reached serverCrates localProvider admits ⟨served (tabs n), j, waiting⟩)
    (hj : Carries [] j) (hmay : admits ⟨served (tabs n), j, waiting⟩ (tab n))
    (hcalls : (served (tabs (n + 1))).store.calls.length ≤ 7) :
    Reached serverCrates localProvider admits
      ⟨served (tabs (n + 1)), j, waiting ++ [⟨n, tab n, j⟩]⟩ := by
  rw [tabs_succ] at hcalls ⊢
  have hsent := (h.step (.send _ (tab n) (headers_tab n ▸ hj) hmay)).serves (steps_served hcalls)
  rwa [length_tabs] at hsent

/-- A tab of another browser. -/
theorem reached_elsewhere
    (h : Reached serverCrates localProvider admits ⟨served (tabs n), j, waiting⟩)
    (hcalls : (served (tabs (n + 1))).store.calls.length ≤ 7) :
    Reached serverCrates localProvider admits ⟨served (tabs (n + 1)), j, waiting⟩ := by
  rw [tabs_succ] at hcalls ⊢
  exact (h.step (.serve _ _ (.arrive _ _))).serves (steps_served hcalls)

theorem reached_receive {W : Server} {s : Sent} {r : Response}
    (h : Reached serverCrates localProvider admits ⟨W, j, waiting⟩) (hs : s ∈ waiting)
    (hresult : (W.workers[s.worker]?).bind Sql.Worker.result = some r) :
    Reached serverCrates localProvider admits
      ⟨W, j.receive r, waiting.filter fun s' => s'.worker != s.worker⟩ := by
  obtain ⟨w, _, hat⟩ := Sql.Server.at_of_result hresult
  exact h.step (.receive _ s w.task w.record r hs hat)

end Runs

/-- Every tab is this browser's, and none is answered yet. -/
theorem reached_tabs {n : Nat} (hcalls : (served (tabs n)).store.calls.length ≤ 7) :
    ∃ waiting, Reached serverCrates localProvider (fun _ _ => True)
      ⟨served (tabs n), .empty, waiting⟩ ∧ ∀ k < n, ∃ s ∈ waiting, s.worker = k := by
  induction n with
  | zero => exact ⟨[], .init, nofun⟩
  | succ n ih =>
      have hbefore := hcalls
      rw [tabs_succ] at hbefore
      obtain ⟨waiting, hreached, hall⟩ := ih ((served_calls_le _ _).trans hbefore)
      refine ⟨_, reached_tab hreached rfl trivial hcalls, fun k hk => ?_⟩
      by_cases hlast : k = n
      · exact ⟨_, List.mem_append_right _ (List.mem_singleton_self _), hlast.symm⟩
      · obtain ⟨s, hs, hworker⟩ := hall k (by omega)
        exact ⟨s, List.mem_append_left _ hs, hworker⟩

/-- The answers arrive in their order. -/
theorem reached_collected {n : Nat} (hcalls : (served (tabs n)).store.calls.length ≤ 7)
    (hanswers : ∀ k < n, ∃ r, ((served (tabs n)).workers[k]?).bind Sql.Worker.result = some r) :
    ∀ k ≤ n, ∃ b, Reached serverCrates localProvider (fun _ _ => True) b ∧
      b.server = served (tabs n) ∧ b.jar = collected b.server k ∧
      ∀ i < n, k ≤ i → ∃ s ∈ b.waiting, s.worker = i := by
  intro k
  induction k with
  | zero =>
      intro _
      obtain ⟨waiting, hreached, hall⟩ := reached_tabs hcalls
      exact ⟨_, hreached, rfl, rfl, fun i hi _ => hall i hi⟩
  | succ k ih =>
      intro hk
      obtain ⟨⟨W, j, waiting⟩, hreached, rfl, hjar, hall⟩ := ih (Nat.le_of_lt hk)
      dsimp only at hjar hall
      subst hjar
      obtain ⟨s, hs, rfl⟩ := hall k hk (Nat.le_refl k)
      obtain ⟨r, hresult⟩ := hanswers s.worker hk
      refine ⟨_, reached_receive hreached hs hresult, rfl, ?_, fun i hi hlater => ?_⟩
      · rw [collected, hresult]
        rfl
      · obtain ⟨s', hs', rfl⟩ := hall i hi (Nat.le_of_lt hlater)
        exact ⟨s', List.mem_filter.mpr ⟨hs', bne_iff_ne.mpr (Nat.ne_of_gt hlater)⟩, rfl⟩

/-- Five tabs: every answer gives a cookie, that of the first for a transaction that awaits
    Google. -/
structure Five (W : Server) : Prop where
  calls : W.store.calls.length ≤ 7
  answered : ∀ k < 5, ∃ r, (W.workers[k]?).bind Sql.Worker.result = some r
  jar : ((collected W 5).transactions false).length = 5
  row : ∃ row ∈ W.store.db.rows .browserAuthorizations,
    BrowserRow.stage row = .awaitingGoogle ∧ BrowserRow.id row = 0 ∧
      (BrowserRow.toConsentRow row).expiresAt = 600 * second
  cookie : (txCookie 0 false, secret 1) ∈ (collected W 5).cookies
  first : (txCookie 0 false, secret 1) ∈ (collected W 1).cookies

theorem five_tabs : Five (served (tabs 5)) := by
  have hall : (served (tabs 5)).store.calls.length ≤ 7 ∧
      (∀ k : Fin 5, (((served (tabs 5)).workers[k.val]?).bind Sql.Worker.result).isSome) ∧
      ((collected (served (tabs 5)) 5).transactions false).length = 5 ∧
      (∃ row ∈ (served (tabs 5)).store.db.rows .browserAuthorizations,
        BrowserRow.stage row = .awaitingGoogle ∧ BrowserRow.id row = 0 ∧
          (BrowserRow.toConsentRow row).expiresAt = 600 * second) ∧
      (txCookie 0 false, secret 1) ∈ (collected (served (tabs 5)) 5).cookies ∧
      (txCookie 0 false, secret 1) ∈ (collected (served (tabs 5)) 1).cookies := by
    decide +kernel
  obtain ⟨hcalls, hanswered, hjar, hrow, hcookie, hfirst⟩ := hall
  exact ⟨hcalls, fun k hk => Option.isSome_iff_exists.mp (hanswered ⟨k, hk⟩), hjar, hrow, hcookie,
    hfirst⟩

section Five

variable {b : Browsing}

theorem Five.found (hfive : Five b.server) (hjar : b.jar = collected b.server 1)
    (hC : Completable localProvider b) :
    (txCookie 0 false, secret 1) ∈ transactionCookies b.jar.headers false := by
  have hsecure : localProvider.secure = false := rfl
  obtain ⟨row, hrow, hstage, hid, _⟩ := hfive.row
  have hfound := hC.found row hrow hstage (secret 1)
  rw [hid, hsecure] at hfound
  exact hfound (hjar ▸ hfive.first) _ (carries_headers _)

theorem Five.not_few (hfive : Five b.server) (hjar : b.jar = collected b.server 5) :
    ¬(b.jar.transactions false).length ≤ 4 := by
  rw [hjar, hfive.jar]
  exact Nat.lt_irrefl 4

theorem Five.waits (hfive : Five b.server) (hjar : b.jar = collected b.server 5) :
    ∃ row ∈ b.server.store.db.rows .browserAuthorizations,
      BrowserRow.stage row = .awaitingGoogle ∧ BrowserRow.id row = 0 ∧
        (BrowserRow.toConsentRow row).expiresAt = 600 * second ∧
        (txCookie 0 false, secret 1) ∈ b.jar.cookies := by
  obtain ⟨row, hrow, hstage, hid, hexpires⟩ := hfive.row
  exact ⟨row, hrow, hstage, hid, hexpires, hjar ▸ hfive.cookie⟩

end Five

/-- The first tab is this browser's, and answered; the others are not its own. -/
def tabbed : Browsing := ⟨served (tabs 5), collected (served (tabs 5)) 1, []⟩

theorem tabbed_server : tabbed.server = served (tabs 5) := by
  rw [tabbed]

theorem tabbed_jar : tabbed.jar = collected tabbed.server 1 := by
  rw [tabbed]

theorem reached_tabbed {admits : Browsing → HttpRequest → Prop}
    (hmay : admits ⟨served (tabs 0), .empty, []⟩ (tab 0)) :
    Reached serverCrates localProvider admits tabbed := by
  have hcalls : ∀ n ≤ 5, (served (tabs n)).store.calls.length ≤ 7 := by
    intro n hn
    induction hn using Nat.decreasingInduction with
    | self => exact five_tabs.calls
    | of_succ k _ ih =>
        rw [tabs_succ] at ih
        exact (served_calls_le _ _).trans ih
  have hfirst := reached_tab (n := 0) .init rfl hmay (hcalls 1 (by decide))
  have hall := reached_elsewhere (reached_elsewhere (reached_elsewhere (reached_elsewhere hfirst
    (hcalls 2 (by decide))) (hcalls 3 (by decide))) (hcalls 4 (by decide))) (hcalls 5 (by decide))
  obtain ⟨r, hresult⟩ := five_tabs.answered 0 (by decide)
  have hjar : collected (served (tabs 5)) 1 = Jar.empty.receive r := by
    rw [collected, hresult]
    rfl
  unfold tabbed
  rw [hjar]
  exact reached_receive hall List.mem_cons_self hresult

end Sample

/-- A browser whose one start is answered: the callback finds its binding. -/
theorem transactions_completable_tab :
    Completable Sample.localProvider Sample.tabbed ∧ (txCookie 0 false, Sample.secret 1) ∈
      transactionCookies Sample.tabbed.jar.headers false := by
  have hpaced := (transactions_completable Sample.serverCrates Sample.localProvider).1
    Sample.tabbed (Sample.reached_tabbed fun _ _ => Nat.zero_lt_succ 3)
  have halone := (transactions_completable Sample.serverCrates Sample.localProvider).2
    Sample.tabbed (Sample.reached_tabbed fun _ => nofun)
  exact ⟨halone, (Sample.tabbed_server ▸ Sample.five_tabs : Sample.Five Sample.tabbed.server).found
    Sample.tabbed_jar hpaced⟩

/-- **Five tabs at once**: each request is below the limit, all five cookies arrive, and no
    callback finds a binding any more. -/
theorem tabs_overflow : ∃ b,
    Browsing.Reached Sample.serverCrates Sample.localProvider (fun _ _ => True) b ∧
    ¬Completable Sample.localProvider b ∧ (b.jar.transactions false).length = 5 ∧
    (∃ row ∈ b.server.store.db.rows .browserAuthorizations,
      BrowserRow.stage row = .awaitingGoogle ∧ BrowserRow.id row = 0 ∧
        (BrowserRow.toConsentRow row).expiresAt = 600 * second ∧
        (txCookie 0 false, Sample.secret 1) ∈ b.jar.cookies) ∧
    ∀ h, Carries h b.jar → transactionCookies h false = [] := by
  obtain ⟨b, hreached, hserver, hjar, _⟩ :=
    Sample.reached_collected Sample.five_tabs.calls Sample.five_tabs.answered 5 (Nat.le_refl 5)
  have hfive : Sample.Five b.server := hserver ▸ Sample.five_tabs
  have hfew := hfive.not_few hjar
  refine ⟨b, hreached, fun hC => hfew hC.few, ?_, hfive.waits hjar, fun h hc => ?_⟩
  · rw [hjar, hfive.jar]
  · rw [transactionCookies_carries (kept_reached hreached).plain hc, if_neg hfew]

end Web

end Eri
