/-
  File:      Eri/Refresh.lean
  Subject:   Refresh families: one chain of tokens each, and what a replay does to it.

  * `Chain`, `chains_kept` -- the tokens of a family are linked by `successor_id` in the order
    of their rotations, and only the last one is unused; a rotation appends one link;
  * `consumed_kept`, `revoked_kept` -- a used token stays used, a revoked family revoked;
  * **`refresh_families`** -- in every reachable machine families are chains, a token is
    rotated at most once, and a replayed token ends its family.
-/
import Eri.Changes
import Mathlib.Data.List.Chain

namespace Eri

open Sql

variable {P : Platform} {M : Machine schema Request Reply} {a db : Db}

/-! ## 1. Chains -/

/-- The token was rotated into the next one. -/
def MemberRow.Next (m m' : MemberRow) : Prop := m.successorId = some m'.id

/-- The tokens of a family, oldest first. -/
def tokensOf (db : Db) (family : Uuid) : List MemberRow :=
  (db.rows .refreshTokenMembers).filter fun m => m.familyId = family

/-- **The tokens of a family are one chain**: `used` in the order of their rotations, and then
    the one nobody has used. -/
structure Chain (db : Db) (family : Uuid) (used : List MemberRow) (live : MemberRow) : Prop where
  tokens : tokensOf db family = used ++ [live]
  linked : (used ++ [live]).IsChain MemberRow.Next
  used : ∀ m ∈ used, m.consumedAt.isSome = true
  live : live.consumedAt = none

/-- Every family is a chain. -/
def Chains (db : Db) : Prop :=
  ∀ f ∈ db.rows .refreshFamilies, ∃ used live, Chain db (FamilyRow.id f) used live

theorem mem_tokensOf {family : Uuid} {m : MemberRow} :
    m ∈ tokensOf db family ↔ m ∈ db.rows .refreshTokenMembers ∧ m.familyId = family := by
  simp [tokensOf]

theorem Chain.congr {b : Db} {family : Uuid} {used : List MemberRow} {live : MemberRow}
    (h : Chain a family used live) (e : tokensOf b family = tokensOf a family) :
    Chain b family used live := ⟨e.trans h.tokens, h.linked, h.used, h.live⟩

/-- An unused token of a family is its live one. -/
theorem Chain.eq_live {family : Uuid} {used : List MemberRow} {live m : MemberRow}
    (h : Chain db family used live) (hm : m ∈ db.rows .refreshTokenMembers)
    (hf : m.familyId = family) (hc : m.consumedAt = none) : m = live := by
  have hmem : m ∈ used ++ [live] := h.tokens ▸ mem_tokensOf.mpr ⟨hm, hf⟩
  rcases List.mem_append.mp hmem with hu | hl
  · have := h.used m hu
    rw [hc] at this
    cases this
  · exact List.mem_singleton.mp hl

/-- The tokens of a family after a rotation. -/
theorem tokensOf_rotated {t : Tape} {family id successor other : Uuid} :
    tokensOf (rotatedRows P t family id successor a) other =
      ((tokensOf a other) ++ if family = other then
        [MemberRow.issue (t.uuid 0) family (t.hash P 0) (t.now 0)] else []).map
        fun m => if m.id = id then m.consume (t.now 0) successor else m := by
  unfold tokensOf rotatedRows
  rw [Db.update_rows_self, Db.insert_rows_self, List.filter_map, List.filter_append]
  have hkeeps : ((fun m : MemberRow => decide (m.familyId = other)) ∘ fun m =>
      if decide (m.id = id) = true then m.consume (t.now 0) successor else m) =
      fun m => decide (m.familyId = other) := by
    funext m
    simp only [Function.comp]
    split <;> rfl
  rw [hkeeps]
  congr 1
  · funext m
    simp
  · congr 1
    by_cases h : family = other
    · simp [h, MemberRow.issue]
    · simp [h, MemberRow.issue]

/-- **A rotation appends one link**: the live token is used and points to the new one. -/
theorem Chain.rotate {t : Tape} {family : Uuid} {used : List MemberRow} {live : MemberRow}
    (h : Chain a family used live) (hI : (layout P).Integrity a)
    (hnew : ∀ m ∈ a.rows .refreshTokenMembers, MemberRow.id m ≠ t.uuid 0) :
    Chain (rotatedRows P t family live.id (t.uuid 0) a) family
      (used ++ [live.consume (t.now 0) (t.uuid 0)])
      (.issue (t.uuid 0) family (t.hash P 0) (t.now 0)) := by
  have hstored : ∀ m ∈ used ++ [live], m ∈ a.rows .refreshTokenMembers := fun m hm =>
    (mem_tokensOf.mp (h.tokens ▸ hm)).1
  have hlive : live ∈ a.rows .refreshTokenMembers :=
    hstored live (List.mem_append_right _ List.mem_cons_self)
  -- a used token is another row than the live one
  have hother : ∀ m ∈ used, m.id ≠ live.id := by
    intro m hm e
    have hstored := hstored m (List.mem_append_left _ hm)
    have heq : m = live := same_key hI hstored hlive e
    have hused := h.used m hm
    rw [heq, h.live] at hused
    cases hused
  have hfix : used.map (fun m => if m.id = live.id then m.consume (t.now 0) (t.uuid 0) else m) =
      used := by
    refine (List.map_congr_left fun m hm => ?_).trans (List.map_id _)
    rw [if_neg (hother m hm)]
    rfl
  refine ⟨?_, ?_, ?_, rfl⟩
  · have hne : t.uuid 0 ≠ live.id := fun e => hnew live hlive e.symm
    rw [tokensOf_rotated, h.tokens, if_pos rfl, List.map_append, List.map_append, hfix]
    simp [MemberRow.issue, hne]
  · have hlinked := h.linked
    rw [List.isChain_append] at hlinked ⊢
    refine ⟨?_, List.isChain_singleton _, fun x hx y hy => ?_⟩
    · rw [List.isChain_append]
      refine ⟨hlinked.1, List.isChain_singleton _, fun x hx y hy => ?_⟩
      -- the link into the live token reads only its id
      have hlink := hlinked.2.2 x hx live rfl
      cases hy
      exact hlink
    · rw [List.getLast?_append, List.getLast?_singleton] at hx
      cases hx
      cases hy
      rfl
  · intro m hm
    rcases List.mem_append.mp hm with hm | hm
    · exact h.used m hm
    · rw [List.mem_singleton] at hm
      subst hm
      rfl

/-- A rotation leaves the tokens of other families alone. -/
theorem tokensOf_rotated_ne {t : Tape} {family other : Uuid} {member : MemberRow}
    (hI : (layout P).Integrity a) (hm : member ∈ a.rows .refreshTokenMembers)
    (hf : member.familyId = family) (h : family ≠ other) :
    tokensOf (rotatedRows P t family member.id (t.uuid 0) a) other = tokensOf a other := by
  rw [tokensOf_rotated, if_neg h, List.append_nil]
  refine (List.map_congr_left fun m hother => ?_).trans (List.map_id _)
  obtain ⟨hstored, hof⟩ := mem_tokensOf.mp hother
  have hne : m.id ≠ member.id := by
    intro e
    have heq : m = member := same_key hI hstored hm e
    exact h (hf.symm.trans (heq ▸ hof))
  rw [if_neg hne]
  rfl

/-- The families an update of other columns leaves are the same. -/
theorem Chains.update {b : Db} (h : Chains a)
    (hm : b.rows .refreshTokenMembers = a.rows .refreshTokenMembers)
    (hf : ∀ f ∈ b.rows .refreshFamilies, ∃ x ∈ a.rows .refreshFamilies,
      FamilyRow.id x = FamilyRow.id f) : Chains b := by
  intro f hmem
  obtain ⟨x, hx, e⟩ := hf f hmem
  obtain ⟨used, live, hchain⟩ := h x hx
  rw [e] at hchain
  exact ⟨used, live, hchain.congr (by unfold tokensOf; rw [hm])⟩

/-- An update of families that leaves their ids alone. -/
theorem families_update {p : FamilyRow → Bool} {set : FamilyRow → FamilyRow}
    (hset : ∀ f, (set f).id = f.id) :
    ∀ f ∈ (a.update .refreshFamilies p set).rows .refreshFamilies,
      ∃ x ∈ a.rows .refreshFamilies, FamilyRow.id x = FamilyRow.id f := by
  intro f hf
  rw [Db.update_rows_self] at hf
  obtain ⟨x, hx, rfl⟩ := List.mem_map.mp hf
  refine ⟨x, hx, ?_⟩
  split
  · exact (hset x).symm
  · rfl

/-- The first token of a new family is its chain. -/
theorem Chains.create {b : Db} (h : Chains a) (family : FamilyRow) (member : MemberRow)
    (hI : (layout P).Integrity a) (hof : member.familyId = family.id)
    (hlive : member.consumedAt = none)
    (hnew : ∀ f ∈ a.rows .refreshFamilies, FamilyRow.id f ≠ family.id)
    (hf : b.rows .refreshFamilies = a.rows .refreshFamilies ++ [family])
    (hm : b.rows .refreshTokenMembers = a.rows .refreshTokenMembers ++ [member]) : Chains b := by
  have htokens : ∀ other, tokensOf b other =
      tokensOf a other ++ if family.id = other then [member] else [] := by
    intro other
    unfold tokensOf
    rw [hm, List.filter_append]
    by_cases e : family.id = other
    · simp [e, hof]
    · simp [e, hof]
  intro f hmem
  rw [hf] at hmem
  rcases List.mem_append.mp hmem with hmem | hmem
  · obtain ⟨used, live, hchain⟩ := h f hmem
    have hne : family.id ≠ FamilyRow.id f := fun e => hnew f hmem e.symm
    exact ⟨used, live, hchain.congr (by rw [htokens, if_neg hne, List.append_nil])⟩
  · rw [List.mem_singleton] at hmem
    subst hmem
    have hnone : tokensOf a f.id = [] := by
      refine List.filter_eq_nil_iff.mpr fun m hm e => ?_
      obtain ⟨x, hx, hid⟩ := (hI.ok .refreshTokenMembers m hm).family
      exact hnew x hx (hid.trans (of_decide_eq_true e))
    refine ⟨[], member, ?_, List.isChain_singleton _, fun _ h => (by cases h), hlive⟩
    rw [htokens, hnone, if_pos rfl]

/-- **Every call keeps families chains.** -/
theorem chains_kept : Kept (contract P) (program P) Chains := by
  refine kept_of_change fun c a r b hgood hchange h => ?_
  have hself : ∀ f ∈ a.rows .refreshFamilies, ∃ x ∈ a.rows .refreshFamilies,
      FamilyRow.id x = FamilyRow.id f := fun f hf => ⟨f, hf, rfl⟩
  cases hchange with
  | same hr hsame =>
      refine h.update (hsame _ (by simp)) ?_
      rw [hsame .refreshFamilies (by simp)]
      exact hself
  | login hr s hs hrows hsame =>
      refine h.update (hsame _ (by simp)) ?_
      rw [hsame .refreshFamilies (by simp)]
      exact hself
  | issue hr code hc hrows hsame =>
      refine h.update (hsame _ (by simp)) ?_
      rw [hsame .refreshFamilies (by simp)]
      exact hself
  | exchange raw hc code session hshown hredeem =>
      unfold exchangedRows
      split
      · refine h.create
          (.descend (c.tape.uuid 0) code.toCodeRow session (c.tape.now 0) : FamilyRow)
          (.issue (c.tape.uuid 1) (c.tape.uuid 0) (c.tape.hash P 0) (c.tape.now 0) : MemberRow)
          hgood.inv rfl rfl (fun f hf => fresh_key hgood.fresh hf (by decide) 0) ?_ ?_
        · rw [Db.insert_rows_ne _ _ (by decide), Db.insert_rows_self,
            Db.update_rows_ne _ _ _ (by decide)]
        · rw [Db.insert_rows_self, Db.insert_rows_ne _ _ (by decide),
            Db.update_rows_ne _ _ _ (by decide)]
      · refine h.update (Db.update_rows_ne _ _ _ (by decide)) ?_
        rw [Db.update_rows_ne _ _ _ (by decide)]
        exact hself
  | replayCode raw hc code session hshown hconsumed =>
      exact h.update (Db.update_rows_ne _ _ _ (by decide)) (families_update fun _ => rfl)
  | rotate raw hc member family session hshown hrotate =>
      intro f hf
      unfold rotatedRows at hf
      rw [Db.update_rows_ne _ _ _ (by decide), Db.insert_rows_ne _ _ (by decide)] at hf
      obtain ⟨used, live, hchain⟩ := h f hf
      by_cases e : family.id = FamilyRow.id f
      · have hlive : member = live := hchain.eq_live hshown.stored (hshown.ofGrant.symm.trans e)
          hrotate.unconsumed
        subst hlive
        rw [e]
        exact ⟨_, _, hchain.rotate hgood.inv fun m hm => fresh_key hgood.fresh hm (by decide) 0⟩
      · exact ⟨used, live, hchain.congr
          (tokensOf_rotated_ne hgood.inv hshown.stored hshown.ofGrant.symm e)⟩
  | revoke family hf hr =>
      exact h.update (Db.update_rows_ne _ _ _ (by decide)) (families_update fun _ => rfl)
  | logout session hs hr now set hset hsessions hfamilies hsame =>
      refine h.update (hsame _ (by simp)) ?_
      rw [hfamilies]
      refine families_update fun f => ?_
      obtain ⟨at_, e⟩ := hset f
      rw [e]
      rfl

/-! ## 2. Used tokens and revoked families -/

/-- The token stored under a hash is used. -/
def Used (db : Db) (tokenHash : Digest) : Prop :=
  ∃ m ∈ db.rows .refreshTokenMembers, MemberRow.tokenHash m = tokenHash ∧
    (MemberRow.consumedAt m).isSome = true

/-- The family is revoked. -/
def Revoked (db : Db) (family : Uuid) : Prop :=
  ∃ f ∈ db.rows .refreshFamilies, FamilyRow.id f = family ∧ (FamilyRow.revokedAt f).isSome = true

theorem used_kept (d : Digest) : Kept (contract P) (program P) fun db => Used db d :=
  kept_row fun r r' hl hq => by
    refine ⟨?_, hl.consumed.isSome hq.2⟩
    rw [hl.keeps]
    exact hq.1

theorem revoked_kept (family : Uuid) :
    Kept (contract P) (program P) fun db => Revoked db family :=
  kept_row fun r r' hl hq => by
    refine ⟨?_, hl.revoked.isSome hq.2⟩
    rw [hl.keeps]
    exact hq.1

/-- A revocation leaves the family revoked. -/
theorem revoked_rows {family : FamilyRow} {now : Time} (hf : family ∈ a.rows .refreshFamilies) :
    Revoked (revokedRows family.id now a) family.id := by
  refine ⟨family.revoke now, ?_, rfl, rfl⟩
  unfold revokedRows
  rw [Db.update_rows_self]
  exact List.mem_map.mpr ⟨family, hf, by simp⟩

/-- A rotation leaves the token used. -/
theorem used_rotated {t : Tape} {family : Uuid} {member : MemberRow}
    (hm : member ∈ a.rows .refreshTokenMembers) :
    Used (rotatedRows P t family member.id (t.uuid 0) a) member.tokenHash := by
  refine ⟨member.consume (t.now 0) (t.uuid 0), ?_, rfl, rfl⟩
  unfold rotatedRows
  rw [Db.update_rows_self, Db.insert_rows_self]
  exact List.mem_map.mpr ⟨member, List.mem_append_left _ hm, by simp⟩

/-- Tokens have hashes of their own. -/
theorem same_hash {m m' : MemberRow} (hI : (layout P).Integrity a)
    (hm : m ∈ a.rows .refreshTokenMembers) (hm' : m' ∈ a.rows .refreshTokenMembers)
    (e : m.tokenHash = m'.tokenHash) : m = m' := by
  have hname : Name.hash m.tokenHash ∈ Row.names (t := .refreshTokenMembers) m' := by
    simp [Row.names, e]
  exact hI.unique hm hm' (n := .hash m.tokenHash) (by simp [Row.names]) hname

/-- A used token cannot be rotated. -/
theorem not_used {raw : String} {member : MemberRow} {family : FamilyRow} {session : SessionRow}
    {now : Time} (hI : (layout P).Integrity a) (hshown : TokenShown P raw a member family session)
    (hrotate : member.Rotatable family session now) : ¬Used a (secretHash P raw) := by
  rintro ⟨m, hm, hhash, hused⟩
  have e : m = member := same_hash hI hm hshown.stored (hhash.trans hshown.hash.symm)
  rw [e, hrotate.unconsumed] at hused
  cases hused

/-- No token of a revoked family can be rotated. -/
theorem not_revoked {raw : String} {member : MemberRow} {family : FamilyRow}
    {session : SessionRow} {now : Time} (hI : (layout P).Integrity a)
    (hshown : TokenShown P raw a member family session)
    (hrotate : member.Rotatable family session now) : ¬Revoked a family.id := by
  rintro ⟨f, hf, hid, hrevoked⟩
  have e : f = family := same_key hI hf hshown.grant hid
  rw [e, hrotate.unrevoked] at hrevoked
  cases hrevoked

/-- Tokens have ids of their own. -/
theorem nodup_ids (hI : (layout P).Integrity a) :
    ((a.rows .refreshTokenMembers).map MemberRow.id).Nodup := by
  refine List.pairwise_map.mpr ((hI.distinct .refreshTokenMembers).imp fun hdisjoint e => ?_)
  exact hdisjoint List.mem_cons_self (e ▸ List.mem_cons_self)

/-! ## 3. Runs -/

/-- A rotation of the token `raw` was granted. -/
def Rotated (e : Entry) (raw : String) : Prop :=
  e.call.call.rotationOf = some raw ∧ e.reply.granted.isSome = true

/-- The call of `e` presents a token of the family. -/
def PresentsTokenOf (P : Platform) (e : Entry) (family : Uuid) : Prop :=
  ∃ raw, e.call.call.rotationOf = some raw ∧ ∃ m ∈ e.before.rows .refreshTokenMembers,
    MemberRow.tokenHash m = secretHash P raw ∧ MemberRow.familyId m = family

theorem rotated_entry {e : Entry} {raw : String} (h : Reachable P M) (he : e ∈ M.log)
    (hr : Rotated e raw) : ∃ member family session,
      (layout P).Integrity e.before ∧ TokenShown P raw e.before member family session ∧
      member.Rotatable family session (e.call.tape.now 0) ∧
      e.after = rotatedRows P e.call.tape family.id member.id (e.call.tape.uuid 0) e.before := by
  obtain ⟨x, hx⟩ := Option.isSome_iff_exists.mp hr.2
  obtain ⟨member, family, session, hshown, hrotate, _, hafter⟩ :=
    (entry_change h he).rotated hr.1 hx
  exact ⟨member, family, session, (reachable_entry (lawful P) h he).1.inv, hshown, hrotate, hafter⟩

/-- **A token is rotated at most once.** -/
theorem rotated_once {e e' : Entry} {raw : String} (h : Reachable P M) (he : e ∈ M.log)
    (he' : e' ∈ M.log) (hr : Rotated e raw) (hr' : Rotated e' raw) : e = e' := by
  refine kept_once (A := fun e => Rotated e raw) (lawful P) (used_kept (secretHash P raw)) h
    (fun x hx hrx => ?_) (fun x hx hrx => ?_) he he' hr hr'
  · obtain ⟨member, family, session, hI, hshown, hrotate, _⟩ := rotated_entry h hx hrx
    exact not_used hI hshown hrotate
  · obtain ⟨member, family, session, _, hshown, _, hafter⟩ := rotated_entry h hx hrx
    rw [hafter, ← hshown.hash]
    exact used_rotated hshown.stored

/-- **No token of a revoked family is rotated.** -/
theorem revoked_before {e : Entry} {family : Uuid} (h : Reachable P M) (he : e ∈ M.log)
    (hrevoked : Revoked e.before family) (hp : PresentsTokenOf P e family) :
    e.reply.granted = none := by
  obtain ⟨raw, hc, m, hm, hhash, hof⟩ := hp
  by_contra hne
  have hr : Rotated e raw := ⟨hc, Option.isSome_iff_ne_none.mpr hne⟩
  obtain ⟨member, f, session, hI, hshown, hrotate, _⟩ := rotated_entry h he hr
  have e₁ : m = member := same_hash hI hm hshown.stored (hhash.trans hshown.hash.symm)
  have e₂ : f.id = family := (hshown.ofGrant.trans (e₁ ▸ rfl)).trans hof
  rw [← e₂] at hrevoked
  exact not_revoked hI hshown hrotate hrevoked

/-- A replay ends in `InvalidGrant` and a revoked family. -/
theorem replayed_entry {e : Entry} {family : FamilyRow} (h : Reachable P M) (he : e ∈ M.log)
    (hr : PresentsUsedToken P e.call e.before family) :
    e.reply = .exchanged (.error .invalidGrant) ∧ Revoked e.after family.id := by
  have hreplay := presentsUsedToken_run hr
  rw [(reachable_entry (lawful P) h he).2] at hreplay
  have hafter : e.after = revokedRows family.id (e.call.tape.now 0) e.before :=
    congrArg Prod.snd hreplay
  obtain ⟨_, _, _, _, _, hp, _⟩ := hr
  refine ⟨congrArg Prod.fst hreplay, ?_⟩
  rw [hafter]
  exact revoked_rows (find_mem hp.lockedFamily)

/-- **Refresh families.** In every state any interleaving of calls can reach, the tokens of a
    family are one chain, where exactly the last token is unused; a token is rotated at most
    once; and a used token that is presented as its family asks for revokes the family, so
    that none of its tokens is rotated later. -/
theorem refresh_families (P : Platform) {M : Machine schema Request Reply}
    (h : Reachable P M) :
    (∀ f ∈ M.db.rows .refreshFamilies, ∃ used live,
      Chain M.db (FamilyRow.id f) used live ∧ ((used ++ [live]).map MemberRow.id).Nodup ∧
      ∀ m ∈ tokensOf M.db (FamilyRow.id f), m.consumedAt.isSome = m.successorId.isSome ∧
        (m.consumedAt = none ↔ m = live)) ∧
    (∀ m ∈ M.db.rows .refreshTokenMembers, ∃ f ∈ M.db.rows .refreshFamilies,
      FamilyRow.id f = MemberRow.familyId m) ∧
    (∀ raw, ∀ e ∈ M.log, ∀ e' ∈ M.log, Rotated e raw → Rotated e' raw → e = e') ∧
    ∀ e ∈ M.log, ∀ family, PresentsUsedToken P e.call e.before family →
      e.reply = .exchanged (.error .invalidGrant) ∧ Revoked e.after family.id ∧
      Revoked M.db family.id ∧
      ∀ e', Before M e e' → PresentsTokenOf P e' family.id → e'.reply.granted = none := by
  have hI : (layout P).Integrity M.db := reachable_integrity h
  refine ⟨fun f hf => ?_, fun m hm => (hI.ok .refreshTokenMembers m hm).family,
    fun raw e he e' he' => rotated_once h he he', fun e he family hr => ?_⟩
  · obtain ⟨used, live, hchain⟩ := reachable_kept (lawful P) chains_kept
      (fun f hf => by cases hf) h f hf
    refine ⟨used, live, hchain, ?_, fun m hm => ⟨?_, fun hc => ?_, fun e => e ▸ hchain.live⟩⟩
    · rw [← hchain.tokens]
      refine List.Nodup.sublist (List.filter_sublist.map _) ?_
      exact nodup_ids hI
    · exact (hI.ok .refreshTokenMembers m (mem_tokensOf.mp hm).1).chained.symm
    · exact hchain.eq_live (mem_tokensOf.mp hm).1 (mem_tokensOf.mp hm).2 hc
  · obtain ⟨hreply, hrevoked⟩ := replayed_entry h he hr
    exact ⟨hreply, hrevoked, kept_after (lawful P) (revoked_kept _) h he hrevoked,
      fun e' hs hp => revoked_before h (hs.subset (by simp))
        (kept_between (lawful P) (revoked_kept _) h hs hrevoked) hp⟩

/-- The first token of a grant is presented again. -/
def Sample.replaySteps : List Step :=
  grantSteps ++ [(.rotateRefresh "token" grant.clientId grant.resource, [.replay])]

/-- The family of a token that was rotated and then replayed. -/
theorem refresh_families_replayed : ∃ used live,
    Chain (Sample.machine Sample.replaySteps).db 6 used live ∧
    (Sample.machine Sample.replaySteps).log.map (fun e => e.reply.granted.isSome) =
      [false, false, false, true, true, false] ∧
    Revoked (Sample.machine Sample.replaySteps).db 6 := by
  have hreach : Reachable Sample.platform (Sample.machine Sample.replaySteps) :=
    Sample.reachable (by decide)
  obtain ⟨hgranted, f, hf, hid, hrevoked⟩ :
      (Sample.machine Sample.replaySteps).log.map (fun e => e.reply.granted.isSome) =
        [false, false, false, true, true, false] ∧
      Revoked (Sample.machine Sample.replaySteps).db 6 := by
    unfold Revoked
    decide +kernel
  obtain ⟨used, live, hchain, _⟩ := (refresh_families Sample.platform hreach).1 f hf
  exact ⟨used, live, hid ▸ hchain, hgranted, f, hf, hid, hrevoked⟩

end Eri
