/-
  File:      Eri/Destinations.lean
  Subject:   Where a document may be fetched from (src/cimd.rs, `public_ip` and the check of
             `fetch_leased`), compared with the special-purpose prefixes over the whole address
             spaces.

  * `publicV4_eq_false_iff` -- **exactly what the test of an IPv4 address refuses**: the listed
    prefixes and 192.2.0.0/16;
  * `publicIp_special` -- an address that passes is under no special-purpose prefix;
  * `timedFetch` -- the timed part of a fetch, with what the transport is handed;
  * `Cimd.handed_public`, `Cimd.rejects_iff_public_block` -- the gate, and where it is too narrow.
-/
import Eri.Fetcher
import Eri.Net.Prefix

namespace Eri

namespace Cimd

open Net

/-! ## 1. IPv4 -/

/-- A dotted address. -/
def dotted (a b c d : Nat) : BitVec 32 := .ofNat 32 (((a * 256 + b) * 256 + c) * 256 + d)

/-- The special-purpose prefixes of IPv4. -/
def specialV4 : List (Prefix 32) :=
  [⟨dotted 0 0 0 0, 8⟩, ⟨dotted 10 0 0 0, 8⟩, ⟨dotted 100 64 0 0, 10⟩, ⟨dotted 127 0 0 0, 8⟩,
    ⟨dotted 169 254 0 0, 16⟩, ⟨dotted 172 16 0 0, 12⟩, ⟨dotted 192 0 0 0, 24⟩,
    ⟨dotted 192 0 2 0, 24⟩, ⟨dotted 192 31 196 0, 24⟩, ⟨dotted 192 52 193 0, 24⟩,
    ⟨dotted 192 88 99 0, 24⟩, ⟨dotted 192 168 0 0, 16⟩, ⟨dotted 192 175 48 0, 24⟩,
    ⟨dotted 198 18 0 0, 15⟩, ⟨dotted 198 51 100 0, 24⟩, ⟨dotted 203 0 113 0, 24⟩,
    ⟨dotted 224 0 0 0, 4⟩, ⟨dotted 240 0 0 0, 4⟩]

/-- The same, with 192.0.0.0/16 as one block. -/
def reservedV4 : List (Prefix 32) :=
  [⟨dotted 0 0 0 0, 8⟩, ⟨dotted 10 0 0 0, 8⟩, ⟨dotted 100 64 0 0, 10⟩, ⟨dotted 127 0 0 0, 8⟩,
    ⟨dotted 169 254 0 0, 16⟩, ⟨dotted 172 16 0 0, 12⟩, ⟨dotted 192 0 0 0, 16⟩,
    ⟨dotted 192 31 196 0, 24⟩, ⟨dotted 192 52 193 0, 24⟩, ⟨dotted 192 88 99 0, 24⟩,
    ⟨dotted 192 168 0 0, 16⟩, ⟨dotted 192 175 48 0, 24⟩, ⟨dotted 198 18 0 0, 15⟩,
    ⟨dotted 198 51 100 0, 24⟩, ⟨dotted 203 0 113 0, 24⟩, ⟨dotted 224 0 0 0, 4⟩,
    ⟨dotted 240 0 0 0, 4⟩]

/-- The block of public addresses that the pattern `(2, _)` refuses with the special ones. -/
def publicBlock : Prefix 32 := ⟨dotted 192 2 0 0, 16⟩

section Octets

variable {x y z : Nat} (v : BitVec 32)

theorem covers_eight (hx : x < 256) : Prefix.Covers ⟨dotted x 0 0 0, 8⟩ v ↔ octet v 0 = x := by
  have hv := v.isLt
  simp only [Prefix.Covers, Prefix.free, dotted, octet, BitVec.toNat_ofNat]
  omega

theorem covers_sixteen (hx : x < 256) (hy : y < 256) :
    Prefix.Covers ⟨dotted x y 0 0, 16⟩ v ↔ octet v 0 = x ∧ octet v 1 = y := by
  have hv := v.isLt
  simp only [Prefix.Covers, Prefix.free, dotted, octet, BitVec.toNat_ofNat]
  omega

theorem covers_twentyFour (hx : x < 256) (hy : y < 256) (hz : z < 256) :
    Prefix.Covers ⟨dotted x y z 0, 24⟩ v ↔
      octet v 0 = x ∧ octet v 1 = y ∧ octet v 2 = z := by
  have hv := v.isLt
  simp only [Prefix.Covers, Prefix.free, dotted, octet, BitVec.toNat_ofNat]
  omega

/-- The shared address space. -/
theorem covers_ten : Prefix.Covers ⟨dotted 100 64 0 0, 10⟩ v ↔
    octet v 0 = 100 ∧ 64 ≤ octet v 1 ∧ octet v 1 ≤ 127 := by
  have hv := v.isLt
  simp only [Prefix.Covers, Prefix.free, dotted, octet, BitVec.toNat_ofNat]
  omega

theorem covers_twelve : Prefix.Covers ⟨dotted 172 16 0 0, 12⟩ v ↔
    octet v 0 = 172 ∧ 16 ≤ octet v 1 ∧ octet v 1 ≤ 31 := by
  have hv := v.isLt
  simp only [Prefix.Covers, Prefix.free, dotted, octet, BitVec.toNat_ofNat]
  omega

theorem covers_fifteen : Prefix.Covers ⟨dotted 198 18 0 0, 15⟩ v ↔
    octet v 0 = 198 ∧ (octet v 1 = 18 ∨ octet v 1 = 19) := by
  have hv := v.isLt
  simp only [Prefix.Covers, Prefix.free, dotted, octet, BitVec.toNat_ofNat]
  omega

/-- Multicast and the reserved addresses behind it. -/
theorem covers_four : Prefix.Covers ⟨dotted 224 0 0 0, 4⟩ v ∨
    Prefix.Covers ⟨dotted 240 0 0 0, 4⟩ v ↔ 224 ≤ octet v 0 := by
  have hv := v.isLt
  simp only [Prefix.Covers, Prefix.free, dotted, octet, BitVec.toNat_ofNat]
  omega

/-- **What the test of an IPv4 address refuses.** -/
theorem publicV4_eq_false_iff :
    publicV4 v = false ↔ (∃ p ∈ reservedV4, p.Covers v) ∨ publicBlock.Covers v := by
  simp (disch := decide) only [reservedV4, publicBlock, List.exists_mem_cons_iff, List.not_mem_nil,
    false_and, exists_false, or_false, covers_ten, covers_twelve, covers_fifteen, covers_four,
    covers_eight, covers_sixteen, covers_twentyFour]
  unfold publicV4
  dsimp only
  generalize octet v 0 = a, octet v 1 = b, octet v 2 = c
  -- one case for each arm of the match on the first octet
  split_ifs with hany h100 h169 h172 h192 h198 h203
  · rcases hany with h | h | h | h <;> simp [h]
  · subst h100
    simp
  · subst h169
    simp
  · subst h172
    simp
  · subst h192
    simp
    grind
  · subst h198
    simp
    grind
  · subst h203
    simp
  · obtain ⟨h0, h10, h127, h224⟩ : a ≠ 0 ∧ a ≠ 10 ∧ a ≠ 127 ∧ a < 224 := by omega
    simp [h0, h10, h100, h127, h169, h172, h192, h198, h203, h224]

/-- Every special-purpose prefix lies within one of the reserved ones. -/
theorem reserved_of_special (h : ∃ p ∈ specialV4, p.Covers v) :
    ∃ q ∈ reservedV4, q.Covers v := by
  obtain ⟨p, hp, hv⟩ := h
  have hwithin : ∀ p ∈ specialV4, ∃ q ∈ reservedV4, q.Covers p.base ∧ q.length ≤ p.length := by
    decide
  obtain ⟨q, hq, hbase, hlength⟩ := hwithin p hp
  exact ⟨q, hq, hv.mono hbase hlength⟩

end Octets

/-! ## 2. IPv6 -/

/-- An IPv6 address from its first groups; the others are zero. -/
def groups (l : List Nat) : BitVec 128 :=
  .ofNat 128 (l.foldl (fun n group => n * 65536 + group) 0 * 65536 ^ (8 - l.length))

/-- The special-purpose prefixes of IPv6. -/
def specialV6 : List (Prefix 128) :=
  [⟨groups [], 128⟩, ⟨groups [0, 0, 0, 0, 0, 0, 0, 1], 128⟩, ⟨groups [0, 0, 0, 0, 0, 0xffff], 96⟩,
    ⟨groups [0x64, 0xff9b], 96⟩, ⟨groups [0x64, 0xff9b, 1], 48⟩, ⟨groups [0x100], 64⟩,
    ⟨groups [0x2001], 23⟩, ⟨groups [0x2001, 0xdb8], 32⟩, ⟨groups [0x2002], 16⟩,
    ⟨groups [0x2620, 0x4f, 0x8000], 48⟩, ⟨groups [0x3fff], 20⟩, ⟨groups [0x5f00], 16⟩,
    ⟨groups [0xfc00], 7⟩, ⟨groups [0xfe80], 10⟩, ⟨groups [0xff00], 8⟩]

/-- Global unicast. -/
def globalUnicast : Prefix 128 := ⟨groups [0x2000], 3⟩

/-- The address is under a special-purpose prefix. -/
def Special : IpAddr → Prop
  | .v4 v => ∃ p ∈ specialV4, p.Covers v
  | .v6 v => ∃ p ∈ specialV6, p.Covers v

instance (ip : IpAddr) : Decidable (Special ip) := by
  cases ip <;> unfold Special <;> infer_instance

/-- The mask of the first group selects the global unicast addresses. -/
theorem masked_iff (v : BitVec 128) :
    segment v 0 &&& 0xe000 = 0x2000 ↔ globalUnicast.Covers v := by
  have hv := v.isLt
  have hmask : ∀ n, n < 65536 → n &&& 0xe000 = n / 8192 % 8 * 8192 := by
    intro n hn
    have hshift : (n &&& 0xe000) >>> 13 = n >>> 13 &&& 7 := Nat.shiftRight_and_distrib
    have hlow : (n &&& 0xe000) % 8192 = 0 := by
      rw [show 8192 = 2 ^ 13 from rfl, ← Nat.and_two_pow_sub_one_eq_mod, Nat.and_assoc,
        show 0xe000 &&& 2 ^ 13 - 1 = 0 from by decide, Nat.and_zero]
    rw [Nat.shiftRight_eq_div_pow, Nat.shiftRight_eq_div_pow,
      show 7 = 2 ^ 3 - 1 from rfl, Nat.and_two_pow_sub_one_eq_mod] at hshift
    omega
  have hsegment : segment v 0 < 65536 := Nat.mod_lt _ (by decide)
  rw [hmask _ hsegment]
  simp only [globalUnicast, Prefix.Covers, Prefix.free, groups, segment, BitVec.toNat_ofNat,
    List.foldl_cons, List.foldl_nil, List.length_cons, List.length_nil]
  omega

/-- The special-purpose prefixes within global unicast, by the groups of the address. -/
theorem special_within {v : BitVec 128} (hv : globalUnicast.Covers v)
    (h : ∃ p ∈ specialV6, p.Covers v) :
    (segment v 0 = 0x2001 ∧ (segment v 1 ≤ 0x01ff ∨ segment v 1 = 0x0db8)) ∨
      segment v 0 = 0x2002 ∨ segment v 0 = 0x3fff ∨
      (segment v 0 = 0x2620 ∧ segment v 1 = 0x004f ∧ segment v 2 = 0x8000) := by
  obtain ⟨p, hp, hcovers⟩ := h
  -- a prefix that begins with other bits covers nothing of it
  have hbits : p.base.toNat / 2 ^ 125 = 1 := by
    have hlong : ∀ p ∈ specialV6, 3 ≤ p.length := by decide
    have hshort : Prefix.Covers ⟨p.base, 3⟩ v := hcovers.mono rfl (hlong p hp)
    exact hshort.symm.trans hv
  have hlt := v.isLt
  have hfew : p ∈ specialV6.filter fun p => p.base.toNat / 2 ^ 125 = 1 :=
    List.mem_filter.mpr ⟨hp, decide_eq_true hbits⟩
  have hlist : (specialV6.filter fun p => p.base.toNat / 2 ^ 125 = 1) =
      [⟨groups [0x2001], 23⟩, ⟨groups [0x2001, 0xdb8], 32⟩, ⟨groups [0x2002], 16⟩,
        ⟨groups [0x2620, 0x4f, 0x8000], 48⟩, ⟨groups [0x3fff], 20⟩] := by
    decide
  rw [hlist] at hfew
  simp only [List.mem_cons, List.not_mem_nil, or_false] at hfew
  rcases hfew with rfl | rfl | rfl | rfl | rfl <;>
    simp only [Prefix.Covers, Prefix.free, groups, segment, BitVec.toNat_ofNat, List.foldl_cons,
      List.foldl_nil, List.length_cons, List.length_nil] at hcovers ⊢ <;>
    omega

/-- **An address that passes is under no special-purpose prefix.** -/
theorem publicIp_special {ip : IpAddr} (h : publicIp ip = true) : ¬Special ip := by
  cases ip with
  | v4 v =>
      intro hspecial
      have hfalse := (publicV4_eq_false_iff v).mpr (Or.inl (reserved_of_special v hspecial))
      rw [show publicIp (.v4 v) = publicV4 v from rfl, hfalse] at h
      cases h
  | v6 v =>
      intro hspecial
      simp only [publicIp] at h
      split at h
      · cases h
      · simp only [Bool.and_eq_true, beq_iff_eq, bne_iff_ne, Bool.not_eq_true',
          Bool.and_eq_false_iff, Bool.or_eq_false_iff, decide_eq_false_iff_not] at h
        obtain ⟨⟨⟨⟨hmask, h2001⟩, h2002⟩, h3fff⟩, h2620⟩ := h
        have hwithin := special_within ((masked_iff v).mp hmask) hspecial
        grind

/-! ## 3. The gate -/

/-- The answer of the resolver passes: few addresses, all of them public and at the port. -/
def safeAddrs (port : Nat) (addrs : List SocketAddr) : Prop :=
  addrs ≠ [] ∧ addrs.length ≤ 32 ∧
    ∀ addr ∈ addrs, addr.port = port ∧ publicIp addr.ip = true

instance (port : Nat) (addrs : List SocketAddr) : Decidable (safeAddrs port addrs) := by
  unfold safeAddrs
  infer_instance

/-- What the transport is given: the URL, its host and the addresses to connect to. -/
abbrev Handed : Type := ParsedUrl × String × List SocketAddr

section Gate

variable (C : Crates)

/-- The rest of the timed part, once the server has answered. -/
def readAnswer (clientId : String) (fetched : Except CimdError ResponseDocument) :
    Except CimdError (ClientMetadataDocument × Option Nat) := do
  let response ← fetched
  if response.status ≠ 200 then .error .fetchFailed
  else
    let contentType ← orInvalid response.contentType
    if ¬isJsonMime contentType then .error .invalidDocument
    else if response.body.length > maxDocumentBytes then .error .invalidDocument
    else
      let document ← validateDocument C clientId response.body
      .ok (document, cacheTtl response.cacheControl response.age)

/-- **The timed part of a fetch with its transport**: what the transport is handed, and what
    comes of it. -/
def timedFetch (clientId : String) (destination : ParsedUrl × String × Nat)
    (resolved : Except CimdError (List SocketAddr))
    (transport : Handed → Except CimdError ResponseDocument) :
    List Handed × Except CimdError (ClientMetadataDocument × Option Nat) :=
  match resolved with
  | .error e => ([], .error e)
  | .ok addrs =>
      if addrs.isEmpty ∨ addrs.length > 32 ∨
          addrs.any fun addr => addr.port != destination.2.2 || !publicIp addr.ip then
        ([], .error .unsafeDestination)
      else
        let handed := (destination.1, destination.2.1, addrs)
        ([handed], readAnswer C clientId (transport handed))

variable {C} {clientId : String} {destination : ParsedUrl × String × Nat}
  {resolved : Except CimdError (List SocketAddr)} {addrs : List SocketAddr}
  {transport : Handed → Except CimdError ResponseDocument}

/-- The condition of the source is that the answer does not pass. -/
theorem refused_iff {port : Nat} :
    (addrs.isEmpty ∨ addrs.length > 32 ∨
      addrs.any fun addr => addr.port != port || !publicIp addr.ip) ↔ ¬safeAddrs port addrs := by
  simp only [safeAddrs, List.isEmpty_iff, List.any_eq_true, Bool.or_eq_true, bne_iff_ne,
    Bool.not_eq_true', not_and_or, not_forall, ne_eq, not_not, Bool.not_eq_true, Nat.not_le,
    exists_prop]

theorem timedFetch_safe (h : safeAddrs destination.2.2 addrs) :
    timedFetch C clientId destination (.ok addrs) transport =
      ([(destination.1, destination.2.1, addrs)],
        readAnswer C clientId (transport (destination.1, destination.2.1, addrs))) := by
  simp only [timedFetch]
  rw [if_neg fun hrefused => refused_iff.mp hrefused h]

theorem timedFetch_refused (h : ¬safeAddrs destination.2.2 addrs) :
    timedFetch C clientId destination (.ok addrs) transport = ([], .error .unsafeDestination) := by
  simp only [timedFetch]
  rw [if_pos (refused_iff.mpr h)]

/-- What comes of it is what the fetcher reads. -/
theorem timedFetch_read (fetched : Except CimdError ResponseDocument)
    (h : ∀ addrs, resolved = .ok addrs →
      transport (destination.1, destination.2.1, addrs) = fetched) :
    (timedFetch C clientId destination resolved transport).2 =
      readResponse C clientId destination.2.2 resolved fetched := by
  cases resolved with
  | error e => rfl
  | ok addrs =>
      rw [← h addrs rfl]
      simp only [timedFetch, readResponse, readAnswer, bind, Except.bind]
      split <;> rfl

/-- **The transport is handed nothing else than an answer that passes.** -/
theorem handed_iff {handed : Handed} :
    handed ∈ (timedFetch C clientId destination resolved transport).1 ↔
      ∃ addrs, resolved = .ok addrs ∧ safeAddrs destination.2.2 addrs ∧
        handed = (destination.1, destination.2.1, addrs) := by
  cases resolved with
  | error e =>
      constructor
      · intro h
        cases h
      · rintro ⟨_, h, _⟩
        cases h
  | ok addrs =>
      by_cases hsafe : safeAddrs destination.2.2 addrs
      · rw [timedFetch_safe hsafe]
        constructor
        · intro h
          exact ⟨addrs, rfl, hsafe, List.mem_singleton.mp h⟩
        · rintro ⟨_, he, _, rfl⟩
          cases he
          exact List.mem_singleton_self _
      · rw [timedFetch_refused hsafe]
        constructor
        · intro h
          cases h
        · rintro ⟨_, he, h, _⟩
          cases he
          exact absurd h hsafe

/-- An answer with a special address does not pass, wherever the address stands. -/
theorem not_safe_of_special {port : Nat} {addr : SocketAddr} (hmem : addr ∈ addrs)
    (h : Special addr.ip) : ¬safeAddrs port addrs := by
  rintro ⟨_, _, hall⟩
  exact publicIp_special (hall addr hmem).2 h

end Gate

end Cimd

/-! ## 4. A refused call -/

namespace Fetcher

open Relation

variable {C : Crates} {F F' G : Fetcher} {i : Nat} {id : String} {a b : Phase}
  {es : List FetchEvent}

/-- A step in which the other calls stay where they are. -/
def Alone (C : Crates) (i : Nat) (F F' : Fetcher) : Prop :=
  Step C F F' ∧ ∀ j, j ≠ i → F'.calls[j]? = F.calls[j]?

/-- **A call writes the cache only on its way to a document.** -/
theorem Turn.cache_cases (h : Turn C F F' i id a b es) :
    F'.cache = F.cache ∨ ∃ s, a = .publishing s ∧ b = .leaving (.fetched s) := by
  cases h.acts with
  | waits _ hcache | gives _ _ hcache | lands hcache | starts hcache
  | answers _ _ _ _ _ _ hcache | returns _ hcache => exact Or.inl hcache
  | publishes => exact Or.inr ⟨_, rfl, rfl⟩

/-- A call that stands elsewhere after a step has made the step. -/
theorem own_step (h : Step C F F') (ha : F.At i id a) (hb : F'.At i id b) (hne : a ≠ b) :
    ∃ es, Turn C F F' i id a b es := by
  rcases step_cases h with ⟨later, _, rfl⟩ | ⟨id', rfl⟩ | ⟨j, id', a', b', es, hturn⟩
  · exact absurd (at_unique ha hb).2 hne
  · rcases (begun_at rfl).mp hb with hb | ⟨hlt, _⟩
    · exact absurd (at_unique ha hb).2 hne
    · exact absurd (at_lt ha) (hlt ▸ Nat.lt_irrefl _)
  · rcases hturn.at_cases hb with ⟨rfl, rfl, rfl⟩ | ⟨_, hb⟩
    · obtain ⟨_, rfl⟩ := at_unique ha hturn.stands
      exact ⟨es, hturn⟩
    · exact absurd (at_unique ha hb).2 hne

/-- Every call gets on, whatever is done. -/
theorem step_onto (h : Step C F F') (ha : F.At i id a) : ∃ b, F'.At i id b ∧ Onto a b := by
  rcases step_cases h with ⟨later, _, rfl⟩ | ⟨id', rfl⟩ | ⟨j, id', a', b', es, hturn⟩
  · exact ⟨a, ha, .refl a⟩
  · exact ⟨a, (begun_at rfl).mpr (Or.inl ha), .refl a⟩
  · exact hturn.at_onto ha

/-- What a call came to stays. -/
theorem result_kept {r : FetchResult} (h : ReflTransGen (Step C) F F') (ha : F.At i id a)
    (hr : a.result = some r) : ∃ b, F'.At i id b ∧ b.result = some r := by
  induction h with
  | refl => exact ⟨a, ha, hr⟩
  | tail _ hstep ih =>
      obtain ⟨b, hb, hresult⟩ := ih
      obtain ⟨b', hb', honto⟩ := step_onto hstep hb
      exact ⟨b', hb', honto.result r hresult⟩

/-- **A step of a call that fails in the end leaves the cache**, and of the reservations takes
    or gives up its own only. -/
theorem failing_step {e : CimdError} (h : Step C F F') (ha : F.At i id a) (hb : F'.At i id b)
    (hne : a ≠ b) (hrun : ReflTransGen (Step C) F' G) (hend : G.At i id (.ended (.failed e))) :
    F'.cache = F.cache ∧ (F'.inFlight = F.inFlight ∨
      (id ∉ F.inFlight ∧ F'.inFlight = insert id F.inFlight) ∨
      F'.inFlight = F.inFlight.erase id) := by
  obtain ⟨es, hturn⟩ := own_step h ha hb hne
  constructor
  · rcases hturn.cache_cases with hcache | ⟨s, _, hs⟩
    · exact hcache
    · obtain ⟨c, hc, hresult⟩ := result_kept hrun hb (congrArg Phase.result hs)
      obtain ⟨_, rfl⟩ := at_unique hc hend
      cases hresult
  · cases hflies : a.flies <;> cases hflies' : b.flies
    · exact Or.inl (hturn.same (hflies'.trans hflies.symm))
    · exact Or.inr (Or.inl (hturn.taken hflies hflies'))
    · exact Or.inr (Or.inr (hturn.given hflies hflies'))
    · exact Or.inl (hturn.same (hflies'.trans hflies.symm))

/-- Where a call stands that was alone since `F`, and what it has changed. -/
structure Lonely (F F' : Fetcher) (i : Nat) (id : String) (p : Phase) : Prop where
  stands : F'.At i id p
  cache : F'.cache = F.cache ∨ ∃ s, p.result = some (.fetched s)
  takes : p.flies = true → id ∉ F.inFlight ∧ F'.inFlight = insert id F.inFlight
  gives : p.flies = false → F'.inFlight = F.inFlight

theorem Lonely.turn (h : Lonely F F' i id a) (hturn : Turn C F' G i id a b es) :
    Lonely F G i id b where
  stands := hturn.at_self
  cache := by
    rcases hturn.cache_cases with hcache | ⟨s, _, hs⟩
    · rcases h.cache with hsame | ⟨s, hs⟩
      · exact Or.inl (hcache.trans hsame)
      · exact Or.inr ⟨s, hturn.onto.result _ hs⟩
    · exact Or.inr ⟨s, congrArg Phase.result hs⟩
  takes hb := by
    cases ha : a.flies
    · obtain ⟨hfree, hinsert⟩ := hturn.taken ha hb
      rw [h.gives ha] at hfree hinsert
      exact ⟨hfree, hinsert⟩
    · obtain ⟨hfree, hinsert⟩ := h.takes ha
      exact ⟨hfree, (hturn.same (hb.trans ha.symm)).trans hinsert⟩
  gives hb := by
    cases ha : a.flies
    · exact (hturn.same (hb.trans ha.symm)).trans (h.gives ha)
    · obtain ⟨hfree, hinsert⟩ := h.takes ha
      rw [hturn.given ha hb, hinsert, Finset.erase_insert hfree]

theorem Lonely.step (h : Lonely F F' i id a) (hstep : Alone C i F' G) :
    ∃ b, Lonely F G i id b := by
  obtain ⟨hstep, halone⟩ := hstep
  rcases step_cases hstep with ⟨later, _, rfl⟩ | ⟨id', rfl⟩ | ⟨j, id', a', b', es, hturn⟩
  · exact ⟨a, h.stands, h.cache, h.takes, h.gives⟩
  · exact ⟨a, (begun_at rfl).mpr (Or.inl h.stands), h.cache, h.takes, h.gives⟩
  · by_cases hj : j = i
    · subst hj
      obtain ⟨rfl, rfl⟩ := at_unique h.stands hturn.stands
      exact ⟨b', h.turn hturn⟩
    · -- the other call stands where it stood, and so does all that is shared
      have hsame := halone j hj
      rw [hturn.stands, show G.calls[j]? = _ from hturn.at_self] at hsame
      obtain rfl : b' = a' := congrArg FetchCall.phase (Option.some.inj hsame)
      have hcache : G.cache = F'.cache := by
        rcases hturn.cache_cases with hcache | ⟨s, rfl, hs⟩
        · exact hcache
        · cases hs
      have hinFlight : G.inFlight = F'.inFlight := hturn.same rfl
      refine ⟨a, (hturn.at_ne (Ne.symm hj)).mpr h.stands, ?_, ?_, ?_⟩
      · rw [hcache]
        exact h.cache
      · rw [hinFlight]
        exact h.takes
      · rw [hinFlight]
        exact h.gives

theorem Lonely.run (h : Lonely F F' i id a) (hrun : ReflTransGen (Alone C i) F' G) :
    ∃ b, Lonely F G i id b := by
  induction hrun with
  | refl => exact ⟨a, h⟩
  | tail _ hstep ih =>
      obtain ⟨b, hb⟩ := ih
      exact hb.step hstep

/-- A call that holds no reservation has changed nothing yet. -/
theorem Lonely.start (ha : F.At i id a) (hflies : a.flies = false) : Lonely F F i id a where
  stands := ha
  cache := Or.inl rfl
  takes h := absurd (h.symm.trans hflies) nofun
  gives _ := rfl

theorem alone_steps (h : ReflTransGen (Alone C i) F F') : ReflTransGen (Step C) F F' :=
  ReflTransGen.mono (fun _ _ hstep => hstep.1) _ _ h

/-- **A call that was alone and ended without a document has left cache and reservations as
    they were.** -/
theorem alone_ended {r : FetchResult} (ha : F.At i id .called)
    (hrun : ReflTransGen (Alone C i) F G) (hend : G.At i id (.ended r)) (hr : r.snapshot = none) :
    G.cache = F.cache ∧ G.inFlight = F.inFlight := by
  obtain ⟨b, hb⟩ := (Lonely.start ha rfl).run hrun
  obtain ⟨_, rfl⟩ := at_unique hb.stands hend
  refine ⟨?_, hb.gives rfl⟩
  rcases hb.cache with hcache | ⟨s, hs⟩
  · exact hcache
  · obtain rfl := Option.some.inj hs
    cases hr

end Fetcher

/-! ## 5. Results -/

namespace Cimd

open Fetcher Relation

variable (C : Crates)

/-- A call whose answer does not pass: its fetch ends there, and nothing is left of it. -/
theorem refused_call {F₀ F₁ : Fetcher} {i : Nat} {id host : String} {since : Instant}
    {u : ParsedUrl} {port : Nat} {addrs : List SocketAddr} (hcalled : F₀.At i id .called)
    (hrun : ReflTransGen (Alone C i) F₀ F₁) (hfetching : F₁.At i id (.fetching since))
    (hu : validateClientId C id = .ok (u, host, port)) (haddrs : ¬safeAddrs port addrs) :
    (∀ fetched, readResponse C id port (.ok addrs) fetched = .error .unsafeDestination) ∧
    Alone C i F₁ (F₁.move i id (.leaving (.failed .unsafeDestination))) ∧
    ∀ F₂ r, ReflTransGen (Alone C i) (F₁.move i id (.leaving (.failed .unsafeDestination))) F₂ →
      F₂.At i id (.ended r) →
      r = .failed .unsafeDestination ∧ F₂.cache = F₀.cache ∧ F₂.inFlight = F₀.inFlight := by
  have hread : ∀ fetched, readResponse C id port (.ok addrs) fetched =
      .error .unsafeDestination := by
    intro fetched
    have hrefused : timedFetch C id (u, host, port) (.ok addrs) (fun _ => fetched) =
        ([], .error .unsafeDestination) := timedFetch_refused haddrs
    have hsame : (timedFetch C id (u, host, port) (.ok addrs) fun _ => fetched).2 =
        readResponse C id port (.ok addrs) fetched := timedFetch_read fetched fun _ _ => rfl
    rw [← hsame, hrefused]
  have hstep : Alone C i F₁ (F₁.move i id (.leaving (.failed .unsafeDestination))) := by
    refine ⟨.fail F₁ i id since u host port _ _ _ hfetching hu (hread (.error .fetchFailed)), ?_⟩
    intro j hj
    exact List.getElem?_set_ne hj.symm
  refine ⟨hread, hstep, fun F₂ r hrun₂ hend => ?_⟩
  have hleaving : Fetcher.At (F₁.move i id (.leaving (.failed .unsafeDestination))) i id
      (.leaving (.failed .unsafeDestination)) := by
    exact List.getElem?_set_self (at_lt hfetching)
  obtain ⟨b, hb, hresult⟩ := result_kept (alone_steps hrun₂) hleaving rfl
  obtain ⟨_, rfl⟩ := at_unique hb hend
  obtain rfl := Option.some.inj hresult
  exact ⟨rfl, alone_ended hcalled ((hrun.tail hstep).trans hrun₂) hend rfl⟩

/-- **The gate of a fetch**: the transport is handed an answer of 1 to 32 addresses, all of them
    at the port of the client id and none of them special; a special address anywhere in the
    answer turns it away before there is a connection; a call that is turned away leaves the
    cache and the reservations as they were, and among other calls it never touches more than
    its own reservation. -/
theorem handed_public :
    (∀ id u host port resolved transport v h addrs,
      validateClientId C id = .ok (u, host, port) →
      (v, h, addrs) ∈ (timedFetch C id (u, host, port) resolved transport).1 →
      v = u ∧ h = host ∧ resolved = .ok addrs ∧ 1 ≤ addrs.length ∧ addrs.length ≤ 32 ∧
        ∀ addr ∈ addrs, addr.port = port ∧ ¬Special addr.ip) ∧
    (∀ id u host port transport addr before after,
      validateClientId C id = .ok (u, host, port) → Special addr.ip →
      timedFetch C id (u, host, port) (.ok (before ++ addr :: after)) transport =
        ([], .error .unsafeDestination)) ∧
    (∀ F₀ F₁ i id since u host port addrs, Fetcher.At F₀ i id .called →
      ReflTransGen (Alone C i) F₀ F₁ → F₁.At i id (.fetching since) →
      validateClientId C id = .ok (u, host, port) →
      (∀ transport, timedFetch C id (u, host, port) (.ok addrs) transport =
        ([], .error .unsafeDestination)) →
      Alone C i F₁ (F₁.move i id (.leaving (.failed .unsafeDestination))) ∧
      ∀ F₂ r, ReflTransGen (Alone C i) (F₁.move i id (.leaving (.failed .unsafeDestination))) F₂ →
        F₂.At i id (.ended r) →
        r = .failed .unsafeDestination ∧ F₂.cache = F₀.cache ∧ F₂.inFlight = F₀.inFlight) ∧
    ∀ F F' G i id a b e, Fetcher.Step C F F' → F.At i id a → F'.At i id b → a ≠ b →
      ReflTransGen (Fetcher.Step C) F' G → G.At i id (.ended (.failed e)) →
      F'.cache = F.cache ∧ (F'.inFlight = F.inFlight ∨
        (id ∉ F.inFlight ∧ F'.inFlight = insert id F.inFlight) ∨
        F'.inFlight = F.inFlight.erase id) := by
  refine ⟨?_, ?_, ?_, ?_⟩
  · intro id u host port resolved transport v h addrs _ hmem
    obtain ⟨addrs', hresolved, ⟨hne, hlength, hall⟩, he⟩ := handed_iff.mp hmem
    cases he
    exact ⟨rfl, rfl, hresolved, List.length_pos_iff.mpr hne, hlength, fun addr haddr =>
      ⟨(hall addr haddr).1, publicIp_special (hall addr haddr).2⟩⟩
  · intro id u host port transport addr before after _ hspecial
    have hmem : addr ∈ before ++ addr :: after :=
      List.mem_append_right before (List.mem_cons_self ..)
    exact timedFetch_refused (not_safe_of_special hmem hspecial)
  · intro F₀ F₁ i id since u host port addrs hcalled hrun hfetching hu hrefused
    have hnot : ¬safeAddrs port addrs := by
      intro hsafe
      have hhanded := hrefused fun _ => .error .fetchFailed
      rw [timedFetch_safe hsafe] at hhanded
      cases hhanded
    exact (refused_call C hcalled hrun hfetching hu hnot).2
  · intro F F' G i id a b e hstep ha hb hne hrun hend
    exact failing_step hstep ha hb hne hrun hend

/-- A fetcher with one call. -/
def Sample.asked : Fetcher :=
  { (Fetcher.new 0).record (.began 0 Sample.metadataId) with
    calls := [⟨Sample.metadataId, .called⟩] }

/-- It has a permit. -/
def Sample.permitted : Fetcher :=
  { (Sample.asked.move 0 Sample.metadataId .missed).move 0 Sample.metadataId .permitted with
    permits := 7 }

/-- And a reservation. -/
def Sample.reserved : Fetcher :=
  { Sample.permitted.move 0 Sample.metadataId .reserved with
    inFlight := insert Sample.metadataId Sample.permitted.inFlight }

/-- The transport is handed a public answer; a loopback address among others is turned away, and
    the call ends with cache and reservations as it found them; so does one whose reservation was
    made before another call began. -/
theorem handed_public_resolved :
    (1 ≤ [(⟨.v4 0x08080808#32, 443⟩ : SocketAddr)].length ∧
      ∀ addr ∈ [(⟨.v4 0x08080808#32, 443⟩ : SocketAddr)], ¬Special addr.ip) ∧
    timedFetch Sample.crates Sample.metadataId
        (Sample.clientUrl Sample.metadataId "/metadata.json", "client.example.org", 443)
        (.ok [⟨.v4 0x08080808#32, 443⟩, ⟨.v6 (groups [0, 0, 0, 0, 0, 0, 0, 1]), 443⟩])
        (fun _ => .ok (Sample.response "max-age=60")) = ([], .error .unsafeDestination) ∧
    (∃ F, ReflTransGen (Alone Sample.crates 0) Sample.asked F ∧ F.cache = ∅ ∧ F.inFlight = ∅ ∧
      F.At 0 Sample.metadataId (.ended (.failed .unsafeDestination))) ∧
    ∃ F F' G, Fetcher.Step Sample.crates F F' ∧ ReflTransGen (Fetcher.Step Sample.crates) F' G ∧
      G.At 0 Sample.metadataId (.ended (.failed .unsafeDestination)) ∧
      G.At 1 Sample.metadataId .missed ∧ F'.inFlight = insert Sample.metadataId F.inFlight ∧
      F'.cache = F.cache ∧ (F'.inFlight = F.inFlight ∨
        (Sample.metadataId ∉ F.inFlight ∧
          F'.inFlight = insert Sample.metadataId F.inFlight) ∨
        F'.inFlight = F.inFlight.erase Sample.metadataId) := by
  obtain ⟨hhanded, hinserted, hcall, hstep⟩ := handed_public Sample.crates
  refine ⟨?_, ?_, ?_⟩
  · have h := hhanded Sample.metadataId _ _ _ Sample.resolved
      (fun _ => .ok (Sample.response "max-age=60")) _ _ _ Sample.valid_metadataId
      (handed_iff.mpr ⟨_, rfl, by decide, rfl⟩)
    exact ⟨h.2.2.2.1, fun addr haddr => (h.2.2.2.2.2 addr haddr).2⟩
  · exact hinserted _ _ _ _ _ _ [_] [] Sample.valid_metadataId (by decide)
  · -- the answer names a private address only
    have halone : ∀ {calls : List FetchCall} {x : FetchCall} j, j ≠ 0 →
        (calls.set 0 x)[j]? = calls[j]? := fun j hj => List.getElem?_set_ne hj.symm
    have h₁ := (ReflTransGen.refl (r := Alone Sample.crates 0) (a := Sample.asked)).tail
      ⟨.miss _ 0 _ _ rfl Sample.valid_metadataId nofun, halone⟩
    have h₂ := h₁.tail ⟨.acquire _ 0 _ 7 rfl rfl, halone⟩
    have h₃ := h₂.tail ⟨.reserve _ 0 _ rfl (Finset.notMem_empty _), halone⟩
    have h₄ := h₃.tail ⟨.start _ 0 _ rfl, halone⟩
    have hrefused := hcall Sample.asked _ 0 _ _ _ _ _ [⟨.v4 (dotted 10 1 2 3), 443⟩] rfl h₄ rfl
      Sample.valid_metadataId fun transport => timedFetch_refused (by decide)
    have h₅ := (h₄.tail hrefused.1).tail ⟨.land _ 0 _ _ rfl, halone⟩
    have h₆ := h₅.tail ⟨.leave _ 0 _ _ rfl, halone⟩
    obtain ⟨_, hcache, hinFlight⟩ := hrefused.2 _ _
      (.tail (.single ⟨.land _ 0 _ _ rfl, halone⟩) ⟨.leave _ 0 _ _ rfl, halone⟩) rfl
    refine ⟨⟨_, h₆, hcache, hinFlight, rfl⟩, ?_⟩
    -- another call begins when the first one is about to leave
    have hreserve : Fetcher.Step Sample.crates Sample.permitted Sample.reserved :=
      .reserve _ 0 _ rfl (Finset.notMem_empty _)
    have hstart : Fetcher.Step Sample.crates Sample.reserved _ := .start _ 0 Sample.metadataId rfl
    have hrun := (((((ReflTransGen.single hstart).tail hrefused.1.1).tail
      (.begin _ Sample.metadataId)).tail (.miss _ 1 _ _ rfl Sample.valid_metadataId nofun)).tail
        (.land _ 0 _ _ rfl)).tail (.leave _ 0 _ _ rfl)
    have hkept := hstep _ _ _ 0 _ _ _ _ hreserve rfl rfl nofun hrun rfl
    exact ⟨_, _, _, hreserve, hrun, rfl, rfl, rfl, hkept⟩

/-! ## 6. Where the gate is too narrow -/

/-- An address of the block: it is under none of the reserved prefixes, and refused. -/
theorem public_host_refused :
    publicV4 (dotted 192 2 0 1) = false ∧ (¬∃ p ∈ reservedV4, p.Covers (dotted 192 2 0 1)) ∧
      timedFetch Sample.crates Sample.metadataId
        (Sample.clientUrl Sample.metadataId "/metadata.json", "client.example.org", 443)
        (.ok [⟨.v4 (dotted 192 2 0 1), 443⟩]) (fun _ => .ok (Sample.response "max-age=60")) =
        ([], .error .unsafeDestination) := by
  refine ⟨by decide, by decide, timedFetch_refused (by decide)⟩

/-- An answer of IPv4 addresses, as the resolver delivers them for a port. -/
def answerV4 (port : Nat) (vs : List (BitVec 32)) : List SocketAddr :=
  vs.map fun v => ⟨.v4 v, port⟩

theorem safeAddrs_answerV4 {port : Nat} {vs : List (BitVec 32)} (hne : vs ≠ [])
    (hlength : vs.length ≤ 32) :
    safeAddrs port (answerV4 port vs) ↔ ∀ v ∈ vs, publicV4 v = true := by
  simp [safeAddrs, answerV4, hne, hlength, publicIp]

/-- **The test of IPv4 addresses refuses special-purpose space and one public block**: what it
    refuses is reserved exactly outside the block, and an answer of other IPv4 addresses passes
    exactly if none of them is in the block. -/
theorem refuses_reserved_iff :
    (∀ v, (publicV4 v = false → ∃ p ∈ reservedV4, p.Covers v) ↔ ¬publicBlock.Covers v) ∧
    ∀ id destination transport vs, vs ≠ [] → vs.length ≤ 32 →
      (∀ v ∈ vs, ¬∃ p ∈ reservedV4, p.Covers v) →
      ((timedFetch C id destination (.ok (answerV4 destination.2.2 vs)) transport).1 ≠ [] ↔
        ∀ v ∈ vs, ¬publicBlock.Covers v) := by
  have hdisjoint : ∀ v, publicBlock.Covers v → ¬∃ p ∈ reservedV4, p.Covers v := by
    rintro v hblock ⟨p, hp, hv⟩
    have hlong : ∀ p ∈ reservedV4, ¬p.Covers publicBlock.base := by decide
    have hshort : ∀ p ∈ reservedV4, ¬publicBlock.Covers p.base := by decide
    rcases Nat.le_total p.length publicBlock.length with hle | hle
    · exact hlong p hp (hv.nested hblock hle)
    · exact hshort p hp (hblock.nested hv hle)
  have hpass : ∀ v, (¬∃ p ∈ reservedV4, p.Covers v) →
      (publicV4 v = true ↔ ¬publicBlock.Covers v) := by
    intro v hv
    rw [← not_iff_not, not_not, Bool.not_eq_true, publicV4_eq_false_iff, or_iff_right hv]
  constructor
  · intro v
    rw [publicV4_eq_false_iff]
    constructor
    · intro h hblock
      exact hdisjoint v hblock (h (Or.inr hblock))
    · intro hblock h
      exact h.resolve_right hblock
  · intro id destination transport vs hne hlength hvs
    have hsafe : safeAddrs destination.2.2 (answerV4 destination.2.2 vs) ↔
        ∀ v ∈ vs, ¬publicBlock.Covers v := by
      rw [safeAddrs_answerV4 hne hlength]
      exact forall₂_congr fun v hv => hpass v (hvs v hv)
    by_cases h : safeAddrs destination.2.2 (answerV4 destination.2.2 vs)
    · rw [timedFetch_safe h]
      exact iff_of_true nofun (hsafe.mp h)
    · rw [timedFetch_refused h]
      exact iff_of_false (fun hhanded => hhanded rfl) fun hall => h (hsafe.mpr hall)

/-- An answer of one public host passes. -/
theorem refuses_reserved_iff_resolved :
    (timedFetch Sample.crates Sample.metadataId
      (Sample.clientUrl Sample.metadataId "/metadata.json", "client.example.org", 443)
      (.ok (answerV4 443 [dotted 192 1 0 1])) (fun _ => .ok (Sample.response "max-age=60"))).1 ≠
      [] := by
  have hpublic : ¬∃ p ∈ reservedV4, p.Covers (dotted 192 1 0 1) := by decide
  have houtside : ¬publicBlock.Covers (dotted 192 1 0 1) := by decide
  exact ((refuses_reserved_iff _).2 _ _ _ [_] (List.cons_ne_nil _ _) (by decide)
    (List.forall_mem_singleton.mpr hpublic)).mpr (List.forall_mem_singleton.mpr houtside)

end Cimd

end Eri
