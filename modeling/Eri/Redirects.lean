/-
  File:      Eri/Redirects.lean
  Subject:   Which redirect URI a registered one stands for (src/oauth.rs).

  A registered redirect matches itself, and a native one every literal loopback URL that differs
  in its port only (the port an app listens on is not known when it is declared). The code
  splits such URLs by hand.

  * `PortPart`, `SuffixPart`, `Loopback` -- the grammar of a literal loopback URL;
  * `loopbackParts_iff` -- the splitter reads exactly this grammar;
  * **`redirect_matching`** -- byte for byte, but for the port of a literal loopback URL.
-/
import Eri.Registry

namespace Eri

/-! ## 1. The grammar -/

/-- The hosts of a literal loopback URL. -/
def loopbackLiterals : List String := ["127.0.0.1", "[::1]"]

/-- Where an authority ends. -/
def endsAuthority (c : Char) : Bool := c == '/' || c == '?' || c == '#'

/-- Nothing, or a colon and the digits of a port. -/
def PortPart (port : List Char) : Prop :=
  port = [] ∨ ∃ digits, port = ':' :: digits ∧ digits ≠ [] ∧ digits.all Char.isDigit = true ∧
    1 ≤ decimal digits ∧ decimal digits ≤ 65535

/-- Nothing, or a path or query. -/
def SuffixPart (suffix : List Char) : Prop :=
  suffix = [] ∨ suffix.head? = some '/' ∨ suffix.head? = some '?'

/-- **A literal loopback URL** with its host, port and suffix. -/
structure Loopback (raw host : String) (port suffix : List Char) : Prop where
  literal : host ∈ loopbackLiterals
  numbered : PortPart port
  bounded : SuffixPart suffix
  text : raw.toList = "http://".toList ++ (host.toList ++ port ++ suffix)

theorem endsAuthority_iff {c : Char} : endsAuthority c = true ↔ c = '/' ∨ c = '?' ∨ c = '#' := by
  simp [endsAuthority, or_assoc]

theorem validPort_iff {digits : List Char} :
    validPort digits = true ↔ digits ≠ [] ∧ digits.all Char.isDigit = true ∧
      1 ≤ decimal digits ∧ decimal digits ≤ 65535 := by
  have hpos : 1 ≤ decimal digits ↔ decimal digits ≠ 0 := Nat.one_le_iff_ne_zero
  simp only [validPort, Bool.and_eq_true, Bool.not_eq_true', List.isEmpty_eq_false_iff,
    decide_eq_true_eq, bne_iff_ne, hpos]
  tauto

/-- No digit ends an authority. -/
theorem endsAuthority_digit {c : Char} (h : c.isDigit = true) : endsAuthority c = false := by
  refine Bool.eq_false_iff.mpr fun hc => ?_
  rcases endsAuthority_iff.mp hc with rfl | rfl | rfl <;> exact absurd h (by decide)

theorem PortPart.inside {port : List Char} (h : PortPart port) :
    ∀ c ∈ port, endsAuthority c = false := by
  intro c hc
  rcases h with rfl | ⟨digits, rfl, _, hdigits, _⟩
  · cases hc
  · rcases List.mem_cons.mp hc with rfl | hc
    · decide
    · exact endsAuthority_digit (List.all_eq_true.mp hdigits c hc)

theorem literal_inside {host : String} (h : host ∈ loopbackLiterals) :
    ∀ c ∈ host.toList, endsAuthority c = false := by
  have hall : host.toList.all (fun c => !endsAuthority c) = true := by
    rcases List.mem_pair.mp h with rfl | rfl <;> decide
  intro c hc
  simpa using List.all_eq_true.mp hall c hc

theorem SuffixPart.outside {suffix : List Char} (h : SuffixPart suffix) :
    suffix = [] ∨ ∃ c, suffix.head? = some c ∧ endsAuthority c = true := by
  rcases h with rfl | h | h
  · exact Or.inl rfl
  · exact Or.inr ⟨_, h, by decide⟩
  · exact Or.inr ⟨_, h, by decide⟩

/-! ## 2. The splitter -/

theorem stripPrefix_eq_some {p : String} {s t : List Char} :
    stripPrefix p s = some t ↔ s = p.toList ++ t := by
  unfold stripPrefix
  constructor
  · intro h
    split at h
    · rename_i hprefix
      obtain ⟨rest, rfl⟩ := List.isPrefixOf_iff_prefix.mp hprefix
      simpa using h
    · cases h
  · rintro rfl
    simp [List.isPrefixOf_iff_prefix]

/-- The first of two parts is as long as its predicate holds. -/
theorem span_of_head {p : Char → Bool} {l s : List Char} (hl : ∀ c ∈ l, p c = true)
    (hs : s = [] ∨ ∃ c, s.head? = some c ∧ p c = false) : (l ++ s).span p = (l, s) := by
  have hdrop : s.dropWhile p = s ∧ s.takeWhile p = [] := by
    rcases hs with rfl | ⟨c, hc, hp⟩
    · exact ⟨rfl, rfl⟩
    · obtain ⟨rest, rfl⟩ : ∃ rest, s = c :: rest := by
        cases s with
        | nil => cases hc
        | cons d rest => exact ⟨rest, by rw [Option.some.inj hc]⟩
      simp [hp]
  rw [List.span_eq_takeWhile_dropWhile, List.takeWhile_append_of_pos hl,
    List.dropWhile_append_of_pos hl, hdrop.1, hdrop.2, List.append_nil]

/-- An authority and what follows it are what they were put together from. -/
theorem span_authority {authority suffix : List Char}
    (ha : ∀ c ∈ authority, endsAuthority c = false)
    (hs : suffix = [] ∨ ∃ c, suffix.head? = some c ∧ endsAuthority c = true) :
    (authority ++ suffix).span (fun c => !(c == '/' || c == '?' || c == '#')) =
      (authority, suffix) := by
  refine span_of_head (fun c hc => ?_) (hs.imp_right fun ⟨c, hc, hend⟩ => ⟨c, hc, ?_⟩)
  · exact (Bool.not_eq_true' _).mpr (ha c hc)
  · exact (Bool.not_eq_false' (b := endsAuthority c)).mpr hend

/-- What an authority is followed by, is empty or begins with what ended it. -/
theorem dropWhile_outside {p : Char → Bool} (l : List Char) :
    l.dropWhile p = [] ∨ ∃ c, (l.dropWhile p).head? = some c ∧ p c = false := by
  cases h : l.dropWhile p with
  | nil => exact Or.inl rfl
  | cons c rest =>
      have hne : l.dropWhile p ≠ [] := by simp [h]
      have hhead : p ((l.dropWhile p).head hne) = false := List.head_dropWhile_not p hne
      exact Or.inr ⟨c, rfl, by simpa [h] using hhead⟩

/-- The rest of an authority, read as a port. -/
theorem read_port {host : String} {port suffix : List Char} {r : String × List Char} :
    (if port = [] then some (host, suffix)
      else (stripPrefix ":" port).bind fun digits =>
        if validPort digits = true then some (host, suffix) else none) = some r ↔
      PortPart port ∧ r = (host, suffix) := by
  by_cases hport : port = []
  · rw [if_pos hport, Option.some.injEq]
    exact ⟨fun h => ⟨Or.inl hport, h.symm⟩, fun h => h.2.symm⟩
  · rw [if_neg hport, Option.bind_eq_some_iff]
    constructor
    · rintro ⟨digits, hdigits, h⟩
      have hcolon : port = ':' :: digits := stripPrefix_eq_some.mp hdigits
      split at h
      · rename_i hvalid
        exact ⟨Or.inr ⟨digits, hcolon, validPort_iff.mp hvalid⟩, (Option.some.inj h).symm⟩
      · cases h
    · rintro ⟨hpart, rfl⟩
      rcases hpart with hnone | ⟨digits, hcolon, hvalid⟩
      · exact absurd hnone hport
      · exact ⟨digits, stripPrefix_eq_some.mpr hcolon, if_pos (validPort_iff.mpr hvalid)⟩

/-- **The splitter reads exactly the literal loopback URLs.** -/
theorem loopbackParts_iff {raw host : String} {suffix : List Char} :
    loopbackParts raw = some (host, suffix) ↔ ∃ port, Loopback raw host port suffix := by
  constructor
  · intro h
    simp only [loopbackParts, Option.bind_eq_bind, Option.bind_eq_some_iff] at h
    obtain ⟨rest, hrest, h⟩ := h
    have htext : raw.toList = "http://".toList ++ rest := stripPrefix_eq_some.mp hrest
    rw [List.span_eq_takeWhile_dropWhile] at h
    have hparts := List.takeWhile_append_dropWhile
      (p := fun c => !(c == '/' || c == '?' || c == '#')) (l := rest)
    have hend := dropWhile_outside (p := fun c => !(c == '/' || c == '?' || c == '#')) rest
    generalize rest.takeWhile (fun c => !(c == '/' || c == '?' || c == '#')) = authority
      at h hparts
    generalize rest.dropWhile (fun c => !(c == '/' || c == '?' || c == '#')) = after
      at h hparts hend
    dsimp only at h
    split at h
    · cases h
    rename_i hhash
    -- what follows the authority is a path or a query
    have hsuffix : SuffixPart after := by
      rcases hend with hend | ⟨c, hc, hends⟩
      · exact Or.inl hend
      · have hends : endsAuthority c = true := (Bool.not_eq_false' (b := endsAuthority c)).mp hends
        rcases endsAuthority_iff.mp hends with rfl | rfl | rfl
        · exact Or.inr (Or.inl hc)
        · exact Or.inr (Or.inr hc)
        · exact absurd hc hhash
    split at h
    · rename_i port hport
      rw [Option.bind_some] at h
      obtain ⟨hpart, hr⟩ := read_port.mp h
      cases hr
      refine ⟨port, List.mem_cons_of_mem _ List.mem_cons_self, hpart, hsuffix, ?_⟩
      rw [htext, ← hparts, stripPrefix_eq_some.mp hport]
    · rw [Option.bind_map, Option.bind_eq_some_iff] at h
      obtain ⟨port, hport, h⟩ := h
      obtain ⟨hpart, hr⟩ := read_port.mp h
      cases hr
      refine ⟨port, List.mem_cons_self, hpart, hsuffix, ?_⟩
      rw [htext, ← hparts, stripPrefix_eq_some.mp hport]
  · rintro ⟨port, h⟩
    have hinside : ∀ c ∈ host.toList ++ port, endsAuthority c = false := by
      intro c hc
      rcases List.mem_append.mp hc with hc | hc
      · exact literal_inside h.literal c hc
      · exact h.numbered.inside c hc
    have hspan := span_authority hinside h.bounded.outside
    have hhash : suffix.head? ≠ some '#' := by
      rcases h.bounded with rfl | hs | hs
      · simp
      · rw [hs]
        decide
      · rw [hs]
        decide
    unfold loopbackParts
    rw [stripPrefix_eq_some.mpr h.text]
    simp only [Option.bind_eq_bind, Option.bind_some, hspan, if_neg hhash]
    rcases List.mem_pair.mp h.literal with rfl | rfl
    · have hfour : stripPrefix "[::1]" ("127.0.0.1".toList ++ port) = none := rfl
      have hrest : stripPrefix "127.0.0.1" ("127.0.0.1".toList ++ port) = some port :=
        stripPrefix_eq_some.mpr rfl
      rw [hfour, hrest]
      exact read_port.mpr ⟨h.numbered, rfl⟩
    · have hrest : stripPrefix "[::1]" ("[::1]".toList ++ port) = some port :=
        stripPrefix_eq_some.mpr rfl
      rw [hrest]
      exact read_port.mpr ⟨h.numbered, rfl⟩

/-! ## 3. Literal loopback URLs -/

/-- The splitter leaves no choice: host and suffix belong to the text. -/
theorem Loopback.unique {raw host host' : String} {port port' suffix suffix' : List Char}
    (h : Loopback raw host port suffix) (h' : Loopback raw host' port' suffix') :
    host = host' ∧ suffix = suffix' := by
  have hparts := loopbackParts_iff.mpr ⟨port, h⟩
  have hparts' := loopbackParts_iff.mpr ⟨port', h'⟩
  have hsame := Option.some.inj (hparts.symm.trans hparts')
  exact ⟨congrArg Prod.fst hsame, congrArg Prod.snd hsame⟩

/-- Two URLs are literal loopback ones that differ in their port at most. -/
def SameLoopback (raw raw' : String) : Prop :=
  ∃ host suffix port port', Loopback raw host port suffix ∧ Loopback raw' host port' suffix

theorem sameLoopback_iff {raw raw' : String} :
    SameLoopback raw raw' ↔
      ∃ parts, loopbackParts raw = some parts ∧ loopbackParts raw' = some parts := by
  constructor
  · rintro ⟨host, suffix, port, port', h, h'⟩
    exact ⟨(host, suffix), loopbackParts_iff.mpr ⟨port, h⟩, loopbackParts_iff.mpr ⟨port', h'⟩⟩
  · rintro ⟨⟨host, suffix⟩, h, h'⟩
    obtain ⟨port, h⟩ := loopbackParts_iff.mp h
    obtain ⟨port', h'⟩ := loopbackParts_iff.mp h'
    exact ⟨host, suffix, port, port', h, h'⟩

theorem SameLoopback.symm {raw raw' : String} (h : SameLoopback raw raw') :
    SameLoopback raw' raw := by
  obtain ⟨parts, h, h'⟩ := sameLoopback_iff.mp h
  exact sameLoopback_iff.mpr ⟨parts, h', h⟩

theorem SameLoopback.trans {raw raw' raw'' : String} (h : SameLoopback raw raw')
    (h' : SameLoopback raw' raw'') : SameLoopback raw raw'' := by
  obtain ⟨parts, hraw, hraw'⟩ := sameLoopback_iff.mp h
  obtain ⟨parts', hsame, hraw''⟩ := sameLoopback_iff.mp h'
  obtain rfl := Option.some.inj (hraw'.symm.trans hsame)
  exact sameLoopback_iff.mpr ⟨parts, hraw, hraw''⟩

/-- **The authority of a literal loopback URL** is its host and its port, and nothing else. -/
theorem Loopback.authority {raw host : String} {port suffix authority after : List Char}
    (h : Loopback raw host port suffix)
    (htext : raw.toList = "http://".toList ++ (authority ++ after))
    (ha : ∀ c ∈ authority, endsAuthority c = false)
    (hs : after = [] ∨ ∃ c, after.head? = some c ∧ endsAuthority c = true) :
    authority = host.toList ++ port ∧ after = suffix ∧ '@' ∉ authority := by
  have hinside : ∀ c ∈ host.toList ++ port, endsAuthority c = false := by
    intro c hc
    rcases List.mem_append.mp hc with hc | hc
    · exact literal_inside h.literal c hc
    · exact h.numbered.inside c hc
  have hsame : host.toList ++ port ++ suffix = authority ++ after :=
    List.append_cancel_left (h.text.symm.trans htext)
  have hspan := (span_authority hinside h.bounded.outside).symm.trans
    (hsame ▸ span_authority ha hs)
  have hauthority : authority = host.toList ++ port := (congrArg Prod.fst hspan).symm
  have hafter : after = suffix := (congrArg Prod.snd hspan).symm
  refine ⟨hauthority, hafter, fun hat => ?_⟩
  rw [hauthority] at hat
  rcases List.mem_append.mp hat with hat | hat
  · rcases List.mem_pair.mp h.literal with rfl | rfl <;> exact absurd hat (by decide)
  · rcases h.numbered with rfl | ⟨digits, rfl, _, hdigits, _⟩
    · cases hat
    · rcases List.mem_cons.mp hat with e | hat
      · cases e
      · exact absurd (List.all_eq_true.mp hdigits _ hat) (by decide)

/-! ## 4. Matching -/

section Matching

variable {P : Platform}

/-- What a match is, of any registration. -/
theorem redirectMatches_iff {r : RegisteredRedirect} {a : String} :
    redirectMatches P r a = true ↔ (safeRedirect P a).isSome = true ∧
      (a = r.uri ∨ r.kind = .nativeLoopback ∧ SameLoopback r.uri a) := by
  rw [sameLoopback_iff]
  unfold redirectMatches
  cases hsafe : safeRedirect P a with
  | none => simp
  | some url =>
      by_cases hself : r.uri = a
      · simp [hself]
      by_cases hkind : r.kind = .nativeLoopback
      · have hother : a ≠ r.uri := fun e => hself e.symm
        cases hr : loopbackParts r.uri with
        | none => simp [hself, hkind, hother]
        | some parts =>
            cases ha : loopbackParts a with
            | none => simp [hself, hkind, hother]
            | some parts' => simp [hself, hkind, hother, eq_comm]
      · have hother : a ≠ r.uri := fun e => hself e.symm
        simp [hself, hkind, hother]

/-- What an accepted registration has shown of its URI. -/
theorem RegisteredRedirect.new_safe {uri : String} {kind : RedirectKind} {r : RegisteredRedirect}
    (h : RegisteredRedirect.new P uri kind = .ok r) :
    (safeRedirect P uri).isSome = true ∧
      (kind = .nativeLoopback → ∃ host port suffix, Loopback uri host port suffix) := by
  unfold RegisteredRedirect.new at h
  cases hsafe : safeRedirect P uri with
  | none =>
      rw [hsafe] at h
      cases h
  | some parsed =>
      rw [hsafe] at h
      dsimp only at h
      split at h
      · cases h
      rename_i hnative
      refine ⟨rfl, fun hkind => ?_⟩
      cases hparts : loopbackParts uri with
      | none => exact absurd ⟨hkind, Or.inr (by simp [hparts])⟩ hnative
      | some parts =>
          obtain ⟨port, hloopback⟩ := loopbackParts_iff.mp hparts
          exact ⟨_, port, _, hloopback⟩

/-- A URI that can be registered for a native app. -/
def NativeUri (P : Platform) (uri : String) : Prop :=
  RegisteredRedirect.new P uri .nativeLoopback = .ok ⟨uri, .nativeLoopback⟩

theorem NativeUri.safe {uri : String} (h : NativeUri P uri) :
    (safeRedirect P uri).isSome = true := (RegisteredRedirect.new_safe h).1

theorem NativeUri.loopback {uri : String} (h : NativeUri P uri) :
    ∃ host port suffix, Loopback uri host port suffix := (RegisteredRedirect.new_safe h).2 rfl

/-- Between native URIs, to match is to differ in the port at most. -/
theorem NativeUri.matches_iff {uri uri' : String} (h : NativeUri P uri) (h' : NativeUri P uri') :
    redirectMatches P ⟨uri, .nativeLoopback⟩ uri' = true ↔ SameLoopback uri uri' := by
  rw [redirectMatches_iff]
  constructor
  · rintro ⟨_, rfl | ⟨_, hsame⟩⟩
    · obtain ⟨host, port, suffix, hloopback⟩ := h.loopback
      exact ⟨host, suffix, port, port, hloopback, hloopback⟩
    · exact hsame
  · intro hsame
    exact ⟨h'.safe, Or.inr ⟨rfl, hsame⟩⟩

/-- **Redirects match byte for byte, but for the port of a literal loopback URL.** For a
    registration that was accepted: a URI matches if and only if it is a safe redirect and the
    registered URI itself, or the registration is a native one and both are the same literal
    host and suffix with any ports. Other registrations match only themselves. Between native
    URIs matching is symmetric and transitive; a URI that a native registration matches has the
    registered literal, path and query, and an authority that is the literal and a port. -/
theorem redirect_matching (P : Platform) {uri : String} {kind : RedirectKind}
    {r : RegisteredRedirect} (hr : RegisteredRedirect.new P uri kind = .ok r) :
    (∀ a, redirectMatches P r a = true ↔ (safeRedirect P a).isSome = true ∧
      (a = r.uri ∨ r.kind = .nativeLoopback ∧ ∃ host ∈ loopbackLiterals, ∃ suffix port port',
        SuffixPart suffix ∧ PortPart port ∧ PortPart port' ∧
        r.uri.toList = "http://".toList ++ (host.toList ++ port ++ suffix) ∧
        a.toList = "http://".toList ++ (host.toList ++ port' ++ suffix))) ∧
    (r.kind ≠ .nativeLoopback → ∀ a, redirectMatches P r a = true ↔ a = r.uri) ∧
    (r.kind = .nativeLoopback →
      (∀ v, NativeUri P v →
        (redirectMatches P r v = true ↔ redirectMatches P ⟨v, .nativeLoopback⟩ r.uri = true)) ∧
      (∀ v w, NativeUri P v → NativeUri P w → redirectMatches P r v = true →
        redirectMatches P ⟨v, .nativeLoopback⟩ w = true → redirectMatches P r w = true) ∧
      ∀ a, redirectMatches P r a = true → ∀ host port suffix, Loopback r.uri host port suffix →
        (∀ host' port' suffix', Loopback a host' port' suffix' →
          host' = host ∧ suffix' = suffix) ∧
        ∀ authority after, a.toList = "http://".toList ++ (authority ++ after) →
          (∀ c ∈ authority, endsAuthority c = false) →
          (after = [] ∨ ∃ c, after.head? = some c ∧ endsAuthority c = true) →
          '@' ∉ authority ∧ after = suffix ∧
            ∃ port', PortPart port' ∧ authority = host.toList ++ port') := by
  obtain ⟨hsafe, hloopback⟩ := RegisteredRedirect.new_safe hr
  obtain rfl := RegisteredRedirect.new_ok hr
  refine ⟨fun a => ?_, fun hkind a => ?_, fun hkind => ⟨fun v hv => ?_, fun v w hv hw => ?_,
    fun a ha host port suffix hparts => ?_⟩⟩
  · rw [redirectMatches_iff]
    refine and_congr_right fun _ => or_congr_right (and_congr_right fun _ => ⟨?_, ?_⟩)
    · rintro ⟨host, suffix, port, port', h, h'⟩
      exact ⟨host, h.literal, suffix, port, port', h.bounded, h.numbered, h'.numbered, h.text,
        h'.text⟩
    · rintro ⟨host, hhost, suffix, port, port', hsuffix, hport, hport', htext, htext'⟩
      exact ⟨host, suffix, port, port', ⟨hhost, hport, hsuffix, htext⟩,
        ⟨hhost, hport', hsuffix, htext'⟩⟩
  · rw [redirectMatches_iff]
    constructor
    · rintro ⟨_, hself | ⟨hnative, _⟩⟩
      · exact hself
      · exact absurd hnative hkind
    · rintro rfl
      exact ⟨hsafe, Or.inl rfl⟩
  · obtain rfl : kind = .nativeLoopback := hkind
    rw [NativeUri.matches_iff hr hv, NativeUri.matches_iff hv hr]
    exact ⟨SameLoopback.symm, SameLoopback.symm⟩
  · obtain rfl : kind = .nativeLoopback := hkind
    rw [NativeUri.matches_iff hr hv, NativeUri.matches_iff hv hw, NativeUri.matches_iff hr hw]
    exact SameLoopback.trans
  · have hsame : SameLoopback uri a := by
      rcases (redirectMatches_iff.mp ha).2 with rfl | ⟨_, hsame⟩
      · exact ⟨host, suffix, port, port, hparts, hparts⟩
      · exact hsame
    obtain ⟨host₀, suffix₀, port₀, port', huri, ha⟩ := hsame
    obtain ⟨rfl, rfl⟩ := huri.unique hparts
    refine ⟨fun host' port'' suffix' h' => ?_, fun authority after htext hinside hafter => ?_⟩
    · exact h'.unique ha
    · obtain ⟨hauthority, hsuffix, hat⟩ := ha.authority htext hinside hafter
      exact ⟨hat, hsuffix, port', ha.numbered, hauthority⟩

end Matching

namespace Sample

/-- The URL parser, on the literal loopback URLs of an app. -/
def loopbackPlatform : Platform where
  digest _ := Vector.replicate 32 0
  parse raw :=
    let url := fun host : Host =>
      { scheme := "http", username := "", password := none, host := some host, path := "/cb"
        query := none, fragment := none, cannotBeABase := false : Url }
    if raw = "http://127.0.0.1:8080/cb" ∨ raw = "http://127.0.0.1:9000/cb" then
      some (url (.ipv4 0x7f000001#32))
    else if raw = "http://[::1]:8080/cb" then some (url (.ipv6 1#128))
    else none
  join _ _ := none
  hashText _ := 0

end Sample

/-- An app may listen on another port than the declared one, but not at the other literal. -/
theorem redirect_matching_port :
    ∃ r, RegisteredRedirect.new Sample.loopbackPlatform "http://127.0.0.1:8080/cb"
        .nativeLoopback = .ok r ∧
      redirectMatches Sample.loopbackPlatform r "http://127.0.0.1:9000/cb" = true ∧
      redirectMatches Sample.loopbackPlatform r "http://[::1]:8080/cb" = false := by
  have hr : RegisteredRedirect.new Sample.loopbackPlatform "http://127.0.0.1:8080/cb"
      .nativeLoopback = .ok ⟨"http://127.0.0.1:8080/cb", .nativeLoopback⟩ := by decide
  have hport : PortPart [':', '8', '0', '8', '0'] :=
    Or.inr ⟨['8', '0', '8', '0'], rfl, by decide, by decide, by decide, by decide⟩
  have hport' : PortPart [':', '9', '0', '0', '0'] :=
    Or.inr ⟨['9', '0', '0', '0'], rfl, by decide, by decide, by decide, by decide⟩
  have hsuffix : SuffixPart ['/', 'c', 'b'] := Or.inr (Or.inl rfl)
  obtain ⟨hmatches, _, hnative⟩ := redirect_matching Sample.loopbackPlatform hr
  refine ⟨_, hr, (hmatches _).mpr ⟨by decide, Or.inr ⟨rfl, "127.0.0.1", by decide, _, _, _,
    hsuffix, hport, hport', rfl, rfl⟩⟩, Bool.eq_false_iff.mpr fun h => ?_⟩
  have hliterals := ((hnative rfl).2.2 _ h "127.0.0.1" _ _ ⟨by decide, hport, hsuffix, rfl⟩).1
  exact absurd (hliterals "[::1]" _ _ ⟨by decide, hport, hsuffix, rfl⟩).1 (by decide)

end Eri
