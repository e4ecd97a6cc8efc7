/-
  File:      Eri/CacheControl.lean
  Subject:   What Cache-Control fields say, and what is made of them: the lifetime of a metadata
             document (src/cimd.rs, `cache_ttl`) and of Google's keys (src/google.rs,
             `cache_freshness`).

  A field is a list of directives between commas. The lifetime of a document depends on the
  directives of all fields together, in whatever order and layout they stand; that of a key set
  on the first field alone.

  * `Keepable`, `maxAge` -- what one directive says by itself;
  * `cacheTtl_iff` -- exactly the headers with a lifetime, and the lifetime;
  * **`document_lifetime`** -- the lifetime does not depend on the layout, and more directives
    never lengthen it;
  * `Heeds`, `LeavesOutNothing`, **`key_set_lifetime`** -- Google's keys are kept as the headers
    say exactly when the strictest stand first.
-/
import Eri.Google
import Eri.Redirects

namespace Eri

namespace Cimd

/-! ## 1. One directive -/

/-- The name of a directive, as it is written. -/
def directiveName (directive : List Char) : List Char :=
  if '=' ∈ directive then trim (directive.takeWhile (· != '=')) else directive

/-- The value of a directive that has one, without quotation marks. -/
def directiveValue (directive : List Char) : Option (List Char) :=
  if '=' ∈ directive then some (unquote (trim (directive.dropWhile (· != '=')).tail)) else none

/-- A visible ASCII character. -/
def IsGraphic (c : Char) : Prop := 33 ≤ c.toNat ∧ c.toNat ≤ 126

theorem trim_graphic {s : List Char} (h : ∀ c ∈ s, IsGraphic c) : trim s = s :=
  trim_plain fun c hc => isWhiteSpace_visible (h c hc).1 (h c hc).2

/-- **A directive is well formed**: a name of letters, digits and hyphens, with a visible value
    or none, which is a number for `max-age`. -/
structure WellFormed (directive : List Char) : Prop where
  nonempty : directive ≠ []
  single : ';' ∉ directive
  named : directiveName directive ≠ []
  token : ∀ c ∈ directiveName directive, c.isAlphanum = true ∨ c = '-'
  value : ∀ v, directiveValue directive = some v → v ≠ [] ∧ quote ∉ v ∧ ∀ c ∈ v, IsGraphic c
  number : lower (directiveName directive) = "max-age" →
    ((directiveValue directive).bind parseU64).isSome = true

/-- The directive forbids keeping the response, in any case and with any value. -/
def Forbids (directive : List Char) : Prop :=
  lower (directiveName directive) ∈ ["no-store", "no-cache", "private"]

/-- **What a response may be kept under.** -/
structure Keepable (directive : List Char) : Prop where
  wellFormed : WellFormed directive
  allowed : ¬Forbids directive

/-- The lifetime a directive states, in seconds. -/
def maxAge (directive : List Char) : Option Nat :=
  if lower (directiveName directive) = "max-age" then (directiveValue directive).bind parseU64
  else none

/-- The smaller one of two lifetimes that may be absent. -/
def least (a b : Option Nat) : Option Nat := (a.toList ++ b.toList).min?

theorem min?_append_least {a b : Option Nat} {l : List Nat} :
    ((least a b).toList ++ l).min? = (a.toList ++ (b.toList ++ l)).min? := by
  cases a with
  | none => cases b <;> rfl
  | some m =>
      cases b with
      | none => rfl
      | some n => rfl

/-- What keeps a directive, check by check. -/
theorem keepable_iff {d : List Char} :
    Keepable d ↔ ¬(d = [] ∨ ';' ∈ d) ∧
      ¬(directiveName d = [] ∨ ¬(directiveName d).all (fun c => c.isAlphanum || c == '-') = true) ∧
      ¬["no-store", "no-cache", "private"].contains (lower (directiveName d)) = true ∧
      ¬(∃ v ∈ directiveValue d, v = [] ∨ quote ∈ v ∨
        ¬v.all (fun c => decide (33 ≤ c.toNat) && decide (c.toNat ≤ 126)) = true) ∧
      (lower (directiveName d) = "max-age" →
        ((directiveValue d).bind parseU64).isSome = true) := by
  constructor
  · intro h
    refine ⟨not_or.mpr ⟨h.wellFormed.nonempty, h.wellFormed.single⟩, fun hname => ?_, fun hin => ?_,
      fun ⟨v, hv, hbad⟩ => ?_, h.wellFormed.number⟩
    · rcases hname with hname | hname
      · exact h.wellFormed.named hname
      · exact hname (List.all_eq_true.mpr fun c hc => by simpa using h.wellFormed.token c hc)
    · exact h.allowed (List.contains_iff_mem.mp hin)
    · obtain ⟨hempty, hquote, hgraphic⟩ := h.wellFormed.value v hv
      rcases hbad with hbad | hbad | hbad
      · exact hempty hbad
      · exact hquote hbad
      · exact hbad (List.all_eq_true.mpr fun c hc => by simpa [IsGraphic] using hgraphic c hc)
  · rintro ⟨hwhole, hname, hallowed, hvalue, hnumber⟩
    obtain ⟨hnonempty, hsingle⟩ := not_or.mp hwhole
    obtain ⟨hnamed, htoken⟩ := not_or.mp hname
    refine ⟨⟨hnonempty, hsingle, hnamed, fun c hc => ?_, fun v hv => ?_, hnumber⟩, fun hin => ?_⟩
    · simpa using List.all_eq_true.mp (of_not_not htoken) c hc
    · refine ⟨fun h => hvalue ⟨v, hv, Or.inl h⟩, fun h => hvalue ⟨v, hv, Or.inr (Or.inl h)⟩,
        fun c hc => ?_⟩
      have hall := of_not_not fun h => hvalue ⟨v, hv, Or.inr (Or.inr h)⟩
      have hc := List.all_eq_true.mp hall c hc
      rw [Bool.and_eq_true] at hc
      exact ⟨of_decide_eq_true hc.1, of_decide_eq_true hc.2⟩
    · exact hallowed (List.contains_iff_mem.mpr hin)

/-- **One directive**: it is refused, or its lifetime counts. -/
theorem readDirective_iff {maximumAge r : Option Nat} {d : List Char} :
    readDirective maximumAge d = some r ↔ Keepable d ∧ r = least maximumAge (maxAge d) := by
  have hrefused : ¬Keepable d →
      (none = some r ↔ Keepable d ∧ r = least maximumAge (maxAge d)) := fun hno =>
    ⟨fun e => (by cases e), fun h => absurd h.1 hno⟩
  unfold readDirective
  dsimp only
  rw [← directiveName.eq_def d, ← directiveValue.eq_def d]
  split
  · exact hrefused fun h => (keepable_iff.mp h).1 ‹_›
  split
  · exact hrefused fun h => (keepable_iff.mp h).2.1 ‹_›
  split
  · exact hrefused fun h => (keepable_iff.mp h).2.2.1 ‹_›
  split
  · exact hrefused fun h => (keepable_iff.mp h).2.2.2.1 ‹_›
  rename_i hwhole hname hallowed hvalue
  have hkeep := fun hnumber => keepable_iff.mpr ⟨hwhole, hname, hallowed, hvalue, hnumber⟩
  unfold maxAge at hrefused ⊢
  split
  · rename_i hage
    rw [if_pos hage] at hrefused
    cases hn : (directiveValue d).bind parseU64 with
    | none =>
        rw [hn] at hrefused
        refine hrefused fun h => ?_
        have hsome := h.wellFormed.number hage
        rw [hn] at hsome
        cases hsome
    | some n =>
        have hk : Keepable d := hkeep fun _ => by rw [hn]; rfl
        have hleast : some (maximumAge.elim n (min · n)) = least maximumAge (some n) := by
          cases maximumAge <;> rfl
        rw [Option.map_some, hleast, Option.some.injEq]
        exact ⟨fun e => ⟨hk, e.symm⟩, fun h => h.2.symm⟩
  · rename_i hage
    have hk : Keepable d := hkeep fun e => absurd e hage
    have hleast : least maximumAge none = maximumAge := by
      cases maximumAge <;> rfl
    rw [hleast, Option.some.injEq]
    exact ⟨fun e => ⟨hk, e.symm⟩, fun h => h.2.symm⟩

/-! ## 2. All fields -/

/-- The directives of a list of fields. -/
def directives (fields : List String) : List (List Char) :=
  (fields.flatMap fun field => field.toList.splitOn ',').map trim

/-- **A list of directives**: it is refused for one of them, or the smallest lifetime counts. -/
theorem foldlM_readDirective_iff {ds : List (List Char)} {maximumAge r : Option Nat} :
    ds.foldlM readDirective maximumAge = some r ↔
      (∀ d ∈ ds, Keepable d) ∧ r = (maximumAge.toList ++ ds.filterMap maxAge).min? := by
  induction ds generalizing maximumAge with
  | nil =>
      have hself : maximumAge.toList.min? = maximumAge := by
        cases maximumAge <;> rfl
      rw [List.foldlM_nil, List.filterMap_nil, List.append_nil, hself]
      exact ⟨fun e => ⟨nofun, (Option.some.inj e).symm⟩, fun h => congrArg some h.2.symm⟩
  | cons d ds ih =>
      have hages : (d :: ds).filterMap maxAge = (maxAge d).toList ++ ds.filterMap maxAge := by
        rw [List.filterMap_cons]
        cases maxAge d <;> rfl
      rw [List.foldlM_cons, hages, ← min?_append_least, List.forall_mem_cons]
      constructor
      · intro h
        obtain ⟨m, hm, h⟩ := Option.bind_eq_some_iff.mp h
        obtain ⟨hd, rfl⟩ := readDirective_iff.mp hm
        obtain ⟨hds, hr⟩ := ih.mp h
        exact ⟨⟨hd, hds⟩, hr⟩
      · rintro ⟨⟨hd, hds⟩, hr⟩
        exact Option.bind_eq_some_iff.mpr ⟨_, readDirective_iff.mpr ⟨hd, rfl⟩, ih.mpr ⟨hds, hr⟩⟩

/-- The smallest lifetime that is stated. -/
def IsLeast (ages : List Nat) (m : Nat) : Prop := m ∈ ages ∧ ∀ n ∈ ages, m ≤ n

/-- **The headers with a lifetime**, and the lifetime: every directive is one to keep by, and
    what the smallest of the stated lifetimes, five minutes at most, leaves after the age. -/
theorem cacheTtl_iff {fields : List String} {age ttl : Nat} :
    cacheTtl (some fields) age = some ttl ↔ (∀ d ∈ directives fields, Keepable d) ∧
      ∃ m, IsLeast ((directives fields).filterMap maxAge) m ∧ age < min maxCacheTtl m ∧
        ttl = min maxCacheTtl m - age := by
  have hrest : ∀ m : Nat,
      ((if age ≤ min m maxCacheTtl then some (min m maxCacheTtl - age) else none).filter
        (· ≠ 0)) = some ttl ↔ age < min maxCacheTtl m ∧ ttl = min maxCacheTtl m - age := by
    intro m
    rw [Nat.min_comm m, Option.filter_eq_some_iff]
    by_cases hle : age ≤ min maxCacheTtl m
    · rw [if_pos hle, Option.some.injEq]
      simp only [decide_eq_true_eq]
      omega
    · rw [if_neg hle]
      constructor
      · rintro ⟨e, _⟩
        cases e
      · rintro ⟨hlt, _⟩
        exact absurd (Nat.le_of_lt hlt) hle
  unfold cacheTtl
  simp only [Option.bind_eq_bind, Option.bind_some, Option.bind_eq_some_iff, hrest]
  constructor
  · rintro ⟨maximumAge, hfold, m, rfl, hlt, httl⟩
    obtain ⟨hkeep, hleast⟩ := foldlM_readDirective_iff.mp hfold
    exact ⟨hkeep, m, List.min?_eq_some_iff.mp hleast.symm, hlt, httl⟩
  · rintro ⟨hkeep, m, hleast, hlt, httl⟩
    exact ⟨some m, foldlM_readDirective_iff.mpr ⟨hkeep, (List.min?_eq_some_iff.mpr hleast).symm⟩,
      m, rfl, hlt, httl⟩

theorem IsLeast.perm {ages ages' : List Nat} {m : Nat} (h : ages.Perm ages') :
    IsLeast ages m ↔ IsLeast ages' m :=
  and_congr h.mem_iff (forall_congr' fun _ => imp_congr_left h.mem_iff)

/-- The order of the directives does not count. -/
theorem cacheTtl_perm {fields fields' : List String}
    (h : (directives fields).Perm (directives fields')) (age : Nat) :
    cacheTtl (some fields) age = cacheTtl (some fields') age := by
  refine Option.ext fun ttl => ?_
  rw [cacheTtl_iff, cacheTtl_iff]
  refine and_congr (forall_congr' fun d => imp_congr_left h.mem_iff) (exists_congr fun m => ?_)
  exact and_congr_left fun _ => IsLeast.perm (h.filterMap maxAge)

/-- A comma between two fields makes one of them. -/
theorem directives_join (pre post : List String) (a b : String) :
    directives (pre ++ (a ++ "," ++ b) :: post) = directives (pre ++ a :: b :: post) := by
  have hsplit : (a ++ "," ++ b).toList.splitOn ',' =
      a.toList.splitOn ',' ++ b.toList.splitOn ',' := by
    have htext : (a ++ "," ++ b).toList = a.toList ++ ',' :: b.toList := by simp
    rw [htext, List.splitOn_append_cons_self]
  unfold directives
  simp only [List.flatMap_append, List.flatMap_cons, hsplit, List.append_assoc]

/-- More directives leave a lifetime no longer than before. -/
theorem cacheTtl_subset {fields fields' : List String} {age ttl ttl' : Nat}
    (hsub : directives fields ⊆ directives fields') (h : cacheTtl (some fields) age = some ttl)
    (h' : cacheTtl (some fields') age = some ttl') : ttl' ≤ ttl := by
  obtain ⟨_, m, hm, _, rfl⟩ := cacheTtl_iff.mp h
  obtain ⟨_, m', hm', _, rfl⟩ := cacheTtl_iff.mp h'
  obtain ⟨d, hd, hstated⟩ := List.mem_filterMap.mp hm.1
  have hle : m' ≤ m := hm'.2 m (List.mem_filterMap.mpr ⟨d, hsub hd, hstated⟩)
  omega

/-- An older response has a shorter lifetime. -/
theorem cacheTtl_older {fields : Option (List String)} {age age' ttl : Nat} (hage : age ≤ age')
    (h : cacheTtl fields age' = some ttl) :
    cacheTtl fields age = some (ttl + (age' - age)) := by
  cases fields with
  | none => cases h
  | some fields =>
      obtain ⟨hkeep, m, hm, hlt, rfl⟩ := cacheTtl_iff.mp h
      exact cacheTtl_iff.mpr ⟨hkeep, m, hm, by omega, by omega⟩

/-- **The lifetime of a document.** A response is kept exactly when each directive of each field
    is one to keep by and the smallest of the stated lifetimes, five minutes at most, is longer
    than its age; how the directives are ordered and divided into fields makes no difference,
    and neither more directives nor a greater age lengthen it. -/
theorem document_lifetime (age : Nat) :
    cacheTtl none age = none ∧
    (∀ fields ttl, cacheTtl (some fields) age = some ttl ↔
      (∀ d ∈ directives fields, WellFormed d ∧ ¬Forbids d) ∧
      ∃ m, IsLeast ((directives fields).filterMap maxAge) m ∧ age < min 300 m ∧
        ttl = min 300 m - age) ∧
    (∀ fields fields', (directives fields).Perm (directives fields') →
      cacheTtl (some fields) age = cacheTtl (some fields') age) ∧
    (∀ fields fields' : List String, fields.Perm fields' →
      cacheTtl (some fields) age = cacheTtl (some fields') age) ∧
    (∀ pre post a b, cacheTtl (some (pre ++ (a ++ "," ++ b) :: post)) age =
      cacheTtl (some (pre ++ a :: b :: post)) age) ∧
    (∀ fields fields' ttl, directives fields ⊆ directives fields' →
      cacheTtl (some fields) age = some ttl → ∀ ttl', cacheTtl (some fields') age = some ttl' →
        ttl' ≤ ttl) ∧
    ∀ fields age' ttl, age ≤ age' → cacheTtl fields age' = some ttl →
      cacheTtl fields age = some (ttl + (age' - age)) := by
  refine ⟨rfl, fun fields ttl => ?_, fun fields fields' h => cacheTtl_perm h age,
    fun fields fields' h => cacheTtl_perm ?_ age, fun pre post a b => ?_,
    fun fields fields' ttl hsub h ttl' h' => cacheTtl_subset hsub h h',
    fun fields age' ttl hage h => cacheTtl_older hage h⟩
  · rw [cacheTtl_iff]
    have hkeepable : ∀ d, Keepable d ↔ WellFormed d ∧ ¬Forbids d :=
      fun d => ⟨fun h => ⟨h.1, h.2⟩, fun h => ⟨h.1, h.2⟩⟩
    simp only [hkeepable]
    exact Iff.rfl
  · exact (h.flatMap_right _).map trim
  · unfold cacheTtl
    rw [Option.bind_eq_bind, Option.bind_eq_bind, Option.bind_some, Option.bind_some]
    have hjoin := directives_join pre post a b
    unfold directives at hjoin
    rw [hjoin]

/-- Two fields, in both orders and as one. -/
theorem document_lifetime_layouts :
    cacheTtl (some ["Max-Age=120", "public, max-age=60"]) 30 = some 30 ∧
    cacheTtl (some ["public, max-age=60", "Max-Age=120"]) 30 = some 30 ∧
    cacheTtl (some ["Max-Age=120,public, max-age=60"]) 30 = some 30 ∧
    cacheTtl (some ["Max-Age=120,public, max-age=60"]) 20 = some 40 := by
  have hone : cacheTtl (some ["Max-Age=120,public, max-age=60"]) 30 = some 30 := by
    decide +kernel
  have htwo : cacheTtl (some ["Max-Age=120", "public, max-age=60"]) 30 = some 30 :=
    ((document_lifetime 30).2.2.2.2.1 [] [] "Max-Age=120" "public, max-age=60").symm.trans hone
  exact ⟨htwo, ((document_lifetime 30).2.2.2.1 _ _ (.swap ..)).trans htwo, hone,
    (document_lifetime 20).2.2.2.2.2.2 _ 30 30 (by decide) hone⟩

end Cimd

namespace Google

open Cimd (trim lower parseU64 directiveName directiveValue)
open Web (HeaderMap getAll toStr)

/-! ## 3. The headers of a key set -/

/-- The text of a field. -/
def fieldText (value : List UInt8) : List Char := value.map fun b => Char.ofNat b.toNat

/-- The directives of all Cache-Control fields. -/
def statedDirectives (h : HeaderMap) : List (List Char) :=
  ((getAll h "cache-control").flatMap fun v => (fieldText v).splitOn ',').map trim

/-- A decimal number of any size. -/
def readNumber (s : List Char) : Option Nat :=
  let digits := if s.head? = some '+' then s.tail else s
  if digits = [] ∨ ¬digits.all Char.isDigit then none else some (decimal digits)

/-- The lifetime a directive states, however long. -/
def statedMaxAge (directive : List Char) : Option Nat :=
  if lower (directiveName directive) = "max-age" then (directiveValue directive).bind readNumber
  else none

/-- The lifetimes of all Cache-Control fields. -/
def statedLifetimes (h : HeaderMap) : List Nat := (statedDirectives h).filterMap statedMaxAge

/-- The numbers of all Age fields, however large. -/
def statedAges (h : HeaderMap) : List Nat :=
  ((getAll h "age").flatMap fun v => (fieldText v).splitOn ',').filterMap fun v =>
    readNumber (trim v)

/-- The directive says not to use the response again without asking. -/
def Bars (directive : List Char) : Prop :=
  lower (directiveName directive) ∈ ["no-store", "no-cache"]

instance (directive : List Char) : Decidable (Bars directive) := by
  unfold Bars
  infer_instance

/-- **A freshness heeds the headers**: it is an hour at most, zero when a directive of any field
    bars the response, and no longer than any stated lifetime less any stated age. -/
structure Heeds (h : HeaderMap) (freshness : Nat) : Prop where
  bounded : freshness ≤ 3600
  barred : (∃ d ∈ statedDirectives h, Bars d) → freshness = 0
  stated : ∀ m ∈ statedLifetimes h, ∀ a, a = 0 ∨ a ∈ statedAges h → freshness ≤ m - a

/-- The first Cache-Control field is legible, and these are its directives. -/
def FirstField (h : HeaderMap) (ds : List (List Char)) : Prop :=
  ∃ text, headerText h "cache-control" = some text ∧ ds = (text.splitOn ',').map trim

/-- The directive is `no-store` or `no-cache`, and nothing else. -/
def Bare (d : List Char) : Prop := lower d = "no-store" ∨ lower d = "no-cache"

instance (d : List Char) : Decidable (Bare d) := by
  unfold Bare
  infer_instance

/-- The directive is `max-age=` and a number below 2 ^ 64, and nothing else. -/
def Plain (d : List Char) (m : Nat) : Prop :=
  ∃ number, (lower d).toList = "max-age=".toList ++ number ∧ parseU64 number = some m

/-- The first field is missing or illegible, or has a bare directive or no plain lifetime. -/
def Closed (h : HeaderMap) : Prop :=
  ∀ ds, FirstField h ds → (∃ d ∈ ds, Bare d) ∨ ∀ d ∈ ds, ∀ m, ¬Plain d m

/-- `m` is the lifetime that stands first in the first field. -/
def Leads (h : HeaderMap) (m : Nat) : Prop :=
  ∃ pre d post, FirstField h (pre ++ d :: post) ∧ Plain d m ∧ ∀ d' ∈ pre, ∀ m', ¬Plain d' m'

/-- The first Age field is the number `a`, or no number below 2 ^ 64 and `a` is zero. -/
def Opens (h : HeaderMap) (a : Nat) : Prop :=
  (∃ text, headerText h "age" = some text ∧ parseU64 text = some a) ∨
    (a = 0 ∧ ∀ text, headerText h "age" = some text → parseU64 text = none)

/-- **The strictest stand first**: no directive bars the response, the first lifetime is the
    shortest and the first age the greatest. Lifetimes of more than an hour count as one. -/
structure StrictestFirst (h : HeaderMap) (m a : Nat) : Prop where
  unbarred : ∀ d ∈ statedDirectives h, ¬Bars d
  short : m ≤ 3600 → (∀ m' ∈ statedLifetimes h, m ≤ m') ∧ ∀ a' ∈ statedAges h, a' ≤ a
  long : 3600 < m → ∀ m' ∈ statedLifetimes h,
    3600 ≤ m' ∧ ∀ a' ∈ statedAges h, a' ≤ a + (m' - 3600)

/-- **The layouts that leave nothing stricter out**: the first field is closed; or its first
    lifetime is over by the first age; or the strictest stand first. -/
def LeavesOutNothing (h : HeaderMap) : Prop :=
  Closed h ∨ ∃ m a, Leads h m ∧ Opens h a ∧ (min m 3600 ≤ a ∨ StrictestFirst h m a)

/-- Only letters have two cases. -/
theorem toLower_inj {c x : Char} (h : c.toLower = x) (hx : x.isLower = false) : c = x := by
  unfold Char.toLower at h
  split at h
  · rename_i hupper
    subst h
    obtain ⟨hlow, hhigh⟩ := hupper
    delta Char.isLower at hx
    simp only [Bool.and_eq_false_imp, decide_eq_true_eq, decide_eq_false_iff_not, ge_iff_le,
      UInt32.le_iff_toNat_le, UInt32.toNat_add] at hx hlow hhigh
    have hA : 'A'.val.toNat = 65 := rfl
    have hZ : 'Z'.val.toNat = 90 := rfl
    have ha : 'a'.val.toNat = 97 := rfl
    have hz : 'z'.val.toNat = 122 := rfl
    have hd : ('a'.val - 'A'.val).toNat = 32 := rfl
    omega
  · exact h

theorem graphic_of_toLower {c : Char} (h : Cimd.IsGraphic c.toLower) : Cimd.IsGraphic c := by
  by_cases hupper : c.val ≥ 'A'.val ∧ c.val ≤ 'Z'.val
  · obtain ⟨hlow, hhigh⟩ := hupper
    exact ⟨(show 33 ≤ 65 by decide).trans (UInt32.le_iff_toNat_le.mp hlow),
      (UInt32.le_iff_toNat_le.mp hhigh).trans (by decide)⟩
  · unfold Char.toLower at h
    rwa [dif_neg hupper] at h

/-- A number as `u64` is one of any size that is small enough. -/
theorem parseU64_eq (s : List Char) :
    parseU64 s = (readNumber s).filter fun n => n < 2 ^ 64 := by
  unfold parseU64 readNumber
  dsimp only
  generalize (if s.head? = some '+' then s.tail else s) = digits
  by_cases hdigits : digits = [] ∨ ¬digits.all Char.isDigit = true
  · rw [if_pos hdigits, if_pos hdigits]
    rfl
  · rw [if_neg hdigits, if_neg hdigits, Option.filter_some]
    simp only [decide_eq_true_eq]

theorem readNumber_of_parseU64 {s : List Char} {n : Nat} (h : parseU64 s = some n) :
    readNumber s = some n := by
  rw [parseU64_eq] at h
  exact (Option.filter_eq_some_iff.mp h).1

/-- The characters of a number. -/
theorem readNumber_chars {s : List Char} {n : Nat} (h : readNumber s = some n) :
    s ≠ [] ∧ ∀ c ∈ s, c = '+' ∨ c.isDigit = true := by
  obtain ⟨hdigits, -⟩ := Option.ite_none_left_eq_some.mp h
  cases s with
  | nil => exact absurd (Or.inl rfl) hdigits
  | cons x s =>
      refine ⟨nofun, fun c hc => ?_⟩
      have hall := List.all_eq_true.mp (of_not_not (not_or.mp hdigits).2) c
      by_cases hplus : (x :: s).head? = some '+'
      · rw [if_pos hplus] at hall
        exact (List.mem_cons.mp hc).imp (·.trans (Option.some.inj hplus)) hall
      · rw [if_neg hplus] at hall
        exact Or.inr (hall hc)

/-- They are visible, and neither letters nor marks. -/
theorem number_char {c : Char} (h : c = '+' ∨ c.isDigit = true) :
    c.isLower = false ∧ Cimd.IsGraphic c ∧ c ≠ ',' ∧ c ≠ Cimd.quote := by
  rcases h with rfl | h
  · unfold Cimd.IsGraphic
    decide
  · have hall : ∀ n : Fin 58, 48 ≤ n.val → (Char.ofNat n).isLower = false ∧
        (33 ≤ (Char.ofNat n).toNat ∧ (Char.ofNat n).toNat ≤ 126) ∧
        Char.ofNat n ≠ ',' ∧ Char.ofNat n ≠ Cimd.quote := by decide
    simp only [Char.isDigit, Bool.and_eq_true, decide_eq_true_eq, ge_iff_le,
      UInt32.le_iff_toNat_le] at h
    have hc := hall ⟨c.toNat, Nat.lt_succ_of_le h.2⟩ h.1
    rwa [Char.ofNat_toNat] at hc

theorem trim_number {s : List Char} {n : Nat} (h : readNumber s = some n) : trim s = s :=
  Cimd.trim_graphic fun c hc => (number_char ((readNumber_chars h).2 c hc)).2.1

/-- A plain directive states its lifetime. -/
theorem Plain.stated {d : List Char} {m : Nat} (h : Plain d m) : statedMaxAge d = some m := by
  obtain ⟨number, htext, hparse⟩ := h
  have hnumber := readNumber_of_parseU64 hparse
  obtain ⟨hnonempty, hchars⟩ := readNumber_chars hnumber
  rw [lower, String.toList_ofList] at htext
  obtain ⟨start, value, rfl, hstart, hvalue⟩ := List.map_eq_append_iff.mp htext
  obtain ⟨name, equals, rfl, hname, hequals⟩ :=
    List.map_eq_append_iff.mp (hstart.trans (by decide : _ = "max-age".toList ++ ['=']))
  obtain ⟨e, rfl, he⟩ := List.map_eq_singleton_iff.mp hequals
  obtain rfl := toLower_inj he (by decide)
  -- a number has one case
  obtain rfl : value = number := by
    refine Eq.trans (((List.map_id value).symm).trans (List.map_congr_left fun c hc => ?_)) hvalue
    have hmem : c.toLower ∈ number := hvalue ▸ List.mem_map_of_mem hc
    exact toLower_inj rfl (number_char (hchars _ hmem)).1
  have hall : ∀ c ∈ name, Cimd.IsGraphic c ∧ c ≠ '=' := by
    intro c hc
    have hmem : c.toLower ∈ "max-age".toList := hname ▸ List.mem_map_of_mem hc
    have hlist : ("max-age".toList.all fun x =>
        (33 ≤ x.toNat ∧ x.toNat ≤ 126) ∧ x ≠ '=') = true := by
      decide +kernel
    have hletter := of_decide_eq_true (List.all_eq_true.mp hlist _ hmem)
    refine ⟨graphic_of_toLower hletter.1, fun hc => hletter.2 ?_⟩
    rw [hc]
    rfl
  have hbefore : ∀ c ∈ name, (c != '=') = true := fun c hc => bne_iff_ne.mpr (hall c hc).2
  have hmem : '=' ∈ name ++ '=' :: value := List.mem_append_right _ List.mem_cons_self
  have hunquote : Cimd.unquote value = value := by
    refine if_neg fun hquoted => ?_
    exact (number_char (hchars _ (List.mem_of_head? hquoted.1))).2.2.2 rfl
  rw [List.append_assoc, List.singleton_append]
  unfold statedMaxAge directiveName directiveValue
  rw [if_pos hmem, if_pos hmem, List.takeWhile_append_of_pos hbefore,
    List.dropWhile_append_of_pos hbefore, List.takeWhile_cons, List.dropWhile_cons]
  simp only [bne_self_eq_false, Bool.false_eq_true, if_false, List.append_nil, List.tail_cons]
  rw [trim_number hnumber, hunquote, Cimd.trim_graphic fun c hc => (hall c hc).1, lower, hname,
    if_pos (String.ofList_toList ..)]
  exact hnumber

/-- The first field, legible or not. -/
theorem getAll_of_headerText {h : HeaderMap} {name : String} {text : List Char}
    (htext : headerText h name = some text) :
    ∃ value ∈ getAll h name, fieldText value = text := by
  obtain ⟨value, hvalue, hstr⟩ := Option.bind_eq_some_iff.mp htext
  obtain ⟨-, hstr⟩ := Option.ite_none_right_eq_some.mp hstr
  exact ⟨value, List.mem_of_head? hvalue, Option.some.inj hstr⟩

theorem Leads.stated {h : HeaderMap} {m : Nat} (hm : Leads h m) : m ∈ statedLifetimes h := by
  obtain ⟨pre, d, post, ⟨text, htext, hds⟩, hplain, -⟩ := hm
  obtain ⟨value, hvalue, rfl⟩ := getAll_of_headerText htext
  have hd : d ∈ ((fieldText value).splitOn ',').map trim :=
    hds ▸ List.mem_append_right _ List.mem_cons_self
  obtain ⟨part, hpart, rfl⟩ := List.mem_map.mp hd
  exact List.mem_filterMap.mpr ⟨_, List.mem_map_of_mem (List.mem_flatMap.mpr ⟨_, hvalue, hpart⟩),
    hplain.stated⟩

theorem Opens.stated {h : HeaderMap} {a : Nat} (ha : Opens h a) : a = 0 ∨ a ∈ statedAges h := by
  refine ha.symm.imp And.left fun ⟨text, htext, hparse⟩ => ?_
  obtain ⟨value, hvalue, rfl⟩ := getAll_of_headerText htext
  have hnumber := readNumber_of_parseU64 hparse
  have hsplit : (fieldText value).splitOn ',' = [fieldText value] :=
    List.splitOn_eq_singleton fun hc =>
      (number_char ((readNumber_chars hnumber).2 _ hc)).2.2.1 rfl
  refine List.mem_filterMap.mpr ⟨fieldText value, List.mem_flatMap.mpr ⟨value, hvalue, ?_⟩, ?_⟩
  · rw [hsplit]
    exact List.mem_singleton_self _
  · rw [trim_number hnumber, hnumber]

theorem exists_opens (h : HeaderMap) : ∃ a, Opens h a := by
  cases ha : (headerText h "age").bind parseU64 with
  | none => exact ⟨0, Or.inr ⟨rfl, fun text htext => by rwa [htext] at ha⟩⟩
  | some a => exact ⟨a, Or.inl (Option.bind_eq_some_iff.mp ha)⟩

theorem opens_unique {h : HeaderMap} {a : Nat} (ha : Opens h a) :
    ((headerText h "age").bind parseU64).getD 0 = a := by
  rcases ha with ⟨text, htext, hparse⟩ | ⟨rfl, hnone⟩
  · rw [htext, Option.bind_some, hparse]
    rfl
  · cases htext : headerText h "age" with
    | none => rfl
    | some text => rw [Option.bind_some, hnone text htext]; rfl

/-- The number after `max-age=`. -/
def plainMaxAge (d : List Char) : Option Nat :=
  (stripPrefix "max-age=" (lower d).toList).bind parseU64

theorem plainMaxAge_iff {d : List Char} {m : Nat} : plainMaxAge d = some m ↔ Plain d m := by
  unfold plainMaxAge
  rw [Option.bind_eq_some_iff]
  exact exists_congr fun number => and_congr_left fun _ => stripPrefix_eq_some

theorem no_plain {d : List Char} : (∀ m, ¬Plain d m) ↔ plainMaxAge d = none := by
  rw [Option.eq_none_iff_forall_ne_some]
  exact forall_congr' fun m => not_congr plainMaxAge_iff.symm

theorem cacheFreshness_eq (h : HeaderMap) {a : Nat} (ha : Opens h a) (ds : List (List Char))
    (hds : (((headerText h "cache-control").getD []).splitOn ',').map trim = ds) :
    cacheFreshness h = if ∃ d ∈ ds, Bare d then 0
      else min ((ds.findSome? plainMaxAge).getD 0) 3600 - a := by
  have hmap : (((headerText h "cache-control").getD []).splitOn ',').map
      (fun v => (lower (trim v)).toList) = ds.map fun d => (lower d).toList := by
    rw [← hds, List.map_map]
    rfl
  have hany : (ds.map fun d => (lower d).toList).any (fun v =>
      v = "no-cache".toList || v = "no-store".toList) = true ↔ ∃ d ∈ ds, Bare d := by
    simp only [List.any_map, List.any_eq_true, Function.comp_apply, Bool.or_eq_true,
      decide_eq_true_eq, String.toList_inj]
    exact exists_congr fun d => and_congr_right fun _ => or_comm
  unfold cacheFreshness
  dsimp only
  rw [hmap, opens_unique ha, List.findSome?_map]
  by_cases hbare : ∃ d ∈ ds, Bare d
  · rw [if_pos hbare, if_pos (hany.mpr hbare)]
  · rw [if_neg hbare, if_neg fun h => hbare (hany.mp h)]
    rfl

/-- **A closed first field** leaves no freshness. -/
theorem cacheFreshness_closed {h : HeaderMap} (hclosed : Closed h) : cacheFreshness h = 0 := by
  obtain ⟨a, ha⟩ := exists_opens h
  rw [cacheFreshness_eq h ha _ rfl]
  split
  · rfl
  rename_i hbare
  have hnone : ((((headerText h "cache-control").getD []).splitOn ',').map trim).findSome?
      plainMaxAge = none := by
    cases htext : headerText h "cache-control" with
    | none => decide
    | some text =>
        rw [htext] at hbare
        refine List.findSome?_eq_none_iff.mpr fun d hd => no_plain.mp ?_
        exact (hclosed _ ⟨text, htext, rfl⟩).resolve_left hbare d hd
  rw [hnone]
  exact Nat.zero_sub a

theorem FirstField.unique {h : HeaderMap} {ds ds' : List (List Char)} (hds : FirstField h ds)
    (hds' : FirstField h ds') : ds = ds' := by
  obtain ⟨text, htext, rfl⟩ := hds
  obtain ⟨text', htext', rfl⟩ := hds'
  cases htext.symm.trans htext'
  rfl

/-- **Where it is not closed, a lifetime leads.** -/
theorem leads_of_open {h : HeaderMap} (hopen : ¬Closed h) : ∃ m, Leads h m := by
  unfold Closed at hopen
  push Not at hopen
  obtain ⟨ds, hds, -, d, hd, m, hplain⟩ := hopen
  cases hfirst : ds.findSome? plainMaxAge with
  | none =>
      exact absurd hplain (no_plain.mpr (List.findSome?_eq_none_iff.mp hfirst d hd) m)
  | some m =>
      obtain ⟨pre, d, post, rfl, hd, hpre⟩ := List.findSome?_eq_some_iff.mp hfirst
      exact ⟨m, pre, d, post, hds, plainMaxAge_iff.mp hd, fun d' hd' => no_plain.mpr (hpre d' hd')⟩

/-- **The freshness** is what the first age leaves of it. -/
theorem cacheFreshness_leads {h : HeaderMap} {m a : Nat} (hopen : ¬Closed h) (hm : Leads h m)
    (ha : Opens h a) : cacheFreshness h = min m 3600 - a := by
  obtain ⟨pre, d, post, hds, hplain, hpre⟩ := hm
  have hbare : ¬∃ d' ∈ pre ++ d :: post, Bare d' := fun hbare =>
    hopen fun ds hds' => Or.inl (hds.unique hds' ▸ hbare)
  have hfirst : (pre ++ d :: post).findSome? plainMaxAge = some m :=
    List.findSome?_eq_some_iff.mpr ⟨pre, d, post, rfl, plainMaxAge_iff.mpr hplain,
      fun d' hd' => no_plain.mp (hpre d' hd')⟩
  obtain ⟨text, htext, hparts⟩ := hds
  rw [cacheFreshness_eq h ha (pre ++ d :: post) (by rw [htext]; exact hparts.symm), if_neg hbare,
    hfirst]
  rfl

theorem heeds_zero (h : HeaderMap) : Heeds h 0 :=
  ⟨Nat.zero_le _, fun _ => rfl, fun _ _ _ _ => Nat.zero_le _⟩

/-- **Which headers are heeded.** -/
theorem heeds_iff (h : HeaderMap) : Heeds h (cacheFreshness h) ↔ LeavesOutNothing h := by
  by_cases hclosed : Closed h
  · rw [cacheFreshness_closed hclosed]
    exact ⟨fun _ => Or.inl hclosed, fun _ => heeds_zero h⟩
  constructor
  · intro hheeds
    obtain ⟨m, hm⟩ := leads_of_open hclosed
    obtain ⟨a, ha⟩ := exists_opens h
    rw [cacheFreshness_leads hclosed hm ha] at hheeds
    refine Or.inr ⟨m, a, hm, ha, ?_⟩
    by_cases hshort : min m 3600 ≤ a
    · exact Or.inl hshort
    -- the freshness is not zero: the first lifetime and the first age bound all others
    refine Or.inr ⟨fun d hd hbar => ?_, fun hhour => ⟨fun m' hm' => ?_, fun a' ha' => ?_⟩,
      fun hhour m' hm' => ⟨?_, fun a' ha' => ?_⟩⟩
    · have hzero := hheeds.barred ⟨d, hd, hbar⟩
      omega
    · have hle := hheeds.stated m' hm' a ha.stated
      omega
    · have hle := hheeds.stated m hm.stated a' (Or.inr ha')
      omega
    · have hle := hheeds.stated m' hm' a ha.stated
      omega
    · have hle := hheeds.stated m' hm' a' (Or.inr ha')
      omega
  · intro hlayout
    obtain ⟨m, a, hm, ha, hfirst⟩ := hlayout.resolve_left hclosed
    rw [cacheFreshness_leads hclosed hm ha]
    rcases hfirst with hshort | hfirst
    · rw [Nat.sub_eq_zero_of_le hshort]
      exact heeds_zero h
    refine ⟨(Nat.sub_le ..).trans (Nat.min_le_right ..), fun ⟨d, hd, hbar⟩ =>
      absurd hbar (hfirst.unbarred d hd), fun m' hm' a' ha' => ?_⟩
    by_cases hhour : m ≤ 3600
    · have hleast := (hfirst.short hhour).1 m' hm'
      have hgreatest : a' ≤ a := by
        rcases ha' with rfl | ha'
        · exact Nat.zero_le a
        · exact (hfirst.short hhour).2 a' ha'
      omega
    · obtain ⟨hleast, hgreatest⟩ := hfirst.long (Nat.lt_of_not_le hhour) m' hm'
      have hbound : a' ≤ a + (m' - 3600) := by
        rcases ha' with rfl | ha'
        · exact Nat.zero_le _
        · exact hgreatest a' ha'
      omega

/-! ## 4. The keys in a run -/

namespace Keyring

variable {C : JwksCrates} {F : Keyring}

/-- Keys and a freshness come from a response. -/
theorem fetchKeys_response {permit : Bool} {response : Option JwksResponse} {keys : Keys}
    {freshness : Nat} (h : fetchKeys C permit response = .ok (keys, freshness)) :
    ∃ r, response = some r ∧ freshness = cacheFreshness r.headers := by
  unfold fetchKeys at h
  split at h
  · cases h
  split at h
  · cases h
  rename_i r
  obtain ⟨-, h⟩ := ite_ok h
  split at h
  · cases h
  rename_i jwks _
  obtain ⟨-, h⟩ := ite_ok h
  cases hkeys : jwks.foldlM (insertKey C) ∅ with
  | error e =>
      rw [hkeys] at h
      cases h
  | ok keys' =>
      rw [hkeys] at h
      cases h
      exact ⟨r, rfl, rfl⟩

/-- **Every fetch of a run has read a response.** -/
theorem fetched_response (hF : Reachable C F) : ∀ t i keys freshness,
    (t, .fetched i keys freshness) ∈ F.trace → ∃ permit r,
      fetchKeys C permit (some r) = .ok (keys, freshness) ∧
        freshness = cacheFreshness r.headers := by
  induction hF with
  | new now => exact fun t i keys freshness h => absurd h List.not_mem_nil
  | @step F F' h hs ih =>
      -- an event that is no fetch adds none
      have hmore : ∀ e, (∀ i keys freshness, e ≠ KeyEvent.fetched i keys freshness) →
          F'.trace = F.trace ++ [(F.now, e)] → ∀ t i keys freshness,
            (t, .fetched i keys freshness) ∈ F'.trace → ∃ permit r,
              fetchKeys C permit (some r) = .ok (keys, freshness) ∧
                freshness = cacheFreshness r.headers := by
        intro e he htrace t i keys freshness hmem
        rw [htrace] at hmem
        rcases List.mem_append.mp hmem with hmem | hmem
        · exact ih t i keys freshness hmem
        · have heq := List.mem_singleton.mp hmem
          exact absurd (Prod.mk.inj heq).2.symm (he i keys freshness)
      cases hs with
      | tick later hlater => exact ih
      | call kid => exact ih
      | serve i kid key hi hfree hstart => exact hmore (.served i kid key) (fun _ _ _ => nofun) rfl
      | throttle i kid hi hfree hstart => exact hmore (.throttled i kid) (fun _ _ _ => nofun) rfl
      | attempt i kid hi hfree hstart => exact hmore (.attempted i kid) (fun _ _ _ => nofun) rfl
      | succeed i kid permit response keys freshness hi hfetch =>
          intro t j keys' freshness' hmem
          rcases List.mem_append.mp hmem with hmem | hmem
          · exact ih t j keys' freshness' hmem
          rcases List.mem_cons.mp hmem with heq | hmem
          · cases heq
            obtain ⟨r, rfl, hfreshness⟩ := fetchKeys_response hfetch
            exact ⟨permit, r, hfetch, hfreshness⟩
          · have heq : (t, KeyEvent.fetched j keys' freshness') = (F.now, answer i kid keys) :=
              List.mem_singleton.mp hmem
            have hnone := (answer_neither F.now i kid keys).1
            rw [← heq] at hnone
            cases hnone
      | fail i kid permit response e hi hfetch => exact hmore (.failed i) (fun _ _ _ => nofun) rfl
      | leave i kid hi => exact ih
      | drop i kid hi => exact hmore (.dropped i) (fun _ _ _ => nofun) rfl

/-- The most recent fetch is one of the trace. -/
theorem lastFetch_mem {trace : Trace} {f : Fetch} (h : lastFetch trace = some f) :
    (f.time, .fetched f.caller f.keys f.freshness) ∈ trace := by
  induction trace using List.reverseRecOn with
  | nil => cases h
  | append_singleton trace e ih =>
      rw [lastFetch_snoc] at h
      cases he : fetchOf e with
      | none =>
          rw [he] at h
          exact List.mem_append_left _ (ih h)
      | some g =>
          rw [he] at h
          cases h
          obtain ⟨t, e⟩ := e
          cases e <;> cases he
          exact List.mem_append_right _ List.mem_cons_self

end Keyring

open Keyring in
/-- **The lifetime of a key set.** It heeds the headers exactly when their layout leaves nothing
    stricter out; and a key that comes from the cache was fetched with a response for which, if
    its headers are such, no lifetime they state is over. -/
theorem key_set_lifetime (C : JwksCrates) :
    (∀ h, Heeds h (cacheFreshness h) ↔ LeavesOutNothing h) ∧
    ∀ F : Keyring, Reachable C F → ∀ before t i kid key after,
      F.trace = before ++ (t, .served i kid key) :: after →
      ∃ f permit response, lastFetch before = some f ∧ f.keys.lookup kid = some key ∧
        fetchKeys C permit (some response) = .ok (f.keys, f.freshness) ∧
        (f.caller ≠ i → LeavesOutNothing response.headers →
          ∀ m ∈ statedLifetimes response.headers,
            ∀ a, a = 0 ∨ a ∈ statedAges response.headers →
              t < f.time + (m - a : Nat) * instantSecond) := by
  refine ⟨heeds_iff, fun F hF before t i kid key after htrace => ?_⟩
  obtain ⟨f, hf, hkey, htime⟩ := (reachable_agrees hF).right _ _ _ _ htrace
  have hmem : (f.time, KeyEvent.fetched f.caller f.keys f.freshness) ∈ F.trace := by
    rw [htrace]
    exact List.mem_append_left _ (lastFetch_mem hf)
  obtain ⟨permit, response, hfetch, hfreshness⟩ := fetched_response hF _ _ _ _ hmem
  refine ⟨f, permit, response, hf, hkey, hfetch, fun hother hcovered m hm a ha => ?_⟩
  have hlive : t < f.time + f.freshness * instantSecond := htime.resolve_right hother
  have hheeds := (heeds_iff response.headers).mpr hcovered
  rw [← hfreshness] at hheeds
  have hle : (f.freshness : Int) ≤ ((m - a : Nat) : Int) :=
    Int.ofNat_le.mpr (hheeds.stated m hm a ha)
  have hscaled : (f.freshness : Int) * 1000000000 ≤ ((m - a : Nat) : Int) * 1000000000 := by omega
  exact lt_of_lt_of_le hlive (Int.add_le_add_left hscaled f.time)

/-- A key that is served half a minute after a response that states one lifetime. -/
theorem key_set_lifetime_again : ∃ (F : Keyring) (keys : Keys) (key : RsaPublicKey),
    Keyring.Reachable Keyring.Sample.jwksCrates F ∧
    F.trace = [(0, .attempted 0 "k"), (0, .fetched 0 keys 60), (0, .served 0 "k" key)] ++
      (30 * instantSecond, .served 1 "k" key) :: [] ∧
    Heeds Keyring.Sample.response.headers (cacheFreshness Keyring.Sample.response.headers) ∧
    ∃ f : Keyring.Fetch, f.caller = 0 ∧ f.keys.lookup "k" = some key := by
  obtain ⟨keys, key, hfetch, hkey⟩ := Keyring.Sample.response_keys
  obtain ⟨F, hF, htrace⟩ := Keyring.Sample.served_twice hfetch hkey
  obtain ⟨f, _, _, hf, hserved, _⟩ :=
    (key_set_lifetime Keyring.Sample.jwksCrates).2 F hF _ _ _ _ _ _ htrace
  cases hf
  have hcovered : LeavesOutNothing Keyring.Sample.response.headers := by
    have hstated : statedDirectives Keyring.Sample.response.headers =
        ["public".toList, "max-age=60".toList] := by decide +kernel
    have hlifetimes : statedLifetimes Keyring.Sample.response.headers = [60] := by decide +kernel
    have hages : statedAges Keyring.Sample.response.headers = [] := by decide +kernel
    have hfield : FirstField Keyring.Sample.response.headers
        ["public".toList, "max-age=60".toList] :=
      ⟨"public, max-age=60".toList, by decide +kernel, by decide +kernel⟩
    refine Or.inr ⟨60, 0, ⟨["public".toList], _, [], hfield, ⟨"60".toList, by decide +kernel⟩, ?_⟩,
      Or.inr ⟨rfl, fun text htext => ?_⟩, Or.inr ⟨?_, ?_, ?_⟩⟩
    · intro d hd
      rw [List.mem_singleton.mp hd]
      exact no_plain.mpr (by decide +kernel)
    · have hnone : headerText Keyring.Sample.response.headers "age" = none := by decide +kernel
      cases hnone.symm.trans htext
    · rw [hstated]
      decide +kernel
    · rw [hlifetimes, hages]
      decide
    · exact fun h => absurd h (by decide)
  have hheeds := ((key_set_lifetime Keyring.Sample.jwksCrates).1 _).mpr hcovered
  exact ⟨F, keys, key, hF, htrace, hheeds, _, rfl, hserved⟩

/-- A second field is left out. -/
theorem second_field_left_out : ¬∀ h : HeaderMap, Heeds h (cacheFreshness h) := by
  intro hall
  let h : HeaderMap := [("cache-control", utf8 "max-age=3600"), ("cache-control", utf8 "no-store")]
  have hfreshness : cacheFreshness h = 3600 := by decide +kernel
  have hbarred : ∃ d ∈ statedDirectives h, Bars d := by decide +kernel
  have hzero := (hall h).barred hbarred
  rw [hfreshness] at hzero
  cases hzero

end Google

end Eri
