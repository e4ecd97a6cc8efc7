/-
  File:      Eri/Base.lean
  Subject:   What the program takes from outside: the crates it calls, clocks, random values.

  * `Platform` -- the crates whose source is not in the repository, as functions: SHA-256 and
    the URL parser;
  * `Tape` -- everything one call reads that is not a row: the database clock, the monotonic
    clock of metadata leases, the random ids and credentials it draws, and the order in which
    a statement that changes many rows meets them.
-/
import Mathlib.Algebra.GroupWithZero.Nat
import Mathlib.Data.List.Perm.Basic

namespace Eri

abbrev Uuid := Nat

/-- A database timestamp, in microseconds. -/
abbrev Time := Int

/-- A reading of the monotonic clock. -/
abbrev Instant := Int

abbrev Digest := Vector UInt8 32

section Decisions

variable {α : Type} (p : α → Prop) [DecidablePred p] (l : List α)

-- what holds of all bytes of a text is decided by the text, not by going through all bytes
scoped instance (priority := high) decidableForallMem : Decidable (∀ x ∈ l, p x) :=
  List.decidableBAll p l

scoped instance (priority := high) decidableExistsMem : Decidable (∃ x ∈ l, p x) :=
  List.decidableBEx p l

end Decisions

/-! ## 1. Crates -/

inductive Host where
  | domain (name : String)
  | ipv4 (bits : BitVec 32)
  | ipv6 (bits : BitVec 128)
  deriving DecidableEq

/-- The parts of a parsed URL the program looks at. -/
structure Url where
  scheme : String
  username : String
  password : Option String
  host : Option Host
  path : String
  query : Option String
  fragment : Option String
  cannotBeABase : Bool
  deriving DecidableEq

/-- `sha2::Sha256::digest`, `url::Url::parse`, the text of `url::Url::join`, and
    `hashtextextended(text, 0)` of the database. -/
structure Platform where
  digest : List UInt8 → Digest
  parse : String → Option Url
  join : String → String → Option String
  hashText : String → BitVec 64

def utf8 (s : String) : List UInt8 := s.toUTF8.data.toList

theorem utf8_eq_flatMap (s : String) : utf8 s = s.toList.flatMap String.utf8EncodeChar := by
  simp [utf8, ← String.utf8Encode_toList, List.utf8Encode]

/-- `credentials::hash`, also `secret_hash`. -/
def secretHash (P : Platform) (raw : String) : Digest := P.digest (utf8 raw)

/-! ## 2. Time -/

def second : Time := 1000000

/-- `interval '10 minutes'`. -/
def tenMinutes : Time := 600 * second

/-- `interval '30 days'`. -/
def thirtyDays : Time := 30 * 24 * 3600 * second

/-- `DateTime::timestamp`: whole seconds, rounded down. -/
def timestamp (t : Time) : Int := t / second

/-- `std::time::Duration`. -/
structure Duration where
  secs : Nat
  nanos : Nat
  deriving DecidableEq

/-- The whole seconds of a lifetime, unless it is zero, has a fraction or is over `maximum`. -/
def boundedSeconds {ε : Type} (invalid : ε) (d : Duration) (maximum : Nat) : Except ε Nat :=
  if (d.secs = 0 ∧ d.nanos = 0) ∨ d.secs > maximum ∨ d.nanos ≠ 0 then .error invalid
  else .ok d.secs

/-- `t + make_interval(secs => n)`. -/
def Time.after (t : Time) (n : Nat) : Time := t + n * second

theorem Time.after_le {t : Time} {n m : Nat} (h : n ≤ m) : t.after n ≤ t + m * second := by
  have h' : (n : Int) * 1000000 ≤ (m : Int) * 1000000 := by omega
  exact Int.add_le_add_left h' t

theorem boundedSeconds_le {ε : Type} {e : ε} {d : Duration} {max n : Nat}
    (h : boundedSeconds e d max = .ok n) : n ≤ max := by
  unfold boundedSeconds at h
  split at h
  · cases h
  · cases h
    omega

/-! ## 3. What a call reads besides rows -/

-- named, so that a draw by its number is one term in every module
instance twoIds : NeZero 2 := ⟨by decide⟩
instance fourSecrets : NeZero 4 := ⟨by decide⟩

/-- The readings and draws of one call, in the order its code makes them. `rowNow` is
    `clock_timestamp()` evaluated for each row of a statement, `scan` the order in which such
    a statement meets its rows. -/
structure Tape where
  now : Nat → Time
  rowNow : Uuid → Time
  instant : Nat → Instant
  uuid : Fin 2 → Uuid
  secret : Fin 4 → String
  scan : List Uuid → List Uuid
  scan_perm : ∀ l, (scan l).Perm l

/-- The hash the `k`th credential of a call is stored under. -/
def Tape.hash (P : Platform) (t : Tape) (k : Fin 4) : Digest := secretHash P (t.secret k)

/-! ## 4. Checks that passed -/

/-- A step that let the rest of a check go on. -/
theorem bind_ok {ε α β : Type} {x : Except ε α} {f : α → Except ε β} {b : β}
    (h : (x >>= f) = .ok b) : ∃ a, x = .ok a ∧ f a = .ok b := by
  cases x with
  | ok a => exact ⟨a, rfl, h⟩
  | error e => cases h

theorem mapError_ok {ε ε' α : Type} {f : ε → ε'} {x : Except ε α} {a : α} :
    x.mapError f = .ok a ↔ x = .ok a := by
  cases x with
  | ok b => rw [Except.mapError, Except.ok.injEq, Except.ok.injEq]
  | error e => exact iff_of_false nofun nofun

theorem ite_ok {ε α : Type} {p : Prop} [Decidable p] {e : ε} {x : Except ε α} {a : α}
    (h : (if p then .error e else x) = .ok a) : ¬p ∧ x = .ok a := by
  split at h
  · cases h
  · exact ⟨‹_›, h⟩

/-! ## 5. ASCII text -/

theorem toNat_ofNat_ascii : ∀ n : Fin 128, (Char.ofNat n).toNat = n := by decide

theorem utf8EncodeChar_of_ascii {c : Char} (h : c.toNat < 128) :
    String.utf8EncodeChar c = [UInt8.ofNat c.toNat] := by
  have hle : c.val.toNat ≤ 0x7f := Nat.le_of_lt_succ h
  unfold String.utf8EncodeChar
  dsimp only
  rw [if_pos hle]
  rfl

/-- A character of several bytes has none below 128. -/
theorem ascii_of_utf8EncodeChar {c : Char} (h : ∀ b ∈ String.utf8EncodeChar c, b < 128) :
    c.toNat < 128 := by
  have hbyte : ∀ n, ¬UInt8.ofNat (n % 64 + 128) < 128 := by
    intro n hlt
    rw [UInt8.lt_iff_toNat_lt, UInt8.toNat_ofNat'] at hlt
    have hmod : (n % 64 + 128) % 2 ^ 8 = n % 64 + 128 := by omega
    rw [hmod] at hlt
    exact absurd hlt (by simp)
  unfold String.utf8EncodeChar at h
  dsimp only at h
  split_ifs at h with h₁ h₂ h₃
  · exact Nat.lt_succ_of_le h₁
  all_goals exact absurd (h _ (by simp)) (hbyte c.val.toNat)

/-- **The bytes of an ASCII text are its characters.** -/
theorem utf8_of_ascii {s : String} (h : ∀ c ∈ s.toList, c.toNat < 128) :
    utf8 s = s.toList.map fun c => UInt8.ofNat c.toNat := by
  rw [utf8_eq_flatMap, List.map_eq_flatMap]
  exact List.flatMap_congr fun c hc => utf8EncodeChar_of_ascii (h c hc)

theorem ascii_of_utf8 {s : String} (h : ∀ b ∈ utf8 s, b < 128) :
    ∀ c ∈ s.toList, c.toNat < 128 := by
  intro c hc
  refine ascii_of_utf8EncodeChar fun b hb => h b ?_
  rw [utf8_eq_flatMap]
  exact List.mem_flatMap.mpr ⟨c, hc, hb⟩

end Eri
