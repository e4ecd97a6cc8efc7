/-
  File:      Eri/Net/Prefix.lean
  Subject:   Address prefixes: all addresses that begin with the same bits.

  * `Prefix`, `Prefix.Covers` -- a prefix of any width, and the addresses under it;
  * `Prefix.Covers.mono` -- a longer prefix of a covered address covers less;
  * `Prefix.Covers.nested` -- prefixes of one address are nested.
-/
import Mathlib.Data.Nat.Basic
import Mathlib.Tactic.Linarith

namespace Net

/-- The first `length` bits of `base`. -/
structure Prefix (w : Nat) where
  base : BitVec w
  length : Nat
  deriving DecidableEq

variable {w : Nat}

namespace Prefix

/-- The bits that are left free. -/
def free (p : Prefix w) : Nat := w - p.length

/-- The address begins with the bits of the prefix. -/
def Covers (p : Prefix w) (v : BitVec w) : Prop :=
  v.toNat / 2 ^ p.free = p.base.toNat / 2 ^ p.free

instance (p : Prefix w) (v : BitVec w) : Decidable (p.Covers v) :=
  inferInstanceAs (Decidable (_ = _))

/-- What a longer prefix fixes, a shorter one sees. -/
theorem Covers.coarser {p q : Prefix w} {v : BitVec w} (h : q.Covers v)
    (hlength : p.length ≤ q.length) : v.toNat / 2 ^ p.free = q.base.toNat / 2 ^ p.free := by
  have hfree : p.free = q.free + (p.free - q.free) := by
    unfold free
    omega
  have hdiv : ∀ n : Nat, n / 2 ^ p.free = n / 2 ^ q.free / 2 ^ (p.free - q.free) := by
    intro n
    rw [hfree, Nat.pow_add, Nat.div_div_eq_div_mul, Nat.add_sub_cancel_left]
  rw [hdiv v.toNat, h, ← hdiv]

/-- An address under a longer prefix is under the shorter one. -/
theorem Covers.mono {p q : Prefix w} {v : BitVec w} (h : q.Covers v) (hbase : p.Covers q.base)
    (hlength : p.length ≤ q.length) : p.Covers v := by
  have hsame := h.coarser hlength
  exact hsame.trans hbase

/-- **Of two prefixes over one address the shorter one covers the longer one.** -/
theorem Covers.nested {p q : Prefix w} {v : BitVec w} (hp : p.Covers v) (hq : q.Covers v)
    (hlength : p.length ≤ q.length) : p.Covers q.base := by
  have hsame := hq.coarser hlength
  exact hsame.symm.trans hp

end Prefix

end Net
