/-
  File:      Eri/Net/Form.lean
  Subject:   The format application/x-www-form-urlencoded, on bytes.

  * `encode`, `decode` -- one name or value: unreserved bytes, `+` for a blank, and `%XX`;
  * `serialize`, `parse` -- pairs, joined by ampersands;
  * `parse_serialize` -- **what was written is read**;
  * `parse_append` -- two texts with an ampersand between them are read one after the other;
  * `Escaped`, `pieces` -- texts whose percent signs all start escapes, and what is decoded at a
    time.
-/
import Mathlib.Algebra.GroupWithZero.Nat
import Mathlib.Data.List.Basic
import Mathlib.Data.List.TakeWhile

namespace Form

/-! ## 1. Names and values -/

/-- Letters, digits, `*`, `-`, `.` and `_`. -/
def unreserved (b : UInt8) : Bool :=
  (48 ≤ b && b ≤ 57) || (65 ≤ b && b ≤ 90) || (97 ≤ b && b ≤ 122) || b == 42 || b == 45 ||
    b == 46 || b == 95

def hexDigit (n : Nat) : UInt8 := UInt8.ofNat (if n < 10 then 48 + n else 55 + n)

def hexValue (b : UInt8) : Option Nat :=
  if 48 ≤ b && b ≤ 57 then some (b.toNat - 48)
  else if 65 ≤ b && b ≤ 70 then some (b.toNat - 55)
  else if 97 ≤ b && b ≤ 102 then some (b.toNat - 87) else none

def encodeByte (b : UInt8) : List UInt8 :=
  if unreserved b then [b]
  else if b = 32 then [43] else [37, hexDigit (b.toNat / 16), hexDigit (b.toNat % 16)]

def encode (s : List UInt8) : List UInt8 := s.flatMap encodeByte

/-- A percent sign without two digits stands for itself. -/
def decode : List UInt8 → List UInt8
  | [] => []
  | 37 :: x :: y :: s =>
      match hexValue x, hexValue y with
      | some m, some n => UInt8.ofNat (16 * m + n) :: decode s
      | _, _ => 37 :: decode (x :: y :: s)
  | 43 :: s => 32 :: decode s
  | b :: s => b :: decode s

theorem hexValue_hexDigit {n : Nat} (h : n < 16) : hexValue (hexDigit n) = some n := by
  have hall : ∀ n : Fin 16, hexValue (hexDigit n) = some n.val := by decide
  exact hall ⟨n, h⟩

theorem decode_cons {b : UInt8} (h₁ : b ≠ 37) (h₂ : b ≠ 43) (s : List UInt8) :
    decode (b :: s) = b :: decode s := by
  rw [decode]
  · exact fun _ _ _ e _ => h₁ e
  · exact h₂

theorem decode_encodeByte (b : UInt8) (s : List UInt8) :
    decode (encodeByte b ++ s) = b :: decode s := by
  unfold encodeByte
  split
  · rename_i h
    have h₁ : b ≠ 37 := by rintro rfl; exact absurd h (by decide)
    have h₂ : b ≠ 43 := by rintro rfl; exact absurd h (by decide)
    exact decode_cons h₁ h₂ s
  · split
    · rename_i h
      subst h
      rfl
    · have hb := b.toNat_lt
      show decode (37 :: hexDigit (b.toNat / 16) :: hexDigit (b.toNat % 16) :: s) = _
      rw [decode, hexValue_hexDigit (by omega), hexValue_hexDigit (by omega)]
      dsimp only
      rw [Nat.div_add_mod, UInt8.ofNat_toNat]

theorem decode_encode (s : List UInt8) : decode (encode s) = s := by
  induction s with
  | nil => rfl
  | cons b s ih =>
      show decode (encodeByte b ++ encode s) = b :: s
      rw [decode_encodeByte, ih]

/-- What is written: unreserved bytes, plus and percent signs. -/
theorem mem_encode {b : UInt8} {s : List UInt8} (h : b ∈ encode s) :
    unreserved b = true ∨ b = 43 ∨ b = 37 := by
  obtain ⟨c, _, hc⟩ := List.mem_flatMap.mp h
  unfold encodeByte at hc
  split at hc
  · rename_i hsafe
    rw [List.mem_singleton] at hc
    exact Or.inl (hc ▸ hsafe)
  · split at hc
    · exact Or.inr (Or.inl (List.mem_singleton.mp hc))
    · have hall : ∀ n : Fin 16, unreserved (hexDigit n) = true := by decide
      have hlt := c.toNat_lt
      simp only [List.mem_cons, List.not_mem_nil, or_false] at hc
      rcases hc with rfl | rfl | rfl
      · exact Or.inr (Or.inr rfl)
      · exact Or.inl (hall ⟨_, by omega⟩)
      · exact Or.inl (hall ⟨_, by omega⟩)

/-! ## 2. Pairs -/

def serializePair (e : List UInt8 × List UInt8) : List UInt8 := encode e.1 ++ 61 :: encode e.2

def serialize : List (List UInt8 × List UInt8) → List UInt8
  | [] => []
  | [e] => serializePair e
  | e :: rest => serializePair e ++ 38 :: serialize rest

/-- A pair without an equals sign is a name. -/
def parsePair (s : List UInt8) : List UInt8 × List UInt8 :=
  (decode (s.takeWhile (· != 61)), decode (s.dropWhile (· != 61)).tail)

/-- Empty parts are no pairs. -/
def parse (s : List UInt8) : List (List UInt8 × List UInt8) :=
  ((s.splitOn 38).filter fun part => !part.isEmpty).map parsePair

/-- The separators do not come from names and values. -/
theorem not_mem_encode {b : UInt8} (h₁ : unreserved b = false) (h₂ : b ≠ 43) (h₃ : b ≠ 37)
    (s : List UInt8) : b ∉ encode s := by
  intro h
  rcases mem_encode h with e | e | e
  · rw [h₁] at e
    cases e
  · exact h₂ e
  · exact h₃ e

theorem parsePair_serializePair (e : List UInt8 × List UInt8) :
    parsePair (serializePair e) = e := by
  have hname : ∀ b ∈ encode e.1, (b != 61) = true := by
    intro b hb
    rw [bne_iff_ne]
    rintro rfl
    exact not_mem_encode rfl (by decide) (by decide) _ hb
  unfold parsePair serializePair
  rw [List.takeWhile_append_of_pos hname, List.dropWhile_append_of_pos hname,
    List.takeWhile_cons_of_neg (by decide), List.dropWhile_cons_of_neg (by decide),
    List.append_nil, List.tail_cons, decode_encode, decode_encode]

/-- **Two texts, an ampersand between them.** -/
theorem parse_append (s t : List UInt8) : parse (s ++ 38 :: t) = parse s ++ parse t := by
  unfold parse
  rw [List.splitOn_append_cons_self, List.filter_append, List.map_append]

theorem parse_pair (e : List UInt8 × List UInt8) : parse (serializePair e) = [e] := by
  have hnone : (38 : UInt8) ∉ serializePair e := by
    unfold serializePair
    rw [List.mem_append, List.mem_cons, not_or, not_or]
    exact ⟨not_mem_encode rfl (by decide) (by decide) _, by decide,
      not_mem_encode rfl (by decide) (by decide) _⟩
  have hfull : (serializePair e).isEmpty = false := by
    unfold serializePair
    cases encode e.1 <;> rfl
  unfold parse
  rw [List.splitOn_eq_singleton hnone, List.filter_cons_of_pos (by rw [hfull]; rfl),
    List.filter_nil, List.map_singleton, parsePair_serializePair]

/-- **What was written is read.** -/
theorem parse_serialize (l : List (List UInt8 × List UInt8)) : parse (serialize l) = l := by
  induction l using serialize.induct with
  | case1 => rfl
  | case2 e => exact parse_pair e
  | case3 e rest hrest ih =>
      rw [serialize, parse_append, parse_pair, ih]
      · rfl
      · exact hrest

/-- What is written is ASCII, and neither `#` nor `?`. -/
theorem mem_serialize {b : UInt8} {l : List (List UInt8 × List UInt8)} (h : b ∈ serialize l) :
    unreserved b = true ∨ b = 43 ∨ b = 37 ∨ b = 61 ∨ b = 38 := by
  have hpair : ∀ e, b ∈ serializePair e →
      unreserved b = true ∨ b = 43 ∨ b = 37 ∨ b = 61 ∨ b = 38 := by
    intro e he
    unfold serializePair at he
    rw [List.mem_append, List.mem_cons] at he
    rcases he with he | he | he
    · rcases mem_encode he with h | h | h <;> simp [h]
    · simp [he]
    · rcases mem_encode he with h | h | h <;> simp [h]
  induction l using serialize.induct with
  | case1 => cases h
  | case2 e => exact hpair e h
  | case3 e rest hrest ih =>
      rw [serialize, List.mem_append, List.mem_cons] at h
      · rcases h with h | h | h
        · exact hpair e h
        · simp [h]
        · exact ih h
      · exact hrest

/-! ## 3. Escapes -/

/-- **Every percent sign starts an escape.** -/
def Escaped (s : List UInt8) : Prop :=
  ∀ l r, s = l ++ 37 :: r → ∃ x y t, r = x :: y :: t ∧ (hexValue x).isSome = true ∧
    (hexValue y).isSome = true

theorem escaped_nil : Escaped [] := fun l r h => by simp at h

theorem escaped_cons {b : UInt8} (hb : b ≠ 37) {s : List UInt8} :
    Escaped (b :: s) ↔ Escaped s := by
  constructor
  · rintro h l r rfl
    exact h (b :: l) r rfl
  · intro h l r hs
    cases l with
    | nil =>
        injection hs with hfirst
        exact absurd hfirst hb
    | cons c l =>
        injection hs with _ hrest
        exact h l r hrest

theorem digit_ne {b : UInt8} (h : (hexValue b).isSome = true) : b ≠ 37 := by
  rintro rfl
  exact absurd h (by decide)

theorem escaped_escape {x y : UInt8} {s : List UInt8} :
    Escaped (37 :: x :: y :: s) ↔
      (hexValue x).isSome = true ∧ (hexValue y).isSome = true ∧ Escaped s := by
  constructor
  · intro h
    obtain ⟨_, _, _, hs, hx, hy⟩ := h [] _ rfl
    cases hs
    refine ⟨hx, hy, fun l r hs => h (37 :: x :: y :: l) r ?_⟩
    rw [hs]
    rfl
  · rintro ⟨hx, hy, h⟩ l r hs
    cases l with
    | nil =>
        injection hs with _ hrest
        exact ⟨x, y, s, hrest.symm, hx, hy⟩
    | cons c l =>
        injection hs with _ hrest
        exact (escaped_cons (digit_ne hx)).mpr ((escaped_cons (digit_ne hy)).mpr h) l r hrest

/-- The first bytes of a rest, by their positions in the text. -/
theorem getElem?_of_drop {s t : List UInt8} {i : Nat} {x : UInt8} (h : s.drop i = x :: t) :
    s[i]? = some x ∧ ∀ y u, t = y :: u → s[i + 1]? = some y := by
  have hget : ∀ j, s[i + j]? = (x :: t)[j]? := fun j => by rw [← h, List.getElem?_drop]
  refine ⟨hget 0, ?_⟩
  rintro y u rfl
  exact hget 1

/-- The same, by positions. -/
theorem escaped_iff {s : List UInt8} : Escaped s ↔ ∀ i, s[i]? = some 37 → i + 2 < s.length ∧
    (∃ x, s[i + 1]? = some x ∧ (hexValue x).isSome = true) ∧
    ∃ y, s[i + 2]? = some y ∧ (hexValue y).isSome = true := by
  constructor
  · intro h i hi
    obtain ⟨hlt, hget⟩ := List.getElem?_eq_some_iff.mp hi
    have hs : s = s.take i ++ 37 :: s.drop (i + 1) := by
      rw [← hget, ← List.drop_eq_getElem_cons hlt, List.take_append_drop]
    obtain ⟨x, y, t, hrest, hx, hy⟩ := h _ _ hs
    have hlength := congrArg List.length hrest
    rw [List.length_drop, List.length_cons, List.length_cons] at hlength
    refine ⟨by omega, ⟨x, ?_, hx⟩, y, ?_, hy⟩
    · exact (getElem?_of_drop hrest).1
    · exact (getElem?_of_drop hrest).2 y t rfl
  · rintro h l r rfl
    have hget : ∀ j, (l ++ 37 :: r)[l.length + 1 + j]? = r[j]? := fun j => by
      rw [List.getElem?_append_right (by omega)]
      have hindex : l.length + 1 + j - l.length = j + 1 := by omega
      rw [hindex, List.getElem?_cons_succ]
    obtain ⟨hlt, ⟨x, hx, hxd⟩, y, hy, hyd⟩ := h l.length (by simp)
    rw [show l.length + 1 = l.length + 1 + 0 from rfl, hget] at hx
    rw [show l.length + 2 = l.length + 1 + 1 from rfl, hget] at hy
    match r, hx, hy with
    | x' :: y' :: t, hx, hy =>
        cases hx
        cases hy
        exact ⟨x, y, t, rfl, hxd, hyd⟩

/-- **A text between separators** keeps its escapes whole. -/
theorem Escaped.append {c : UInt8} (hc : hexValue c = none) {l r : List UInt8}
    (h : Escaped (l ++ c :: r)) : Escaped l ∧ Escaped r := by
  constructor
  · rintro l' r' rfl
    obtain ⟨x, y, t, hrest, hx, hy⟩ := h l' (r' ++ c :: r) (by simp)
    match r', hrest with
    | [], hrest =>
        cases hrest
        rw [hc] at hx
        cases hx
    | [_], hrest =>
        cases hrest
        rw [hc] at hy
        cases hy
    | x' :: y' :: t', hrest =>
        cases hrest
        exact ⟨x, y, t', rfl, hx, hy⟩
  · rintro l' r' rfl
    exact h (l ++ c :: l') r' (by simp)

/-! ## 4. Pieces -/

/-- What is decoded at a time. -/
inductive Piece where
  | plain (b : UInt8)
  | escape (x y : UInt8)
  deriving DecidableEq

def Piece.text : Piece → List UInt8
  | .plain b => [b]
  | .escape x y => [37, x, y]

/-- The byte a piece stands for. -/
def Piece.value : Piece → UInt8
  | .plain b => if b = 43 then 32 else b
  | .escape x y => UInt8.ofNat (16 * (hexValue x).getD 0 + (hexValue y).getD 0)

def pieces : List UInt8 → List Piece
  | [] => []
  | 37 :: x :: y :: s =>
      if (hexValue x).isSome && (hexValue y).isSome then .escape x y :: pieces s
      else .plain 37 :: pieces (x :: y :: s)
  | b :: s => .plain b :: pieces s

/-- The pieces make up the text. -/
theorem flatMap_pieces (s : List UInt8) : (pieces s).flatMap Piece.text = s := by
  fun_induction pieces s with
  | case1 => rfl
  | case2 x y s _ ih => rw [List.flatMap_cons, ih]; rfl
  | case3 x y s _ ih => rw [List.flatMap_cons, ih]; rfl
  | case4 b s _ ih => rw [List.flatMap_cons, ih]; rfl

/-- And their values what is decoded. -/
theorem decode_eq_map (s : List UInt8) : decode s = (pieces s).map Piece.value := by
  fun_induction pieces s with
  | case1 => rfl
  | case2 x y s hdigits ih =>
      rw [Bool.and_eq_true, Option.isSome_iff_exists, Option.isSome_iff_exists] at hdigits
      obtain ⟨⟨m, hm⟩, n, hn⟩ := hdigits
      rw [decode, hm, hn, List.map_cons, ← ih, Piece.value, hm, hn]
      rfl
  | case3 x y s hdigits ih =>
      rw [List.map_cons, ← ih, decode]
      split
      · rename_i hm hn
        rw [hm, hn] at hdigits
        exact absurd rfl hdigits
      · rfl
  | case4 b s hno ih =>
      rw [List.map_cons, ← ih]
      by_cases hplus : b = 43
      · subst hplus
        rfl
      · rw [decode]
        · simp [Piece.value, hplus]
        · exact hno
        · exact hplus

/-- **Where every percent sign starts an escape** it is the start of one piece. -/
theorem plain_of_escaped {s : List UInt8} (h : Escaped s) :
    ∀ p ∈ pieces s, 37 ∈ p.text → ∃ x y, p = .escape x y ∧ (hexValue x).isSome = true ∧
      (hexValue y).isSome = true := by
  fun_induction pieces s with
  | case1 => exact fun p hp => (List.not_mem_nil hp).elim
  | case2 x y s hdigits ih =>
      obtain ⟨hx, hy, hrest⟩ := escaped_escape.mp h
      intro p hp hsign
      rcases List.mem_cons.mp hp with rfl | hp
      · exact ⟨x, y, rfl, hx, hy⟩
      · exact ih hrest p hp hsign
  | case3 x y s hdigits ih =>
      obtain ⟨hx, hy, -⟩ := escaped_escape.mp h
      rw [hx, hy] at hdigits
      exact absurd rfl hdigits
  | case4 b s hno ih =>
      have hb : b ≠ 37 := by
        rintro rfl
        obtain ⟨x, y, t, rfl, -⟩ := h [] s rfl
        exact hno x y t rfl rfl
      intro p hp hsign
      rcases List.mem_cons.mp hp with rfl | hp
      · exact absurd (List.mem_singleton.mp hsign).symm hb
      · exact ih ((escaped_cons hb).mp h) p hp hsign

theorem hexValue_lt {b : UInt8} {n : Nat} (h : hexValue b = some n) : n < 16 := by
  unfold hexValue at h
  simp only [Bool.and_eq_true, decide_eq_true_eq, UInt8.le_iff_toNat_le] at h
  split at h
  · rename_i hb
    cases h
    have h57 : (57 : UInt8).toNat = 57 := rfl
    omega
  split at h
  · rename_i hb
    cases h
    have h70 : (70 : UInt8).toNat = 70 := rfl
    omega
  split at h
  · rename_i hb
    cases h
    have h102 : (102 : UInt8).toNat = 102 := rfl
    omega
  · cases h

/-- The digits 2 and 5, of which there is one spelling each. -/
theorem hexValue_eq_two {b : UInt8} : hexValue b = some 2 ↔ b = 50 := by
  constructor
  · intro h
    have hall : ∀ n : Fin 256, hexValue (UInt8.ofNat n) = some 2 → n = 50 := by decide +kernel
    have hb := hall ⟨b.toNat, b.toNat_lt⟩ (by simpa using h)
    exact UInt8.toNat_inj.mp (congrArg Fin.val hb)
  · rintro rfl
    rfl

theorem hexValue_eq_five {b : UInt8} : hexValue b = some 5 ↔ b = 53 := by
  constructor
  · intro h
    have hall : ∀ n : Fin 256, hexValue (UInt8.ofNat n) = some 5 → n = 53 := by decide +kernel
    have hb := hall ⟨b.toNat, b.toNat_lt⟩ (by simpa using h)
    exact UInt8.toNat_inj.mp (congrArg Fin.val hb)
  · rintro rfl
    rfl

/-- **A percent sign is decoded only from `%25`.** -/
theorem value_eq_percent {s : List UInt8} (h : Escaped s) {p : Piece} (hp : p ∈ pieces s) :
    p.value = 37 ↔ p = .escape 50 53 := by
  constructor
  · intro hvalue
    cases p with
    | plain b =>
        by_cases hplus : b = 43
        · rw [Piece.value, if_pos hplus] at hvalue
          cases hvalue
        · rw [Piece.value, if_neg hplus] at hvalue
          obtain ⟨x, y, hescape, -⟩ := plain_of_escaped h _ hp (hvalue ▸ List.mem_singleton_self _)
          cases hescape
    | escape x y =>
        obtain ⟨_, _, hescape, hx, hy⟩ := plain_of_escaped h _ hp (List.mem_cons_self ..)
        cases hescape
        obtain ⟨m, hm⟩ := Option.isSome_iff_exists.mp hx
        obtain ⟨n, hn⟩ := Option.isSome_iff_exists.mp hy
        have hm16 := hexValue_lt hm
        have hn16 := hexValue_lt hn
        rw [Piece.value, hm, hn, ← UInt8.toNat_inj, UInt8.toNat_ofNat'] at hvalue
        have hvalue : (16 * m + n) % 2 ^ 8 = 37 := hvalue
        obtain ⟨rfl, rfl⟩ : m = 2 ∧ n = 5 := by omega
        rw [hexValue_eq_two.mp hm, hexValue_eq_five.mp hn]
  · rintro rfl
    rfl

/-- So many are decoded. -/
theorem count_decode {s : List UInt8} (h : Escaped s) :
    (decode s).count 37 = (pieces s).count (.escape 50 53) := by
  rw [decode_eq_map, List.count, List.countP_map, List.count]
  refine List.countP_congr fun p hp => ?_
  rw [Function.comp_apply, beq_iff_eq, beq_iff_eq]
  exact value_eq_percent h hp

/-! ## 5. The parts of a text -/

/-- The name and the value of a part, before they are decoded. -/
def rawPair (s : List UInt8) : List UInt8 × List UInt8 :=
  (s.takeWhile (· != 61), (s.dropWhile (· != 61)).tail)

def rawPairs (s : List UInt8) : List (List UInt8 × List UInt8) :=
  ((s.splitOn 38).filter fun part => !part.isEmpty).map rawPair

theorem parse_eq_map (s : List UInt8) :
    parse s = (rawPairs s).map fun e => (decode e.1, decode e.2) := by
  rw [parse, rawPairs, List.map_map]
  rfl

/-- A part has no equals sign, or is cut at the first one. -/
theorem rawPair_cases (s : List UInt8) :
    rawPair s = (s, []) ∨ s = (rawPair s).1 ++ 61 :: (rawPair s).2 := by
  by_cases hmem : (61 : UInt8) ∈ s
  · right
    have hne : s.dropWhile (· != 61) ≠ [] := by
      rw [ne_eq, List.dropWhile_eq_nil_iff]
      exact fun hall => absurd (hall 61 hmem) (by decide)
    have hhead : (s.dropWhile (· != 61)).head hne = 61 := by
      have hnot := List.head_dropWhile_not (· != 61) hne
      simpa using hnot
    have hdrop : s.dropWhile (· != 61) = 61 :: (s.dropWhile (· != 61)).tail := by
      conv_lhs => rw [← List.cons_head_tail hne, hhead]
    calc s = s.takeWhile (· != 61) ++ s.dropWhile (· != 61) :=
          List.takeWhile_append_dropWhile.symm
      _ = s.takeWhile (· != 61) ++ 61 :: (s.dropWhile (· != 61)).tail := by rw [← hdrop]
  · left
    have hall : ∀ b ∈ s, (b != 61) = true := by
      intro b hb
      rw [bne_iff_ne]
      rintro rfl
      exact hmem hb
    unfold rawPair
    rw [List.takeWhile_eq_self_iff.mpr hall, List.dropWhile_eq_nil_iff.mpr hall]
    rfl

theorem Escaped.rawPair {s : List UInt8} (h : Escaped s) :
    Escaped (rawPair s).1 ∧ Escaped (rawPair s).2 := by
  rcases rawPair_cases s with hwhole | hcut
  · rw [hwhole]
    exact ⟨h, escaped_nil⟩
  · exact Escaped.append (c := 61) (by decide) (hcut ▸ h)

theorem escaped_parts {parts : List (List UInt8)}
    (h : Escaped ([(38 : UInt8)].intercalate parts)) : ∀ part ∈ parts, Escaped part := by
  induction parts with
  | nil => exact fun part hpart => (List.not_mem_nil hpart).elim
  | cons part rest ih =>
      cases rest with
      | nil =>
          intro part' hpart'
          rw [List.mem_singleton.mp hpart']
          simpa using h
      | cons next rest =>
          rw [List.intercalate_cons_cons, List.append_assoc] at h
          obtain ⟨hfirst, hrest⟩ := Escaped.append (c := 38) (by decide) h
          intro part' hpart'
          rcases List.mem_cons.mp hpart' with rfl | hpart'
          · exact hfirst
          · exact ih hrest part' hpart'

/-- **The names and values of a text keep its escapes whole.** -/
theorem Escaped.rawPairs {s : List UInt8} (h : Escaped s) :
    ∀ e ∈ rawPairs s, Escaped e.1 ∧ Escaped e.2 := by
  intro e he
  obtain ⟨part, hpart, rfl⟩ := List.mem_map.mp he
  have hjoin : [(38 : UInt8)].intercalate (s.splitOn 38) = s := List.intercalate_splitOn 38
  rw [← hjoin] at h
  exact (escaped_parts h part (List.mem_of_mem_filter hpart)).rawPair

theorem count_rawPair {b : UInt8} (hb : b ≠ 61) (s : List UInt8) :
    (rawPair s).1.count b + (rawPair s).2.count b = s.count b := by
  rcases rawPair_cases s with hwhole | hcut
  · rw [hwhole]
    rfl
  · conv_rhs => rw [hcut]
    rw [List.count_append, List.count_cons_of_ne (Ne.symm hb)]

theorem count_parts {b : UInt8} (hb : b ≠ 38) (parts : List (List UInt8)) :
    (parts.map (List.count b)).sum = ([(38 : UInt8)].intercalate parts).count b := by
  induction parts with
  | nil => rfl
  | cons part rest ih =>
      cases rest with
      | nil => simp
      | cons next rest =>
          rw [List.map_cons, List.sum_cons, ih, List.intercalate_cons_cons, List.append_assoc,
            List.count_append]
          exact congrArg _ (List.count_cons_of_ne (Ne.symm hb)).symm

/-- **Nothing but separators is left out** of the names and values. -/
theorem count_rawPairs {b : UInt8} (h₁ : b ≠ 38) (h₂ : b ≠ 61) (s : List UInt8) :
    ((rawPairs s).map fun e => e.1.count b + e.2.count b).sum = s.count b := by
  have hparts : ∀ parts : List (List UInt8),
      (((parts.filter fun part => !part.isEmpty).map rawPair).map fun e =>
        e.1.count b + e.2.count b).sum = (parts.map (List.count b)).sum := by
    intro parts
    induction parts with
    | nil => rfl
    | cons part rest ih =>
        cases part with
        | nil =>
            rw [List.filter_cons_of_neg (by decide), ih, List.map_cons, List.sum_cons,
              List.count_nil, Nat.zero_add]
        | cons c part =>
            rw [List.filter_cons_of_pos rfl, List.map_cons, List.map_cons, List.sum_cons, ih,
              List.map_cons, List.sum_cons, count_rawPair h₂]
  rw [rawPairs, hparts, count_parts h₁, List.intercalate_splitOn]

end Form
