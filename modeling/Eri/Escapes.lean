/-
  File:      Eri/Escapes.lean
  Subject:   Percent escapes in queries and bodies (src/web.rs, valid_percent and pairs).

  * `validPercentFrom` -- the loop of `valid_percent`, whose indexing can fail;
  * `validPercentFrom_eq` -- **it does not**, and the loop is the recursion of `validPercent`;
  * `validPercent_iff` -- what is accepted;
  * `FormReading` -- what the program relies on of the form parser;
  * `percent_escapes` -- **a percent sign in a parameter was written as `%25`**.
-/
import Eri.Forms
import Eri.Store

namespace Eri

namespace Web

/-! ## 1. The loop -/

/-- Whether a digit is missing after index `i`; later bytes are read only when earlier ones
    pass. -/
def brokenEscape (b : List UInt8) (i : Nat) : Option Bool :=
  if i + 2 ≥ b.length then some true
  else do
    let x ← b[i + 1]?
    if !isHexByte x then some true
    else do
      let y ← b[i + 2]?
      some !isHexByte y

/-- `valid_percent` from index `i` on; there is no result when an index is out of range. -/
def validPercentFrom (b : List UInt8) (i : Nat) : Option Bool :=
  if i < b.length then do
    let c ← b[i]?
    let broken ← if c = 37 then brokenEscape b i else some false
    if broken then some false
    else validPercentFrom b (i + if c = 37 then 3 else 1)
  else some true
termination_by b.length - i
decreasing_by
  split
  · omega
  · omega

theorem validPercent_cons {b : UInt8} (hb : b ≠ 37) (rest : List UInt8) :
    validPercent (b :: rest) = validPercent rest := by
  rw [validPercent.eq_def]
  exact if_neg hb

theorem brokenEscape_of_short {b : List UInt8} {i : Nat} (h : b.length ≤ i + 2) :
    brokenEscape b i = some true := if_pos h

theorem brokenEscape_of_two {b t : List UInt8} {i : Nat} {x y : UInt8}
    (h : b.drop (i + 1) = x :: y :: t) :
    brokenEscape b i = some !(isHexByte x && isHexByte y) := by
  have hlength := congrArg List.length h
  rw [List.length_drop, List.length_cons, List.length_cons] at hlength
  obtain ⟨hx, hnext⟩ := Form.getElem?_of_drop h
  have hy : b[i + 2]? = some y := hnext y t rfl
  rw [brokenEscape, if_neg (by omega), hx]
  cases hdigit : isHexByte x with
  | false => simp [hdigit]
  | true => simp [hdigit, hy]

/-- **The loop stays in range, and is the recursion over the text.** -/
theorem validPercentFrom_eq (b : List UInt8) (i : Nat) :
    validPercentFrom b i = some (validPercent (b.drop i)) := by
  rw [validPercentFrom]
  by_cases hi : i < b.length
  · rw [if_pos hi, List.getElem?_eq_getElem hi, List.drop_eq_getElem_cons hi, Option.bind_eq_bind,
      Option.bind_some]
    by_cases hsign : b[i] = 37
    · rw [if_pos hsign, if_pos hsign, hsign]
      -- an escape needs the two bytes after it
      match hrest : b.drop (i + 1) with
      | [] =>
          have hlength := congrArg List.length hrest
          rw [List.length_drop, List.length_nil] at hlength
          rw [brokenEscape_of_short (by omega)]
          rfl
      | [_] =>
          have hlength := congrArg List.length hrest
          rw [List.length_drop, List.length_singleton] at hlength
          rw [brokenEscape_of_short (by omega)]
          rfl
      | x :: y :: t =>
          have hnext : b.drop (i + 3) = t := by
            have hdrop := congrArg (List.drop 2) hrest
            rw [List.drop_drop] at hdrop
            exact hdrop
          rw [brokenEscape_of_two hrest, validPercentFrom_eq b (i + 3), hnext]
          cases hdigits : isHexByte x && isHexByte y with
          | false => simp [validPercent, hdigits]
          | true => simp [validPercent, hdigits]
    · rw [if_neg hsign, if_neg hsign, validPercentFrom_eq b (i + 1), validPercent_cons hsign]
      rfl
  · rw [if_neg hi, List.drop_eq_nil_of_le (by omega)]
    rfl
termination_by b.length - i

/-! ## 2. What is accepted -/

theorem isHexByte_eq (b : UInt8) : isHexByte b = (Form.hexValue b).isSome := by
  unfold isHexByte Form.hexValue
  cases (48 ≤ b && b ≤ 57 : Bool) <;> cases (65 ≤ b && b ≤ 70 : Bool) <;>
    cases (97 ≤ b && b ≤ 102 : Bool) <;> rfl

theorem validPercent_escaped (b : List UInt8) : validPercent b = true ↔ Form.Escaped b := by
  fun_induction validPercent b with
  | case1 => exact iff_of_true rfl Form.escaped_nil
  | case2 x y rest ih =>
      rw [Form.escaped_escape, Bool.and_eq_true, Bool.and_eq_true, ih, isHexByte_eq,
        isHexByte_eq, and_assoc]
  | case3 rest hno =>
      refine iff_of_false Bool.false_ne_true fun h => ?_
      obtain ⟨x, y, t, hrest, -⟩ := h [] rest rfl
      exact hno x y t hrest
  | case4 b rest hb ih => rw [Form.escaped_cons hb, ih]

/-- **What is accepted**, by positions. -/
theorem validPercent_iff {b : List UInt8} :
    validPercent b = true ↔ ∀ i, b[i]? = some 37 → i + 2 < b.length ∧
      (∃ x, b[i + 1]? = some x ∧ isHexByte x = true) ∧
      ∃ y, b[i + 2]? = some y ∧ isHexByte y = true := by
  simp only [isHexByte_eq]
  exact (validPercent_escaped b).trans Form.escaped_iff

/-! ## 3. Parameters -/

/-- `form_urlencoded::parse`: names and values are decoded to bytes, and these are read as text.
    An ASCII byte is always a character of its own, and no other byte gives an ASCII one. -/
structure FormReading (C : HttpCrates) (lossy : List UInt8 → String) : Prop where
  parse : ∀ s, C.formParse s = (Form.parse s).map fun e => (lossy e.1, lossy e.2)
  single : ∀ x b y, b < 128 →
    lossy (x ++ b :: y) = lossy x ++ String.singleton (Char.ofNat b.toNat) ++ lossy y
  ascii : ∀ x, ∀ c ∈ (lossy x).toList, c.toNat < 128 → UInt8.ofNat c.toNat ∈ x

section Reading

variable {C : HttpCrates} {lossy : List UInt8 → String}

theorem FormReading.absent (hC : FormReading C lossy) {x : List UInt8} (h : 37 ∉ x) :
    (lossy x).toList.count '%' = 0 :=
  List.count_eq_zero.mpr fun hmem => h (hC.ascii x '%' hmem (by decide))

/-- As many percent signs are read as were decoded. -/
theorem FormReading.count (hC : FormReading C lossy) (x : List UInt8) :
    (lossy x).toList.count '%' = x.count 37 := by
  induction hlength : x.length using Nat.strong_induction_on generalizing x with
  | _ n ih =>
    by_cases hmem : (37 : UInt8) ∈ x
    · -- cut at the first sign
      obtain ⟨l, r, rfl, hfirst⟩ := List.eq_append_cons_of_mem hmem
      have hrest := ih r.length (by simp [← hlength]; omega) r rfl
      have hsign : String.singleton (Char.ofNat (37 : UInt8).toNat) = "%" := by decide
      rw [hC.single l 37 r (by decide), hsign, String.toList_append, String.toList_append,
        List.count_append, List.count_append, hC.absent hfirst, hrest, List.count_append,
        List.count_cons_self, List.count_eq_zero.mpr hfirst]
      have hone : "%".toList.count '%' = 1 := by decide
      omega
    · rw [hC.absent hmem, List.count_eq_zero.mpr hmem]

/-- **A name or value whose percent signs are used up by escapes**: each is the start of one
    piece, and is in the text again where that piece is `%25`. -/
structure Consumed (lossy : List UInt8 → String) (s : List UInt8) : Prop where
  text : (Form.pieces s).flatMap Form.Piece.text = s
  value : Form.decode s = (Form.pieces s).map Form.Piece.value
  escape : ∀ p ∈ Form.pieces s, 37 ∈ p.text →
    ∃ x y, p = .escape x y ∧ isHexByte x = true ∧ isHexByte y = true
  sign : ∀ p ∈ Form.pieces s, p.value = 37 ↔ p = .escape 50 53
  count : (lossy (Form.decode s)).toList.count '%' = (Form.pieces s).count (.escape 50 53)

theorem FormReading.consumed (hC : FormReading C lossy) {s : List UInt8} (h : Form.Escaped s) :
    Consumed lossy s where
  text := Form.flatMap_pieces s
  value := Form.decode_eq_map s
  escape p hp hsign := by
    obtain ⟨x, y, hescape, hx, hy⟩ := Form.plain_of_escaped h p hp hsign
    exact ⟨x, y, hescape, (isHexByte_eq x).trans hx, (isHexByte_eq y).trans hy⟩
  sign _ hp := Form.value_eq_percent h hp
  count := (hC.count _).trans (Form.count_decode h)

/-- The parameters of an accepted text. -/
theorem pairs_some {raw : String} {max : Nat} {q : List (String × String)}
    (h : pairs C raw max = some q) :
    validPercent (utf8 raw) = true ∧ q = C.formParse (utf8 raw) := by
  unfold pairs at h
  split at h
  · cases h
  rename_i hraw
  rw [not_or, Bool.not_eq_true, Bool.not_eq_false'] at hraw
  dsimp only at h
  split at h
  · cases h
  · cases h
    exact ⟨hraw.2, rfl⟩

/-- **A percent sign in a parameter was written as `%25`.** The scan of any text ends without an
    index out of range, and accepts exactly the texts in which each percent sign has two
    hexadecimal digits after it. So the names and values of an accepted query or body hold all
    of its percent signs, each is used up as the start of an escape, and as many are in what is
    read as there are escapes `%25`. -/
theorem percent_escapes (C : HttpCrates) {lossy : List UInt8 → String}
    (hC : FormReading C lossy) :
    (∀ b : List UInt8, ∃ r, validPercentFrom b 0 = some r ∧ validPercent b = r ∧
      (r = true ↔ ∀ i, b[i]? = some 37 → i + 2 < b.length ∧
        (∃ x, b[i + 1]? = some x ∧ isHexByte x = true) ∧
        ∃ y, b[i + 2]? = some y ∧ isHexByte y = true)) ∧
    ∀ raw max q, pairs C raw max = some q →
      q = (Form.rawPairs (utf8 raw)).map (fun e =>
        (lossy (Form.decode e.1), lossy (Form.decode e.2))) ∧
      ((Form.rawPairs (utf8 raw)).map fun e => e.1.count 37 + e.2.count 37).sum =
        (utf8 raw).count 37 ∧
      ∀ e ∈ Form.rawPairs (utf8 raw), Consumed lossy e.1 ∧ Consumed lossy e.2 := by
  refine ⟨fun b => ⟨validPercent b, validPercentFrom_eq b 0, rfl, validPercent_iff⟩,
    fun raw max q h => ?_⟩
  obtain ⟨hvalid, rfl⟩ := pairs_some h
  refine ⟨?_, Form.count_rawPairs (by decide) (by decide) _, fun e he => ?_⟩
  · rw [hC.parse, Form.parse_eq_map, List.map_map]
    rfl
  · obtain ⟨hname, hvalue⟩ := ((validPercent_escaped _).mp hvalid).rawPairs e he
    exact ⟨hC.consumed hname, hC.consumed hvalue⟩

end Reading

/-! A percent sign that was written as an escape before a 4 and a 1. -/

namespace Sample

/-- Bytes as text, one character for each. -/
def bytewise (x : List UInt8) : String :=
  String.ofList (x.map fun b => if b < 128 then Char.ofNat b.toNat else '\ufffd')

def bytewiseCrates : HttpCrates :=
  { Eri.Sample.platform with
    formParse := fun s => (Form.parse s).map fun e => (bytewise e.1, bytewise e.2)
    formSerialize := fun _ => "", appendPairs := fun base _ => some base }

theorem bytewise_reading : FormReading bytewiseCrates bytewise where
  parse _ := rfl
  single x b y hb := by
    apply String.toList_injective
    simp [bytewise, hb]
  ascii x c hc hlt := by
    rw [bytewise, String.toList_ofList] at hc
    obtain ⟨b, hb, rfl⟩ := List.mem_map.mp hc
    by_cases hascii : b < 128
    · rw [if_pos hascii, toNat_ofNat_ascii ⟨_, UInt8.lt_iff_toNat_lt.mp hascii⟩,
        UInt8.ofNat_toNat]
      exact hb
    · rw [if_neg hascii] at hlt
      exact absurd hlt (by decide)

end Sample

theorem percent_escapes_twice :
    pairs Sample.bytewiseCrates "a=%2541" 8192 = some [("a", "%41")] ∧
      Consumed Sample.bytewise (utf8 "%2541") := by
  have hpairs : pairs Sample.bytewiseCrates "a=%2541" 8192 = some [("a", "%41")] := by
    decide +kernel
  obtain ⟨-, hread⟩ := percent_escapes Sample.bytewiseCrates Sample.bytewise_reading
  obtain ⟨-, -, hall⟩ := hread _ _ _ hpairs
  exact ⟨hpairs, (hall (utf8 "a", utf8 "%2541") (by decide +kernel)).2⟩

end Web

end Eri
