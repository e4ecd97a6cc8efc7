/-
  File:      Eri/Json.lean
  Subject:   JSON texts and the values they stand for.

  A value has many texts: with blanks between its parts, and with characters of its strings
  escaped or not. PostgreSQL writes one of them for a `jsonb` value.

  * `Spells` -- the grammar of RFC 8259, as a relation between a text and a value that is read
    from it;
  * **`spells_size`** -- the strings of a value take no more octets than any text of it;
  * `Same` -- a value written again, with the members of its objects in another order;
  * `jsonbText` -- the text of a `jsonb` value, with `same_octets` and `octets_escape_le`.
-/
import Eri.Cimd

namespace Eri

namespace Json

/-! ## 1. Characters and octets -/

def backslash : Char := Char.ofNat 92

def quotation : Char := Char.ofNat 34

def openBrace : Char := Char.ofNat 123

def closeBrace : Char := Char.ofNat 125

/-- The octets of a text in UTF-8. -/
def octets (t : List Char) : Nat := (t.map Char.utf8Size).sum

@[simp] theorem octets_nil : octets [] = 0 := rfl

@[simp] theorem octets_cons (c : Char) (t : List Char) :
    octets (c :: t) = c.utf8Size + octets t := rfl

@[simp] theorem octets_append (t u : List Char) : octets (t ++ u) = octets t + octets u := by
  simp [octets]

theorem length_le_octets (t : List Char) : t.length ≤ octets t := by
  induction t with
  | nil => exact Nat.le_refl 0
  | cons c t ih =>
      have hpos : 1 ≤ c.utf8Size := c.utf8Size_pos
      rw [List.length_cons, octets_cons]
      omega

theorem octets_toList (s : String) : octets s.toList = s.utf8ByteSize := by
  have h : ∀ t, octets t = String.utf8Len t := by
    intro t
    induction t with
    | nil => rfl
    | cons c t ih => simp [ih, Nat.add_comm]
  rw [h, ← String.utf8ByteSize_ofList, String.ofList_toList]

/-- The octets of a string are the bytes it is encoded as. -/
theorem length_utf8 (s : String) : (utf8 s).length = octets s.toList := by
  rw [octets_toList]
  rfl

/-! ## 2. Texts -/

/-- Blanks between the parts of a text. -/
def Blank (t : List Char) : Prop := ∀ c ∈ t, c = ' ' ∨ c = Char.ofNat 9 ∨ c = Char.ofNat 10 ∨
  c = Char.ofNat 13

/-- The letters after a backslash and what they stand for. -/
def shortEscapes : List (Char × Char) :=
  [(quotation, quotation), (backslash, backslash), ('/', '/'), ('b', Char.ofNat 8),
   ('f', Char.ofNat 12), ('n', Char.ofNat 10), ('r', Char.ofNat 13), ('t', Char.ofNat 9)]

def hexDigit (c : Char) : Nat :=
  if c.isDigit then c.toNat - 48 else if 'a' ≤ c then c.toNat - 87 else c.toNat - 55

def IsHex (c : Char) : Prop := c.isDigit = true ∨ ('a' ≤ c ∧ c ≤ 'f') ∨ ('A' ≤ c ∧ c ≤ 'F')

/-- The value of hexadecimal digits. -/
def hexValue (digits : List Char) : Nat := digits.foldl (fun n c => n * 16 + hexDigit c) 0

/-- Four hexadecimal digits. -/
def Hex4 (digits : List Char) : Prop := digits.length = 4 ∧ ∀ c ∈ digits, IsHex c

/-- A character of a string, as itself or escaped. -/
inductive SpellsChar : List Char → Char → Prop where
  | plain {c : Char} (hc : 32 ≤ c.toNat) (hq : c ≠ quotation) (hb : c ≠ backslash) :
      SpellsChar [c] c
  | short {letter c : Char} (h : (letter, c) ∈ shortEscapes) : SpellsChar [backslash, letter] c
  | unicode {digits : List Char} {c : Char} (h : Hex4 digits) (hc : hexValue digits = c.toNat) :
      SpellsChar (backslash :: 'u' :: digits) c
  | surrogates {high low : List Char} {c : Char} (hhigh : Hex4 high) (hlow : Hex4 low)
      (hc : 0x10000 + (hexValue high - 0xd800) * 0x400 + (hexValue low - 0xdc00) = c.toNat) :
      SpellsChar (backslash :: 'u' :: (high ++ backslash :: 'u' :: low)) c

/-- The characters of a string, one after the other. -/
inductive SpellsChars : List Char → List Char → Prop where
  | nil : SpellsChars [] []
  | cons {t u : List Char} {c : Char} {cs : List Char} (h : SpellsChar t c)
      (hs : SpellsChars u cs) : SpellsChars (t ++ u) (c :: cs)

/-- A string in quotation marks. -/
def SpellsString (t : List Char) (s : String) : Prop :=
  ∃ u, SpellsChars u s.toList ∧ t = quotation :: (u ++ [quotation])

/-- What a reader may make of the members of an object: they come in any order, and perhaps not
    those whose name comes again. -/
structure Gathered (ms ms' : List (String × Json)) : Prop where
  members : ms'.Subperm ms
  names : ∀ m ∈ ms, m.1 ∈ ms'.map (·.1)

mutual

/-- **A text of a value.** A number is any run of the characters numbers are made of. -/
inductive Spells : List Char → Json → Prop where
  | blank {before t after : List Char} {v : Json} (hb : Blank before) (ha : Blank after)
      (h : Spells t v) : Spells (before ++ t ++ after) v
  | null : Spells "null".toList .null
  | true : Spells "true".toList (.bool true)
  | false : Spells "false".toList (.bool false)
  | num {t : List Char} {n : Int} (hne : t ≠ [])
      (h : ∀ c ∈ t, c.isDigit = Bool.true ∨ c ∈ ['-', '+', '.', 'e', 'E']) : Spells t (.num n)
  | str {t : List Char} {s : String} (h : SpellsString t s) : Spells t (.str s)
  | empty {t : List Char} (h : Blank t) : Spells ('[' :: (t ++ [']'])) (.arr [])
  | arr {t : List Char} {v : Json} {items : List Json} (h : SpellsItems t v items) :
      Spells ('[' :: (t ++ [']'])) (.arr (v :: items))
  | none {t : List Char} (h : Blank t) : Spells (openBrace :: (t ++ [closeBrace])) (.obj [])
  | obj {t : List Char} {m : String × Json} {ms ms' : List (String × Json)}
      (h : SpellsMembers t m ms) (hread : Gathered (m :: ms) ms') :
      Spells (openBrace :: (t ++ [closeBrace])) (.obj ms')

/-- The items of an array, with commas between them. -/
inductive SpellsItems : List Char → Json → List Json → Prop where
  | last {t : List Char} {v : Json} (h : Spells t v) : SpellsItems t v []
  | more {t u : List Char} {v w : Json} {items : List Json} (h : Spells t v)
      (hs : SpellsItems u w items) : SpellsItems (t ++ ',' :: u) v (w :: items)

/-- The members of an object, with commas between them. -/
inductive SpellsMembers : List Char → String × Json → List (String × Json) → Prop where
  | single {before n after t : List Char} {name : String} {v : Json} (hb : Blank before)
      (ha : Blank after) (hn : SpellsString n name) (h : Spells t v) :
      SpellsMembers (before ++ n ++ after ++ ':' :: t) (name, v) []
  | further {before n after t u : List Char} {name : String} {v : Json} {m : String × Json}
      {ms : List (String × Json)} (hb : Blank before) (ha : Blank after)
      (hn : SpellsString n name) (h : Spells t v) (hs : SpellsMembers u m ms) :
      SpellsMembers (before ++ n ++ after ++ ':' :: (t ++ ',' :: u)) (name, v) (m :: ms)

end

/-! ## 3. Strings take no more octets than their text -/

mutual

/-- The octets of all strings of a value. -/
def size : Json → Nat
  | .str s => octets s.toList
  | .arr items => sizeItems items
  | .obj ms => sizeMembers ms
  | .null | .bool _ | .num _ => 0

def sizeItems : List Json → Nat
  | [] => 0
  | v :: items => size v + sizeItems items

def sizeMembers : List (String × Json) → Nat
  | [] => 0
  | (_, v) :: ms => size v + sizeMembers ms

end

theorem spellsChar_octets {t : List Char} {c : Char} (h : SpellsChar t c) :
    c.utf8Size ≤ octets t := by
  have hfour : c.utf8Size ≤ 4 := c.utf8Size_le_four
  cases h with
  | plain hc hq hb => simp
  | short h =>
      simp only [shortEscapes, List.mem_cons, Prod.mk.injEq, List.not_mem_nil, or_false] at h
      rcases h with ⟨rfl, rfl⟩ | ⟨rfl, rfl⟩ | ⟨rfl, rfl⟩ | ⟨rfl, rfl⟩ | ⟨rfl, rfl⟩ | ⟨rfl, rfl⟩ |
        ⟨rfl, rfl⟩ | ⟨rfl, rfl⟩ <;> decide
  | @unicode digits _ h hc =>
      have hlength := length_le_octets (backslash :: 'u' :: digits)
      simp only [List.length_cons, h.1] at hlength
      omega
  | @surrogates high low _ hhigh hlow hc =>
      have hlength := length_le_octets (backslash :: 'u' :: (high ++ backslash :: 'u' :: low))
      simp only [List.length_cons, List.length_append, hhigh.1, hlow.1] at hlength
      omega

theorem spellsChars_octets {t cs : List Char} (h : SpellsChars t cs) : octets cs ≤ octets t := by
  induction h with
  | nil => exact Nat.le_refl 0
  | cons h _ ih =>
      have hchar := spellsChar_octets h
      rw [octets_cons, octets_append]
      omega

theorem spellsString_octets {t : List Char} {s : String} (h : SpellsString t s) :
    octets s.toList ≤ octets t := by
  obtain ⟨u, hu, rfl⟩ := h
  have hchars := spellsChars_octets hu
  rw [octets_cons, octets_append]
  omega

theorem sizeMembers_eq (ms : List (String × Json)) :
    sizeMembers ms = (ms.map fun m => size m.2).sum := by
  induction ms with
  | nil => rfl
  | cons m ms ih => rw [sizeMembers, ih, List.map_cons, List.sum_cons]

theorem sizeMembers_sublist {ms ms' : List (String × Json)} (h : ms'.Sublist ms) :
    sizeMembers ms' ≤ sizeMembers ms := by
  induction h with
  | slnil => exact Nat.le_refl _
  | cons m _ ih =>
      rw [sizeMembers]
      omega
  | cons_cons m _ ih =>
      rw [sizeMembers, sizeMembers]
      omega

theorem Gathered.size_le {ms ms' : List (String × Json)} (h : Gathered ms ms') :
    sizeMembers ms' ≤ sizeMembers ms := by
  obtain ⟨kept, hperm, hsub⟩ := h.members
  rw [sizeMembers_eq ms', ← (hperm.map _).sum_nat, ← sizeMembers_eq]
  exact sizeMembers_sublist hsub

/-- **The strings of a value take no more octets than any text of it.** -/
theorem spells_size {t : List Char} {v : Json} (h : Spells t v) : size v ≤ octets t := by
  induction h using Spells.rec (motive_2 := fun t v items _ => size v + sizeItems items ≤ octets t)
    (motive_3 := fun t m ms _ => size m.2 + sizeMembers ms ≤ octets t) with
  | blank hb ha h ih =>
      simp only [octets_append]
      omega
  | null => exact Nat.zero_le _
  | true => exact Nat.zero_le _
  | false => exact Nat.zero_le _
  | num hne h => exact Nat.zero_le _
  | str h => exact spellsString_octets h
  | empty h => exact Nat.zero_le _
  | arr h ih =>
      simp only [size, sizeItems, octets_cons, octets_append]
      omega
  | none h => exact Nat.zero_le _
  | obj h hread ih =>
      have hle := hread.size_le
      simp only [size, sizeMembers, octets_cons, octets_append] at hle ⊢
      omega
  | last h ih =>
      simp only [sizeItems]
      omega
  | more h hs ih ihs =>
      simp only [sizeItems, octets_append, octets_cons]
      omega
  | single hb ha hn h ih =>
      simp only [sizeMembers, octets_append, octets_cons]
      omega
  | further hb ha hn h hs ih ihs =>
      simp only [sizeMembers, octets_append, octets_cons]
      omega

theorem size_member {ms : List (String × Json)} {m : String × Json} (h : m ∈ ms) :
    size m.2 ≤ sizeMembers ms := by
  induction ms with
  | nil => cases h
  | cons x ms ih =>
      rw [sizeMembers]
      rcases List.mem_cons.mp h with rfl | h
      · omega
      · have hrest := ih h
        omega

/-- Two members of an object fit into it together. -/
theorem size_two {ms : List (String × Json)} {name name' : String} {v w : Json}
    (hv : (name, v) ∈ ms) (hw : (name', w) ∈ ms) (hne : name ≠ name') :
    size v + size w ≤ sizeMembers ms := by
  induction ms with
  | nil => cases hv
  | cons x ms ih =>
      rw [sizeMembers]
      rcases List.mem_cons.mp hv with hx | hrest
      · have hin : (name', w) ∈ ms := by
          rcases List.mem_cons.mp hw with hx' | hin
          · exact absurd (congrArg Prod.fst (hx.trans hx'.symm)) hne
          · exact hin
        have hsize : size w ≤ sizeMembers ms := size_member hin
        rw [← hx]
        exact Nat.add_le_add_left hsize _
      · rcases List.mem_cons.mp hw with hx | hrest'
        · have hsize : size v ≤ sizeMembers ms := size_member hrest
          rw [← hx, Nat.add_comm (size v)]
          exact Nat.add_le_add_left hsize _
        · exact Nat.le_trans (ih hrest hrest') (Nat.le_add_left ..)

theorem sizeItems_strings (ss : List String) :
    sizeItems (ss.map .str) = (ss.map fun s => octets s.toList).sum := by
  induction ss with
  | nil => rfl
  | cons s ss ih => rw [List.map_cons, sizeItems, ih, size, List.map_cons, List.sum_cons]

/-! ## 4. The same value, written again -/

mutual

/-- **A value written again**, with the members of its objects in any order. -/
inductive Same : Json → Json → Prop where
  | refl (v : Json) : Same v v
  | arr {items items' : List Json} (h : SameItems items items') : Same (.arr items) (.arr items')
  | obj {ms ms' ms'' : List (String × Json)} (h : SameMembers ms ms') (hperm : ms'.Perm ms'') :
      Same (.obj ms) (.obj ms'')

inductive SameItems : List Json → List Json → Prop where
  | nil : SameItems [] []
  | cons {v v' : Json} {items items' : List Json} (h : Same v v')
      (hs : SameItems items items') : SameItems (v :: items) (v' :: items')

inductive SameMembers : List (String × Json) → List (String × Json) → Prop where
  | none : SameMembers [] []
  | member {name : String} {v v' : Json} {ms ms' : List (String × Json)} (h : Same v v')
      (hs : SameMembers ms ms') : SameMembers ((name, v) :: ms) ((name, v') :: ms')

end

/-- A string is written as the same string. -/
theorem Same.eq_str {s : String} {v : Json} (h : Same (.str s) v) : v = .str s := by
  cases h
  rfl

theorem Same.eq_num {n : Int} {v : Json} (h : Same (.num n) v) : v = .num n := by
  cases h
  rfl

theorem Same.eq_bool {b : Bool} {v : Json} (h : Same (.bool b) v) : v = .bool b := by
  cases h
  rfl

/-- The order of the members does not matter to a name that occurs once. -/
theorem member_perm {ms ms' : List (String × Json)} (h : ms.Perm ms') (name : String) :
    member ms' name = member ms name := by
  have hfilter : (ms.filter (·.1 = name)).Perm (ms'.filter (·.1 = name)) := h.filter _
  have hlength := hfilter.length_eq
  unfold member
  cases hl : ms.filter (·.1 = name) with
  | nil =>
      rw [hl] at hfilter
      rw [hfilter.nil_eq]
  | cons m rest =>
      rw [hl] at hfilter hlength
      cases rest with
      | nil => rw [List.singleton_perm.mp hfilter]
      | cons m' rest =>
          cases hl' : ms'.filter (·.1 = name) with
          | nil => rfl
          | cons x xs =>
              cases xs with
              | nil => simp [hl'] at hlength
              | cons y ys => rfl

theorem onlyFields_perm {ms ms' : List (String × Json)} (h : ms.Perm ms')
    (fields : List String) : onlyFields ms' fields = onlyFields ms fields := by
  unfold onlyFields
  exact (h.all_eq).symm

/-! ## 5. The text of a `jsonb` value -/

/-- A character as `escape_json` writes it. -/
def escapeChar (c : Char) : List Char :=
  if c = quotation ∨ c = backslash then [backslash, c]
  else if c = Char.ofNat 8 then [backslash, 'b']
  else if c = Char.ofNat 12 then [backslash, 'f']
  else if c = Char.ofNat 10 then [backslash, 'n']
  else if c = Char.ofNat 13 then [backslash, 'r']
  else if c = Char.ofNat 9 then [backslash, 't']
  else if c.toNat < 32 then
    [backslash, 'u', '0', '0', Nat.digitChar (c.toNat / 16), Nat.digitChar (c.toNat % 16)]
  else [c]

/-- A string as `escape_json` writes it. -/
def escape (s : String) : List Char :=
  quotation :: (s.toList.flatMap escapeChar ++ [quotation])

/-- An integer in decimal digits. -/
def decimalText (n : Int) : List Char :=
  if n < 0 then '-' :: Nat.toDigits 10 n.natAbs else Nat.toDigits 10 n.natAbs

mutual

/-- **The text of a `jsonb` value**, with a blank after every comma and colon. -/
def jsonbText : Json → List Char
  | .null => "null".toList
  | .bool b => if b then "true".toList else "false".toList
  | .num n => decimalText n
  | .str s => escape s
  | .arr items => '[' :: ((jsonbItems items).intersperse ", ".toList).flatten ++ [']']
  | .obj ms => openBrace :: ((jsonbMembers ms).intersperse ", ".toList).flatten ++ [closeBrace]

def jsonbItems : List Json → List (List Char)
  | [] => []
  | v :: items => jsonbText v :: jsonbItems items

def jsonbMembers : List (String × Json) → List (List Char)
  | [] => []
  | (name, v) :: ms => (escape name ++ ": ".toList ++ jsonbText v) :: jsonbMembers ms

end

theorem digitChar_utf8Size : ∀ n < 16, (Nat.digitChar n).utf8Size = 1 := by decide

theorem octets_escapeChar_le (c : Char) : octets (escapeChar c) ≤ 6 * c.utf8Size := by
  have hpos : 1 ≤ c.utf8Size := c.utf8Size_pos
  have hshort : ∀ letter : Char, letter.utf8Size = 1 →
      octets [backslash, letter] ≤ 6 * c.utf8Size := by
    intro letter hletter
    have hslash : backslash.utf8Size = 1 := rfl
    simp only [octets_cons, octets_nil, hletter, hslash]
    omega
  unfold escapeChar
  split
  · have hslash : backslash.utf8Size = 1 := rfl
    simp only [octets_cons, octets_nil, hslash]
    omega
  split
  · exact hshort _ rfl
  split
  · exact hshort _ rfl
  split
  · exact hshort _ rfl
  split
  · exact hshort _ rfl
  split
  · exact hshort _ rfl
  split
  · rename_i hcontrol
    have hhigh := digitChar_utf8Size (c.toNat / 16) (by omega)
    have hlow := digitChar_utf8Size (c.toNat % 16) (by omega)
    have hslash : backslash.utf8Size = 1 := rfl
    have hu : 'u'.utf8Size = 1 := rfl
    have hzero : '0'.utf8Size = 1 := rfl
    simp only [octets_cons, octets_nil, hhigh, hlow, hslash, hu, hzero]
    omega
  · simp only [octets_cons, octets_nil]
    omega

/-- **An escaped string takes at most six times its octets**, and its quotation marks. -/
theorem octets_escape_le (s : String) : octets (escape s) ≤ 2 + 6 * octets s.toList := by
  have hchars : ∀ t : List Char, octets (t.flatMap escapeChar) ≤ 6 * octets t := by
    intro t
    induction t with
    | nil => exact Nat.le_refl 0
    | cons c t ih =>
        have hc := octets_escapeChar_le c
        rw [List.flatMap_cons, octets_append, octets_cons]
        omega
  have hquotation : quotation.utf8Size = 1 := rfl
  have hall := hchars s.toList
  unfold escape
  simp only [octets_cons, octets_append, octets_nil, hquotation]
  omega

/-- The octets of parts with a comma and a blank between them. -/
theorem octets_intersperse (ts : List (List Char)) :
    octets (ts.intersperse ", ".toList).flatten = (ts.map octets).sum + 2 * (ts.length - 1) := by
  induction ts with
  | nil => rfl
  | cons t ts ih =>
      cases ts with
      | nil => simp
      | cons u ts =>
          have hcomma : octets ", ".toList = 2 := rfl
          rw [List.intersperse_cons_cons, List.flatten_cons, List.flatten_cons, octets_append,
            octets_append, ih, hcomma]
          simp only [List.map_cons, List.sum_cons, List.length_cons]
          omega

/-- The octets of the text of each member. -/
theorem jsonbMembers_perm {ms ms' : List (String × Json)} (h : ms.Perm ms') :
    (jsonbMembers ms).Perm (jsonbMembers ms') := by
  have hmap : ∀ ms : List (String × Json), jsonbMembers ms =
      ms.map fun m => escape m.1 ++ ": ".toList ++ jsonbText m.2 := by
    intro ms
    induction ms with
    | nil => rfl
    | cons m ms ih => rw [jsonbMembers, ih, List.map_cons]
  rw [hmap, hmap]
  exact h.map _

/-- **Written again, a value takes as many octets.** -/
theorem same_octets {v v' : Json} (h : Same v v') :
    octets (jsonbText v) = octets (jsonbText v') := by
  induction h using Same.rec
    (motive_2 := fun items items' _ => (jsonbItems items).map octets =
      (jsonbItems items').map octets)
    (motive_3 := fun ms ms' _ => (jsonbMembers ms).map octets =
      (jsonbMembers ms').map octets) with
  | refl v => rfl
  | @arr items items' h ih =>
      have hlength := congrArg List.length ih
      simp only [List.length_map] at hlength
      simp only [jsonbText, octets_cons, octets_append, octets_intersperse, ih, hlength]
  | @obj ms ms' ms'' h hperm ih =>
      have hsame : ((jsonbMembers ms).map octets).Perm ((jsonbMembers ms'').map octets) :=
        ih ▸ (jsonbMembers_perm hperm).map _
      have hlength := hsame.length_eq
      simp only [List.length_map] at hlength
      simp only [jsonbText, octets_cons, octets_append, octets_intersperse, hsame.sum_nat, hlength]
  | nil => rfl
  | cons h hs ih ihs => simp only [jsonbItems, List.map_cons, ih, ihs]
  | none => rfl
  | member h hs ih ihs => simp only [jsonbMembers, List.map_cons, octets_append, ih, ihs]

/-! ## 6. It is a text of the value -/

theorem isHex_digitChar : ∀ d < 16, IsHex (Nat.digitChar d) := by
  unfold IsHex
  decide

theorem hexValue_control : ∀ n < 32,
    hexValue ['0', '0', Nat.digitChar (n / 16), Nat.digitChar (n % 16)] = n := by
  decide

theorem hex4_control {n : Nat} (h : n < 32) :
    Hex4 ['0', '0', Nat.digitChar (n / 16), Nat.digitChar (n % 16)] := by
  have hzero : IsHex '0' := isHex_digitChar 0 (by decide)
  have hhigh : IsHex (Nat.digitChar (n / 16)) := isHex_digitChar _ (by omega)
  have hlow : IsHex (Nat.digitChar (n % 16)) := isHex_digitChar _ (by omega)
  refine ⟨rfl, fun c hc => ?_⟩
  simp only [List.mem_cons, List.not_mem_nil, or_false] at hc
  rcases hc with rfl | rfl | rfl | rfl <;> assumption

theorem spellsChar_escapeChar (c : Char) : SpellsChar (escapeChar c) c := by
  unfold escapeChar
  split
  · rename_i h
    rcases h with rfl | rfl <;> exact .short (by decide)
  rename_i hplain
  split
  · rename_i h
    exact h ▸ .short (by decide)
  split
  · rename_i h
    exact h ▸ .short (by decide)
  split
  · rename_i h
    exact h ▸ .short (by decide)
  split
  · rename_i h
    exact h ▸ .short (by decide)
  split
  · rename_i h
    exact h ▸ .short (by decide)
  split
  · rename_i hcontrol
    exact .unicode (hex4_control hcontrol) (hexValue_control c.toNat hcontrol)
  · rename_i hprint
    exact .plain (Nat.le_of_not_lt hprint) (fun e => hplain (Or.inl e))
      (fun e => hplain (Or.inr e))

theorem spellsString_escape (s : String) : SpellsString (escape s) s := by
  have hchars : ∀ t : List Char, SpellsChars (t.flatMap escapeChar) t := by
    intro t
    induction t with
    | nil => exact .nil
    | cons c t ih => exact .cons (spellsChar_escapeChar c) ih
  exact ⟨_, hchars s.toList, rfl⟩

theorem spells_decimalText (n : Int) : Spells (decimalText n) (.num n) := by
  have hdigits : ∀ c ∈ Nat.toDigits 10 n.natAbs, c.isDigit = true :=
    fun c hc => Nat.isDigit_of_mem_toDigits (by decide) (by decide) hc
  unfold decimalText
  split
  · refine .num (List.cons_ne_nil _ _) fun c hc => ?_
    rcases List.mem_cons.mp hc with rfl | hc
    · exact Or.inr List.mem_cons_self
    · exact Or.inl (hdigits c hc)
  · exact .num (Nat.toDigits_ne_nil) fun c hc => Or.inl (hdigits c hc)

theorem blank_space : Blank [' '] := fun _ hc => Or.inl (List.mem_singleton.mp hc)

theorem blank_nil : Blank [] := fun _ hc => nomatch hc

theorem spells_space {t : List Char} {v : Json} (h : Spells t v) : Spells (' ' :: t) v := by
  have hall := Spells.blank blank_space blank_nil h
  rwa [List.append_nil, List.singleton_append] at hall

/-- A blank before the first item. -/
theorem spellsItems_space {t : List Char} {v : Json} {items : List Json}
    (h : SpellsItems t v items) : SpellsItems (' ' :: t) v items := by
  cases h with
  | last h => exact .last (spells_space h)
  | more h hs => exact .more (spells_space h) hs

/-- A blank before the first member. -/
theorem spellsMembers_space {t : List Char} {m : String × Json} {ms : List (String × Json)}
    (h : SpellsMembers t m ms) : SpellsMembers (' ' :: t) m ms := by
  have hblank : ∀ {before}, Blank before → Blank (' ' :: before) := fun {before} hb c hc => by
    rcases List.mem_cons.mp hc with rfl | hc
    · exact Or.inl rfl
    · exact hb c hc
  cases h with
  | single hb ha hn h => exact .single (hblank hb) ha hn h
  | further hb ha hn h hs => exact .further (hblank hb) ha hn h hs

mutual

/-- **The text of a `jsonb` value is a text of the value.** -/
theorem spells_jsonbText : ∀ v : Json, Spells (jsonbText v) v
  | .null => .null
  | .bool true => .true
  | .bool false => .false
  | .num n => spells_decimalText n
  | .str s => .str (spellsString_escape s)
  | .arr [] => .empty blank_nil
  | .arr (v :: items) => .arr (spells_jsonbItems items (spells_jsonbText v))
  | .obj [] => .none blank_nil
  | .obj ((name, v) :: ms) => .obj (spells_jsonbMembers ms name (spells_jsonbText v))
      ⟨.refl _, fun _ h => List.mem_map_of_mem h⟩

theorem spells_jsonbItems : ∀ (items : List Json) {t : List Char} {v : Json}, Spells t v →
    SpellsItems ((t :: jsonbItems items).intersperse ", ".toList).flatten v items
  | [], t, v, h => by
      simpa [jsonbItems] using SpellsItems.last h
  | w :: items, t, v, h => by
      have hrest := spellsItems_space (spells_jsonbItems items (spells_jsonbText w))
      exact .more h hrest

theorem spells_jsonbMembers : ∀ (ms : List (String × Json)) (name : String) {t : List Char}
    {v : Json}, Spells t v →
    SpellsMembers (((escape name ++ ": ".toList ++ t) :: jsonbMembers ms).intersperse
      ", ".toList).flatten (name, v) ms
  | [], name, t, v, h => by
      have hone := SpellsMembers.single blank_nil blank_nil (spellsString_escape name)
        (spells_space h)
      simpa [jsonbMembers] using hone
  | (name', w) :: ms, name, t, v, h => by
      have hrest := spellsMembers_space (spells_jsonbMembers ms name' (spells_jsonbText w))
      have hall := SpellsMembers.further blank_nil blank_nil (spellsString_escape name)
        (spells_space h) hrest
      simpa [jsonbMembers] using hall

end

end Json

end Eri
