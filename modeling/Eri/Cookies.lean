/-
  File:      Eri/Cookies.lean
  Subject:   When a cookie is read (src/web.rs, `cookie` and `session_from`): which of its
             values are looked at, and which are not.

  * `scanParts_iff`, `scanFields_iff` -- what the two loops find, after what was found before;
  * `cookie_eq_some_iff` -- **exactly when a cookie is read**: from the first 32 parts of its
    fields;
  * `cookie_unambiguous_iff` -- when the value that is read is the only one.
-/
import Eri.Challenges

namespace Eri

namespace Web

/-! ## 1. Parts -/

/-- The values that some parts give a cookie. -/
def named (name : String) (parts : List (List Char)) : List (List Char) :=
  ((parts.filterMap cookiePart).filter fun e => String.ofList e.1 = name).map (·.2)

/-- The parts of a field, as far as it can be read. -/
def fieldParts (value : List UInt8) : List (List Char) :=
  (toStr value).elim [] fun text => text.splitOn ';'

/-- All values of a cookie, in all parts of all fields. -/
def valuesOf (h : HeaderMap) (name : String) : List (List Char) :=
  (getAll h "cookie").flatMap fun value => named name (fieldParts value)

/-- The values among the first 32 parts of each field. -/
def earlyValues (h : HeaderMap) (name : String) : List (List Char) :=
  (getAll h "cookie").flatMap fun value => named name ((fieldParts value).take 32)

/-- The values behind them. -/
def lateValues (h : HeaderMap) (name : String) : List (List Char) :=
  (getAll h "cookie").flatMap fun value => named name ((fieldParts value).drop 32)

/-- A field that can be read: its first 32 parts are pairs. -/
def Readable (value : List UInt8) : Prop :=
  (∃ text, toStr value = some text ∧ text.length ≤ 4096) ∧
    ∀ part ∈ (fieldParts value).take 32, (cookiePart part).isSome = true

theorem named_cons (name : String) (part : List Char) (parts : List (List Char)) :
    named name (part :: parts) = named name [part] ++ named name parts := by
  unfold named
  rw [← List.singleton_append, List.filterMap_append, List.filter_append, List.map_append]

theorem named_append (name : String) (l l' : List (List Char)) :
    named name (l ++ l') = named name l ++ named name l' := by
  unfold named
  rw [List.filterMap_append, List.filter_append, List.map_append]

theorem named_single {name : String} {part k v : List Char} (h : cookiePart part = some (k, v)) :
    named name [part] = if String.ofList k = name then [v] else [] := by
  unfold named
  simp only [List.filterMap_cons, h, List.filterMap_nil, List.filter_cons, List.filter_nil,
    decide_eq_true_eq]
  split <;> rfl

/-! ## 2. The loops -/

theorem eq_of_toList {α : Type} {a b : Option α} (h : a.toList = b.toList) : a = b := by
  cases a <;> cases b <;> cases h <;> rfl

section Loops

variable {name : String} {found found' : Option (List Char)}

/-- **The loop over the parts of a field**: it ends when all of them are pairs and, with what
    was found before, at most one has the name. -/
theorem scanParts_iff {parts : List (List Char)} :
    scanParts name found parts = some found' ↔
      (∀ part ∈ parts, (cookiePart part).isSome = true) ∧
        (∀ v ∈ named name parts, v.length ≤ 512) ∧
        found.toList ++ named name parts = found'.toList := by
  induction parts generalizing found with
  | nil =>
      have hnamed : named name [] = [] := rfl
      rw [hnamed, List.append_nil, scanParts, Option.some.injEq]
      constructor
      · rintro rfl
        exact ⟨nofun, nofun, rfl⟩
      · rintro ⟨_, _, h⟩
        exact eq_of_toList h
  | cons part parts ih =>
      rw [named_cons, scanParts]
      cases hpart : cookiePart part with
      | none =>
          refine iff_of_false nofun fun ⟨hall, _⟩ => ?_
          have hsome := hall part (List.mem_cons_self ..)
          rw [hpart] at hsome
          cases hsome
      | some e =>
          obtain ⟨k, v⟩ := e
          have hpairs : (∀ x ∈ part :: parts, (cookiePart x).isSome = true) ↔
              ∀ x ∈ parts, (cookiePart x).isSome = true := by
            rw [List.forall_mem_cons, hpart]
            exact and_iff_right rfl
          rw [named_single hpart, hpairs, Option.bind_eq_bind, Option.bind_some]
          dsimp only
          by_cases hk : String.ofList k = name
          · rw [if_pos hk, if_pos hk, List.forall_mem_append, List.forall_mem_singleton]
            by_cases hbad : found.isSome = true ∨ v.length > 512
            · rw [if_pos hbad]
              refine iff_of_false nofun fun ⟨_, hlength, hfound⟩ => ?_
              rcases hbad with hsome | hlong
              · obtain ⟨x, rfl⟩ := Option.isSome_iff_exists.mp hsome
                have htwo := congrArg List.length hfound
                have hone : found'.toList.length ≤ 1 := Option.length_toList_le
                simp only [Option.toList_some, List.length_append, List.length_singleton] at htwo
                omega
              · exact absurd hlength.1 (Nat.not_le.mpr hlong)
            · rw [if_neg hbad, ih]
              rw [not_or, Bool.not_eq_true, Option.isSome_eq_false_iff, Option.isNone_iff_eq_none,
                Nat.not_lt] at hbad
              obtain ⟨rfl, hlength⟩ := hbad
              rw [and_iff_right hlength]
              rfl
          · rw [if_neg hk, if_neg hk, ih]
            rfl

/-- **The loop over the fields.** -/
theorem scanFields_iff {values : List (List UInt8)} :
    scanFields name found values = some found' ↔
      (∀ value ∈ values, Readable value) ∧
        (∀ v ∈ values.flatMap fun value => named name ((fieldParts value).take 32),
          v.length ≤ 512) ∧
        found.toList ++ (values.flatMap fun value => named name ((fieldParts value).take 32)) =
          found'.toList := by
  induction values generalizing found with
  | nil =>
      rw [List.flatMap_nil, List.append_nil, scanFields, Option.some.injEq]
      constructor
      · rintro rfl
        exact ⟨nofun, nofun, rfl⟩
      · rintro ⟨_, _, h⟩
        exact eq_of_toList h
  | cons value values ih =>
      rw [List.flatMap_cons, scanFields, List.forall_mem_cons]
      cases htext : toStr value with
      | none =>
          refine iff_of_false nofun ?_
          rintro ⟨⟨⟨⟨text, hsome, _⟩, _⟩, _⟩, _⟩
          rw [htext] at hsome
          cases hsome
      | some text =>
          have hparts : fieldParts value = text.splitOn ';' := by
            rw [fieldParts, htext]
            rfl
          rw [Option.bind_eq_bind, Option.bind_some]
          by_cases hlong : text.length > 4096
          · rw [if_pos hlong]
            refine iff_of_false nofun ?_
            rintro ⟨⟨⟨⟨text', hsome, hle⟩, _⟩, _⟩, _⟩
            rw [htext] at hsome
            cases hsome
            exact absurd hle (Nat.not_le.mpr hlong)
          · have hreadable : Readable value ↔
                ∀ part ∈ (fieldParts value).take 32, (cookiePart part).isSome = true :=
              and_iff_right ⟨text, htext, Nat.le_of_not_lt hlong⟩
            rw [if_neg hlong, ← hparts, hreadable, List.forall_mem_append, Option.bind_eq_bind,
              Option.bind_eq_some_iff]
            constructor
            · rintro ⟨next, hnext, hrest⟩
              obtain ⟨hpairs, hshort, hsum⟩ := scanParts_iff.mp hnext
              obtain ⟨hall, hshort', hsum'⟩ := ih.mp hrest
              refine ⟨⟨hpairs, hall⟩, ⟨hshort, hshort'⟩, ?_⟩
              rw [← List.append_assoc, hsum, hsum']
            · rintro ⟨⟨hpairs, hall⟩, ⟨hshort, hshort'⟩, hsum⟩
              -- what is found after the first field
              rw [← List.append_assoc] at hsum
              obtain ⟨next, hnext⟩ : ∃ next : Option (List Char),
                  found.toList ++ named name ((fieldParts value).take 32) = next.toList := by
                have hle :
                    (found.toList ++ named name ((fieldParts value).take 32)).length ≤ 1 := by
                  have hlength := congrArg List.length hsum
                  have hone : found'.toList.length ≤ 1 := Option.length_toList_le
                  rw [List.length_append] at hlength
                  omega
                generalize found.toList ++ named name ((fieldParts value).take 32) = l at hle
                match l, hle with
                | [], _ => exact ⟨none, rfl⟩
                | [x], _ => exact ⟨some x, rfl⟩
              refine ⟨next, scanParts_iff.mpr ⟨hpairs, hshort, hnext⟩, ih.mpr ⟨hall, hshort', ?_⟩⟩
              rw [← hnext, hsum]

end Loops

/-! ## 3. The cookie -/

section Cookie

variable {h : HeaderMap} {name : String}

/-- **When a cookie is read**: every field is readable, and the first parts of all fields have
    one value for it, which is not too long. -/
theorem cookie_eq_some_iff {v : String} :
    cookie h name = some v ↔ (∀ value ∈ getAll h "cookie", Readable value) ∧
      earlyValues h name = [v.toList] ∧ v.toList.length ≤ 512 := by
  have hcookie : cookie h name = some v ↔
      scanFields name none (getAll h "cookie") = some (some v.toList) := by
    unfold cookie
    rw [Option.map_eq_some_iff]
    constructor
    · rintro ⟨l, hl, rfl⟩
      rw [String.toList_ofList]
      exact Option.join_eq_some_iff.mp hl
    · intro hl
      exact ⟨v.toList, Option.join_eq_some_iff.mpr hl, String.ofList_toList⟩
  rw [hcookie, scanFields_iff]
  unfold earlyValues
  rw [Option.toList_none, List.nil_append, Option.toList_some]
  constructor
  · rintro ⟨hread, hshort, hsum⟩
    refine ⟨hread, hsum, hshort _ ?_⟩
    rw [hsum]
    exact List.mem_singleton_self _
  · rintro ⟨hread, hsum, hshort⟩
    refine ⟨hread, ?_, hsum⟩
    rw [hsum]
    exact List.forall_mem_singleton.mpr hshort

theorem length_valuesOf :
    (valuesOf h name).length = (earlyValues h name).length + (lateValues h name).length := by
  unfold valuesOf earlyValues lateValues
  induction getAll h "cookie" with
  | nil => rfl
  | cons value values ih =>
      rw [List.flatMap_cons, List.flatMap_cons, List.flatMap_cons, List.length_append,
        List.length_append, List.length_append, ih]
      nth_rewrite 1 [← List.take_append_drop 32 (fieldParts value)]
      rw [named_append, List.length_append]
      omega

/-- Without values behind the first parts those are all. -/
theorem valuesOf_of_late (hlate : lateValues h name = []) :
    valuesOf h name = earlyValues h name := by
  unfold valuesOf earlyValues
  refine List.flatMap_congr fun value hvalue => ?_
  have hnone := List.flatMap_eq_nil_iff.mp hlate value hvalue
  nth_rewrite 1 [← List.take_append_drop 32 (fieldParts value)]
  rw [named_append, hnone, List.append_nil]

/-- The first parts of all fields have one value for a cookie, so that it is read. -/
structure Clear (h : HeaderMap) (name : String) : Prop where
  readable : ∀ value ∈ getAll h "cookie", Readable value
  single : ∃ v, earlyValues h name = [v] ∧ v.length ≤ 512

theorem clear_iff : Clear h name ↔ ∃ v, cookie h name = some v := by
  constructor
  · rintro ⟨hread, v, hv, hlength⟩
    refine ⟨String.ofList v, cookie_eq_some_iff.mpr ⟨hread, ?_, ?_⟩⟩
    · rw [String.toList_ofList, hv]
    · rw [String.toList_ofList]
      exact hlength
  · rintro ⟨v, hv⟩
    obtain ⟨hread, hsum, hlength⟩ := cookie_eq_some_iff.mp hv
    exact ⟨hread, _, hsum, hlength⟩

/-- The characters of a part are those of its text. -/
theorem mem_splitOn {α : Type} [BEq α] {a : α} {text part : List α}
    (hpart : part ∈ text.splitOn a) : ∀ c ∈ part, c ∈ text := by
  induction text generalizing part with
  | nil =>
      rw [List.splitOn_nil, List.mem_singleton] at hpart
      subst hpart
      exact nofun
  | cons x text ih =>
      rw [List.splitOn_cons_eq_if_modifyHead] at hpart
      intro c hc
      split at hpart
      · rcases List.mem_cons.mp hpart with rfl | hpart
        · cases hc
        · exact List.mem_cons_of_mem x (ih hpart c hc)
      · cases hsplit : text.splitOn a with
        | nil =>
            rw [hsplit] at hpart
            cases hpart
        | cons first rest =>
            rw [hsplit] at ih hpart
            rcases List.mem_cons.mp hpart with rfl | hpart
            · rcases List.mem_cons.mp hc with rfl | hc
              · exact List.mem_cons_self
              · exact List.mem_cons_of_mem x (ih (List.mem_cons_self ..) c hc)
            · exact List.mem_cons_of_mem x (ih (List.mem_cons_of_mem first hpart) c hc)

theorem trim_subset {s : List Char} : ∀ c ∈ Cimd.trim s, c ∈ s := by
  intro c hc
  rw [Cimd.trim, List.mem_reverse] at hc
  have hmiddle := List.mem_reverse.mp (List.dropWhile_subset _ hc)
  exact List.dropWhile_subset _ hmiddle

theorem cookiePart_subset {part k v : List Char} (hpart : cookiePart part = some (k, v)) :
    ∀ c ∈ v, c ∈ part := by
  intro c hc
  unfold cookiePart splitOnce at hpart
  split at hpart
  · cases hpart
    exact trim_subset c (List.dropWhile_subset _ (List.mem_of_mem_tail hc))
  · cases hpart

/-- What is read of a value: its bytes, which are ASCII. -/
theorem toStr_some {value : List UInt8} {text : List Char} (htext : toStr value = some text) :
    (∀ b ∈ value, b.toNat < 128) ∧ text = value.map fun b => Char.ofNat b.toNat := by
  unfold toStr at htext
  split at htext
  · rename_i hall
    refine ⟨fun b hb => ?_, (Option.some.inj htext).symm⟩
    have hbyte := List.all_eq_true.mp hall b hb
    simp only [Bool.or_eq_true, Bool.and_eq_true, beq_iff_eq, decide_eq_true_eq,
      UInt8.le_iff_toNat_le, ← UInt8.toNat_inj] at hbyte
    simp only [UInt8.reduceToNat] at hbyte
    omega
  · cases htext

theorem toStr_ascii {value : List UInt8} {text : List Char} (htext : toStr value = some text) :
    ∀ c ∈ text, c.toNat < 128 := by
  obtain ⟨hbytes, rfl⟩ := toStr_some htext
  intro c hc
  obtain ⟨b, hb, rfl⟩ := List.mem_map.mp hc
  have hchar : (Char.ofNat b.toNat).toNat = b.toNat := toNat_ofNat_ascii ⟨_, hbytes b hb⟩
  rw [hchar]
  exact hbytes b hb

/-- The values of a cookie are ASCII: as many bytes as characters. -/
theorem earlyValues_ascii {v : List Char} (hv : v ∈ earlyValues h name) :
    ∀ c ∈ v, c.toNat < 128 := by
  obtain ⟨value, _, hvalue⟩ := List.mem_flatMap.mp hv
  obtain ⟨e, he, rfl⟩ := List.mem_map.mp hvalue
  obtain ⟨part, hpart, hpair⟩ := List.mem_filterMap.mp (List.mem_filter.mp he).1
  intro c hc
  have hchar : c ∈ part := cookiePart_subset hpair c hc
  have hfield := List.mem_of_mem_take hpart
  unfold fieldParts at hfield
  cases htext : toStr value with
  | none =>
      rw [htext] at hfield
      cases hfield
  | some text =>
      rw [htext] at hfield
      exact toStr_ascii htext c (mem_splitOn hfield c hchar)

end Cookie

/-! ## 4. Results -/

/-- No value of the cookie stands behind the first parts of a field, unless the cookie is not
    read anyway. -/
def Seen (h : HeaderMap) (name : String) : Prop := Clear h name → lateValues h name = []

/-- **When the value that is read is the only one**: exactly if no value stands behind the
    first 32 parts of a field whose first parts would be taken. Then no request with two values
    for the session cookie has a session. -/
theorem cookie_unambiguous_iff (h : HeaderMap) :
    (∀ name, (∀ v, cookie h name = some v →
        valuesOf h name = [v.toList] ∧ v.utf8ByteSize ≤ 512) ↔ Seen h name) ∧
    ∀ p : Provider, 2 ≤ (valuesOf h (sessionCookie p.secure)).length →
      (sessionFrom p h = pure none ↔ Seen h (sessionCookie p.secure)) := by
  have hseen : ∀ name v, cookie h name = some v → valuesOf h name = [v.toList] →
      lateValues h name = [] := by
    intro name v hv hall
    obtain ⟨_, hearly, _⟩ := cookie_eq_some_iff.mp hv
    have hlength : (valuesOf h name).length = _ := length_valuesOf
    rw [hall, hearly, List.length_singleton] at hlength
    exact List.length_eq_zero_iff.mp (by omega)
  constructor
  · intro name
    constructor
    · intro hread hclear
      obtain ⟨v, hv⟩ := clear_iff.mp hclear
      exact hseen name v hv (hread v hv).1
    · intro hlate v hv
      obtain ⟨_, hearly, hshort⟩ := cookie_eq_some_iff.mp hv
      have hascii : ∀ c ∈ v.toList, c.toNat < 128 := by
        have hmem : v.toList ∈ earlyValues h name := by
          rw [hearly]
          exact List.mem_singleton_self _
        exact earlyValues_ascii hmem
      have hbytes : v.utf8ByteSize = (utf8 v).length := rfl
      rw [valuesOf_of_late (hlate (clear_iff.mpr ⟨v, hv⟩)), hbytes, utf8_of_ascii hascii,
        List.length_map]
      exact ⟨hearly, hshort⟩
  · intro p htwo
    have hnone : sessionFrom p h = pure none ↔ cookie h (sessionCookie p.secure) = none := by
      unfold sessionFrom
      cases cookie h (sessionCookie p.secure) with
      | none => exact iff_of_true rfl rfl
      | some raw => exact iff_of_false nofun nofun
    rw [hnone]
    constructor
    · intro hcookie hclear
      obtain ⟨v, hv⟩ := clear_iff.mp hclear
      rw [hcookie] at hv
      cases hv
    · intro hlate
      rw [Option.eq_none_iff_forall_ne_some]
      intro v hv
      obtain ⟨_, hearly, _⟩ := cookie_eq_some_iff.mp hv
      rw [valuesOf_of_late (hlate (clear_iff.mpr ⟨v, hv⟩)), hearly, List.length_singleton] at htwo
      omega

namespace Sample

/-- Two values for the session cookie next to each other, and one value before 31 other parts
    and a second one behind them. -/
def twice : HeaderMap := [("cookie", utf8 "eri_dev_session=a; eri_dev_session=b")]

def apart : HeaderMap :=
  [("cookie", utf8 ("eri_dev_session=a;" ++ String.join (List.replicate 31 " x=1;") ++
    " eri_dev_session=b"))]

theorem valuesOf_twice : valuesOf twice "eri_dev_session" = [['a'], ['b']] := rfl

theorem valuesOf_apart : valuesOf apart "eri_dev_session" = [['a'], ['b']] := rfl

theorem lateValues_twice : lateValues twice "eri_dev_session" = [] := rfl

end Sample

theorem cookie_unambiguous_twice : sessionFrom Sample.localProvider Sample.twice = pure none := by
  refine ((cookie_unambiguous_iff Sample.twice).2 Sample.localProvider ?_).mpr fun _ =>
    Sample.lateValues_twice
  show 2 ≤ (valuesOf Sample.twice "eri_dev_session").length
  rw [Sample.valuesOf_twice]
  decide

/-- A second value behind the 32nd part is not noticed. -/
theorem cookie_late_ignored : cookie Sample.apart "eri_dev_session" = some "a" ∧
    valuesOf Sample.apart "eri_dev_session" = [['a'], ['b']] := by
  refine ⟨?_, Sample.valuesOf_apart⟩
  decide +kernel

end Web

end Eri
