/-
  File:      Eri/Forms.lean
  Subject:   The parameters of a redirect (src/web.rs, `redirect_url`), as the client reads them.

  * `FormLaws`, `FragmentLaw` -- what the program relies on of the form serializer, the form
    parser and the URL parser;
  * `queryOf`, `formPairs` -- the query of a URI, and the pairs in it;
  * `redirectUrl_starts`, `redirectUrl_absent` -- the URL begins with its base;
  * `formPairs_redirectUrl` -- **the client reads the pairs of the base, and then those that
    were sent**.
-/
import Eri.Net.Form
import Eri.Http
import Mathlib.Data.List.TakeWhile

namespace Eri

/-! ## 1. Crates -/

/-- `form_urlencoded`: what was written is read; parts between ampersands are read one by one;
    no fragment begins in what was written. -/
structure FormLaws (C : HttpCrates) : Prop where
  inverse : ∀ l, C.formParse (utf8 (C.formSerialize l)) = l
  empty : C.formSerialize [] = ""
  joined : ∀ s t, C.formParse (s ++ 38 :: t) = C.formParse s ++ C.formParse t
  plain : ∀ l, '#' ∉ (C.formSerialize l).toList

/-- `Url::parse`: text with a number sign is a URL with a fragment. -/
def FragmentLaw (P : Platform) : Prop :=
  ∀ raw url, P.parse raw = some url → url.fragment = none → '#' ∉ raw.toList

namespace Web

/-- The query of a URI: from its first question mark to its fragment. -/
def queryOf (uri : String) : Option String :=
  let s := uri.toList.takeWhile (· != '#')
  if '?' ∈ s then some (String.ofList (s.dropWhile (· != '?')).tail) else none

/-- The pairs in the query of a URI. -/
def formPairs (C : HttpCrates) (uri : String) : List (String × String) :=
  (queryOf uri).elim [] fun q => C.formParse (utf8 q)

/-- The items that have a value. -/
def present (items : List (String × Option String)) : List (String × String) :=
  items.filterMap fun e => e.2.map fun v => (e.1, v)

/-! ## 2. The URL of a redirect -/

section Redirect

variable {C : HttpCrates} {base : String} {items : List (String × Option String)}

theorem utf8_append (s t : String) : utf8 (s ++ t) = utf8 s ++ utf8 t := by
  rw [utf8_eq_flatMap, utf8_eq_flatMap, utf8_eq_flatMap, String.toList_append,
    List.flatMap_append]

/-- Nothing is written only for nothing. -/
theorem formSerialize_nil_iff (hF : FormLaws C) {l : List (String × String)} :
    C.formSerialize l = "" ↔ l = [] := by
  constructor
  · intro h
    have hread := hF.inverse l
    rw [h, ← hF.empty, hF.inverse] at hread
    exact hread.symm
  · rintro rfl
    exact hF.empty

theorem redirectUrl_starts : base.toList <+: (redirectUrl C base items).toList := by
  unfold redirectUrl
  dsimp only
  split
  · exact List.prefix_refl _
  · rw [String.toList_append, String.toList_append, List.append_assoc]
    exact List.prefix_append ..

theorem redirectUrl_absent (hF : FormLaws C) (h : present items = []) :
    redirectUrl C base items = base := by
  unfold redirectUrl
  have hempty : C.formSerialize (present items) = "" := (formSerialize_nil_iff hF).mpr h
  unfold present at hempty
  rw [hempty]
  rfl

/-- What is added to a base without a query, and to one with a query. -/
theorem redirectUrl_present (hF : FormLaws C) (h : present items ≠ []) :
    redirectUrl C base items = base ++ (if '?' ∈ base.toList then "&" else "?") ++
      C.formSerialize (present items) := by
  unfold redirectUrl
  have hne : (C.formSerialize (present items)).isEmpty = false := by
    rw [Bool.eq_false_iff, ne_eq, String.isEmpty_iff]
    exact fun e => h ((formSerialize_nil_iff hF).mp e)
  unfold present at hne ⊢
  dsimp only
  rw [hne]
  rfl

theorem takeWhile_noFragment {s : List Char} (h : '#' ∉ s) : s.takeWhile (· != '#') = s := by
  rw [List.takeWhile_eq_self_iff]
  intro c hc
  rw [bne_iff_ne]
  rintro rfl
  exact h hc

theorem queryOf_plain {uri : String} (h : '#' ∉ uri.toList) :
    queryOf uri = if '?' ∈ uri.toList then
      some (String.ofList (uri.toList.dropWhile (· != '?')).tail) else none := by
  unfold queryOf
  rw [takeWhile_noFragment h]

/-- A query goes on. -/
theorem queryOf_append {s t : String} (hs : '#' ∉ s.toList) (ht : '#' ∉ t.toList)
    (h : '?' ∈ s.toList) : ∃ q, queryOf s = some q ∧ queryOf (s ++ t) = some (q ++ t) := by
  have hst : '#' ∉ (s ++ t).toList := by
    rw [String.toList_append, List.mem_append, not_or]
    exact ⟨hs, ht⟩
  have hmem : '?' ∈ (s ++ t).toList := by
    rw [String.toList_append]
    exact List.mem_append_left _ h
  have hdrop : (s.toList.dropWhile (· != '?')).isEmpty = false := by
    rw [List.isEmpty_eq_false_iff, ne_eq, List.dropWhile_eq_nil_iff]
    intro hall
    exact absurd (hall '?' h) (by decide)
  refine ⟨_, by rw [queryOf_plain hs, if_pos h], ?_⟩
  rw [queryOf_plain hst, if_pos hmem, String.toList_append, List.dropWhile_append, if_neg (by
    rw [hdrop]
    decide)]
  refine congrArg some (String.toList_inj.mp ?_)
  rw [String.toList_append, String.toList_ofList, String.toList_ofList, List.tail_append_of_ne_nil]
  rintro hnil
  rw [hnil] at hdrop
  cases hdrop

/-- A query begins. -/
theorem queryOf_question {s t : String} (hs : '#' ∉ s.toList) (ht : '#' ∉ t.toList)
    (h : '?' ∉ s.toList) : queryOf s = none ∧ queryOf (s ++ "?" ++ t) = some t := by
  have hmark : "?".toList = ['?'] := rfl
  have hplain : '#' ∉ (s ++ "?" ++ t).toList := by
    simp only [String.toList_append, hmark, List.mem_append, List.mem_singleton, not_or]
    exact ⟨⟨hs, by decide⟩, ht⟩
  have hmem : '?' ∈ (s ++ "?" ++ t).toList := by
    simp only [String.toList_append, hmark, List.mem_append, List.mem_singleton]
    exact Or.inl (Or.inr trivial)
  have hall : ∀ c ∈ s.toList, (c != '?') = true := by
    intro c hc
    rw [bne_iff_ne]
    rintro rfl
    exact h hc
  constructor
  · rw [queryOf_plain hs, if_neg h]
  · rw [queryOf_plain hplain, if_pos hmem, String.toList_append, String.toList_append, hmark,
      List.append_assoc, List.dropWhile_append_of_pos hall, List.singleton_append,
      List.dropWhile_cons_of_neg (by decide), List.tail_cons, String.ofList_toList]

/-- **The client reads the pairs of the base, and then those that were sent.** -/
theorem formPairs_redirectUrl (hF : FormLaws C) (hbase : '#' ∉ base.toList) :
    formPairs C (redirectUrl C base items) = formPairs C base ++ present items := by
  by_cases h : present items = []
  · rw [redirectUrl_absent hF h, h, List.append_nil]
  · have hplain := hF.plain (present items)
    have hread := hF.inverse (present items)
    rw [redirectUrl_present hF h]
    generalize C.formSerialize (present items) = q at hplain hread
    unfold formPairs
    by_cases hquery : '?' ∈ base.toList
    · have hand : '#' ∉ ("&" ++ q).toList := by
        rw [String.toList_append, List.mem_append, not_or]
        exact ⟨by decide, hplain⟩
      have hutf8 : utf8 "&" = [38] := by decide
      obtain ⟨r, hr, hnew⟩ := queryOf_append hbase hand hquery
      rw [if_pos hquery, String.append_assoc, hnew, hr, Option.elim_some, Option.elim_some,
        utf8_append, utf8_append, hutf8, List.singleton_append, hF.joined, hread]
    · obtain ⟨hr, hnew⟩ := queryOf_question hbase hplain hquery
      rw [if_neg hquery, hnew, hr, Option.elim_some, hread]
      rfl

end Redirect

/-! ## 3. A serializer and a parser -/

namespace Sample

/-- Bytes below 128 as text. -/
def ascii (bytes : List UInt8) : String := String.ofList (bytes.map fun b => Char.ofNat b.toNat)

/-- `form_urlencoded`, and `Url` with the pairs of a query. -/
def formCrates (P : Platform) : HttpCrates :=
  let write := fun l : List (String × String) =>
    ascii (Form.serialize (l.map fun e => (utf8 e.1, utf8 e.2)))
  let read := fun bytes => (fromUtf8 bytes).getD "\ufffd"
  { P with
    formParse := fun s => (Form.parse s).map fun e => (read e.1, read e.2)
    formSerialize := write
    appendPairs := fun base l => (P.parse base).map fun _ => base ++ "?" ++ write l }

/-- A byte that is written is ASCII, and no `#`. -/
theorem written_byte {b : UInt8} {l : List (List UInt8 × List UInt8)} (h : b ∈ Form.serialize l) :
    b.toNat < 128 ∧ b ≠ 35 := by
  have hall : ∀ n : Fin 256, (Form.unreserved (UInt8.ofNat n) = true ∨ UInt8.ofNat n = 43 ∨
      UInt8.ofNat n = 37 ∨ UInt8.ofNat n = 61 ∨ UInt8.ofNat n = 38) →
      (UInt8.ofNat n).toNat < 128 ∧ UInt8.ofNat n ≠ 35 := by decide +kernel
  have hb := hall ⟨b.toNat, b.toNat_lt⟩
  rw [UInt8.ofNat_toNat] at hb
  exact hb (Form.mem_serialize h)

theorem utf8_ascii {bytes : List UInt8} (h : ∀ b ∈ bytes, b.toNat < 128) :
    utf8 (ascii bytes) = bytes := by
  have hchars : ∀ b ∈ bytes, (Char.ofNat b.toNat).toNat = b.toNat := fun b hb =>
    toNat_ofNat_ascii ⟨_, h b hb⟩
  have hascii : ∀ c ∈ (ascii bytes).toList, c.toNat < 128 := by
    intro c hc
    rw [ascii, String.toList_ofList] at hc
    obtain ⟨b, hb, rfl⟩ := List.mem_map.mp hc
    rw [hchars b hb]
    exact h b hb
  rw [utf8_of_ascii hascii, ascii, String.toList_ofList, List.map_map]
  refine (List.map_congr_left fun b hb => ?_).trans (List.map_id bytes)
  show UInt8.ofNat (Char.ofNat b.toNat).toNat = b
  rw [hchars b hb, UInt8.ofNat_toNat]

/-- The crates keep to the laws. -/
theorem formCrates_laws (P : Platform) : FormLaws (formCrates P) where
  inverse l := by
    show (Form.parse (utf8 (ascii (Form.serialize _)))).map _ = l
    rw [utf8_ascii fun b hb => (written_byte hb).1, Form.parse_serialize, List.map_map]
    refine (List.map_congr_left fun e _ => ?_).trans (List.map_id l)
    show ((fromUtf8 (utf8 e.1)).getD _, (fromUtf8 (utf8 e.2)).getD _) = e
    rw [fromUtf8_utf8, fromUtf8_utf8]
    rfl
  empty := rfl
  joined s t := by
    show (Form.parse (s ++ 38 :: t)).map _ = _
    rw [Form.parse_append, List.map_append]
    rfl
  plain l h := by
    have hlist : (ascii (Form.serialize (l.map fun e => (utf8 e.1, utf8 e.2)))).toList =
        _ := String.toList_ofList
    have hmem : '#' ∈ (ascii (Form.serialize (l.map fun e => (utf8 e.1, utf8 e.2)))).toList := h
    rw [hlist] at hmem
    obtain ⟨b, hb, he⟩ := List.mem_map.mp hmem
    obtain ⟨hlt, hne⟩ := written_byte hb
    have hnat : b.toNat = 35 := by
      have hchar : (Char.ofNat b.toNat).toNat = b.toNat := toNat_ofNat_ascii ⟨_, hlt⟩
      rw [he] at hchar
      exact hchar.symm
    exact hne (UInt8.toNat_inj.mp hnat)

end Sample

end Web

end Eri
