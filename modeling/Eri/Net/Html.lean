/-
  File:      Eri/Net/Html.lean
  Subject:   Text in HTML documents: character references, and what of a document is markup.

  * `encode`, `decode` -- the five characters that can end a text or a quoted value, by
    reference, and back;
  * `decode_encode`, `encode_reference` -- encoded text reads as it was, and each of its
    ampersands begins a reference;
  * `Mode`, `markup`, `values` -- a document read character by character: its tags with their
    attributes and delimiters, and the quoted values of the attributes;
  * `Same`, `Same.append`, `Same.encoded` -- **two documents with the same markup**, put together
    from the same pieces with different text between them.

  Comments and elements whose text is not HTML are not read.
-/
import Mathlib.Data.List.Basic
import Mathlib.Data.List.Flatten

namespace Html

/-! ## 1. Character references -/

/-- The references, and the character each of them stands for. -/
def references : List (Char × List Char) :=
  [('&', ['&', 'a', 'm', 'p', ';']), ('<', ['&', 'l', 't', ';']), ('>', ['&', 'g', 't', ';']),
    ('"', ['&', 'q', 'u', 'o', 't', ';']), ('\'', ['&', '#', '3', '9', ';'])]

/-- A character, by reference if it has one. -/
def entity (c : Char) : List Char := (references.lookup c).getD [c]

def encode (s : List Char) : List Char := s.flatMap entity

/-- References are read as their characters; everything else stands for itself. -/
def decode : List Char → List Char
  | [] => []
  | '&' :: 'a' :: 'm' :: 'p' :: ';' :: s => '&' :: decode s
  | '&' :: 'l' :: 't' :: ';' :: s => '<' :: decode s
  | '&' :: 'g' :: 't' :: ';' :: s => '>' :: decode s
  | '&' :: 'q' :: 'u' :: 'o' :: 't' :: ';' :: s => '"' :: decode s
  | '&' :: '#' :: '3' :: '9' :: ';' :: s => '\'' :: decode s
  | c :: s => c :: decode s

/-- A character has a reference, or stands for itself. -/
theorem entity_cases (c : Char) :
    (c, entity c) ∈ references ∨ (∀ r ∈ references, r.1 ≠ c) ∧ entity c = [c] := by
  unfold entity
  by_cases h : ∃ r ∈ references, r.1 = c
  · obtain ⟨r, hr, rfl⟩ := h
    refine Or.inl ?_
    have hall : ∀ r ∈ references, (r.1, (references.lookup r.1).getD [r.1]) ∈ references := by
      decide
    exact hall r hr
  · have hnone : ∀ r ∈ references, r.1 ≠ c := fun r hr e => h ⟨r, hr, e⟩
    refine Or.inr ⟨hnone, ?_⟩
    rw [List.lookup_eq_none_iff.mpr fun r hr => by simpa using (hnone r hr).symm]
    rfl

theorem encode_cons (c : Char) (s : List Char) : encode (c :: s) = entity c ++ encode s :=
  List.flatMap_cons ..

/-- **Pieces are encoded one by one.** -/
theorem encode_append (s t : List Char) : encode (s ++ t) = encode s ++ encode t :=
  List.flatMap_append ..

/-- A character other than the ampersand stands for itself. -/
theorem decode_cons {c : Char} (hc : c ≠ '&') (s : List Char) :
    decode (c :: s) = c :: decode s := by
  rw [decode] <;> exact fun _ e _ => absurd e hc

theorem decode_entity (c : Char) (s : List Char) : decode (entity c ++ s) = c :: decode s := by
  rcases entity_cases c with h | ⟨h, he⟩
  · have hall : ∀ r ∈ references, decode (r.2 ++ s) = r.1 :: decode s := by
      intro r hr
      simp only [references, List.mem_cons, List.not_mem_nil, or_false] at hr
      rcases hr with rfl | rfl | rfl | rfl | rfl <;> rfl
    exact hall _ h
  · rw [he]
    exact decode_cons (fun e => h _ (List.mem_cons_self ..) e.symm) s

/-- **Encoded text reads as it was.** -/
theorem decode_encode (s : List Char) : decode (encode s) = s := by
  induction s with
  | nil => rfl
  | cons c s ih => rw [encode_cons, decode_entity, ih]

theorem encode_injective {s t : List Char} (h : encode s = encode t) : s = t := by
  rw [← decode_encode s, h, decode_encode]

/-- **Nothing in encoded text ends a text or a quoted value.** -/
theorem not_mem_encode {x : Char} (hx : x ∈ ['<', '>', '"', '\'']) (s : List Char) :
    x ∉ encode s := by
  intro h
  obtain ⟨c, _, hc⟩ := List.mem_flatMap.mp h
  rcases entity_cases c with hr | ⟨hr, he⟩
  · have hall : ∀ r ∈ references, ∀ x ∈ ['<', '>', '"', '\''], x ∉ r.2 := by simp [references]
    exact hall _ hr x hx hc
  · rw [he, List.mem_singleton] at hc
    subst hc
    have hall : ∀ x ∈ ['<', '>', '"', '\''], ∃ r ∈ references, r.1 = x := by
      simp [references]
    obtain ⟨r, hmem, e⟩ := hall x hx
    exact hr r hmem e

/-- An ampersand of a piece begins its reference. -/
theorem entity_ampersand {c : Char} {a b : List Char} (h : entity c = a ++ '&' :: b) :
    a = [] ∧ (c, entity c) ∈ references := by
  rcases entity_cases c with hr | ⟨hr, he⟩
  · refine ⟨?_, hr⟩
    have hall : ∀ r ∈ references, '&' ∉ r.2.tail := by decide
    cases a with
    | nil => rfl
    | cons x a =>
        refine absurd ?_ (hall _ hr)
        show '&' ∈ (entity c).tail
        rw [h, List.cons_append, List.tail_cons]
        exact List.mem_append_right a (List.mem_cons_self ..)
  · rw [he] at h
    have hc : '&' = c := by
      have hmem : '&' ∈ [c] := h ▸ List.mem_append_right a (List.mem_cons_self ..)
      exact List.mem_singleton.mp hmem
    exact absurd hc (hr _ (List.mem_cons_self ..))

/-- **Each ampersand in encoded text begins a reference.** -/
theorem encode_reference {s a b : List Char} (h : encode s = a ++ '&' :: b) :
    ∃ r ∈ references, r.2 <+: '&' :: b := by
  induction s generalizing a with
  | nil => exact absurd h (by simp [encode])
  | cons c s ih =>
      rw [encode_cons] at h
      rcases List.append_eq_append_iff.mp h with ⟨a', _, hrest⟩ | ⟨c', hentity, hrest⟩
      · exact ih hrest
      · cases c' with
        | nil => exact ih (a := []) hrest.symm
        | cons x c' =>
            obtain ⟨rfl, hb⟩ := List.cons.inj hrest
            obtain ⟨rfl, hmem⟩ := entity_ampersand hentity
            refine ⟨_, hmem, ?_⟩
            show entity c <+: _
            rw [hentity, hb]
            exact List.prefix_append ..

/-! ## 2. Markup -/

/-- Where a reader of a document stands: in a text, in a tag, behind an equals sign, or in the
    value of an attribute. -/
inductive Mode where
  | text
  | tag
  | assigned
  | double
  | single
  | bare
  deriving DecidableEq

def Mode.next : Mode → Char → Mode
  | .text, c => if c = '<' then .tag else .text
  | .tag, c => if c = '>' then .text else if c = '=' then .assigned else .tag
  | .assigned, c =>
      if c = '"' then .double else if c = '\'' then .single
      else if c = '>' then .text else if c = ' ' then .assigned else .bare
  | .double, c => if c = '"' then .tag else .double
  | .single, c => if c = '\'' then .tag else .single
  | .bare, c => if c = '>' then .text else if c = ' ' then .tag else .bare

/-- The character belongs to a text or to a quoted value. -/
def Mode.content : Mode → Char → Bool
  | .text, c => c != '<'
  | .double, c => c != '"'
  | .single, c => c != '\''
  | _, _ => false

/-- Where the reader stands at the end. -/
def after (m : Mode) (s : List Char) : Mode := s.foldl Mode.next m

/-- **The markup of a document**: everything but the texts and the quoted values. -/
def markup : Mode → List Char → List Char
  | _, [] => []
  | m, c :: s => if m.content c then markup (m.next c) s else c :: markup (m.next c) s

/-- The quoted values of a document, in order. -/
def values : Mode → List Char → List (List Char)
  | _, [] => []
  | m, c :: s =>
      if m = .assigned ∧ c = '"' then (s.takeWhile (· != '"')) :: values .double s
      else if m = .assigned ∧ c = '\'' then (s.takeWhile (· != '\'')) :: values .single s
      else values (m.next c) s

theorem after_append (m : Mode) (s t : List Char) : after m (s ++ t) = after (after m s) t :=
  List.foldl_append ..

theorem markup_append (m : Mode) (s t : List Char) :
    markup m (s ++ t) = markup m s ++ markup (after m s) t := by
  induction s generalizing m with
  | nil => rfl
  | cons c s ih =>
      rw [List.cons_append, markup, markup, ih]
      split <;> rfl

/-- Where text may stand, and what would end it. -/
def Mode.stop : Mode → Option Char
  | .text => some '<'
  | .double => some '"'
  | .single => some '\''
  | _ => none

/-- **Text without the character that ends it** leaves the reader where it was. -/
theorem after_hole {m : Mode} {x : Char} {s : List Char} (hm : m.stop = some x) (hs : x ∉ s) :
    after m s = m ∧ markup m s = [] := by
  have hstep : ∀ c, c ≠ x → m.next c = m ∧ m.content c = true := by
    intro c hc
    cases m <;> cases hm <;> exact ⟨if_neg hc, bne_iff_ne.mpr hc⟩
  induction s with
  | nil => exact ⟨rfl, rfl⟩
  | cons c s ih =>
      obtain ⟨hnext, hcontent⟩ := hstep c fun e => hs (e ▸ List.mem_cons_self ..)
      obtain ⟨hafter, hmarkup⟩ := ih fun h => hs (List.mem_cons_of_mem c h)
      constructor
      · show after (m.next c) s = m
        rw [hnext, hafter]
      · rw [markup, if_pos hcontent, hnext, hmarkup]

/-- A quoted value, from its equals sign to its end. -/
theorem values_double {v s : List Char} (hv : '"' ∉ v) :
    values .assigned ('"' :: (v ++ '"' :: s)) = v :: values .tag s := by
  have htake : (v ++ '"' :: s).takeWhile (· != '"') = v := by
    have hall : ∀ c ∈ v, (c != '"') = true := by
      intro c hc
      rw [bne_iff_ne]
      rintro rfl
      exact hv hc
    rw [List.takeWhile_append_of_pos hall, List.takeWhile_cons_of_neg (by decide), List.append_nil]
  have hrest : ∀ v : List Char, '"' ∉ v → values .double (v ++ '"' :: s) = values .tag s := by
    intro v hv
    induction v with
    | nil => rfl
    | cons c v ih =>
        have hc : c ≠ '"' := fun e => hv (e ▸ List.mem_cons_self ..)
        rw [List.cons_append, values, if_neg nofun, if_neg nofun]
        show values (if c = '"' then .tag else .double) _ = _
        rw [if_neg hc]
        exact ih fun h => hv (List.mem_cons_of_mem c h)
  rw [values, if_pos ⟨rfl, rfl⟩, htake, hrest v hv]

theorem takeWhile_append_of_mem {x : Char} {s : List Char} (hx : x ∈ s) (t : List Char) :
    (s ++ t).takeWhile (· != x) = s.takeWhile (· != x) := by
  induction s with
  | nil => cases hx
  | cons c s ih =>
      rw [List.cons_append, List.takeWhile_cons, List.takeWhile_cons]
      by_cases hc : c = x
      · rw [if_neg (by simp [hc]), if_neg (by simp [hc])]
      · rw [ih ((List.mem_cons.mp hx).resolve_left (Ne.symm hc))]

/-- **The values of a document that ends outside of one**, and of what follows it. -/
theorem values_append {m : Mode} {s t : List Char} (hdouble : after m s ≠ .double)
    (hsingle : after m s ≠ .single) :
    values m (s ++ t) = values m s ++ values (after m s) t := by
  -- a value that ends has its closing quote
  have htake : ∀ {q : Mode} {x : Char} {s : List Char}, q.stop = some x → after q s ≠ q →
      (s ++ t).takeWhile (· != x) = s.takeWhile (· != x) := by
    intro q x s hq hafter
    refine takeWhile_append_of_mem ?_ t
    by_contra hs
    exact hafter (after_hole hq hs).1
  induction s generalizing m with
  | nil => rfl
  | cons c s ih =>
      have hrest : values (m.next c) (s ++ t) =
          values (m.next c) s ++ values (after (m.next c) s) t := ih hdouble hsingle
      have hcons : after m (c :: s) = after (m.next c) s := rfl
      rw [hcons] at hdouble hsingle ⊢
      rw [List.cons_append, values, values]
      by_cases hd : m = .assigned ∧ c = '"'
      · obtain ⟨rfl, rfl⟩ := hd
        rw [if_pos ⟨rfl, rfl⟩, if_pos ⟨rfl, rfl⟩, htake rfl hdouble]
        exact congrArg _ hrest
      · rw [if_neg hd, if_neg hd]
        by_cases hs : m = .assigned ∧ c = '\''
        · obtain ⟨rfl, rfl⟩ := hs
          rw [if_pos ⟨rfl, rfl⟩, if_pos ⟨rfl, rfl⟩, htake rfl hsingle]
          exact congrArg _ hrest
        · rw [if_neg hs, if_neg hs]
          exact hrest

/-- **The value of an attribute**, and what stands before and behind it. -/
theorem values_quoted {m : Mode} {a v s : List Char} (ha : after m a = .assigned) (hv : '"' ∉ v) :
    values m (a ++ '"' :: (v ++ '"' :: s)) = values m a ++ v :: values .tag s := by
  rw [values_append (by rw [ha]; decide) (by rw [ha]; decide), ha, values_double hv]

/-! ## 3. Two documents -/

/-- Read from `m` on, both documents have the same markup and leave the reader at `m'`. -/
structure Same (m m' : Mode) (s t : List Char) : Prop where
  markup : markup m s = markup m t
  left : after m s = m'
  right : after m t = m'

/-- A piece that both have. -/
theorem Same.lit {m m' : Mode} {s : List Char} (h : after m s = m') : Same m m' s s := ⟨rfl, h, h⟩

/-- **One piece after the other.** -/
theorem Same.append {m m' m'' : Mode} {s s' t t' : List Char} (h : Same m m' s t)
    (h' : Same m' m'' s' t') : Same m m'' (s ++ s') (t ++ t') where
  markup := by rw [markup_append, markup_append, h.markup, h.left, h.right, h'.markup]
  left := by rw [after_append, h.left, h'.left]
  right := by rw [after_append, h.right, h'.right]

/-- **Any two texts without the character that ends them**, where text may stand. -/
theorem Same.hole {m : Mode} {x : Char} {s t : List Char} (hm : m.stop = some x) (hs : x ∉ s)
    (ht : x ∉ t) : Same m m s t := by
  obtain ⟨hleft, hmarkup⟩ := after_hole hm hs
  obtain ⟨hright, hmarkup'⟩ := after_hole hm ht
  exact ⟨hmarkup.trans hmarkup'.symm, hleft, hright⟩

/-- **Any two encoded texts.** -/
theorem Same.encoded {m : Mode} (hm : m.stop.isSome = true) (s t : List Char) :
    Same m m (encode s) (encode t) := by
  obtain ⟨x, hx⟩ := Option.isSome_iff_exists.mp hm
  have hstop : x ∈ ['<', '>', '"', '\''] := by
    cases m <;> cases hx <;> decide
  exact .hole hx (not_mem_encode hstop s) (not_mem_encode hstop t)

end Html
