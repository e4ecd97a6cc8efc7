/-
  File:      Eri/Jar.lean
  Subject:   The cookies of a browser, and what the server reads of them in the requests that
             carry them (src/web.rs, `transaction_cookies`).

  * `Jar` -- cookies under different names; `Jar.receive` -- what a response does to them;
  * `Jar.fields`, `Carries` -- the `Cookie` header of a request;
  * `cookieParts_carries`, `transactionCookies_carries` -- **the server reads the transaction
    cookies of a jar, or none of them if they are more than four**;
  * `transactionCookieCount_carries` -- it counts them all.
-/
import Eri.Http
import Eri.Redirects

namespace Eri

namespace Web

/-! ## 1. Jars -/

/-- The cookies of a browser, by name and value. -/
structure Jar where
  cookies : List (String × String)
  distinct : (cookies.map (·.1)).Nodup

namespace Jar

def empty : Jar := ⟨[], .nil⟩

/-- The jar without a cookie. -/
def drop (j : Jar) (name : String) : Jar where
  cookies := j.cookies.filter fun e => decide (e.1 ≠ name)
  distinct := j.distinct.sublist (List.filter_sublist.map _)

theorem mem_drop {j : Jar} {name : String} {e : String × String} :
    e ∈ (j.drop name).cookies ↔ e ∈ j.cookies ∧ e.1 ≠ name := by
  unfold drop
  rw [List.mem_filter, decide_eq_true_eq]

/-- The jar with a cookie in the place of its name. -/
def put (j : Jar) (name value : String) : Jar where
  cookies := (j.drop name).cookies ++ [(name, value)]
  distinct := by
    rw [List.map_append, List.nodup_append]
    refine ⟨(j.drop name).distinct, List.nodup_singleton _, fun a ha b hb => ?_⟩
    obtain ⟨e, he, rfl⟩ := List.mem_map.mp ha
    rw [List.map_singleton, List.mem_singleton] at hb
    rw [hb]
    exact (mem_drop.mp he).2

/-- A `Set-Cookie` header; a cookie of no age is dropped. -/
def set (j : Jar) (c : SetCookie) : Jar :=
  if c.maxAge = some 0 then j.drop c.name else j.put c.name c.value

def receive (j : Jar) (r : Response) : Jar := r.setCookies.foldl set j

/-- The transaction cookies. -/
def transactions (secure : Bool) (j : Jar) : List (String × String) :=
  j.cookies.filter fun e => isTxName secure e.1.toList

end Jar

/-! ## 2. The `Cookie` header -/

/-- `name=value`. -/
def pairText (e : String × String) : List Char := e.1.toList ++ '=' :: e.2.toList

/-- The parts of the header: all but the first follow a blank. -/
def jarParts : List (String × String) → List (List Char)
  | [] => []
  | e :: rest => pairText e :: rest.map fun e => ' ' :: pairText e

/-- The `Cookie` fields of a request: one, or none if there is no cookie. -/
def Jar.fields (j : Jar) : List (List UInt8) :=
  if j.cookies = [] then []
  else [utf8 (String.ofList ([';'].intercalate (jarParts j.cookies)))]

def Jar.headers (j : Jar) : HeaderMap := j.fields.map fun value => ("cookie", value)

/-- The request has the cookies of the jar. -/
def Carries (h : HeaderMap) (j : Jar) : Prop := getAll h "cookie" = j.fields

theorem carries_headers (j : Jar) : Carries j.headers j := by
  have hall : ∀ e ∈ j.headers, decide (e.1 = "cookie") = true := by
    intro e he
    obtain ⟨value, _, rfl⟩ := List.mem_map.mp he
    rfl
  unfold Carries getAll
  rw [List.filter_eq_self.mpr hall, Jar.headers, List.map_map]
  exact List.map_id _

/-! ## 3. What is read of it -/

/-- A character that is written as it is, and is no separator. -/
structure PlainChar (c : Char) : Prop where
  low : 33 ≤ c.toNat
  high : c.toNat ≤ 126
  semicolon : c ≠ ';'
  equals : c ≠ '='

instance : DecidablePred PlainChar := fun c =>
  decidable_of_iff (33 ≤ c.toNat ∧ c.toNat ≤ 126 ∧ c ≠ ';' ∧ c ≠ '=')
    ⟨fun ⟨low, high, semicolon, equals⟩ => ⟨low, high, semicolon, equals⟩,
      fun h => ⟨h.low, h.high, h.semicolon, h.equals⟩⟩

theorem plain_of_all {s : List Char} (h : (s.all fun c => decide (PlainChar c)) = true) :
    ∀ c ∈ s, PlainChar c := fun c hc => of_decide_eq_true (List.all_eq_true.mp h c hc)

/-- A cookie of such characters. -/
structure PlainCookie (e : String × String) : Prop where
  name : ∀ c ∈ e.1.toList, PlainChar c
  value : ∀ c ∈ e.2.toList, PlainChar c
  short : e.2.toList.length ≤ 512

theorem toStr_utf8 {text : List Char} (h : ∀ c ∈ text, 32 ≤ c.toNat ∧ c.toNat ≤ 126) :
    toStr (utf8 (String.ofList text)) = some text := by
  have hascii : ∀ c ∈ (String.ofList text).toList, c.toNat < 128 := by
    intro c hc
    rw [String.toList_ofList] at hc
    have := h c hc
    omega
  have hbyte : ∀ c ∈ text, (UInt8.ofNat c.toNat).toNat = c.toNat := by
    intro c hc
    have := h c hc
    rw [UInt8.toNat_ofNat']
    omega
  rw [utf8_of_ascii hascii, String.toList_ofList]
  unfold toStr
  rw [if_pos, List.map_map]
  · refine congrArg some ((List.map_congr_left fun c hc => ?_).trans (List.map_id text))
    show Char.ofNat (UInt8.ofNat c.toNat).toNat = c
    rw [hbyte c hc, Char.ofNat_toNat]
  · rw [List.all_eq_true]
    intro b hb
    obtain ⟨c, hc, rfl⟩ := List.mem_map.mp hb
    obtain ⟨hlow, hhigh⟩ := h c hc
    simp only [Bool.or_eq_true, Bool.and_eq_true, decide_eq_true_eq, UInt8.le_iff_toNat_le,
      hbyte c hc]
    exact Or.inr ⟨hlow, hhigh⟩

theorem PlainChar.isWhiteSpace {c : Char} (h : PlainChar c) : isWhiteSpace c = false :=
  Cimd.isWhiteSpace_visible h.low h.high

theorem trim_blank (s : List Char) : Cimd.trim (' ' :: s) = Cimd.trim s := by
  have hblank : isWhiteSpace ' ' = true := by decide
  unfold Cimd.trim
  rw [List.dropWhile_cons_of_pos hblank]

theorem splitOnce_append {sep : Char} {a b : List Char} (h : sep ∉ a) :
    splitOnce sep (a ++ sep :: b) = some (a, b) := by
  have hall : ∀ c ∈ a, (c != sep) = true := by
    intro c hc
    rw [bne_iff_ne]
    rintro rfl
    exact h hc
  have hsep : (sep != sep) = false := bne_self_eq_false' ..
  unfold splitOnce
  rw [if_pos (List.mem_append_right _ List.mem_cons_self), List.takeWhile_append_of_pos hall,
    List.dropWhile_append_of_pos hall, List.takeWhile_cons, List.dropWhile_cons]
  simp only [hsep, Bool.false_eq_true, if_false, List.append_nil, List.tail_cons]

theorem mem_intercalate {α : Type} {sep : List α} {c : α} {parts : List (List α)}
    (h : c ∈ sep.intercalate parts) : c ∈ sep ∨ ∃ part ∈ parts, c ∈ part := by
  match parts with
  | [] => cases h
  | [part] =>
      rw [List.intercalate_singleton] at h
      exact Or.inr ⟨part, List.mem_singleton_self _, h⟩
  | part :: next :: rest =>
      rw [List.intercalate_cons_cons] at h
      rcases List.mem_append.mp h with h | h
      · rcases List.mem_append.mp h with h | h
        · exact Or.inr ⟨part, List.mem_cons_self, h⟩
        · exact Or.inl h
      · refine (mem_intercalate h).imp_right ?_
        rintro ⟨part', hpart, hc⟩
        exact ⟨part', List.mem_cons_of_mem _ hpart, hc⟩

section Plain

variable {e : String × String}

/-- The characters of `name=value`. -/
theorem PlainCookie.chars (h : PlainCookie e) :
    ∀ c ∈ pairText e, 33 ≤ c.toNat ∧ c.toNat ≤ 126 ∧ c ≠ ';' ∧ isWhiteSpace c = false := by
  intro c hc
  have hplain : ∀ c, PlainChar c →
      33 ≤ c.toNat ∧ c.toNat ≤ 126 ∧ c ≠ ';' ∧ isWhiteSpace c = false := fun c hc =>
    ⟨hc.low, hc.high, hc.semicolon, hc.isWhiteSpace⟩
  rcases List.mem_append.mp hc with hc | hc
  · exact hplain c (h.name c hc)
  · rcases List.mem_cons.mp hc with rfl | hc
    · decide
    · exact hplain c (h.value c hc)

theorem cookiePart_pairText (h : PlainCookie e) :
    cookiePart (pairText e) = some (e.1.toList, e.2.toList) := by
  unfold cookiePart
  rw [Cimd.trim_plain fun c hc => (h.chars c hc).2.2.2]
  exact splitOnce_append fun hmem => (h.name _ hmem).equals rfl

theorem cookiePart_blank (s : List Char) : cookiePart (' ' :: s) = cookiePart s := by
  unfold cookiePart
  rw [trim_blank]

end Plain

section Carried

variable {h : HeaderMap} {j : Jar} {secure : Bool}

theorem mem_jarParts {l : List (String × String)} {part : List Char} (hp : part ∈ jarParts l) :
    ∃ e ∈ l, part = pairText e ∨ part = ' ' :: pairText e := by
  cases l with
  | nil => cases hp
  | cons e rest =>
      rcases List.mem_cons.mp hp with rfl | hp
      · exact ⟨e, List.mem_cons_self, Or.inl rfl⟩
      · obtain ⟨e', he', rfl⟩ := List.mem_map.mp hp
        exact ⟨e', List.mem_cons_of_mem _ he', Or.inr rfl⟩

theorem filterMap_jarParts {l : List (String × String)} (hl : ∀ e ∈ l, PlainCookie e) :
    (jarParts l).filterMap cookiePart = l.map fun e => (e.1.toList, e.2.toList) := by
  cases l with
  | nil => rfl
  | cons e rest =>
      have hrest : ∀ rest : List (String × String), (∀ e ∈ rest, PlainCookie e) →
          (rest.map fun e => ' ' :: pairText e).filterMap cookiePart =
            rest.map fun e => (e.1.toList, e.2.toList) := by
        intro rest hplain
        induction rest with
        | nil => rfl
        | cons e rest ih =>
            have he : cookiePart (' ' :: pairText e) = _ :=
              (cookiePart_blank _).trans (cookiePart_pairText (hplain e List.mem_cons_self))
            rw [List.map_cons, List.filterMap_cons_some he,
              ih fun x hx => hplain x (List.mem_cons_of_mem _ hx), List.map_cons]
      rw [jarParts, List.filterMap_cons_some (cookiePart_pairText (hl e List.mem_cons_self)),
        hrest rest fun x hx => hl x (List.mem_cons_of_mem _ hx), List.map_cons]

/-- **The server reads the cookies of the jar.** -/
theorem cookieParts_carries (hj : ∀ e ∈ j.cookies, PlainCookie e) (hc : Carries h j) :
    cookieParts h = j.cookies.map fun e => (e.1.toList, e.2.toList) := by
  unfold cookieParts
  rw [hc, Jar.fields]
  by_cases hnil : j.cookies = []
  · rw [if_pos hnil, hnil]
    rfl
  · have hparts : jarParts j.cookies ≠ [] := by
      cases hl : j.cookies with
      | nil => exact absurd hl hnil
      | cons e rest => exact List.cons_ne_nil _ _
    have hchars : ∀ part ∈ jarParts j.cookies, ∀ c ∈ part,
        32 ≤ c.toNat ∧ c.toNat ≤ 126 ∧ c ≠ ';' := by
      intro part hpart c hc
      obtain ⟨e, he, hsame⟩ := mem_jarParts hpart
      have hplain := (hj e he).chars
      rcases hsame with rfl | rfl
      · have := hplain c hc
        exact ⟨by omega, this.2.1, this.2.2.1⟩
      · rcases List.mem_cons.mp hc with rfl | hc
        · decide
        · have := hplain c hc
          exact ⟨by omega, this.2.1, this.2.2.1⟩
    have htext : ∀ c ∈ [';'].intercalate (jarParts j.cookies), 32 ≤ c.toNat ∧ c.toNat ≤ 126 := by
      intro c hc
      rcases mem_intercalate hc with hc | ⟨part, hpart, hc⟩
      · rw [List.mem_singleton.mp hc]
        decide
      · have := hchars part hpart c hc
        exact ⟨this.1, this.2.1⟩
    rw [if_neg hnil, List.filterMap_cons_some (toStr_utf8 htext), List.filterMap_nil,
      List.flatMap_cons, List.flatMap_nil, List.append_nil,
      List.splitOn_intercalate ';' (fun part hpart hmem => (hchars part hpart _ hmem).2.2 rfl)
        hparts, filterMap_jarParts hj]

end Carried

/-! ## 4. Transaction cookies -/

/-- The digits of a UUID, which are no separators. -/
structure HexDigit (c : Char) : Prop where
  value : (hexValue c).isSome = true
  plain : PlainChar c
  hyphen : c ≠ '-'

theorem mapM_hexValue {ds : List Char} (h : ∀ c ∈ ds, HexDigit c) :
    ∃ values, ds.mapM hexValue = some values := by
  induction ds with
  | nil => exact ⟨[], rfl⟩
  | cons c ds ih =>
      rw [List.forall_mem_cons] at h
      obtain ⟨value, hvalue⟩ := Option.isSome_iff_exists.mp h.1.value
      obtain ⟨values, hvalues⟩ := ih h.2
      refine ⟨value :: values, ?_⟩
      rw [List.mapM_cons, hvalue, hvalues]
      rfl

/-- The groups of 32 digits. -/
def uuidGroups (ds : List Char) : List (List Char) :=
  [ds.take 8, (ds.drop 8).take 4, (ds.drop 12).take 4, (ds.drop 16).take 4, (ds.drop 20).take 12]

theorem toText_groups (u : Uuid) : ∃ ds : List Char, ds.length = 32 ∧ (∀ c ∈ ds, HexDigit c) ∧
    u.toText.toList = ['-'].intercalate (uuidGroups ds) := by
  have hdigit : ∀ d : Fin 16, HexDigit
      (if d.val < 10 then Char.ofNat (48 + d.val) else Char.ofNat (87 + d.val)) := by
    have hall : ∀ d : Fin 16,
        let c := if d.val < 10 then Char.ofNat (48 + d.val) else Char.ofNat (87 + d.val)
        (hexValue c).isSome = true ∧ (33 ≤ c.toNat ∧ c.toNat ≤ 126 ∧ c ≠ ';' ∧ c ≠ '=') ∧
          c ≠ '-' := by decide
    intro d
    obtain ⟨hvalue, ⟨hlow, hhigh, hsemicolon, hequals⟩, hhyphen⟩ := hall d
    exact ⟨hvalue, ⟨hlow, hhigh, hsemicolon, hequals⟩, hhyphen⟩
  refine ⟨(List.range 32).map fun i =>
      (let d := u / 16 ^ (31 - i) % 16
       if d < 10 then Char.ofNat (48 + d) else Char.ofNat (87 + d)), ?_, ?_, ?_⟩
  · rw [List.length_map, List.length_range]
  · intro c hc
    obtain ⟨i, _, rfl⟩ := List.mem_map.mp hc
    exact hdigit ⟨u / 16 ^ (31 - i) % 16, Nat.mod_lt _ (by decide)⟩
  · have hhyphen : "-".toList = ['-'] := rfl
    unfold Uuid.toText uuidGroups
    simp only [String.toList_append, String.toList_ofList, hhyphen, List.intercalate_cons_cons,
      List.intercalate_singleton, List.append_assoc, List.drop_zero]

theorem flatten_uuidGroups {ds : List Char} (h : ds.length = 32) :
    (uuidGroups ds).flatten = ds := by
  unfold uuidGroups
  simp only [List.flatten_cons, List.flatten_nil, List.append_nil, ← List.append_assoc,
    ← List.take_add]
  exact List.take_of_length_le (Nat.le_of_eq h)

/-- **The text of a UUID is read as one.** -/
theorem parseUuid_toText (u : Uuid) : (parseUuid u.toText.toList).isSome = true := by
  obtain ⟨ds, hlength, hdigits, htext⟩ := toText_groups u
  have hgroups : ∀ group ∈ uuidGroups ds, '-' ∉ group := by
    intro group hgroup hmem
    have hds : '-' ∈ (uuidGroups ds).flatten := List.mem_flatten.mpr ⟨group, hgroup, hmem⟩
    rw [flatten_uuidGroups hlength] at hds
    exact (hdigits _ hds).hyphen rfl
  have hsplit : u.toText.toList.splitOn '-' = uuidGroups ds := by
    rw [htext]
    exact List.splitOn_intercalate '-' hgroups (List.cons_ne_nil _ _)
  have hlengths : (uuidGroups ds).map List.length = [8, 4, 4, 4, 12] := by
    simp [uuidGroups, hlength]
  have hsize : u.toText.toList.length = 36 := by
    rw [htext]
    simp [uuidGroups, List.intercalate_cons_cons, hlength]
  obtain ⟨values, hvalues⟩ := mapM_hexValue hdigits
  unfold parseUuid parseHyphenated parseSimple
  rw [if_neg (by omega), if_pos hsize, hsplit, if_pos hlengths, flatten_uuidGroups hlength,
    if_pos hlength, hvalues]
  rfl

section Names

variable {secure : Bool}

theorem isTxName_txCookie (id : Uuid) : isTxName secure (txCookie id secure).toList = true := by
  unfold isTxName txCookie
  rw [String.toList_append, stripPrefix_eq_some.mpr rfl, Option.any_some]
  exact parseUuid_toText id

theorem plain_txCookie (id : Uuid) : ∀ c ∈ (txCookie id secure).toList, PlainChar c := by
  obtain ⟨ds, hlength, hdigits, htext⟩ := toText_groups id
  have htxPrefix : ∀ c ∈ (txPrefix secure).toList, PlainChar c := by
    cases secure <;> exact plain_of_all (by decide)
  intro c hc
  unfold txCookie at hc
  rw [String.toList_append, htext] at hc
  rcases List.mem_append.mp hc with hc | hc
  · exact htxPrefix c hc
  · rcases mem_intercalate hc with hc | ⟨group, hgroup, hc⟩
    · rw [List.mem_singleton.mp hc]
      decide
    · have hds : c ∈ (uuidGroups ds).flatten := List.mem_flatten.mpr ⟨group, hgroup, hc⟩
      rw [flatten_uuidGroups hlength] at hds
      exact (hdigits c hds).plain

theorem plain_sessionCookie : ∀ c ∈ (sessionCookie secure).toList, PlainChar c := by
  cases secure <;> exact plain_of_all (by decide)

theorem isTxName_sessionCookie : isTxName secure (sessionCookie secure).toList = false := by
  cases secure <;> decide

end Names

/-- **The transaction cookies of a jar are read, or none of them** if they are more than four. -/
theorem transactionCookies_carries {h : HeaderMap} {j : Jar} {secure : Bool}
    (hj : ∀ e ∈ j.cookies, PlainCookie e) (hc : Carries h j) :
    transactionCookies h secure =
      if (j.transactions secure).length ≤ 4 then j.transactions secure else [] := by
  have hvalues : (((cookieParts h).filter fun e =>
      isTxName secure e.1 && decide (e.2.length ≤ 512)).map fun e =>
        (String.ofList e.1, String.ofList e.2)) = j.transactions secure := by
    have hsame : ∀ e ∈ j.cookies, (isTxName secure e.1.toList &&
        decide (e.2.toList.length ≤ 512)) = isTxName secure e.1.toList := by
      intro e he
      rw [decide_eq_true (hj e he).short, Bool.and_true]
    rw [cookieParts_carries hj hc, List.filter_map, List.map_map]
    refine (List.map_congr_left fun e _ => ?_).trans ((List.map_id _).trans
      (List.filter_congr hsame))
    show (String.ofList e.1.toList, String.ofList e.2.toList) = e
    rw [String.ofList_toList, String.ofList_toList]
  have hnames : ((j.transactions secure).map (·.1)).Nodup :=
    j.distinct.sublist (List.filter_sublist.map _)
  unfold transactionCookies
  dsimp only
  rw [hvalues, hnames.dedup, List.length_map]
  by_cases hfew : (j.transactions secure).length ≤ 4
  · rw [if_pos hfew, if_neg]
    rintro (hmany | hne)
    · omega
    · exact hne rfl
  · rw [if_neg hfew, if_pos (Or.inl (Nat.lt_of_not_le hfew))]

/-- **All of them are counted.** -/
theorem transactionCookieCount_carries {h : HeaderMap} {j : Jar} {secure : Bool}
    (hj : ∀ e ∈ j.cookies, PlainCookie e) (hc : Carries h j) :
    transactionCookieCount h secure = (j.transactions secure).length := by
  unfold transactionCookieCount Jar.transactions
  rw [cookieParts_carries hj hc, List.filter_map, List.length_map]
  rfl

/-! ## 5. Responses -/

/-- The cookie is a transaction's, and is not dropped. -/
def SetCookie.gives (secure : Bool) (c : SetCookie) : Bool :=
  decide (c.maxAge ≠ some 0) && isTxName secure c.name.toList

/-- The transaction cookies a response gives. -/
def Response.given (secure : Bool) (r : Response) : List SetCookie :=
  r.setCookies.filter (SetCookie.gives secure)

section Receive

variable {j : Jar} {secure : Bool}

theorem mem_put {name value : String} {e : String × String}
    (he : e ∈ (j.put name value).cookies) : e ∈ j.cookies ∨ e = (name, value) :=
  (List.mem_append.mp he).imp (fun he => (Jar.mem_drop.mp he).1) List.mem_singleton.mp

/-- A cookie of the jar was there, or the response sets it. -/
theorem mem_receive {cs : List SetCookie} {e : String × String}
    (he : e ∈ (cs.foldl Jar.set j).cookies) :
    e ∈ j.cookies ∨ ∃ c ∈ cs, c.maxAge ≠ some 0 ∧ e = (c.name, c.value) := by
  induction cs generalizing j with
  | nil => exact Or.inl he
  | cons c cs ih =>
      rcases ih he with he | ⟨c', hc', hset⟩
      · unfold Jar.set at he
        split at he
        · exact Or.inl (Jar.mem_drop.mp he).1
        · rename_i hage
          refine (mem_put he).imp_right fun he => ?_
          exact ⟨c, List.mem_cons_self, hage, he⟩
      · exact Or.inr ⟨c', List.mem_cons_of_mem _ hc', hset⟩

theorem length_transactions_drop (name : String) :
    ((j.drop name).transactions secure).length ≤ (j.transactions secure).length :=
  (List.filter_sublist.filter _).length_le

theorem length_transactions_set (c : SetCookie) :
    ((j.set c).transactions secure).length ≤
      (j.transactions secure).length + (if c.gives secure then 1 else 0) := by
  have hdrop : ((j.drop c.name).transactions secure).length ≤ (j.transactions secure).length :=
    length_transactions_drop c.name
  unfold Jar.set
  by_cases hage : c.maxAge = some 0
  · rw [if_pos hage]
    exact Nat.le_add_right_of_le hdrop
  · have hgives : c.gives secure = isTxName secure c.name.toList := by
      unfold SetCookie.gives
      rw [decide_eq_true hage, Bool.true_and]
    have hput : ((j.put c.name c.value).transactions secure).length =
        ((j.drop c.name).transactions secure).length +
          (if isTxName secure c.name.toList then 1 else 0) := by
      unfold Jar.transactions Jar.put
      rw [List.filter_append, List.length_append, List.filter_cons, List.filter_nil]
      split <;> rfl
    rw [if_neg hage, hput, hgives]
    exact Nat.add_le_add_right hdrop _

/-- **A response adds at most the transaction cookies it gives.** -/
theorem length_transactions_receive (r : Response) :
    ((j.receive r).transactions secure).length ≤
      (j.transactions secure).length + (r.given secure).length := by
  unfold Jar.receive Response.given
  induction r.setCookies generalizing j with
  | nil => exact Nat.le_refl _
  | cons c cs ih =>
      have hset : ((j.set c).transactions secure).length ≤ _ := length_transactions_set c
      have hrest := ih (j := j.set c)
      rw [List.foldl_cons, List.filter_cons]
      split <;> rename_i hgives
      · rw [if_pos hgives] at hset
        rw [List.length_cons]
        omega
      · rw [if_neg hgives] at hset
        omega

end Receive

end Web

end Eri
