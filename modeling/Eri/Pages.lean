/-
  File:      Eri/Pages.lean
  Subject:   The documents the handlers answer with (src/web.rs): their text, and that nothing
             in a parameter becomes markup.

  * `escape`, `escape_toList` -- five replacements, one after the other, are one encoding;
  * `renderConsent`, `renderLogin`, `renderLogout`, `localErrorHtml`, `consentReturnHtml`;
  * `Alike` -- two documents with the same markup;
  * `pages_inert` -- **escaping, and the markup of every page**.
-/
import Eri.Net.Html
import Eri.Forms
import Eri.Web
import Eri.Logout

namespace Eri

namespace Web

/-! ## 1. Escaping -/

/-- `str::replace` of a character. -/
def replace (c : Char) (text : String) (s : List Char) : List Char :=
  s.flatMap fun x => if x = c then text.toList else [x]

def escape (v : String) : String :=
  String.ofList <|
    replace '\'' "&#39;" <|
    replace '"' "&quot;" <|
    replace '>' "&gt;" <|
    replace '<' "&lt;" <|
    replace '&' "&amp;" v.toList

/-- One after the other, they replace each character by its reference: no replacement touches
    what an earlier one wrote. -/
theorem escape_toList (v : String) : (escape v).toList = Html.encode v.toList := by
  unfold escape replace Html.encode
  rw [String.toList_ofList]
  simp only [List.flatMap_assoc]
  refine List.flatMap_congr fun c _ => ?_
  by_cases hmem : c ∈ ['&', '<', '>', '"', '\'']
  · have hall : ∀ c ∈ ['&', '<', '>', '"', '\''],
        (if c = '&' then "&amp;".toList else [c]).flatMap (fun x =>
          (if x = '<' then "&lt;".toList else [x]).flatMap fun x =>
            (if x = '>' then "&gt;".toList else [x]).flatMap fun x =>
              (if x = '"' then "&quot;".toList else [x]).flatMap fun x =>
                if x = '\'' then "&#39;".toList else [x]) = Html.entity c := by
      simp only [List.forall_mem_cons, List.not_mem_nil, IsEmpty.forall_iff, implies_true,
        and_true]
      decide
    exact hall c hmem
  · simp only [List.mem_cons, List.not_mem_nil, or_false, not_or] at hmem
    obtain ⟨h₁, h₂, h₃, h₄, h₅⟩ := hmem
    have hentity : Html.entity c = [c] := by
      rcases Html.entity_cases c with hr | ⟨_, he⟩
      · simp only [Html.references, List.mem_cons, Prod.mk.injEq, List.not_mem_nil,
          or_false] at hr
        tauto
      · exact he
    simp only [if_neg h₁, if_neg h₂, if_neg h₃, if_neg h₄, if_neg h₅, List.flatMap_cons,
       List.flatMap_nil, List.append_nil, hentity]

theorem decode_escape (v : String) : Html.decode (escape v).toList = v.toList := by
  rw [escape_toList, Html.decode_encode]

theorem escape_injective : Function.Injective escape := by
  intro v w h
  have hdecode : v.toList = w.toList := by
    rw [← decode_escape v, h, decode_escape]
  exact String.toList_inj.mp hdecode

theorem escape_append (v w : String) : escape (v ++ w) = escape v ++ escape w := by
  refine String.toList_inj.mp ?_
  rw [String.toList_append, escape_toList, escape_toList, escape_toList, String.toList_append,
    Html.encode_append]

/-! ## 2. The documents -/

def page (title body : String) : String :=
  "<!doctype html><html lang=es><head><meta charset=utf-8><meta name=viewport " ++
    "content='width=device-width,initial-scale=1'><link rel=stylesheet href=/auth.css><title>" ++
    title ++ " · Eri</title></head><body><main><div class=mark>E</div>" ++
    "<p class=eyebrow>IDENTIDAD SHOCKER</p><h1>" ++ title ++ "</h1>" ++ body ++
    "</main></body></html>"

def renderConsent (v : ConsentView) : String :=
  page "Autorizar acceso" <|
    "<p><strong>" ++ escape v.clientName ++ "</strong> solicita acceso a tu cuenta.</p>" ++
    "<p class=account>Cuenta: <strong>" ++ escape v.account ++ "</strong></p><p>Permisos: " ++
    escape (String.intercalate " · " v.scopes) ++ "</p><p>Recurso: " ++ escape v.resource ++
    "</p><form method=post action=/consent><input type=hidden name=transaction_id value=\"" ++
    v.transactionId.toText ++ "\"><input type=hidden name=csrf value=\"" ++ escape v.csrf ++
    "\"><button name=action value=approve>Autorizar</button>" ++
    "<button class=secondary name=action value=deny>Denegar</button></form>"

def renderLogin (clientName : String) (scopes : List String) (resource : String) (id : Uuid)
    (state : String) : String :=
  page (escape clientName) <|
    "<p>Esta aplicación solicita acceso a tu cuenta.</p><p>Permisos: " ++
    escape (String.intercalate " · " scopes) ++ "</p><p>Recurso: " ++ escape resource ++
    "</p><form method=post action=/federation/google/start>" ++
    "<input type=hidden name=transaction_id value=\"" ++ id.toText ++
    "\"><input type=hidden name=state value=\"" ++ escape state ++
    "\"><button name=action value=continue>Continuar con Google</button>" ++
    "<button class=secondary name=action value=cancel>Cancelar</button></form>"

def renderLogout (v : LogoutChallenge) : String :=
  page "Cerrar sesión" <|
    "<p>Se cerrará tu sesión en Eri.</p><form method=post action=/logout>" ++
    "<input type=hidden name=challenge value=\"" ++ v.id.toText ++
    "\"><input type=hidden name=csrf value=\"" ++ escape v.csrf ++
    "\"><button>Cerrar sesión</button></form>"

/-- The document of `local_error`. -/
def localErrorHtml (m : String) : String :=
  page "No pudimos continuar" ("<p>" ++ escape m ++ "</p>")

/-- The document of `consent_return`, for the URL it sends the browser to. -/
def consentReturnHtml (url : String) : String :=
  let target := escape url
  "<!doctype html><html lang=es><head><meta charset=utf-8><meta name=viewport " ++
    "content='width=device-width,initial-scale=1'><meta http-equiv=refresh " ++
    "content=\"0;url=" ++ target ++
    "\"><title>Continuar · Eri</title></head><body><main><h1>Continuar</h1><p><a href=\"" ++
    target ++ "\">Volver a la aplicación</a></p></main></body></html>"

/-- The document of a response; redirects have none. -/
def Page.html (C : HttpCrates) : Page → Option String
  | .localError message => some (localErrorHtml message)
  | .consentReturn base items => some (consentReturnHtml (redirectUrl C base items))
  | .login clientName scopes resource id state _ _ =>
      some (renderLogin clientName scopes resource id state)
  | .consent view => some (renderConsent view)
  | .redirect .. | .upstream .. => none

/-! ## 3. Markup -/

/-- Both documents have the same tags, attributes and delimiters: they differ in texts and
    quoted values only. -/
def Alike (s t : String) : Prop := Html.markup .text s.toList = Html.markup .text t.toList

section Pieces

variable {m m' : Html.Mode} {s t : String}

/-- Two texts that a reader of the markup does not tell apart. -/
abbrev Pieces (m m' : Html.Mode) (s t : String) : Prop := Html.Same m m' s.toList t.toList

theorem Pieces.lit (m₁ : Html.Mode) {l : List Char} (h : Html.after m l = m₁)
    (hrest : Pieces m₁ m' s t) : Pieces m m' (String.ofList l ++ s) (String.ofList l ++ t) := by
  unfold Pieces
  rw [String.toList_append, String.toList_append, String.toList_ofList]
  exact Html.Same.append (.lit h) hrest

theorem Pieces.escaped (v w : String) (hm : m.stop.isSome = true) (hrest : Pieces m m' s t) :
    Pieces m m' (escape v ++ s) (escape w ++ t) := by
  unfold Pieces
  rw [String.toList_append, String.toList_append, escape_toList, escape_toList]
  exact Html.Same.append (.encoded hm _ _) hrest

/-- A UUID is digits and hyphens. -/
theorem toText_chars (u : Uuid) : ∀ c ∈ u.toText.toList, c = '-' ∨ c.isAlphanum = true := by
  have hdigit : ∀ d : Fin 16,
      (if d.val < 10 then Char.ofNat (48 + d.val)
        else Char.ofNat (87 + d.val)).isAlphanum = true := by
    decide
  have hdigits : ∀ c ∈ (List.range 32).map fun i =>
      (let d := u / 16 ^ (31 - i) % 16
       if d < 10 then Char.ofNat (48 + d) else Char.ofNat (87 + d)), c.isAlphanum = true := by
    intro c hc
    obtain ⟨i, _, rfl⟩ := List.mem_map.mp hc
    exact hdigit ⟨u / 16 ^ (31 - i) % 16, Nat.mod_lt _ (by decide)⟩
  have hhyphen : "-".toList = ['-'] := rfl
  intro c hc
  unfold Uuid.toText at hc
  simp only [String.toList_append, String.toList_ofList, List.mem_append, hhyphen,
    List.mem_singleton] at hc
  have hgroup : ∀ i n, c ∈ (((List.range 32).map fun i =>
      (let d := u / 16 ^ (31 - i) % 16
       if d < 10 then Char.ofNat (48 + d) else Char.ofNat (87 + d))).drop i).take n →
      c.isAlphanum = true := fun i n h => hdigits c (List.mem_of_mem_drop (List.mem_of_mem_take h))
  rcases hc with (((((((h | h) | h) | h) | h) | h) | h) | h) | h
  all_goals first
    | exact Or.inl h
    | exact Or.inr (hgroup _ _ h)

theorem Pieces.uuid (u w : Uuid) (hrest : Pieces .double m' s t) :
    Pieces .double m' (u.toText ++ s) (w.toText ++ t) := by
  have hquote : ∀ u : Uuid, '"' ∉ u.toText.toList := by
    intro u h
    rcases toText_chars u _ h with e | e <;> exact absurd e (by decide)
  unfold Pieces
  rw [String.toList_append, String.toList_append]
  exact Html.Same.append (.hole rfl (hquote u) (hquote w)) hrest

theorem Pieces.last {l : List Char} (h : Html.after m l = m') :
    Pieces m m' (String.ofList l) (String.ofList l) := by
  unfold Pieces
  rw [String.toList_ofList]
  exact Html.Same.lit h

theorem Pieces.append {m₁ : Html.Mode} {a b : String} (h : Pieces m m₁ a b)
    (hrest : Pieces m₁ m' s t) : Pieces m m' (a ++ s) (b ++ t) := by
  unfold Pieces
  rw [String.toList_append, String.toList_append]
  exact Html.Same.append h hrest

/-- **A page**, around any two titles and bodies that are alike. -/
theorem Pieces.page {title title' body body' : String} (htitle : Pieces .text .text title title')
    (hbody : Pieces .text .text body body') :
    Pieces .text .text (page title body) (page title' body') := by
  unfold Web.page
  simp only [String.append_assoc]
  exact .lit .tag rfl <| .lit .text rfl <| .append htitle <| .lit .text rfl <| .lit .text rfl <|
    .append htitle <| .lit .text rfl <| .append hbody <| .last rfl

end Pieces

/-! ## 4. Results -/

theorem renderConsent_alike (v w : ConsentView) : Alike (renderConsent v) (renderConsent w) := by
  refine (Pieces.page (.last rfl) ?_).markup
  simp only [String.append_assoc]
  exact .lit .text rfl <| .escaped _ _ rfl <| .lit .text rfl <| .lit .text rfl <|
    .escaped _ _ rfl <| .lit .text rfl <| .escaped _ _ rfl <| .lit .text rfl <|
    .escaped _ _ rfl <| .lit .double rfl <| .uuid _ _ <| .lit .double rfl <|
    .escaped _ _ rfl <| .lit .text rfl <| .last rfl

theorem renderLogin_alike (clientName clientName' : String) (scopes scopes' : List String)
    (resource resource' : String) (id id' : Uuid) (state state' : String) :
    Alike (renderLogin clientName scopes resource id state)
      (renderLogin clientName' scopes' resource' id' state') := by
  have htitle : Pieces .text .text (escape clientName) (escape clientName') := by
    unfold Pieces
    rw [escape_toList, escape_toList]
    exact .encoded rfl _ _
  refine (Pieces.page htitle ?_).markup
  simp only [String.append_assoc]
  exact .lit .text rfl <| .escaped _ _ rfl <| .lit .text rfl <| .escaped _ _ rfl <|
    .lit .text rfl <| .lit .double rfl <| .uuid _ _ <| .lit .double rfl <|
    .escaped _ _ rfl <| .lit .text rfl <| .last rfl

theorem renderLogout_alike (v w : LogoutChallenge) : Alike (renderLogout v) (renderLogout w) := by
  refine (Pieces.page (.last rfl) ?_).markup
  simp only [String.append_assoc]
  exact .lit .text rfl <| .lit .double rfl <| .uuid _ _ <|
    .lit .double rfl <| .escaped _ _ rfl <| .last rfl

theorem localErrorHtml_alike (m m' : String) : Alike (localErrorHtml m) (localErrorHtml m') := by
  refine (Pieces.page (.last rfl) ?_).markup
  simp only [String.append_assoc]
  exact .lit .text rfl <| .escaped _ _ rfl <| .last rfl

theorem consentReturnHtml_alike (url url' : String) :
    Alike (consentReturnHtml url) (consentReturnHtml url') := by
  have hpieces : Pieces .text .text (consentReturnHtml url) (consentReturnHtml url') := by
    unfold consentReturnHtml
    simp only [String.append_assoc]
    exact .lit .tag rfl <| .lit .tag rfl <| .lit .double rfl <| .escaped _ _ rfl <|
      .lit .double rfl <| .escaped _ _ rfl <| .last rfl
  exact hpieces.markup

/-- **The values of the document that ends a form**: the URL, in both places. -/
theorem consentReturnHtml_values (url : String) :
    (Html.values .text (consentReturnHtml url).toList).map Html.decode =
      ["width=device-width,initial-scale=1".toList, "0;url=".toList ++ url.toList,
        url.toList] := by
  have hrefresh : "content=\"0;url=".toList = "content=".toList ++ '"' :: "0;url=".toList := by
    rw [String.toList_ofList, String.toList_ofList, String.toList_ofList]
    rfl
  have hlink :
      "\"><title>Continuar · Eri</title></head><body><main><h1>Continuar</h1><p><a href=\"".toList =
        '"' :: ("><title>Continuar · Eri</title></head><body><main><h1>Continuar</h1>".toList ++
          "<p><a href=".toList ++ ['"']) := by
    rw [String.toList_ofList, String.toList_ofList, String.toList_ofList]
    rfl
  have hend : "\">Volver a la aplicación</a></p></main></body></html>".toList =
      '"' :: ">Volver a la aplicación</a></p></main></body></html>".toList := by
    rw [String.toList_ofList, String.toList_ofList]
  have hplain : Html.encode "0;url=".toList = "0;url=".toList := by
    rw [String.toList_ofList]
    decide +kernel
  have hquote : ∀ v, '"' ∉ Html.encode v := Html.not_mem_encode (by decide)
  -- the document, cut where its two values begin and end
  have hparts : (consentReturnHtml url).toList =
      ("<!doctype html><html lang=es><head><meta charset=utf-8><meta name=viewport ".toList ++
        ("content='width=device-width,initial-scale=1'><meta http-equiv=refresh ".toList ++
        "content=".toList)) ++ '"' :: (Html.encode ("0;url=".toList ++ url.toList) ++ '"' ::
      (("><title>Continuar · Eri</title></head><body><main><h1>Continuar</h1>".toList ++
        "<p><a href=".toList) ++ '"' :: (Html.encode url.toList ++ '"' ::
      ">Volver a la aplicación</a></p></main></body></html>".toList))) := by
    unfold consentReturnHtml
    simp only [String.toList_append, escape_toList, hrefresh, hlink, hend, Html.encode_append,
      hplain, List.append_assoc, List.cons_append, List.nil_append]
  rw [hparts,
    Html.values_quoted
      (by rw [String.toList_ofList, String.toList_ofList, String.toList_ofList]; decide +kernel)
      (hquote _),
    Html.values_quoted (by rw [String.toList_ofList, String.toList_ofList]; decide +kernel)
      (hquote _)]
  simp only [List.map_append, List.map_cons, Html.decode_encode]
  have hhead : (Html.values .text
      ("<!doctype html><html lang=es><head><meta charset=utf-8><meta name=viewport ".toList ++
        ("content='width=device-width,initial-scale=1'><meta http-equiv=refresh ".toList ++
        "content=".toList))).map Html.decode = ["width=device-width,initial-scale=1".toList] := by
    rw [String.toList_ofList, String.toList_ofList, String.toList_ofList, String.toList_ofList]
    decide +kernel
  have hmiddle : Html.values .tag
      ("><title>Continuar · Eri</title></head><body><main><h1>Continuar</h1>".toList ++
        "<p><a href=".toList) = [] := by
    rw [String.toList_ofList, String.toList_ofList]
    decide +kernel
  have hlast :
      Html.values .tag ">Volver a la aplicación</a></p></main></body></html>".toList = [] := by
    rw [String.toList_ofList]
    decide +kernel
  rw [hhead, hmiddle, hlast]
  rfl

/-- The document of `consent_return`. -/
theorem consentReturn_html {C : HttpCrates} {base html : String}
    {items : List (String × Option String)}
    (h : (consentReturn C base items).page.html C = some html) :
    ∃ url, html = consentReturnHtml url := by
  unfold consentReturn at h
  split at h
  · exact ⟨_, (Option.some.inj h).symm⟩
  · cases h

/-- **No markup comes from a parameter.** Escaped text ends no text and no quoted value, each of
    its ampersands begins one of the five references, it reads as what was escaped, and pieces
    are escaped one by one; and any two documents of one template have the same markup. -/
theorem pages_inert (C : HttpCrates) :
    (∀ v, (∀ c ∈ ['<', '>', '"', '\''], c ∉ (escape v).toList) ∧
      (∀ a b, (escape v).toList = a ++ '&' :: b →
        ∃ r ∈ Html.references, r.2 <+: '&' :: b) ∧
      Html.decode (escape v).toList = v.toList) ∧
    Function.Injective escape ∧ (∀ v w, escape (v ++ w) = escape v ++ escape w) ∧
    (∀ v w, Alike (renderConsent v) (renderConsent w)) ∧
    (∀ clientName clientName' scopes scopes' resource resource' id id' state state',
      Alike (renderLogin clientName scopes resource id state)
        (renderLogin clientName' scopes' resource' id' state')) ∧
    (∀ v w, Alike (renderLogout v) (renderLogout w)) ∧
    (∀ m m' s t, (localError m).page.html C = some s → (localError m').page.html C = some t →
      Alike s t) ∧
    ∀ base base' items items' s t, (consentReturn C base items).page.html C = some s →
      (consentReturn C base' items').page.html C = some t → Alike s t := by
  refine ⟨fun v => ⟨?_, ?_, decode_escape v⟩, escape_injective, escape_append,
    renderConsent_alike, renderLogin_alike, renderLogout_alike, ?_, ?_⟩
  · intro c hc
    rw [escape_toList]
    exact Html.not_mem_encode hc _
  · intro a b h
    rw [escape_toList] at h
    exact Html.encode_reference h
  · intro m m' s t hs ht
    obtain rfl := Option.some.inj hs
    obtain rfl := Option.some.inj ht
    exact localErrorHtml_alike m m'
  · intro base base' items items' s t hs ht
    obtain ⟨url, rfl⟩ := consentReturn_html hs
    obtain ⟨url', rfl⟩ := consentReturn_html ht
    exact consentReturnHtml_alike url url'

namespace Sample

def pageCrates : HttpCrates := formCrates Eri.Sample.platform

end Sample

theorem pages_inert_hostile :
    '<' ∉ (escape "<b>&\"").toList ∧
    (∃ r ∈ Html.references, r.2 <+: '&' :: "amp;&quot;".toList) ∧
    ∃ s t,
      (consentReturn Sample.pageCrates "https://app.example/callback"
        [("state", some "\"><script>")]).page.html Sample.pageCrates = some s ∧
      (consentReturn Sample.pageCrates "https://app.example/callback" []).page.html
        Sample.pageCrates = some t ∧ Alike s t := by
  obtain ⟨hescape, _, _, _, _, _, _, hdocument⟩ := pages_inert Sample.pageCrates
  have hquoted := (hescape "<b>&\"").2.1 "&lt;b&gt;".toList "amp;&quot;".toList
    (by decide)
  exact ⟨(hescape _).1 '<' (by decide), hquoted, _, _, rfl, rfl,
    hdocument "https://app.example/callback" "https://app.example/callback"
      [("state", some "\"><script>")] [] _ _ rfl rfl⟩

end Web

end Eri
