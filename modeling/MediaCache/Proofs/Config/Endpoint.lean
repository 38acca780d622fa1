import MediaCache.Proofs.Config.Url

/-!
# Endpoints and their base URL

An endpoint has the host and the path of the base URL, and its scheme and port unless the settings say
otherwise. As a base URL of its own it gives the same endpoint again.
-/

namespace MediaCache.Config

def Url.IsReading (u : Url) (text : String) : Prop :=
  u.Spells text.toList ∧ ∀ v : Url, v.Spells text.toList → v = u

theorem Url.Spells.isReading {u : Url} {text : String} (h : u.Spells text.toList) :
    u.IsReading text :=
  ⟨h, fun _ hv => hv.unique h⟩

namespace Endpoint

variable {s : Settings} {e : Endpoint} {u : Url}

/-! ## Paths -/

@[simp]
theorem getLast?_closed (path : List Char) : (closed path).getLast? = some '/' := by
  unfold closed
  split
  · assumption
  · exact List.getLast?_concat

@[simp]
theorem closed_closed (path : List Char) : closed (closed path) = closed path := by
  rw [closed.eq_def (closed path), if_pos (getLast?_closed path)]

theorem head?_closed {path : List Char} (h : path = [] ∨ path.head? = some '/') :
    (closed path).head? = some '/' := by
  rcases h with rfl | h
  · rfl
  · obtain ⟨rest, rfl⟩ := List.head?_eq_some_iff.1 h
    unfold closed
    split <;> rfl

/-! ## Reading -/

def IsServer (u : Url) : Prop :=
  (u.scheme = "http".toList ∨ u.scheme = "https".toList) ∧ u.host ≠ []

def ofUrl (s : Settings) (u : Url) : Endpoint where
  isSecure := s.https || u.scheme == "https".toList
  host := String.ofList u.host
  port := s.devPort.or u.port
  path := String.ofList (closed u.path)

theorem isSecureScheme?_eq_some_iff {https isSecure : Bool} {scheme : List Char} :
    isSecureScheme? https scheme = some isSecure ↔
      (scheme = "http".toList ∨ scheme = "https".toList) ∧
        isSecure = (https || scheme == "https".toList) := by
  unfold isSecureScheme?
  by_cases hplain : scheme = "http".toList
  · subst hplain
    simp [eq_comm]
  · by_cases hsecure : scheme = "https".toList
    · subst hsecure
      simp [eq_comm]
    · rw [if_neg hplain, if_neg hsecure]
      exact ⟨nofun, fun h => absurd h.1 (not_or.2 ⟨hplain, hsecure⟩)⟩

theorem ofSettings?_eq_some_iff :
    ofSettings? s = some e ↔ ∃ u : Url, u.Spells s.baseUrl.toList ∧ IsServer u ∧ e = ofUrl s u := by
  constructor
  · intro h
    unfold ofSettings? at h
    obtain ⟨⟨scheme, rest⟩, hsplit, h⟩ := Option.bind_eq_some_iff.1 h
    obtain ⟨isSecure, hsecure, h⟩ := Option.bind_eq_some_iff.1 h
    obtain ⟨⟨host, port⟩, hauthority, h⟩ := Option.bind_eq_some_iff.1 h
    obtain ⟨hhost, heq⟩ := Option.ite_none_left_eq_some.1 h
    obtain ⟨hscheme, rfl⟩ := isSecureScheme?_eq_some_iff.1 hsecure
    cases heq
    -- Neither scheme has a colon, so the text splits where the scanner split it.
    have hcolon : ':' ∉ scheme := by
      rcases hscheme with rfl | rfl
      · decide
      · decide
    refine ⟨_, spells_of_scan hsplit hcolon hauthority, ⟨hscheme, ?_⟩, rfl⟩
    rwa [List.isEmpty_iff] at hhost
  · rintro ⟨u, hspells, ⟨hscheme, hhost⟩, rfl⟩
    obtain ⟨rest, hsplit, hauthority, hpath⟩ := scan_of_spells hspells
    have hsecure : isSecureScheme? s.https u.scheme = some (s.https || u.scheme == "https".toList) :=
      isSecureScheme?_eq_some_iff.2 ⟨hscheme, rfl⟩
    unfold ofSettings?
    rw [hsplit, Option.bind_eq_bind, Option.bind_some]
    simp only
    rw [hsecure, Option.bind_eq_bind, Option.bind_some, hauthority, Option.bind_eq_bind,
      Option.bind_some]
    simp only
    rw [if_neg (by rwa [List.isEmpty_iff]), hpath]
    rfl

theorem ofSettings_eq_ok_iff : ofSettings s = .ok e ↔ ofSettings? s = some e := by
  unfold ofSettings
  cases ofSettings? s with
  | none => simp
  | some endpoint => simp

/-! ## Writing -/

def address (e : Endpoint) : String := e.host ++ portText e.port ++ e.path

theorem url_eq (e : Endpoint) (scheme : String) :
    e.url scheme = scheme ++ "://" ++ (e.address ++ "graphql") := by
  unfold url address
  simp only [String.append_assoc]

theorem toList_portText_some (port : UInt16) :
    (portText (some port)).toList = ':' :: Nat.toDigits 10 port.toNat := by
  simp only [portText, String.toList_append, String.toList_ofList]
  rfl

theorem isAuthority_portText {host : List Char} {port : Option UInt16}
    (h : port = none → ':' ∉ host) :
    Url.IsAuthority (host ++ (portText port).toList) host port := by
  cases port with
  | none =>
    have hempty : (portText none).toList = [] := rfl
    rw [hempty, List.append_nil]
    exact .bare (h rfl)
  | some port =>
    rw [toList_portText_some]
    exact .ported (Url.isPort_toDigits port)

theorem slash_not_mem_portText (port : Option UInt16) : '/' ∉ (portText port).toList := by
  cases port with
  | none => decide
  | some port =>
    have hdigits : '/' ∉ Nat.toDigits 10 port.toNat :=
      (Url.isPort_toDigits port).not_mem (by decide) (by decide)
    rw [toList_portText_some, List.mem_cons, not_or]
    exact ⟨by decide, hdigits⟩

theorem spells_address (hspells : u.Spells s.baseUrl.toList) {scheme : String}
    (hscheme : ':' ∉ scheme.toList) (service : String) :
    (Url.mk scheme.toList u.host (s.devPort.or u.port) (closed u.path ++ service.toList)).Spells
      (scheme ++ "://" ++ ((ofUrl s u).address ++ service)).toList := by
  obtain ⟨authority, -, -, hslash, hpath, hauthority⟩ := hspells
  refine ⟨u.host ++ (portText (s.devPort.or u.port)).toList, ?_, hscheme, ?_, .inr ?_,
    isAuthority_portText ?_⟩
  · simp only [address, ofUrl, String.toList_append, String.toList_ofList, List.append_assoc]
  · rw [List.mem_append, not_or]
    exact ⟨fun hmem => hslash (hauthority.mem hmem), slash_not_mem_portText _⟩
  · rw [List.head?_append, head?_closed hpath]
    rfl
  · intro hport
    rw [(Option.or_eq_none_iff.1 hport).2] at hauthority
    exact hauthority.no_colon

theorem isReading_url (hspells : u.Spells s.baseUrl.toList) {scheme : String}
    (hscheme : ':' ∉ scheme.toList) :
    (Url.mk scheme.toList u.host (s.devPort.or u.port)
      (closed u.path ++ "graphql".toList)).IsReading ((ofUrl s u).url scheme) := by
  apply Url.Spells.isReading
  rw [url_eq]
  exact spells_address hspells hscheme "graphql"

def scheme (e : Endpoint) : String := if e.isSecure then "https" else "http"

theorem scheme_cases (e : Endpoint) :
    e.scheme = "http" ∧ e.isSecure = false ∨ e.scheme = "https" ∧ e.isSecure = true := by
  unfold scheme
  cases e.isSecure with
  | false => exact .inl ⟨rfl, rfl⟩
  | true => exact .inr ⟨rfl, rfl⟩

theorem ofSettings?_address (hspells : u.Spells s.baseUrl.toList) (hserver : IsServer u)
    {t : Settings} (hurl : t.baseUrl = (ofUrl s u).scheme ++ "://" ++ (ofUrl s u).address)
    (hhttps : t.https = false) (hport : t.devPort = none) :
    ofSettings? t = some (ofUrl s u) := by
  have hscheme : ':' ∉ (ofUrl s u).scheme.toList ∧
      ((ofUrl s u).scheme.toList = "http".toList ∨ (ofUrl s u).scheme.toList = "https".toList) ∧
        ((ofUrl s u).scheme.toList == "https".toList) = (ofUrl s u).isSecure := by
    obtain ⟨hplain, hsecure⟩ | ⟨hplain, hsecure⟩ := scheme_cases (ofUrl s u)
    · rw [hplain, hsecure]
      decide
    · rw [hplain, hsecure]
      decide
  have hagain := spells_address hspells hscheme.1 ""
  rw [String.append_empty, ← hurl] at hagain
  refine ofSettings?_eq_some_iff.2 ⟨_, hagain, ⟨hscheme.2.1, hserver.2⟩, ?_⟩
  have hpath : closed (closed u.path ++ "".toList) = closed u.path := by
    rw [show "".toList = [] from rfl, List.append_nil, closed_closed]
  rw [ofUrl.eq_def t]
  simp only [hhttps, hport, hpath, hscheme.2.2, Bool.false_or, Option.none_or]
  rfl

/-- An endpoint reads back from its own text. Both endpoints agree behind their schemes. They are
secure if the settings or the base URL say so, and they have the port of the settings or else that of
the base URL. -/
theorem endpoint_reads_back (h : ofSettings s = .ok e) :
    (∃ base, e.http = base ++ "graphql" ∧
        ∀ t : Settings, t.baseUrl = base → t.https = false → t.devPort = none →
          ofSettings t = .ok e) ∧
      ∃ u : Url, u.IsReading s.baseUrl ∧
        (∃ rest, if s.https = true ∨ u.scheme = "https".toList
          then e.http = "https://" ++ rest ∧ e.ws = "wss://" ++ rest
          else e.http = "http://" ++ rest ∧ e.ws = "ws://" ++ rest) ∧
        ∃ v w : Url, v.IsReading e.http ∧ w.IsReading e.ws ∧ v.port = s.devPort.or u.port ∧
          w.port = s.devPort.or u.port := by
  obtain ⟨u, hspells, hserver, rfl⟩ := ofSettings?_eq_some_iff.1 (ofSettings_eq_ok_iff.1 h)
  refine ⟨⟨(ofUrl s u).scheme ++ "://" ++ (ofUrl s u).address, ?_, ?_⟩, u, hspells.isReading,
    ⟨(ofUrl s u).address ++ "graphql", ?_⟩, ?_⟩
  · rw [http, url_eq, ← String.append_assoc]
    rfl
  · -- Read again, the text before the name of the service is its own base.
    intro t hurl hhttps hport
    exact ofSettings_eq_ok_iff.2 (ofSettings?_address hspells hserver hurl hhttps hport)
  · rw [http, ws, url_eq, url_eq]
    split
    · rename_i hsecure
      have : (ofUrl s u).isSecure = true := by simpa [ofUrl] using hsecure
      rw [this]
      exact ⟨rfl, rfl⟩
    · rename_i hplain
      have : (ofUrl s u).isSecure = false := by simpa [ofUrl] using hplain
      rw [this]
      exact ⟨rfl, rfl⟩
  · have hhttp : ':' ∉ (if (ofUrl s u).isSecure then "https" else "http").toList := by
      split <;> decide
    have hws : ':' ∉ (if (ofUrl s u).isSecure then "wss" else "ws").toList := by
      split <;> decide
    exact ⟨_, _, isReading_url hspells hhttp, isReading_url hspells hws, rfl, rfl⟩

/-- The host has a colon, the port a sign and zeros, and the path each of the separators. -/
def oddSettings : Settings := { baseUrl := "http://a:b:+0080/x:1://y", https := true }

def oddEndpoint : Endpoint := ⟨true, "a:b", some 80, "/x:1://y/"⟩

theorem odd_url_reads_back :
    ofSettings oddSettings = .ok oddEndpoint ∧
      oddEndpoint.http = "https://a:b:80/x:1://y/graphql" ∧
      oddEndpoint.ws = "wss://a:b:80/x:1://y/graphql" ∧
      ofSettings { baseUrl := "https://a:b:80/x:1://y/" } = .ok oddEndpoint ∧
      ∃ u v : Url, u.IsReading oddSettings.baseUrl ∧ v.IsReading oddEndpoint.http ∧
        v.port = oddSettings.devPort.or u.port := by
  have hok : ofSettings oddSettings = .ok oddEndpoint :=
    ofSettings_eq_ok_iff.2 (by decide +kernel)
  have hhttp : oddEndpoint.http = "https://a:b:80/x:1://y/" ++ "graphql" := by decide +kernel
  obtain ⟨⟨base, hbase, hagain⟩, u, hu, -, v, -, hv, -, hport, -⟩ := endpoint_reads_back hok
  have hsame : base = "https://a:b:80/x:1://y/" := by
    have hlists := congrArg String.toList (hbase.symm.trans hhttp)
    rw [String.toList_append, String.toList_append] at hlists
    exact String.toList_inj.1 (List.append_cancel_right hlists)
  exact ⟨hok, hhttp.trans (by decide +kernel), by decide +kernel, hagain _ hsame.symm rfl rfl,
    u, v, hu, hv, hport⟩

end Endpoint

end MediaCache.Config
