import MediaCache.Config.Endpoint
import MediaCache.Proofs.Json.Numbers

/-!
# How a URL is read

The scheme goes up to the first `://`, the authority from there to the next slash, and the port of an
authority stands behind its last colon. A text can be read like this in one way at most, and the
scanners find it.
-/

namespace MediaCache.Config

structure Url where
  scheme : List Char
  host : List Char
  port : Option UInt16
  /-- Empty, or all from the first slash behind the authority. -/
  path : List Char

namespace Url

def IsPort (text : List Char) (port : UInt16) : Prop :=
  ∃ digits, (text = digits ∨ text = '+' :: digits) ∧ digits ≠ [] ∧
    (∀ c ∈ digits, c.isDigit = true) ∧ Json.NumberLiteral.readDigits digits = port.toNat

/-- A host, and a port if there is a colon. The host may have colons of its own. -/
inductive IsAuthority : List Char → List Char → Option UInt16 → Prop
  | bare {host : List Char} (h : ':' ∉ host) : IsAuthority host host none
  | ported {host text : List Char} {port : UInt16} (h : IsPort text port) :
      IsAuthority (host ++ ':' :: text) host (some port)

/-- The text is the URL with these parts. -/
def Spells (u : Url) (text : List Char) : Prop :=
  ∃ authority, text = u.scheme ++ "://".toList ++ (authority ++ u.path) ∧ ':' ∉ u.scheme ∧
    '/' ∉ authority ∧ (u.path = [] ∨ u.path.head? = some '/') ∧ IsAuthority authority u.host u.port

theorem IsPort.isDigit_or_plus {text : List Char} {port : UInt16} (h : IsPort text port) {c : Char}
    (hc : c ∈ text) : c = '+' ∨ c.isDigit = true := by
  obtain ⟨digits, htext, -, hdigits, -⟩ := h
  rcases htext with rfl | rfl
  · exact .inr (hdigits c hc)
  · exact (List.mem_cons.1 hc).imp_right (hdigits c)

theorem IsPort.not_mem {text : List Char} {port : UInt16} (h : IsPort text port) {c : Char}
    (hplus : c ≠ '+') (hdigit : c.isDigit = false) : c ∉ text := by
  intro hc
  rcases h.isDigit_or_plus hc with heq | his
  · exact hplus heq
  · rw [hdigit] at his
    cases his

theorem IsAuthority.mem {authority host : List Char} {port : Option UInt16}
    (h : IsAuthority authority host port) {c : Char} (hc : c ∈ host) : c ∈ authority := by
  cases h with
  | bare _ => exact hc
  | ported _ => exact List.mem_append_left _ hc

theorem IsAuthority.no_colon {authority host : List Char} (h : IsAuthority authority host none) :
    ':' ∉ host := by
  cases h with
  | bare h => exact h

theorem isPort_toDigits (port : UInt16) : IsPort (Nat.toDigits 10 port.toNat) port :=
  ⟨_, .inl rfl, Nat.toDigits_ne_nil, fun _ => Json.NumberLiteral.isDigit_toDigits,
    Json.NumberLiteral.readDigits_toDigits _⟩

end Url

namespace Endpoint

/-! ## The scheme -/

theorem splitScheme?_append {scheme : List Char} (h : ':' ∉ scheme) (rest : List Char) :
    splitScheme? (scheme ++ "://".toList ++ rest) = some (scheme, rest) := by
  induction scheme with
  | nil => rfl
  | cons c scheme ih =>
    rw [List.mem_cons, not_or] at h
    have hstep : splitScheme? (c :: (scheme ++ "://".toList ++ rest)) =
        (splitScheme? (scheme ++ "://".toList ++ rest)).map fun split => (c :: split.1, split.2) := by
      rw [splitScheme?]
      rintro _ rfl
      exact absurd rfl h.1
    rw [List.cons_append, List.cons_append, hstep, ih h.2]
    rfl

theorem eq_of_splitScheme? {text scheme rest : List Char}
    (h : splitScheme? text = some (scheme, rest)) : text = scheme ++ "://".toList ++ rest := by
  fun_induction splitScheme? text generalizing scheme with
  | case1 => cases h
  | case2 rest =>
    cases h
    rfl
  | case3 c tail _ ih =>
    obtain ⟨⟨first, last⟩, hsplit, heq⟩ := Option.map_eq_some_iff.1 h
    cases heq
    rw [ih hsplit]
    rfl

/-! ## The authority -/

theorem splitLastColon?_eq_none_iff {text : List Char} : splitLastColon? text = none ↔ ':' ∉ text := by
  induction text with
  | nil => simp [splitLastColon?]
  | cons c text ih =>
    rw [splitLastColon?, List.mem_cons, not_or, ← ih]
    cases splitLastColon? text with
    | some split => simp
    | none =>
      by_cases hc : c = ':'
      · simp [hc]
      · simp [hc, Ne.symm hc]

theorem splitLastColon?_append (host : List Char) {text : List Char} (h : ':' ∉ text) :
    splitLastColon? (host ++ ':' :: text) = some (host, text) := by
  induction host with
  | nil => rw [List.nil_append, splitLastColon?, splitLastColon?_eq_none_iff.2 h, if_pos rfl]
  | cons c host ih => rw [List.cons_append, splitLastColon?, ih]

theorem eq_of_splitLastColon? {text host port : List Char}
    (h : splitLastColon? text = some (host, port)) : text = host ++ ':' :: port := by
  induction text generalizing host with
  | nil => cases h
  | cons c text ih =>
    rw [splitLastColon?] at h
    cases hsplit : splitLastColon? text with
    | some split =>
      rw [hsplit] at h
      cases h
      rw [ih hsplit]
      rfl
    | none =>
      rw [hsplit] at h
      obtain ⟨rfl, heq⟩ := Option.ite_none_right_eq_some.1 h
      cases heq
      rfl

def unsignedPort? (digits : List Char) : Option UInt16 :=
  if digits.isEmpty ∨ !digits.all Char.isDigit then none
  else if Json.NumberLiteral.readDigits digits < 65536 then
    some (UInt16.ofNat (Json.NumberLiteral.readDigits digits))
  else none

theorem port?_plus (digits : List Char) : port? ('+' :: digits) = unsignedPort? digits := rfl

theorem port?_of_ne_plus {text : List Char} (h : text.head? ≠ some '+') :
    port? text = unsignedPort? text := by
  unfold port?
  simp only
  split
  · exact absurd rfl h
  · rfl

theorem unsignedPort?_eq_some_iff {digits : List Char} {port : UInt16} :
    unsignedPort? digits = some port ↔ digits ≠ [] ∧ (∀ c ∈ digits, c.isDigit = true) ∧
      Json.NumberLiteral.readDigits digits = port.toNat := by
  have haccepted : ¬(digits.isEmpty = true ∨ (!digits.all Char.isDigit) = true) ↔
      digits ≠ [] ∧ ∀ c ∈ digits, c.isDigit = true := by
    simp
  unfold unsignedPort?
  constructor
  · intro h
    obtain ⟨hdigits, h⟩ := Option.ite_none_left_eq_some.1 h
    obtain ⟨hlt, heq⟩ := Option.ite_none_right_eq_some.1 h
    obtain ⟨hne, hall⟩ := haccepted.1 hdigits
    cases heq
    exact ⟨hne, hall, (UInt16.toNat_ofNat_of_lt hlt).symm⟩
  · rintro ⟨hne, hall, hvalue⟩
    rw [if_neg (haccepted.2 ⟨hne, hall⟩), hvalue, if_pos port.toNat_lt, UInt16.ofNat_toNat]

theorem port?_eq_some_iff {text : List Char} {port : UInt16} :
    port? text = some port ↔ Url.IsPort text port := by
  constructor
  · intro h
    by_cases hplus : text.head? = some '+'
    · obtain ⟨digits, rfl⟩ := List.head?_eq_some_iff.1 hplus
      rw [port?_plus] at h
      exact ⟨digits, .inr rfl, unsignedPort?_eq_some_iff.1 h⟩
    · rw [port?_of_ne_plus hplus] at h
      exact ⟨text, .inl rfl, unsignedPort?_eq_some_iff.1 h⟩
  · rintro ⟨digits, htext, hdigits⟩
    rcases htext with rfl | rfl
    · have hplus : text.head? ≠ some '+' := by
        intro hhead
        cases hdigits.2.1 '+' (List.mem_of_mem_head? hhead)
      rw [port?_of_ne_plus hplus]
      exact unsignedPort?_eq_some_iff.2 hdigits
    · rw [port?_plus]
      exact unsignedPort?_eq_some_iff.2 hdigits

theorem authority?_eq_some_iff {text host : List Char} {port : Option UInt16} :
    authority? text = some (host, port) ↔ Url.IsAuthority text host port := by
  constructor
  · intro h
    rw [authority?] at h
    cases hsplit : splitLastColon? text with
    | none =>
      rw [hsplit] at h
      cases h
      exact .bare (splitLastColon?_eq_none_iff.1 hsplit)
    | some split =>
      rw [hsplit] at h
      obtain ⟨n, hn, heq⟩ := Option.map_eq_some_iff.1 h
      cases heq
      rw [eq_of_splitLastColon? hsplit]
      exact .ported (port?_eq_some_iff.1 hn)
  · intro h
    rw [authority?]
    cases h with
    | bare h => rw [splitLastColon?_eq_none_iff.2 h]
    | ported h =>
      rw [splitLastColon?_append _ (h.not_mem (by decide) (by decide))]
      simp only
      rw [port?_eq_some_iff.2 h]
      rfl

/-! ## The whole text -/

theorem takeWhile_authority {authority path : List Char} (h : '/' ∉ authority)
    (hpath : path = [] ∨ path.head? = some '/') :
    (authority ++ path).takeWhile (· != '/') = authority ∧
      (authority ++ path).dropWhile (· != '/') = path := by
  have hall : ∀ c ∈ authority, (c != '/') = true := by
    intro c hc
    rw [bne_iff_ne]
    rintro rfl
    exact h hc
  rw [List.takeWhile_append_of_pos hall, List.dropWhile_append_of_pos hall]
  rcases hpath with rfl | hhead
  · simp
  · obtain ⟨rest, rfl⟩ := List.head?_eq_some_iff.1 hhead
    simp

theorem scan_of_spells {text : List Char} {u : Url} (h : u.Spells text) :
    ∃ rest, splitScheme? text = some (u.scheme, rest) ∧
      authority? (rest.takeWhile (· != '/')) = some (u.host, u.port) ∧
      rest.dropWhile (· != '/') = u.path := by
  obtain ⟨authority, rfl, hscheme, hslash, hpath, hauthority⟩ := h
  obtain ⟨htake, hdrop⟩ := takeWhile_authority hslash hpath
  refine ⟨authority ++ u.path, splitScheme?_append hscheme _, ?_, hdrop⟩
  rw [htake]
  exact authority?_eq_some_iff.2 hauthority

theorem spells_of_scan {text scheme rest host : List Char} {port : Option UInt16}
    (hsplit : splitScheme? text = some (scheme, rest)) (hscheme : ':' ∉ scheme)
    (hauthority : authority? (rest.takeWhile (· != '/')) = some (host, port)) :
    (Url.mk scheme host port (rest.dropWhile (· != '/'))).Spells text := by
  refine ⟨rest.takeWhile (· != '/'), ?_, hscheme, ?_, ?_, authority?_eq_some_iff.1 hauthority⟩
  · rw [List.takeWhile_append_dropWhile]
    exact eq_of_splitScheme? hsplit
  · intro hslash
    cases List.all_eq_true.1 List.all_takeWhile '/' hslash
  · have hhead := List.head?_dropWhile_not (· != '/') rest
    cases hpath : rest.dropWhile (· != '/') with
    | nil => exact .inl rfl
    | cons c path =>
      rw [hpath] at hhead
      exact .inr (congrArg some (bne_eq_false_iff_eq.1 hhead))

end Endpoint

theorem Url.Spells.unique {text : List Char} {u v : Url} (hu : u.Spells text) (hv : v.Spells text) :
    u = v := by
  obtain ⟨rest, hsplit, hauthority, hpath⟩ := Endpoint.scan_of_spells hu
  obtain ⟨rest', hsplit', hauthority', hpath'⟩ := Endpoint.scan_of_spells hv
  obtain ⟨scheme, host, port, path⟩ := u
  obtain ⟨scheme', host', port', path'⟩ := v
  cases hsplit.symm.trans hsplit'
  cases hauthority.symm.trans hauthority'
  cases hpath.symm.trans hpath'
  rfl

end MediaCache.Config
