import MediaCache.Config.Layers
import MediaCache.Proofs.Config.Merge

/-!
# Secrets and the shown configuration

Two runs that differ in secrets alone show the same values and the same names of secrets, as long as
tables lead to these secrets. What is in a list is shown as it is.
-/

namespace MediaCache.Config

/-! ## Values that differ in secrets -/

mutual

/-- Equal except for values at secret keys that are not tables and not `null`. Whether lists are
searched for such keys as tables are is the parameter. -/
inductive SameButSecrets (lists : Prop) : Json → Json → Prop
  | same {v : Json} (h : v.isObject = false) : SameButSecrets lists v v
  | table {fields others : Json.Fields} (h : SameFields lists fields others) :
      SameButSecrets lists (.object fields) (.object others)
  | list {items others : List Json} (hl : lists) (h : SameItems lists items others) :
      SameButSecrets lists (.array items) (.array others)

inductive SameMember (lists : Prop) : String → Json → Json → Prop
  | secret {key : String} {v w : Json} (hv : isHidden key v = true) (hw : isHidden key w = true) :
      SameMember lists key v w
  | shown {key : String} {v w : Json} (h : SameButSecrets lists v w) : SameMember lists key v w

inductive SameFields (lists : Prop) : Json.Fields → Json.Fields → Prop
  | nil : SameFields lists [] []
  | cons {key : String} {v w : Json} {fields others : Json.Fields} (hv : SameMember lists key v w)
      (h : SameFields lists fields others) :
      SameFields lists ((key, v) :: fields) ((key, w) :: others)

inductive SameItems (lists : Prop) : List Json → List Json → Prop
  | nil : SameItems lists [] []
  | cons {v w : Json} {items others : List Json} (hv : SameButSecrets lists v w)
      (h : SameItems lists items others) : SameItems lists (v :: items) (w :: others)

end

variable {lists : Prop} {key : String} {v w : Json} {fields others : Json.Fields}

mutual

theorem SameButSecrets.refl : ∀ v : Json, SameButSecrets lists v v
  | .object fields => .table (SameFields.refl fields)
  | .null | .bool _ | .number _ | .string _ | .array _ => .same rfl

theorem SameFields.refl : ∀ fields : Json.Fields, SameFields lists fields fields
  | [] => .nil
  | (_, v) :: rest => .cons (.shown (SameButSecrets.refl v)) (SameFields.refl rest)

end

theorem SameButSecrets.isHidden_eq (h : SameButSecrets lists v w) (key : String) :
    isHidden key v = isHidden key w := by
  cases h <;> rfl

theorem isObject_of_isHidden (h : isHidden key v = true) : v.isObject = false := by
  cases v with
  | object fields => simp [isHidden, Json.isObject] at h
  | _ => rfl

theorem SameFields.get? (key : String) (h : SameFields lists fields others) :
    Option.Rel (SameMember lists key) (Assoc.get? key fields) (Assoc.get? key others) := by
  induction fields generalizing others with
  | nil =>
    cases h
    exact .none
  | cons e rest ih =>
    obtain ⟨j, v⟩ := e
    cases h with
    | cons hj hrest =>
      by_cases hkey : key = j
      · subst hkey
        rw [Assoc.get?_cons_self, Assoc.get?_cons_self]
        exact .some hj
      · rw [Assoc.get?_cons_of_ne hkey, Assoc.get?_cons_of_ne hkey]
        exact ih hrest

theorem SameFields.insert (hv : SameMember lists key v w) (h : SameFields lists fields others) :
    SameFields lists (Assoc.insert key v fields) (Assoc.insert key w others) := by
  induction fields generalizing others with
  | nil =>
    cases h
    exact .cons hv .nil
  | cons e rest ih =>
    obtain ⟨j, u⟩ := e
    cases h with
    | cons hj hrest =>
      rw [Assoc.insert, Assoc.insert]
      cases compare key j with
      | lt => exact .cons hv (.cons hj hrest)
      | eq => exact .cons hv hrest
      | gt => exact .cons hj (ih hrest)

/-! ## Merging -/

def overlaid (existing : Option Json) (v : Json) : Json :=
  match existing with
  | some existing => merge existing v
  | none => v

theorem mergeFields_cons (base : Json.Fields) (key : String) (v : Json) (rest : Json.Fields) :
    mergeFields base ((key, v) :: rest) =
      mergeFields (Assoc.insert key (overlaid (Assoc.get? key base) v) base) rest := by
  rw [mergeFields]
  rfl

mutual

theorem SameButSecrets.merge : ∀ {v w base base' : Json}, SameButSecrets lists v w →
    SameButSecrets lists base base' →
      SameButSecrets lists (Config.merge base v) (Config.merge base' w)
  | _, _, base, base', .same hv, _ => by
    rw [merge_of_not_isObject base hv, merge_of_not_isObject base' hv]
    exact .same hv
  | _, _, _, _, .list hl hitems, _ => .list hl hitems
  | _, _, _, _, .table h, .same hb => by
    rw [merge_onto_not_isObject hb, merge_onto_not_isObject hb]
    exact .table h
  | _, _, _, _, .table h, .list _ _ => .table h
  | _, _, _, _, .table h, .table hb => .table (h.merge hb)

theorem SameMember.merge : ∀ {key : String} {v w : Json} {existing existing' : Option Json},
    SameMember lists key v w → Option.Rel (SameMember lists key) existing existing' →
      SameMember lists key (overlaid existing v) (overlaid existing' w)
  | _, _, _, _, _, h, .none => h
  | _, _, _, _, _, .secret hv hw, .some _ => by
    rw [overlaid, overlaid, merge_of_not_isObject _ (isObject_of_isHidden hv),
      merge_of_not_isObject _ (isObject_of_isHidden hw)]
    exact .secret hv hw
  | _, _, _, _, _, .shown h, .some (.secret hb hb') => by
    -- What is hidden is no table, so the overlay takes its place as a whole.
    rw [overlaid, overlaid, merge_onto_not_isObject (isObject_of_isHidden hb),
      merge_onto_not_isObject (isObject_of_isHidden hb')]
    exact .shown h
  | _, _, _, _, _, .shown h, .some (.shown hb) => .shown (h.merge hb)

theorem SameFields.merge : ∀ {fields others base base' : Json.Fields},
    SameFields lists fields others → SameFields lists base base' →
      SameFields lists (mergeFields base fields) (mergeFields base' others)
  | _, _, _, _, .nil, hb => hb
  | _, _, _, _, .cons hv hrest, hb => by
    rw [mergeFields_cons, mergeFields_cons]
    exact hrest.merge (hb.insert (hv.merge (hb.get? _)))

end

/-! ## Showing -/

mutual

theorem SameButSecrets.redact_eq : ∀ {v w : Json}, SameButSecrets False v w → redact v = redact w
  | _, _, .same _ => rfl
  | _, _, .table h => by rw [redact, redact, h.redactFields_eq]

theorem SameMember.redact_eq : ∀ {key : String} {v w : Json}, SameMember False key v w →
    (if isHidden key v then Json.string hiddenText else redact v) =
      if isHidden key w then .string hiddenText else redact w
  | _, _, _, .secret hv hw => by rw [if_pos hv, if_pos hw]
  | key, _, _, .shown h => by rw [h.isHidden_eq key, h.redact_eq]

theorem SameFields.redactFields_eq : ∀ {fields others : Json.Fields},
    SameFields False fields others → redactFields fields = redactFields others
  | _, _, .nil => rfl
  | _, _, .cons hv hrest => by
    rw [redactFields, redactFields, hv.redact_eq, hrest.redactFields_eq]

end

mutual

theorem SameButSecrets.redactedPaths_eq (path : String) : ∀ {v w : Json},
    SameButSecrets False v w → redactedPaths path v = redactedPaths path w
  | _, _, .same _ => rfl
  | _, _, .table h => by rw [redactedPaths, redactedPaths, h.redactedFieldPaths_eq path]

theorem SameMember.redactedPaths_eq (path : String) : ∀ {key : String} {v w : Json},
    SameMember False key v w →
      (if isHidden key v then [joinPath path key] else redactedPaths (joinPath path key) v) =
        if isHidden key w then [joinPath path key] else redactedPaths (joinPath path key) w
  | _, _, _, .secret hv hw => by rw [if_pos hv, if_pos hw]
  | key, _, _, .shown h => by rw [h.isHidden_eq key, h.redactedPaths_eq (joinPath path key)]

theorem SameFields.redactedFieldPaths_eq (path : String) : ∀ {fields others : Json.Fields},
    SameFields False fields others → redactedFieldPaths path fields = redactedFieldPaths path others
  | _, _, .nil => rfl
  | _, _, .cons hv hrest => by
    rw [redactedFieldPaths, redactedFieldPaths, hv.redactedPaths_eq path,
      hrest.redactedFieldPaths_eq path]

end

/-! ## A configuration -/

theorem ofLayers_eq_ok {now : String} {layers : List Layer} {c : Config}
    (h : ofLayers now layers = .ok c) :
    c.values = redact (mergeLayers (layers.map (·.2))) ∧
      c.redactions = redactedPaths "" (mergeLayers (layers.map (·.2))) := by
  unfold ofLayers at h
  cases hread : Settings.read (mergeLayers (layers.map (·.2))) with
  | error e => simp [hread] at h
  | ok settings =>
    simp only [hread] at h
    cases h
    exact ⟨rfl, rfl⟩

theorem build_eq (host project : Option (String × FileContent)) :
    (∃ e, ∀ now cli, build now host project cli = .error e) ∨
      ∃ layers, ∀ now cli, build now host project cli = ofLayers now (layers ++ cliLayers cli) := by
  cases hhost : fileLayers .host host with
  | error e => exact .inl ⟨e, fun now cli => by rw [build, hhost]; rfl⟩
  | ok hostLayers =>
    cases hproject : fileLayers .project project with
    | error e => exact .inl ⟨e, fun now cli => by rw [build, hhost, hproject]; rfl⟩
    | ok projectLayers =>
      exact .inr ⟨builtinLayer :: hostLayers ++ projectLayers, fun now cli => by
        rw [build, hhost, hproject]; rfl⟩

/-- No secret that tables lead to is shown: overrides that differ in such secrets alone give the same
values and the same names of secrets. -/
theorem secrets_not_shown {now now' : String} {host project : Option (String × FileContent)}
    {v w : Json} {c c' : Config} (h : SameButSecrets False v w)
    (hc : build now host project (some v) = .ok c)
    (hc' : build now' host project (some w) = .ok c') :
    c.values = c'.values ∧ c.redactions = c'.redactions := by
  obtain ⟨e, he⟩ | ⟨layers, hlayers⟩ := build_eq host project
  · rw [he] at hc
    cases hc
  · rw [hlayers] at hc hc'
    obtain ⟨hvalues, hredactions⟩ := ofLayers_eq_ok hc
    obtain ⟨hvalues', hredactions'⟩ := ofLayers_eq_ok hc'
    rw [cliLayers, List.map_append, List.map_cons, List.map_nil, mergeLayers_append] at *
    have hmerged := h.merge (SameButSecrets.refl (mergeLayers (layers.map (·.2))))
    rw [hvalues, hvalues', hredactions, hredactions']
    exact ⟨hmerged.redact_eq, hmerged.redactedPaths_eq ""⟩

theorem exists_ok_of_isOk {x : Except ConfigError Config} (h : x.isOk = true) :
    ∃ c, x = .ok c := by
  cases x with
  | error e => cases h
  | ok c => exact ⟨c, rfl⟩

def withPassword (password : String) : Json :=
  .object [("proxy", .object [("password", .string password), ("port", .int 80)])]

theorem password_not_shown :
    SameButSecrets False (withPassword "a") (withPassword "b") ∧
      ∃ c c', build "" none none (some (withPassword "a")) = .ok c ∧
        build "" none none (some (withPassword "b")) = .ok c' ∧
        c.values = c'.values ∧ c.redactions = c'.redactions := by
  have hsame : SameButSecrets False (withPassword "a") (withPassword "b") :=
    .table (.cons (.shown (.table
      (.cons (.secret (by decide +kernel) (by decide +kernel)) (SameFields.refl _)))) .nil)
  obtain ⟨c, hc⟩ := exists_ok_of_isOk
    (show (build "" none none (some (withPassword "a"))).isOk = true by decide +kernel)
  obtain ⟨c', hc'⟩ := exists_ok_of_isOk
    (show (build "" none none (some (withPassword "b"))).isOk = true by decide +kernel)
  exact ⟨hsame, c, c', hc, hc', secrets_not_shown hsame hc hc'⟩

def withPeer (token : String) : Json :=
  .object [("peers", .array [.object [("token", .string token)]])]

/-- Tables alone are searched: the token of a peer is shown. -/
theorem listed_token_shown :
    SameButSecrets True (withPeer "a") (withPeer "b") ∧
      ∃ c c', build "" none none (some (withPeer "a")) = .ok c ∧
        build "" none none (some (withPeer "b")) = .ok c' ∧
        c.values.field? "peers" = (withPeer "a").field? "peers" ∧
        c'.values.field? "peers" = (withPeer "b").field? "peers" ∧ c.values ≠ c'.values := by
  have hsame : SameButSecrets True (withPeer "a") (withPeer "b") :=
    .table (.cons (.shown (.list trivial (.cons
      (.table (.cons (.secret (by decide +kernel) (by decide +kernel)) .nil)) .nil))) .nil)
  obtain ⟨c, hc⟩ := exists_ok_of_isOk
    (show (build "" none none (some (withPeer "a"))).isOk = true by decide +kernel)
  obtain ⟨c', hc'⟩ := exists_ok_of_isOk
    (show (build "" none none (some (withPeer "b"))).isOk = true by decide +kernel)
  refine ⟨hsame, c, c', hc, hc', ?_⟩
  rw [(ofLayers_eq_ok hc).1, (ofLayers_eq_ok hc').1]
  decide +kernel

end MediaCache.Config
