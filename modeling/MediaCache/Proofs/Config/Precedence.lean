import Mathlib.Data.List.Induction
import MediaCache.Config.Settings
import MediaCache.Proofs.Config.Merge

/-!
# Precedence of layers

What stands at a path after a merge is what both layers have there, merged, unless the later layer has
something on the way that is no object: that hides the path. A layer that has nothing at a path and
hides it not leaves what stands there.
-/

namespace MediaCache.Config

variable {v : Json} {path : List String}

/-! ## Paths -/

@[simp]
theorem at?_cons (v : Json) (key : String) (path : List String) :
    at? v (key :: path) = (v.field? key).bind fun w => at? w path := List.foldlM_cons

theorem field?_of_not_isObject (h : v.isObject = false) (key : String) : v.field? key = none := by
  cases v with
  | object fields => cases h
  | _ => rfl

theorem exists_fields_of_isObject (h : v.isObject = true) : ∃ fields, v = .object fields := by
  cases v with
  | object fields => exact ⟨fields, rfl⟩
  | _ => cases h

theorem sorted_at? {w : Json} (h : v.Sorted) (hw : at? v path = some w) : w.Sorted := by
  induction path generalizing v with
  | nil =>
    cases hw
    exact h
  | cons key path ih =>
    rw [at?_cons] at hw
    obtain ⟨u, hu, hw⟩ := Option.bind_eq_some_iff.1 hw
    exact ih (h.field? hu) hw

/-- On the way to the path stands something that is no object. -/
def Hides (v : Json) (path : List String) : Prop :=
  ∃ way w, way <+: path ∧ way ≠ path ∧ at? v way = some w ∧ w.isObject = false

/-- The layer has nothing at the path and only objects on the way there. -/
def Silent (v : Json) (path : List String) : Prop := at? v path = none ∧ ¬Hides v path

theorem not_hides_nil (v : Json) : ¬Hides v [] := by
  rintro ⟨way, w, hway, hne, -, -⟩
  exact hne (List.prefix_nil.1 hway)

theorem hides_cons (v : Json) (key : String) (path : List String) :
    Hides v (key :: path) ↔ v.isObject = false ∨ ∃ w, v.field? key = some w ∧ Hides w path := by
  constructor
  · rintro ⟨way, w, hway, hne, hat, hw⟩
    cases way with
    | nil =>
      cases hat
      exact .inl hw
    | cons first way =>
      obtain ⟨rfl, hrest⟩ := List.cons_prefix_cons.1 hway
      rw [at?_cons] at hat
      obtain ⟨u, hu, hat⟩ := Option.bind_eq_some_iff.1 hat
      exact .inr ⟨u, hu, way, w, hrest, fun heq => hne (congrArg _ heq), hat, hw⟩
  · rintro (hv | ⟨u, hu, way, w, hway, hne, hat, hw⟩)
    · exact ⟨[], v, List.nil_prefix, (List.cons_ne_nil key path).symm, rfl, hv⟩
    · refine ⟨key :: way, w, List.cons_prefix_cons.2 ⟨rfl, hway⟩, ?_, ?_, hw⟩
      · exact fun heq => hne (List.cons.inj heq).2
      · rw [at?_cons, hu]
        exact hat

/-- Nothing stands behind what is no object. -/
theorem at?_of_hides (h : Hides v path) : at? v path = none := by
  induction path generalizing v with
  | nil => exact absurd h (not_hides_nil v)
  | cons key path ih =>
    rw [at?_cons]
    rcases (hides_cons v key path).1 h with hv | ⟨w, hw, hhides⟩
    · rw [field?_of_not_isObject hv]
      rfl
    · rw [hw]
      exact ih hhides

/-! ## Two layers -/

theorem field?_merge (base : Json) {overlay : Json.Fields} (h : Assoc.Ordered overlay) (key : String) :
    (merge base (.object overlay)).field? key =
      (base.field? key).merge merge (Assoc.get? key overlay) := by
  cases hobject : base.isObject with
  | false =>
    rw [merge_onto_not_isObject hobject, field?_of_not_isObject hobject, Option.merge_none_left]
    rfl
  | true =>
    obtain ⟨fields, rfl⟩ := exists_fields_of_isObject hobject
    rw [merge_objects]
    exact Assoc.get?_mergeWith fields h.nodup_keys key

theorem at?_merge_of_hides (base : Json) {overlay : Json} (h : overlay.Sorted)
    (hhides : Hides overlay path) : at? (merge base overlay) path = none := by
  induction path generalizing base overlay with
  | nil => exact absurd hhides (not_hides_nil overlay)
  | cons key path ih =>
    rcases (hides_cons overlay key path).1 hhides with hover | ⟨w, hw, hrest⟩
    · rw [merge_of_not_isObject base hover]
      exact at?_of_hides hhides
    · cases overlay with
      | object fields =>
        have hsorted := h.field? hw
        rw [at?_cons, field?_merge base h.1, show Assoc.get? key fields = some w from hw]
        cases base.field? key with
        | none => exact at?_of_hides hrest
        | some u => exact ih u hsorted hrest
      | _ => cases hw

/-- The induction is on the path: each step goes to the same key of both layers. -/
theorem at?_merge (base : Json) {overlay : Json} (h : overlay.Sorted) (hpath : ¬Hides overlay path) :
    at? (merge base overlay) path = (at? base path).merge merge (at? overlay path) := by
  induction path generalizing base overlay with
  | nil => rfl
  | cons key path ih =>
    rw [hides_cons, not_or, Bool.not_eq_false] at hpath
    obtain ⟨fields, rfl⟩ := exists_fields_of_isObject hpath.1
    have hfield : (Json.object fields).field? key = Assoc.get? key fields := rfl
    rw [at?_cons, at?_cons, at?_cons, field?_merge base h.1, hfield]
    cases hover : Assoc.get? key fields with
    | none => rw [Option.merge_none_right, Option.bind_none, Option.merge_none_right]
    | some w =>
      have hrest : ¬Hides w path := fun hhides => hpath.2 ⟨w, hover, hhides⟩
      cases base.field? key with
      | none => rw [Option.merge_none_left, Option.bind_none, Option.merge_none_left]
      | some u =>
        rw [Option.merge_some_some]
        exact ih u (h.field? hover) hrest

theorem at?_merge_of_silent (base : Json) {overlay : Json} (h : overlay.Sorted)
    (hsilent : Silent overlay path) : at? (merge base overlay) path = at? base path := by
  rw [at?_merge base h hsilent.2, hsilent.1, Option.merge_none_right]

theorem at?_merge_of_some (base : Json) {overlay : Json} (h : overlay.Sorted)
    (hat : at? overlay path = some v) :
    at? (merge base overlay) path = (at? base path).merge merge (some v) := by
  have hpath : ¬Hides overlay path := by
    intro hhides
    rw [at?_of_hides hhides] at hat
    cases hat
  rw [at?_merge base h hpath, hat]

/-! ## Many layers -/

theorem at?_mergeLayers_of_silent (earlier later : List Json)
    (h : ∀ layer ∈ later, layer.Sorted ∧ Silent layer path) :
    at? (mergeLayers (earlier ++ later)) path = at? (mergeLayers earlier) path := by
  induction later using List.reverseRecOn with
  | nil => rw [List.append_nil]
  | append_singleton later layer ih =>
    obtain ⟨hsorted, hsilent⟩ := h layer (List.mem_append_right _ List.mem_cons_self)
    rw [← List.append_assoc, mergeLayers_append, at?_merge_of_silent _ hsorted hsilent]
    exact ih fun l hl => h l (List.mem_append_left _ hl)

/-- What stands at a path after a merge, in every case, and what follows for merging again and for
layers that say nothing about the path. -/
theorem layers_precede {base overlay : Json} (hbase : base.Sorted) (hoverlay : overlay.Sorted)
    (path : List String) :
    (∀ v, at? overlay path = some v → v.isObject = false →
        at? (merge base overlay) path = some v) ∧
      (∀ others, at? overlay path = some (.object others) →
        (∀ u, at? base path = some u → u.isObject = false) →
          at? (merge base overlay) path = some (.object others)) ∧
      (∀ fields others, at? base path = some (.object fields) →
        at? overlay path = some (.object others) →
          ∃ merged, at? (merge base overlay) path = some (.object merged) ∧
            ∀ key, key ∈ merged.map (·.1) ↔ key ∈ fields.map (·.1) ∨ key ∈ others.map (·.1)) ∧
      (Hides overlay path → at? (merge base overlay) path = none) ∧
      (Silent overlay path → at? (merge base overlay) path = at? base path) ∧
      merge base base = base ∧
      merge (merge base overlay) overlay = merge base overlay ∧
      ∀ earlier later : List Json, (∀ layer ∈ later, layer.Sorted ∧ Silent layer path) →
        at? (mergeLayers (earlier ++ later)) path = at? (mergeLayers earlier) path := by
  refine ⟨?_, ?_, ?_, at?_merge_of_hides base hoverlay, at?_merge_of_silent base hoverlay,
    merge_self hbase, merge_again overlay base hbase hoverlay, at?_mergeLayers_of_silent⟩
  · -- A plain value of the overlay replaces what is below it.
    intro v hat hv
    rw [at?_merge_of_some base hoverlay hat]
    cases at? base path with
    | none => rfl
    | some u => rw [Option.merge_some_some, merge_of_not_isObject u hv]
  · -- So does a table over a plain value.
    intro others hat hplain
    rw [at?_merge_of_some base hoverlay hat]
    cases hbelow : at? base path with
    | none => rfl
    | some u => rw [Option.merge_some_some, merge_onto_not_isObject (hplain u hbelow)]
  · -- Two tables are merged, and the keys of both remain.
    intro fields others hbelow hat
    refine ⟨Assoc.mergeWith merge fields others, ?_, ?_⟩
    · rw [at?_merge_of_some base hoverlay hat, hbelow, Option.merge_some_some, merge_objects]
    · exact Assoc.mem_keys_mergeWith fields (sorted_at? hoverlay hat).1.nodup_keys

def hostValues : Json :=
  .object [("log", .object [("filter", .string "debug")]),
    ("server", .object [("base_url", .string "http://a/"), ("dev_port", .int 9999)])]

def projectValues : Json :=
  .object [("cache", .object [("gc_after_evict", .bool false)]), ("log", .string "off"),
    ("server", .object [("dev_port", .null), ("https", .bool true)])]

theorem not_hides_base_url : ¬Hides projectValues ["server", "base_url"] := by
  intro hhides
  rcases (hides_cons _ _ _).1 hhides with hobject | ⟨server, hserver, hhides⟩
  · cases hobject
  · cases hserver
    rcases (hides_cons _ _ _).1 hhides with hobject | ⟨url, hurl, -⟩
    · cases hobject
    · cases hurl

theorem project_over_host :
    hostValues.Sorted ∧ projectValues.Sorted ∧
      at? (merge hostValues projectValues) ["server", "dev_port"] = some .null ∧
      at? (merge hostValues projectValues) ["cache"] =
        some (.object [("gc_after_evict", .bool false)]) ∧
      (∃ merged, at? (merge hostValues projectValues) ["server"] = some (.object merged) ∧
        "base_url" ∈ merged.map (·.1) ∧ "https" ∈ merged.map (·.1)) ∧
      at? (merge hostValues projectValues) ["log", "filter"] = none ∧
      at? (merge hostValues projectValues) ["server", "base_url"] = some (.string "http://a/") ∧
      merge (merge hostValues projectValues) projectValues = merge hostValues projectValues ∧
      at? (mergeLayers ([hostValues] ++ [projectValues, projectValues])) ["server", "base_url"] =
        some (.string "http://a/") := by
  have hhost : hostValues.Sorted := by decide +kernel
  have hproject : projectValues.Sorted := by decide +kernel
  have hsilent : Silent projectValues ["server", "base_url"] := ⟨rfl, not_hides_base_url⟩
  obtain ⟨hvalue, -⟩ := layers_precede hhost hproject ["server", "dev_port"]
  obtain ⟨-, htable, -⟩ := layers_precede hhost hproject ["cache"]
  obtain ⟨-, -, hboth, -⟩ := layers_precede hhost hproject ["server"]
  obtain ⟨-, -, -, hhidden, -⟩ := layers_precede hhost hproject ["log", "filter"]
  obtain ⟨-, -, -, -, hkept, -, hagain, hlayers⟩ :=
    layers_precede hhost hproject ["server", "base_url"]
  obtain ⟨merged, hmerged, hkeys⟩ := hboth _ _ rfl rfl
  refine ⟨hhost, hproject, hvalue .null rfl rfl, htable _ rfl ?_, ⟨merged, hmerged, ?_, ?_⟩, ?_, ?_,
    hagain, ?_⟩
  · intro u hu
    cases hu
  · exact (hkeys "base_url").2 (.inl (by decide))
  · exact (hkeys "https").2 (.inr (by decide))
  · exact hhidden ⟨["log"], .string "off", by decide, by decide, rfl, rfl⟩
  · exact (hkept hsilent).trans rfl
  · refine (hlayers [hostValues] [projectValues, projectValues] ?_).trans rfl
    intro layer hlayer
    simp only [List.mem_cons, List.not_mem_nil, or_false, or_self] at hlayer
    rw [hlayer]
    exact ⟨hproject, hsilent⟩

end MediaCache.Config
