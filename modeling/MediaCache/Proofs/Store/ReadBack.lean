import MediaCache.Proofs.Store.Normalize
import MediaCache.Proofs.Store.Objects
import MediaCache.Proofs.Store.Read

/-!
# What is written reads back

A query result is split into objects when it is written and put together again when it is read. Under
its own shape the read returns the very data, whatever else the cache holds.
-/

namespace MediaCache

/-! ## Data that its shape describes -/

namespace Shape

mutual

/-- Every array of the data stands at a list, and every object at an object with just its fields but
for `__typename`. -/
def fits (shape : Shape) : Json → Bool
  | .array items =>
    match shape with
    | list element => fitsItems element items
    | _ => false
  | .object fields =>
    match shape with
    | object selected =>
      selected.all (fun s => s.1 != "__typename" && Assoc.contains s.1 fields) &&
        fitsFields selected fields
    | _ => false
  | _ => true

def fitsItems (element : Shape) : List Json → Bool
  | [] => true
  | v :: rest => fits element v && fitsItems element rest

def fitsFields (selected : List (String × Shape)) : List (String × Json) → Bool
  | [] => true
  | (key, v) :: rest =>
    (if key = "__typename" then fits leaf v
      else
        match Assoc.get? key selected with
        | some shape => fits shape v
        | none => false) && fitsFields selected rest

end

theorem fits_of_mem {selected : List (String × Shape)} {fields : List (String × Json)}
    (h : fitsFields selected fields = true) {key : String} {v : Json} (hmem : (key, v) ∈ fields) :
    if key = "__typename" then fits leaf v = true
    else ∃ shape, Assoc.get? key selected = some shape ∧ fits shape v = true := by
  induction fields with
  | nil => cases hmem
  | cons e rest ih =>
    obtain ⟨name, w⟩ := e
    rw [fitsFields, Bool.and_eq_true] at h
    rcases List.mem_cons.1 hmem with he | hrest
    · cases he
      have hfirst := h.1
      split
      · rename_i hkey
        rwa [if_pos hkey] at hfirst
      · rename_i hkey
        rw [if_neg hkey] at hfirst
        cases hshape : Assoc.get? key selected with
        | none =>
          rw [hshape] at hfirst
          cases hfirst
        | some shape =>
          rw [hshape] at hfirst
          exact ⟨shape, rfl, hfirst⟩
    · exact ih h.2 hrest

/-- Only scalars fit a leaf, and there is nothing in them to split off. -/
theorem normalized_of_fits_leaf {v : Json} (h : fits leaf v = true) : v.normalized = v := by
  cases v with
  | array items => simp [fits] at h
  | object fields => simp [fits] at h
  | _ => simp [Json.normalized]

end Shape

namespace Json

def Agree (a b : Fields) : Prop := ∀ e ∈ a, ∀ f ∈ b, e.1 = f.1 → e.2 = f.2

/-- Wherever an object occurs twice in the data, the occurrences agree. -/
def Consistent (v : Json) : Prop := ∀ d ∈ v.entities, ∀ e ∈ v.entities, d.1 = e.1 → Agree d.2 e.2

instance (a b : Fields) : Decidable (Agree a b) := inferInstanceAs (Decidable (∀ _ ∈ _, _))

instance (v : Json) : Decidable v.Consistent := inferInstanceAs (Decidable (∀ _ ∈ _, _))

end Json

/-! ## What a write stores -/

namespace Cache

def Holds (c : Cache) (entities : List (ObjectRef × Json.Fields)) : Prop :=
  ∀ e ∈ entities, ∃ record, c.objects.get? e.1.cacheId = some record ∧
    ∀ key w, Assoc.get? key e.2 = some w → record.get? key = some w

theorem Holds.mono {c : Cache} {all some : List (ObjectRef × Json.Fields)} (h : c.Holds all)
    (hsub : ∀ e ∈ some, e ∈ all) : c.Holds some :=
  fun e he => h e (hsub e he)

theorem Holds.of_objects {c d : Cache} {entities : List (ObjectRef × Json.Fields)}
    (h : c.Holds entities) (hobjects : d.objects = c.objects) : d.Holds entities := by
  intro e he
  rw [hobjects]
  exact h e he

theorem get?_mergeObject (c : Cache) (obj : ObjectRef) (fields : Json.Fields)
    (hnodup : (fields.map (·.1)).Nodup) :
    ∃ record, (c.mergeObject obj fields).objects.get? obj.cacheId = some record ∧
      (∀ key w, Assoc.get? key fields = some w → record.get? key = some w) ∧
      ∀ old, c.objects.get? obj.cacheId = some old →
        ∀ key, Assoc.get? key fields = none → record.get? key = old.get? key := by
  refine ⟨_, SortedMap.get?_insert_self _ _ _, ?_, ?_⟩
  · intro key w hw
    rw [SortedMap.get?_insertAll, Assoc.get?_reverse hnodup, hw, Option.some_or]
  · intro old hold key hnone
    rw [SortedMap.get?_insertAll, Assoc.get?_reverse hnodup, hnone, Option.none_or, hold]
    rfl

theorem get?_mergeObject_of_ne (c : Cache) {obj : ObjectRef} {id : String} (h : id ≠ obj.cacheId)
    (fields : Json.Fields) :
    (c.mergeObject obj fields).objects.get? id = c.objects.get? id :=
  SortedMap.get?_insert_of_ne c.objects h _

theorem Holds.mergeObject {c : Cache} {done : List (ObjectRef × Json.Fields)} (h : c.Holds done)
    {obj : ObjectRef} {fields : Json.Fields} (hnodup : (fields.map (·.1)).Nodup)
    (hagree : ∀ d ∈ done, d.1 = obj → Json.Agree d.2 fields) :
    (c.mergeObject obj fields).Holds ((obj, fields) :: done) := by
  obtain ⟨record, hrecord, hnew, hold⟩ := get?_mergeObject c obj fields hnodup
  intro e he
  rcases List.mem_cons.1 he with rfl | hdone
  · exact ⟨record, hrecord, hnew⟩
  · obtain ⟨old, hget, hfields⟩ := h e hdone
    by_cases hobj : e.1 = obj
    · subst hobj
      refine ⟨record, hrecord, fun key w hw => ?_⟩
      cases hkey : Assoc.get? key fields with
      | none => rw [hold old hget key hkey, hfields key w hw]
      | some w' =>
        have hsame : w = w' := hagree e hdone rfl _ (Assoc.mem_of_get? hw) _ (Assoc.mem_of_get? hkey) rfl
        rw [hnew key w' hkey, hsame]
    · have hid : e.1.cacheId ≠ obj.cacheId := fun hid => hobj (ObjectRef.cacheId_inj hid)
      refine ⟨old, ?_, hfields⟩
      rw [get?_mergeObject_of_ne c hid, hget]

theorem Holds.foldl_mergeObject {all : List (ObjectRef × Json.Fields)}
    (hnodup : ∀ e ∈ all, (e.2.map (·.1)).Nodup)
    (hagree : ∀ d ∈ all, ∀ e ∈ all, d.1 = e.1 → Json.Agree d.2 e.2)
    (pending : List (ObjectRef × Json.Fields)) {c : Cache} {done : List (ObjectRef × Json.Fields)}
    (hpending : ∀ e ∈ pending, e ∈ all) (hdone : ∀ e ∈ done, e ∈ all) (h : c.Holds done) :
    (pending.foldl (fun c e => c.mergeObject e.1 e.2) c).Holds (pending ++ done) := by
  induction pending generalizing c done with
  | nil => exact h
  | cons e rest ih =>
    have he := hpending e List.mem_cons_self
    have hmerged : (c.mergeObject e.1 e.2).Holds (e :: done) :=
      h.mergeObject (hnodup e he) fun d hd => hagree d (hdone d hd) e he
    have hdone' : ∀ d ∈ e :: done, d ∈ all := by
      intro d hd
      rcases List.mem_cons.1 hd with rfl | hd
      · exact he
      · exact hdone d hd
    refine (ih (fun d hd => hpending d (List.mem_cons_of_mem _ hd)) hdone' hmerged).mono ?_
    intro d hd
    simp only [List.cons_append, List.mem_cons, List.mem_append] at hd ⊢
    tauto

/-- After all objects of consistent data are stored, each is there with every field it was written
with, inner and outer occurrences alike. -/
theorem holds_storeEntities (c : Cache) {v : Json} (hsorted : v.Sorted) (hconsistent : v.Consistent) :
    (c.storeEntities v).Holds v.entities := by
  have hempty : c.Holds [] := by
    intro e he
    cases he
  have hfold := hempty.foldl_mergeObject (Json.nodup_keys_of_entities v hsorted) hconsistent v.entities
    (fun _ he => he) (by simp)
  rw [List.append_nil] at hfold
  exact hfold

/-! ## Reading it -/

theorem canRead_of_not_reference (c : Cache) {v : Json} (h : referenceId? v = none) :
    c.canRead v = true := by
  rw [canRead, h]

theorem canRead_normalized {c : Cache} {v : Json} (hreferences : v.references = [])
    (hholds : c.Holds v.entities) : c.canRead v.normalized = true := by
  cases v with
  | object fields =>
    have hreference := Json.referenceId?_eq_none_of_references hreferences
    cases hobj : ObjectRef.identify? (.object fields) with
    | none =>
      rw [(Json.normalized_of_anonymous hreference hobj).1]
      exact canRead_of_not_reference c (Json.referenceId?_normalizedFields hreference)
    | some obj =>
      obtain ⟨hnormalized, hentities⟩ := Json.normalized_of_identified hreference hobj
      rw [hnormalized, canRead_toReference, contains_eq, SortedMap.contains]
      obtain ⟨record, hrecord, -⟩ := hholds (obj, Json.normalizedFields fields) (by
        rw [hentities]
        exact List.mem_append_right _ List.mem_cons_self)
      rw [hrecord]
      rfl
  | _ => rfl

theorem readValue_scalar (c : Cache) (parent : Option Typename) (field : String) (shape : Shape)
    {v : Json} (harray : v.asItems? = none) (hobject : v.isObject = false) :
    c.readValue parent field v.normalized shape = some v := by
  cases v with
  | array items => cases harray
  | object fields => cases hobject
  | _ => cases shape <;> simp [readValue, readUntracked, Json.normalized, referenceId?]

theorem readValue_toReference (c : Cache) (parent : Option Typename) (field : String)
    (obj : ObjectRef) (selected : List (String × Shape)) :
    c.readValue parent field obj.toReference (.object selected) =
      match c.objects.get? obj.cacheId with
      | some record => c.readSelected record.entries selected
      | none => c.readDangling parent field := by
  have hid := obj.referenceId?_toReference
  rw [ObjectRef.toReference, reference] at hid ⊢
  rw [readValue]
  cases hget : c.objects.get? obj.cacheId <;> simp only [hid, hget]

theorem readFields_of_selected {c : Cache} {parent : Option Typename} {stored fields : Json.Fields}
    {selected : List (String × Shape)}
    (h : ∀ s ∈ selected, ∃ w v, Assoc.get? s.1 stored = some w ∧ Assoc.get? s.1 fields = some v ∧
      c.readValue parent s.1 w s.2 = some v)
    {read : Json.Fields} (hread : Assoc.Ordered read) :
    ∃ out, c.readFields parent stored selected read = some out ∧ Assoc.Ordered out ∧
      ∀ key, Assoc.get? key out =
        if key ∈ selected.map (·.1) then Assoc.get? key fields else Assoc.get? key read := by
  induction selected generalizing read with
  | nil => exact ⟨read, by rw [readFields], hread, by simp⟩
  | cons s rest ih =>
    obtain ⟨name, shape⟩ := s
    obtain ⟨w, v, hw, hv, hvalue⟩ := h (name, shape) List.mem_cons_self
    obtain ⟨out, hout, hordered, hkeys⟩ := ih (fun s hs => h s (List.mem_cons_of_mem _ hs))
      (hread.insert name v)
    refine ⟨out, ?_, hordered, fun key => ?_⟩
    · rw [readFields, hw, Option.bind_some, hvalue, Option.bind_some, hout]
    · rw [hkeys key]
      by_cases hrest : key ∈ rest.map (·.1)
      · simp [hrest]
      · by_cases hname : key = name
        · subst hname
          simp [hrest, hv]
        · simp [hrest, hname, Assoc.get?_insert_of_ne hname]

theorem readFields_collects {c : Cache} {parent : Option Typename} {stored : Json.Fields}
    {selected : List (String × Shape)} (hnodup : (selected.map (·.1)).Nodup) {read out : Json.Fields}
    (hread : Assoc.Ordered read) (h : c.readFields parent stored selected read = some out) :
    Assoc.Ordered out ∧
      (∀ s ∈ selected, ∃ w v, Assoc.get? s.1 stored = some w ∧ Assoc.get? s.1 out = some v ∧
        c.readValue parent s.1 w s.2 = some v) ∧
      ∀ key, key ∉ selected.map (·.1) → Assoc.get? key out = Assoc.get? key read := by
  induction selected generalizing read with
  | nil =>
    rw [readFields] at h
    cases h
    exact ⟨hread, List.forall_mem_nil _, fun _ _ => rfl⟩
  | cons s rest ih =>
    obtain ⟨name, shape⟩ := s
    rw [List.map_cons, List.nodup_cons] at hnodup
    rw [readFields] at h
    obtain ⟨w, hw, h⟩ := Option.bind_eq_some_iff.1 h
    obtain ⟨v, hv, h⟩ := Option.bind_eq_some_iff.1 h
    obtain ⟨hordered, hfields, hother⟩ := ih hnodup.2 (hread.insert name v) h
    refine ⟨hordered, List.forall_mem_cons.2 ⟨⟨w, v, hw, ?_, hv⟩, hfields⟩, fun key hkey => ?_⟩
    · rw [hother name hnodup.1, Assoc.get?_insert_self]
    · rw [List.map_cons, List.mem_cons, not_or] at hkey
      rw [hother key hkey.2, Assoc.get?_insert_of_ne hkey.1]

theorem readSelected_of_fields {c : Cache} {stored fields : Json.Fields}
    {selected : List (String × Shape)} (hordered : Assoc.Ordered fields)
    (htyped : Assoc.get? "__typename" stored = Assoc.get? "__typename" fields)
    (hall : ∀ key v, Assoc.get? key fields = some v → key ≠ "__typename" →
      key ∈ selected.map (·.1))
    (h : ∀ parent, ∀ s ∈ selected, ∃ w v, Assoc.get? s.1 stored = some w ∧
      Assoc.get? s.1 fields = some v ∧ c.readValue parent s.1 w s.2 = some v) :
    c.readSelected stored selected = some (.object fields) := by
  have hsame (read : Json.Fields) (hread : Assoc.Ordered read)
      (hkeys : ∀ key, key ∉ selected.map (·.1) → Assoc.get? key read = Assoc.get? key fields) :
      c.readFields (typenameOf? stored) stored selected read = some fields := by
    obtain ⟨out, hout, hout', hget⟩ := readFields_of_selected (h (typenameOf? stored)) hread
    rw [hout]
    congr 1
    refine hout'.ext hordered fun key => ?_
    rw [hget key]
    split
    · rfl
    · rename_i hkey
      exact hkeys key hkey
  -- Beside the selection an object has its type at most.
  have habsent : ∀ key, key ∉ selected.map (·.1) → key ≠ "__typename" →
      Assoc.get? key fields = none := by
    intro key hkey hne
    cases hv : Assoc.get? key fields with
    | none => rfl
    | some v => exact absurd (hall key v hv hne) hkey
  rw [readSelected, htyped]
  cases ht : Assoc.get? "__typename" fields with
  | none =>
    -- It is read beginning with no field.
    have hnone := hsame [] Assoc.ordered_nil fun key hkey => by
      by_cases hne : key = "__typename"
      · rw [hne, ht]
        rfl
      · rw [habsent key hkey hne]
        rfl
    simp only [hnone, Option.map_some]
  | some t =>
    -- It is read beginning with its type.
    have hsome := hsame [("__typename", t)] (by simp [Assoc.Ordered]) fun key hkey => by
      by_cases hne : key = "__typename"
      · rw [hne, ht, Assoc.get?_cons_self]
      · rw [habsent key hkey hne, Assoc.get?_cons_of_ne hne]
        rfl
    simp only [hsome, Option.map_some]

/-- The value reads back, in any place and under any shape that it fits. -/
def ReadsBack (c : Cache) (v : Json) : Prop :=
  ∀ shape : Shape, shape.Sorted → shape.fits v = true →
    ∀ parent field, c.readValue parent field v.normalized shape = some v

theorem readsBack_scalar (c : Cache) {v : Json} (harray : v.asItems? = none)
    (hobject : v.isObject = false) : c.ReadsBack v :=
  fun shape _ _ parent field => c.readValue_scalar parent field shape harray hobject

theorem readItems_normalized {c : Cache} {items : List Json}
    (h : ∀ v ∈ items, c.ReadsBack v ∧ c.canRead v.normalized = true) {element : Shape}
    (helement : element.Sorted) (hfits : Shape.fitsItems element items = true)
    (parent : Option Typename) (field : String) :
    (((Json.normalizedItems items).filter c.canRead).mapM fun item =>
      c.readValue parent field item element) = some items := by
  induction items with
  | nil => rfl
  | cons v rest ih =>
    obtain ⟨hback, hcan⟩ := h v List.mem_cons_self
    rw [Shape.fitsItems, Bool.and_eq_true] at hfits
    rw [Json.normalizedItems, List.filter_cons_of_pos hcan, List.mapM_cons,
      hback element helement hfits.1 parent field,
      ih (fun w hw => h w (List.mem_cons_of_mem _ hw)) hfits.2]
    rfl

theorem readsBack_array {c : Cache} {items : List Json}
    (h : ∀ v ∈ items, c.ReadsBack v ∧ c.canRead v.normalized = true) :
    c.ReadsBack (.array items) := by
  intro shape hshape hfits parent field
  cases shape with
  | list element =>
    have hitems : Shape.fitsItems element items = true := hfits
    have helement : element.Sorted := hshape
    rw [Json.normalized, readValue, readItems_normalized h helement hitems, Option.map_some]
  | leaf => simp [Shape.fits] at hfits
  | object selected => simp [Shape.fits] at hfits

theorem readSelected_normalized {c : Cache} {fields : Json.Fields} {selected : List (String × Shape)}
    (hfields : Assoc.Ordered fields) (hselected : (Shape.object selected).Sorted)
    (hfits : (Shape.object selected).fits (.object fields) = true)
    (hback : ∀ e ∈ fields, c.ReadsBack e.2) (stored : Json.Fields)
    (hstored : ∀ key w, Assoc.get? key (Json.normalizedFields fields) = some w →
      Assoc.get? key stored = some w)
    (htype : Assoc.get? "__typename" fields = none → Assoc.get? "__typename" stored = none) :
    c.readSelected stored selected = some (.object fields) := by
  rw [Shape.fits, Bool.and_eq_true, List.all_eq_true] at hfits
  obtain ⟨hall, hmembers⟩ := hfits
  have hheld : ∀ key v, Assoc.get? key fields = some v → Assoc.get? key stored = some v.normalized := by
    intro key v hv
    apply hstored
    rw [Json.get?_normalizedFields, hv, Option.map_some]
  apply readSelected_of_fields hfields
  · -- The type.
    cases ht : Assoc.get? "__typename" fields with
    | none => exact htype ht
    | some t =>
      have hleaf := Shape.fits_of_mem hmembers (Assoc.mem_of_get? ht)
      rw [if_pos rfl] at hleaf
      rw [hheld _ t ht, Shape.normalized_of_fits_leaf hleaf]
  · -- Nothing else stands in the object than what is selected.
    intro key v hv hne
    have hfit := Shape.fits_of_mem hmembers (Assoc.mem_of_get? hv)
    rw [if_neg hne] at hfit
    obtain ⟨shape, hshape, -⟩ := hfit
    exact List.mem_map.2 ⟨(key, shape), Assoc.mem_of_get? hshape, rfl⟩
  · intro parent s hs
    have hs' := hall s hs
    rw [Bool.and_eq_true, bne_iff_ne] at hs'
    obtain ⟨v, hv⟩ := Option.isSome_iff_exists.1 hs'.2
    have hfit := Shape.fits_of_mem hmembers (Assoc.mem_of_get? hv)
    rw [if_neg hs'.1] at hfit
    obtain ⟨shape, hshape, hfit⟩ := hfit
    -- A field is selected once, so the shape that the data fits is the shape it is read under.
    have hsame : Assoc.get? s.1 selected = some s.2 :=
      Assoc.get?_eq_of_mem hselected.1.nodup_keys hs
    rw [hsame] at hshape
    cases hshape
    exact ⟨v.normalized, v, hheld s.1 v hv, hv, hback (s.1, v) (Assoc.mem_of_get? hv) s.2
      (Shape.sortedFields_iff.1 hselected.2 s hs) hfit parent s.1⟩

theorem readsBack_object {c : Cache} {fields : Json.Fields} (hfields : Assoc.Ordered fields)
    (hreferences : (Json.object fields).references = []) (hholds : c.Holds (Json.object fields).entities)
    (hback : ∀ e ∈ fields, c.ReadsBack e.2) : c.ReadsBack (.object fields) := by
  intro shape hshape hfits parent field
  have hreference := Json.referenceId?_eq_none_of_references hreferences
  cases shape with
  | leaf => simp [Shape.fits] at hfits
  | list element => simp [Shape.fits] at hfits
  | object selected =>
    have hread := readSelected_normalized hfields hshape hfits hback
    cases hobj : ObjectRef.identify? (.object fields) with
    | none =>
      -- An anonymous object is stored in place.
      have hself := hread (Json.normalizedFields fields) (fun _ _ h => h) fun hnone => by
        rw [Json.get?_normalizedFields, hnone, Option.map_none]
      rw [(Json.normalized_of_anonymous hreference hobj).1, readValue]
      simp only [Json.referenceId?_normalizedFields hreference, hself]
    | some obj =>
      -- An identified object is stored for itself, and a reference stands in its place.
      obtain ⟨hnormalized, hentities⟩ := Json.normalized_of_identified hreference hobj
      obtain ⟨record, hrecord, hheld⟩ := hholds (obj, Json.normalizedFields fields) (by
        rw [hentities]
        exact List.mem_append_right _ List.mem_cons_self)
      have hrecorded := hread record.entries hheld fun hnone => by
        -- An object without a type has no identity.
        simp [ObjectRef.identify?, Json.field?, hnone] at hobj
      rw [hnormalized, readValue_toReference, hrecord]
      exact hrecorded

mutual

theorem readsBack_of_holds {c : Cache} : ∀ v : Json, v.Sorted → v.references = [] →
    c.Holds v.entities → c.ReadsBack v
  | .object fields, hsorted, hreferences, hholds =>
    readsBack_object hsorted.1 hreferences hholds
      (readsBack_fields fields hsorted.2 (Json.referencesOfFields_eq_nil hreferences)
        (hholds.mono fun _ he => Json.mem_entities_of_fields hreferences he))
  | .array items, hsorted, hreferences, hholds =>
    readsBack_array (readsBack_items items hsorted hreferences hholds)
  | .null, _, _, _ => readsBack_scalar c rfl rfl
  | .bool _, _, _, _ => readsBack_scalar c rfl rfl
  | .number _, _, _, _ => readsBack_scalar c rfl rfl
  | .string _, _, _, _ => readsBack_scalar c rfl rfl

theorem readsBack_fields {c : Cache} : ∀ fields : List (String × Json), Json.SortedFields fields →
    Json.referencesOfFields fields = [] → c.Holds (Json.entitiesOfFields fields) →
    ∀ e ∈ fields, c.ReadsBack e.2
  | [], _, _, _, _, he => by cases he
  | (key, v) :: rest, hsorted, hreferences, hholds, e, he => by
    rw [Json.referencesOfFields, List.append_eq_nil_iff] at hreferences
    rw [Json.entitiesOfFields] at hholds
    rcases List.mem_cons.1 he with rfl | hrest
    · exact readsBack_of_holds v hsorted.1 hreferences.1
        (hholds.mono fun _ => List.mem_append_left _)
    · exact readsBack_fields rest hsorted.2 hreferences.2
        (hholds.mono fun _ => List.mem_append_right _) e hrest

theorem readsBack_items {c : Cache} : ∀ items : List Json, Json.SortedItems items →
    Json.referencesOfItems items = [] → c.Holds (Json.entitiesOfItems items) →
    ∀ v ∈ items, c.ReadsBack v ∧ c.canRead v.normalized = true
  | [], _, _, _, _, hv => by cases hv
  | v :: rest, hsorted, hreferences, hholds, w, hw => by
    rw [Json.referencesOfItems, List.append_eq_nil_iff] at hreferences
    rw [Json.entitiesOfItems] at hholds
    rcases List.mem_cons.1 hw with hfirst | hrest
    · have hinner := hholds.mono fun _ => List.mem_append_left _
      rw [hfirst]
      exact ⟨readsBack_of_holds v hsorted.1 hreferences.1 hinner,
        canRead_normalized hreferences.1 hinner⟩
    · exact readsBack_items rest hsorted.2 hreferences.2
        (hholds.mono fun _ => List.mem_append_right _) w hrest

end

/-- Data that holds no references, fits its own shape and says the same of an object wherever the
object occurs reads back as it was written, whatever the cache held and whatever its policies. -/
theorem readRoot_writeRoot (c : Cache) (field : String) (args : Option Json) {data : Json}
    (hsorted : data.Sorted) (hreferences : data.references = [])
    (hfits : (Shape.ofData data).fits data = true) (hconsistent : data.Consistent) :
    (c.writeRoot field args data).readRoot field args = .hit data := by
  have hholds : (c.writeRoot field args data).Holds data.entities :=
    (holds_storeEntities c hsorted hconsistent).of_objects rfl
  have hroot : (c.writeRoot field args data).root.get? (storeFieldName field args) =
      some data.normalized := SortedMap.get?_insert_self _ _ _
  have hshape : (c.writeRoot field args data).selections.get? (storeFieldName field args) =
      some (Shape.ofData data) := SortedMap.get?_insert_self _ _ _
  have hcan := canRead_normalized hreferences hholds
  have hread := readsBack_of_holds data hsorted hreferences hholds _
    (Shape.sorted_ofData data hsorted) hfits none field
  rw [readRoot]
  simp only [hroot, hshape, Option.getD_some, Option.filter_some, hcan, if_true, hread]
  split <;> rfl

def twoTags : Json :=
  .object [("count", .int 2), ("tags", .array [
    .object [("__typename", .string "Tag"), ("id", .string "1"), ("name", .string "a"),
      ("parents", .array [.object [("__typename", .string "Tag"), ("id", .string "2"),
        ("name", .string "b")]])],
    .object [("__typename", .string "Tag"), ("id", .string "2"), ("name", .string "b"),
      ("parents", .array [])],
    .null])]

/-- The inner tag reads back without `parents`, which were not asked of it there. -/
theorem twoTags_read_back :
    twoTags.Sorted ∧ twoTags.references = [] ∧ (Shape.ofData twoTags).fits twoTags = true ∧
      twoTags.Consistent ∧ twoTags.entities.length = 3 ∧
      ((new .standard).writeRoot "findTags" none twoTags).readRoot "findTags" none =
        .hit twoTags := by
  have hsorted : twoTags.Sorted := by decide +kernel
  have hfits : (Shape.ofData twoTags).fits twoTags = true := by decide +kernel
  have hconsistent : twoTags.Consistent := by decide +kernel
  exact ⟨hsorted, rfl, hfits, hconsistent, by decide +kernel,
    readRoot_writeRoot (new .standard) "findTags" none hsorted rfl hfits hconsistent⟩

end Cache

end MediaCache
