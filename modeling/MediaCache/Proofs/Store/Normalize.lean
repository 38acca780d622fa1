import MediaCache.Proofs.Json.Sorted
import MediaCache.Store.Cache
import MediaCache.Store.Collect

/-!
# Data split into objects

Normalized data keeps its keys. An object with an identity becomes a reference and joins the objects of
the data; any other object stays where it is, with its fields normalized.
-/

namespace MediaCache

namespace Json

theorem normalizedFields_eq (fields : Fields) :
    normalizedFields fields = fields.map fun e => (e.1, normalized e.2) := by
  induction fields with
  | nil => rw [normalizedFields, List.map_nil]
  | cons e rest ih =>
    obtain ⟨key, v⟩ := e
    rw [normalizedFields, ih, List.map_cons]

@[simp]
theorem get?_normalizedFields (fields : Fields) (key : String) :
    Assoc.get? key (normalizedFields fields) = (Assoc.get? key fields).map normalized := by
  rw [normalizedFields_eq]
  exact Assoc.get?_mapValues normalized key fields

@[simp]
theorem keys_normalizedFields (fields : Fields) :
    (normalizedFields fields).map (·.1) = fields.map (·.1) := by
  rw [normalizedFields_eq, List.map_map]
  rfl

/-- Splitting an object that is no reference does not make it one. -/
theorem referenceId?_normalizedFields {fields : Fields} (h : referenceId? (object fields) = none) :
    referenceId? (object (normalizedFields fields)) = none := by
  cases fields with
  | nil => rfl
  | cons e rest =>
    obtain ⟨key, v⟩ := e
    cases rest with
    | cons f rest => simp [normalizedFields, referenceId?]
    | nil =>
      cases v with
      | string s => simpa [normalizedFields, normalized] using h
      | object inner =>
        simp only [normalizedFields, normalized]
        split
        · rfl
        · split <;> rfl
      | _ => rfl

theorem referenceId?_eq_none_of_references {v : Json} (h : v.references = []) :
    referenceId? v = none := by
  cases v with
  | object fields =>
    rw [references] at h
    cases hid : referenceId? (object fields) with
    | none => rfl
    | some id =>
      rw [hid] at h
      cases h
  | _ => rfl

theorem referencesOfFields_eq_nil {fields : Fields} (h : (object fields).references = []) :
    referencesOfFields fields = [] := by
  have hreference := referenceId?_eq_none_of_references h
  rw [references, hreference] at h
  exact h

theorem normalized_of_identified {fields : Fields} {obj : ObjectRef}
    (hreference : referenceId? (object fields) = none)
    (hobj : ObjectRef.identify? (object fields) = some obj) :
    (object fields).normalized = obj.toReference ∧
      (object fields).entities = entitiesOfFields fields ++ [(obj, normalizedFields fields)] := by
  simp [normalized, entities, isReference, hreference, hobj]

theorem normalized_of_anonymous {fields : Fields}
    (hreference : referenceId? (object fields) = none)
    (hobj : ObjectRef.identify? (object fields) = none) :
    (object fields).normalized = object (normalizedFields fields) ∧
      (object fields).entities = entitiesOfFields fields := by
  simp [normalized, entities, isReference, hreference, hobj]

theorem mem_entities_of_fields {fields : Fields} (h : (object fields).references = [])
    {e : ObjectRef × Fields} (he : e ∈ entitiesOfFields fields) : e ∈ (object fields).entities := by
  have hreference := referenceId?_eq_none_of_references h
  cases hobj : ObjectRef.identify? (object fields) with
  | none =>
    rw [(normalized_of_anonymous hreference hobj).2]
    exact he
  | some obj =>
    rw [(normalized_of_identified hreference hobj).2]
    exact List.mem_append_left _ he

mutual

theorem nodup_keys_of_entities : ∀ v : Json, v.Sorted → ∀ e ∈ v.entities, (e.2.map (·.1)).Nodup
  | object fields, h, e, he => by
    rw [entities] at he
    split at he
    · cases he
    · split at he
      · rcases List.mem_append.1 he with he | he
        · exact nodup_keys_of_entitiesOfFields fields h.2 e he
        · rw [List.mem_singleton.1 he, keys_normalizedFields]
          exact h.1.nodup_keys
      · exact nodup_keys_of_entitiesOfFields fields h.2 e he
  | array items, h, e, he => by
    rw [entities] at he
    exact nodup_keys_of_entitiesOfItems items h e he
  | null, _, _, he | bool _, _, _, he | number _, _, _, he | string _, _, _, he => by
    simp [entities] at he

theorem nodup_keys_of_entitiesOfFields : ∀ fields : List (String × Json), SortedFields fields →
    ∀ e ∈ entitiesOfFields fields, (e.2.map (·.1)).Nodup
  | [], _, _, he => by simp [entitiesOfFields] at he
  | (_, v) :: rest, h, e, he => by
    rw [entitiesOfFields] at he
    rcases List.mem_append.1 he with he | he
    · exact nodup_keys_of_entities v h.1 e he
    · exact nodup_keys_of_entitiesOfFields rest h.2 e he

theorem nodup_keys_of_entitiesOfItems : ∀ items : List Json, SortedItems items →
    ∀ e ∈ entitiesOfItems items, (e.2.map (·.1)).Nodup
  | [], _, _, he => by simp [entitiesOfItems] at he
  | v :: rest, h, e, he => by
    rw [entitiesOfItems] at he
    rcases List.mem_append.1 he with he | he
    · exact nodup_keys_of_entities v h.1 e he
    · exact nodup_keys_of_entitiesOfItems rest h.2 e he

end

/-! ## References into the split data -/

mutual

/-- Where the data held no reference, each that is in it now stands for an object that was split off. -/
theorem mem_references_normalized : ∀ v : Json, v.references = [] →
    ∀ id ∈ v.normalized.references, ∃ e ∈ v.entities, id = e.1.cacheId
  | object fields, h, id, hid => by
    have hreference := referenceId?_eq_none_of_references h
    cases hobj : ObjectRef.identify? (object fields) with
    | some obj =>
      obtain ⟨hnormalized, hentities⟩ := normalized_of_identified hreference hobj
      rw [hnormalized] at hid
      refine ⟨(obj, normalizedFields fields), ?_, List.mem_singleton.1 hid⟩
      rw [hentities]
      exact List.mem_append_right _ List.mem_cons_self
    | none =>
      obtain ⟨hnormalized, hentities⟩ := normalized_of_anonymous hreference hobj
      rw [hnormalized, references, referenceId?_normalizedFields hreference] at hid
      rw [hentities]
      exact mem_references_normalizedFields fields (referencesOfFields_eq_nil h) id hid
  | array items, h, id, hid => by
    rw [normalized, references] at hid
    rw [entities]
    exact mem_references_normalizedItems items h id hid
  | null, _, _, hid | bool _, _, _, hid | number _, _, _, hid | string _, _, _, hid => by
    simp [normalized, references] at hid

theorem mem_references_normalizedFields : ∀ fields : List (String × Json),
    referencesOfFields fields = [] → ∀ id ∈ referencesOfFields (normalizedFields fields),
      ∃ e ∈ entitiesOfFields fields, id = e.1.cacheId
  | [], _, _, hid => by simp [normalizedFields, referencesOfFields] at hid
  | (_, v) :: rest, h, id, hid => by
    rw [referencesOfFields, List.append_eq_nil_iff] at h
    rw [normalizedFields, referencesOfFields, List.mem_append] at hid
    rw [entitiesOfFields]
    rcases hid with hid | hid
    · obtain ⟨e, he, hsame⟩ := mem_references_normalized v h.1 id hid
      exact ⟨e, List.mem_append_left _ he, hsame⟩
    · obtain ⟨e, he, hsame⟩ := mem_references_normalizedFields rest h.2 id hid
      exact ⟨e, List.mem_append_right _ he, hsame⟩

theorem mem_references_normalizedItems : ∀ items : List Json,
    referencesOfItems items = [] → ∀ id ∈ referencesOfItems (normalizedItems items),
      ∃ e ∈ entitiesOfItems items, id = e.1.cacheId
  | [], _, _, hid => by simp [normalizedItems, referencesOfItems] at hid
  | v :: rest, h, id, hid => by
    rw [referencesOfItems, List.append_eq_nil_iff] at h
    rw [normalizedItems, referencesOfItems, List.mem_append] at hid
    rw [entitiesOfItems]
    rcases hid with hid | hid
    · obtain ⟨e, he, hsame⟩ := mem_references_normalized v h.1 id hid
      exact ⟨e, List.mem_append_left _ he, hsame⟩
    · obtain ⟨e, he, hsame⟩ := mem_references_normalizedItems rest h.2 id hid
      exact ⟨e, List.mem_append_right _ he, hsame⟩

end

/-- The object was split off from fields whose references and inner objects are among these. -/
def SplitFrom (references : List String) (found : List (ObjectRef × Fields))
    (e : ObjectRef × Fields) : Prop :=
  ∃ own, ObjectRef.identify? (object own) = some e.1 ∧ e.2 = normalizedFields own ∧
    referencesOfFields own ⊆ references ∧ entitiesOfFields own ⊆ found

theorem SplitFrom.mono {references references' : List String}
    {found found' : List (ObjectRef × Fields)} {e : ObjectRef × Fields}
    (h : SplitFrom references found e) (hreferences : references ⊆ references')
    (hfound : found ⊆ found') : SplitFrom references' found' e := by
  obtain ⟨own, hobj, hown, hinner, hentities⟩ := h
  exact ⟨own, hobj, hown, List.Subset.trans hinner hreferences, List.Subset.trans hentities hfound⟩

mutual

theorem splitFrom_of_mem : ∀ v : Json, ∀ e ∈ v.entities, SplitFrom v.references v.entities e
  | object fields, e, he => by
    cases hreference : referenceId? (object fields) with
    | some id => simp [entities, isReference, hreference] at he
    | none =>
      have hreferences : (object fields).references = referencesOfFields fields := by
        rw [references, hreference]
      have hinner := splitFrom_of_mem_fields fields e
      rw [hreferences]
      cases hobj : ObjectRef.identify? (object fields) with
      | none =>
        rw [(normalized_of_anonymous hreference hobj).2] at he ⊢
        exact hinner he
      | some obj =>
        rw [(normalized_of_identified hreference hobj).2] at he ⊢
        rcases List.mem_append.1 he with hin | hself
        · exact (hinner hin).mono (List.Subset.refl _) (List.subset_append_left _ _)
        · rw [List.mem_singleton.1 hself]
          exact ⟨fields, hobj, rfl, List.Subset.refl _, List.subset_append_left _ _⟩
  | array items, e, he => by
    rw [entities] at he ⊢
    rw [references]
    exact splitFrom_of_mem_items items e he
  | null, _, he | bool _, _, he | number _, _, he | string _, _, he => by simp [entities] at he

theorem splitFrom_of_mem_fields : ∀ fields : List (String × Json), ∀ e ∈ entitiesOfFields fields,
    SplitFrom (referencesOfFields fields) (entitiesOfFields fields) e
  | [], _, he => by simp [entitiesOfFields] at he
  | (_, v) :: rest, e, he => by
    rw [entitiesOfFields] at he ⊢
    rw [referencesOfFields]
    rcases List.mem_append.1 he with hin | hin
    · exact (splitFrom_of_mem v e hin).mono (List.subset_append_left _ _)
        (List.subset_append_left _ _)
    · exact (splitFrom_of_mem_fields rest e hin).mono (List.subset_append_right _ _)
        (List.subset_append_right _ _)

theorem splitFrom_of_mem_items : ∀ items : List Json, ∀ e ∈ entitiesOfItems items,
    SplitFrom (referencesOfItems items) (entitiesOfItems items) e
  | [], _, he => by simp [entitiesOfItems] at he
  | v :: rest, e, he => by
    rw [entitiesOfItems] at he ⊢
    rw [referencesOfItems]
    rcases List.mem_append.1 he with hin | hin
    · exact (splitFrom_of_mem v e hin).mono (List.subset_append_left _ _)
        (List.subset_append_left _ _)
    · exact (splitFrom_of_mem_items rest e hin).mono (List.subset_append_right _ _)
        (List.subset_append_right _ _)

end

/-- The references in a split object stand for objects that were split off with it. -/
theorem mem_references_of_entity {v : Json} (h : v.references = []) {e : ObjectRef × Fields}
    (he : e ∈ v.entities) : ∀ id ∈ referencesOfFields e.2, ∃ f ∈ v.entities, id = f.1.cacheId := by
  obtain ⟨own, -, hown, hreferences, hentities⟩ := splitFrom_of_mem v e he
  rw [h] at hreferences
  intro id hid
  rw [hown] at hid
  obtain ⟨f, hf, hsame⟩ :=
    mem_references_normalizedFields own (List.subset_nil.1 hreferences) id hid
  exact ⟨f, hentities hf, hsame⟩

end Json

end MediaCache
