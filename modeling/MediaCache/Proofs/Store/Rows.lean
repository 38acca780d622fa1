import MediaCache.Proofs.Json.Parts
import MediaCache.Proofs.Store.Normalize
import MediaCache.Proofs.Store.Objects
import MediaCache.Proofs.Store.Runs

/-!
# A row is stored once

A row of the server is an object with a known type and an id. Stored data holds rows as references
only, and each stored object is the row that its cache id names. Operations keep this as long as they
leave the two fields alone that a row is identified by.
-/

namespace MediaCache

def identityFields : List String := ["__typename", "id"]

/-! ## Rows in data -/

namespace ObjectRef

theorem identify?_eq_some_iff {fields : Json.Fields} {obj : ObjectRef} :
    identify? (.object fields) = some obj ↔
      Assoc.get? "__typename" fields = some (.string obj.typename.name) ∧
        ∃ v, Assoc.get? "id" fields = some v ∧ idText? v = some obj.id := by
  unfold identify? Json.field?
  constructor
  · intro h
    simp only [Option.bind_eq_bind, Option.bind_eq_some_iff] at h
    obtain ⟨type, htype, t, ⟨name, hname, ht⟩, v, hv, id, hid, hobj⟩ := h
    cases hobj
    cases type with
    | string s =>
      cases hname
      rw [Typename.name_of_ofName? ht]
      exact ⟨htype, v, hv, hid⟩
    | _ => cases hname
  · rintro ⟨ht, v, hv, hid⟩
    simp [ht, hv, hid, Json.asString?]

theorem identify?_congr {a b : Json.Fields}
    (h : ∀ key ∈ identityFields, Assoc.get? key a = Assoc.get? key b) :
    identify? (.object a) = identify? (.object b) := by
  ext obj
  rw [identify?_eq_some_iff, identify?_eq_some_iff, h "__typename" (by simp [identityFields]),
    h "id" (by simp [identityFields])]

theorem identify?_of_isScalar {v : Json} (h : v.isScalar = true) : identify? v = none := by
  cases v <;> first | rfl | cases h

end ObjectRef

namespace Json

theorem normalized_eq_string_iff {v : Json} {s : String} : v.normalized = string s ↔ v = string s := by
  cases v with
  | object fields =>
    rw [normalized]
    split
    · simp
    · split <;> simp [ObjectRef.toReference, reference]
  | _ => simp [normalized]

@[simp]
theorem idText?_normalized (v : Json) : idText? v.normalized = idText? v := by
  cases v with
  | object fields =>
    rw [normalized]
    split
    · rfl
    · split <;> rfl
  | _ => simp [normalized, idText?]

@[simp]
theorem identify?_normalizedFields (fields : Fields) :
    ObjectRef.identify? (object (normalizedFields fields)) = ObjectRef.identify? (object fields) := by
  ext obj
  rw [ObjectRef.identify?_eq_some_iff, ObjectRef.identify?_eq_some_iff]
  simp only [get?_normalizedFields, Option.map_eq_some_iff, normalized_eq_string_iff]
  constructor
  · rintro ⟨⟨_, ht, rfl⟩, _, ⟨v, hv, rfl⟩, hid⟩
    exact ⟨ht, v, hv, by rwa [idText?_normalized] at hid⟩
  · rintro ⟨ht, v, hv, hid⟩
    exact ⟨⟨_, ht, rfl⟩, _, ⟨v, hv, rfl⟩, by rwa [idText?_normalized]⟩

/-- The fields that are split off from a row say of which type it is. -/
theorem typename_of_entities {v : Json} {e : ObjectRef × Fields} (he : e ∈ v.entities) :
    Assoc.get? "__typename" e.2 = some (.string e.1.typename.name) := by
  obtain ⟨own, hobj, hown, -⟩ := splitFrom_of_mem v e he
  rw [← identify?_normalizedFields, ← hown] at hobj
  exact (ObjectRef.identify?_eq_some_iff.1 hobj).1

theorem entities_of_isScalar {v : Json} (h : v.isScalar = true) : v.entities = [] := by
  cases v with
  | array items => cases h
  | object fields => cases h
  | _ => simp only [entities]

/-- No part of the value is a row. -/
def RowFree (v : Json) : Prop := ∀ w ∈ v.parts, ObjectRef.identify? w = none

theorem rowFree_of_isScalar {v : Json} (h : v.isScalar = true) : v.RowFree := by
  intro w hw
  rw [parts_of_isScalar h, List.mem_singleton] at hw
  rw [hw]
  exact ObjectRef.identify?_of_isScalar h

theorem rowFree_object_iff {fields : Fields} :
    (object fields).RowFree ↔
      ObjectRef.identify? (object fields) = none ∧ ∀ e ∈ fields, e.2.RowFree := by
  unfold RowFree
  simp only [mem_parts_object, forall_eq_or_imp, forall_exists_index, and_imp]
  exact and_congr_right fun _ => ⟨fun h e he w hw => h w e he hw, fun h w e he hw => h e he w hw⟩

theorem rowFree_array_iff {items : List Json} :
    (array items).RowFree ↔ ∀ v ∈ items, v.RowFree := by
  have harray : ObjectRef.identify? (array items) = none := rfl
  unfold RowFree
  simp only [mem_parts_array, forall_eq_or_imp, harray, true_and, forall_exists_index, and_imp]
  exact ⟨fun h v hv w hw => h w v hv hw, fun h w v hv hw => h v hv w hw⟩

theorem rowFree_reference (id : String) : (reference id).RowFree := by
  refine rowFree_object_iff.2 ⟨rfl, fun e he => ?_⟩
  obtain rfl := List.mem_singleton.1 he
  exact rowFree_of_isScalar rfl

theorem RowFree.of_referenceId? {v : Json} {id : String} (h : referenceId? v = some id) :
    v.RowFree := by
  rw [eq_reference_of_referenceId? h]
  exact rowFree_reference id

/-- A field that says nothing about identity makes no object a row. -/
theorem RowFree.insert {fields : Fields} (h : (object fields).RowFree) {key : String}
    (hkey : key ∉ identityFields) {v : Json} (hv : v.RowFree) :
    (object (Assoc.insert key v fields)).RowFree := by
  obtain ⟨hnone, hfields⟩ := rowFree_object_iff.1 h
  refine rowFree_object_iff.2 ⟨?_, fun e he => ?_⟩
  · rw [← hnone]
    apply ObjectRef.identify?_congr
    intro name hname
    exact Assoc.get?_insert_of_ne (ne_of_mem_of_not_mem hname hkey) v fields
  · rcases Assoc.mem_insert he with rfl | hold
    · exact hv
    · exact hfields e hold

theorem RowFree.erase {fields : Fields} (h : (object fields).RowFree) {key : String}
    (hkey : key ∉ identityFields) : (object (Assoc.erase key fields)).RowFree := by
  obtain ⟨hnone, hfields⟩ := rowFree_object_iff.1 h
  refine rowFree_object_iff.2 ⟨?_, fun e he => hfields e (List.mem_filter.1 he).1⟩
  rw [← hnone]
  apply ObjectRef.identify?_congr
  intro name hname
  exact Assoc.get?_erase_of_ne (ne_of_mem_of_not_mem hname hkey) fields

mutual

/-- After splitting, no row is left inside the data. -/
theorem rowFree_normalized : ∀ v : Json, v.normalized.RowFree
  | object fields => by
    cases hreference : referenceId? (object fields) with
    | some id =>
      rw [normalized, isReference, hreference]
      exact .of_referenceId? hreference
    | none =>
      cases hobj : ObjectRef.identify? (object fields) with
      | some obj =>
        rw [(normalized_of_identified hreference hobj).1]
        exact rowFree_reference _
      | none =>
        rw [(normalized_of_anonymous hreference hobj).1, rowFree_object_iff, identify?_normalizedFields]
        exact ⟨hobj, rowFree_normalizedFields fields⟩
  | array items => by
    rw [normalized, rowFree_array_iff]
    exact rowFree_normalizedItems items
  | null | bool _ | number _ | string _ => by
    rw [normalized]
    · exact rowFree_of_isScalar rfl
    all_goals simp

theorem rowFree_normalizedFields : ∀ fields : List (String × Json),
    ∀ e ∈ normalizedFields fields, e.2.RowFree
  | [], _, he => by cases he
  | (key, v) :: rest, e, he => by
    rw [normalizedFields] at he
    rcases List.mem_cons.1 he with rfl | he
    · exact rowFree_normalized v
    · exact rowFree_normalizedFields rest e he

theorem rowFree_normalizedItems : ∀ items : List Json, ∀ v ∈ normalizedItems items, v.RowFree
  | [], _, hv => by cases hv
  | v :: rest, w, hw => by
    rw [normalizedItems] at hw
    rcases List.mem_cons.1 hw with rfl | hw
    · exact rowFree_normalized v
    · exact rowFree_normalizedItems rest w hw

end

end Json

/-! ## Stored rows -/

/-- The record is the row that the cache id names, and holds no other rows. -/
structure Record.IsRow (r : Record) (id : String) : Prop where
  rowFree : ∀ key v, r.get? key = some v → v.RowFree
  identified : ∃ obj, ObjectRef.identify? r.toJson = some obj ∧ obj.cacheId = id

namespace Record.IsRow

variable {r : Record} {id : String}

/-- The identity of a record is read off two of its fields. -/
theorem of_same (h : r.IsRow id) {d : Record}
    (hsame : ∀ key ∈ identityFields, d.get? key = r.get? key)
    (hfree : ∀ key v, d.get? key = some v → v.RowFree) : d.IsRow id := by
  obtain ⟨obj, hobj, hid⟩ := h.identified
  exact ⟨hfree, obj, (ObjectRef.identify?_congr hsame).trans hobj, hid⟩

theorem insert (h : r.IsRow id) {field : String} (hfield : field ∉ identityFields) {v : Json}
    (hv : v.RowFree) : Record.IsRow (r.insert field v) id := by
  refine h.of_same (fun key hkey => ?_) fun key w hw => ?_
  · exact SortedMap.get?_insert_of_ne r (ne_of_mem_of_not_mem hkey hfield) v
  · rw [SortedMap.get?_insert] at hw
    split at hw
    · cases hw
      exact hv
    · exact h.rowFree key w hw

theorem without (h : r.IsRow id) {dropped : String → Bool}
    (hdropped : ∀ key ∈ identityFields, dropped key = false) : (r.without dropped).IsRow id := by
  refine h.of_same (fun key hkey => ?_) fun key w hw => ?_
  · rw [Record.get?_without, hdropped key hkey, if_neg (by simp)]
  · rw [Record.get?_without] at hw
    split at hw
    · cases hw
    · exact h.rowFree key w hw

end Record.IsRow

namespace Record

variable {present : Record} {own : Json.Fields} {obj : ObjectRef}

theorem get?_insertAll_normalized (hnodup : ((Json.normalizedFields own).map (·.1)).Nodup)
    (key : String) :
    (present.insertAll (Json.normalizedFields own)).get? key =
      (Assoc.get? key (Json.normalizedFields own)).or (present.get? key) := by
  rw [SortedMap.get?_insertAll, Assoc.get?_reverse hnodup]

/-- A record into which a row was merged is named as that row, whatever it was before. -/
theorem identify?_insertAll (hnodup : ((Json.normalizedFields own).map (·.1)).Nodup)
    (hobj : ObjectRef.identify? (.object own) = some obj) :
    ObjectRef.identify? (Record.toJson (present.insertAll (Json.normalizedFields own))) = some obj := by
  rw [← Json.identify?_normalizedFields] at hobj
  obtain ⟨htype, v, hv, hid⟩ := ObjectRef.identify?_eq_some_iff.1 hobj
  refine ObjectRef.identify?_eq_some_iff.2 ⟨?_, v, ?_, hid⟩
  · exact (get?_insertAll_normalized hnodup _).trans (by rw [htype, Option.some_or])
  · exact (get?_insertAll_normalized hnodup _).trans (by rw [hv, Option.some_or])

theorem isRow_insertAll (hpresent : ∀ key v, present.get? key = some v → v.RowFree)
    (hnodup : ((Json.normalizedFields own).map (·.1)).Nodup)
    (hobj : ObjectRef.identify? (.object own) = some obj) :
    Record.IsRow (present.insertAll (Json.normalizedFields own)) obj.cacheId := by
  refine ⟨fun key v hv => ?_, obj, identify?_insertAll hnodup hobj, rfl⟩
  rw [get?_insertAll_normalized hnodup, Option.or_eq_some_iff] at hv
  rcases hv with hnew | ⟨-, hold⟩
  · exact Json.rowFree_normalizedFields own _ (Assoc.mem_of_get? hnew)
  · exact hpresent key v hold

end Record

namespace Cache

structure OneCopy (c : Cache) : Prop where
  root : ∀ name v, c.root.get? name = some v → v.RowFree
  objects : ∀ id r, c.objects.get? id = some r → r.IsRow id

theorem oneCopy_new (policies : Policies) : (new policies).OneCopy := by
  refine ⟨fun name v h => ?_, fun id r h => ?_⟩
  · cases h
  · cases h

variable {c d : Cache}

/-! ### Operations on objects -/

theorem OneCopy.of_sameRoot (h : c.OneCopy) (hsame : SameRoot c d)
    (hobjects : ∀ id r, d.objects.get? id = some r → r.IsRow id) : d.OneCopy := by
  refine ⟨fun name v hv => h.root name v ?_, hobjects⟩
  rwa [← hsame.root]

theorem OneCopy.mergeObject (h : c.OneCopy) {own : Json.Fields} {obj : ObjectRef}
    (hnodup : ((Json.normalizedFields own).map (·.1)).Nodup)
    (hobj : ObjectRef.identify? (.object own) = some obj) :
    (c.mergeObject obj (Json.normalizedFields own)).OneCopy := by
  refine ⟨h.root, fun id r hr => ?_⟩
  unfold Cache.mergeObject at hr
  simp only [SortedMap.get?_insert] at hr
  split at hr
  · rename_i hid
    subst hid
    cases hr
    refine Record.isRow_insertAll (fun key v hv => ?_) hnodup hobj
    cases hold : c.objects.get? obj.cacheId with
    | some old =>
      rw [hold] at hv
      exact (h.objects _ old hold).rowFree key v hv
    | none =>
      rw [hold] at hv
      have hmem := (SortedMap.get?_eq_some_iff_mem _ _ _).1 hv
      cases List.mem_singleton.1 hmem
      exact Json.rowFree_of_isScalar rfl
  · exact h.objects id r hr

theorem OneCopy.storeEntities (h : c.OneCopy) {v : Json} (hsorted : v.Sorted) :
    (c.storeEntities v).OneCopy := by
  have hrows : ∀ e ∈ v.entities, ∃ own, e.2 = Json.normalizedFields own ∧
      ObjectRef.identify? (.object own) = some e.1 := by
    intro e he
    obtain ⟨own, hobj, hown, -⟩ := Json.splitFrom_of_mem v e he
    exact ⟨own, hown, hobj⟩
  have hnodup := Json.nodup_keys_of_entities v hsorted
  rw [Cache.storeEntities]
  generalize v.entities = found at hrows hnodup
  induction found generalizing c with
  | nil => exact h
  | cons e rest ih =>
    obtain ⟨own, hown, hobj⟩ := hrows e List.mem_cons_self
    have hkeys := hnodup e List.mem_cons_self
    rw [hown] at hkeys
    rw [List.foldl_cons, hown]
    exact ih (h.mergeObject hkeys hobj) (fun f hf => hrows f (List.mem_cons_of_mem _ hf))
      fun f hf => hnodup f (List.mem_cons_of_mem _ hf)

theorem OneCopy.writeObject (h : c.OneCopy) {v : Json} (hsorted : v.Sorted) :
    (c.writeObject v).2.OneCopy := by
  rw [Cache.writeObject]
  split
  · exact h.storeEntities hsorted
  · exact h

theorem OneCopy.writeRoot (h : c.OneCopy) (field : String) (args : Option Json) {data : Json}
    (hsorted : data.Sorted) : (c.writeRoot field args data).OneCopy := by
  have hstored := h.storeEntities hsorted
  refine ⟨fun name v hv => ?_, hstored.objects⟩
  unfold Cache.writeRoot at hv
  simp only [SortedMap.get?_insert] at hv
  split at hv
  · cases hv
    exact Json.rowFree_normalized data
  · exact hstored.root name v hv

theorem OneCopy.applyToField (h : c.OneCopy) (obj : ObjectRef) {field : String}
    (hfield : field ∉ identityFields) {u : FieldUpdate} (hu : ∀ v, u = .set v → v.RowFree) :
    (c.applyToField obj field u).OneCopy := by
  refine h.of_sameRoot (sameRoot_applyToField c obj field u).1 fun id r hr => ?_
  rw [get?_applyToField] at hr
  obtain ⟨old, hold, rfl⟩ := Option.map_eq_some_iff.1 hr
  have hrow := h.objects id old hold
  split
  · cases u with
    | keep => exact hrow
    | set v => exact hrow.insert hfield (hu v rfl)
    | delete =>
      rw [Record.erase_eq_without]
      refine hrow.without fun key hkey => ?_
      exact beq_eq_false_iff_ne.2 (ne_of_mem_of_not_mem hkey hfield)
  · exact hrow

theorem OneCopy.modifyField (h : c.OneCopy) (obj : ObjectRef) {field : String}
    (hfield : field ∉ identityFields) {change : Json → FieldUpdate}
    (hchange : ∀ v w, change v = .set w → w.RowFree) :
    (c.modifyField obj field change).2.OneCopy := by
  rw [Cache.modifyField]
  split
  · exact h
  · exact h.applyToField obj hfield (hchange _)

theorem OneCopy.writeField (h : c.OneCopy) (obj : ObjectRef) {field : String}
    (hfield : field ∉ identityFields) {v : Json} (hsorted : v.Sorted) :
    (c.writeField obj field v).2.OneCopy := by
  rw [Cache.writeField]
  split
  · refine (h.storeEntities hsorted).applyToField obj hfield (u := .set v.normalized) fun w hw => ?_
    cases hw
    exact Json.rowFree_normalized v
  · exact h

theorem OneCopy.evictObject (h : c.OneCopy) (obj : ObjectRef) : (c.evictObject obj).2.OneCopy := by
  refine h.of_sameRoot (sameRoot_evictObject c obj) fun id r hr => ?_
  rw [get?_evictObject] at hr
  split at hr
  · cases hr
  · exact h.objects id r hr

theorem OneCopy.collect (h : c.OneCopy) : c.collect.2.OneCopy := by
  refine h.of_sameRoot (sameRoot_collect c) fun id r hr => ?_
  rw [get?_collect] at hr
  split at hr
  · exact h.objects id r hr
  · cases hr

/-! ### Operations on root entries -/

theorem OneCopy.modifyRoot (h : c.OneCopy) (field : String) {change : String → Json → FieldUpdate}
    (hchange : ∀ name v w, change name v = .set w → v.RowFree → w.RowFree) :
    (c.modifyRoot field change).2.OneCopy := by
  have hsame := sameStore_modifyRoot c field change
  refine ⟨fun name v hv => ?_, fun id r hr => h.objects id r (hsame.objects ▸ hr)⟩
  rcases root_modifyRoot hv with hold | ⟨old, hold, hu⟩
  · exact h.root name v hold
  · exact hchange name old v hu (h.root name old hold)

/-! ### Any operation -/

/-- Data has its keys in order, and no row gets another identity or comes in unsplit. -/
def Op.KeepsRows : Op → Prop
  | writeObject v => v.Sorted
  | writeRoot _ _ data => data.Sorted
  | writeField _ field v => field ∉ identityFields ∧ v.Sorted
  | modifyField _ field change =>
    field ∉ identityFields ∧ ∀ v w, change v = .set w → w.RowFree
  | modifyRoot _ change => ∀ name v w, change name v = .set w → v.RowFree → w.RowFree
  | evictField _ field => field ∉ identityFields
  | restore _ => False
  | _ => True

theorem OneCopy.op (h : c.OneCopy) {op : Op} (hop : op.KeepsRows) : (op.run c).OneCopy := by
  cases op with
  | writeObject v => exact h.writeObject hop
  | writeRoot field args data => exact h.writeRoot field args hop
  | writeField obj field v => exact h.writeField obj hop.1 hop.2
  | modifyField obj field change => exact h.modifyField obj hop.1 hop.2
  | modifyRoot field change => exact h.modifyRoot field hop
  | evictObject obj => exact h.evictObject obj
  | evictField obj field => exact h.modifyField obj hop fun v w hw => by cases hw
  | evictRoot field => exact h.modifyRoot field fun name v w hw => by cases hw
  | retain obj => exact ⟨h.root, h.objects⟩
  | release obj => exact ⟨h.root, h.objects⟩
  | collect => exact h.collect
  | reset => exact oneCopy_new c.policies
  | restore s => exact hop.elim

end Cache

end MediaCache
