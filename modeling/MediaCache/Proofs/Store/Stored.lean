import MediaCache.Proofs.Store.Rows
import MediaCache.Proofs.Store.Snapshot

/-!
# What a cache can hold

What holds of all values that are written holds of all that are stored, whichever operations ran. The
same goes for the recorded shapes and for the ids of objects.
-/

namespace MediaCache

/-! ## Splitting keeps what members pass on -/

namespace Json

def storedEntities (v : Json) : List (ObjectRef × Json.Fields) :=
  match ObjectRef.identify? v with
  | some _ => v.entities
  | none => []

/-- The property passes to members and comes back from them, and references have it. -/
structure Hereditary (good : Json → Prop) : Prop where
  member : ∀ {fields}, good (object fields) → ∀ e ∈ fields, good e.2
  item : ∀ {items}, good (array items) → ∀ v ∈ items, good v
  list : ∀ {items}, (∀ v ∈ items, good v) → good (array items)
  mapped : ∀ {fields} (f : Json → Json), good (object fields) → (∀ e ∈ fields, good (f e.2)) →
    good (object (Assoc.mapValues f fields))
  linked : ∀ id, good (reference id)

theorem hereditary_sorted : Hereditary Sorted where
  member h e he := sortedFields_iff.1 h.2 e he
  item h v hv := sortedItems_iff.1 h v hv
  list h := sortedItems_iff.2 h
  mapped f h hmembers := by
    refine ⟨h.1.mapValues f, sortedFields_iff.2 fun e he => ?_⟩
    obtain ⟨m, hm, rfl⟩ := List.mem_map.1 he
    exact hmembers m hm
  linked _ := ⟨List.pairwise_singleton _ _, trivial, trivial⟩

variable {good : Json → Prop}

mutual

theorem Hereditary.normalized (hgood : Hereditary good) : ∀ v : Json, good v → good v.normalized
  | object fields, h => by
    rw [Json.normalized]
    split
    · exact h
    · split
      · exact hgood.linked _
      · rw [normalizedFields_eq]
        refine hgood.mapped Json.normalized h fun e he => ?_
        exact hgood.normalizedFields fields (hgood.member h) e he
  | array items, h => by
    rw [Json.normalized]
    exact hgood.list (hgood.normalizedItems items (hgood.item h))
  | null, h | bool _, h | number _, h | string _, h => by
    simpa only [Json.normalized] using h

theorem Hereditary.normalizedFields (hgood : Hereditary good) :
    ∀ fields : List (String × Json), (∀ e ∈ fields, good e.2) → ∀ e ∈ fields, good e.2.normalized
  | [], _, _, he => by cases he
  | (_, v) :: rest, h, e, he => by
    obtain ⟨hfirst, hrest⟩ := List.forall_mem_cons.1 h
    rcases List.mem_cons.1 he with rfl | he
    · exact hgood.normalized v hfirst
    · exact hgood.normalizedFields rest hrest e he

theorem Hereditary.normalizedItems (hgood : Hereditary good) : ∀ items : List Json, (∀ v ∈ items, good v) →
    ∀ v ∈ Json.normalizedItems items, good v
  | [], _, _, hv => by cases hv
  | v :: rest, h, w, hw => by
    obtain ⟨hfirst, hrest⟩ := List.forall_mem_cons.1 h
    rw [Json.normalizedItems] at hw
    rcases List.mem_cons.1 hw with rfl | hw
    · exact hgood.normalized v hfirst
    · exact hgood.normalizedItems rest hrest w hw

end

mutual

theorem Hereditary.entities (hgood : Hereditary good) :
    ∀ v : Json, good v → ∀ e ∈ v.entities, good (object e.2)
  | object fields, h, e, he => by
    rw [Json.entities] at he
    split at he
    · cases he
    · split at he
      · rcases List.mem_append.1 he with he | he
        · exact hgood.entitiesOfFields fields (hgood.member h) e he
        · rw [List.mem_singleton.1 he, normalizedFields_eq]
          exact hgood.mapped Json.normalized h
            (hgood.normalizedFields fields (hgood.member h))
      · exact hgood.entitiesOfFields fields (hgood.member h) e he
  | array items, h, e, he => by
    rw [Json.entities] at he
    exact hgood.entitiesOfItems items (hgood.item h) e he
  | null, _, _, he | bool _, _, _, he | number _, _, _, he | string _, _, _, he => by
    simp [Json.entities] at he

theorem Hereditary.entitiesOfFields (hgood : Hereditary good) :
    ∀ fields : List (String × Json), (∀ e ∈ fields, good e.2) →
      ∀ e ∈ Json.entitiesOfFields fields, good (object e.2)
  | [], _, _, he => by simp [Json.entitiesOfFields] at he
  | (_, v) :: rest, h, e, he => by
    obtain ⟨hfirst, hrest⟩ := List.forall_mem_cons.1 h
    rw [Json.entitiesOfFields] at he
    rcases List.mem_append.1 he with he | he
    · exact hgood.entities v hfirst e he
    · exact hgood.entitiesOfFields rest hrest e he

theorem Hereditary.entitiesOfItems (hgood : Hereditary good) : ∀ items : List Json, (∀ v ∈ items, good v) →
    ∀ e ∈ Json.entitiesOfItems items, good (object e.2)
  | [], _, _, he => by simp [Json.entitiesOfItems] at he
  | v :: rest, h, e, he => by
    obtain ⟨hfirst, hrest⟩ := List.forall_mem_cons.1 h
    rw [Json.entitiesOfItems] at he
    rcases List.mem_append.1 he with he | he
    · exact hgood.entities v hfirst e he
    · exact hgood.entitiesOfItems rest hrest e he

end

theorem mem_entities_of_stored {v : Json} {e : ObjectRef × Json.Fields} (h : e ∈ v.storedEntities) :
    e ∈ v.entities := by
  rw [storedEntities] at h
  split at h
  · exact h
  · cases h

end Json

namespace Cache

variable {c d : Cache}

/-! ## Stored values -/

/-- Each root entry and each field of an object has the property. -/
structure Stores (c : Cache) (good : Json → Prop) : Prop where
  root : ∀ name v, c.root.get? name = some v → good v
  objects : ∀ id r, c.objects.get? id = some r → ∀ key v, r.get? key = some v → good v

theorem stores_new (policies : Policies) (good : Json → Prop) : (new policies).Stores good := by
  refine ⟨fun name v h => ?_, fun id r h => ?_⟩
  · cases h
  · cases h

namespace Stores

variable {good : Json → Prop}

theorem of_sameStore (h : c.Stores good) (hsame : SameStore c d)
    (hroot : ∀ name v, d.root.get? name = some v → good v) : d.Stores good :=
  ⟨hroot, fun id r hr => h.objects id r (hsame.objects ▸ hr)⟩

theorem extract (h : c.Stores good) :
    ∀ id r, c.extract.objects.get? id = some r → ∀ key v, r.get? key = some v → good v := by
  intro id r hr
  rw [Cache.extract, SortedMap.get?_insert] at hr
  split at hr
  · cases hr
    exact h.root
  · exact h.objects id r hr

theorem of_sameRoot (h : c.Stores good) (hsame : SameRoot c d)
    (hobjects : ∀ id r, d.objects.get? id = some r → ∀ key v, r.get? key = some v → good v) :
    d.Stores good :=
  ⟨fun name v hv => h.root name v (hsame.root ▸ hv), hobjects⟩

theorem applyToField (h : c.Stores good) (obj : ObjectRef) (field : String) {u : FieldUpdate}
    (hu : ∀ v, u = .set v → good v) : (c.applyToField obj field u).Stores good := by
  refine h.of_sameRoot (sameRoot_applyToField c obj field u).1 fun id r hr key v hv => ?_
  rw [get?_applyToField] at hr
  obtain ⟨old, hold, rfl⟩ := Option.map_eq_some_iff.1 hr
  have hbefore := h.objects id old hold key v
  split at hv
  · cases u with
    | keep => exact hbefore hv
    | set w =>
      simp only [SortedMap.get?_insert] at hv
      split at hv
      · cases hv
        exact hu _ rfl
      · exact hbefore hv
    | delete =>
      simp only [SortedMap.get?_erase] at hv
      split at hv
      · cases hv
      · exact hbefore hv
  · exact hbefore hv

theorem modifyField (h : c.Stores good) (obj : ObjectRef) (field : String)
    {change : Json → FieldUpdate} (hchange : ∀ v w, good v → change v = .set w → good w) :
    (c.modifyField obj field change).2.Stores good := by
  rw [Cache.modifyField]
  split
  · exact h
  · rename_i v hv
    obtain ⟨r, hr, hfield⟩ := Option.bind_eq_some_iff.1 hv
    exact h.applyToField obj field fun w hw => hchange v w (h.objects _ r hr field v hfield) hw

theorem evictField (h : c.Stores good) (obj : ObjectRef) (field : String) :
    (c.evictField obj field).2.Stores good :=
  h.modifyField obj field fun v w _ hw => by cases hw

theorem evictObject (h : c.Stores good) (obj : ObjectRef) : (c.evictObject obj).2.Stores good := by
  refine h.of_sameRoot (sameRoot_evictObject c obj) fun id r hr => ?_
  rw [get?_evictObject] at hr
  split at hr
  · cases hr
  · exact h.objects id r hr

theorem collect (h : c.Stores good) : c.collect.2.Stores good := by
  refine h.of_sameRoot (sameRoot_collect c) fun id r hr => ?_
  rw [get?_collect] at hr
  split at hr
  · exact h.objects id r hr
  · cases hr

theorem modifyRoot (h : c.Stores good) (field : String) {change : String → Json → FieldUpdate}
    (hchange : ∀ name v w, good v → change name v = .set w → good w) :
    (c.modifyRoot field change).2.Stores good := by
  refine h.of_sameStore (sameStore_modifyRoot c field change) fun name v hv => ?_
  rcases root_modifyRoot hv with hold | ⟨old, hold, hu⟩
  · exact h.root name v hold
  · exact hchange name old v (h.root name old hold) hu

theorem evictRoot (h : c.Stores good) (field : String) : (c.evictRoot field).2.Stores good :=
  h.modifyRoot field fun name v w _ hw => by cases hw

theorem mergeObject (h : c.Stores good) (htext : ∀ s, good (.string s)) (obj : ObjectRef)
    {fields : Json.Fields} (hfields : ∀ m ∈ fields, good m.2) :
    (c.mergeObject obj fields).Stores good := by
  refine ⟨h.root, fun id r hr key v hv => ?_⟩
  unfold Cache.mergeObject at hr
  simp only [SortedMap.get?_insert] at hr
  split at hr
  · cases hr
    rw [SortedMap.get?_insertAll, Option.or_eq_some_iff] at hv
    rcases hv with hnew | ⟨-, hold⟩
    · exact hfields _ (List.mem_reverse.1 (Assoc.mem_of_get? hnew))
    · cases hpresent : c.objects.get? obj.cacheId with
      | some present =>
        rw [hpresent] at hold
        exact h.objects _ present hpresent key v hold
      | none =>
        rw [hpresent] at hold
        have hmem := (SortedMap.get?_eq_some_iff_mem _ _ _).1 hold
        cases List.mem_singleton.1 hmem
        exact htext _
  · exact h.objects id r hr key v hv

theorem storeEntities (h : c.Stores good) (htext : ∀ s, good (.string s)) {v : Json}
    (hv : ∀ e ∈ v.entities, ∀ m ∈ e.2, good m.2) : (c.storeEntities v).Stores good := by
  rw [Cache.storeEntities]
  generalize v.entities = found at hv
  induction found generalizing c with
  | nil => exact h
  | cons e rest ih =>
    obtain ⟨hfirst, hrest⟩ := List.forall_mem_cons.1 hv
    exact ih (h.mergeObject htext e.1 hfirst) hrest

theorem writeObject (h : c.Stores good) (htext : ∀ s, good (.string s)) {v : Json}
    (hv : ∀ e ∈ v.storedEntities, ∀ m ∈ e.2, good m.2) : (c.writeObject v).2.Stores good := by
  rw [Json.storedEntities] at hv
  rw [Cache.writeObject]
  cases hobj : ObjectRef.identify? v with
  | none => exact h
  | some obj =>
    rw [hobj] at hv
    exact h.storeEntities htext hv

theorem writeRoot (h : c.Stores good) (htext : ∀ s, good (.string s)) (field : String)
    (args : Option Json) {data : Json} (hdata : good data.normalized)
    (hmembers : ∀ e ∈ data.entities, ∀ m ∈ e.2, good m.2) : (c.writeRoot field args data).Stores good := by
  have hstored := h.storeEntities htext hmembers
  refine ⟨fun name v hv => ?_, hstored.objects⟩
  unfold Cache.writeRoot at hv
  simp only [SortedMap.get?_insert] at hv
  split at hv
  · cases hv
    exact hdata
  · exact hstored.root name v hv

theorem writeField (h : c.Stores good) (htext : ∀ s, good (.string s)) (obj : ObjectRef) (field : String)
    {v : Json} (hv : good v.normalized) (hmembers : ∀ e ∈ v.entities, ∀ m ∈ e.2, good m.2) :
    (c.writeField obj field v).2.Stores good := by
  rw [Cache.writeField]
  split
  · refine (h.storeEntities htext hmembers).applyToField obj field (u := .set v.normalized) fun w hw => ?_
    cases hw
    exact hv
  · exact h

end Stores

/-! ## Recorded shapes -/

def Records (c : Cache) (good : Shape → Prop) : Prop :=
  ∀ name shape, c.selections.get? name = some shape → good shape

theorem records_new (policies : Policies) (good : Shape → Prop) : (new policies).Records good := by
  intro name shape h
  cases h

namespace Records

variable {good : Shape → Prop}

theorem of_sameRoot (h : c.Records good) (hsame : SameRoot c d) : d.Records good := by
  intro name shape hshape
  rw [hsame.selections] at hshape
  exact h name shape hshape

theorem writeRoot (h : c.Records good) (field : String) (args : Option Json) {data : Json}
    (hdata : good (Shape.ofData data)) : (c.writeRoot field args data).Records good := by
  have hstored := h.of_sameRoot (sameRoot_storeEntities c data)
  intro name shape hshape
  unfold Cache.writeRoot at hshape
  simp only [SortedMap.get?_insert] at hshape
  split at hshape
  · cases hshape
    exact hdata
  · exact hstored name shape hshape

theorem modifyRoot (h : c.Records good) (field : String) (change : String → Json → FieldUpdate) :
    (c.modifyRoot field change).2.Records good :=
  fun name shape hshape => h name shape (selections_modifyRoot hshape)

theorem writeField (h : c.Records good) (obj : ObjectRef) (field : String) (v : Json) :
    (c.writeField obj field v).2.Records good := by
  rw [Cache.writeField]
  split
  · have hset := (sameRoot_applyToField (c.storeEntities v) obj field (.set v.normalized)).1
    exact h.of_sameRoot ((sameRoot_storeEntities c v).trans hset)
  · exact h

end Records

def Op.RecordsOnly (good : Shape → Prop) : Op → Prop
  | writeRoot _ _ data => good (Shape.ofData data)
  | restore _ => False
  | _ => True

theorem Records.op {good : Shape → Prop} (h : c.Records good) {op : Op} (hop : op.RecordsOnly good) :
    (op.run c).Records good := by
  cases op with
  | writeObject v => exact h.of_sameRoot (sameRoot_writeObject c v)
  | writeRoot field args data => exact h.writeRoot field args hop
  | writeField obj field v => exact h.writeField obj field v
  | modifyField obj field change => exact h.of_sameRoot (sameRoot_modifyField c obj field change).1
  | modifyRoot field change => exact h.modifyRoot field change
  | evictObject obj => exact h.of_sameRoot (sameRoot_evictObject c obj)
  | evictField obj field => exact h.of_sameRoot (sameRoot_modifyField c obj field _).1
  | evictRoot field => exact h.modifyRoot field _
  | retain obj => exact h
  | release obj => exact h
  | collect => exact h.of_sameRoot (sameRoot_collect c)
  | reset => exact records_new c.policies good
  | restore s => exact hop.elim

/-! ## Keys of objects -/

def Op.storedEntities (c : Cache) : Op → List (ObjectRef × Json.Fields)
  | writeObject v => v.storedEntities
  | writeRoot _ _ data => data.entities
  | writeField obj _ v => if c.contains obj then v.entities else []
  | _ => []

theorem keyed_new (policies : Policies) : (new policies).Keyed := by
  intro id r h
  cases h

namespace Keyed

theorem of_typed (h : c.Keyed)
    (hobjects : ∀ id r, d.objects.get? id = some r →
      ∃ old, c.objects.get? id = some old ∧ r.get? "__typename" = old.get? "__typename") : d.Keyed := by
  intro id r hr
  obtain ⟨old, hold, htype⟩ := hobjects id r hr
  obtain ⟨obj, hobj, hid, hnamed⟩ := h id old hold
  exact ⟨obj, hobj, hid, htype.trans hnamed⟩

theorem of_same (h : c.Keyed) (hobjects : d.objects = c.objects) : d.Keyed :=
  h.of_typed fun _ r hr => ⟨r, hobjects ▸ hr, rfl⟩

theorem applyToField (h : c.Keyed) (obj : ObjectRef) {field : String} (hfield : field ∉ identityFields)
    (u : FieldUpdate) : (c.applyToField obj field u).Keyed := by
  have hne : "__typename" ≠ field := fun heq => hfield (heq ▸ List.mem_cons_self)
  refine h.of_typed fun id r hr => ?_
  rw [get?_applyToField] at hr
  obtain ⟨old, hold, rfl⟩ := Option.map_eq_some_iff.1 hr
  refine ⟨old, hold, ?_⟩
  split
  · cases u with
    | keep => rfl
    | set v => exact SortedMap.get?_insert_of_ne old hne v
    | delete => exact SortedMap.get?_erase_of_ne old hne
  · rfl

theorem modifyField (h : c.Keyed) (obj : ObjectRef) {field : String} (hfield : field ∉ identityFields)
    (change : Json → FieldUpdate) : (c.modifyField obj field change).2.Keyed := by
  rw [Cache.modifyField]
  split
  · exact h
  · exact h.applyToField obj hfield _

theorem mergeObject (h : c.Keyed) {obj : ObjectRef} {fields : Json.Fields} (hid : obj.id ≠ "")
    (hnodup : (fields.map (·.1)).Nodup)
    (htype : Assoc.get? "__typename" fields = some (.string obj.typename.name)) :
    (c.mergeObject obj fields).Keyed := by
  intro id r hr
  unfold Cache.mergeObject at hr
  simp only [SortedMap.get?_insert] at hr
  split at hr
  · rename_i heq
    cases hr
    refine ⟨obj, heq.symm, hid, ?_⟩
    rw [SortedMap.get?_insertAll, Assoc.get?_reverse hnodup, htype, Option.some_or]
  · exact h id r hr

theorem storeEntities (h : c.Keyed) {v : Json} (hsorted : v.Sorted)
    (hids : ∀ e ∈ v.entities, e.1.id ≠ "") : (c.storeEntities v).Keyed := by
  have htyped : ∀ e ∈ v.entities,
      Assoc.get? "__typename" e.2 = some (.string e.1.typename.name) :=
    fun _ he => Json.typename_of_entities he
  have hnodup := Json.nodup_keys_of_entities v hsorted
  rw [Cache.storeEntities]
  generalize v.entities = found at hids htyped hnodup
  induction found generalizing c with
  | nil => exact h
  | cons e rest ih =>
    obtain ⟨hid, hids⟩ := List.forall_mem_cons.1 hids
    obtain ⟨htype, htyped⟩ := List.forall_mem_cons.1 htyped
    obtain ⟨hkeys, hnodup⟩ := List.forall_mem_cons.1 hnodup
    exact ih (h.mergeObject hid hkeys htype) hids htyped hnodup

theorem writeObject (h : c.Keyed) {v : Json} (hsorted : v.Sorted)
    (hids : ∀ e ∈ v.storedEntities, e.1.id ≠ "") : (c.writeObject v).2.Keyed := by
  rw [Json.storedEntities] at hids
  rw [Cache.writeObject]
  cases hobj : ObjectRef.identify? v with
  | none => exact h
  | some obj =>
    rw [hobj] at hids
    exact h.storeEntities hsorted hids

theorem op (h : c.Keyed) {op : Op} (hop : op.KeepsRows)
    (hids : ∀ e ∈ op.storedEntities c, e.1.id ≠ "") : (op.run c).Keyed := by
  cases op with
  | writeObject v => exact h.writeObject hop hids
  | writeRoot field args data => exact (h.storeEntities hop hids).of_same rfl
  | writeField obj field v =>
    rw [Op.run, Cache.writeField]
    rw [Op.storedEntities] at hids
    split
    · rename_i hcontains
      rw [if_pos hcontains] at hids
      exact (h.storeEntities hop.2 hids).applyToField obj hop.1 (.set v.normalized)
    · exact h
  | modifyField obj field change => exact h.modifyField obj hop.1 change
  | modifyRoot field change => exact h.of_same (sameStore_modifyRoot c field change).objects
  | evictObject obj =>
    -- Records that are left are as they were.
    refine h.of_typed fun id r hr => ?_
    rw [Op.run, get?_evictObject] at hr
    split at hr
    · cases hr
    · exact ⟨r, hr, rfl⟩
  | evictField obj field => exact h.modifyField obj hop _
  | evictRoot field => exact h.of_same (sameStore_evictRoot c field).objects
  | retain obj | release obj => exact h
  | collect =>
    refine h.of_typed fun id r hr => ⟨r, ?_, rfl⟩
    rw [Op.run, get?_collect] at hr
    split at hr
    · exact hr
    · cases hr
  | reset => exact keyed_new c.policies
  | restore s => exact hop.elim

end Keyed

end Cache

end MediaCache
