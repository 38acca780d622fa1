import MediaCache.Proofs.Store.ReadBack
import MediaCache.Proofs.Store.Rewrite
import MediaCache.Proofs.Store.Rows

/-!
# What can be read again

A read right after a write may still be missing. The shape of a list selects on every element whatever
any element has, and where a row occurs more than once the last value of a field is the one that is
stored. Here is what the data has to be like for the read to find all it needs, whatever the cache held.
-/

namespace MediaCache

/-- What merging all of these leaves of one row: of each field the value that was written last. -/
def lastWritten (rows : List (ObjectRef × Json.Fields)) (id : String) : Record :=
  SortedMap.ofList ((rows.filter fun e => e.1.cacheId == id).flatMap (·.2))

namespace Shape

mutual

/-- The value can be read under the shape from these rows alone: of each object the selected fields are
there, and the value that a field was written last can be read in turn. -/
def readableFrom (rows : List (ObjectRef × Json.Fields)) (v : Json) : Shape → Bool
  | leaf => true
  | object selected =>
    match v with
    | .object fields =>
      match referenceId? (.object fields) with
      | some id => selectableFrom rows (lastWritten rows id).entries selected
      | none => selectableFrom rows fields selected
    | _ => true
  | list element =>
    match v with
    | .array items => items.all fun item => readableFrom rows item element
    | _ => true

def selectableFrom (rows : List (ObjectRef × Json.Fields)) (fields : Json.Fields) :
    List (String × Shape) → Bool
  | [] => true
  | (key, shape) :: rest =>
    (Assoc.get? key fields).any (fun v => readableFrom rows v shape) && selectableFrom rows fields rest

end

end Shape

/-- The data can be read again after it was written. -/
def Json.Rereadable (data : Json) : Prop :=
  (Shape.ofData data).readableFrom data.entities data.normalized = true

instance (data : Json) : Decidable data.Rereadable := inferInstanceAs (Decidable (_ = _))

theorem lastWritten_cacheId (rows : List (ObjectRef × Json.Fields)) (obj : ObjectRef) :
    lastWritten rows obj.cacheId = SortedMap.ofList (Cache.fieldsFor obj rows) := by
  have hsame : ∀ e ∈ rows, (e.1.cacheId == obj.cacheId) = decide (e.1 = obj) := by
    intro e _
    rw [Bool.eq_iff_iff, beq_iff_eq, decide_eq_true_iff, ObjectRef.cacheId_eq_iff]
  rw [lastWritten, Cache.fieldsFor, List.filter_congr hsame]

theorem exists_of_get?_lastWritten {rows : List (ObjectRef × Json.Fields)} {id key : String} {v : Json}
    (h : (lastWritten rows id).get? key = some v) :
    ∃ e ∈ rows, e.1.cacheId = id ∧ (key, v) ∈ e.2 := by
  obtain ⟨e, he, hkey⟩ := List.mem_flatMap.1 (SortedMap.mem_of_get?_ofList h)
  rw [List.mem_filter, beq_iff_eq] at he
  exact ⟨e, he.1, he.2, hkey⟩

theorem isSome_get?_lastWritten {rows : List (ObjectRef × Json.Fields)} {e : ObjectRef × Json.Fields}
    (he : e ∈ rows) {key : String} {v : Json} (hv : (key, v) ∈ e.2) :
    ((lastWritten rows e.1.cacheId).get? key).isSome = true := by
  rw [lastWritten, SortedMap.get?_ofList, Assoc.get?_isSome_iff, List.map_reverse, List.mem_reverse]
  have hrow : e ∈ rows.filter fun f => f.1.cacheId == e.1.cacheId :=
    List.mem_filter.2 ⟨he, beq_self_eq_true _⟩
  exact List.mem_map_of_mem (List.mem_flatMap.2 ⟨e, hrow, hv⟩)

def FieldsWithin (known stored : Json.Fields) : Prop :=
  ∀ key v, Assoc.get? key known = some v → Assoc.get? key stored = some v

instance (known stored : Json.Fields) : Decidable (FieldsWithin known stored) :=
  decidable_of_iff (∀ e ∈ known, ∀ v, Assoc.get? e.1 known = some v → Assoc.get? e.1 stored = some v)
    ⟨fun h key v hv => h (key, v) (Assoc.mem_of_get? hv) v hv, fun h e _ v hv => h e.1 v hv⟩

namespace Cache

variable {c : Cache} {rows : List (ObjectRef × Json.Fields)}

/-! ## What a write leaves of each row -/

theorem fieldValue?_mergeAll (c : Cache) {e : ObjectRef × Json.Fields} (he : e ∈ rows) (key : String) :
    (c.mergeAll rows).fieldValue? e.1 key =
      ((lastWritten rows e.1.cacheId).get? key).or ((c.present e.1).get? key) := by
  rw [fieldValue?, get?_mergeAll, if_pos (List.mem_map_of_mem he), Option.bind_some,
    SortedMap.get?_insertAll, lastWritten_cacheId, SortedMap.get?_ofList]

def KeepsLast (c : Cache) (rows : List (ObjectRef × Json.Fields)) : Prop :=
  ∀ id record, c.objects.get? id = some record →
    FieldsWithin (lastWritten rows id).entries record.entries

def KeepsOnlyLast (c : Cache) (rows : List (ObjectRef × Json.Fields)) : Prop :=
  ∀ id record, c.objects.get? id = some record →
    FieldsWithin record.entries (lastWritten rows id).entries

theorem keepsLast_mergeAll (c : Cache) (rows : List (ObjectRef × Json.Fields)) :
    (c.mergeAll rows).KeepsLast rows := by
  intro id record h key v hv
  obtain ⟨e, he, rfl, -⟩ := exists_of_get?_lastWritten hv
  have hmerged := fieldValue?_mergeAll c he key
  rw [fieldValue?, get?_eq, h, Option.bind_some] at hmerged
  exact hmerged.trans (Option.or_eq_some_iff.2 (.inl hv))

theorem keepsOnlyLast_storeEntities (policies : Policies) (data : Json) :
    ((new policies).storeEntities data).KeepsOnlyLast data.entities := by
  intro id record h key v hv
  have hstored := (contains_storeEntities (new policies) data id).1 (Option.isSome_of_eq_some h)
  obtain ⟨e, he, rfl⟩ : ∃ e ∈ data.entities, id = e.1.cacheId := by
    rcases hstored with hrow | hold
    · exact hrow
    · cases hold
  have hmerged := fieldValue?_mergeAll (new policies) he key
  have hrecord : ((new policies).mergeAll data.entities).objects.get? e.1.cacheId = some record := h
  rw [fieldValue?, get?_eq, hrecord, Option.bind_some] at hmerged
  rcases Option.or_eq_some_iff.1 (hmerged.symm.trans hv) with hwritten | ⟨hnone, hold⟩
  · exact hwritten
  -- A new object starts with its type, which every row of the data gives again.
  · have hkey : (key, v) ∈ [("__typename", Json.string e.1.typename.name)] := Assoc.mem_of_get? hold
    obtain ⟨rfl, -⟩ := Prod.mk.inj (List.mem_singleton.1 hkey)
    have htyped := isSome_get?_lastWritten he (Assoc.mem_of_get? (Json.typename_of_entities he))
    rw [hnone] at htyped
    cases htyped

/-! ## Reading from what is stored -/

/-- Every reference in the data leads to a stored object. -/
def NoDangling (c : Cache) (v : Json) : Prop := ∀ id ∈ v.references, c.objects.contains id = true

theorem NoDangling.member {fields : Json.Fields} {e : String × Json}
    (h : ∀ id ∈ Json.referencesOfFields fields, c.objects.contains id = true) (he : e ∈ fields) :
    c.NoDangling e.2 :=
  fun id hid => h id (Json.mem_referencesOfFields.2 ⟨e, he, hid⟩)

theorem NoDangling.item {items : List Json} (h : c.NoDangling (.array items)) {v : Json}
    (hv : v ∈ items) : c.NoDangling v :=
  fun id hid => h id (Json.references_of_item hv hid)

theorem NoDangling.canRead {v : Json} (h : c.NoDangling v) : c.canRead v = true :=
  canRead_iff.2 fun id hid => h id (Json.mem_references_of_referenceId? hid)

/-- The values of these rows lead to stored objects only. -/
def Closed (c : Cache) (rows : List (ObjectRef × Json.Fields)) : Prop :=
  ∀ e ∈ rows, ∀ id ∈ Json.referencesOfFields e.2, c.objects.contains id = true

theorem Closed.lastWritten (h : c.Closed rows) {id key : String} {v : Json}
    (hv : Assoc.get? key (lastWritten rows id).entries = some v) : c.NoDangling v := by
  obtain ⟨e, he, -, hmem⟩ := exists_of_get?_lastWritten hv
  exact NoDangling.member (h e he) hmem

theorem NoDangling.fields {fields : Json.Fields} (h : c.NoDangling (.object fields))
    (hid : referenceId? (.object fields) = none) {key : String} {v : Json}
    (hv : Assoc.get? key fields = some v) : c.NoDangling v := by
  rw [NoDangling, Json.references, hid] at h
  exact NoDangling.member h (Assoc.mem_of_get? hv)

mutual

/-- What the rows say is enough, if it is stored. -/
theorem isSome_readValue (hclosed : c.Closed rows) (hkeeps : c.KeepsLast rows) :
    ∀ (shape : Shape) {parent : Option Typename} {field : String} {v : Json}, c.NoDangling v →
      shape.readableFrom rows v = true → (c.readValue parent field v shape).isSome = true
  | .leaf, parent, field, v, hv, _ => by
    rw [readValue_leaf]
    exact isSome_readUntracked v hv.canRead
  | .object selected, parent, field, v, hv, h => by
    cases v with
    | object fields =>
      rw [Shape.readableFrom] at h
      rw [readValue]
      cases hid : referenceId? (.object fields) with
      | none =>
        simp only [hid] at h ⊢
        rw [readSelected, Option.isSome_map]
        exact isSome_readFields hclosed hkeeps selected (fun _ _ hw => hw) (hv.fields hid) h
      | some id =>
        simp only [hid] at h ⊢
        -- The reference leads to a stored row, which has at least what was written last.
        obtain ⟨record, hrecord⟩ := Option.isSome_iff_exists.1 (canRead_iff.1 hv.canRead id hid)
        simp only [hrecord]
        rw [readSelected, Option.isSome_map]
        exact isSome_readFields hclosed hkeeps selected (hkeeps id record hrecord)
          hclosed.lastWritten h
    | _ =>
      rw [readValue_object_of_not_object rfl]
      exact isSome_readUntracked _ hv.canRead
  | .list element, parent, field, v, hv, h => by
    cases v with
    | array items =>
      rw [Shape.readableFrom, List.all_eq_true] at h
      rw [readValue, Option.isSome_map]
      refine isSome_mapM fun item hitem => ?_
      -- A reader drops items that lead nowhere, and here none does.
      have hin := (List.mem_filter.1 hitem).1
      exact isSome_readValue hclosed hkeeps element (hv.item hin) (h item hin)
    | _ =>
      rw [readValue_list_of_not_array rfl]
      exact isSome_readUntracked _ hv.canRead

theorem isSome_readFields (hclosed : c.Closed rows) (hkeeps : c.KeepsLast rows) :
    ∀ (selected : List (String × Shape)) {known stored : Json.Fields}, FieldsWithin known stored →
      (∀ {key v}, Assoc.get? key known = some v → c.NoDangling v) →
      Shape.selectableFrom rows known selected = true → ∀ {parent : Option Typename}
      {read : Json.Fields}, (c.readFields parent stored selected read).isSome = true
  | [], known, stored, _, _, _, parent, read => by
    rw [readFields]
    rfl
  | (key, shape) :: rest, known, stored, hwithin, hknown, h, parent, read => by
    rw [Shape.selectableFrom, Bool.and_eq_true, Option.any_eq_true] at h
    obtain ⟨⟨v, hv, hreadable⟩, hrest⟩ := h
    have hsome : (c.readValue parent key v shape).isSome = true :=
      isSome_readValue hclosed hkeeps shape (hknown hv) hreadable
    obtain ⟨w, hw⟩ := Option.isSome_iff_exists.1 hsome
    rw [readFields, hwithin key v hv, Option.bind_some, hw, Option.bind_some]
    exact isSome_readFields hclosed hkeeps rest hwithin hknown hrest

end

mutual

/-- What is stored is needed, if the rows are all there is. -/
theorem readableFrom_of_isSome (hclosed : c.Closed rows) (honly : c.KeepsOnlyLast rows) :
    ∀ (shape : Shape) {parent : Option Typename} {field : String} {v : Json}, c.NoDangling v →
      (c.readValue parent field v shape).isSome = true → shape.readableFrom rows v = true
  | .leaf, parent, field, v, hv, _ => by rw [Shape.readableFrom]
  | .object selected, parent, field, v, hv, h => by
    cases v with
    | object fields =>
      rw [Shape.readableFrom]
      rw [readValue] at h
      cases hid : referenceId? (.object fields) with
      | none =>
        simp only [hid, readSelected, Option.isSome_map] at h ⊢
        exact selectableFrom_of_isSome hclosed honly selected (fun _ _ hw => hw) (hv.fields hid) h
      | some id =>
        -- The row holds what was written last and nothing else, so each selected field was in the data.
        obtain ⟨record, hrecord⟩ := Option.isSome_iff_exists.1 (canRead_iff.1 hv.canRead id hid)
        simp only [hid, hrecord, readSelected, Option.isSome_map] at h ⊢
        exact selectableFrom_of_isSome hclosed honly selected (honly id record hrecord)
          hclosed.lastWritten h
    | _ => simp only [Shape.readableFrom]
  | .list element, parent, field, v, hv, h => by
    cases v with
    | array items =>
      rw [Shape.readableFrom, List.all_eq_true]
      rw [readValue, Option.isSome_map] at h
      intro item hin
      have hitem : item ∈ items.filter c.canRead := List.mem_filter.2 ⟨hin, (hv.item hin).canRead⟩
      exact readableFrom_of_isSome hclosed honly element (hv.item hin) (isSome_of_mem_mapM h item hitem)
    | _ => simp only [Shape.readableFrom]

theorem selectableFrom_of_isSome (hclosed : c.Closed rows) (honly : c.KeepsOnlyLast rows) :
    ∀ (selected : List (String × Shape)) {known stored : Json.Fields}, FieldsWithin stored known →
      (∀ {key v}, Assoc.get? key known = some v → c.NoDangling v) → ∀ {parent : Option Typename}
      {read : Json.Fields}, (c.readFields parent stored selected read).isSome = true →
      Shape.selectableFrom rows known selected = true
  | [], known, stored, _, _, parent, read, _ => by rw [Shape.selectableFrom]
  | (key, shape) :: rest, known, stored, hwithin, hknown, parent, read, h => by
    obtain ⟨out, hout⟩ := Option.isSome_iff_exists.1 h
    rw [readFields] at hout
    obtain ⟨v, hv, hout⟩ := Option.bind_eq_some_iff.1 hout
    obtain ⟨w, hw, hrest⟩ := Option.bind_eq_some_iff.1 hout
    have hfield := hwithin key v hv
    rw [Shape.selectableFrom, Bool.and_eq_true, Option.any_eq_true]
    refine ⟨⟨v, hfield, ?_⟩, ?_⟩
    · exact readableFrom_of_isSome hclosed honly shape (hknown hfield) (Option.isSome_of_eq_some hw)
    · exact selectableFrom_of_isSome hclosed honly rest hwithin hknown (Option.isSome_of_eq_some hrest)

end

theorem closed_writeRoot (c : Cache) (field : String) (args : Option Json) {data : Json}
    (h : data.references = []) :
    (c.writeRoot field args data).Closed data.entities ∧
      (c.writeRoot field args data).NoDangling data.normalized := by
  have hstored : ∀ e ∈ data.entities,
      (c.writeRoot field args data).objects.contains e.1.cacheId = true :=
    fun e he => (contains_storeEntities c data _).2 (.inl ⟨e, he, rfl⟩)
  refine ⟨fun e he id hid => ?_, fun id hid => ?_⟩
  · obtain ⟨f, hf, rfl⟩ := Json.mem_references_of_entity h he id hid
    exact hstored f hf
  · obtain ⟨e, he, rfl⟩ := Json.mem_references_normalized data h id hid
    exact hstored e he

theorem readRoot_writeRoot_eq (c : Cache) (field : String) (args : Option Json) {data : Json}
    (h : data.references = []) :
    (c.writeRoot field args data).readRoot field args =
      .ofOption ((c.writeRoot field args data).readValue none field data.normalized
        (Shape.ofData data)) := by
  have hroot : (c.writeRoot field args data).root.get? (storeFieldName field args) =
      some data.normalized := SortedMap.get?_insert_self _ _ _
  have hshape : (c.writeRoot field args data).selections.get? (storeFieldName field args) =
      some (Shape.ofData data) := SortedMap.get?_insert_self _ _ _
  have hcan := (c.closed_writeRoot field args h).2.canRead
  unfold readRoot
  simp only [hroot, hshape, Option.getD_some, Option.filter_some, hcan, if_true]
  split <;> rfl

/-- A query result that was just written is found again, whatever the cache held and whatever its
policies. -/
theorem readRoot_writeRoot_hits (c : Cache) (field : String) (args : Option Json) {data : Json}
    (hreferences : data.references = []) (hreadable : data.Rereadable) :
    ∃ v, (c.writeRoot field args data).readRoot field args = .hit v := by
  obtain ⟨hclosed, hdangling⟩ := c.closed_writeRoot field args hreferences
  have hkeeps : (c.writeRoot field args data).KeepsLast data.entities := keepsLast_mergeAll c _
  have hsome : ((c.writeRoot field args data).readValue none field data.normalized
      (Shape.ofData data)).isSome = true :=
    isSome_readValue hclosed hkeeps (Shape.ofData data) hdangling hreadable
  obtain ⟨v, hv⟩ := Option.isSome_iff_exists.1 hsome
  exact ⟨v, by rw [readRoot_writeRoot_eq c field args hreferences, hv]; rfl⟩

/-- A cache that held nothing finds it only then. -/
theorem rereadable_of_hit (policies : Policies) (field : String) (args : Option Json) {data v : Json}
    (hreferences : data.references = [])
    (h : ((new policies).writeRoot field args data).readRoot field args = .hit v) :
    data.Rereadable := by
  obtain ⟨hclosed, hdangling⟩ := (new policies).closed_writeRoot field args hreferences
  have honly : ((new policies).writeRoot field args data).KeepsOnlyLast data.entities :=
    keepsOnlyLast_storeEntities policies data
  rw [readRoot_writeRoot_eq _ field args hreferences] at h
  cases hread : ((new policies).writeRoot field args data).readValue none field data.normalized
      (Shape.ofData data) with
  | none =>
    rw [hread] at h
    cases h
  | some w =>
    exact readableFrom_of_isSome hclosed honly _ hdangling (Option.isSome_of_eq_some hread)

/-! ## Running a read on what is stored -/

/-- The stored objects that are named by the id they are stored under. -/
def storedRows (c : Cache) : List (ObjectRef × Json.Fields) :=
  c.objects.entries.filterMap fun e => (ObjectRef.ofCacheId? e.1).map (·, e.2.entries)

theorem get?_of_mem_storedRows {e : ObjectRef × Json.Fields} (h : e ∈ c.storedRows) :
    ∃ record, c.objects.get? e.1.cacheId = some record ∧ record.entries = e.2 := by
  obtain ⟨stored, hstored, he⟩ := List.mem_filterMap.1 h
  obtain ⟨obj, hobj, rfl⟩ := Option.map_eq_some_iff.1 he
  rw [(ObjectRef.cacheId_of_ofCacheId? hobj).1]
  exact ⟨stored.2, (SortedMap.get?_eq_some_iff_mem _ _ _).2 hstored, rfl⟩

theorem keepsLast_storedRows (c : Cache) : c.KeepsLast c.storedRows := by
  intro id record hrecord key v hv
  obtain ⟨e, he, rfl, hmem⟩ := exists_of_get?_lastWritten hv
  obtain ⟨stored, hstored, hentries⟩ := get?_of_mem_storedRows he
  cases hrecord.symm.trans hstored
  rw [← hentries] at hmem
  exact Assoc.get?_eq_of_mem record.ordered.nodup_keys hmem

/-- Every object is named by the id it is stored under, and refers to stored objects only. -/
structure Settled (c : Cache) : Prop where
  named : ∀ e ∈ c.objects.entries, (ObjectRef.ofCacheId? e.1).isSome = true
  closed : c.Closed c.storedRows

instance (c : Cache) : Decidable c.Settled :=
  decidable_of_iff ((∀ e ∈ c.objects.entries, (ObjectRef.ofCacheId? e.1).isSome = true) ∧
      ∀ e ∈ c.storedRows, ∀ id ∈ Json.referencesOfFields e.2, c.objects.contains id = true)
    ⟨fun h => ⟨h.1, h.2⟩, fun h => ⟨h.named, h.closed⟩⟩

theorem Settled.keepsOnlyLast (h : c.Settled) : c.KeepsOnlyLast c.storedRows := by
  intro id record hrecord key v hv
  have hmem := (SortedMap.get?_eq_some_iff_mem _ _ _).1 hrecord
  obtain ⟨obj, hobj⟩ := Option.isSome_iff_exists.1 (h.named _ hmem)
  have hrow : (obj, record.entries) ∈ c.storedRows :=
    List.mem_filterMap.2 ⟨_, hmem, by rw [hobj]; rfl⟩
  have hsome := isSome_get?_lastWritten hrow (Assoc.mem_of_get? hv)
  obtain rfl := (ObjectRef.cacheId_of_ofCacheId? hobj).1
  obtain ⟨w, hw⟩ := Option.isSome_iff_exists.1 hsome
  have hsame := c.keepsLast_storedRows _ record hrecord key w hw
  rw [hv] at hsame
  cases hsame
  exact hw

/-- Which fields are stored decides whether a query is found. -/
theorem isMissing_readQuery (h : c.Settled) {doc : Document} {args : Option Json} {v : Json}
    (hsource : c.source? doc.rootField args = some v)
    (hv : ∀ id ∈ v.references, c.objects.contains id = true) :
    (c.readQuery doc args).isMissing =
      !((c.selections.get? (storeFieldName doc.rootField args)).getD .leaf).readableFrom c.storedRows
        v := by
  rw [readQuery, readRoot_eq, hsource, Option.bind_some, ReadOutcome.isMissing_ofOption]
  refine congrArg not (Bool.eq_iff_iff.2 ⟨fun hread => ?_, fun hreadable => ?_⟩)
  · exact readableFrom_of_isSome h.closed h.keepsOnlyLast _ hv hread
  · exact isSome_readValue h.closed c.keepsLast_storedRows _ hv hreadable

end Cache

end MediaCache
