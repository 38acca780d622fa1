import MediaCache.Proofs.Store.Read
import MediaCache.Proofs.Store.Rows

/-!
# A read returns stored rows

Where a row is stored once, every row in what a read returns is stored: a read follows a reference to
its object or leaves it out, and puts no row together from anything else.
-/

namespace MediaCache

namespace Cache

variable {c : Cache} {parent : Option Typename} {field : String}

def HasRows (c : Cache) (v : Json) : Prop :=
  ∀ w ∈ v.parts, ∀ obj, ObjectRef.identify? w = some obj → c.contains obj = true

theorem hasRows_of_rowFree {v : Json} (h : v.RowFree) : c.HasRows v := by
  intro w hw obj hobj
  rw [h w hw] at hobj
  cases hobj

theorem hasRows_null : c.HasRows .null := hasRows_of_rowFree (Json.rowFree_of_isScalar rfl)

theorem hasRows_object_iff {fields : Json.Fields} :
    c.HasRows (.object fields) ↔
      (∀ obj, ObjectRef.identify? (.object fields) = some obj → c.contains obj = true) ∧
        ∀ e ∈ fields, c.HasRows e.2 := by
  unfold HasRows
  simp only [Json.mem_parts_object, forall_eq_or_imp, forall_exists_index, and_imp]
  exact and_congr_right fun _ => ⟨fun h e he w hw => h w e he hw, fun h w e he hw => h e he w hw⟩

theorem hasRows_array {items : List Json} (h : ∀ v ∈ items, c.HasRows v) :
    c.HasRows (.array items) := by
  intro w hw obj hobj
  rcases Json.mem_parts_array.1 hw with rfl | ⟨v, hv, hin⟩
  · cases hobj
  · exact h v hv w hin obj hobj

theorem OneCopy.identified {id : String} {r : Record} (h : c.OneCopy)
    (hr : c.objects.get? id = some r) {obj : ObjectRef}
    (hobj : ObjectRef.identify? (.object r.entries) = some obj) : c.contains obj = true := by
  obtain ⟨known, hknown, hid⟩ := (h.objects id r hr).identified
  have hsame : known = obj := Option.some.inj (hknown.symm.trans hobj)
  rw [contains_eq, ← hsame, hid, SortedMap.contains, hr]
  rfl

theorem OneCopy.rowFree_of_mem {id : String} {r : Record} (h : c.OneCopy)
    (hr : c.objects.get? id = some r) : ∀ e ∈ r.entries, e.2.RowFree := by
  intro e he
  exact (h.objects id r hr).rowFree e.1 e.2 ((SortedMap.get?_eq_some_iff_mem r e.1 e.2).2 he)

theorem OneCopy.hasRows_record {id : String} {r : Record} (h : c.OneCopy)
    (hr : c.objects.get? id = some r) : c.HasRows r.toJson := by
  refine hasRows_object_iff.2 ⟨fun obj hobj => h.identified hr hobj, fun e he => ?_⟩
  exact hasRows_of_rowFree (h.rowFree_of_mem hr e he)

/-! ## Ids are not put together -/

theorem eq_of_readUntracked {v w : Json} (h : c.readUntracked parent field v = some w)
    (hid : (idText? w).isSome = true) : v = w := by
  cases harray : v.asItems? with
  | some items =>
    cases v with
    | array items =>
      rw [readUntracked] at h
      obtain ⟨out, -, rfl⟩ := Option.map_eq_some_iff.1 h
      cases hid
    | _ => cases harray
  | none =>
    rw [readUntracked_of_not_array harray] at h
    split at h
    · exact Option.some.inj h
    · split at h
      · cases h
        cases hid
      · rw [eq_null_of_readDangling h] at hid
        cases hid

theorem eq_of_readValue {v w : Json} {shape : Shape} (h : c.readValue parent field v shape = some w)
    (hid : (idText? w).isSome = true) : v = w := by
  -- An object that is read is neither a text nor a number.
  have hselected : ∀ fields selected, c.readSelected fields selected ≠ some w := by
    intro fields selected hread
    rw [readSelected] at hread
    obtain ⟨out, -, rfl⟩ := Option.map_eq_some_iff.1 hread
    cases hid
  cases shape with
  | leaf =>
    rw [readValue_leaf] at h
    exact eq_of_readUntracked h hid
  | object selected =>
    cases v with
    | object fields =>
      rw [readValue] at h
      split at h
      · exact absurd h (hselected _ _)
      · split at h
        · exact absurd h (hselected _ _)
        · rw [eq_null_of_readDangling h] at hid
          cases hid
    | _ =>
      rw [readValue_object_of_not_object rfl] at h
      exact eq_of_readUntracked h hid
  | list element =>
    cases v with
    | array items =>
      rw [readValue] at h
      obtain ⟨out, -, rfl⟩ := Option.map_eq_some_iff.1 h
      cases hid
    | _ =>
      rw [readValue_list_of_not_array rfl] at h
      exact eq_of_readUntracked h hid

def SameIds (stored read : Json.Fields) : Prop :=
  ∀ key v, Assoc.get? key read = some v → (idText? v).isSome = true → Assoc.get? key stored = some v

theorem SameIds.readFields {fields read out : Json.Fields} {selected : List (String × Shape)}
    (h : SameIds fields read) (hout : c.readFields parent fields selected read = some out) :
    SameIds fields out := by
  induction selected generalizing read with
  | nil =>
    rw [Cache.readFields] at hout
    cases hout
    exact h
  | cons s rest ih =>
    obtain ⟨name, shape⟩ := s
    rw [Cache.readFields] at hout
    obtain ⟨stored, hstored, hout⟩ := Option.bind_eq_some_iff.1 hout
    obtain ⟨v, hv, hout⟩ := Option.bind_eq_some_iff.1 hout
    refine ih (fun key w hw hid => ?_) hout
    by_cases hkey : key = name
    · subst hkey
      rw [Assoc.get?_insert_self] at hw
      cases hw
      rw [hstored, eq_of_readValue hv hid]
    · rw [Assoc.get?_insert_of_ne hkey] at hw
      exact h key w hw hid

theorem identify?_of_sameIds {fields read : Json.Fields} (h : SameIds fields read) {obj : ObjectRef}
    (hobj : ObjectRef.identify? (.object read) = some obj) :
    ObjectRef.identify? (.object fields) = some obj := by
  obtain ⟨htype, v, hv, hid⟩ := ObjectRef.identify?_eq_some_iff.1 hobj
  have htype' := h "__typename" _ htype rfl
  have hv' := h "id" v hv (by rw [hid]; rfl)
  exact ObjectRef.identify?_eq_some_iff.2 ⟨htype', v, hv', hid⟩

/-! ## Rows in what is read -/

mutual

theorem OneCopy.hasRows_readUntracked (h : c.OneCopy) : ∀ (v : Json) {w : Json}, v.RowFree →
    c.readUntracked parent field v = some w → c.HasRows w
  | .array items, w, hfree, hread => by
    rw [readUntracked] at hread
    obtain ⟨out, hout, rfl⟩ := Option.map_eq_some_iff.1 hread
    exact hasRows_array (h.hasRows_readUntrackedItems items (Json.rowFree_array_iff.1 hfree) hout)
  | .object fields, w, hfree, hread => by
    rw [readUntracked_of_not_array rfl] at hread
    split at hread
    · cases hread
      exact hasRows_of_rowFree hfree
    · split at hread
      · rename_i hr
        cases hread
        exact h.hasRows_record hr
      · rw [eq_null_of_readDangling hread]
        exact hasRows_null
  | .null, w, hfree, hread | .bool _, w, hfree, hread | .number _, w, hfree, hread
  | .string _, w, hfree, hread => by
    rw [readUntracked_of_not_array rfl] at hread
    cases hread
    exact hasRows_of_rowFree hfree

theorem OneCopy.hasRows_readUntrackedItems (h : c.OneCopy) : ∀ (items : List Json) {out : List Json},
    (∀ v ∈ items, v.RowFree) → c.readUntrackedItems parent field items = some out →
      ∀ w ∈ out, c.HasRows w
  | [], out, _, hread => by
    cases hread
    intro w hw
    cases hw
  | v :: rest, out, hfree, hread => by
    have hrest := fun u hu => hfree u (List.mem_cons_of_mem v hu)
    rw [readUntrackedItems] at hread
    split at hread
    · obtain ⟨first, hfirst, hread⟩ := Option.bind_eq_some_iff.1 hread
      obtain ⟨more, hmore, rfl⟩ := Option.map_eq_some_iff.1 hread
      intro w hw
      rcases List.mem_cons.1 hw with rfl | hw
      · exact h.hasRows_readUntracked v (hfree v List.mem_cons_self) hfirst
      · exact h.hasRows_readUntrackedItems rest hrest hmore w hw
    · exact h.hasRows_readUntrackedItems rest hrest hread

end

theorem hasRows_readSelected {fields : Json.Fields} {selected : List (String × Shape)} {w : Json}
    (hrow : ∀ obj, ObjectRef.identify? (.object fields) = some obj → c.contains obj = true)
    (hfree : ∀ e ∈ fields, e.2.RowFree)
    (hselected : ∀ {parent read out}, (∀ e ∈ read, c.HasRows e.2) →
      c.readFields parent fields selected read = some out → ∀ e ∈ out, c.HasRows e.2)
    (hread : c.readSelected fields selected = some w) : c.HasRows w := by
  rw [readSelected] at hread
  obtain ⟨out, hout, rfl⟩ := Option.map_eq_some_iff.1 hread
  refine hasRows_object_iff.2 ⟨fun obj hobj => hrow obj (identify?_of_sameIds ?_ hobj), ?_⟩
  · -- Of the two fields that name a row, the read shows what is stored.
    refine SameIds.readFields (fun key v hv _ => ?_) hout
    cases ht : Assoc.get? "__typename" fields with
    | none =>
      rw [ht] at hv
      cases hv
    | some t =>
      rw [ht] at hv
      obtain ⟨rfl, rfl⟩ := Prod.mk.inj (List.mem_singleton.1 (Assoc.mem_of_get? hv))
      exact ht
  · refine hselected (fun e he => ?_) hout
    cases ht : Assoc.get? "__typename" fields with
    | none =>
      rw [ht] at he
      cases he
    | some t =>
      rw [ht] at he
      rw [List.mem_singleton.1 he]
      exact hasRows_of_rowFree (hfree _ (Assoc.mem_of_get? ht))

mutual

theorem OneCopy.hasRows_readValue (h : c.OneCopy) : ∀ (shape : Shape) {parent : Option Typename}
    {field : String} {v w : Json}, v.RowFree → c.readValue parent field v shape = some w → c.HasRows w
  | .leaf, parent, field, v, w, hfree, hread => by
    rw [readValue_leaf] at hread
    exact h.hasRows_readUntracked v hfree hread
  | .object selected, parent, field, v, w, hfree, hread => by
    cases v with
    | object fields =>
      rw [readValue] at hread
      obtain ⟨hnone, hmembers⟩ := Json.rowFree_object_iff.1 hfree
      split at hread
      · -- No row is stored in place, so the object names none.
        refine hasRows_readSelected (fun obj hobj => ?_) hmembers
          (h.hasRows_readFields selected hmembers) hread
        rw [hnone] at hobj
        cases hobj
      · split at hread
        · rename_i r hr
          -- The record is the row that it names.
          exact hasRows_readSelected (fun obj hobj => h.identified hr hobj) (h.rowFree_of_mem hr)
            (h.hasRows_readFields selected (h.rowFree_of_mem hr)) hread
        · rw [eq_null_of_readDangling hread]
          exact hasRows_null
    | _ =>
      rw [readValue_object_of_not_object rfl] at hread
      exact h.hasRows_readUntracked _ hfree hread
  | .list element, parent, field, v, w, hfree, hread => by
    cases v with
    | array items =>
      rw [readValue] at hread
      obtain ⟨out, hout, rfl⟩ := Option.map_eq_some_iff.1 hread
      refine hasRows_array fun u hu => ?_
      obtain ⟨item, hitem, hu⟩ := mem_of_mapM hout u hu
      exact h.hasRows_readValue element
        (Json.rowFree_array_iff.1 hfree item (List.mem_filter.1 hitem).1) hu
    | _ =>
      rw [readValue_list_of_not_array rfl] at hread
      exact h.hasRows_readUntracked _ hfree hread

theorem OneCopy.hasRows_readFields (h : c.OneCopy) : ∀ (selected : List (String × Shape))
    {fields : Json.Fields}, (∀ e ∈ fields, e.2.RowFree) → ∀ {parent : Option Typename}
    {read out : Json.Fields}, (∀ e ∈ read, c.HasRows e.2) →
    c.readFields parent fields selected read = some out → ∀ e ∈ out, c.HasRows e.2
  | [], fields, hfree, parent, read, out, hread, hout => by
    rw [readFields] at hout
    cases hout
    exact hread
  | (name, shape) :: rest, fields, hfree, parent, read, out, hread, hout => by
    rw [readFields] at hout
    obtain ⟨stored, hstored, hout⟩ := Option.bind_eq_some_iff.1 hout
    obtain ⟨v, hv, hout⟩ := Option.bind_eq_some_iff.1 hout
    have hrows := h.hasRows_readValue shape (hfree _ (Assoc.mem_of_get? hstored)) hv
    refine h.hasRows_readFields rest hfree (fun e he => ?_) hout
    rcases Assoc.mem_insert he with rfl | hold
    · exact hrows
    · exact hread e hold

end

/-- Every row in the result of a read is stored. -/
theorem OneCopy.hasRows_readRoot (h : c.OneCopy) {args : Option Json} {v : Json}
    (hread : c.readRoot field args = .hit v) : c.HasRows v := by
  obtain ⟨w, hsource, hvalue⟩ := readRoot_eq_hit hread
  refine h.hasRows_readValue _ ?_ hvalue
  rcases source?_cases hsource with hstored | ⟨obj, rfl⟩
  · exact h.root _ w hstored
  · exact Json.rowFree_reference obj.cacheId

end Cache

end MediaCache
