import MediaCache.Proofs.Data.SortedMap
import MediaCache.Proofs.Store.Collect
import MediaCache.Proofs.Store.Read
import MediaCache.Proofs.Store.Reference

/-!
# What a read copies

A read follows references as far as its shape does. Where the shape ends at an object, the object is
copied as it is stored, with the references that it holds. Every reference in the result of a read stands
in such a copy.
-/

namespace MediaCache

/-! ## Names that do not occur -/

namespace Json

mutual

def avoids (name : String) : Json → Bool
  | object fields => avoidsFields name fields
  | array items => avoidsItems name items
  | _ => true

def avoidsFields (name : String) : List (String × Json) → Bool
  | [] => true
  | (key, v) :: rest => key != name && avoids name v && avoidsFields name rest

def avoidsItems (name : String) : List Json → Bool
  | [] => true
  | v :: rest => avoids name v && avoidsItems name rest

end

end Json

namespace Shape

mutual

def avoids (name : String) : Shape → Bool
  | leaf => true
  | object selected => avoidsFields name selected
  | list element => avoids name element

def avoidsFields (name : String) : List (String × Shape) → Bool
  | [] => true
  | (key, shape) :: rest => key != name && avoids name shape && avoidsFields name rest

end

variable {name : String}

theorem avoidsFields_iff {selected : List (String × Shape)} :
    avoidsFields name selected = true ↔ ∀ s ∈ selected, s.1 ≠ name ∧ s.2.avoids name = true := by
  induction selected with
  | nil => simp [avoidsFields]
  | cons s rest ih =>
    obtain ⟨key, shape⟩ := s
    rw [avoidsFields, Bool.and_eq_true, Bool.and_eq_true, bne_iff_ne, ih, List.forall_mem_cons]

theorem avoidsFields_insert {selected : List (String × Shape)} {key : String} {shape : Shape}
    (h : avoidsFields name selected = true) (hkey : key ≠ name) (hshape : shape.avoids name = true) :
    avoidsFields name (Assoc.insert key shape selected) = true := by
  refine avoidsFields_iff.2 fun s hs => ?_
  rcases Assoc.mem_insert hs with rfl | hs
  · exact ⟨hkey, hshape⟩
  · exact avoidsFields_iff.1 h s hs

mutual

theorem avoids_union (a : Shape) (ha : a.avoids name = true) :
    ∀ b : Shape, b.avoids name = true → (union a b).avoids name = true
  | leaf, _ => by rw [union]; exact ha
  | object selected, hb => by
    cases a with
    | object present => exact avoids_unionFields present ha selected hb
    | leaf => exact hb
    | list _ => exact hb
  | list element, hb => by
    cases a with
    | list present => exact avoids_union present ha element hb
    | leaf => exact hb
    | object _ => exact hb

theorem avoids_unionFields (present : List (String × Shape)) (hpresent : avoidsFields name present = true) :
    ∀ selected : List (String × Shape), avoidsFields name selected = true →
      avoidsFields name (unionFields present selected) = true
  | [], _ => by rw [unionFields]; exact hpresent
  | (key, shape) :: rest, h => by
    rw [avoidsFields, Bool.and_eq_true, Bool.and_eq_true, bne_iff_ne] at h
    obtain ⟨⟨hkey, hshape⟩, hrest⟩ := h
    have hjoined : (match Assoc.get? key present with
        | some existing => union existing shape
        | none => shape).avoids name = true := by
      cases hget : Assoc.get? key present with
      | none => exact hshape
      | some existing =>
        exact avoids_union existing (avoidsFields_iff.1 hpresent _ (Assoc.mem_of_get? hget)).2 shape hshape
    rw [unionFields]
    exact avoids_unionFields _ (avoidsFields_insert hpresent hkey hjoined) rest hrest

end

mutual

theorem avoids_ofData : ∀ v : Json, v.avoids name = true → (ofData v).avoids name = true
  | .object fields, h => by
    rw [ofData, avoids]
    exact avoidsFields_ofFields fields h
  | .array items, h => by
    rw [ofData, avoids]
    exact avoids_ofItems leaf rfl items h
  | .null, _ | .bool _, _ | .number _, _ | .string _, _ => rfl

theorem avoidsFields_ofFields : ∀ fields : List (String × Json), Json.avoidsFields name fields = true →
    avoidsFields name (ofFields fields) = true
  | [], _ => rfl
  | (key, v) :: rest, h => by
    rw [Json.avoidsFields, Bool.and_eq_true, Bool.and_eq_true] at h
    obtain ⟨⟨hkey, hv⟩, hrest⟩ := h
    have hfields := avoidsFields_ofFields rest hrest
    rw [ofFields]
    split
    · exact hfields
    · rw [avoidsFields, hkey, avoids_ofData v hv, hfields]
      rfl

theorem avoids_ofItems (seen : Shape) (hseen : seen.avoids name = true) : ∀ items : List Json,
    Json.avoidsItems name items = true → (ofItems seen items).avoids name = true
  | [], _ => hseen
  | v :: rest, h => by
    rw [Json.avoidsItems, Bool.and_eq_true] at h
    rw [ofItems]
    exact avoids_ofItems _ (avoids_union seen hseen _ (avoids_ofData v h.1)) rest h.2

end

end Shape

/-! ## Copies -/

namespace Cache

variable {c : Cache} {parent : Option Typename} {field : String}

mutual

def copiedUntracked (c : Cache) (v : Json) : List Json :=
  match v with
  | .array items => copiedItems c items
  | v =>
    match referenceId? v with
    | none => [v]
    | some id =>
      match c.objects.get? id with
      | some record => [record.toJson]
      | none => []

def copiedItems (c : Cache) : List Json → List Json
  | [] => []
  | v :: rest => copiedUntracked c v ++ copiedItems c rest

end

mutual

/-- The values that a read under a shape copies as they are stored: those it does not look into. -/
def copied (c : Cache) (v : Json) : Shape → List Json
  | .leaf => c.copiedUntracked v
  | .object selected =>
    match v with
    | .object fields =>
      match referenceId? (.object fields) with
      | none => copiedFields c fields selected
      | some id =>
        match c.objects.get? id with
        | some record => copiedFields c record.entries selected
        | none => []
    | v => c.copiedUntracked v
  | .list element =>
    match v with
    | .array items => items.flatMap fun item => copied c item element
    | v => c.copiedUntracked v

/-- The type of an object is always copied. -/
def copiedFields (c : Cache) (fields : Json.Fields) : List (String × Shape) → List Json
  | [] => (Assoc.get? "__typename" fields).toList
  | (key, shape) :: rest =>
    (match Assoc.get? key fields with
      | some v => copied c v shape
      | none => []) ++ copiedFields c fields rest

end

theorem copiedUntracked_of_not_array {v : Json} (h : v.asItems? = none) :
    c.copiedUntracked v =
      match referenceId? v with
      | none => [v]
      | some id =>
        match c.objects.get? id with
        | some record => [record.toJson]
        | none => [] := by
  cases v with
  | array items => cases h
  | _ => exact (copiedUntracked.eq_def c _).trans rfl

@[simp]
theorem copied_leaf {v : Json} : c.copied v .leaf = c.copiedUntracked v := by
  rw [copied]

theorem copied_list_of_not_array {v : Json} (h : v.asItems? = none) {element : Shape} :
    c.copied v (.list element) = c.copiedUntracked v := by
  cases v with
  | array items => cases h
  | _ => simp only [copied]

theorem copied_object_of_not_object {v : Json} (h : v.isObject = false)
    {selected : List (String × Shape)} : c.copied v (.object selected) = c.copiedUntracked v := by
  cases v with
  | object fields => cases h
  | _ => simp only [copied]

/-- Each reference in the value stands in one of the copies. -/
def StandsIn (v : Json) (copies : List Json) : Prop :=
  ∀ id ∈ v.references, ∃ u ∈ copies, id ∈ u.references

theorem StandsIn.mono {v : Json} {copies more : List Json} (h : StandsIn v copies)
    (hmore : copies ⊆ more) : StandsIn v more := by
  intro id hid
  obtain ⟨u, hu, hin⟩ := h id hid
  exact ⟨u, hmore hu, hin⟩

theorem standsIn_self (v : Json) : StandsIn v [v] := fun _ hid => ⟨v, List.mem_singleton.2 rfl, hid⟩

theorem standsIn_null (copies : List Json) : StandsIn .null copies := by
  intro id hid
  cases hid

theorem standsIn_array {items copies : List Json} (h : ∀ v ∈ items, StandsIn v copies) :
    StandsIn (.array items) copies := by
  intro id hid
  rw [Json.references] at hid
  obtain ⟨v, hv, hin⟩ := Json.mem_referencesOfItems.1 hid
  exact h v hv id hin

theorem standsIn_object {fields : Json.Fields} {copies : List Json}
    (hkey : ∀ e ∈ fields, e.1 ≠ "__ref") (h : ∀ e ∈ fields, StandsIn e.2 copies) :
    StandsIn (.object fields) copies := by
  have hnone : referenceId? (.object fields) = none := by
    cases hid : referenceId? (.object fields) with
    | none => rfl
    | some id =>
      obtain hfields := eq_reference_of_referenceId? hid
      cases hfields
      exact absurd rfl (hkey _ List.mem_cons_self)
  intro id hid
  rw [Json.references, hnone] at hid
  obtain ⟨e, he, hin⟩ := Json.mem_referencesOfFields.1 hid
  exact h e he id hin

mutual

theorem standsIn_readUntracked : ∀ (v : Json) {w : Json},
    c.readUntracked parent field v = some w → StandsIn w (c.copiedUntracked v)
  | .array items, w, hread => by
    rw [readUntracked] at hread
    obtain ⟨out, hout, rfl⟩ := Option.map_eq_some_iff.1 hread
    rw [copiedUntracked]
    exact standsIn_array (standsIn_readUntrackedItems items hout)
  | .object fields, w, hread => by
    rw [readUntracked_of_not_array rfl] at hread
    rw [copiedUntracked_of_not_array rfl]
    cases hid : referenceId? (.object fields) with
    | none =>
      simp only [hid] at hread ⊢
      cases hread
      exact standsIn_self _
    | some id =>
      simp only [hid] at hread ⊢
      cases hrecord : c.objects.get? id with
      -- What a dangling reference reads as is no object.
      | none =>
        simp only [hrecord] at hread
        rw [eq_null_of_readDangling hread]
        exact standsIn_null _
      | some record =>
        simp only [hrecord] at hread ⊢
        cases hread
        exact standsIn_self _
  | .null, w, hread | .bool _, w, hread | .number _, w, hread | .string _, w, hread => by
    rw [readUntracked_of_not_array rfl] at hread
    cases hread
    intro id hid
    cases hid

theorem standsIn_readUntrackedItems : ∀ (items : List Json) {out : List Json},
    c.readUntrackedItems parent field items = some out → ∀ w ∈ out, StandsIn w (c.copiedItems items)
  | [], out, hread => by
    cases hread
    intro w hw
    cases hw
  | v :: rest, out, hread => by
    rw [readUntrackedItems] at hread
    rw [copiedItems]
    have hrest {more : List Json} (hmore : c.readUntrackedItems parent field rest = some more) :
        ∀ w ∈ more, StandsIn w (c.copiedUntracked v ++ c.copiedItems rest) := fun w hw =>
      (standsIn_readUntrackedItems rest hmore w hw).mono (List.subset_append_right _ _)
    split at hread
    · -- The item is read.
      obtain ⟨first, hfirst, hread⟩ := Option.bind_eq_some_iff.1 hread
      obtain ⟨more, hmore, rfl⟩ := Option.map_eq_some_iff.1 hread
      intro w hw
      rcases List.mem_cons.1 hw with rfl | hw
      · exact (standsIn_readUntracked v hfirst).mono (List.subset_append_left _ _)
      · exact hrest hmore w hw
    · -- The item is left out.
      exact hrest hread

end

/-- No member is named like a reference, and all values stand in the copies. -/
def MembersStandIn (fields : Json.Fields) (copies : List Json) : Prop :=
  ∀ e ∈ fields, e.1 ≠ "__ref" ∧ StandsIn e.2 copies

theorem mem_copiedFields_of_type {fields : Json.Fields} {t : Json}
    (h : Assoc.get? "__typename" fields = some t) (selected : List (String × Shape)) :
    t ∈ c.copiedFields fields selected := by
  induction selected with
  | nil =>
    rw [copiedFields, h]
    exact List.mem_singleton.2 rfl
  | cons s rest ih =>
    rw [copiedFields]
    exact List.mem_append_right _ ih

theorem standsIn_readSelected {fields : Json.Fields} {selected : List (String × Shape)} {w : Json}
    (hselected : ∀ {parent read out}, MembersStandIn read (c.copiedFields fields selected) →
      c.readFields parent fields selected read = some out →
        MembersStandIn out (c.copiedFields fields selected))
    (hread : c.readSelected fields selected = some w) : StandsIn w (c.copiedFields fields selected) := by
  rw [readSelected] at hread
  obtain ⟨out, hout, rfl⟩ := Option.map_eq_some_iff.1 hread
  have hmembers := hselected (fun e he => ?_) hout
  · exact standsIn_object (fun e he => (hmembers e he).1) fun e he => (hmembers e he).2
  · cases ht : Assoc.get? "__typename" fields with
    | none =>
      rw [ht] at he
      cases he
    | some t =>
      rw [ht] at he
      rw [List.mem_singleton.1 he]
      refine ⟨by simp, (standsIn_self t).mono fun x hx => ?_⟩
      rw [List.mem_singleton.1 hx]
      exact mem_copiedFields_of_type ht selected

mutual

/-- Every reference in what is read under a shape stands in a value that was copied. -/
theorem standsIn_readValue : ∀ (shape : Shape) {parent : Option Typename} {field : String} {v w : Json},
    shape.avoids "__ref" = true → c.readValue parent field v shape = some w →
      StandsIn w (c.copied v shape)
  | .leaf, parent, field, v, w, _, hread => by
    rw [readValue_leaf] at hread
    rw [copied_leaf]
    exact standsIn_readUntracked v hread
  | .object selected, parent, field, v, w, havoids, hread => by
    rw [Shape.avoids] at havoids
    cases v with
    | object fields =>
      rw [readValue] at hread
      rw [copied]
      cases hid : referenceId? (.object fields) with
      | none =>
        simp only [hid] at hread ⊢
        exact standsIn_readSelected
          (standsIn_readFields selected havoids (List.Subset.refl _)) hread
      | some id =>
        simp only [hid] at hread ⊢
        cases hrecord : c.objects.get? id with
        | none =>
          simp only [hrecord] at hread
          -- A read leaves nothing but `null` in the place of a gone object.
          rw [eq_null_of_readDangling hread]
          exact standsIn_null _
        | some record =>
          simp only [hrecord] at hread ⊢
          -- The record is read, not the reference.
          exact standsIn_readSelected
            (standsIn_readFields selected havoids (List.Subset.refl _)) hread
    | _ =>
      rw [readValue_object_of_not_object rfl] at hread
      rw [copied_object_of_not_object rfl]
      exact standsIn_readUntracked _ hread
  | .list element, parent, field, v, w, havoids, hread => by
    rw [Shape.avoids] at havoids
    cases v with
    | array items =>
      rw [readValue] at hread
      rw [copied]
      obtain ⟨out, hout, rfl⟩ := Option.map_eq_some_iff.1 hread
      refine standsIn_array fun u hu => ?_
      obtain ⟨item, hitem, hu⟩ := mem_of_mapM hout u hu
      have hin := (List.mem_filter.1 hitem).1
      -- What an item copies is among what the list copies.
      exact (standsIn_readValue element havoids hu).mono fun x hx =>
        List.mem_flatMap.2 ⟨item, hin, hx⟩
    | _ =>
      rw [readValue_list_of_not_array rfl] at hread
      rw [copied_list_of_not_array rfl]
      exact standsIn_readUntracked _ hread

theorem standsIn_readFields : ∀ (selected : List (String × Shape)) {fields : Json.Fields}
    {copies : List Json}, Shape.avoidsFields "__ref" selected = true →
    c.copiedFields fields selected ⊆ copies → ∀ {parent : Option Typename} {read out : Json.Fields},
    MembersStandIn read copies → c.readFields parent fields selected read = some out →
      MembersStandIn out copies
  | [], fields, copies, _, _, parent, read, out, hread, hout => by
    rw [readFields] at hout
    cases hout
    exact hread
  | (key, shape) :: rest, fields, copies, havoids, hcopies, parent, read, out, hread, hout => by
    rw [Shape.avoidsFields, Bool.and_eq_true, Bool.and_eq_true, bne_iff_ne] at havoids
    obtain ⟨⟨hkey, hshape⟩, hrest⟩ := havoids
    rw [copiedFields] at hcopies
    rw [readFields] at hout
    obtain ⟨stored, hstored, hout⟩ := Option.bind_eq_some_iff.1 hout
    obtain ⟨v, hv, hout⟩ := Option.bind_eq_some_iff.1 hout
    rw [hstored] at hcopies
    obtain ⟨hfirst, hmore⟩ := List.append_subset.1 hcopies
    refine standsIn_readFields rest hrest hmore (fun e he => ?_) hout
    rcases Assoc.mem_insert he with rfl | hold
    · exact ⟨hkey, (standsIn_readValue shape hshape hv).mono hfirst⟩
    · exact hread e hold

end

/-! ## A whole query -/

def copiedBy (c : Cache) (field : String) (args : Option Json) : List Json :=
  match c.source? field args with
  | some v => c.copied v ((c.selections.get? (storeFieldName field args)).getD .leaf)
  | none => []

theorem standsIn_readRoot {field : String} {args : Option Json} {v : Json}
    (havoids : ∀ shape, c.selections.get? (storeFieldName field args) = some shape →
      shape.avoids "__ref" = true)
    (hread : c.readRoot field args = .hit v) : StandsIn v (c.copiedBy field args) := by
  have hshape : ((c.selections.get? (storeFieldName field args)).getD .leaf).avoids "__ref" = true := by
    cases h : c.selections.get? (storeFieldName field args) with
    | none => rfl
    | some shape => exact havoids shape h
  obtain ⟨w, hsource, hvalue⟩ := readRoot_eq_hit hread
  rw [copiedBy, hsource]
  exact standsIn_readValue _ hshape hvalue

end Cache

end MediaCache
