import MediaCache.Proofs.Json.Places
import MediaCache.Proofs.Update.Visits

/-!
# Where a read resolves references

`outside` lists the references that a read resolves, each with the place of the answer where it stands.
Inside the data of one object nothing is listed: whatever is there goes with that object.
-/

namespace MediaCache

/-- Where a value stands: in a list, or in a field of an object of this type. No type stands for the
root. -/
inductive Slot where
  | element
  | field (parent : Option Typename) (name : String)
deriving DecidableEq

structure Resolution extends Visit where
  place : Path
  slot : Slot
deriving DecidableEq

namespace Resolution

def under (step : PathStep) (r : Resolution) : Resolution := { r with place := step :: r.place }

/-- A read can do without the object: it is dropped from a list, or its field reads as `null`. -/
def Dispensable (c : Cache) (r : Resolution) : Prop :=
  match r.slot with
  | .element => True
  | .field parent name => c.policyOf parent name = some .danglingNull

instance (c : Cache) (r : Resolution) : Decidable (r.Dispensable c) :=
  match h : r.slot with
  | .element => isTrue (by rw [Dispensable, h]; trivial)
  | .field parent name =>
    decidable_of_iff (c.policyOf parent name = some .danglingNull) (by rw [Dispensable, h])

end Resolution

namespace Cache

/-! ## The trace with places -/

def outsideHere (c : Cache) (slot : Slot) (v : Json) (shape : Shape) : List Resolution :=
  (c.visitHere v shape).map fun visit => ⟨visit, [], slot⟩

def outsideItems (found : Json → List Resolution) : Nat → List Json → List Resolution
  | _, [] => []
  | position, v :: rest =>
    (found v).map (.under (.element position)) ++ outsideItems found (position + 1) rest

mutual

def outsideUntracked (c : Cache) (slot : Slot) (v : Json) : List Resolution :=
  match v with
  | .array items => outsideUntrackedItems c 0 items
  | v => c.outsideHere slot v .leaf

def outsideUntrackedItems (c : Cache) (position : Nat) : List Json → List Resolution
  | [] => []
  | v :: rest =>
    if c.canRead v then
      (outsideUntracked c .element v).map (.under (.element position)) ++
        outsideUntrackedItems c (position + 1) rest
    else outsideUntrackedItems c position rest

end

mutual

def outside (c : Cache) (id : String) (slot : Slot) (v : Json) : Shape → List Resolution
  | .leaf => c.outsideUntracked slot v
  | .object selected =>
    match v with
    | .object fields =>
      match referenceId? (.object fields) with
      | none => outsideFields c id (typenameOf? fields) fields selected
      | some j =>
        match c.objects.get? j with
        | some record =>
          ⟨⟨j, .object selected⟩, [], slot⟩ ::
            if j = id then []
            else outsideFields c id (typenameOf? record.entries) record.entries selected
        | none => []
    | v => c.outsideUntracked slot v
  | .list element =>
    match v with
    | .array items =>
      outsideItems (fun item => outside c id .element item element) 0 (items.filter c.canRead)
    | v => c.outsideHere slot v (.list element)

def outsideFields (c : Cache) (id : String) (parent : Option Typename) (fields : Json.Fields) :
    List (String × Shape) → List Resolution
  | [] => []
  | (key, shape) :: rest =>
    (match Assoc.get? key fields with
      | some v => (outside c id (.field parent key) v shape).map (.under (.member key))
      | none => []) ++ outsideFields c id parent fields rest

end

def outsideBy (c : Cache) (id field : String) (args : Option Json) : List Resolution :=
  match c.source? field args with
  | some v => c.outside id (.field none field) v
      ((c.selections.get? (storeFieldName field args)).getD .leaf)
  | none => []

/-- The references to an object that a query resolves, but for those inside the object. -/
def resolvedTo (c : Cache) (id field : String) (args : Option Json) : List Resolution :=
  (c.outsideBy id field args).filter fun r => r.id == id

/-- Where an object stands in the answer to a query, but for those inside the object. -/
def placesOf (c : Cache) (id field : String) (args : Option Json) : List Path :=
  (c.resolvedTo id field args).map (·.place)

variable {c : Cache} {slot : Slot} {id : String}

theorem outsideUntracked_of_not_array {v : Json} (h : v.asItems? = none) :
    c.outsideUntracked slot v = c.outsideHere slot v .leaf := by
  cases v with
  | array items => cases h
  | _ => exact outsideUntracked.eq_def c _ _

theorem outsideUntrackedItems_eq (position : Nat) (items : List Json) :
    c.outsideUntrackedItems position items =
      outsideItems (c.outsideUntracked .element) position (items.filter c.canRead) := by
  induction items generalizing position with
  | nil => rw [outsideUntrackedItems, List.filter_nil, outsideItems]
  | cons v rest ih =>
    rw [outsideUntrackedItems, List.filter_cons]
    split
    · rw [outsideItems, ih]
    · exact ih position

@[simp]
theorem outside_leaf {v : Json} : c.outside id slot v .leaf = c.outsideUntracked slot v := by
  rw [outside]

theorem outside_list_of_not_array {v : Json} (h : v.asItems? = none) {element : Shape} :
    c.outside id slot v (.list element) = c.outsideHere slot v (.list element) := by
  cases v with
  | array items => cases h
  | _ => simp only [outside]

theorem outside_object_of_not_object {v : Json} (h : v.isObject = false)
    {selected : List (String × Shape)} :
    c.outside id slot v (.object selected) = c.outsideUntracked slot v := by
  cases v with
  | object fields => cases h
  | _ => simp only [outside]

theorem mem_outsideItems {found : Json → List Resolution} {position : Nat} {items : List Json}
    {r : Resolution} (h : r ∈ outsideItems found position items) :
    ∃ v ∈ items, ∃ i, position ≤ i ∧ ∃ s ∈ found v, r = s.under (.element i) := by
  induction items generalizing position with
  | nil => cases h
  | cons v rest ih =>
    rw [outsideItems] at h
    rcases List.mem_append.1 h with h | h
    · obtain ⟨s, hs, rfl⟩ := List.mem_map.1 h
      exact ⟨v, List.mem_cons_self, position, Nat.le_refl _, s, hs, rfl⟩
    · obtain ⟨w, hw, i, hi, hfound⟩ := ih h
      exact ⟨w, List.mem_cons_of_mem _ hw, i, Nat.le_of_succ_le hi, hfound⟩

theorem mem_outsideFields {parent : Option Typename} {fields : Json.Fields}
    {selected : List (String × Shape)} {r : Resolution} :
    r ∈ c.outsideFields id parent fields selected ↔
      ∃ s ∈ selected, ∃ v, Assoc.get? s.1 fields = some v ∧
        ∃ t ∈ c.outside id (.field parent s.1) v s.2, r = t.under (.member s.1) := by
  induction selected with
  | nil => simp [outsideFields]
  | cons s rest ih =>
    obtain ⟨key, shape⟩ := s
    rw [outsideFields, List.mem_append, ih, List.exists_mem_cons_iff]
    refine or_congr_left ?_
    cases Assoc.get? key fields with
    | none => simp
    | some v => simp [List.mem_map, eq_comm]

theorem mem_outsideHere {v : Json} {shape : Shape} {r : Resolution} :
    r ∈ c.outsideHere slot v shape ↔
      r.toVisit ∈ c.visitHere v shape ∧ r.place = [] ∧ r.slot = slot := by
  unfold outsideHere
  rw [List.mem_map]
  constructor
  · rintro ⟨visit, hvisit, rfl⟩
    exact ⟨hvisit, rfl, rfl⟩
  · obtain ⟨visit, place, slot'⟩ := r
    rintro ⟨hvisit, rfl, rfl⟩
    exact ⟨visit, hvisit, rfl⟩

theorem referenceId?_of_mem_outside {v : Json} {shape : Shape} {r : Resolution}
    (h : r ∈ c.outside id slot v shape) (hplace : r.place = []) : referenceId? v = some r.id := by
  have hhere {shape : Shape} (h : r ∈ c.outsideHere slot v shape) : referenceId? v = some r.id :=
    (mem_visitHere.1 (mem_outsideHere.1 h).1).1
  have hitems {found : Json → List Resolution} {items : List Json}
      (h : r ∈ outsideItems found 0 items) : referenceId? v = some r.id := by
    -- Places in lists and in fields begin with a step.
    obtain ⟨-, -, i, -, s, -, rfl⟩ := mem_outsideItems h
    cases hplace
  have hfields {parent : Option Typename} {fields : Json.Fields} {selected : List (String × Shape)}
      (h : r ∈ c.outsideFields id parent fields selected) : referenceId? v = some r.id := by
    obtain ⟨s, -, -, -, t, -, rfl⟩ := mem_outsideFields.1 h
    cases hplace
  have huntracked (h : r ∈ c.outsideUntracked slot v) : referenceId? v = some r.id := by
    cases v with
    | array items =>
      rw [outsideUntracked, outsideUntrackedItems_eq] at h
      exact hitems h
    | _ =>
      rw [outsideUntracked_of_not_array rfl] at h
      exact hhere h
  cases shape with
  | leaf =>
    rw [outside_leaf] at h
    exact huntracked h
  | list element =>
    cases v with
    | array items =>
      rw [outside] at h
      exact hitems h
    | _ =>
      rw [outside_list_of_not_array rfl] at h
      exact hhere h
  | object selected =>
    cases v with
    | object fields =>
      rw [outside] at h
      cases hid : referenceId? (.object fields) with
      | none =>
        simp only [hid] at h
        rw [← hid]
        exact hfields h
      | some j =>
        simp only [hid] at h
        cases hr : c.objects.get? j with
        | none =>
          rw [hr] at h
          cases h
        | some record =>
          simp only [hr] at h
          rcases List.mem_cons.1 h with rfl | h
          · -- The reference is the value itself.
            rfl
          · split at h
            · cases h
            · rw [← hid]
              exact hfields h
    | _ =>
      rw [outside_object_of_not_object rfl] at h
      exact huntracked h

theorem outside_self {v : Json} (hid : referenceId? v = some id) (hin : c.objects.contains id = true)
    (shape : Shape) : c.outside id slot v shape = [⟨⟨id, shape⟩, [], slot⟩] := by
  have hreference := eq_reference_of_referenceId? hid
  subst hreference
  have hhere (shape : Shape) : c.outsideHere slot (reference id) shape = [⟨⟨id, shape⟩, [], slot⟩] := by
    rw [outsideHere, visitHere, hid]
    simp [hin]
  cases shape with
  | leaf => rw [outside_leaf, outsideUntracked_of_not_array rfl, hhere]
  | list element => rw [outside_list_of_not_array rfl, hhere]
  | object selected =>
    obtain ⟨record, hrecord⟩ := Option.isSome_iff_exists.1 hin
    rw [reference] at hid ⊢
    rw [outside]
    simp only [hid, hrecord, if_true]

mutual

theorem toVisit_mem_visitsUntracked : ∀ (v : Json) {slot : Slot}, ∀ r ∈ c.outsideUntracked slot v,
    r.toVisit ∈ c.visitsUntracked v
  | .array items, slot, r, hr => by
    rw [outsideUntracked] at hr
    rw [visitsUntracked]
    exact toVisit_mem_visitsUntrackedItems items r hr
  | .object _, slot, r, hr | .null, slot, r, hr | .bool _, slot, r, hr | .number _, slot, r, hr
  | .string _, slot, r, hr => by
    rw [outsideUntracked_of_not_array rfl] at hr
    rw [visitsUntracked_of_not_array rfl]
    exact (mem_outsideHere.1 hr).1

theorem toVisit_mem_visitsUntrackedItems : ∀ (items : List Json) {position : Nat},
    ∀ r ∈ c.outsideUntrackedItems position items, r.toVisit ∈ c.visitsUntrackedItems items
  | [], position, r, hr => by
    rw [outsideUntrackedItems] at hr
    cases hr
  | v :: rest, position, r, hr => by
    rw [outsideUntrackedItems] at hr
    rw [visitsUntrackedItems, List.mem_append]
    split at hr
    · rcases List.mem_append.1 hr with hhere | hrest
      · obtain ⟨s, hs, rfl⟩ := List.mem_map.1 hhere
        exact .inl (toVisit_mem_visitsUntracked v s hs)
      · exact .inr (toVisit_mem_visitsUntrackedItems rest r hrest)
    · exact .inr (toVisit_mem_visitsUntrackedItems rest r hr)

end

mutual

theorem toVisit_mem_visits : ∀ (shape : Shape) {slot : Slot} {v : Json},
    ∀ r ∈ c.outside id slot v shape, r.toVisit ∈ c.visits v shape
  | .leaf, slot, v, r, hr => by
    rw [outside_leaf] at hr
    rw [visits_leaf]
    exact toVisit_mem_visitsUntracked v r hr
  | .object selected, slot, v, r, hr => by
    cases v with
    | object fields =>
      rw [outside] at hr
      rw [visits]
      cases hid : referenceId? (.object fields) with
      | none =>
        simp only [hid] at hr ⊢
        exact toVisit_mem_visitsOfFields selected r hr
      | some j =>
        simp only [hid] at hr ⊢
        cases hrecord : c.objects.get? j with
        | none =>
          rw [hrecord] at hr
          cases hr
        | some record =>
          simp only [hrecord] at hr ⊢
          rcases List.mem_cons.1 hr with rfl | hr
          · exact List.mem_cons_self
          · split at hr
            · cases hr
            · exact List.mem_cons_of_mem _ (toVisit_mem_visitsOfFields selected r hr)
    | _ =>
      rw [outside_object_of_not_object rfl] at hr
      rw [visits_object_of_not_object rfl]
      exact toVisit_mem_visitsUntracked _ r hr
  | .list element, slot, v, r, hr => by
    cases v with
    | array items =>
      rw [outside] at hr
      rw [visits]
      obtain ⟨item, hitem, i, -, s, hs, rfl⟩ := mem_outsideItems hr
      exact List.mem_flatMap.2 ⟨item, (List.mem_filter.1 hitem).1, toVisit_mem_visits element s hs⟩
    | _ =>
      rw [outside_list_of_not_array rfl] at hr
      rw [visits_list_of_not_array rfl]
      exact (mem_outsideHere.1 hr).1

theorem toVisit_mem_visitsOfFields : ∀ (selected : List (String × Shape)) {parent : Option Typename}
    {fields : Json.Fields}, ∀ r ∈ c.outsideFields id parent fields selected,
      r.toVisit ∈ c.visitsOfFields fields selected
  | [], parent, fields, r, hr => by
    rw [outsideFields] at hr
    cases hr
  | (key, shape) :: rest, parent, fields, r, hr => by
    rw [outsideFields, List.mem_append] at hr
    rw [visitsOfFields, List.mem_append]
    rcases hr with hhere | hrest
    · cases hv : Assoc.get? key fields with
      | none =>
        rw [hv] at hhere
        cases hhere
      | some v =>
        simp only [hv] at hhere
        obtain ⟨s, hs, rfl⟩ := List.mem_map.1 hhere
        exact .inl (toVisit_mem_visits shape s hs)
    · exact .inr (toVisit_mem_visitsOfFields rest r hrest)

end

end Cache

end MediaCache
