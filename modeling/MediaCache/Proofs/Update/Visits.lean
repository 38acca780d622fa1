import Mathlib.Data.List.Permutation
import MediaCache.Proofs.Store.Read
import MediaCache.Proofs.Store.Runs
import MediaCache.Proofs.Update.Eviction

/-!
# Reads and the fields they select

`visits` is the trace of a read: the objects it resolves references to, each with the shape that it
reads the object under. When fields are lost, a read that selects one of them is missing, however deep,
and a read that selects none of them finds what it found before.
-/

namespace MediaCache

/-- A stored object that a read resolves a reference to, and the shape it reads it under. -/
structure Visit where
  id : String
  shape : Shape
deriving DecidableEq

namespace Visit

def Selects (visit : Visit) (field : String) : Prop :=
  ∃ selected, visit.shape = .object selected ∧ field ∈ selected.map (·.1)

/-- The object is read under a selection without the field. An object that is read without a selection
is read with all its fields. -/
def PassesOver (visit : Visit) (field : String) : Prop :=
  ∃ selected, visit.shape = .object selected ∧ field ∉ selected.map (·.1)

theorem selects_object_iff {id : String} {selected : List (String × Shape)} {field : String} :
    Selects ⟨id, .object selected⟩ field ↔ field ∈ selected.map (·.1) := by
  simp [Selects]

theorem passesOver_object_iff {id : String} {selected : List (String × Shape)} {field : String} :
    PassesOver ⟨id, .object selected⟩ field ↔ field ∉ selected.map (·.1) := by
  simp [PassesOver]

instance (visit : Visit) (field : String) : Decidable (visit.Selects field) :=
  match visit with
  | ⟨_, .object _⟩ => decidable_of_iff' _ selects_object_iff
  | ⟨_, .leaf⟩ => isFalse nofun
  | ⟨_, .list _⟩ => isFalse nofun

instance (visit : Visit) (field : String) : Decidable (visit.PassesOver field) :=
  match visit with
  | ⟨_, .object _⟩ => decidable_of_iff' _ passesOver_object_iff
  | ⟨_, .leaf⟩ => isFalse nofun
  | ⟨_, .list _⟩ => isFalse nofun

end Visit

namespace Cache

/-! ## The trace of a read -/

def visitHere (c : Cache) (v : Json) (shape : Shape) : List Visit :=
  match referenceId? v with
  | some id => if c.objects.contains id then [⟨id, shape⟩] else []
  | none => []

mutual

def visitsUntracked (c : Cache) (v : Json) : List Visit :=
  match v with
  | .array items => visitsUntrackedItems c items
  | v => c.visitHere v .leaf

def visitsUntrackedItems (c : Cache) : List Json → List Visit
  | [] => []
  | v :: rest => visitsUntracked c v ++ visitsUntrackedItems c rest

end

mutual

def visits (c : Cache) (v : Json) : Shape → List Visit
  | .leaf => c.visitsUntracked v
  | .object selected =>
    match v with
    | .object fields =>
      match referenceId? (.object fields) with
      | none => visitsOfFields c fields selected
      | some id =>
        match c.objects.get? id with
        | some record => ⟨id, .object selected⟩ :: visitsOfFields c record.entries selected
        | none => []
    | v => c.visitsUntracked v
  | .list element =>
    match v with
    | .array items => items.flatMap fun item => visits c item element
    | v => c.visitHere v (.list element)

def visitsOfFields (c : Cache) (fields : Json.Fields) : List (String × Shape) → List Visit
  | [] => []
  | (key, shape) :: rest =>
    (match Assoc.get? key fields with
      | some v => visits c v shape
      | none => []) ++ visitsOfFields c fields rest

end

def visitsBy (c : Cache) (field : String) (args : Option Json) : List Visit :=
  match c.source? field args with
  | some v => c.visits v ((c.selections.get? (storeFieldName field args)).getD .leaf)
  | none => []

variable {c : Cache} {parent : Option Typename} {field : String}

theorem visitsUntracked_of_not_array {v : Json} (h : v.asItems? = none) :
    c.visitsUntracked v = c.visitHere v .leaf := by
  cases v with
  | array items => cases h
  | _ => exact visitsUntracked.eq_def c _

@[simp]
theorem visits_leaf {v : Json} : c.visits v .leaf = c.visitsUntracked v := by
  rw [visits]

theorem visits_list_of_not_array {v : Json} (h : v.asItems? = none) {element : Shape} :
    c.visits v (.list element) = c.visitHere v (.list element) := by
  cases v with
  | array items => cases h
  | _ => simp only [visits]

theorem visits_object_of_not_object {v : Json} (h : v.isObject = false)
    {selected : List (String × Shape)} : c.visits v (.object selected) = c.visitsUntracked v := by
  cases v with
  | object fields => cases h
  | _ => simp only [visits]

theorem mem_visitHere {v : Json} {shape : Shape} {visit : Visit} :
    visit ∈ c.visitHere v shape ↔
      referenceId? v = some visit.id ∧ c.objects.contains visit.id = true ∧ visit.shape = shape := by
  obtain ⟨i, s⟩ := visit
  unfold visitHere
  cases referenceId? v with
  | none => simp
  | some id =>
    by_cases h : c.objects.contains id = true
    · simp only [h, if_true, List.mem_singleton, Visit.mk.injEq, Option.some.injEq]
      constructor
      · rintro ⟨rfl, rfl⟩
        exact ⟨rfl, h, rfl⟩
      · rintro ⟨rfl, -, rfl⟩
        exact ⟨rfl, rfl⟩
    · simp only [h, Bool.false_eq_true, if_false, List.not_mem_nil, Option.some.injEq, false_iff]
      rintro ⟨rfl, hin, -⟩
      exact h hin

theorem canRead_of_mem_visits {v : Json} {shape : Shape} {visit : Visit}
    (hvisit : visit ∈ c.visits v shape) : c.canRead v = true := by
  refine canRead_iff.2 fun id hid => ?_
  have hreference := eq_reference_of_referenceId? hid
  have hhere {s : Shape} (h : visit ∈ c.visitHere v s) : c.objects.contains id = true := by
    obtain ⟨hsame, hin, -⟩ := mem_visitHere.1 h
    rw [hid, Option.some.injEq] at hsame
    exact hsame ▸ hin
  subst hreference
  cases shape with
  | leaf =>
    rw [visits_leaf, visitsUntracked_of_not_array rfl] at hvisit
    exact hhere hvisit
  | list element =>
    rw [visits_list_of_not_array rfl] at hvisit
    exact hhere hvisit
  | object selected =>
    rw [reference, visits] at hvisit
    rw [reference] at hid
    simp only [hid] at hvisit
    cases hr : c.objects.get? id with
    | none =>
      rw [hr] at hvisit
      cases hvisit
    | some r => simp [SortedMap.contains, hr]

mutual

theorem shape_of_mem_visitsUntracked : ∀ (v : Json), ∀ visit ∈ c.visitsUntracked v,
    visit.shape = .leaf
  | .array items, visit, hvisit => by
    rw [visitsUntracked] at hvisit
    exact shape_of_mem_visitsUntrackedItems items visit hvisit
  | .object _, visit, hvisit | .null, visit, hvisit | .bool _, visit, hvisit
  | .number _, visit, hvisit | .string _, visit, hvisit => by
    rw [visitsUntracked_of_not_array rfl] at hvisit
    exact (mem_visitHere.1 hvisit).2.2

theorem shape_of_mem_visitsUntrackedItems : ∀ (items : List Json),
    ∀ visit ∈ c.visitsUntrackedItems items, visit.shape = .leaf
  | [], visit, hvisit => by
    rw [visitsUntrackedItems] at hvisit
    cases hvisit
  | v :: rest, visit, hvisit => by
    rw [visitsUntrackedItems] at hvisit
    rcases List.mem_append.1 hvisit with h | h
    · exact shape_of_mem_visitsUntracked v visit h
    · exact shape_of_mem_visitsUntrackedItems rest visit h

end

/-! ## Reads after a loss -/

/-- No visit shows a lost field. -/
def Overlooked (lost : String → String → Bool) (visits : List Visit) : Prop :=
  ∀ visit ∈ visits, ∀ k, lost visit.id k = true → visit.PassesOver k

theorem overlooked_append {lost : String → String → Bool} {l m : List Visit} :
    Overlooked lost (l ++ m) ↔ Overlooked lost l ∧ Overlooked lost m :=
  List.forall_mem_append

theorem overlooked_cons {lost : String → String → Bool} {visit : Visit} {l : List Visit} :
    Overlooked lost (visit :: l) ↔
      (∀ k, lost visit.id k = true → visit.PassesOver k) ∧ Overlooked lost l :=
  List.forall_mem_cons

/-- Some visit selects a lost field. -/
def Noticed (lost : String → String → Bool) (visits : List Visit) : Prop :=
  ∃ visit ∈ visits, ∃ k, lost visit.id k = true ∧ visit.Selects k

theorem noticed_append {lost : String → String → Bool} {l m : List Visit} :
    Noticed lost (l ++ m) ↔ Noticed lost l ∨ Noticed lost m := by
  simp only [Noticed, List.mem_append, or_and_right, exists_or]

theorem not_noticed_of_shape {lost : String → String → Bool} {l : List Visit}
    (h : ∀ visit ∈ l, ∀ selected, visit.shape ≠ .object selected) : ¬Noticed lost l := by
  rintro ⟨visit, hvisit, -, -, selected, hselected, -⟩
  exact h visit hvisit selected hselected

/-- One absent field makes the whole object missing. -/
theorem readFields_of_absent {fields : Json.Fields} {key : String}
    (habsent : Assoc.get? key fields = none) : ∀ {selected : List (String × Shape)},
      key ∈ selected.map (·.1) → ∀ {read : Json.Fields}, c.readFields parent fields selected read = none
  | (k, shape) :: rest, hkey, read => by
    rw [readFields]
    rw [List.map_cons, List.mem_cons] at hkey
    rcases hkey with rfl | hkey
    · rw [habsent, Option.bind_none]
    · exact Option.bind_eq_none_iff.2 fun stored _ => Option.bind_eq_none_iff.2 fun v _ =>
        readFields_of_absent habsent hkey

namespace Trimmed

variable {lost : String → String → Bool} {d : Cache}

theorem canRead (h : Trimmed lost c d) : d.canRead = c.canRead := by
  funext v
  unfold Cache.canRead
  simp only [h.contains]

theorem readDangling (h : Trimmed lost c d) :
    d.readDangling parent field = c.readDangling parent field := by
  unfold Cache.readDangling
  cases parent <;> simp only [policyOf, h.sameRoot.policies]

theorem source? (h : Trimmed lost c d) (field : String) (args : Option Json) :
    d.source? field args = c.source? field args := by
  unfold Cache.source? fallback?
  simp only [h.sameRoot.policies, h.sameRoot.root, h.canRead, contains_eq, h.contains]
  rfl

/-- Nothing is lost of an object that is read with all its fields. -/
theorem get?_of_overlooked (h : Trimmed lost c d) {id : String} {shape : Shape}
    (hvisit : c.objects.contains id = true → ∀ k, lost id k = true → Visit.PassesOver ⟨id, shape⟩ k)
    (hshape : ∀ selected, shape ≠ .object selected) : d.objects.get? id = c.objects.get? id := by
  rw [h.objects]
  cases hr : c.objects.get? id with
  | none => rfl
  | some r =>
    have hkept : lost id = fun _ => false := by
      funext k
      rw [← Bool.not_eq_true]
      intro hk
      obtain ⟨selected, hselected, -⟩ := hvisit (by simp [SortedMap.contains, hr]) k hk
      exact hshape selected hselected
    rw [hkept, Option.map_some, Record.without_nothing]

theorem readUntracked_of_not_array (h : Trimmed lost c d) {v : Json} (hv : v.asItems? = none)
    {shape : Shape} (hvisits : Overlooked lost (c.visitHere v shape))
    (hshape : ∀ selected, shape ≠ .object selected) :
    d.readUntracked parent field v = c.readUntracked parent field v := by
  rw [Cache.readUntracked_of_not_array hv, Cache.readUntracked_of_not_array hv]
  cases hid : referenceId? v with
  | none => rfl
  | some id =>
    have hsame : d.objects.get? id = c.objects.get? id :=
      h.get?_of_overlooked
        (fun hin => hvisits ⟨id, shape⟩ (mem_visitHere.2 ⟨hid, hin, rfl⟩)) hshape
    simp only [hsame, h.readDangling]

mutual

theorem readUntracked (h : Trimmed lost c d) : ∀ v : Json, Overlooked lost (c.visitsUntracked v) →
    d.readUntracked parent field v = c.readUntracked parent field v
  | .array items, hv => by
    rw [visitsUntracked] at hv
    rw [Cache.readUntracked, Cache.readUntracked, h.readUntrackedItems items hv]
  | .object _, hv | .null, hv | .bool _, hv | .number _, hv | .string _, hv => by
    rw [visitsUntracked_of_not_array rfl] at hv
    exact h.readUntracked_of_not_array rfl hv nofun

theorem readUntrackedItems (h : Trimmed lost c d) : ∀ items : List Json,
    Overlooked lost (c.visitsUntrackedItems items) →
      d.readUntrackedItems parent field items = c.readUntrackedItems parent field items
  | [], _ => by rw [Cache.readUntrackedItems, Cache.readUntrackedItems]
  | v :: rest, hv => by
    rw [visitsUntrackedItems, overlooked_append] at hv
    rw [Cache.readUntrackedItems, Cache.readUntrackedItems, h.canRead, h.readUntracked v hv.1,
      h.readUntrackedItems rest hv.2]

end

mutual

theorem readValue (h : Trimmed lost c d) (htype : ∀ id, lost id "__typename" = false) :
    ∀ (shape : Shape) {parent : Option Typename} {field : String} {v : Json},
      Overlooked lost (c.visits v shape) →
        d.readValue parent field v shape = c.readValue parent field v shape
  | .leaf, parent, field, v, hv => by
    rw [visits_leaf] at hv
    rw [readValue_leaf, readValue_leaf, h.readUntracked v hv]
  | .object selected, parent, field, v, hv => by
    cases v with
    | object fields =>
      rw [visits] at hv
      rw [Cache.readValue, Cache.readValue]
      cases hid : referenceId? (.object fields) with
      | none =>
        simp only [hid] at hv
        exact h.readSelected htype selected rfl (fun _ _ => rfl) hv
      | some id =>
        simp only [hid, h.objects id] at hv ⊢
        cases hr : c.objects.get? id with
        | none => exact h.readDangling
        | some r =>
          simp only [hr] at hv
          -- The visit selects no lost field, so what it reads is all there.
          have hselected : ∀ s ∈ selected, (r.without (lost id)).get? s.1 = r.get? s.1 := fun s hs => by
            rw [Record.get?_without, if_neg]
            intro hlost
            exact Visit.passesOver_object_iff.1 (hv _ List.mem_cons_self s.1 hlost)
              (List.mem_map_of_mem hs)
          have hsame : (r.without (lost id)).get? "__typename" = r.get? "__typename" := by
            rw [Record.get?_without, htype, if_neg (by decide)]
          exact h.readSelected htype selected hsame hselected (overlooked_cons.1 hv).2
    | _ =>
      rw [visits_object_of_not_object rfl] at hv
      rw [readValue_object_of_not_object rfl, readValue_object_of_not_object rfl,
        h.readUntracked _ hv]
  | .list element, parent, field, v, hv => by
    cases v with
    | array items =>
      rw [visits] at hv
      rw [Cache.readValue, Cache.readValue, h.canRead]
      congr 1
      refine mapM_congr fun item hin => ?_
      have hitem := (List.mem_filter.1 hin).1
      exact h.readValue htype element fun visit hvisit =>
        hv visit (List.mem_flatMap.2 ⟨item, hitem, hvisit⟩)
    | _ =>
      rw [visits_list_of_not_array rfl] at hv
      rw [readValue_list_of_not_array rfl, readValue_list_of_not_array rfl,
        h.readUntracked_of_not_array rfl hv nofun]

theorem readSelected (h : Trimmed lost c d) (htype : ∀ id, lost id "__typename" = false)
    (selected : List (String × Shape)) {fields fields' : Json.Fields}
    (hsame : Assoc.get? "__typename" fields' = Assoc.get? "__typename" fields)
    (hselected : ∀ s ∈ selected, Assoc.get? s.1 fields' = Assoc.get? s.1 fields)
    (hv : Overlooked lost (c.visitsOfFields fields selected)) :
    d.readSelected fields' selected = c.readSelected fields selected := by
  rw [Cache.readSelected, Cache.readSelected, typenameOf?, typenameOf?, hsame,
    h.readFields htype selected hselected hv]

theorem readFields (h : Trimmed lost c d) (htype : ∀ id, lost id "__typename" = false) :
    ∀ (selected : List (String × Shape)) {parent : Option Typename} {fields fields' : Json.Fields},
      (∀ s ∈ selected, Assoc.get? s.1 fields' = Assoc.get? s.1 fields) →
      Overlooked lost (c.visitsOfFields fields selected) → ∀ {read : Json.Fields},
        d.readFields parent fields' selected read = c.readFields parent fields selected read
  | [], _, _, _, _, _, _ => by rw [Cache.readFields, Cache.readFields]
  | (key, shape) :: rest, parent, fields, fields', hselected, hv, read => by
    rw [visitsOfFields, overlooked_append] at hv
    rw [List.forall_mem_cons] at hselected
    rw [Cache.readFields, Cache.readFields, hselected.1]
    refine Option.bind_congr fun stored hstored => ?_
    simp only [hstored] at hv
    rw [h.readValue htype shape hv.1]
    refine Option.bind_congr fun v _ => ?_
    exact h.readFields htype rest hselected.2 hv.2

end

theorem not_noticed_visitsUntracked (v : Json) : ¬Noticed lost (c.visitsUntracked v) :=
  not_noticed_of_shape fun visit hvisit selected hselected => by
    rw [shape_of_mem_visitsUntracked v visit hvisit] at hselected
    cases hselected

mutual

theorem readValue_eq_none (h : Trimmed lost c d) : ∀ (shape : Shape) {parent : Option Typename}
    {field : String} {v : Json}, Noticed lost (c.visits v shape) →
      d.readValue parent field v shape = none
  | .leaf, parent, field, v, hv => by
    rw [visits_leaf] at hv
    exact absurd hv (not_noticed_visitsUntracked v)
  | .object selected, parent, field, v, hv => by
    cases v with
    | object fields =>
      rw [visits] at hv
      rw [Cache.readValue]
      cases hid : referenceId? (.object fields) with
      | none =>
        simp only [hid] at hv
        exact h.readSelected_eq_none selected (fun _ _ => .inr rfl) hv
      | some id =>
        simp only [hid] at hv ⊢
        rw [h.objects id]
        cases hr : c.objects.get? id with
        | none =>
          obtain ⟨visit, hvisit, -⟩ := hv
          rw [hr] at hvisit
          cases hvisit
        | some r =>
          simp only [hr] at hv
          rcases noticed_append (l := [_]).1 hv with hhere | hv
          · -- The object is missing a selected field.
            obtain ⟨visit, hvisit, k, hlost, hselects⟩ := hhere
            cases List.mem_singleton.1 hvisit
            have habsent : (r.without (lost id)).get? k = none := by
              rw [Record.get?_without, if_pos hlost]
            simp only [Option.map_some]
            rw [Cache.readSelected,
              readFields_of_absent habsent (Visit.selects_object_iff.1 hselects), Option.map_none]
          · -- A field further down is lost.
            refine h.readSelected_eq_none selected (fun s _ => ?_) hv
            have hget := Record.get?_without r (lost id) s.1
            split at hget
            · exact .inl hget
            · exact .inr hget
    | _ =>
      rw [visits_object_of_not_object rfl] at hv
      exact absurd hv (not_noticed_visitsUntracked _)
  | .list element, parent, field, v, hv => by
    cases v with
    | array items =>
      rw [visits] at hv
      obtain ⟨visit, hvisit, hnoticed⟩ := hv
      obtain ⟨item, hitem, hvisit⟩ := List.mem_flatMap.1 hvisit
      have hread : d.readValue parent field item element = none :=
        h.readValue_eq_none element ⟨visit, hvisit, hnoticed⟩
      -- An item that is visited can be read, so the list does not leave it out.
      have hin : item ∈ items.filter d.canRead :=
        List.mem_filter.2 ⟨hitem, h.canRead ▸ canRead_of_mem_visits hvisit⟩
      rw [Cache.readValue, Option.map_eq_none_iff, ← Option.not_isSome_iff_eq_none]
      intro hsome
      have hitem := isSome_of_mem_mapM hsome item hin
      rw [hread] at hitem
      cases hitem
    | _ =>
      rw [visits_list_of_not_array rfl] at hv
      refine absurd hv (not_noticed_of_shape fun visit hvisit selected hselected => ?_)
      rw [(mem_visitHere.1 hvisit).2.2] at hselected
      cases hselected

theorem readSelected_eq_none (h : Trimmed lost c d) (selected : List (String × Shape))
    {fields fields' : Json.Fields}
    (hfields : ∀ s ∈ selected, Assoc.get? s.1 fields' = none ∨
      Assoc.get? s.1 fields' = Assoc.get? s.1 fields)
    (hv : Noticed lost (c.visitsOfFields fields selected)) : d.readSelected fields' selected = none := by
  rw [Cache.readSelected, h.readFields_eq_none selected hfields hv, Option.map_none]

/-- A lost field is noticed below, unless one above it is lost already. -/
theorem readFields_eq_none (h : Trimmed lost c d) : ∀ (selected : List (String × Shape))
    {parent : Option Typename} {fields fields' : Json.Fields},
    (∀ s ∈ selected, Assoc.get? s.1 fields' = none ∨
      Assoc.get? s.1 fields' = Assoc.get? s.1 fields) →
    Noticed lost (c.visitsOfFields fields selected) →
      ∀ {read : Json.Fields}, d.readFields parent fields' selected read = none
  | [], _, _, _, _, hv, _ => by
    rw [visitsOfFields] at hv
    obtain ⟨visit, hvisit, -⟩ := hv
    cases hvisit
  | (key, shape) :: rest, parent, fields, fields', hfields, hv, read => by
    rw [visitsOfFields, noticed_append] at hv
    rw [List.forall_mem_cons] at hfields
    rw [Cache.readFields]
    refine Option.bind_eq_none_iff.2 fun stored hstored => Option.bind_eq_none_iff.2 fun v hvalue => ?_
    rcases hv with hhere | hrest
    · have hsame : Assoc.get? key fields = some stored := by
        rcases hfields.1 with hnone | hsame
        · rw [hnone] at hstored
          cases hstored
        · rw [← hsame, hstored]
      simp only [hsame] at hhere
      rw [h.readValue_eq_none shape hhere] at hvalue
      cases hvalue
    · exact h.readFields_eq_none rest hfields.2 hrest

end

theorem readRoot_eq_missing (h : Trimmed lost c d) {field : String} {args : Option Json}
    (hv : Noticed lost (c.visitsBy field args)) : d.readRoot field args = .missing := by
  rw [readRoot_eq, h.source?, h.sameRoot.selections]
  unfold visitsBy at hv
  cases hsource : c.source? field args with
  | none => rfl
  | some w =>
    rw [hsource] at hv
    rw [Option.bind_some, h.readValue_eq_none _ hv]
    rfl

theorem readRoot_eq (h : Trimmed lost c d) (htype : ∀ id, lost id "__typename" = false)
    {field : String} {args : Option Json} (hv : Overlooked lost (c.visitsBy field args)) :
    d.readRoot field args = c.readRoot field args := by
  rw [Cache.readRoot_eq, h.source?, h.sameRoot.selections, Cache.readRoot_eq]
  unfold visitsBy at hv
  cases hsource : c.source? field args with
  | none => rfl
  | some w =>
    rw [hsource] at hv
    rw [Option.bind_some, h.readValue htype _ hv, Option.bind_some]

end Trimmed

/-- When a field of an object is evicted, a read that selects it is missing. A read that never comes to
the object, or comes to it without selecting the field, finds what it found before. -/
theorem evicted_field_reads {c : Cache} {obj : ObjectRef} {field : String}
    (hname : field ≠ "__typename") {doc : Document} {args : Option Json} {v : Json}
    (hread : c.readQuery doc args = .hit v) :
    ((∃ visit ∈ c.visitsBy doc.rootField args, visit.id = obj.cacheId ∧ visit.Selects field) →
      (c.evictField obj field).2.readQuery doc args = .missing) ∧
    ((∀ visit ∈ c.visitsBy doc.rootField args, visit.id = obj.cacheId → visit.PassesOver field) →
      (c.evictField obj field).2.readQuery doc args = .hit v) := by
  have htrimmed := trimmed_evictField c obj field
  constructor
  · rintro ⟨visit, hvisit, hid, hselects⟩
    refine htrimmed.readRoot_eq_missing ⟨visit, hvisit, field, ?_, hselects⟩
    simp [hid]
  · intro hpasses
    rw [← hread]
    refine htrimmed.readRoot_eq (fun id => ?_) fun visit hvisit k hlost => ?_
    · simp [hname.symm]
    · rw [Bool.and_eq_true, beq_iff_eq, beq_iff_eq] at hlost
      exact hlost.2 ▸ hpasses visit hvisit hlost.1

/-- A page with a scene and its performer, whose rating another page shows. -/
def castPage : Cache :=
  (new .standard).run [
    .writeRoot "findScenes" none (.array [
      .object [("__typename", .string "Scene"), ("id", .string "1"), ("performers", .array [
        .object [("__typename", .string "Performer"), ("id", .string "5"), ("name", .string "a")]])]]),
    .writeRoot "findPerformers" none (.array [
      .object [("__typename", .string "Performer"), ("id", .string "5"), ("rating", .int 3)]])]

def castRead : Json :=
  .array [.object [("__typename", .string "Scene"), ("id", .string "1"), ("performers", .array [
    .object [("__typename", .string "Performer"), ("id", .string "5"), ("name", .string "a")]])]]

def performerShape : Shape := .object [("id", .leaf), ("name", .leaf)]

def sceneShape : Shape := .object [("id", .leaf), ("performers", .list performerShape)]

theorem castPage_reads :
    "name" ≠ "__typename" ∧ "rating" ≠ "__typename" ∧
      castPage.readQuery .findScenes none = .hit castRead ∧
      castPage.visitsBy Document.findScenes.rootField none =
        [⟨"Scene:1", sceneShape⟩, ⟨"Performer:5", performerShape⟩] ∧
      (castPage.evictField ⟨.performer, "5"⟩ "name").2.readQuery .findScenes none = .missing ∧
      (castPage.evictField ⟨.performer, "5"⟩ "rating").1 = true ∧
      (castPage.evictField ⟨.performer, "5"⟩ "rating").2.readQuery .findScenes none =
        .hit castRead := by
  have hname : "name" ≠ "__typename" := by decide
  have hrating : "rating" ≠ "__typename" := by decide
  have hread : castPage.readQuery .findScenes none = .hit castRead := by
    have hsource : castPage.source? Document.findScenes.rootField none =
        some (.array [reference "Scene:1"]) := by decide +kernel
    have hshape : (castPage.selections.get? (storeFieldName Document.findScenes.rootField none)).getD
        .leaf = .list sceneShape := by decide +kernel
    have hvalue : castPage.readValue none Document.findScenes.rootField
        (.array [reference "Scene:1"]) (.list sceneShape) = some castRead := by cbv
    exact readQuery_of_readValue hsource hshape hvalue
  have hvisits : castPage.visitsBy Document.findScenes.rootField none =
      [⟨"Scene:1", sceneShape⟩, ⟨"Performer:5", performerShape⟩] := by decide +kernel
  refine ⟨hname, hrating, hread, hvisits, (evicted_field_reads hname hread).1 ?_, by decide +kernel,
    (evicted_field_reads hrating hread).2 ?_⟩
  · rw [hvisits]
    decide +kernel
  · rw [hvisits]
    decide +kernel

end Cache

end MediaCache
