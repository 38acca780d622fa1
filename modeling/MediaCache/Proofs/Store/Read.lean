import MediaCache.Proofs.Store.Reference
import MediaCache.Store.Read

/-!
# Reads case by case

A shape says something only where it meets the kind of data that it describes. Everywhere else the data
is read as it is stored.
-/

namespace MediaCache

theorem ReadOutcome.isMissing_iff {r : ReadOutcome} : r.isMissing = true ↔ r = .missing := by
  cases r <;> simp [isMissing]

@[simp]
theorem ReadOutcome.isMissing_ofOption (v : Option Json) :
    (ReadOutcome.ofOption v).isMissing = !v.isSome := by
  cases v <;> rfl

namespace Cache

variable {c : Cache} {parent : Option Typename} {field : String}

theorem readUntracked_of_not_array {v : Json} (h : v.asItems? = none) :
    c.readUntracked parent field v =
      match referenceId? v with
      | none => some v
      | some id =>
        match c.objects.get? id with
        | some record => some record.toJson
        | none => c.readDangling parent field := by
  cases v with
  | array items => cases h
  | _ => exact (readUntracked.eq_def c parent field _).trans rfl

@[simp]
theorem readValue_leaf {v : Json} :
    c.readValue parent field v .leaf = c.readUntracked parent field v := by
  rw [readValue]

/-- The items of a list are read one by one, but for those that cannot be read. -/
theorem readUntrackedItems_eq (items : List Json) :
    c.readUntrackedItems parent field items =
      (items.filter c.canRead).mapM (c.readUntracked parent field) := by
  induction items with
  | nil =>
    rw [readUntrackedItems]
    rfl
  | cons v rest ih =>
    rw [readUntrackedItems, List.filter_cons]
    split
    · rw [List.mapM_cons, ← ih]
      cases c.readUntrackedItems parent field rest <;> rfl
    · exact ih

theorem readValue_list_of_not_array {v : Json} (h : v.asItems? = none) {element : Shape} :
    c.readValue parent field v (.list element) = c.readUntracked parent field v := by
  cases v with
  | array items => cases h
  | _ => simp only [readValue]

theorem readValue_object_of_not_object {v : Json} (h : v.isObject = false)
    {selected : List (String × Shape)} :
    c.readValue parent field v (.object selected) = c.readUntracked parent field v := by
  cases v with
  | object fields => cases h
  | array items => simp only [readValue]
  | _ => simp only [readValue, readUntracked, referenceId?]

theorem eq_null_of_readDangling {w : Json} (h : c.readDangling parent field = some w) : w = .null := by
  unfold readDangling at h
  split at h
  · cases h
    rfl
  · cases h

theorem mem_of_mapM {α β : Type} {f : α → Option β} {l : List α} {out : List β}
    (h : l.mapM f = some out) : ∀ w ∈ out, ∃ v ∈ l, f v = some w := by
  induction l generalizing out with
  | nil =>
    cases h
    intro w hw
    cases hw
  | cons v rest ih =>
    rw [List.mapM_cons] at h
    obtain ⟨x, hx, hrest⟩ := Option.bind_eq_some_iff.1 h
    obtain ⟨xs, hxs, hout⟩ := Option.bind_eq_some_iff.1 hrest
    cases hout
    intro w hw
    rcases List.mem_cons.1 hw with rfl | hw
    · exact ⟨v, List.mem_cons_self, hx⟩
    · obtain ⟨u, hu, hw⟩ := ih hxs w hw
      exact ⟨u, List.mem_cons_of_mem _ hu, hw⟩

theorem isSome_mapM {α β : Type} {f : α → Option β} {l : List α}
    (h : ∀ v ∈ l, (f v).isSome = true) : (l.mapM f).isSome = true := by
  induction l with
  | nil => rfl
  | cons v rest ih =>
    obtain ⟨w, hw⟩ := Option.isSome_iff_exists.1 (h v List.mem_cons_self)
    obtain ⟨ws, hws⟩ := Option.isSome_iff_exists.1 (ih fun u hu => h u (List.mem_cons_of_mem _ hu))
    rw [List.mapM_cons, hw, hws]
    rfl

theorem isSome_of_mem_mapM {α β : Type} {f : α → Option β} {l : List α}
    (h : (l.mapM f).isSome = true) : ∀ v ∈ l, (f v).isSome = true := by
  induction l with
  | nil =>
    intro v hv
    cases hv
  | cons v rest ih =>
    obtain ⟨out, hout⟩ := Option.isSome_iff_exists.1 h
    rw [List.mapM_cons] at hout
    obtain ⟨x, hx, hrest⟩ := Option.bind_eq_some_iff.1 hout
    obtain ⟨xs, hxs, -⟩ := Option.bind_eq_some_iff.1 hrest
    intro u hu
    rcases List.mem_cons.1 hu with rfl | hu
    · exact Option.isSome_of_eq_some hx
    · exact ih (Option.isSome_of_eq_some hxs) u hu

theorem mapM_congr {α β : Type} {f g : α → Option β} {l : List α} (h : ∀ v ∈ l, f v = g v) :
    l.mapM f = l.mapM g := by
  induction l with
  | nil => rfl
  | cons v rest ih =>
    rw [List.mapM_cons, List.mapM_cons, h v List.mem_cons_self,
      ih fun u hu => h u (List.mem_cons_of_mem _ hu)]

/-- Data that is read as it is stored is missing only when it is a reference to nothing. -/
theorem canRead_iff {v : Json} :
    c.canRead v = true ↔ ∀ id, referenceId? v = some id → c.objects.contains id = true := by
  unfold canRead
  cases referenceId? v <;> simp

@[simp]
theorem canRead_toReference (c : Cache) (obj : ObjectRef) :
    c.canRead obj.toReference = c.contains obj := by
  rw [canRead, ObjectRef.referenceId?_toReference]
  rfl

theorem filter_canRead_eq_none_iff {stored : Option Json} :
    stored.filter c.canRead = none ↔ ∀ v, stored = some v → c.canRead v = false := by
  cases stored with
  | none => simp
  | some v => simp [Option.filter_some]

mutual

theorem isSome_readUntracked : ∀ v : Json, c.canRead v = true →
    (c.readUntracked parent field v).isSome = true
  | .array items, _ => by
    rw [readUntracked, Option.isSome_map]
    exact isSome_readUntrackedItems items
  | .object fields, h => by
    rw [readUntracked_of_not_array rfl]
    cases hid : referenceId? (.object fields) with
    | none => rfl
    | some id =>
      obtain ⟨record, hrecord⟩ := Option.isSome_iff_exists.1 (canRead_iff.1 h id hid)
      simp only [hrecord, Option.isSome_some]
  | .null, _ | .bool _, _ | .number _, _ | .string _, _ => by
    rw [readUntracked_of_not_array rfl]
    rfl

theorem isSome_readUntrackedItems : ∀ items : List Json,
    (c.readUntrackedItems parent field items).isSome = true
  | [] => by
    rw [readUntrackedItems]
    rfl
  | v :: rest => by
    rw [readUntrackedItems]
    split
    · rename_i h
      obtain ⟨w, hw⟩ := Option.isSome_iff_exists.1 (isSome_readUntracked v h)
      rw [hw, Option.bind_some, Option.isSome_map]
      exact isSome_readUntrackedItems rest
    · exact isSome_readUntrackedItems rest

end

/-- A look-up by id falls back to the object of its type with this id, when it is stored. -/
theorem fallback?_eq_some_iff {typename : Typename} {args : Option Json} {obj : ObjectRef} :
    c.fallback? typename args = some obj ↔
      obj.typename = typename ∧ (args.bind (·.field? "id")).bind idText? = some obj.id ∧
        c.contains obj = true := by
  have hlookup : c.fallback? typename args = ((args.bind (·.field? "id")).bind idText?).bind fun id =>
      if c.contains ⟨typename, id⟩ then some ⟨typename, id⟩ else none := by
    rw [Option.bind_assoc, Option.bind_assoc]
    rfl
  rw [hlookup]
  cases (args.bind (·.field? "id")).bind idText? with
  | none => simp
  | some id =>
    obtain ⟨type, known⟩ := obj
    rw [Option.bind_some]
    split
    · rename_i hcontains
      simp only [Option.some.injEq, ObjectRef.mk.injEq]
      constructor
      · rintro ⟨rfl, rfl⟩
        exact ⟨rfl, rfl, hcontains⟩
      · rintro ⟨rfl, rfl, -⟩
        exact ⟨rfl, rfl⟩
    · rename_i hgone
      constructor
      · intro h
        cases h
      · rintro ⟨rfl, hid, hcontains⟩
        cases hid
        exact absurd hcontains hgone

theorem readQuery_new (policies : Policies) (doc : Document) (args : Option Json) :
    (new policies).readQuery doc args = .missing := by
  have hfallback : ∀ typename, (new policies).fallback? typename args = none := by
    intro typename
    simp [fallback?, contains, SortedMap.contains, new]
  have hstored : ∀ name, (new policies).root.get? name = none := fun _ => rfl
  rw [readQuery, readRoot]
  split <;> simp only [hstored, Option.filter_none, hfallback]

/-- The value that a read of a root field starts from. -/
def source? (c : Cache) (field : String) (args : Option Json) : Option Json :=
  let stored := c.root.get? (storeFieldName field args)
  match c.policies.root field with
  | some (.readReference typename) =>
    (stored.filter c.canRead).or ((c.fallback? typename args).map (·.toReference))
  | _ => stored

theorem source?_cases {args : Option Json} {w : Json} (h : c.source? field args = some w) :
    c.root.get? (storeFieldName field args) = some w ∨ ∃ obj : ObjectRef, w = obj.toReference := by
  unfold source? at h
  simp only at h
  split at h
  · rcases Option.or_eq_some_iff.1 h with hstored | ⟨-, hfallback⟩
    · exact .inl (Option.filter_eq_some_iff.1 hstored).1
    · obtain ⟨obj, -, rfl⟩ := Option.map_eq_some_iff.1 hfallback
      exact .inr ⟨obj, rfl⟩
  · exact .inl h

theorem canRead_of_source? {args : Option Json} {w : Json} {typename : Typename}
    (hpolicy : c.policies.root field = some (.readReference typename))
    (h : c.source? field args = some w) : c.canRead w = true := by
  unfold source? at h
  simp only [hpolicy] at h
  rcases Option.or_eq_some_iff.1 h with hstored | ⟨-, hfallback⟩
  · exact (Option.filter_eq_some_iff.1 hstored).2
  · obtain ⟨obj, hobj, rfl⟩ := Option.map_eq_some_iff.1 hfallback
    rw [canRead_toReference]
    exact (fallback?_eq_some_iff.1 hobj).2.2

theorem readValue_of_not_canRead {v : Json} (h : c.canRead v = false) (shape : Shape) :
    c.readValue parent field v shape = c.readDangling parent field := by
  have hnone : ∃ id, referenceId? v = some id ∧ c.objects.get? id = none := by
    unfold canRead at h
    cases hid : referenceId? v with
    | none => simp [hid] at h
    | some id =>
      rw [hid] at h
      exact ⟨id, rfl, Option.not_isSome_iff_eq_none.1 (Bool.eq_false_iff.1 h)⟩
  obtain ⟨id, hid, hgone⟩ := hnone
  have hreference := eq_reference_of_referenceId? hid
  subst hreference
  have huntracked : c.readUntracked parent field (reference id) = c.readDangling parent field := by
    rw [readUntracked_of_not_array rfl, hid]
    simp only [hgone]
  cases shape with
  | leaf => rw [readValue_leaf, huntracked]
  | list element => rw [readValue_list_of_not_array rfl, huntracked]
  | object selected =>
    rw [reference] at hid ⊢
    rw [readValue]
    simp only [hid, hgone]

theorem readRoot_eq (c : Cache) (field : String) (args : Option Json) :
    c.readRoot field args = .ofOption ((c.source? field args).bind fun w =>
      c.readValue none field w ((c.selections.get? (storeFieldName field args)).getD .leaf)) := by
  unfold readRoot source?
  simp only
  cases hpolicy : c.policies.root field with
  | none => cases c.root.get? (storeFieldName field args) <;> rfl
  | some policy =>
    cases policy with
    | readReference t =>
      simp only
      cases (c.root.get? (storeFieldName field args)).filter c.canRead with
      | some v => rfl
      | none => cases c.fallback? t args <;> rfl
    | danglingNull =>
      cases c.root.get? (storeFieldName field args) with
      | none => rfl
      | some v =>
        simp only [Option.bind_some]
        split
        · rfl
        · rename_i hread
          rw [readValue_of_not_canRead (Bool.eq_false_iff.2 hread), readDangling,
            policyOf, hpolicy]
          rfl

theorem readRoot_eq_hit {args : Option Json} {v : Json} (h : c.readRoot field args = .hit v) :
    ∃ w, c.source? field args = some w ∧
      c.readValue none field w ((c.selections.get? (storeFieldName field args)).getD .leaf) = some v := by
  rw [readRoot_eq] at h
  have hread : ((c.source? field args).bind fun w => c.readValue none field w
      ((c.selections.get? (storeFieldName field args)).getD .leaf)) = some v := by
    revert h
    generalize (c.source? field args).bind _ = read
    cases read <;> simp [ReadOutcome.ofOption]
  exact Option.bind_eq_some_iff.1 hread

theorem readQuery_of_readValue {doc : Document} {args : Option Json} {w v : Json} {shape : Shape}
    (hsource : c.source? doc.rootField args = some w)
    (hshape : (c.selections.get? (storeFieldName doc.rootField args)).getD .leaf = shape)
    (hread : c.readValue none doc.rootField w shape = some v) : c.readQuery doc args = .hit v := by
  rw [readQuery, readRoot_eq, hsource, hshape, Option.bind_some, hread]
  rfl

end Cache

end MediaCache
