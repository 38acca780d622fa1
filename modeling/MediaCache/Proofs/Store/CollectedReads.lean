import MediaCache.Proofs.Store.Prune
import MediaCache.Proofs.Store.Read
import MediaCache.Proofs.Store.Runs

/-!
# Collection does not show in reads

A read follows only references that collection has followed too. So it finds the same objects before and
after, unless it starts from an object that nothing in the cache leads to.
-/

namespace MediaCache

namespace Cache

/-- The two caches have the same objects in a set of ids that references do not leave. -/
structure AgreeOn (ids : String → Prop) (c d : Cache) : Prop where
  policies : d.policies = c.policies
  objects : ∀ id, ids id → d.objects.get? id = c.objects.get? id
  closed : ∀ id, ids id → ∀ next ∈ c.referencesOf id, ids next

/-- Every cache agrees with what collection leaves of it, on all that is reached. -/
theorem agreeOn_collect (c : Cache) : AgreeOn c.Reaches c c.collect.2 := by
  refine ⟨rfl, fun id hid => ?_, fun id hid next hnext => .step hid hnext⟩
  rw [get?_collect, if_pos hid]

namespace AgreeOn

variable {ids : String → Prop} {c d : Cache} {parent : Option Typename} {field : String}

theorem contains (h : AgreeOn ids c d) {id : String} (hid : ids id) :
    d.objects.contains id = c.objects.contains id := by
  rw [SortedMap.contains, h.objects id hid, SortedMap.contains]

theorem canRead (h : AgreeOn ids c d) {v : Json} (hv : ∀ id ∈ v.references, ids id) :
    d.canRead v = c.canRead v := by
  unfold Cache.canRead
  cases hid : referenceId? v with
  | none => rfl
  | some id => exact h.contains (hv id (Json.mem_references_of_referenceId? hid))

theorem readDangling (h : AgreeOn ids c d) :
    d.readDangling parent field = c.readDangling parent field := by
  have hpolicy : d.policyOf parent field = c.policyOf parent field := by
    cases parent <;> simp only [policyOf, h.policies]
  rw [Cache.readDangling, hpolicy, Cache.readDangling]

theorem record (h : AgreeOn ids c d) {id : String} (hid : ids id) {r : Record}
    (hr : c.objects.get? id = some r) : ∀ next ∈ Json.referencesOfFields r.entries, ids next := by
  intro next hnext
  refine h.closed id hid next ?_
  rw [referencesOf, hr]
  exact hnext

mutual

theorem readUntracked (h : AgreeOn ids c d) : ∀ v : Json, (∀ id ∈ v.references, ids id) →
    d.readUntracked parent field v = c.readUntracked parent field v
  | .array items, hv => by
    rw [Json.references] at hv
    rw [Cache.readUntracked, Cache.readUntracked, h.readUntrackedItems items hv]
  | .object fields, hv => by
    rw [readUntracked_of_not_array rfl, readUntracked_of_not_array rfl]
    cases hid : referenceId? (.object fields) with
    | none => rfl
    | some id => simp only [h.objects id (hv id (Json.mem_references_of_referenceId? hid)),
        h.readDangling]
  | .null, _ | .bool _, _ | .number _, _ | .string _, _ => by
    rw [readUntracked_of_not_array rfl, readUntracked_of_not_array rfl]
    rfl

theorem readUntrackedItems (h : AgreeOn ids c d) : ∀ items : List Json,
    (∀ id ∈ Json.referencesOfItems items, ids id) →
      d.readUntrackedItems parent field items = c.readUntrackedItems parent field items
  | [], _ => by rw [Cache.readUntrackedItems, Cache.readUntrackedItems]
  | v :: rest, hv => by
    rw [Json.referencesOfItems, List.forall_mem_append] at hv
    rw [Cache.readUntrackedItems, Cache.readUntrackedItems, h.canRead hv.1, h.readUntracked v hv.1,
      h.readUntrackedItems rest hv.2]

end

mutual

theorem readValue (h : AgreeOn ids c d) : ∀ (shape : Shape) {parent : Option Typename}
    {field : String} {v : Json}, (∀ id ∈ v.references, ids id) →
      d.readValue parent field v shape = c.readValue parent field v shape
  | .leaf, parent, field, v, hv => by
    rw [readValue_leaf, readValue_leaf, h.readUntracked v hv]
  | .object selected, parent, field, v, hv => by
    cases v with
    | object fields =>
      rw [Cache.readValue, Cache.readValue]
      cases hid : referenceId? (.object fields) with
      | none =>
        rw [Json.references_of_anonymous hid] at hv
        exact h.readSelected selected hv
      -- The reference is in the set, so both caches have the same record, or none.
      | some id =>
        have hin := hv id (Json.mem_references_of_referenceId? hid)
        simp only [h.objects id hin]
        cases hr : c.objects.get? id with
        | none => exact h.readDangling
        | some r => exact h.readSelected selected (h.record hin hr)
    | _ =>
      rw [readValue_object_of_not_object rfl, readValue_object_of_not_object rfl, h.readUntracked _ hv]
  | .list element, parent, field, v, hv => by
    cases v with
    | array items =>
      have hitem : ∀ item ∈ items, ∀ id ∈ item.references, ids id :=
        fun item hin id hid => hv id (Json.references_of_item hin hid)
      -- Items that are references to nothing are left out of both lists alike.
      have hsame : items.filter d.canRead = items.filter c.canRead :=
        List.filter_congr fun item hin => h.canRead (hitem item hin)
      rw [Cache.readValue, Cache.readValue, hsame]
      congr 1
      refine mapM_congr fun item hin => ?_
      exact h.readValue element (hitem item (List.mem_filter.1 hin).1)
    | _ =>
      rw [readValue_list_of_not_array rfl, readValue_list_of_not_array rfl, h.readUntracked _ hv]

theorem readSelected (h : AgreeOn ids c d) (selected : List (String × Shape)) {fields : Json.Fields}
    (hv : ∀ id ∈ Json.referencesOfFields fields, ids id) :
    d.readSelected fields selected = c.readSelected fields selected := by
  rw [Cache.readSelected, Cache.readSelected, h.readFields selected hv]

theorem readFields (h : AgreeOn ids c d) : ∀ (selected : List (String × Shape))
    {parent : Option Typename} {fields : Json.Fields},
    (∀ id ∈ Json.referencesOfFields fields, ids id) → ∀ {read : Json.Fields},
      d.readFields parent fields selected read = c.readFields parent fields selected read
  | [], _, _, _, _ => by rw [Cache.readFields, Cache.readFields]
  | (key, shape) :: rest, parent, fields, hv, read => by
    rw [Cache.readFields, Cache.readFields]
    refine Option.bind_congr fun stored hstored => ?_
    have hmember : ∀ id ∈ stored.references, ids id :=
      fun id hid => hv id (Json.references_of_member hstored hid)
    rw [h.readValue shape hmember]
    refine Option.bind_congr fun v _ => ?_
    exact h.readFields rest hv

end

theorem readRoot (h : AgreeOn ids c d) {field : String} {args : Option Json}
    (hentry : d.entry (storeFieldName field args) = c.entry (storeFieldName field args))
    (hstored : ∀ v, c.root.get? (storeFieldName field args) = some v → ∀ id ∈ v.references, ids id)
    (hfallback : ∀ t, c.policies.root field = some (.readReference t) →
      (c.root.get? (storeFieldName field args)).filter c.canRead = none →
        d.fallback? t args = c.fallback? t args ∧
          ∀ obj, c.fallback? t args = some obj → ids obj.cacheId) :
    d.readRoot field args = c.readRoot field args := by
  have hroot : d.root.get? (storeFieldName field args) = c.root.get? (storeFieldName field args) :=
    congrArg Prod.fst hentry
  have hshape : d.selections.get? (storeFieldName field args) =
      c.selections.get? (storeFieldName field args) := congrArg Prod.snd hentry
  unfold Cache.readRoot
  simp only [hroot, hshape, h.policies]
  cases hpolicy : c.policies.root field with
  | none =>
    cases hv : c.root.get? (storeFieldName field args) with
    | none => rfl
    | some v => simp only [h.readValue _ (hstored v hv)]
  | some policy =>
    cases policy with
    | danglingNull =>
      cases hv : c.root.get? (storeFieldName field args) with
      | none => rfl
      | some v => simp only [h.canRead (hstored v hv), h.readValue _ (hstored v hv)]
    | readReference t =>
      have hfilter : (c.root.get? (storeFieldName field args)).filter d.canRead =
          (c.root.get? (storeFieldName field args)).filter c.canRead := by
        cases hv : c.root.get? (storeFieldName field args) with
        | none => rfl
        | some v => rw [Option.filter_some, Option.filter_some, h.canRead (hstored v hv)]
      simp only [hfilter]
      cases hv : (c.root.get? (storeFieldName field args)).filter c.canRead with
      | some v => simp only [h.readValue _ (hstored v (Option.filter_eq_some_iff.1 hv).1)]
      | none =>
        -- Nothing in the entry can be read, and both start from the fallback.
        obtain ⟨hsame, hin⟩ := hfallback t hpolicy hv
        rw [hsame]
        cases hobj : c.fallback? t args with
        | none => rfl
        | some obj =>
          have hreference : ∀ id ∈ obj.toReference.references, ids id := by
            intro id hid
            rw [Json.references_toReference, List.mem_singleton] at hid
            exact hid ▸ hin obj hobj
          simp only [h.readValue _ hreference]

end AgreeOn

theorem SameStore.readRoot {c d : Cache} (h : SameStore c d) {field : String} {args : Option Json}
    (hentry : d.entry (storeFieldName field args) = c.entry (storeFieldName field args)) :
    d.readRoot field args = c.readRoot field args := by
  have hagree : AgreeOn (fun _ => True) c d :=
    ⟨h.policies, fun _ _ => by rw [h.objects], fun _ _ _ _ => trivial⟩
  refine hagree.readRoot hentry (fun _ _ _ _ => trivial) fun t _ _ =>
    ⟨Option.ext fun obj => ?_, fun _ _ => trivial⟩
  rw [fallback?_eq_some_iff, fallback?_eq_some_iff, contains_eq, contains_eq, h.objects]

/-! ## Collection -/

/-- A read of this root field finds no object at its entry and falls back to one that is stored, though
nothing leads to it. -/
def FallsBackToUnreached (c : Cache) (field : String) (args : Option Json) : Prop :=
  ∃ t obj, c.policies.root field = some (.readReference t) ∧
    (∀ v, c.root.get? (storeFieldName field args) = some v → c.canRead v = false) ∧
    c.fallback? t args = some obj ∧ ¬c.Reaches obj.cacheId

theorem fallback?_collect {c : Cache} {t : Typename} {args : Option Json} :
    (∀ obj, c.fallback? t args = some obj → c.Reaches obj.cacheId) →
      c.collect.2.fallback? t args = c.fallback? t args := by
  intro hreached
  refine Option.ext fun obj => ?_
  rw [fallback?_eq_some_iff, contains_eq, contains_collect_iff, ← contains_eq]
  constructor
  · rintro ⟨htype, hid, hcontains, -⟩
    exact fallback?_eq_some_iff.2 ⟨htype, hid, hcontains⟩
  · intro hobj
    obtain ⟨htype, hid, hcontains⟩ := fallback?_eq_some_iff.1 hobj
    exact ⟨htype, hid, hcontains, hreached obj hobj⟩

theorem fallback?_collect_eq_none {c : Cache} {t : Typename} {args : Option Json} {obj : ObjectRef}
    (hobj : c.fallback? t args = some obj) (hreach : ¬c.Reaches obj.cacheId) :
    c.collect.2.fallback? t args = none := by
  refine Option.eq_none_iff_forall_ne_some.2 fun other hother => hreach ?_
  obtain ⟨htype, hid, -⟩ := fallback?_eq_some_iff.1 hobj
  obtain ⟨htype', hid', hcontains⟩ := fallback?_eq_some_iff.1 hother
  have hsame : other = obj := by
    cases other
    cases obj
    simp_all
  rw [contains_eq, contains_collect_iff, hsame] at hcontains
  exact hcontains.2

theorem readRoot_collect {c : Cache} {field : String} {args : Option Json}
    (h : ¬c.FallsBackToUnreached field args) :
    c.collect.2.readRoot field args = c.readRoot field args := by
  refine c.agreeOn_collect.readRoot ((sameRoot_collect c).entry _) ?_ ?_
  · intro v hv id hid
    exact .root ((mem_rootReferences_iff c id).2 (.inr ⟨_, v, hv, hid⟩))
  · intro t hpolicy hstored
    have hreached : ∀ obj, c.fallback? t args = some obj → c.Reaches obj.cacheId := fun obj hobj =>
      Classical.byContradiction fun hunreached =>
        h ⟨t, obj, hpolicy, filter_canRead_eq_none_iff.1 hstored, hobj, hunreached⟩
    exact ⟨fallback?_collect hreached, hreached⟩

/-- Collection takes an object that a look-up found by its id alone. -/
theorem readRoot_collect_eq_missing {c : Cache} {field : String} {args : Option Json}
    (h : c.FallsBackToUnreached field args) : c.collect.2.readRoot field args = .missing := by
  obtain ⟨t, obj, hpolicy, hstored, hobj, hunreached⟩ := h
  have hgone : (c.root.get? (storeFieldName field args)).filter c.collect.2.canRead = none := by
    refine filter_canRead_eq_none_iff.2 fun v hv => ?_
    rw [c.agreeOn_collect.canRead fun id hid => .root ((mem_rootReferences_iff c id).2
      (.inr ⟨_, v, hv, hid⟩))]
    exact hstored v hv
  have hroot : c.collect.2.root = c.root := rfl
  have hpolicies : c.collect.2.policies = c.policies := rfl
  unfold Cache.readRoot
  simp only [hroot, hpolicies, hpolicy, hgone, fallback?_collect_eq_none hobj hunreached]

theorem ascending_removed (c : Cache) :
    c.collect.1.removed.Pairwise fun a b => compare a b = .lt := by
  have hkeys : c.objects.keys.Pairwise fun a b => compare a b = .lt :=
    List.pairwise_map.2 c.objects.ordered
  exact hkeys.sublist List.filter_sublist

theorem collect_collect {c : Cache} (hc : c.Indexed) :
    c.collect.2.collect = (⟨c.collect.2.size, []⟩, c.collect.2) := by
  have hpruned := pruned_collect hc
  have hsame : c.collect.2.collect.2 = c.collect.2 := hpruned.collect_eq hc
  have hremoved : c.collect.2.collect.1.removed = [] := by
    refine List.eq_nil_iff_forall_not_mem.2 fun id hid => ?_
    obtain ⟨hstored, hunreached⟩ := (mem_removed_iff _ id).1 hid
    exact hunreached ((hpruned.reaches_iff id).2 ((contains_collect_iff c id).1 hstored).2)
  have hscanned : c.collect.2.collect.1.scanned = c.collect.2.size := congrArg size hsame
  refine Prod.ext ?_ hsame
  cases hresult : c.collect.2.collect.1 with
  | mk scanned removed =>
    rw [hresult] at hremoved hscanned
    exact congrArg₂ CollectResult.mk hscanned hremoved

/-- Collection keeps exactly what is reached, and a read shows it only where it fell back to an object
that is not. -/
theorem collect_exact {c : Cache} (hc : c.Reachable) :
    (∀ id, c.collect.2.objects.contains id = true ↔ c.objects.contains id = true ∧ c.Reaches id) ∧
    (∀ id, c.collect.2.objects.contains id = true →
      c.collect.2.objects.get? id = c.objects.get? id) ∧
    c.collect.2.root = c.root ∧ c.collect.2.selections = c.selections ∧
    c.collect.2.retained = c.retained ∧ c.collect.2.policies = c.policies ∧
    c.collect.2.Indexed ∧
    (c.collect.1.removed.Pairwise fun a b => compare a b = .lt) ∧
    (∀ id, id ∈ c.collect.1.removed ↔
      c.objects.contains id = true ∧ c.collect.2.objects.contains id = false) ∧
    c.collect.1.scanned = c.collect.2.size ∧
    c.collect.2.collect = (⟨c.collect.2.size, []⟩, c.collect.2) ∧
    ∀ field args,
      (¬c.FallsBackToUnreached field args →
        c.collect.2.readRoot field args = c.readRoot field args) ∧
      (c.FallsBackToUnreached field args → c.collect.2.readRoot field args = .missing) := by
  refine ⟨contains_collect_iff c, fun _ => get?_collect_of_contains, rfl, rfl, rfl, rfl,
    hc.indexed.collect, ascending_removed c, fun id => ?_, rfl, collect_collect hc.indexed,
    fun field args => ⟨readRoot_collect, readRoot_collect_eq_missing⟩⟩
  rw [mem_removed_iff, ← Bool.not_eq_true, contains_collect_iff]
  exact and_congr_right fun hstored => not_congr (by simp [hstored])

/-- Tags 1 and 2 refer to each other, and tag 1 to a tag that is gone. Nothing leads to tag 3. -/
def linkedTags : Cache :=
  (new .standard).run [
    .writeRoot "allTags" none (.array [
      .object [("__typename", .string "Tag"), ("id", .string "1"),
        ("parents", .array [reference "Tag:2", reference "Tag:9"])]]),
    .writeObject (.object [("__typename", .string "Tag"), ("children", .array [reference "Tag:1"]),
      ("id", .string "2")]),
    .writeObject (.object [("__typename", .string "Tag"), ("id", .string "3")])]

def thirdTag : Json := .object [("id", .string "3")]

/-- Collection takes tag 3, which a look-up by its id had found, and the list of tags reads as before. -/
theorem linkedTags_collected :
    linkedTags.Reachable ∧
      linkedTags.collect.1 = ⟨2, ["Tag:3"]⟩ ∧ linkedTags.collect.2.objects.keys = ["Tag:1", "Tag:2"] ∧
      linkedTags.collect.2.readRoot "allTags" none = linkedTags.readRoot "allTags" none ∧
      linkedTags.readRoot "findTag" (some thirdTag) =
        .hit (.object [("__typename", .string "Tag"), ("id", .string "3")]) ∧
      linkedTags.collect.2.readRoot "findTag" (some thirdTag) = .missing := by
  have hreach : linkedTags.Reachable := ⟨_, _, rfl⟩
  have hremoved : linkedTags.collect.1.removed = ["Tag:3"] := by decide +kernel
  have hunreached : ¬linkedTags.Reaches "Tag:3" :=
    ((mem_removed_iff linkedTags "Tag:3").1 (hremoved ▸ List.mem_singleton_self _)).2
  have hlisted : ¬linkedTags.FallsBackToUnreached "allTags" none := by
    rintro ⟨t, obj, hpolicy, -⟩
    cases hpolicy
  have hlookup : linkedTags.FallsBackToUnreached "findTag" (some thirdTag) :=
    ⟨.tag, ⟨.tag, "3"⟩, rfl, by decide +kernel, by decide +kernel, hunreached⟩
  have hfound : linkedTags.readRoot "findTag" (some thirdTag) =
      .hit (.object [("__typename", .string "Tag"), ("id", .string "3")]) := by
    have hpolicy : linkedTags.policies.root "findTag" = some (.readReference .tag) := rfl
    have hroot : linkedTags.root.get? (storeFieldName "findTag" (some thirdTag)) = none := by
      decide +kernel
    have hshape : linkedTags.selections.get? (storeFieldName "findTag" (some thirdTag)) = none := by
      decide +kernel
    have hobj : linkedTags.fallback? .tag (some thirdTag) = some ⟨.tag, "3"⟩ := by decide +kernel
    -- The reads are by well-founded recursion, so the look-up is opened before it is evaluated.
    unfold Cache.readRoot
    simp only [hpolicy, hroot, hshape, hobj, Option.filter_none, Option.getD_none, readValue_leaf]
    decide +kernel
  obtain ⟨-, -, -, -, -, -, -, -, -, -, -, hread⟩ := collect_exact hreach
  exact ⟨hreach, by decide +kernel, by decide +kernel, (hread "allTags" none).1 hlisted, hfound,
    (hread "findTag" (some thirdTag)).2 hlookup⟩

end Cache

end MediaCache
