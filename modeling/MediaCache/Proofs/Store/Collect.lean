import MediaCache.Proofs.Store.Objects
import MediaCache.Store.Collect

/-!
# What collection keeps

`Reaches` is reachability as a relation. Collection keeps exactly the stored objects that are reached
and changes nothing else.
-/

namespace MediaCache

/-! ## References in data -/

namespace Json

theorem mem_referencesOfFields {fields : Fields} {id : String} :
    id ∈ referencesOfFields fields ↔ ∃ e ∈ fields, id ∈ e.2.references := by
  induction fields with
  | nil => simp [referencesOfFields]
  | cons e rest ih =>
    obtain ⟨key, v⟩ := e
    simp [referencesOfFields, ih]

theorem mem_referencesOfItems {items : List Json} {id : String} :
    id ∈ referencesOfItems items ↔ ∃ v ∈ items, id ∈ v.references := by
  induction items with
  | nil => simp [referencesOfItems]
  | cons v rest ih => simp [referencesOfItems, ih]

theorem references_of_member {fields : Fields} {key : String} {v : Json}
    (h : Assoc.get? key fields = some v) : v.references ⊆ referencesOfFields fields :=
  fun _ hid => mem_referencesOfFields.2 ⟨(key, v), Assoc.mem_of_get? h, hid⟩

theorem references_of_item {items : List Json} {v : Json} (h : v ∈ items) :
    v.references ⊆ (array items).references := by
  intro id hid
  rw [references]
  exact mem_referencesOfItems.2 ⟨v, h, hid⟩

theorem mem_references_of_referenceId? {v : Json} {id : String} (h : referenceId? v = some id) :
    id ∈ v.references := by
  cases v with
  | object fields =>
    rw [references, h]
    exact List.mem_singleton.2 rfl
  | _ => cases h

theorem references_of_anonymous {fields : Fields} (h : referenceId? (object fields) = none) :
    (object fields).references = referencesOfFields fields := by
  rw [references, h]

@[simp]
theorem references_toReference (obj : ObjectRef) : obj.toReference.references = [obj.cacheId] := by
  rw [ObjectRef.toReference, reference, references, ← reference, ← ObjectRef.toReference,
    ObjectRef.referenceId?_toReference]

/-- An object with a number among its members is no reference. -/
theorem references_of_number_member {fields : Fields} {key : String} {n : Number}
    (h : Assoc.get? key fields = some (number n)) :
    (object fields).references = referencesOfFields fields := by
  have hnone : referenceId? (object fields) = none := by
    unfold referenceId?
    split
    · rename_i k id heq
      cases heq
      have := List.mem_singleton.1 (Assoc.mem_of_get? h)
      cases this
    · rfl
  rw [references, hnone]

end Json

/-! ## Visits -/

inductive PathIn (next : String → List String) (domain : List String) : String → String → Prop where
  | stop {id : String} : id ∈ domain → PathIn next domain id id
  | step {id mid last : String} : id ∈ domain → mid ∈ next id → PathIn next domain mid last →
      PathIn next domain id last

namespace PathIn

variable {next : String → List String} {domain : List String} {id mid last : String}

theorem start_mem (h : PathIn next domain id last) : id ∈ domain := by
  cases h with
  | stop hid => exact hid
  | step hid _ _ => exact hid

theorem last_mem (h : PathIn next domain id last) : last ∈ domain := by
  induction h with
  | stop hid => exact hid
  | step _ _ _ ih => exact ih

theorem mono {larger : List String} (hsub : ∀ x ∈ domain, x ∈ larger)
    (h : PathIn next domain id last) : PathIn next larger id last := by
  induction h with
  | stop hid => exact .stop (hsub _ hid)
  | step hid hmid _ ih => exact .step (hsub _ hid) hmid ih

theorem extend (h : PathIn next domain id mid) (hmid : last ∈ next mid) (hlast : last ∈ domain) :
    PathIn next domain id last := by
  induction h with
  | stop hid => exact .step hid hmid (.stop hlast)
  | step hid hnext _ ih => exact .step hid hnext (ih hmid)

/-- A path can be cut so that it passes a given member only at its start. -/
theorem avoid (x : String) (h : PathIn next domain id last) :
    last = x ∨ (∃ n ∈ next x, PathIn next (domain.erase x) n last) ∨
      PathIn next (domain.erase x) id last := by
  induction h with
  | @stop id hid =>
    by_cases hx : id = x
    · exact .inl hx
    · exact .inr (.inr (.stop ((List.mem_erase_of_ne hx).2 hid)))
  | @step id mid last hid hmid _ ih =>
    rcases ih with hx | hx | hx
    · exact .inl hx
    · exact .inr (.inl hx)
    · by_cases hidx : id = x
      · subst hidx
        exact .inr (.inl ⟨mid, hmid, hx⟩)
      · exact .inr (.inr (.step ((List.mem_erase_of_ne hidx).2 hid) hmid hx))

end PathIn

theorem pathIn_dropWhile {next : String → List String} {domain pending : List String} {last : String} :
    (∃ p ∈ pending, PathIn next domain p last) ↔
      ∃ p ∈ pending.dropWhile fun id => !domain.contains id, PathIn next domain p last := by
  constructor
  · rintro ⟨p, hp, hpath⟩
    refine ⟨p, ?_, hpath⟩
    rw [← List.takeWhile_append_dropWhile (p := fun id => !domain.contains id) (l := pending)] at hp
    rcases List.mem_append.1 hp with hskip | hleft
    · have := List.all_eq_true.1 List.all_takeWhile p hskip
      simp only [Bool.not_eq_true', List.contains_eq_mem, decide_eq_false_iff_not] at this
      exact absurd hpath.start_mem this
    · exact hleft
  · rintro ⟨p, hp, hpath⟩
    exact ⟨p, (List.dropWhile_sublist _).mem hp, hpath⟩

/-- With room for every member, a visit finds what a path from a pending member leads to. -/
theorem mem_visit_iff (next : String → List String) (fuel : Nat) (domain pending : List String)
    (hdomain : domain.Nodup) (hfuel : domain.length ≤ fuel) (x : String) :
    x ∈ visit next fuel domain pending ↔ ∃ p ∈ pending, PathIn next domain p x := by
  induction fuel generalizing domain pending with
  | zero =>
    have : domain = [] := List.eq_nil_of_length_eq_zero (by omega)
    subst this
    simp only [visit, List.not_mem_nil, false_iff, not_exists, not_and]
    intro p _ h
    exact absurd h.start_mem (by simp)
  | succ fuel ih =>
    rw [pathIn_dropWhile, visit]
    cases hd : pending.dropWhile fun id => !domain.contains id with
    | nil => simp
    -- The visit takes this member and leaves the rest of the domain.
    | cons id rest =>
      have hid : id ∈ domain := by
        have := List.head?_dropWhile_not (fun id => !domain.contains id) pending
        rw [hd] at this
        simpa using this
      have hlen : (domain.erase id).length ≤ fuel := by
        rw [List.length_erase_of_mem hid]
        omega
      rw [List.mem_cons, ih _ _ (hdomain.erase id) hlen]
      have hsub : ∀ y ∈ domain.erase id, y ∈ domain := fun y hy => List.mem_of_mem_erase hy
      constructor
      · -- A path from a neighbour within the rest is one from the member itself.
        rintro (rfl | ⟨p, hp, hpath⟩)
        · exact ⟨x, List.mem_cons_self, .stop hid⟩
        · rcases List.mem_append.1 hp with hn | hrest
          · exact ⟨id, List.mem_cons_self, .step hid hn (hpath.mono hsub)⟩
          · exact ⟨p, List.mem_cons_of_mem _ hrest, hpath.mono hsub⟩
      · -- A path that passes the member again is cut at its last visit.
        rintro ⟨p, hp, hpath⟩
        rcases hpath.avoid id with hx | ⟨n, hn, hx⟩ | hx
        · exact .inl hx
        · exact .inr ⟨n, List.mem_append_left _ hn, hx⟩
        · rcases List.mem_cons.1 hp with rfl | hrest
          · exact absurd hx.start_mem hdomain.not_mem_erase
          · exact .inr ⟨p, List.mem_append_right _ hrest, hx⟩

/-! ## Reachability -/

namespace Cache

/-- The id is retained or named by a root entry, or a stored object that is reached names it. -/
inductive Reaches (c : Cache) : String → Prop where
  | root {id : String} : id ∈ c.rootReferences → Reaches c id
  | step {id next : String} : Reaches c id → next ∈ c.referencesOf id → Reaches c next

theorem contains_of_mem_referencesOf {c : Cache} {id next : String} (h : next ∈ c.referencesOf id) :
    c.objects.contains id = true := by
  rw [referencesOf] at h
  rw [SortedMap.contains]
  cases hr : c.objects.get? id with
  | none =>
    rw [hr] at h
    simp at h
  | some r => rfl

theorem mem_reachable_iff (c : Cache) (id : String) :
    id ∈ c.reachable ↔ c.objects.contains id = true ∧ c.Reaches id := by
  have hlen : c.objects.keys.length ≤ c.objects.size := by
    rw [SortedMap.keys, List.length_map]
    exact Nat.le_refl _
  rw [reachable, mem_visit_iff _ _ _ _ c.objects.nodup_keys hlen]
  constructor
  · rintro ⟨p, hp, hpath⟩
    refine ⟨(c.objects.contains_iff_mem_keys id).2 hpath.last_mem, ?_⟩
    have hstart : c.Reaches p := .root hp
    clear hp
    induction hpath with
    | stop _ => exact hstart
    | step _ hmid _ ih => exact ih (.step hstart hmid)
  · rintro ⟨hid, hreach⟩
    rw [SortedMap.contains_iff_mem_keys] at hid
    induction hreach with
    | root hroot => exact ⟨_, hroot, .stop hid⟩
    | step _ hnext ih =>
      have hmid := contains_of_mem_referencesOf hnext
      obtain ⟨p, hp, hpath⟩ := ih ((c.objects.contains_iff_mem_keys _).1 hmid)
      exact ⟨p, hp, hpath.extend hnext hid⟩

theorem reaches_iff (c : Cache) (id : String) :
    c.Reaches id ↔ id ∈ c.rootReferences ∨ ∃ p ∈ c.reachable, id ∈ c.referencesOf p := by
  constructor
  · rintro (hroot | ⟨hreach, hnext⟩)
    · exact .inl hroot
    · exact .inr ⟨_, (mem_reachable_iff c _).2 ⟨contains_of_mem_referencesOf hnext, hreach⟩, hnext⟩
  · rintro (hroot | ⟨p, hp, hnext⟩)
    · exact .root hroot
    · exact .step ((mem_reachable_iff c p).1 hp).2 hnext

instance (c : Cache) (id : String) : Decidable (c.Reaches id) :=
  decidable_of_iff _ (c.reaches_iff id).symm

theorem Reaches.mono {c d : Cache} (hroot : ∀ id ∈ c.rootReferences, id ∈ d.rootReferences)
    (hnext : ∀ id, ∀ n ∈ c.referencesOf id, n ∈ d.referencesOf id) {id : String} (h : c.Reaches id) :
    d.Reaches id := by
  induction h with
  | root h => exact .root (hroot _ h)
  | step _ h ih => exact .step ih (hnext _ _ h)

/-! ## Collection -/

theorem sameRoot_collect (c : Cache) : SameRoot c c.collect.2 := ⟨rfl, rfl, rfl, rfl⟩

/-- Collection keeps an object as it is when it is reached, and drops it otherwise. -/
theorem get?_collect (c : Cache) (id : String) :
    c.collect.2.objects.get? id = if c.Reaches id then c.objects.get? id else none := by
  have hdef : c.collect.2.objects = c.objects.filter fun id _ => c.reachable.contains id := rfl
  rw [hdef, SortedMap.get?_filter]
  cases hr : c.objects.get? id with
  | none => simp
  | some r =>
    have hin : c.objects.contains id = true := by simp [SortedMap.contains, hr]
    have hiff := mem_reachable_iff c id
    by_cases h : c.Reaches id
    · simp [Option.filter, hiff.2 ⟨hin, h⟩, h]
    · have hnot : id ∉ c.reachable := fun hmem => h (hiff.1 hmem).2
      simp [Option.filter, hnot, h]

@[simp]
theorem contains_collect_iff (c : Cache) (id : String) :
    c.collect.2.objects.contains id = true ↔ c.objects.contains id = true ∧ c.Reaches id := by
  rw [SortedMap.contains, get?_collect, SortedMap.contains]
  split
  · rename_i h
    simp [h]
  · rename_i h
    simp [h]

theorem mem_removed_iff (c : Cache) (id : String) :
    id ∈ c.collect.1.removed ↔ c.objects.contains id = true ∧ ¬c.Reaches id := by
  have hdef : c.collect.1.removed = c.objects.keys.filter fun id => !c.reachable.contains id := rfl
  have hiff := mem_reachable_iff c id
  rw [hdef, List.mem_filter, ← SortedMap.contains_iff_mem_keys]
  constructor
  · rintro ⟨hin, hnot⟩
    refine ⟨hin, fun hreach => ?_⟩
    simp [hiff.2 ⟨hin, hreach⟩] at hnot
  · rintro ⟨hin, hnot⟩
    have : id ∉ c.reachable := fun hmem => hnot (hiff.1 hmem).2
    exact ⟨hin, by simp [this]⟩

theorem index_collect (c : Cache) :
    c.collect.2.index = (c.index.mapValues fun ids => ids.filter fun id _ =>
      !c.collect.1.removed.contains id).filter fun _ ids => !ids.isEmpty := rfl

theorem get?_collect_of_contains {c : Cache} {id : String}
    (h : c.collect.2.objects.contains id = true) :
    c.collect.2.objects.get? id = c.objects.get? id := by
  rw [get?_collect, if_pos ((contains_collect_iff c id).1 h).2]

end Cache

end MediaCache
