import MediaCache.Proofs.Store.Index

/-!
# Collecting early or late

`Pruned d c` says that `d` is `c` without some objects that cannot be reached. Collection does not tell
the two apart, so it does not matter how often it ran before.
-/

namespace MediaCache

theorem Record.mem_references_iff (r : Record) (id : String) :
    id ∈ r.references ↔ ∃ key v, r.get? key = some v ∧ id ∈ v.references := by
  unfold Record.references
  rw [Json.mem_referencesOfFields]
  constructor
  · rintro ⟨⟨key, v⟩, hmem, hid⟩
    exact ⟨key, v, (r.get?_eq_some_iff_mem key v).2 hmem, hid⟩
  · rintro ⟨key, v, hv, hid⟩
    exact ⟨(key, v), (r.get?_eq_some_iff_mem key v).1 hv, hid⟩

namespace Cache

theorem mem_rootReferences_iff (c : Cache) (id : String) :
    id ∈ c.rootReferences ↔
      c.retained.contains id = true ∨ ∃ name v, (c.entry name).1 = some v ∧ id ∈ v.references := by
  unfold rootReferences
  rw [List.mem_append, SortedSet.mem_toList, Record.mem_references_iff]
  rfl

theorem mem_referencesOf_iff (c : Cache) (id next : String) :
    next ∈ c.referencesOf id ↔
      ∃ r key v, c.objects.get? id = some r ∧ r.get? key = some v ∧ next ∈ v.references := by
  unfold referencesOf
  cases hr : c.objects.get? id with
  | none => simp
  | some r => simp [Record.mem_references_iff]

/-- Caches with exact indices are equal when look-ups show the same. -/
theorem eq_of_lookups {c d : Cache} (hc : c.Indexed) (hd : d.Indexed)
    (hpolicies : d.policies = c.policies) (hretained : d.retained = c.retained)
    (hentries : ∀ name, d.entry name = c.entry name)
    (hobjects : ∀ id, d.objects.get? id = c.objects.get? id) : d = c := by
  have hroot : d.root = c.root := SortedMap.ext fun name => congrArg Prod.fst (hentries name)
  have hselections : d.selections = c.selections :=
    SortedMap.ext fun name => congrArg Prod.snd (hentries name)
  have hindex : d.index = c.index := by
    refine hd.index_eq hc fun id => ?_
    rw [SortedMap.contains, SortedMap.contains, hobjects]
  exact SameRoot.eq_of_objects ⟨hpolicies, hroot, hselections, hretained⟩ (SortedMap.ext hobjects) hindex

structure Pruned (d c : Cache) : Prop where
  sameRoot : SameRoot c d
  objects : ∀ id, d.objects.get? id = c.objects.get? id ∨
    d.objects.get? id = none ∧ ¬c.Reaches id
  indexed : d.Indexed

theorem Pruned.refl {c : Cache} (hc : c.Indexed) : Pruned c c :=
  ⟨SameRoot.refl c, fun _ => .inl rfl, hc⟩

theorem pruned_collect {c : Cache} (hc : c.Indexed) : Pruned c.collect.2 c := by
  refine ⟨sameRoot_collect c, fun id => ?_, hc.collect⟩
  rw [get?_collect]
  by_cases h : c.Reaches id
  · left
    rw [if_pos h]
  · right
    rw [if_neg h]
    exact ⟨rfl, h⟩

theorem SameRoot.rootReferences {c d : Cache} (h : SameRoot c d) :
    d.rootReferences = c.rootReferences := by
  unfold Cache.rootReferences
  rw [h.retained, h.root]

/-- The same ids are reached with and without the objects that are not. -/
theorem Pruned.reaches_iff {c d : Cache} (h : Pruned d c) (id : String) :
    d.Reaches id ↔ c.Reaches id := by
  constructor
  · refine Reaches.mono (fun i hi => h.sameRoot.rootReferences ▸ hi) fun i n hn => ?_
    obtain ⟨r, key, v, hr, hv, hin⟩ := (mem_referencesOf_iff d i n).1 hn
    rcases h.objects i with hsame | ⟨hnone, -⟩
    · exact (mem_referencesOf_iff c i n).2 ⟨r, key, v, hsame ▸ hr, hv, hin⟩
    · rw [hnone] at hr
      cases hr
  · intro hreach
    induction hreach with
    | root hroot => exact .root (h.sameRoot.rootReferences ▸ hroot)
    | step hmid hnext ih =>
      refine .step ih ?_
      obtain ⟨r, key, v, hr, hv, hin⟩ := (mem_referencesOf_iff c _ _).1 hnext
      rcases h.objects _ with hsame | ⟨-, hlost⟩
      · exact (mem_referencesOf_iff d _ _).2 ⟨r, key, v, hsame ▸ hr, hv, hin⟩
      · exact absurd hmid hlost

theorem Pruned.collect_eq {c d : Cache} (h : Pruned d c) (hc : c.Indexed) :
    d.collect.2 = c.collect.2 := by
  refine eq_of_lookups hc.collect h.indexed.collect h.sameRoot.policies h.sameRoot.retained ?_ ?_
  · intro name
    rw [(sameRoot_collect d).entry, (sameRoot_collect c).entry, h.sameRoot.entry]
  · intro id
    rw [get?_collect, get?_collect]
    by_cases hreach : c.Reaches id
    · rw [if_pos ((h.reaches_iff id).2 hreach), if_pos hreach]
      rcases h.objects id with hsame | ⟨-, hlost⟩
      · exact hsame
      · exact absurd hreach hlost
    · rw [if_neg fun hd => hreach ((h.reaches_iff id).1 hd), if_neg hreach]

end Cache

end MediaCache
