import Mathlib.Algebra.GroupWithZero.Nat
import Mathlib.Data.List.Nodup
import Mathlib.Data.List.Perm.Subperm
import MediaCache.Proofs.Store.Runs

/-!
# Every object is counted once

Whatever led to a cache, its index files each stored object under the type that its cache id starts
with, and under no other. So the counts of the types add up to the number of stored objects.
-/

namespace MediaCache

def beforeColon? (s : String) : Option String :=
  (splitFirst? ':' s.toList).map fun parts => String.ofList parts.1

@[simp]
theorem beforeColon?_cacheId (o : ObjectRef) : beforeColon? o.cacheId = some o.typename.name := by
  rw [beforeColon?, ObjectRef.splitFirst?_cacheId, Option.map_some, String.ofList_toList]

theorem exists_cacheId_iff (t : Typename) (id : String) :
    (∃ key, (⟨t, key⟩ : ObjectRef).cacheId = id) ↔ beforeColon? id = some t.name := by
  constructor
  · rintro ⟨key, rfl⟩
    exact beforeColon?_cacheId _
  · intro h
    obtain ⟨⟨name, key⟩, hsplit, hname⟩ := Option.map_eq_some_iff.1 h
    refine ⟨String.ofList key, ?_⟩
    have htype : t.name.toList = name := by rw [← hname, String.toList_ofList]
    rw [← String.toList_inj, ObjectRef.toList_cacheId, eq_append_of_splitFirst? hsplit]
    simp [htype]

namespace Cache

theorem nodup_indexed (c : Cache) (t : Typename) : (c.indexed t).Nodup := by
  rw [indexed]
  split
  · exact SortedMap.nodup_keys _
  · exact List.nodup_nil

/-- The lists of the types, one after the other, are the stored objects in some order. -/
theorem Indexed.perm_keys {c : Cache} (h : c.Indexed) :
    (Typename.all.flatMap c.indexed).Perm c.objects.keys := by
  have hdisjoint : Typename.all.Pairwise fun s t => (c.indexed s).Disjoint (c.indexed t) := by
    have hne : Typename.all.Pairwise (· ≠ ·) := by decide
    refine hne.imp fun hst id hs ht => hst ?_
    obtain ⟨-, key, rfl⟩ := (h.listed _ _).1 ((mem_indexed_iff c _ _).1 hs)
    obtain ⟨-, key', hkey⟩ := (h.listed _ _).1 ((mem_indexed_iff c _ _).1 ht)
    exact (congrArg ObjectRef.typename (ObjectRef.cacheId_inj hkey)).symm
  have hnodup : (Typename.all.flatMap c.indexed).Nodup :=
    List.nodup_flatMap.2 ⟨fun t _ => nodup_indexed c t, hdisjoint⟩
  refine (List.perm_ext_iff_of_nodup hnodup c.objects.nodup_keys).2 fun id => ?_
  rw [List.mem_flatMap, ← SortedMap.contains_iff_mem_keys]
  constructor
  · rintro ⟨t, -, hid⟩
    exact ((h.listed t id).1 ((mem_indexed_iff c t id).1 hid)).1
  · intro hid
    obtain ⟨obj, hobj⟩ := h.keys id hid
    refine ⟨obj.typename, Typename.mem_all _, (mem_indexed_iff c _ _).2 ?_⟩
    exact (h.listed _ _).2 ⟨hid, obj.id, hobj⟩

theorem Indexed.sum_countOfType {c : Cache} (h : c.Indexed) :
    (Typename.all.map c.countOfType).sum = c.size := by
  have hlength := h.perm_keys.length_eq
  rw [List.length_flatMap, SortedMap.keys, List.length_map] at hlength
  exact hlength

/-- After any operations an id is listed under a type exactly when its object is stored and the type
stands before the first colon. No list is empty, every stored id starts with a type, and the counts
of the types add up. -/
theorem index_after_run (policies : Policies) (ops : List Op) :
    (∀ t id, Listed ((new policies).run ops).index t id ↔
      ((new policies).run ops).objects.contains id = true ∧ beforeColon? id = some t.name) ∧
    (∀ t ids, ((new policies).run ops).index.get? t = some ids → ids.isEmpty = false) ∧
    (∀ id, ((new policies).run ops).objects.contains id = true →
      ∃ t : Typename, beforeColon? id = some t.name) ∧
    (Typename.all.map ((new policies).run ops).countOfType).sum = ((new policies).run ops).size := by
  have h : ((new policies).run ops).Indexed := (indexed_new policies).run ops
  refine ⟨fun t id => ?_, fun t ids hids => ?_, fun id hid => ?_, h.sum_countOfType⟩
  · rw [h.listed, exists_cacheId_iff]
  · exact (SortedMap.isEmpty_eq_false_iff ids).2 (h.nonempty t ids hids)
  · obtain ⟨obj, rfl⟩ := h.keys id hid
    exact ⟨obj.typename, beforeColon?_cacheId obj⟩

end Cache

end MediaCache
