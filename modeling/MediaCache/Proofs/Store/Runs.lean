import MediaCache.Proofs.Store.Index
import MediaCache.Store.Snapshot

/-!
# Runs

A cache is made empty and changes by operations only. `Reachable` holds of every cache there can be,
and what each operation keeps holds of all of them.
-/

namespace MediaCache

namespace Cache

inductive Op where
  | writeObject (v : Json)
  | writeRoot (field : String) (args : Option Json) (data : Json)
  | writeField (obj : ObjectRef) (field : String) (v : Json)
  | modifyField (obj : ObjectRef) (field : String) (change : Json → FieldUpdate)
  | modifyRoot (field : String) (change : String → Json → FieldUpdate)
  | evictObject (obj : ObjectRef)
  | evictField (obj : ObjectRef) (field : String)
  | evictRoot (field : String)
  | retain (obj : ObjectRef)
  | release (obj : ObjectRef)
  | collect
  | reset
  /-- A snapshot with a bad key changes nothing. -/
  | restore (s : Snapshot)

def Op.run (c : Cache) : Op → Cache
  | writeObject v => (c.writeObject v).2
  | writeRoot field args data => c.writeRoot field args data
  | writeField obj field v => (c.writeField obj field v).2
  | modifyField obj field change => (c.modifyField obj field change).2
  | modifyRoot field change => (c.modifyRoot field change).2
  | evictObject obj => (c.evictObject obj).2
  | evictField obj field => (c.evictField obj field).2
  | evictRoot field => (c.evictRoot field).2
  | retain obj => c.retain obj
  | release obj => c.release obj
  | collect => c.collect.2
  | reset => c.reset
  | restore s =>
    match c.restore s with
    | .ok restored => restored
    | .error _ => c

def run (c : Cache) (ops : List Op) : Cache := ops.foldl Op.run c

def Reachable (c : Cache) : Prop := ∃ policies ops, (new policies).run ops = c

theorem Reachable.op {c : Cache} (h : c.Reachable) (op : Op) : (op.run c).Reachable := by
  obtain ⟨policies, ops, rfl⟩ := h
  refine ⟨policies, ops ++ [op], ?_⟩
  unfold run
  rw [List.foldl_append]
  rfl

/-! ## Restoring -/

theorem cacheId_of_restoreObject {id : String} {record record' : Record} {obj : ObjectRef}
    (h : restoreObject id record = .ok (obj, record')) : obj.cacheId = id := by
  rw [restoreObject] at h
  cases hp : ObjectRef.parse id with
  | error e =>
    rw [hp] at h
    cases h
  | ok o =>
    have ho : o.cacheId = id := (ObjectRef.cacheId_of_parse hp).1
    rw [hp] at h
    simp only at h
    split at h
    · cases h
      exact ho
    · split at h
      · cases h
        exact ho
      · cases h

theorem Indexed.restoreEntry {c d : Cache} (h : c.Indexed) {id : String} {record : Record}
    (hd : c.restoreEntry id record = .ok d) : d.Indexed := by
  rw [Cache.restoreEntry] at hd
  split at hd
  · cases hd
    exact h.of_sameStore ⟨rfl, rfl, rfl, rfl⟩
  · cases hr : restoreObject id record with
    | error e =>
      rw [hr] at hd
      cases hd
    | ok found =>
      obtain ⟨obj, record'⟩ := found
      have hid := cacheId_of_restoreObject hr
      subst hid
      rw [hr] at hd
      cases hd
      exact h.insert (fun id => contains_insert_iff c.objects obj.cacheId id _) rfl

theorem Indexed.restore {c d : Cache} {s : Snapshot} (hd : c.restore s = .ok d) : d.Indexed := by
  -- The induction is over the entries, from any cache with an exact index.
  have hentries : ∀ (entries : List (String × Record)) {c d : Cache}, c.Indexed →
      entries.foldlM (fun c e => c.restoreEntry e.1 e.2) c = .ok d → d.Indexed := by
    intro entries
    induction entries with
    | nil =>
      intro c d h hd
      cases hd
      exact h
    | cons e rest ih =>
      intro c d h hd
      rw [List.foldlM_cons] at hd
      cases he : c.restoreEntry e.1 e.2 with
      | error err =>
        rw [he] at hd
        cases hd
      | ok c' =>
        rw [he] at hd
        exact ih (h.restoreEntry he) hd
  rw [Cache.restore] at hd
  cases hf : s.objects.entries.foldlM (fun c e => c.restoreEntry e.1 e.2) c.reset with
  | error err =>
    rw [hf] at hd
    cases hd
  | ok c' =>
    rw [hf] at hd
    cases hd
    exact (hentries _ (indexed_new c.policies) hf).of_sameStore ⟨rfl, rfl, rfl, rfl⟩

/-! ## The index along a run -/

theorem Indexed.op {c : Cache} (h : c.Indexed) (op : Op) : (op.run c).Indexed := by
  cases op with
  | writeObject v => exact h.writeObject v
  | writeRoot field args data => exact h.writeRoot field args data
  | writeField obj field v => exact h.writeField obj field v
  | modifyField obj field change => exact h.modifyField obj field change
  | modifyRoot field change => exact h.of_sameStore (sameStore_modifyRoot c field change)
  | evictObject obj => exact h.evictObject obj
  | evictField obj field => exact h.modifyField obj field _
  | evictRoot field => exact h.of_sameStore (sameStore_evictRoot c field)
  | retain obj => exact h.of_same rfl fun _ => rfl
  | release obj => exact h.of_same rfl fun _ => rfl
  | collect => exact h.collect
  | reset => exact indexed_new c.policies
  | restore s =>
    rw [Op.run]
    split
    · rename_i hd
      exact Indexed.restore hd
    · exact h

theorem Indexed.run {c : Cache} (h : c.Indexed) (ops : List Op) : (c.run ops).Indexed := by
  induction ops generalizing c with
  | nil => exact h
  | cons op rest ih => exact ih (h.op op)

theorem Reachable.indexed {c : Cache} (h : c.Reachable) : c.Indexed := by
  obtain ⟨policies, ops, rfl⟩ := h
  exact (indexed_new policies).run ops

end Cache

end MediaCache
