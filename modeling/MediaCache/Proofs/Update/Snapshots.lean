import MediaCache.Proofs.Store.CollectedReads
import MediaCache.Proofs.Update.OneCopy
import MediaCache.Proofs.Update.Stored

/-!
# Snapshots lose nothing that a read can see

Whatever happened to a cache, the JSON form of its snapshot says what the snapshot says, and another
cache that is restored from it has the same contents. An object with an empty id could not be restored:
its cache id does not read back.
-/

namespace MediaCache

namespace Cache

variable {c : Cache}

/-- Values whose keys are in order are replaced by such values. -/
def Op.KeepsOrder : Op → Prop
  | modifyField _ _ change => ∀ v w, v.Sorted → change v = .set w → w.Sorted
  | modifyRoot _ change => ∀ name v w, v.Sorted → change name v = .set w → w.Sorted
  | _ => True

def Action.KeepsOrder : Action → Prop
  | op o => o.KeepsOrder
  | mutation _ _ _ _ => True

def Action.storedEntities (c : Cache) : Action → List (ObjectRef × Json.Fields)
  | op o => o.storedEntities c
  | mutation _ _ m result => m.storedEntities result

/-- No action stores an object with an empty id. -/
def StoresIds (c : Cache) : List Action → Prop
  | [] => True
  | a :: rest => (∀ e ∈ a.storedEntities c, e.1.id ≠ "") ∧ StoresIds (a.run c) rest

def decideStoresIds : (c : Cache) → (actions : List Action) → Decidable (c.StoresIds actions)
  | _, [] => .isTrue trivial
  | c, a :: rest =>
    have := decideStoresIds (a.run c) rest
    inferInstanceAs (Decidable (_ ∧ _))

instance (c : Cache) (actions : List Action) : Decidable (c.StoresIds actions) :=
  decideStoresIds c actions

theorem lasting_sorted : Json.Lasting Json.Sorted where
  null := trivial
  text _ := trivial
  integer _ := trivial
  sum h := Json.sorted_of_isScalar (addNumber?_isScalar h)
  append id h := Json.hereditary_sorted.list fun v hv => by
    rcases List.mem_append.1 hv with hold | hnew
    · exact Json.hereditary_sorted.item h v hold
    · rw [List.mem_singleton.1 hnew]
      exact Json.hereditary_sorted.linked id
  member key h hw _ := h.insert key hw
  without key h := ⟨h.1.erase key, Json.sortedFields_iff.2 fun e he =>
    Json.sortedFields_iff.1 h.2 e (List.mem_filter.1 he).1⟩

/-! ## Along a run -/

/-- The cache has its keys in order and can be restored. -/
structure Restorable (c : Cache) : Prop where
  indexed : c.Indexed
  keyed : c.Keyed
  stores : c.Stores Json.Sorted
  records : c.Records Shape.Sorted

theorem restorable_new (policies : Policies) : (new policies).Restorable :=
  ⟨indexed_new policies, keyed_new policies, stores_new policies _, records_new policies _⟩

theorem Stores.opSorted (h : c.Stores Json.Sorted) {op : Op} (hrows : op.KeepsRows)
    (horder : op.KeepsOrder) : (op.run c).Stores Json.Sorted := by
  have htext : ∀ s, (Json.string s).Sorted := fun _ => trivial
  have hmembers : ∀ v : Json, v.Sorted → ∀ e ∈ v.entities, ∀ m ∈ e.2, m.2.Sorted :=
    fun v hv e he => Json.hereditary_sorted.member (Json.hereditary_sorted.entities v hv e he)
  cases op with
  | writeObject v =>
    exact h.writeObject htext fun e he => hmembers v hrows e (Json.mem_entities_of_stored he)
  | writeRoot field args data =>
    exact h.writeRoot htext field args (Json.hereditary_sorted.normalized data hrows)
      (hmembers data hrows)
  | writeField obj field v =>
    exact h.writeField htext obj field (Json.hereditary_sorted.normalized v hrows.2)
      (hmembers v hrows.2)
  | modifyField obj field change => exact h.modifyField obj field horder
  | modifyRoot field change => exact h.modifyRoot field horder
  | evictObject obj => exact h.evictObject obj
  | evictField obj field => exact h.evictField obj field
  | evictRoot field => exact h.evictRoot field
  | retain obj | release obj => exact ⟨h.root, h.objects⟩
  | collect => exact h.collect
  | reset => exact stores_new c.policies _
  | restore s => exact hrows.elim

theorem Op.KeepsRows.recordsOnly {op : Op} (h : op.KeepsRows) : op.RecordsOnly Shape.Sorted := by
  cases op with
  | writeRoot field args data => exact Shape.sorted_ofData data h
  | restore s => exact h.elim
  | _ => trivial

theorem Restorable.action (h : c.Restorable) {a : Action} (hrows : a.KeepsRows)
    (horder : a.KeepsOrder) (hids : ∀ e ∈ a.storedEntities c, e.1.id ≠ "") : (a.run c).Restorable := by
  cases a with
  | op o =>
    exact ⟨h.indexed.op o, h.keyed.op hrows hids, h.stores.opSorted hrows horder,
      h.records.op (Op.KeepsRows.recordsOnly hrows)⟩
  | mutation options now m result =>
    refine ⟨h.indexed.applyMutation options now m result, h.keyed.applyMutation hrows hids options now, ?_,
      h.records.applyMutation trivial options now m result⟩
    have hstored := m.good_storedEntities Json.hereditary_sorted lasting_sorted hrows
    exact h.stores.applyMutation lasting_sorted (fun _ _ => trivial)
      (fun e he => Json.hereditary_sorted.member (hstored e he)) options now

theorem Restorable.after (h : c.Restorable) {actions : List Action}
    (hkeeps : ∀ a ∈ actions, a.KeepsRows ∧ a.KeepsOrder) (hids : c.StoresIds actions) :
    (c.after actions).Restorable := by
  induction actions generalizing c with
  | nil => exact h
  | cons a rest ih =>
    obtain ⟨hfirst, hrest⟩ := List.forall_mem_cons.1 hkeeps
    exact ih (h.action hfirst.1 hfirst.2 hids.1) hrest hids.2

/-! ## Snapshots -/

theorem Restorable.sorted_extract (h : c.Restorable) : c.extract.Sorted := ⟨h.stores.extract, h.records⟩

theorem readRoot_retained (c : Cache) (retained : SortedSet String) (field : String)
    (args : Option Json) : ({ c with retained } : Cache).readRoot field args = c.readRoot field args := by
  have hagree : AgreeOn (fun _ => True) c { c with retained } :=
    ⟨rfl, fun _ _ => rfl, fun _ _ _ _ => trivial⟩
  exact hagree.readRoot rfl (fun _ _ _ _ => trivial) fun _ _ _ => ⟨rfl, fun _ _ => trivial⟩

theorem snapshot_restores (policies : Policies) {actions : List Action}
    (hkeeps : ∀ a ∈ actions, a.KeepsRows ∧ a.KeepsOrder) (hids : (new policies).StoresIds actions)
    {c : Cache} (hc : (new policies).after actions = c) {d : Cache} (hpolicies : d.policies = c.policies) :
    Snapshot.ofJson? c.extract.toJson = some c.extract ∧
      ∃ restored, d.restore c.extract = .ok restored ∧
        restored.root = c.root ∧ restored.objects = c.objects ∧ restored.index = c.index ∧
        restored.selections = c.selections ∧ restored.retained = ∅ ∧
        (∀ field args, restored.readRoot field args = c.readRoot field args) ∧
        (∀ obj field, restored.readField obj field = c.readField obj field) ∧
        (∀ obj fragment, restored.readFragment obj fragment = c.readFragment obj fragment) ∧
        ∀ t, restored.objectsOfType t = c.objectsOfType t := by
  have h : c.Restorable := hc ▸ (restorable_new policies).after hkeeps hids
  have hread := Snapshot.ofWritten?_toJson h.sorted_extract (Written.Limit.covers_none _)
  have hrestore := h.keyed.restore_extract h.indexed d
  rw [hpolicies] at hrestore
  exact ⟨hread, _, hrestore, rfl, rfl, rfl, rfl, rfl, c.readRoot_retained ∅, fun _ _ => rfl,
    fun _ _ => rfl, fun _ => rfl⟩

/-- A page of scenes is fetched, a tag is created, and a title comes and goes. -/
def taggedScene : List Action := [
  .op (.writeRoot "findScenes" none (.object [("count", .int 1), ("scenes", .array [
    .object [("__typename", .string "Scene"), ("id", .string "1"), ("paths", .object []),
      ("tags", .array [.object [("__typename", .string "Tag"), ("id", .int 2)]])]])])),
  .op (.writeField ⟨.scene, "1"⟩ "title" (.string "a")),
  .mutation {} "" .tagCreate (some (.object [("id", .string "3"), ("name", .string "b")])),
  .op (.evictField ⟨.scene, "1"⟩ "title"),
  .op .collect]

/-- A cache that holds something else already and retains an object. -/
def otherCache : Cache :=
  (new .standard).run [
    .writeObject (.object [("__typename", .string "Studio"), ("id", .string "9")]),
    .retain ⟨.studio, "9"⟩]

theorem taggedScene_restores :
    (∀ a ∈ taggedScene, a.KeepsRows ∧ a.KeepsOrder) ∧ (new .standard).StoresIds taggedScene ∧
      otherCache.policies = ((new .standard).after taggedScene).policies ∧
      ((new .standard).after taggedScene).objects.keys = ["Scene:1", "Tag:2"] ∧
      ∃ restored, otherCache.restore ((new .standard).after taggedScene).extract = .ok restored ∧
        restored.objects = ((new .standard).after taggedScene).objects ∧ restored.retained = ∅ ∧
        restored.readRoot "findScenes" none =
          ((new .standard).after taggedScene).readRoot "findScenes" none := by
  have hkeeps : ∀ a ∈ taggedScene, a.KeepsRows ∧ a.KeepsOrder := by
    unfold taggedScene
    simp only [List.forall_mem_cons, List.not_mem_nil, false_implies, implies_true, and_true,
      Action.KeepsRows, Op.KeepsRows, Action.KeepsOrder, Op.KeepsOrder]
    decide +kernel
  have hids : (new .standard).StoresIds taggedScene := by decide +kernel
  obtain ⟨-, restored, hrestored, -, hobjects, -, -, hretained, hread, -⟩ :=
    snapshot_restores .standard hkeeps hids rfl (d := otherCache) rfl
  exact ⟨hkeeps, hids, rfl, by decide +kernel, restored, hrestored, hobjects, hretained,
    hread "findScenes" none⟩

end Cache

end MediaCache
