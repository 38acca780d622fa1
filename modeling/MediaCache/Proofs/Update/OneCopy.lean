import MediaCache.Proofs.Update.Runs

/-!
# One copy of a row, whatever happens

Along any run of operations and mutations a row is stored once: all data holds references in its place,
and the object that is stored under its cache id is that row. Counters, appended references and patched
statistics are written without being split first, and still bring no row in.
-/

namespace MediaCache

namespace Cache

/-- What can happen to a cache. `now` is the text of the time at which the server answered. -/
inductive Action where
  | op (op : Op)
  | mutation (options : Options) (now : String) (m : Mutation) (result : Option Json)

def Action.run (c : Cache) : Action → Cache
  | op o => o.run c
  | mutation options now m result => (c.applyMutation options now m result).2

def after (c : Cache) (actions : List Action) : Cache := actions.foldl Action.run c

/-- Data has its keys in order, and no field of identity is changed by hand. -/
def Action.KeepsRows : Action → Prop
  | op o => o.KeepsRows
  | mutation _ _ _ result => ∀ v ∈ result, v.Sorted

theorem OneCopy.action {c : Cache} (h : c.OneCopy) {a : Action} (ha : a.KeepsRows) :
    (a.run c).OneCopy := by
  cases a with
  | op o => exact h.op ha
  | mutation options now m result => exact h.applyMutation options now m ha

theorem OneCopy.after {c : Cache} (h : c.OneCopy) {actions : List Action}
    (hactions : ∀ a ∈ actions, a.KeepsRows) : (c.after actions).OneCopy := by
  induction actions generalizing c with
  | nil => exact h
  | cons a rest ih =>
    have hfirst := h.action (hactions a List.mem_cons_self)
    exact ih hfirst fun b hb => hactions b (List.mem_cons_of_mem _ hb)

/-- No value at the root or in a field of a stored object holds a row, at any depth, and each stored
object is the row that its cache id names. -/
theorem rows_stored_once (policies : Policies) {actions : List Action}
    (hactions : ∀ a ∈ actions, a.KeepsRows) {c : Cache} (hc : (new policies).after actions = c) :
    (∀ name v, c.root.get? name = some v → ∀ w ∈ v.parts, ObjectRef.identify? w = none) ∧
      ∀ id r, c.objects.get? id = some r →
        (∀ field v, r.get? field = some v → ∀ w ∈ v.parts, ObjectRef.identify? w = none) ∧
          ∃ obj, ObjectRef.identify? r.toJson = some obj ∧ obj.cacheId = id := by
  have hone : c.OneCopy := hc ▸ (oneCopy_new policies).after hactions
  refine ⟨hone.root, fun id r hr => ?_⟩
  have hrow := hone.objects id r hr
  exact ⟨hrow.rowFree, hrow.identified⟩

/-- A scene with a performer is fetched, its counter goes up, and the performer comes back under the
same id as a number. -/
def countedScene : List Action := [
  .op (.writeRoot "findScene" (some (.object [("id", .string "1")])) (.object [
    ("__typename", .string "Scene"), ("id", .string "1"), ("o_counter", .int 0),
    ("performers", .array [
      .object [("__typename", .string "Performer"), ("id", .string "2"), ("o_counter", .int 4)]])])),
  .mutation {} "" (.sceneIncrementO "1") (some (.int 1)),
  .mutation {} "" (.performerUpdate "2") (some (.object [("id", .int 2), ("name", .string "a")])),
  .op (.writeField ⟨.scene, "1"⟩ "studio"
    (.object [("__typename", .string "Studio"), ("id", .string "3")]))]

theorem countedScene_stored_once :
    (∀ a ∈ countedScene, a.KeepsRows) ∧
      ((new .standard).after countedScene).objects.keys = ["Performer:2", "Scene:1", "Studio:3"] ∧
      ∀ id r, ((new .standard).after countedScene).objects.get? id = some r →
        ∃ obj, ObjectRef.identify? r.toJson = some obj ∧ obj.cacheId = id := by
  have hkeeps : ∀ a ∈ countedScene, a.KeepsRows := by
    unfold countedScene
    simp only [List.forall_mem_cons, List.not_mem_nil, false_implies, implies_true, and_true,
      Action.KeepsRows, Op.KeepsRows]
    decide +kernel
  exact ⟨hkeeps, by decide +kernel, fun id r hr => ((rows_stored_once .standard hkeeps rfl).2 id r hr).2⟩

end Cache

end MediaCache
