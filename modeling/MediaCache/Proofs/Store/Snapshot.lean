import MediaCache.Proofs.Json.Written
import MediaCache.Proofs.Store.Restore

/-!
# Snapshots back and forth

A snapshot is read back from the way it is written. A cache is restored from its snapshot as it was,
when each object is stored under its cache id with its type and no id is empty. Then every read of it is
the same.
-/

namespace MediaCache

namespace Snapshot

/-! ## Reading a snapshot back -/

structure Sorted (s : Snapshot) : Prop where
  objects : ∀ id r, s.objects.get? id = some r → ∀ key v, r.get? key = some v → v.Sorted
  selections : ∀ name shape, s.selections.get? name = some shape → shape.Sorted

theorem readMap?_ofFields {α : Type} {read : Written → Option α} (form : α → Json)
    {m : SortedMap String α}
    (h : ∀ key v, m.get? key = some v → read (.ofJson (form v)) = some v) :
    readMap? read (Written.ofFields (m.entries.map fun e => (e.1, form e.2))) = some m := by
  have hentries : ∀ l : List (String × α), (∀ e ∈ l, read (.ofJson (form e.2)) = some e.2) →
      (Written.ofFields (l.map fun e => (e.1, form e.2))).mapM
        (fun e => do return (← e.1, ← read e.2)) = some l := by
    intro l
    induction l with
    | nil => exact fun _ => rfl
    | cons e rest ih =>
      intro hl
      obtain ⟨hfirst, hrest⟩ := List.forall_mem_cons.1 hl
      rw [List.map_cons, Written.ofFields, List.mapM_cons, ih hrest]
      simp only [Option.bind_eq_bind, Option.bind_some, hfirst]
      rfl
  have hread := hentries m.entries fun e he => h e.1 e.2 ((m.get?_eq_some_iff_mem _ _).2 he)
  rw [readMap?, hread]
  refine congrArg some (SortedMap.ext fun k => ?_)
  exact congrArg (Assoc.get? k) m.ordered.ofList_eq

theorem record_sorted {r : Record} (h : ∀ key v, r.get? key = some v → v.Sorted) : r.toJson.Sorted :=
  ⟨r.ordered, Json.sortedFields_iff.2 fun e he => h e.1 e.2 ((r.get?_eq_some_iff_mem _ _).2 he)⟩

theorem objects?_toJson {objects : SortedMap String Record} {limit : Written.Limit}
    (h : ∀ id r, objects.get? id = some r → ∀ key v, r.get? key = some v → v.Sorted)
    (hroom : limit.Covers (Json.object (objects.entries.map fun e => (e.1, e.2.toJson))).depth) :
    objects? limit (.ofJson (.object (objects.entries.map fun e => (e.1, e.2.toJson)))) =
      some objects := by
  rw [Json.depth] at hroom
  obtain ⟨inner, henter, hinner⟩ := Written.Limit.enter?_of_covers hroom
  rw [Written.ofJson, objects?, henter, Option.bind_eq_bind, Option.bind_some]
  refine readMap?_ofFields Record.toJson fun id r hr => ?_
  have hdepth : r.toJson.depth ≤ Json.depthOfFields (objects.entries.map fun e => (e.1, e.2.toJson)) :=
    Json.depthOfFields_le_iff.1 (Nat.le_refl _) (id, r.toJson)
      (List.mem_map_of_mem (f := fun e : String × Record => (e.1, e.2.toJson))
        ((objects.get?_eq_some_iff_mem id r).1 hr))
  have hvalue := Written.value?_ofJson r.toJson (record_sorted (h id r hr)) (hinner.mono hdepth)
  rw [Record.toJson, Written.ofJson] at hvalue ⊢
  simp only [hvalue, Option.bind_eq_bind, Option.bind_some]
  refine congrArg some (SortedMap.ext fun k => ?_)
  exact congrArg (Assoc.get? k) r.ordered.ofList_eq

theorem selections?_toJson {selections : SortedMap String Shape} {limit : Written.Limit}
    (h : ∀ name shape, selections.get? name = some shape → shape.Sorted)
    (hroom : limit.Covers (Json.object (selections.entries.map fun e => (e.1, e.2.toJson))).depth) :
    selections? limit (.ofJson (.object (selections.entries.map fun e => (e.1, e.2.toJson)))) =
      some selections := by
  rw [Json.depth] at hroom
  obtain ⟨inner, henter, hinner⟩ := Written.Limit.enter?_of_covers hroom
  rw [Written.ofJson, selections?, henter, Option.bind_eq_bind, Option.bind_some]
  refine readMap?_ofFields Shape.toJson fun name shape hshape => ?_
  have hdepth : shape.toJson.depth ≤
      Json.depthOfFields (selections.entries.map fun e => (e.1, e.2.toJson)) :=
    Json.depthOfFields_le_iff.1 (Nat.le_refl _) (name, shape.toJson)
      (List.mem_map_of_mem (f := fun e : String × Shape => (e.1, e.2.toJson))
        ((selections.get?_eq_some_iff_mem name shape).1 hshape))
  exact Shape.ofWritten?_toJson shape (h name shape hshape) (hinner.mono hdepth)

/-- Where there is room for its brackets, a snapshot is read back from its JSON form. -/
theorem ofWritten?_toJson {s : Snapshot} {limit : Written.Limit} (h : s.Sorted)
    (hroom : limit.Covers s.toJson.depth) : ofWritten? limit (.ofJson s.toJson) = some s := by
  have hdepth : s.toJson.depth =
      max (Json.object (s.objects.entries.map fun e => (e.1, e.2.toJson))).depth
        (if s.selections.isEmpty then 0
          else (Json.object (s.selections.entries.map fun e => (e.1, e.2.toJson))).depth) + 1 := by
    rw [toJson, Json.depth, Json.depthOfFields]
    split <;> simp [Json.depthOfFields]
  rw [hdepth] at hroom
  obtain ⟨inner, henter, hinner⟩ := Written.Limit.enter?_of_covers hroom
  have hobjects := objects?_toJson h.objects (hinner.mono (Nat.le_max_left _ _))
  have hother : (some "objects" == some "selections") = false := rfl
  have hother' : (some "selections" == some "objects") = false := rfl
  cases hempty : s.selections.isEmpty with
  | true =>
    -- Selections are left out when there are none.
    have hnone : s.selections = ∅ := by
      refine SortedMap.ext fun k => ?_
      have hnil : s.selections.entries = [] := List.isEmpty_iff.1 hempty
      exact congrArg (Assoc.get? k) hnil
    rw [toJson, hempty, if_pos rfl, Written.ofJson, Written.ofFields, Written.ofFields, ofWritten?, henter]
    simp only [Option.bind_eq_bind, Option.bind_some, Written.keysReadable, Written.single?, hother,
      List.all_cons, List.all_nil, Option.isSome_some, Bool.and_self, Bool.not_true, Bool.false_eq_true,
      List.filter_cons, List.filter_nil, beq_self_eq_true, if_true, if_false, hobjects, ← hnone]
    rfl
  | false =>
    rw [hempty, if_neg Bool.false_ne_true] at hinner
    have hselections := selections?_toJson h.selections (hinner.mono (Nat.le_max_right _ _))
    rw [toJson, hempty, if_neg Bool.false_ne_true, Written.ofJson, Written.ofFields, Written.ofFields,
      Written.ofFields, ofWritten?, henter]
    simp only [Option.bind_eq_bind, Option.bind_some, Written.keysReadable, Written.single?, hother,
      hother', List.all_cons, List.all_nil, Option.isSome_some, Bool.and_self, Bool.not_true,
      Bool.false_eq_true, List.filter_cons, List.filter_nil, beq_self_eq_true, if_true, if_false, hobjects,
      hselections]
    rfl

end Snapshot

namespace Cache

/-! ## Restoring -/

/-- Each object is stored under its cache id and with its type, and its id is not empty. -/
def Keyed (c : Cache) : Prop :=
  ∀ id r, c.objects.get? id = some r → ∃ obj : ObjectRef,
    obj.cacheId = id ∧ obj.id ≠ "" ∧ r.get? "__typename" = some (.string obj.typename.name)

theorem Keyed.accepted {c : Cache} (h : c.Keyed) : c.extract.Accepted := by
  intro id r hr hid
  rw [extract, SortedMap.get?_insert_of_ne _ hid] at hr
  obtain ⟨obj, hobj, hkey, htype⟩ := h id r hr
  refine ⟨obj, hobj, hkey, fun t ht => ?_⟩
  rw [htype] at ht
  exact (Option.mem_some.1 ht).symm

theorem Keyed.completed {c : Cache} (h : c.Keyed) : c.extract.completed = c.extract := by
  have hobjects : c.extract.completed.objects = c.extract.objects := by
    ext id : 1
    rw [Snapshot.get?_completed, extract, SortedMap.get?_insert]
    split
    · rfl
    · cases hr : c.objects.get? id with
      | none => rfl
      | some r =>
        obtain ⟨obj, -, -, htype⟩ := h id r hr
        rw [Option.map_some, Record.completed_of_typed htype]
  exact congrArg (Snapshot.mk · c.selections) hobjects

/-- A snapshot shows all but the policies and the retained ids. -/
theorem eq_of_extract {c d : Cache} (hc : c.Indexed) (hd : d.Indexed) (h : d.extract = c.extract) :
    d = { c with policies := d.policies, retained := d.retained } := by
  have hget (id : String) : d.extract.objects.get? id = c.extract.objects.get? id := by rw [h]
  simp only [extract, SortedMap.get?_insert] at hget
  have hroot : d.root = c.root := by simpa using hget Snapshot.rootKey
  have hkeys {c : Cache} (hc : c.Indexed) : c.objects.get? Snapshot.rootKey = none := by
    rw [← Option.not_isSome_iff_eq_none]
    intro hsome
    obtain ⟨obj, hobj⟩ := hc.keys _ hsome
    exact cacheId_ne_rootKey obj hobj
  have hobjects : d.objects = c.objects := by
    ext id : 1
    by_cases hid : id = Snapshot.rootKey
    · rw [hid, hkeys hc, hkeys hd]
    · simpa only [if_neg hid] using hget id
  have hselections : d.selections = c.selections := congrArg Snapshot.selections h
  have hindex : d.index = c.index := hd.index_eq hc fun id => by rw [hobjects]
  exact SameRoot.eq_of_objects ⟨rfl, hroot, hselections, rfl⟩ hobjects hindex

/-- A cache is restored from its snapshot, whatever it is restored into. Only the policies stay, and no
id is retained. -/
theorem Keyed.restore_extract {c : Cache} (h : c.Keyed) (hc : c.Indexed) (d : Cache) :
    d.restore c.extract = .ok { c with policies := d.policies, retained := ∅ } := by
  obtain ⟨restored, hok, hextract, hpolicies, hretained⟩ := restore_of_accepted h.accepted d
  rw [h.completed] at hextract
  rw [hok, eq_of_extract hc (Indexed.restore hok) hextract, hpolicies, hretained]

end Cache

end MediaCache
