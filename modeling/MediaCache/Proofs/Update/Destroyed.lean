import MediaCache.Proofs.Store.ReadRows
import MediaCache.Proofs.Update.Invalidation
import MediaCache.Proofs.Update.OneCopy

/-!
# A destroyed row does not come back

References to a destroyed row stay behind in lists and fields of other objects, and its look-up by id is
one root entry among many. Whatever mutations follow, as long as the server returns the row no more, no
read returns it and the look-up answers `null`.
-/

namespace MediaCache

def Typename.lookup? (t : Typename) : Option Document :=
  Document.all.find? fun doc => doc.singleObject == some t

/-- The rows that the mutation takes away: those it destroys, or the sources of a merge. -/
def Mutation.destroyed : Mutation → List ObjectRef
  | sceneDestroy id => [⟨.scene, id⟩]
  | scenesDestroy ids | sceneMerge _ ids => ids.map (⟨.scene, ·⟩)
  | imagesDestroy ids => ids.map (⟨.image, ·⟩)
  | movieDestroy id => [⟨.movie, id⟩]
  | moviesDestroy ids => ids.map (⟨.movie, ·⟩)
  | galleryDestroy ids => ids.map (⟨.gallery, ·⟩)
  | performerDestroy id => [⟨.performer, id⟩]
  | performersDestroy ids => ids.map (⟨.performer, ·⟩)
  | studioDestroy id => [⟨.studio, id⟩]
  | studiosDestroy ids => ids.map (⟨.studio, ·⟩)
  | tagDestroy id => [⟨.tag, id⟩]
  | tagsDestroy ids | tagsMerge ids _ => ids.map (⟨.tag, ·⟩)
  | destroySavedFilter id => [⟨.savedFilter, id⟩]
  | _ => []

theorem Typename.mem_of_lookup? {t : Typename} {lookup : Document} (h : t.lookup? = some lookup) :
    lookup ∈ Document.all ∧ lookup.singleObject = some t := by
  have htype := List.find?_some h
  exact ⟨List.mem_of_find?_eq_some h, by simpa using htype⟩

/-! ## Plans delete what is destroyed -/

namespace Plan

def Deletes (plan : Plan) (objs : List ObjectRef) : Prop :=
  ∀ obj ∈ objs, ∃ lookup, obj.typename.lookup? = some lookup ∧ Step.deleteObject obj lookup ∈ plan

variable {plan : Plan} {objs : List ObjectRef}

theorem Deletes.append (h : plan.Deletes objs) (more : Plan) : Deletes (plan ++ more) objs := by
  intro obj hobj
  obtain ⟨lookup, hlookup, hin⟩ := h obj hobj
  exact ⟨lookup, hlookup, List.mem_append_left more hin⟩

theorem deletes_deleteObjects {t : Typename} {lookup : Document} (hlookup : t.lookup? = some lookup)
    (ids : List String) : (deleteObjects t ids (some lookup)).Deletes (ids.map (⟨t, ·⟩)) := by
  intro obj hobj
  obtain ⟨id, hid, rfl⟩ := List.mem_map.1 hobj
  exact ⟨lookup, hlookup, List.mem_map.2 ⟨id, hid, rfl⟩⟩

theorem deletes_destroy {family : Family} {lookup : Document}
    (hquery : (Impact.of family).findQuery = some lookup)
    (hlookup : family.typename.lookup? = some lookup) (ids : List String) :
    (destroy family ids).Deletes (ids.map (⟨family.typename, ·⟩)) := by
  unfold destroy
  simp only [hquery]
  exact ((deletes_deleteObjects hlookup ids).append _).append _

end Plan

theorem Mutation.plan_deletes (m : Mutation) (result : Json) : (m.plan result).Deletes m.destroyed := by
  cases m
  case sceneMerge destination source =>
    exact (Plan.deletes_deleteObjects (t := .scene) rfl source).append _
  case tagsMerge source destination =>
    exact ((Plan.deletes_deleteObjects (t := .tag) rfl source).append _).append _
  case destroySavedFilter id =>
    exact (Plan.deletes_deleteObjects (t := .savedFilter) rfl [id]).append _
  case sceneDestroy | scenesDestroy | imagesDestroy | movieDestroy | moviesDestroy | galleryDestroy |
      performerDestroy | performersDestroy | studioDestroy | studiosDestroy | tagDestroy |
      tagsDestroy =>
    exact Plan.deletes_destroy rfl rfl _
  all_goals
    intro obj hobj
    cases hobj

namespace Cache

/-! ## Gone, and kept gone -/

/-- The object is not stored, and its look-up answers `null`. -/
structure Gone (c : Cache) (obj : ObjectRef) (lookup : Document) : Prop where
  absent : c.contains obj = false
  answer : c.entry (lookupName obj lookup) = (some .null, some .leaf)

variable {c d : Cache} {obj : ObjectRef} {lookup : Document}

theorem Gone.of_entry (h : c.Gone obj lookup)
    (hids : d.objects.contains obj.cacheId = true → c.objects.contains obj.cacheId = true)
    (hentry : d.entry (lookupName obj lookup) = c.entry (lookupName obj lookup)) :
    d.Gone obj lookup := by
  refine ⟨?_, hentry.trans h.answer⟩
  cases hin : d.contains obj with
  | false => rfl
  | true =>
    have habsent := h.absent
    rw [contains_eq, hids hin] at habsent
    cases habsent

theorem gone_deleteObject (c : Cache) (obj : ObjectRef) (lookup : Document) :
    (c.deleteObject obj lookup).Gone obj lookup := by
  refine ⟨?_, ?_⟩
  · rw [contains_eq, SortedMap.contains, takes_deleteObject c obj lookup obj.cacheId, Loss.left]
    simp [Loss.ofObject]
  · rw [entry_deleteObject, if_pos rfl]

theorem Gone.writeRoot_null (h : c.Gone obj lookup) (field : String) (args : Option Json) :
    (c.writeRoot field args .null).Gone obj lookup := by
  refine ⟨h.absent, ?_⟩
  have hanswer := h.answer
  unfold entry writeRoot at *
  simp only [storeEntities_null, SortedMap.get?_insert]
  split
  · rfl
  · exact hanswer

theorem Gone.writeField (h : c.Gone obj lookup) (o : ObjectRef) (field : String) {v : Json}
    (hv : v.isScalar = true) : (c.writeField o field v).2.Gone obj lookup := by
  have hnone : c.storeEntities v = c := by
    rw [storeEntities, Json.entities_of_isScalar hv]
    rfl
  have hids := contains_applyToField c o field (.set v.normalized) obj.cacheId
  have hroot := (sameRoot_applyToField c o field (.set v.normalized)).1
  rw [Cache.writeField]
  split
  · rw [hnone]
    exact h.of_entry (fun hin => hids.symm.trans hin) (hroot.entry _)
  · exact h

theorem Gone.modifyField (h : c.Gone obj lookup) (o : ObjectRef) (field : String)
    (change : Json → FieldUpdate) : (c.modifyField o field change).2.Gone obj lookup :=
  h.of_entry (fun hin => by rwa [contains_modifyField] at hin)
    ((sameRoot_modifyField c o field change).1.entry _)

theorem Gone.modifyRoot (h : c.Gone obj lookup) (hlookup : obj.typename.lookup? = some lookup)
    {field : String} (hfield : IsListField field) (change : String → Json → FieldUpdate) :
    (c.modifyRoot field change).2.Gone obj lookup := by
  obtain ⟨doc, ⟨hdoc, hlist⟩, rfl⟩ := hfield
  obtain ⟨hin, hsingle⟩ := Typename.mem_of_lookup? hlookup
  have hne := rootField_ne_lookupName hin (by rw [hsingle]; rfl) hdoc hlist obj
  have hsame := sameStore_modifyRoot c doc.rootField change
  refine h.of_entry (fun hid => by rwa [hsame.objects] at hid) ?_
  rw [entry_modifyRoot, if_neg hne]

theorem Gone.op (h : c.Gone obj lookup) (hlookup : obj.typename.lookup? = some lookup) {op : Op}
    (hop : op.Patches) : (op.run c).Gone obj lookup := by
  cases op with
  | writeRoot field args data =>
    have hnull : data = .null := hop
    subst hnull
    exact h.writeRoot_null field args
  | writeField o field v => exact h.writeField o field hop.2
  | modifyField o field change => exact h.modifyField o field change
  | modifyRoot field change => exact h.modifyRoot hlookup hop.1 change
  | evictObject o =>
    exact h.of_entry (takes_evictObject c o).contains ((sameRoot_evictObject c o).entry _)
  | evictField o field => exact h.modifyField o field _
  | evictRoot field => exact h.modifyRoot hlookup hop _
  | collect =>
    exact h.of_entry (fun hid => ((contains_collect_iff c _).1 hid).1) ((sameRoot_collect c).entry _)
  | _ => exact hop.elim

theorem Gone.patched (h : c.Gone obj lookup) (hlookup : obj.typename.lookup? = some lookup)
    (hd : Patched c d) : d.Gone obj lookup :=
  hd.keeps (P := fun c => c.Gone obj lookup) (fun _ _ hop hc => hc.op hlookup hop) h

theorem Gone.writeObject (h : c.Gone obj lookup) {v : Json} (hapart : ∀ e ∈ v.entities, e.1 ≠ obj) :
    (c.writeObject v).2.Gone obj lookup := by
  refine h.of_entry (fun hid => ?_) ((sameRoot_writeObject c v).entry _)
  rcases contains_of_contains_writeObject hid with ⟨e, he, hsame⟩ | hold
  · exact absurd (ObjectRef.cacheId_inj hsame).symm (hapart e he)
  · exact hold

theorem Gone.applyMutation (h : c.Gone obj lookup) (hlookup : obj.typename.lookup? = some lookup)
    (options : Options) (now : String) {m : Mutation} {result : Option Json}
    (hapart : ∀ v ∈ result, ∀ e ∈ resultEntities m.kind.subject v, e.1 ≠ obj) :
    (c.applyMutation options now m result).2.Gone obj lookup := by
  refine applyMutation_keeps (P := fun c => c.Gone obj lookup) (fun v hv _ c fields hin hc => ?_)
    (fun op _ hop hc => hc.op hlookup hop) options now h
  refine hc.writeObject fun e he => hapart v hv e ?_
  exact List.mem_flatMap.2 ⟨.object fields, hin, he⟩

theorem gone_of_destroyed {m : Mutation} {result : Json} (haccepts : m.kind.accepts result = true)
    (hobj : obj ∈ m.destroyed) (c : Cache) (options : Options) (now : String) :
    ∃ lookup, obj.typename.lookup? = some lookup ∧
      (c.applyMutation options now m (some result)).2.Gone obj lookup := by
  obtain ⟨lookup, hlookup, hin⟩ := m.plan_deletes result obj hobj
  refine ⟨lookup, hlookup, ?_⟩
  obtain ⟨first, rest, hplan⟩ := List.append_of_mem hin
  have hrest : Plan.Sound rest := by
    intro step hstep
    apply m.plan_sound result
    rw [hplan]
    exact List.mem_append_right first (List.mem_cons_of_mem _ hstep)
  rw [applyMutation, Option.filter_some, if_pos haccepts]
  simp only [hplan, Plan.run, List.foldl_append, List.foldl_cons]
  exact (gone_deleteObject _ obj lookup).patched hlookup (patched_plan hrest options now _)

/-! ## No trace in reads -/

theorem Gone.readQuery (h : c.Gone obj lookup) :
    c.readQuery lookup (some (.object [("id", .string obj.id)])) = .hit .null := by
  have hroot : c.root.get? (lookupName obj lookup) = some .null := congrArg Prod.fst h.answer
  have hshape : c.selections.get? (lookupName obj lookup) = some .leaf := congrArg Prod.snd h.answer
  have hcan : c.canRead .null = true := rfl
  have hread (field : String) : c.readValue none field .null .leaf = some .null := by
    simp [readUntracked, referenceId?]
  unfold lookupName at hroot hshape
  unfold Cache.readQuery readRoot
  simp only [hroot, hshape, Option.getD_some, Option.filter_some, hcan, if_true, hread]
  split <;> rfl

/-- The object is not stored, its look-up answers `null`, and no read returns it at any depth. -/
structure NoTrace (c : Cache) (obj : ObjectRef) : Prop where
  absent : c.contains obj = false
  lookup : ∃ lookup, obj.typename.lookup? = some lookup ∧
    c.readQuery lookup (some (.object [("id", .string obj.id)])) = .hit .null
  unread : ∀ doc args v, c.readQuery doc args = .hit v →
    ∀ w ∈ v.parts, ObjectRef.identify? w ≠ some obj

theorem Gone.noTrace (h : c.Gone obj lookup) (hlookup : obj.typename.lookup? = some lookup)
    (hone : c.OneCopy) : c.NoTrace obj := by
  refine ⟨h.absent, ⟨lookup, hlookup, h.readQuery⟩, fun doc args v hread w hw hobj => ?_⟩
  have hstored := hone.hasRows_readRoot hread w hw obj hobj
  rw [h.absent] at hstored
  cases hstored

/-- The action is a collection or a mutation for which the server does not return the row. -/
def Action.Spares (obj : ObjectRef) : Action → Prop
  | op o => o = .collect
  | mutation _ _ m result => ∀ v ∈ result, ∀ e ∈ resultEntities m.kind.subject v, e.1 ≠ obj

theorem Gone.after (h : c.Gone obj lookup) (hlookup : obj.typename.lookup? = some lookup)
    {actions : List Action} (hactions : ∀ a ∈ actions, a.Spares obj) :
    (c.after actions).Gone obj lookup := by
  induction actions generalizing c with
  | nil => exact h
  | cons a rest ih =>
    have hspares := hactions a List.mem_cons_self
    refine ih ?_ fun b hb => hactions b (List.mem_cons_of_mem _ hb)
    cases a with
    | op o =>
      have hcollect : o = .collect := hspares
      subst hcollect
      have hpatches : Op.collect.Patches := trivial
      exact h.op hlookup hpatches
    | mutation options now m result => exact h.applyMutation hlookup options now hspares

/-- A row that a mutation destroyed or merged away leaves no trace, then or after any further mutations
and collections in which the server does not return it. -/
theorem destroyed_stays_gone (policies : Policies) {before : List Action}
    (hbefore : ∀ a ∈ before, a.KeepsRows) (options : Options) (now : String) {m : Mutation}
    {result : Json} (haccepts : m.kind.accepts result = true) (hresult : result.Sorted)
    {obj : ObjectRef} (hobj : obj ∈ m.destroyed) {later : List Action}
    (hlater : ∀ a ∈ later, a.KeepsRows) (hspares : ∀ a ∈ later, a.Spares obj) :
    ((((new policies).after before).applyMutation options now m (some result)).2.after later).NoTrace
      obj := by
  have hsorted : ∀ v ∈ some result, v.Sorted := by
    rintro v ⟨⟩
    exact hresult
  have hone := ((oneCopy_new policies).after hbefore).applyMutation options now m hsorted
  obtain ⟨lookup, hlookup, hgone⟩ :=
    gone_of_destroyed haccepts hobj ((new policies).after before) options now
  exact (hgone.after hlookup hspares).noTrace hlookup (hone.after hlater)

def sceneRow (id : String) : Json := .object [("__typename", .string "Scene"), ("id", .string id)]

def tagOfTwoScenes : List Action := [
  .op (.writeRoot "findTag" (some (.object [("id", .string "5")])) (.object [
    ("__typename", .string "Tag"), ("id", .string "5"),
    ("scenes", .array [sceneRow "1", sceneRow "2"])]))]

def tagRenamed : List Action := [
  .mutation {} "" (.tagUpdate "5") (some (.object [("id", .string "5"), ("name", .string "a")])),
  .op .collect]

/-- The tag still refers to the scene when it is destroyed. -/
theorem scene_leaves_no_trace :
    (∀ a ∈ tagOfTwoScenes, a.KeepsRows) ∧
      (Mutation.sceneDestroy "1").kind.accepts (.bool true) = true ∧
      (⟨.scene, "1"⟩ : ObjectRef) ∈ (Mutation.sceneDestroy "1").destroyed ∧
      (∀ a ∈ tagRenamed, a.KeepsRows) ∧ (∀ a ∈ tagRenamed, a.Spares ⟨.scene, "1"⟩) ∧
      ((((new .standard).after tagOfTwoScenes).applyMutation {} "" (.sceneDestroy "1")
        (some (.bool true))).2.after tagRenamed).fieldValue? ⟨.tag, "5"⟩ "scenes" =
          some (.array [reference "Scene:1", reference "Scene:2"]) ∧
      ((((new .standard).after tagOfTwoScenes).applyMutation {} "" (.sceneDestroy "1")
        (some (.bool true))).2.after tagRenamed).NoTrace ⟨.scene, "1"⟩ := by
  have hbefore : ∀ a ∈ tagOfTwoScenes, a.KeepsRows := by
    unfold tagOfTwoScenes
    simp only [List.forall_mem_cons, List.not_mem_nil, false_implies, implies_true, and_true,
      Action.KeepsRows, Op.KeepsRows]
    decide +kernel
  have haccepts : (Mutation.sceneDestroy "1").kind.accepts (.bool true) = true := rfl
  have hdestroyed : (⟨.scene, "1"⟩ : ObjectRef) ∈ (Mutation.sceneDestroy "1").destroyed :=
    List.mem_singleton.2 rfl
  have hlater : ∀ a ∈ tagRenamed, a.KeepsRows := by
    unfold tagRenamed
    simp only [List.forall_mem_cons, List.not_mem_nil, false_implies, implies_true, and_true,
      Action.KeepsRows, Op.KeepsRows]
    decide +kernel
  have hspares : ∀ a ∈ tagRenamed, a.Spares ⟨.scene, "1"⟩ := by
    unfold tagRenamed
    simp only [List.forall_mem_cons, List.not_mem_nil, false_implies, implies_true, and_true,
      Action.Spares]
    decide +kernel
  exact ⟨hbefore, haccepts, hdestroyed, hlater, hspares, by decide +kernel,
    destroyed_stays_gone .standard hbefore {} "" haccepts trivial hdestroyed hlater hspares⟩

end Cache

end MediaCache
