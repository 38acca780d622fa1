import MediaCache.Proofs.Store.Runs
import MediaCache.Proofs.Update.Eviction
import MediaCache.Proofs.Update.Results

/-!
# No derived field is left stale

The check of the impact tables compares two tables. Here is what a passed check means for a mutation
that changes rows: whatever the cache held and the server returned, no stored object keeps a derived
field of the registry, but for the one object whose fields the result has just written.
-/

namespace MediaCache

inductive RowChange where
  | create
  | update
  | destroy
  | merge
deriving DecidableEq, Repr

/-- What a mutation does to rows of its family. Files, plays, counters and the images of a gallery are
no rows of it, and a new studio concerns its parent only. -/
def MutationKind.rowChange? : MutationKind → Option RowChange
  | sceneCreate | movieCreate | sceneMarkerCreate | galleryCreate | galleryChapterCreate
  | performerCreate | tagCreate => some .create
  | sceneUpdate | bulkSceneUpdate | scenesUpdate | imageUpdate | bulkImageUpdate | movieUpdate
  | bulkMovieUpdate | sceneMarkerUpdate | galleryUpdate | bulkGalleryUpdate | galleryChapterUpdate
  | performerUpdate | bulkPerformerUpdate | studioUpdate | tagUpdate => some .update
  | sceneDestroy | scenesDestroy | imagesDestroy | movieDestroy | moviesDestroy | sceneMarkerDestroy
  | galleryDestroy | galleryChapterDestroy | performerDestroy | performersDestroy | studioDestroy
  | studiosDestroy | tagDestroy | tagsDestroy => some .destroy
  | sceneMerge | tagsMerge => some .merge
  | _ => none

/-- A derived field that only a loss of rows makes stale is stale after a destroy and after a merge. -/
def DerivedField.StaleAfter (d : DerivedField) (change : RowChange) : Prop :=
  d.path = .anyChange ∨ change = .destroy ∨ change = .merge

/-- The object that keeps its fields: the result has just written them. -/
def Mutation.spared? (result : Json) : Mutation → Option ObjectRef
  | tagCreate => resultObject? .tag result
  | tagUpdate id => some ⟨.tag, id⟩
  | tagsMerge _ destination => some ⟨.tag, destination⟩
  | studioUpdate id => some ⟨.studio, id⟩
  | sceneCreate fileIds => if fileIds.isEmpty then none else resultObject? .scene result
  | _ => none

/-! ## What a passed check says -/

namespace Impact

theorem fieldsOnDestroy_of_fieldsOnChange {i : Impact} {t : Typename} {field : String}
    (h : i.fieldsOnChange.covers t field = true) : i.fieldsOnDestroy.covers t field = true :=
  (TypeFields.covers_union _ _ _ _).2 (.inr h)

/-- Where a destroy evicts nothing further, the two sets cover the same. -/
theorem fieldsOnChange_of_fieldsOnDestroy {i : Impact} (hnone : i.destroyTypeFields = [])
    {t : Typename} {field : String} (h : i.fieldsOnDestroy.covers t field = true) :
    i.fieldsOnChange.covers t field = true := by
  rcases (TypeFields.covers_union _ _ _ _).1 h with hmore | hchange
  · rw [hnone] at hmore
    cases hmore
  · exact hchange

end Impact

namespace DerivedField

theorem covered_of_mem {registry : List DerivedField} (hregistry : uncovered registry = [])
    {d : DerivedField} (hd : d ∈ registry) : d.covered = true := by
  cases h : d.covered with
  | true => rfl
  | false =>
    have : d ∈ uncovered registry := List.mem_filter.2 ⟨hd, by simp [h]⟩
    rw [hregistry] at this
    cases this

variable {d : DerivedField}

theorem covered_on_change (h : d.covered = true) (hpath : d.path = .anyChange) :
    (Impact.of d.source).fieldsOnChange.covers d.owner d.field = true := by
  rw [covered, hpath] at h
  exact h

theorem covered_on_destroy (h : d.covered = true) :
    (Impact.of d.source).fieldsOnDestroy.covers d.owner d.field = true := by
  rw [covered] at h
  cases hpath : d.path with
  | anyChange => exact Impact.fieldsOnDestroy_of_fieldsOnChange (covered_on_change h hpath)
  | destroy =>
    rw [hpath] at h
    exact h

end DerivedField

/-! ## What the plans evict -/

def Step.isPatch : Step → Bool
  | appendReference .. | addToStat .. | deleteObject .. | evictObject .. | evictField .. => true
  | _ => false

namespace Plan

/-- The plan ends in the eviction of these fields and of some queries, after patches alone. -/
def Refreshes (plan : Plan) (fields : TypeFields) (ignore : Option ObjectRef) : Prop :=
  ∃ patches docs, (∀ step ∈ patches, step.isPatch = true) ∧
    plan = patches ++ [.evictTypeFields fields ignore, .evictQueries docs]

variable {plan : Plan} {fields : TypeFields} {ignore : Option ObjectRef}

theorem refreshes_nil (fields : TypeFields) (ignore : Option ObjectRef) (docs : List Document) :
    Refreshes [.evictTypeFields fields ignore, .evictQueries docs] fields ignore :=
  ⟨[], docs, by simp, rfl⟩

theorem Refreshes.append {patches : Plan} (hpatches : ∀ step ∈ patches, step.isPatch = true)
    (h : Refreshes plan fields ignore) : Refreshes (patches ++ plan) fields ignore := by
  obtain ⟨more, docs, hmore, rfl⟩ := h
  refine ⟨patches ++ more, docs, ?_, by rw [List.append_assoc]⟩
  intro step hstep
  rcases List.mem_append.1 hstep with h | h
  · exact hpatches step h
  · exact hmore step h

theorem Refreshes.cons {step : Step} (hstep : step.isPatch = true)
    (h : Refreshes plan fields ignore) : Refreshes (step :: plan) fields ignore := by
  have hpatches : ∀ s ∈ [step], s.isPatch = true := by simpa using hstep
  exact h.append hpatches

theorem isPatch_addToStatIf (stat : Option String) (delta : Double) :
    ∀ step ∈ addToStatIf stat delta, step.isPatch = true := by
  cases stat <;> simp [addToStatIf, Step.isPatch]

theorem isPatch_appendIf (list : Option Document) (obj : Option ObjectRef) :
    ∀ step ∈ appendIf list obj, step.isPatch = true := by
  cases list <;> cases obj <;> simp [appendIf, Step.isPatch]

theorem isPatch_deleteObjects (typename : Typename) (ids : List String) (lookup : Option Document) :
    ∀ step ∈ deleteObjects typename ids lookup, step.isPatch = true := by
  intro step hstep
  obtain ⟨id, -, rfl⟩ := List.mem_map.1 hstep
  cases lookup <;> rfl

theorem refreshes_update (family : Family) (ignore : Option ObjectRef) :
    Refreshes (update family ignore) (Impact.of family).fieldsOnChange ignore :=
  refreshes_nil _ _ _

theorem refreshes_create (family : Family) (result : Json) (keepOwn : Bool) :
    Refreshes (create family result keepOwn) (Impact.of family).fieldsOnChange
      (if keepOwn then resultObject? family.typename result else none) := by
  rw [create, List.append_assoc]
  exact ((refreshes_nil _ _ _).append (isPatch_addToStatIf _ _)).append (isPatch_appendIf _ _)

theorem refreshes_destroy (family : Family) (ids : List String) :
    Refreshes (destroy family ids) (Impact.of family).fieldsOnDestroy none := by
  rw [destroy, List.append_assoc]
  exact ((refreshes_nil _ _ _).append (isPatch_addToStatIf _ _)).append (isPatch_deleteObjects _ _ _)

theorem refreshes_createScene (result : Json) (fileIds : List String) :
    ∃ fields, Refreshes (createScene result fileIds) fields
        (Mutation.spared? result (.sceneCreate fileIds)) ∧
      ∀ t field, (Impact.of .scene).fieldsOnChange.covers t field = true →
        fields.covers t field = true := by
  rw [createScene, Mutation.spared?]
  cases hfiles : fileIds.isEmpty with
  | true => exact ⟨_, (refreshes_nil _ _ _).append (isPatch_addToStatIf _ _), fun _ _ h => h⟩
  | false =>
    refine ⟨_, (refreshes_nil _ _ _).append (isPatch_addToStatIf _ _), ?_⟩
    intro t field h
    exact (TypeFields.covers_add _ _ _ _ _).2 (.inr h)

theorem refreshes_mergeScenes (source : List String) :
    Refreshes (mergeScenes source) (Impact.of .scene).fieldsOnChange none :=
  (refreshes_nil _ _ _).append (isPatch_deleteObjects _ _ _)

theorem refreshes_mergeTags (source : List String) (destination : String) :
    Refreshes (mergeTags source destination) (Impact.of .tag).fieldsOnChange
      (some ⟨.tag, destination⟩) := by
  rw [mergeTags, List.append_assoc]
  exact ((refreshes_nil _ _ _).append (isPatch_addToStatIf _ _)).append (isPatch_deleteObjects _ _ _)

end Plan

/-- The plan of a mutation that changes rows evicts every covered field that the change makes stale. -/
theorem Mutation.plan_refreshes (result : Json) {m : Mutation} {family : Family} {change : RowChange}
    (hfamily : m.kind.subject = .entity family) (hchange : m.kind.rowChange? = some change) :
    ∃ fields, Plan.Refreshes (m.plan result) fields (m.spared? result) ∧
      ∀ d : DerivedField, d.source = family → d.covered = true → d.StaleAfter change →
        fields.covers d.owner d.field = true := by
  -- Whatever evicts the fields of a change evicts enough, as long as destroys need no more.
  have hnormal : ∀ d : DerivedField, d.source = family → d.covered = true →
      (change ≠ .destroy ∧ change ≠ .merge) ∨ (Impact.of family).destroyTypeFields = [] →
      d.StaleAfter change → (Impact.of family).fieldsOnChange.covers d.owner d.field = true := by
    rintro d rfl hcovered hkind hstale
    rcases hkind with ⟨hdestroy, hmerge⟩ | hnone
    · rcases hstale with hpath | h | h
      · exact DerivedField.covered_on_change hcovered hpath
      · exact absurd h hdestroy
      · exact absurd h hmerge
    · exact Impact.fieldsOnChange_of_fieldsOnDestroy hnone (DerivedField.covered_on_destroy hcovered)
  have hdestroyed : ∀ d : DerivedField, d.source = family → d.covered = true →
      (Impact.of family).fieldsOnDestroy.covers d.owner d.field = true := by
    rintro d rfl hcovered
    exact DerivedField.covered_on_destroy hcovered
  cases m <;> cases hchange <;> cases hfamily
  -- Files make a create evict more.
  case sceneCreate fileIds =>
    obtain ⟨fields, hrefreshes, hmore⟩ := Plan.refreshes_createScene result fileIds
    refine ⟨fields, hrefreshes, ?_⟩
    intro d hsource hcovered hstale
    exact hmore _ _ (hnormal d hsource hcovered (by decide) hstale)
  case movieCreate | galleryCreate | galleryChapterCreate | performerCreate | tagCreate =>
    exact ⟨_, Plan.refreshes_create _ result _, fun d hs hc => hnormal d hs hc (by decide)⟩
  case sceneMarkerCreate | sceneMarkerUpdate =>
    exact ⟨_, (Plan.refreshes_update _ none).cons rfl, fun d hs hc => hnormal d hs hc (by decide)⟩
  case sceneMerge source =>
    exact ⟨_, Plan.refreshes_mergeScenes source, fun d hs hc => hnormal d hs hc (.inr rfl)⟩
  case tagsMerge source destination =>
    exact ⟨_, Plan.refreshes_mergeTags source destination,
      fun d hs hc => hnormal d hs hc (.inr rfl)⟩
  case sceneMarkerDestroy | galleryChapterDestroy =>
    exact ⟨_, (Plan.refreshes_update _ none).cons rfl, fun d hs hc => hnormal d hs hc (.inr rfl)⟩
  -- Destroys evict their own set.
  case sceneDestroy | scenesDestroy | imagesDestroy | movieDestroy | moviesDestroy | galleryDestroy |
      performerDestroy | performersDestroy | studioDestroy | studiosDestroy | tagDestroy |
      tagsDestroy =>
    exact ⟨_, Plan.refreshes_destroy _ _, fun d hs hc _ => hdestroyed d hs hc⟩
  all_goals
    exact ⟨_, Plan.refreshes_update _ _, fun d hs hc => hnormal d hs hc (by decide)⟩

/-! ## Running such a plan -/

namespace Cache

theorem run_patch {step : Step} (hstep : step.isPatch = true) (options : Options) (now : String)
    {c : Cache} (hc : c.Indexed) :
    (step.run options now c).Indexed ∧
      ∀ id, (step.run options now c).objects.contains id = true → c.objects.contains id = true := by
  cases step <;> cases hstep
  case appendReference obj list =>
    have hsame := sameStore_appendReference c obj list
    exact ⟨hc.of_sameStore hsame, fun id h => by rwa [← hsame.objects]⟩
  case addToStat stat delta =>
    have hsame := sameStore_addToStat c stat delta
    exact ⟨hc.of_sameStore hsame, fun id h => by rwa [← hsame.objects]⟩
  case deleteObject obj lookup =>
    exact ⟨hc.deleteObject obj lookup, fun _ => (takes_deleteObject c obj lookup).contains⟩
  case evictObject obj =>
    exact ⟨hc.evictObject obj, fun _ => (takes_evictObject c obj).contains⟩
  case evictField obj field =>
    exact ⟨hc.modifyField obj field _, fun _ => (takes_evictField c obj field).contains⟩

theorem run_patches {patches : Plan} (hpatches : ∀ step ∈ patches, step.isPatch = true)
    (options : Options) (now : String) {c : Cache} (hc : c.Indexed) :
    (patches.run options now c).Indexed ∧
      ∀ id, (patches.run options now c).objects.contains id = true → c.objects.contains id = true := by
  rw [Plan.run]
  induction patches generalizing c with
  | nil => exact ⟨hc, fun _ h => h⟩
  | cons step rest ih =>
    obtain ⟨hindexed, hids⟩ := run_patch (hpatches step List.mem_cons_self) options now hc
    obtain ⟨hindexed', hids'⟩ := ih (fun s hs => hpatches s (List.mem_cons_of_mem _ hs)) hindexed
    exact ⟨hindexed', fun id h => hids id (hids' id h)⟩

theorem fieldValue?_evictTypeFields_of_covers {c : Cache} (hc : c.Indexed) {fields : TypeFields}
    {ignore : Option ObjectRef} {obj : ObjectRef} {field : String}
    (hcovers : fields.covers obj.typename field = true) (hignore : ignore ≠ some obj)
    (hid : c.contains obj = true → obj.id ≠ "") :
    (c.evictTypeFields fields ignore).2.fieldValue? obj field = none := by
  rw [fieldValue?_evictTypeFields hc]
  split
  · rfl
  · rename_i hkept
    cases hv : c.fieldValue? obj field with
    | none => rfl
    | some v => exact absurd ⟨hid (contains_of_fieldValue? hv), hignore, hcovers⟩ hkept

theorem fieldValue?_evictQueries {c : Cache} {docs : List Document} {options : Options}
    {obj : ObjectRef} {field : String} (h : c.fieldValue? obj field = none) :
    (c.evictQueries docs options).2.fieldValue? obj field = none := by
  cases hv : (c.evictQueries docs options).2.fieldValue? obj field with
  | none => rfl
  | some v =>
    rw [fieldValue?_evictQueries_of_contains (contains_of_fieldValue? hv), h] at hv
    cases hv

theorem fieldValue?_run_refreshes {plan : Plan} {fields : TypeFields} {ignore : Option ObjectRef}
    (hplan : plan.Refreshes fields ignore) (options : Options) (now : String) {c : Cache}
    (hc : c.Indexed) {obj : ObjectRef} {field : String}
    (hcovers : fields.covers obj.typename field = true) (hignore : ignore ≠ some obj)
    (hid : c.contains obj = true → obj.id ≠ "") :
    (plan.run options now c).fieldValue? obj field = none := by
  obtain ⟨patches, docs, hpatches, rfl⟩ := hplan
  obtain ⟨hindexed, hids⟩ := run_patches hpatches options now hc
  have hrun : Plan.run options now c (patches ++ [.evictTypeFields fields ignore, .evictQueries docs]) =
      (((Plan.run options now c patches).evictTypeFields fields ignore).2.evictQueries docs options).2 := by
    rw [Plan.run, List.foldl_append]
    rfl
  rw [hrun]
  apply fieldValue?_evictQueries
  exact fieldValue?_evictTypeFields_of_covers hindexed hcovers hignore fun h => hid (hids _ h)

/-- When the tables pass the check, a mutation that changes rows of a family leaves no field that is
derived from them and that the change makes stale. -/
theorem derived_fields_evicted {registry : List DerivedField}
    (hregistry : DerivedField.uncovered registry = []) {c : Cache} (hc : c.Reachable)
    (options : Options) (now : String) {m : Mutation} {result : Json} {family : Family}
    {change : RowChange} (hfamily : m.kind.subject = .entity family)
    (hchange : m.kind.rowChange? = some change) (haccepts : m.kind.accepts result = true)
    (hids : ∀ obj, c.contains obj = true → obj.id ≠ "")
    (hresult : ∀ e ∈ resultEntities m.kind.subject result, e.1.id ≠ "") :
    ∀ d ∈ registry, d.source = family → d.StaleAfter change →
      ∀ obj : ObjectRef, obj.typename = d.owner → m.spared? result ≠ some obj →
        (c.applyMutation options now m (some result)).2.fieldValue? obj d.field = none := by
  intro d hd hsource hstale obj howner hspared
  obtain ⟨fields, hplan, hcovers⟩ := Mutation.plan_refreshes result hfamily hchange
  have hcovered := hcovers d hsource (DerivedField.covered_of_mem hregistry hd) hstale
  have hwritten : (c.writeResult m.kind.subject result).contains obj = true → obj.id ≠ "" := by
    intro hin
    rcases contains_of_contains_writeResult hin with ⟨e, he, hid⟩ | hold
    · rw [ObjectRef.cacheId_inj hid]
      exact hresult e he
    · exact hids obj hold
  rw [applyMutation, Option.filter_some, if_pos haccepts]
  exact fieldValue?_run_refreshes hplan options now (indexed_writeResult hc.indexed _ result)
    (howner ▸ hcovered) hspared hwritten

def threeTags : Cache :=
  (new .standard).run [
    .writeRoot "findTags" none (.array [
      .object [("__typename", .string "Tag"), ("children", .array []), ("id", .string "1")],
      .object [("__typename", .string "Tag"), ("children", .array []), ("id", .string "2")]]),
    .writeObject (.object [("__typename", .string "Tag"),
      ("children", .array [reference "Tag:1", reference "Tag:2"]), ("id", .string "3")])]

def mergedTag : Json := .object [("children", .array []), ("id", .string "1")]

theorem ids_of_threeTags (obj : ObjectRef) (h : threeTags.contains obj = true) : obj.id ≠ "" := by
  have hall : ∀ t ∈ Typename.all, threeTags.contains ⟨t, ""⟩ = false := by decide +kernel
  intro hid
  have hobj : obj = ⟨obj.typename, ""⟩ := by rw [← hid]
  rw [hobj, hall _ (Typename.mem_all _)] at h
  cases h

/-- Tag 2 is merged into tag 1, which keeps its children; those of tag 3 are evicted. -/
theorem tagsMerge_evicts_children :
    DerivedField.uncovered DerivedField.registry = [] ∧ threeTags.Reachable ∧
      (Mutation.tagsMerge ["2"] "1").kind.subject = .entity .tag ∧
      (Mutation.tagsMerge ["2"] "1").kind.rowChange? = some .merge ∧
      (Mutation.tagsMerge ["2"] "1").kind.accepts mergedTag = true ∧
      (∀ obj, threeTags.contains obj = true → obj.id ≠ "") ∧
      (∀ e ∈ resultEntities (.entity .tag) mergedTag, e.1.id ≠ "") ∧
      (⟨.tag, "children", .tag, .anyChange⟩ : DerivedField) ∈ DerivedField.registry ∧
      (Mutation.tagsMerge ["2"] "1").spared? mergedTag ≠ some ⟨.tag, "3"⟩ ∧
      (threeTags.fieldValue? ⟨.tag, "3"⟩ "children").isSome = true ∧
      (threeTags.applyMutation {} "" (.tagsMerge ["2"] "1") (some mergedTag)).2.fieldValue?
        ⟨.tag, "3"⟩ "children" = none := by
  have hregistry : DerivedField.uncovered DerivedField.registry = [] := by decide +kernel
  have hreach : threeTags.Reachable := ⟨_, _, rfl⟩
  have hresult : ∀ e ∈ resultEntities (.entity .tag) mergedTag, e.1.id ≠ "" := by decide +kernel
  have hd : (⟨.tag, "children", .tag, .anyChange⟩ : DerivedField) ∈ DerivedField.registry := by decide
  have hspared : (Mutation.tagsMerge ["2"] "1").spared? mergedTag ≠ some ⟨.tag, "3"⟩ := by decide
  exact ⟨hregistry, hreach, rfl, rfl, rfl, ids_of_threeTags, hresult, hd, hspared, by decide +kernel,
    derived_fields_evicted hregistry hreach {} "" (m := .tagsMerge ["2"] "1") rfl rfl rfl
      ids_of_threeTags hresult _ hd rfl (.inl rfl) _ rfl hspared⟩

end Cache

end MediaCache
