import MediaCache.Proofs.Update.Tables
import MediaCache.Update.Plan

/-!
# What the steps of plans are

`Planned` says what each step of the plan of a mutation can be: which fields, queries and values it names.
What holds of all such steps holds along every plan.
-/

namespace MediaCache

def MutationKind.created? : MutationKind → Option Family
  | sceneCreate => some .scene
  | movieCreate => some .movie
  | sceneMarkerCreate => some .sceneMarker
  | galleryCreate => some .gallery
  | galleryChapterCreate => some .galleryChapter
  | performerCreate => some .performer
  | studioCreate => some .studio
  | tagCreate => some .tag
  | _ => none

def Mutation.resumeTime? : Mutation → Option Double
  | sceneSaveActivity _ resumeTime _ => resumeTime
  | _ => none

def Document.dropdowns : List Document :=
  [allMoviesForFilter, allPerformersForFilter, allStudiosForFilter, allTagsForFilter]

/-- A query for a list that is fetched again when rows change. -/
def Document.IsEvicted (doc : Document) : Prop := doc.IsList ∧ doc ∉ dropdowns

instance (doc : Document) : Decidable doc.IsEvicted := inferInstanceAs (Decidable (_ ∧ _))

namespace Impact

theorem isEvicted_queries (family : Family) : ∀ doc ∈ (of family).queries, doc.IsEvicted := by
  cases family <;> decide

theorem isEvicted_queriesOnCreate (family : Family) :
    ∀ doc ∈ (of family).queriesOnCreate, doc.IsEvicted := by
  cases family <;> decide

theorem isEvicted_queriesOnDestroy (family : Family) :
    ∀ doc ∈ (of family).queriesOnDestroy, doc.IsEvicted := by
  cases family <;> decide

end Impact

/-- The step belongs to the plan of the mutation. It names no field of identity, it names lists only
where lists are meant, and what it takes over comes from the mutation and its result. -/
def Step.Planned (m : Mutation) (result : Json) : Step → Prop
  | appendReference obj list => ∃ family, m.kind.created? = some family ∧
      (Impact.of family).listQuery = some list ∧ resultObject? family.typename result = some obj
  | addToStat stat _ => stat ∉ identityFields
  | deleteObject _ lookup => lookup ∈ Document.all ∧ lookup.singleObject.isSome = true
  | evictField _ field => field ∉ identityFields
  | evictTypeFields fields _ => fields.SparesIdentity
  | evictQueries docs => ∀ doc ∈ docs, doc.IsEvicted
  | replaceField _ field v => field ∉ identityFields ∧
      ∃ time, m.resumeTime? = some time ∧ v = .number (.double time)
  | addToField _ field _ => field ∉ identityFields
  | patchCounter _ _ _ value => result.asInt64? = some value
  | evictObject _ | countPlay _ => True

namespace Plan

def Planned (m : Mutation) (result : Json) (plan : Plan) : Prop :=
  ∀ step ∈ plan, step.Planned m result

variable {m : Mutation} {result : Json} {plan more : Plan} {step : Step}

theorem planned_nil : Planned m result [] := List.forall_mem_nil _

theorem Planned.cons (hstep : step.Planned m result) (h : plan.Planned m result) :
    Planned m result (step :: plan) :=
  List.forall_mem_cons.2 ⟨hstep, h⟩

theorem Planned.append (h : plan.Planned m result) (h' : more.Planned m result) :
    Planned m result (plan ++ more) :=
  List.forall_mem_append.2 ⟨h, h'⟩

theorem planned_addToStatIf {stat : Option String} (h : ∀ s ∈ stat, s ∉ identityFields)
    (delta : Double) : (addToStatIf stat delta).Planned m result := by
  cases stat with
  | none => exact planned_nil
  | some stat => exact .cons (h stat rfl) planned_nil

theorem planned_countUp (family : Family) :
    (addToStatIf (Impact.of family).createdStat (Double.ofInt 1)).Planned m result :=
  planned_addToStatIf (Impact.createdStat_not_identity family) _

theorem planned_countDown (family : Family) (ids : List String) :
    (addToStatIf (Impact.of family).destroyedStat (Double.ofInt ids.length).neg).Planned m result :=
  planned_addToStatIf (Impact.destroyedStat_not_identity family) _

theorem planned_appendIf {family : Family} (hcreated : m.kind.created? = some family) :
    (appendIf (Impact.of family).listQuery (resultObject? family.typename result)).Planned m
      result := by
  cases hlist : (Impact.of family).listQuery with
  | none => exact planned_nil
  | some list =>
    cases hobj : resultObject? family.typename result with
    | none => exact planned_nil
    | some obj => exact .cons ⟨family, hcreated, hlist, hobj⟩ planned_nil

theorem planned_deleteObjects (typename : Typename) (ids : List String) {lookup : Option Document}
    (h : ∀ doc ∈ lookup, doc ∈ Document.all ∧ doc.singleObject.isSome = true) :
    (deleteObjects typename ids lookup).Planned m result := by
  intro step hstep
  obtain ⟨id, -, rfl⟩ := List.mem_map.1 hstep
  cases lookup with
  | none => trivial
  | some doc => exact h doc rfl

theorem planned_evictField (obj : ObjectRef) {field : String} (h : field ∉ identityFields) :
    Planned m result [.evictField obj field] :=
  .cons h planned_nil

theorem planned_evictQueries {docs : List Document} (hdocs : ∀ doc ∈ docs, doc.IsEvicted) :
    Planned m result [.evictQueries docs] :=
  .cons hdocs planned_nil

theorem planned_evictions {fields : TypeFields} (hfields : fields.SparesIdentity)
    (ignore : Option ObjectRef) {docs : List Document} (hdocs : ∀ doc ∈ docs, doc.IsEvicted) :
    Planned m result [.evictTypeFields fields ignore, .evictQueries docs] :=
  .cons hfields (planned_evictQueries hdocs)

/-! ### By family -/

theorem planned_create {family : Family} (hcreated : m.kind.created? = some family)
    (keepOwn : Bool) : (create family result keepOwn).Planned m result :=
  ((planned_appendIf hcreated).append (planned_countUp family)).append
    (planned_evictions (Impact.sparesIdentity_fieldsOnChange family) _
      (Impact.isEvicted_queriesOnCreate family))

theorem planned_update (family : Family) (ignore : Option ObjectRef) :
    (update family ignore).Planned m result :=
  planned_evictions (Impact.sparesIdentity_fieldsOnChange family) ignore
    (Impact.isEvicted_queries family)

theorem planned_destroy (family : Family) (ids : List String) :
    (destroy family ids).Planned m result :=
  ((planned_deleteObjects _ ids (Impact.isLookup_findQuery family)).append
    (planned_countDown family ids)).append
    (planned_evictions (Impact.sparesIdentity_fieldsOnDestroy family) none
      (Impact.isEvicted_queriesOnDestroy family))

/-! ### Scenes -/

theorem planned_createScene (result : Json) (fileIds : List String) :
    (createScene result fileIds).Planned m result := by
  have hfields := Impact.sparesIdentity_fieldsOnChange .scene
  have hdocs := Impact.isEvicted_queriesOnCreate .scene
  unfold createScene
  refine (planned_countUp .scene).append (.cons ?_ (planned_evictQueries hdocs))
  split
  · exact hfields
  · exact hfields.add .scene (by decide)

theorem planned_assignFile (sceneId : String) : (assignFile sceneId).Planned m result :=
  .cons trivial
    (planned_evictions (TypeFields.sparesIdentity_ofRows (by decide)) none (by decide))

theorem planned_mergeScenes (source : List String) : (mergeScenes source).Planned m result :=
  (planned_deleteObjects _ source (by decide)).append
    (planned_evictions (Impact.sparesIdentity_fieldsOnChange .scene) none (by decide))

theorem planned_saveActivity {id : String} {resumeTime playDuration : Option Double} :
    (saveActivity id resumeTime playDuration).Planned
      (.sceneSaveActivity id resumeTime playDuration) result := by
  unfold saveActivity
  simp only
  refine Planned.append (Planned.append ?_ ?_) (planned_evictQueries (by decide))
  · cases resumeTime with
    | none => exact planned_nil
    | some time => exact .cons ⟨by decide, time, rfl, rfl⟩ planned_nil
  · cases playDuration with
    | none => exact planned_nil
    | some duration =>
      have hfield : "play_duration" ∉ identityFields := by decide
      have hstat : "total_play_duration" ∉ identityFields := by decide
      refine .cons hfield ?_
      split
      · exact .cons hstat planned_nil
      · exact planned_nil

theorem planned_countPlay (id : String) : (countPlay id).Planned m result :=
  .cons trivial (planned_evictQueries (by decide))

theorem planned_counter (target : CounterTarget) (id : String) (op : CounterOp) (result : Json) :
    (counter target id op result).Planned m result := by
  unfold counter
  split
  · exact .cons ‹_› planned_nil
  · exact planned_nil

/-! ### Other families -/

theorem planned_markerChanged (sceneId : String) : (markerChanged sceneId).Planned m result :=
  (planned_evictField ⟨.scene, sceneId⟩ (by decide)).append (planned_update .sceneMarker none)

theorem planned_galleryImages (galleryId : String) (imageIds : List String) :
    (galleryImages galleryId imageIds).Planned m result := by
  have hgalleries : "galleries" ∉ identityFields := by decide
  have himages : Planned m result (imageIds.map fun id => .evictField ⟨.image, id⟩ "galleries") := by
    intro step hstep
    obtain ⟨id, -, rfl⟩ := List.mem_map.1 hstep
    exact hgalleries
  exact ((planned_evictField ⟨.gallery, galleryId⟩ (by decide)).append himages).append
    (planned_evictQueries (by decide))

theorem planned_createStudio (hcreated : m.kind.created? = some .studio) (parentId : Option String) :
    (createStudio result parentId).Planned m result := by
  refine (((planned_appendIf hcreated).append (planned_countUp .studio)).append ?_).append
    (planned_evictQueries (Impact.isEvicted_queriesOnCreate .studio))
  cases parentId with
  | none => exact planned_nil
  | some id => exact planned_evictField ⟨.studio, id⟩ (by decide)

theorem planned_mergeTags (source : List String) (destination : String) :
    (mergeTags source destination).Planned m result :=
  ((planned_deleteObjects _ source (Impact.isLookup_findQuery .tag)).append
    (planned_countDown .tag source)).append
    (planned_evictions (Impact.sparesIdentity_fieldsOnChange .tag) _ (Impact.isEvicted_queries .tag))

theorem planned_destroyFilter (id : String) : (destroyFilter id).Planned m result :=
  (planned_deleteObjects _ [id] (by decide)).append (planned_evictQueries (by decide))

theorem planned_deleteFiles (ids : List String) : (deleteFiles ids).Planned m result := by
  refine Planned.append (fun step hstep => ?_) (planned_evictQueries (by decide))
  obtain ⟨id, -, hin⟩ := List.mem_flatMap.1 hstep
  obtain ⟨t, -, rfl⟩ := List.mem_map.1 hin
  trivial

end Plan

theorem Mutation.plan_planned (m : Mutation) (result : Json) : (m.plan result).Planned m result := by
  cases m
  case sceneCreate fileIds => exact Plan.planned_createScene result fileIds
  case sceneAssignFile sceneId fileId => exact Plan.planned_assignFile sceneId
  case sceneMerge destination source => exact Plan.planned_mergeScenes source
  case sceneSaveActivity => exact Plan.planned_saveActivity
  case sceneIncrementPlayCount id => exact Plan.planned_countPlay id
  case sceneMarkerCreate sceneId | sceneMarkerUpdate id sceneId =>
    exact Plan.planned_markerChanged sceneId
  case sceneMarkerDestroy | galleryChapterDestroy => exact .cons trivial (Plan.planned_update _ none)
  case addGalleryImages galleryId imageIds | removeGalleryImages galleryId imageIds =>
    exact Plan.planned_galleryImages galleryId imageIds
  case studioCreate parentId => exact Plan.planned_createStudio rfl parentId
  case tagsMerge source destination => exact Plan.planned_mergeTags source destination
  case destroySavedFilter id => exact Plan.planned_destroyFilter id
  case deleteFiles ids => exact Plan.planned_deleteFiles ids
  case sceneIncrementO | sceneDecrementO | sceneResetO | imageIncrementO | imageDecrementO |
      imageResetO =>
    exact Plan.planned_counter _ _ _ result
  case movieCreate | galleryCreate | galleryChapterCreate | performerCreate | tagCreate =>
    exact Plan.planned_create rfl _
  case sceneDestroy | scenesDestroy | imagesDestroy | movieDestroy | moviesDestroy | galleryDestroy |
      performerDestroy | performersDestroy | studioDestroy | studiosDestroy | tagDestroy |
      tagsDestroy =>
    exact Plan.planned_destroy _ _
  case sceneUpdate | bulkSceneUpdate | scenesUpdate | imageUpdate | bulkImageUpdate | movieUpdate |
      bulkMovieUpdate | galleryUpdate | bulkGalleryUpdate | galleryChapterUpdate | performerUpdate |
      bulkPerformerUpdate | studioUpdate | tagUpdate =>
    exact Plan.planned_update _ _
  all_goals exact Plan.planned_evictQueries (by decide)

end MediaCache
