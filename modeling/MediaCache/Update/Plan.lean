import MediaCache.Schema.Mutation
import MediaCache.Update.Counter

/-!
# Plans

A mutation that has succeeded has a plan: the steps that bring the cache up to date. Objects that the
server returned are stored first. Steps that patch come before steps that evict.
-/

namespace MediaCache

inductive Step where
  | appendReference (obj : ObjectRef) (list : Document)
  | addToStat (stat : String) (delta : Double)
  /-- The look-up finds nothing from now on. -/
  | deleteObject (obj : ObjectRef) (lookup : Document)
  | evictObject (obj : ObjectRef)
  | evictField (obj : ObjectRef) (field : String)
  | evictTypeFields (fields : TypeFields) (ignore : Option ObjectRef)
  | evictQueries (docs : List Document)
  | replaceField (obj : ObjectRef) (field : String) (v : Json)
  | addToField (obj : ObjectRef) (field : String) (delta : Double)
  | countPlay (scene : ObjectRef)
  | patchCounter (target : CounterTarget) (id : String) (op : CounterOp) (value : Int)
deriving DecidableEq

abbrev Plan := List Step

namespace Cache

/-- The number of plays so far, where `null` is none. Nothing when it is not cached as an integer. -/
def playCount? (c : Cache) (scene : ObjectRef) : Option Int :=
  (c.fieldValue? scene "play_count").bind fun v => if v.isNull then some 0 else v.asInt64?

def countPlay (c : Cache) (scene : ObjectRef) (now : String) : Cache :=
  let previous := c.playCount? scene
  let counted :=
    match previous with
    | some n => c.applyToField scene "play_count" (.set (.int (wrapInt64 (n + 1))))
    | none => c
  let dated := (counted.modifyField scene "last_played_at" fun _ => .set (.string now)).2
  let totalled := (dated.addToStat "total_play_count" (Double.ofInt 1)).2
  -- A scene counts as played with its first play. Nobody knows when the plays so far are unknown.
  match previous with
  | some n => if n = 0 then (totalled.addToStat "scenes_played" (Double.ofInt 1)).2 else totalled
  | none => (totalled.dropStat "scenes_played").2

end Cache

def Step.run (options : Options) (now : String) (c : Cache) : Step → Cache
  | appendReference obj list => (c.appendReference obj list).2
  | addToStat stat delta => (c.addToStat stat delta).2
  | deleteObject obj lookup => c.deleteObject obj lookup
  | evictObject obj => (c.evictObject obj).2
  | evictField obj field => (c.evictField obj field).2
  | evictTypeFields fields ignore => (c.evictTypeFields fields ignore).2
  | evictQueries docs => (c.evictQueries docs options).2
  | replaceField obj field v => (c.modifyField obj field fun _ => .set v).2
  | addToField obj field delta =>
    (c.modifyField obj field fun v =>
      match addNumber? v delta with
      | some next => .set next
      | none => .keep).2
  | countPlay scene => c.countPlay scene now
  | patchCounter target id op value => (c.patchCounter target id op value options).2

def Plan.run (options : Options) (now : String) (c : Cache) (plan : Plan) : Cache :=
  plan.foldl (Step.run options now) c

def resultObject? (typename : Typename) (result : Json) : Option ObjectRef :=
  ((result.field? "id").bind idText?).map fun id => ⟨typename, id⟩

namespace Plan

/-! ## Plans by family -/

def addToStatIf (stat : Option String) (delta : Double) : Plan :=
  match stat with
  | some stat => [.addToStat stat delta]
  | none => []

def appendIf (list : Option Document) (obj : Option ObjectRef) : Plan :=
  match list, obj with
  | some list, some obj => [.appendReference obj list]
  | _, _ => []

/-- The objects are gone: their look-up answers `null`, where the family has one. -/
def deleteObjects (typename : Typename) (ids : List String) (lookup : Option Document) : Plan :=
  ids.map fun id =>
    match lookup with
    | some doc => .deleteObject ⟨typename, id⟩ doc
    | none => .evictObject ⟨typename, id⟩

/-- With `keepOwn` the new object keeps its derived fields. -/
def create (family : Family) (result : Json) (keepOwn : Bool) : Plan :=
  let table := Impact.of family
  let created := resultObject? family.typename result
  appendIf table.listQuery created ++ addToStatIf table.createdStat (Double.ofInt 1) ++
    [.evictTypeFields table.fieldsOnChange (if keepOwn then created else none),
      .evictQueries table.queriesOnCreate]

def update (family : Family) (ignore : Option ObjectRef) : Plan :=
  let table := Impact.of family
  [.evictTypeFields table.fieldsOnChange ignore, .evictQueries table.queries]

def destroy (family : Family) (ids : List String) : Plan :=
  let table := Impact.of family
  deleteObjects family.typename ids table.findQuery ++
    addToStatIf table.destroyedStat (Double.ofInt ids.length).neg ++
    [.evictTypeFields table.fieldsOnDestroy none, .evictQueries table.queriesOnDestroy]

/-! ## Scenes -/

def createScene (result : Json) (fileIds : List String) : Plan :=
  let table := Impact.of .scene
  let evictFields :=
    -- Files that are given to a new scene leave their previous one.
    if fileIds.isEmpty then .evictTypeFields table.fieldsOnChange none
    else .evictTypeFields (table.fieldsOnChange.add .scene ["files"]) (resultObject? .scene result)
  addToStatIf table.createdStat (Double.ofInt 1) ++ [evictFields, .evictQueries table.queriesOnCreate]

def assignFile (sceneId : String) : Plan :=
  [.evictObject ⟨.scene, sceneId⟩, .evictTypeFields (.ofRows [(.scene, ["files"])]) none,
    .evictQueries [.findScenes]]

def mergeScenes (source : List String) : Plan :=
  let table := Impact.of .scene
  deleteObjects .scene source (some .findScene) ++
    [.evictTypeFields table.fieldsOnChange none, .evictQueries (table.queries ++ [.stats])]

def saveActivity (id : String) (resumeTime playDuration : Option Double) : Plan :=
  let scene : ObjectRef := ⟨.scene, id⟩
  let resume : Plan :=
    match resumeTime with
    | some time => [.replaceField scene "resume_time" (.number (.double time))]
    | none => []
  let played : Plan :=
    match playDuration with
    | some duration =>
      .addToField scene "play_duration" duration ::
        if duration.isPositive then [.addToStat "total_play_duration" duration] else []
    | none => []
  resume ++ played ++ [.evictQueries [.findScenes]]

def countPlay (id : String) : Plan := [.countPlay ⟨.scene, id⟩, .evictQueries [.findScenes]]

def counter (target : CounterTarget) (id : String) (op : CounterOp) (result : Json) : Plan :=
  match result.asInt64? with
  | some value => [.patchCounter target id op value]
  | none => []

/-! ## Other families -/

def markerChanged (sceneId : String) : Plan :=
  .evictField ⟨.scene, sceneId⟩ "scene_markers" :: update .sceneMarker none

def destroyMarker (id : String) : Plan := .evictObject ⟨.sceneMarker, id⟩ :: update .sceneMarker none

def destroyChapter (id : String) : Plan :=
  .evictObject ⟨.galleryChapter, id⟩ :: update .galleryChapter none

def galleryImages (galleryId : String) (imageIds : List String) : Plan :=
  .evictField ⟨.gallery, galleryId⟩ "image_count" ::
    (imageIds.map fun id => .evictField ⟨.image, id⟩ "galleries") ++
    [.evictQueries [.findGalleries, .findImages]]

def createStudio (result : Json) (parentId : Option String) : Plan :=
  let table := Impact.of .studio
  -- No other derived field changes with a new studio.
  let parent : Plan :=
    match parentId with
    | some id => [.evictField ⟨.studio, id⟩ "child_studios"]
    | none => []
  appendIf table.listQuery (resultObject? .studio result) ++
    addToStatIf table.createdStat (Double.ofInt 1) ++ parent ++ [.evictQueries table.queriesOnCreate]

/-- The source tags are gone and the destination keeps its fields. -/
def mergeTags (source : List String) (destination : String) : Plan :=
  let table := Impact.of .tag
  deleteObjects .tag source table.findQuery ++
    addToStatIf table.destroyedStat (Double.ofInt source.length).neg ++
    [.evictTypeFields table.fieldsOnChange (some ⟨.tag, destination⟩), .evictQueries table.queries]

def destroyFilter (id : String) : Plan :=
  deleteObjects .savedFilter [id] (some .findSavedFilter) ++ [.evictQueries [.findDefaultFilter]]

def deleteFiles (ids : List String) : Plan :=
  -- Their ids are unique across the file types, so each is evicted as every one of them.
  (ids.flatMap fun id => Interface.baseFile.possibleTypes.map fun t => .evictObject ⟨t, id⟩) ++
    [.evictQueries [.findScenes, .findImages, .findGalleries, .stats]]

end Plan

namespace Mutation

def plan (result : Json) : Mutation → Plan
  | sceneCreate fileIds => .createScene result fileIds
  | sceneUpdate .. | bulkSceneUpdate .. | scenesUpdate .. => .update .scene none
  | sceneDestroy id => .destroy .scene [id]
  | scenesDestroy ids => .destroy .scene ids
  | sceneIncrementO id => .counter .scene id .increment result
  | sceneDecrementO id => .counter .scene id .decrement result
  | sceneResetO id => .counter .scene id .reset result
  | sceneSetPrimaryFile .. => [.evictQueries [.findScenes]]
  | sceneAssignFile sceneId _ => .assignFile sceneId
  | sceneMerge _ source => .mergeScenes source
  | sceneSaveActivity id resumeTime playDuration => .saveActivity id resumeTime playDuration
  | sceneIncrementPlayCount id => .countPlay id
  | imageUpdate .. | bulkImageUpdate .. => .update .image none
  | imagesDestroy ids => .destroy .image ids
  | imageIncrementO id => .counter .image id .increment result
  | imageDecrementO id => .counter .image id .decrement result
  | imageResetO id => .counter .image id .reset result
  | imageSetPrimaryFile .. => [.evictQueries [.findImages]]
  | movieCreate => .create .movie result false
  | movieUpdate .. | bulkMovieUpdate .. => .update .movie none
  | movieDestroy id => .destroy .movie [id]
  | moviesDestroy ids => .destroy .movie ids
  | sceneMarkerCreate sceneId => .markerChanged sceneId
  | sceneMarkerUpdate _ sceneId => .markerChanged sceneId
  | sceneMarkerDestroy id => .destroyMarker id
  | galleryCreate => .create .gallery result false
  | galleryUpdate .. | bulkGalleryUpdate .. => .update .gallery none
  | galleryDestroy ids => .destroy .gallery ids
  | addGalleryImages galleryId imageIds => .galleryImages galleryId imageIds
  | removeGalleryImages galleryId imageIds => .galleryImages galleryId imageIds
  | gallerySetPrimaryFile .. => [.evictQueries [.findGalleries]]
  | galleryChapterCreate .. => .create .galleryChapter result false
  | galleryChapterUpdate .. => .update .galleryChapter none
  | galleryChapterDestroy id => .destroyChapter id
  | performerCreate => .create .performer result false
  | performerUpdate .. | bulkPerformerUpdate .. => .update .performer none
  | performerDestroy id => .destroy .performer [id]
  | performersDestroy ids => .destroy .performer ids
  | studioCreate parentId => .createStudio result parentId
  | studioUpdate id => .update .studio (some ⟨.studio, id⟩)
  | studioDestroy id => .destroy .studio [id]
  | studiosDestroy ids => .destroy .studio ids
  | tagCreate => .create .tag result true
  | tagUpdate id => .update .tag (some ⟨.tag, id⟩)
  | tagDestroy id => .destroy .tag [id]
  | tagsDestroy ids => .destroy .tag ids
  | tagsMerge source destination => .mergeTags source destination
  | saveFilter => [.evictQueries [.findSavedFilters]]
  | setDefaultFilter => [.evictQueries [.findDefaultFilter]]
  | destroySavedFilter id => .destroyFilter id
  | deleteFiles ids => .deleteFiles ids
  | configureGeneral | configureInterface | configureDefaults | configureUi | configureScraping
  | configureDlna | generateApiKey => [.evictQueries [.configuration]]
  | setup | migrate => [.evictQueries [.configuration, .systemStatus]]

end Mutation

/-! ## Applying a mutation -/

def MutationKind.isCounter : MutationKind → Bool
  | sceneIncrementO | sceneDecrementO | sceneResetO => true
  | imageIncrementO | imageDecrementO | imageResetO => true
  | _ => false

/-- Whether a result says that the mutation did something. -/
def MutationKind.accepts (kind : MutationKind) (result : Json) : Bool :=
  -- Zero is a good counter.
  if kind.isCounter then result.asInt64?.isSome
  else
    match result with
    | .null => false
    | .bool false => false
    | _ => true

def Subject.typename? : Subject → Option Typename
  | entity family => some family.typename
  | savedFilter => some .savedFilter
  | _ => none

/-- A returned object with the type of its family, when it has an id and names no type. -/
def typedResult (subject : Subject) (fields : Json.Fields) : Json :=
  match subject.typename? with
  | some t =>
    if Assoc.contains "id" fields && !Assoc.contains "__typename" fields then
      .object (Assoc.insert "__typename" (.string t.name) fields)
    else .object fields
  | none => .object fields

inductive Outcome where
  /-- The result was absent or empty, and nothing was written. -/
  | skipped
  | applied
deriving DecidableEq, Repr

def Outcome.name : Outcome → String
  | skipped => "skipped"
  | applied => "applied"

namespace Cache

def writeResult (c : Cache) (subject : Subject) (result : Json) : Cache :=
  let returned :=
    match result with
    | .array items => items
    | v => [v]
  returned.foldl
    (fun c v =>
      match v with
      | .object fields => (c.writeObject (typedResult subject fields)).2
      | _ => c)
    c

/-- Brings the cache up to date after a mutation, given what the server returned for it. Sums are taken
modulo 2^64; `applyMutation?` is this for mutations that end without such a sum. -/
def applyMutation (c : Cache) (options : Options) (now : String) (m : Mutation)
    (result : Option Json) : Outcome × Cache :=
  match result.filter m.kind.accepts with
  | none => (.skipped, c)
  | some result =>
    (.applied, Plan.run options now (c.writeResult m.kind.subject result) (m.plan result))

end Cache

end MediaCache
