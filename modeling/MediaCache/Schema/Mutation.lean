import MediaCache.Schema.Family
import MediaCache.Json.Decode

/-!
# Mutations

A mutation is what was sent to the server, cut down to the variables that its cache update reads. Its
JSON form is an object with the `name` of the mutation and its `input`.
-/

namespace MediaCache

inductive MutationKind where
  | sceneCreate
  | sceneUpdate
  | bulkSceneUpdate
  | scenesUpdate
  | sceneDestroy
  | scenesDestroy
  | sceneIncrementO
  | sceneDecrementO
  | sceneResetO
  | sceneSetPrimaryFile
  | sceneAssignFile
  | sceneMerge
  | sceneSaveActivity
  | sceneIncrementPlayCount
  | imageUpdate
  | bulkImageUpdate
  | imagesDestroy
  | imageIncrementO
  | imageDecrementO
  | imageResetO
  | imageSetPrimaryFile
  | movieCreate
  | movieUpdate
  | bulkMovieUpdate
  | movieDestroy
  | moviesDestroy
  | sceneMarkerCreate
  | sceneMarkerUpdate
  | sceneMarkerDestroy
  | galleryCreate
  | galleryUpdate
  | bulkGalleryUpdate
  | galleryDestroy
  | addGalleryImages
  | removeGalleryImages
  | gallerySetPrimaryFile
  | galleryChapterCreate
  | galleryChapterUpdate
  | galleryChapterDestroy
  | performerCreate
  | performerUpdate
  | bulkPerformerUpdate
  | performerDestroy
  | performersDestroy
  | studioCreate
  | studioUpdate
  | studioDestroy
  | studiosDestroy
  | tagCreate
  | tagUpdate
  | tagDestroy
  | tagsDestroy
  | tagsMerge
  | saveFilter
  | setDefaultFilter
  | destroySavedFilter
  | deleteFiles
  | configureGeneral
  | configureInterface
  | configureDefaults
  | configureUi
  | configureScraping
  | configureDlna
  | generateApiKey
  | setup
  | migrate
deriving DecidableEq, Repr

inductive Subject where
  | entity (family : Family)
  | savedFilter
  | file
  | configuration
  /-- First run and database migration. -/
  | setup
deriving DecidableEq, Repr

namespace MutationKind

def all : List MutationKind :=
  [sceneCreate, sceneUpdate, bulkSceneUpdate, scenesUpdate, sceneDestroy, scenesDestroy,
    sceneIncrementO, sceneDecrementO, sceneResetO, sceneSetPrimaryFile, sceneAssignFile,
    sceneMerge, sceneSaveActivity, sceneIncrementPlayCount, imageUpdate, bulkImageUpdate,
    imagesDestroy, imageIncrementO, imageDecrementO, imageResetO, imageSetPrimaryFile,
    movieCreate, movieUpdate, bulkMovieUpdate, movieDestroy, moviesDestroy, sceneMarkerCreate,
    sceneMarkerUpdate, sceneMarkerDestroy, galleryCreate, galleryUpdate, bulkGalleryUpdate,
    galleryDestroy, addGalleryImages, removeGalleryImages, gallerySetPrimaryFile,
    galleryChapterCreate, galleryChapterUpdate, galleryChapterDestroy, performerCreate,
    performerUpdate, bulkPerformerUpdate, performerDestroy, performersDestroy, studioCreate,
    studioUpdate, studioDestroy, studiosDestroy, tagCreate, tagUpdate, tagDestroy, tagsDestroy,
    tagsMerge, saveFilter, setDefaultFilter, destroySavedFilter, deleteFiles, configureGeneral,
    configureInterface, configureDefaults, configureUi, configureScraping, configureDlna,
    generateApiKey, setup, migrate]

def name : MutationKind → String
  | sceneCreate => "sceneCreate"
  | sceneUpdate => "sceneUpdate"
  | bulkSceneUpdate => "bulkSceneUpdate"
  | scenesUpdate => "scenesUpdate"
  | sceneDestroy => "sceneDestroy"
  | scenesDestroy => "scenesDestroy"
  | sceneIncrementO => "sceneIncrementO"
  | sceneDecrementO => "sceneDecrementO"
  | sceneResetO => "sceneResetO"
  | sceneSetPrimaryFile => "sceneSetPrimaryFile"
  | sceneAssignFile => "sceneAssignFile"
  | sceneMerge => "sceneMerge"
  | sceneSaveActivity => "sceneSaveActivity"
  | sceneIncrementPlayCount => "sceneIncrementPlayCount"
  | imageUpdate => "imageUpdate"
  | bulkImageUpdate => "bulkImageUpdate"
  | imagesDestroy => "imagesDestroy"
  | imageIncrementO => "imageIncrementO"
  | imageDecrementO => "imageDecrementO"
  | imageResetO => "imageResetO"
  | imageSetPrimaryFile => "imageSetPrimaryFile"
  | movieCreate => "movieCreate"
  | movieUpdate => "movieUpdate"
  | bulkMovieUpdate => "bulkMovieUpdate"
  | movieDestroy => "movieDestroy"
  | moviesDestroy => "moviesDestroy"
  | sceneMarkerCreate => "sceneMarkerCreate"
  | sceneMarkerUpdate => "sceneMarkerUpdate"
  | sceneMarkerDestroy => "sceneMarkerDestroy"
  | galleryCreate => "galleryCreate"
  | galleryUpdate => "galleryUpdate"
  | bulkGalleryUpdate => "bulkGalleryUpdate"
  | galleryDestroy => "galleryDestroy"
  | addGalleryImages => "addGalleryImages"
  | removeGalleryImages => "removeGalleryImages"
  | gallerySetPrimaryFile => "gallerySetPrimaryFile"
  | galleryChapterCreate => "galleryChapterCreate"
  | galleryChapterUpdate => "galleryChapterUpdate"
  | galleryChapterDestroy => "galleryChapterDestroy"
  | performerCreate => "performerCreate"
  | performerUpdate => "performerUpdate"
  | bulkPerformerUpdate => "bulkPerformerUpdate"
  | performerDestroy => "performerDestroy"
  | performersDestroy => "performersDestroy"
  | studioCreate => "studioCreate"
  | studioUpdate => "studioUpdate"
  | studioDestroy => "studioDestroy"
  | studiosDestroy => "studiosDestroy"
  | tagCreate => "tagCreate"
  | tagUpdate => "tagUpdate"
  | tagDestroy => "tagDestroy"
  | tagsDestroy => "tagsDestroy"
  | tagsMerge => "tagsMerge"
  | saveFilter => "saveFilter"
  | setDefaultFilter => "setDefaultFilter"
  | destroySavedFilter => "destroySavedFilter"
  | deleteFiles => "deleteFiles"
  | configureGeneral => "configureGeneral"
  | configureInterface => "configureInterface"
  | configureDefaults => "configureDefaults"
  | configureUi => "configureUI"
  | configureScraping => "configureScraping"
  | configureDlna => "configureDLNA"
  | generateApiKey => "generateAPIKey"
  | setup => "setup"
  | migrate => "migrate"

def subject : MutationKind → Subject
  | sceneCreate | sceneUpdate | bulkSceneUpdate | scenesUpdate | sceneDestroy | scenesDestroy
  | sceneIncrementO | sceneDecrementO | sceneResetO | sceneSetPrimaryFile | sceneAssignFile
  | sceneMerge | sceneSaveActivity | sceneIncrementPlayCount => .entity .scene
  | imageUpdate | bulkImageUpdate | imagesDestroy | imageIncrementO | imageDecrementO
  | imageResetO | imageSetPrimaryFile => .entity .image
  | movieCreate | movieUpdate | bulkMovieUpdate | movieDestroy | moviesDestroy => .entity .movie
  | sceneMarkerCreate | sceneMarkerUpdate | sceneMarkerDestroy => .entity .sceneMarker
  | galleryCreate | galleryUpdate | bulkGalleryUpdate | galleryDestroy | addGalleryImages
  | removeGalleryImages | gallerySetPrimaryFile => .entity .gallery
  | galleryChapterCreate | galleryChapterUpdate | galleryChapterDestroy => .entity .galleryChapter
  | performerCreate | performerUpdate | bulkPerformerUpdate | performerDestroy
  | performersDestroy => .entity .performer
  | studioCreate | studioUpdate | studioDestroy | studiosDestroy => .entity .studio
  | tagCreate | tagUpdate | tagDestroy | tagsDestroy | tagsMerge => .entity .tag
  | saveFilter | setDefaultFilter | destroySavedFilter => .savedFilter
  | deleteFiles => .file
  | configureGeneral | configureInterface | configureDefaults | configureUi
  | configureScraping | configureDlna | generateApiKey => .configuration
  | setup | migrate => .setup

/-! ### Names in JSON -/

def title : MutationKind → String
  | sceneCreate => "SceneCreate"
  | sceneUpdate => "SceneUpdate"
  | bulkSceneUpdate => "BulkSceneUpdate"
  | scenesUpdate => "ScenesUpdate"
  | sceneDestroy => "SceneDestroy"
  | scenesDestroy => "ScenesDestroy"
  | sceneIncrementO => "SceneIncrementO"
  | sceneDecrementO => "SceneDecrementO"
  | sceneResetO => "SceneResetO"
  | sceneSetPrimaryFile => "SceneSetPrimaryFile"
  | sceneAssignFile => "SceneAssignFile"
  | sceneMerge => "SceneMerge"
  | sceneSaveActivity => "SceneSaveActivity"
  | sceneIncrementPlayCount => "SceneIncrementPlayCount"
  | imageUpdate => "ImageUpdate"
  | bulkImageUpdate => "BulkImageUpdate"
  | imagesDestroy => "ImagesDestroy"
  | imageIncrementO => "ImageIncrementO"
  | imageDecrementO => "ImageDecrementO"
  | imageResetO => "ImageResetO"
  | imageSetPrimaryFile => "ImageSetPrimaryFile"
  | movieCreate => "MovieCreate"
  | movieUpdate => "MovieUpdate"
  | bulkMovieUpdate => "BulkMovieUpdate"
  | movieDestroy => "MovieDestroy"
  | moviesDestroy => "MoviesDestroy"
  | sceneMarkerCreate => "SceneMarkerCreate"
  | sceneMarkerUpdate => "SceneMarkerUpdate"
  | sceneMarkerDestroy => "SceneMarkerDestroy"
  | galleryCreate => "GalleryCreate"
  | galleryUpdate => "GalleryUpdate"
  | bulkGalleryUpdate => "BulkGalleryUpdate"
  | galleryDestroy => "GalleryDestroy"
  | addGalleryImages => "AddGalleryImages"
  | removeGalleryImages => "RemoveGalleryImages"
  | gallerySetPrimaryFile => "GallerySetPrimaryFile"
  | galleryChapterCreate => "GalleryChapterCreate"
  | galleryChapterUpdate => "GalleryChapterUpdate"
  | galleryChapterDestroy => "GalleryChapterDestroy"
  | performerCreate => "PerformerCreate"
  | performerUpdate => "PerformerUpdate"
  | bulkPerformerUpdate => "BulkPerformerUpdate"
  | performerDestroy => "PerformerDestroy"
  | performersDestroy => "PerformersDestroy"
  | studioCreate => "StudioCreate"
  | studioUpdate => "StudioUpdate"
  | studioDestroy => "StudioDestroy"
  | studiosDestroy => "StudiosDestroy"
  | tagCreate => "TagCreate"
  | tagUpdate => "TagUpdate"
  | tagDestroy => "TagDestroy"
  | tagsDestroy => "TagsDestroy"
  | tagsMerge => "TagsMerge"
  | saveFilter => "SaveFilter"
  | setDefaultFilter => "SetDefaultFilter"
  | destroySavedFilter => "DestroySavedFilter"
  | deleteFiles => "DeleteFiles"
  | configureGeneral => "ConfigureGeneral"
  | configureInterface => "ConfigureInterface"
  | configureDefaults => "ConfigureDefaults"
  | configureUi => "ConfigureUi"
  | configureScraping => "ConfigureScraping"
  | configureDlna => "ConfigureDlna"
  | generateApiKey => "GenerateApiKey"
  | setup => "Setup"
  | migrate => "Migrate"

/-- The title with its first letter in lower case. Three abbreviations stay in upper case. -/
def jsonName : MutationKind → String
  | configureUi => "configureUI"
  | configureDlna => "configureDLNA"
  | generateApiKey => "generateAPIKey"
  | kind =>
    match kind.title.toList with
    | [] => ""
    | c :: rest => String.ofList (c.toLower :: rest)

def ofJsonName? (name : String) : Option MutationKind := all.find? (·.jsonName == name)

end MutationKind

inductive Mutation where
  | sceneCreate (fileIds : List String)
  | sceneUpdate (id : String)
  | bulkSceneUpdate (ids : List String)
  | scenesUpdate (ids : List String)
  | sceneDestroy (id : String)
  | scenesDestroy (ids : List String)
  | sceneIncrementO (id : String)
  | sceneDecrementO (id : String)
  | sceneResetO (id : String)
  | sceneSetPrimaryFile (id : String) (fileId : String)
  | sceneAssignFile (sceneId : String) (fileId : String)
  | sceneMerge (destination : String) (source : List String)
  | sceneSaveActivity (id : String) (resumeTime : Option Double) (playDuration : Option Double)
  | sceneIncrementPlayCount (id : String)
  | imageUpdate (id : String)
  | bulkImageUpdate (ids : List String)
  | imagesDestroy (ids : List String)
  | imageIncrementO (id : String)
  | imageDecrementO (id : String)
  | imageResetO (id : String)
  | imageSetPrimaryFile (id : String) (fileId : String)
  | movieCreate
  | movieUpdate (id : String)
  | bulkMovieUpdate (ids : List String)
  | movieDestroy (id : String)
  | moviesDestroy (ids : List String)
  | sceneMarkerCreate (sceneId : String)
  | sceneMarkerUpdate (id : String) (sceneId : String)
  | sceneMarkerDestroy (id : String)
  | galleryCreate
  | galleryUpdate (id : String)
  | bulkGalleryUpdate (ids : List String)
  | galleryDestroy (ids : List String)
  | addGalleryImages (galleryId : String) (imageIds : List String)
  | removeGalleryImages (galleryId : String) (imageIds : List String)
  | gallerySetPrimaryFile (id : String) (fileId : String)
  | galleryChapterCreate (galleryId : String)
  | galleryChapterUpdate (id : String)
  | galleryChapterDestroy (id : String)
  | performerCreate
  | performerUpdate (id : String)
  | bulkPerformerUpdate (ids : List String)
  | performerDestroy (id : String)
  | performersDestroy (ids : List String)
  | studioCreate (parentId : Option String)
  | studioUpdate (id : String)
  | studioDestroy (id : String)
  | studiosDestroy (ids : List String)
  | tagCreate
  | tagUpdate (id : String)
  | tagDestroy (id : String)
  | tagsDestroy (ids : List String)
  | tagsMerge (source : List String) (destination : String)
  | saveFilter
  | setDefaultFilter
  | destroySavedFilter (id : String)
  | deleteFiles (ids : List String)
  | configureGeneral
  | configureInterface
  | configureDefaults
  | configureUi
  | configureScraping
  | configureDlna
  | generateApiKey
  | setup
  | migrate
deriving DecidableEq, Repr

namespace Mutation

def kind : Mutation → MutationKind
  | sceneCreate .. => .sceneCreate
  | sceneUpdate .. => .sceneUpdate
  | bulkSceneUpdate .. => .bulkSceneUpdate
  | scenesUpdate .. => .scenesUpdate
  | sceneDestroy .. => .sceneDestroy
  | scenesDestroy .. => .scenesDestroy
  | sceneIncrementO .. => .sceneIncrementO
  | sceneDecrementO .. => .sceneDecrementO
  | sceneResetO .. => .sceneResetO
  | sceneSetPrimaryFile .. => .sceneSetPrimaryFile
  | sceneAssignFile .. => .sceneAssignFile
  | sceneMerge .. => .sceneMerge
  | sceneSaveActivity .. => .sceneSaveActivity
  | sceneIncrementPlayCount .. => .sceneIncrementPlayCount
  | imageUpdate .. => .imageUpdate
  | bulkImageUpdate .. => .bulkImageUpdate
  | imagesDestroy .. => .imagesDestroy
  | imageIncrementO .. => .imageIncrementO
  | imageDecrementO .. => .imageDecrementO
  | imageResetO .. => .imageResetO
  | imageSetPrimaryFile .. => .imageSetPrimaryFile
  | movieCreate => .movieCreate
  | movieUpdate .. => .movieUpdate
  | bulkMovieUpdate .. => .bulkMovieUpdate
  | movieDestroy .. => .movieDestroy
  | moviesDestroy .. => .moviesDestroy
  | sceneMarkerCreate .. => .sceneMarkerCreate
  | sceneMarkerUpdate .. => .sceneMarkerUpdate
  | sceneMarkerDestroy .. => .sceneMarkerDestroy
  | galleryCreate => .galleryCreate
  | galleryUpdate .. => .galleryUpdate
  | bulkGalleryUpdate .. => .bulkGalleryUpdate
  | galleryDestroy .. => .galleryDestroy
  | addGalleryImages .. => .addGalleryImages
  | removeGalleryImages .. => .removeGalleryImages
  | gallerySetPrimaryFile .. => .gallerySetPrimaryFile
  | galleryChapterCreate .. => .galleryChapterCreate
  | galleryChapterUpdate .. => .galleryChapterUpdate
  | galleryChapterDestroy .. => .galleryChapterDestroy
  | performerCreate => .performerCreate
  | performerUpdate .. => .performerUpdate
  | bulkPerformerUpdate .. => .bulkPerformerUpdate
  | performerDestroy .. => .performerDestroy
  | performersDestroy .. => .performersDestroy
  | studioCreate .. => .studioCreate
  | studioUpdate .. => .studioUpdate
  | studioDestroy .. => .studioDestroy
  | studiosDestroy .. => .studiosDestroy
  | tagCreate => .tagCreate
  | tagUpdate .. => .tagUpdate
  | tagDestroy .. => .tagDestroy
  | tagsDestroy .. => .tagsDestroy
  | tagsMerge .. => .tagsMerge
  | saveFilter => .saveFilter
  | setDefaultFilter => .setDefaultFilter
  | destroySavedFilter .. => .destroySavedFilter
  | deleteFiles .. => .deleteFiles
  | configureGeneral => .configureGeneral
  | configureInterface => .configureInterface
  | configureDefaults => .configureDefaults
  | configureUi => .configureUi
  | configureScraping => .configureScraping
  | configureDlna => .configureDlna
  | generateApiKey => .generateApiKey
  | setup => .setup
  | migrate => .migrate

def name (m : Mutation) : String := m.kind.name

/-! ## JSON form -/

def input : Mutation → Json.Fields
  | sceneCreate fileIds => [("file_ids", .strings fileIds)]
  | sceneUpdate id => [("id", .string id)]
  | bulkSceneUpdate ids => [("ids", .strings ids)]
  | scenesUpdate ids => [("ids", .strings ids)]
  | sceneDestroy id => [("id", .string id)]
  | scenesDestroy ids => [("ids", .strings ids)]
  | sceneIncrementO id => [("id", .string id)]
  | sceneDecrementO id => [("id", .string id)]
  | sceneResetO id => [("id", .string id)]
  | sceneSetPrimaryFile id fileId => [("file_id", .string fileId), ("id", .string id)]
  | sceneAssignFile sceneId fileId => [("file_id", .string fileId), ("scene_id", .string sceneId)]
  | sceneMerge destination source =>
    [("destination", .string destination),
      ("source", .strings source)]
  | sceneSaveActivity id resumeTime playDuration =>
    [("id", .string id),
      ("play_duration", .ofOption (fun x => .number (.double x)) playDuration),
      ("resume_time", .ofOption (fun x => .number (.double x)) resumeTime)]
  | sceneIncrementPlayCount id => [("id", .string id)]
  | imageUpdate id => [("id", .string id)]
  | bulkImageUpdate ids => [("ids", .strings ids)]
  | imagesDestroy ids => [("ids", .strings ids)]
  | imageIncrementO id => [("id", .string id)]
  | imageDecrementO id => [("id", .string id)]
  | imageResetO id => [("id", .string id)]
  | imageSetPrimaryFile id fileId => [("file_id", .string fileId), ("id", .string id)]
  | movieCreate => []
  | movieUpdate id => [("id", .string id)]
  | bulkMovieUpdate ids => [("ids", .strings ids)]
  | movieDestroy id => [("id", .string id)]
  | moviesDestroy ids => [("ids", .strings ids)]
  | sceneMarkerCreate sceneId => [("scene_id", .string sceneId)]
  | sceneMarkerUpdate id sceneId => [("id", .string id), ("scene_id", .string sceneId)]
  | sceneMarkerDestroy id => [("id", .string id)]
  | galleryCreate => []
  | galleryUpdate id => [("id", .string id)]
  | bulkGalleryUpdate ids => [("ids", .strings ids)]
  | galleryDestroy ids => [("ids", .strings ids)]
  | addGalleryImages galleryId imageIds =>
    [("gallery_id", .string galleryId),
      ("image_ids", .strings imageIds)]
  | removeGalleryImages galleryId imageIds =>
    [("gallery_id", .string galleryId),
      ("image_ids", .strings imageIds)]
  | gallerySetPrimaryFile id fileId => [("file_id", .string fileId), ("id", .string id)]
  | galleryChapterCreate galleryId => [("gallery_id", .string galleryId)]
  | galleryChapterUpdate id => [("id", .string id)]
  | galleryChapterDestroy id => [("id", .string id)]
  | performerCreate => []
  | performerUpdate id => [("id", .string id)]
  | bulkPerformerUpdate ids => [("ids", .strings ids)]
  | performerDestroy id => [("id", .string id)]
  | performersDestroy ids => [("ids", .strings ids)]
  | studioCreate parentId => [("parent_id", .ofOption .string parentId)]
  | studioUpdate id => [("id", .string id)]
  | studioDestroy id => [("id", .string id)]
  | studiosDestroy ids => [("ids", .strings ids)]
  | tagCreate => []
  | tagUpdate id => [("id", .string id)]
  | tagDestroy id => [("id", .string id)]
  | tagsDestroy ids => [("ids", .strings ids)]
  | tagsMerge source destination =>
    [("destination", .string destination),
      ("source", .strings source)]
  | saveFilter => []
  | setDefaultFilter => []
  | destroySavedFilter id => [("id", .string id)]
  | deleteFiles ids => [("ids", .strings ids)]
  | configureGeneral => []
  | configureInterface => []
  | configureDefaults => []
  | configureUi => []
  | configureScraping => []
  | configureDlna => []
  | generateApiKey => []
  | setup => []
  | migrate => []

def toJson (m : Mutation) : Json :=
  .object [("input", .object m.input), ("name", .string m.kind.jsonName)]

def ofInput? (input : Json.Fields) : MutationKind → Option Mutation
  | .sceneCreate => do return .sceneCreate (← input.orDefault? "file_ids" [] Json.strings?)
  | .sceneUpdate => do return .sceneUpdate (← input.required? "id" Json.asString?)
  | .bulkSceneUpdate => do return .bulkSceneUpdate (← input.orDefault? "ids" [] Json.strings?)
  | .scenesUpdate => do return .scenesUpdate (← input.orDefault? "ids" [] Json.strings?)
  | .sceneDestroy => do return .sceneDestroy (← input.required? "id" Json.asString?)
  | .scenesDestroy => do return .scenesDestroy (← input.required? "ids" Json.strings?)
  | .sceneIncrementO => do return .sceneIncrementO (← input.required? "id" Json.asString?)
  | .sceneDecrementO => do return .sceneDecrementO (← input.required? "id" Json.asString?)
  | .sceneResetO => do return .sceneResetO (← input.required? "id" Json.asString?)
  | .sceneSetPrimaryFile => do
    return .sceneSetPrimaryFile
      (← input.required? "id" Json.asString?)
      (← input.required? "file_id" Json.asString?)
  | .sceneAssignFile => do
    return .sceneAssignFile
      (← input.required? "scene_id" Json.asString?)
      (← input.required? "file_id" Json.asString?)
  | .sceneMerge => do
    return .sceneMerge
      (← input.required? "destination" Json.asString?)
      (← input.required? "source" Json.strings?)
  | .sceneSaveActivity => do
    return .sceneSaveActivity
      (← input.required? "id" Json.asString?)
      (← input.optional? "resume_time" Json.asDouble?)
      (← input.optional? "play_duration" Json.asDouble?)
  | .sceneIncrementPlayCount => do
    return .sceneIncrementPlayCount (← input.required? "id" Json.asString?)
  | .imageUpdate => do return .imageUpdate (← input.required? "id" Json.asString?)
  | .bulkImageUpdate => do return .bulkImageUpdate (← input.orDefault? "ids" [] Json.strings?)
  | .imagesDestroy => do return .imagesDestroy (← input.required? "ids" Json.strings?)
  | .imageIncrementO => do return .imageIncrementO (← input.required? "id" Json.asString?)
  | .imageDecrementO => do return .imageDecrementO (← input.required? "id" Json.asString?)
  | .imageResetO => do return .imageResetO (← input.required? "id" Json.asString?)
  | .imageSetPrimaryFile => do
    return .imageSetPrimaryFile
      (← input.required? "id" Json.asString?)
      (← input.required? "file_id" Json.asString?)
  | .movieCreate => some .movieCreate
  | .movieUpdate => do return .movieUpdate (← input.required? "id" Json.asString?)
  | .bulkMovieUpdate => do return .bulkMovieUpdate (← input.orDefault? "ids" [] Json.strings?)
  | .movieDestroy => do return .movieDestroy (← input.required? "id" Json.asString?)
  | .moviesDestroy => do return .moviesDestroy (← input.required? "ids" Json.strings?)
  | .sceneMarkerCreate => do return .sceneMarkerCreate (← input.required? "scene_id" Json.asString?)
  | .sceneMarkerUpdate => do
    return .sceneMarkerUpdate
      (← input.required? "id" Json.asString?)
      (← input.required? "scene_id" Json.asString?)
  | .sceneMarkerDestroy => do return .sceneMarkerDestroy (← input.required? "id" Json.asString?)
  | .galleryCreate => some .galleryCreate
  | .galleryUpdate => do return .galleryUpdate (← input.required? "id" Json.asString?)
  | .bulkGalleryUpdate => do return .bulkGalleryUpdate (← input.orDefault? "ids" [] Json.strings?)
  | .galleryDestroy => do return .galleryDestroy (← input.required? "ids" Json.strings?)
  | .addGalleryImages => do
    return .addGalleryImages
      (← input.required? "gallery_id" Json.asString?)
      (← input.required? "image_ids" Json.strings?)
  | .removeGalleryImages => do
    return .removeGalleryImages
      (← input.required? "gallery_id" Json.asString?)
      (← input.required? "image_ids" Json.strings?)
  | .gallerySetPrimaryFile => do
    return .gallerySetPrimaryFile
      (← input.required? "id" Json.asString?)
      (← input.required? "file_id" Json.asString?)
  | .galleryChapterCreate => do
    return .galleryChapterCreate (← input.required? "gallery_id" Json.asString?)
  | .galleryChapterUpdate => do return .galleryChapterUpdate (← input.required? "id" Json.asString?)
  | .galleryChapterDestroy => do
    return .galleryChapterDestroy (← input.required? "id" Json.asString?)
  | .performerCreate => some .performerCreate
  | .performerUpdate => do return .performerUpdate (← input.required? "id" Json.asString?)
  | .bulkPerformerUpdate => do
    return .bulkPerformerUpdate (← input.orDefault? "ids" [] Json.strings?)
  | .performerDestroy => do return .performerDestroy (← input.required? "id" Json.asString?)
  | .performersDestroy => do return .performersDestroy (← input.required? "ids" Json.strings?)
  | .studioCreate => do return .studioCreate (← input.optional? "parent_id" Json.asString?)
  | .studioUpdate => do return .studioUpdate (← input.required? "id" Json.asString?)
  | .studioDestroy => do return .studioDestroy (← input.required? "id" Json.asString?)
  | .studiosDestroy => do return .studiosDestroy (← input.required? "ids" Json.strings?)
  | .tagCreate => some .tagCreate
  | .tagUpdate => do return .tagUpdate (← input.required? "id" Json.asString?)
  | .tagDestroy => do return .tagDestroy (← input.required? "id" Json.asString?)
  | .tagsDestroy => do return .tagsDestroy (← input.required? "ids" Json.strings?)
  | .tagsMerge => do
    return .tagsMerge
      (← input.required? "source" Json.strings?)
      (← input.required? "destination" Json.asString?)
  | .saveFilter => some .saveFilter
  | .setDefaultFilter => some .setDefaultFilter
  | .destroySavedFilter => do return .destroySavedFilter (← input.required? "id" Json.asString?)
  | .deleteFiles => do return .deleteFiles (← input.required? "ids" Json.strings?)
  | .configureGeneral => some .configureGeneral
  | .configureInterface => some .configureInterface
  | .configureDefaults => some .configureDefaults
  | .configureUi => some .configureUi
  | .configureScraping => some .configureScraping
  | .configureDlna => some .configureDlna
  | .generateApiKey => some .generateApiKey
  | .setup => some .setup
  | .migrate => some .migrate

def kindOfJson? (v : Json) : Option MutationKind := v.unitName?.bind MutationKind.ofJsonName?

/-- Reads an object with `name` and `input`, where a missing or `null` input has no members, or a list
of the two, where the name is a string. -/
def ofJson? : Json → Option Mutation
  | .object fields => do
    let kind ← Json.Fields.required? fields "name" kindOfJson?
    match Assoc.get? "input" fields with
    | none => ofInput? [] kind
    | some .null => ofInput? [] kind
    | some (.object input) => ofInput? input kind
    | some _ => none
  | .array [.string name, .object input] => do ofInput? input (← MutationKind.ofJsonName? name)
  | _ => none

end Mutation

/-- A completed mutation: what was sent and what the server returned. Nothing and `null` both mean
that it returned nothing. -/
structure MutationRecord where
  mutation : Mutation
  result : Option Json
deriving DecidableEq, Repr

namespace MutationRecord

def toJson (r : MutationRecord) : Json :=
  .object [("mutation", r.mutation.toJson), ("result", r.result.getD .null)]

def resultOf : Json → Option Json
  | .null => none
  | v => some v

/-- Reads an object with `mutation` and perhaps `result`, each once, or a list of them. Only these two
are read; what else is written is skipped. -/
def ofWritten? (limit : Written.Limit) : Written → Option MutationRecord
  | .object fields => do
    let inner ← Written.Limit.enter? limit
    if !Written.keysReadable fields then none
    else
      let mutation ← (← Written.single? fields "mutation")
      let mutation ← Mutation.ofJson? (← mutation.value? inner)
      match ← Written.single? fields "result" with
      | none => return ⟨mutation, none⟩
      | some result => return ⟨mutation, resultOf (← result.value? inner)⟩
  | .array [mutation] => do
    let inner ← Written.Limit.enter? limit
    return ⟨← Mutation.ofJson? (← mutation.value? inner), none⟩
  | .array [mutation, result] => do
    let inner ← Written.Limit.enter? limit
    return ⟨← Mutation.ofJson? (← mutation.value? inner), resultOf (← result.value? inner)⟩
  | _ => none

def parse? (text : String) : Option MutationRecord :=
  (Written.parse? text).bind (ofWritten? .text)

def ofJson? (v : Json) : Option MutationRecord := ofWritten? none (.ofJson v)

end MutationRecord

end MediaCache
