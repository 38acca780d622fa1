import MediaCache.Schema.Document
import MediaCache.Schema.Family
import MediaCache.Update.TypeFields

/-!
# Impact tables

The table of a family says what can go stale when one of its rows changes: derived fields of other
types, queries, and the counts in the statistics. Tables are data; `uncovered` checks them against
the derived fields.
-/

namespace MediaCache

structure Impact where
  typeFields : List (Typename × List String)
  queries : List Document
  /-- The narrower queries that a create evicts, where they differ. -/
  createQueries : Option (List Document) := none
  destroyTypeFields : List (Typename × List String) := []
  destroyQueries : List Document := []
  /-- The look-up by id, which answers `null` for a destroyed object. -/
  findQuery : Option Document := none
  listQuery : Option Document := none
  createdStat : Option String := none
  destroyedStat : Option String := none
  counterQueries : List Document := []
deriving Repr

namespace Impact

def of : Family → Impact
  | .scene => {
      typeFields :=
        [(.movie, ["scenes", "scene_count"]), (.gallery, ["scenes"]),
         (.performer, ["scenes", "scene_count", "movies", "movie_count", "performer_count"]),
         (.studio, ["scene_count", "performer_count"]), (.tag, ["scene_count"])]
      queries :=
        [.findScenes, .findMovies, .findGalleries, .findPerformers, .findStudios, .findTags]
      destroyQueries := [.findSceneMarkers, .stats]
      findQuery := some .findScene
      createdStat := some "scene_count"
      counterQueries := [.findScenes, .findPerformers] }
  | .image => {
      typeFields :=
        [(.gallery, ["images", "image_count"]), (.performer, ["image_count", "performer_count"]),
         (.studio, ["image_count", "performer_count"]), (.tag, ["image_count"])]
      queries := [.findImages, .findGalleries, .findPerformers, .findStudios, .findTags]
      destroyQueries := [.stats]
      findQuery := some .findImage
      counterQueries := [.findImages, .findPerformers] }
  | .movie => {
      typeFields := [(.studio, ["movie_count"])]
      queries := [.findMovies]
      destroyTypeFields := [(.scene, ["movies"]), (.performer, ["movie_count"])]
      destroyQueries := [.findScenes]
      findQuery := some .findMovie
      listQuery := some .allMoviesForFilter
      createdStat := some "movie_count"
      destroyedStat := some "movie_count" }
  | .sceneMarker => {
      typeFields := [(.tag, ["scene_marker_count"])]
      queries := [.findScenes, .findSceneMarkers, .markerStrings, .findSceneMarkerTags, .findTags] }
  | .gallery => {
      typeFields :=
        [(.scene, ["galleries"]), (.performer, ["gallery_count", "performer_count"]),
         (.studio, ["gallery_count", "performer_count"]), (.tag, ["gallery_count"])]
      queries := [.findScenes, .findGalleries, .findPerformers, .findStudios, .findTags]
      destroyQueries := [.findImages, .stats]
      findQuery := some .findGallery
      createdStat := some "gallery_count" }
  | .galleryChapter => {
      typeFields := [(.gallery, ["chapters"])]
      queries := [.findGalleries] }
  | .performer => {
      typeFields := [(.tag, ["performer_count"])]
      queries := [.findScenes, .findImages, .findGalleries, .findPerformers, .findTags]
      createQueries := some [.findPerformers, .findTags]
      destroyTypeFields := [(.performer, ["performer_count"]), (.studio, ["performer_count"])]
      destroyQueries := [.findMovies, .findSceneMarkers]
      findQuery := some .findPerformer
      listQuery := some .allPerformersForFilter
      createdStat := some "performer_count"
      destroyedStat := some "performer_count" }
  | .studio => {
      typeFields := [(.studio, ["child_studios"])]
      queries :=
        [.findScenes, .findImages, .findMovies, .findGalleries, .findPerformers, .findStudios]
      createQueries := some [.findStudios]
      findQuery := some .findStudio
      listQuery := some .allStudiosForFilter
      createdStat := some "studio_count"
      destroyedStat := some "studio_count" }
  | .tag => {
      typeFields := [(.tag, ["parents", "children"])]
      queries := [.findScenes, .findImages, .findGalleries, .findPerformers, .findTags]
      createQueries := some [.findTags]
      findQuery := some .findTag
      listQuery := some .allTagsForFilter
      createdStat := some "tag_count"
      destroyedStat := some "tag_count" }

def fieldsOnChange (i : Impact) : TypeFields := .ofRows i.typeFields

def fieldsOnDestroy (i : Impact) : TypeFields := i.fieldsOnChange.union (.ofRows i.destroyTypeFields)

def queriesOnCreate (i : Impact) : List Document := i.createQueries.getD i.queries

/-- The queries of every mutation, and the further ones of a destroy that are not among them. -/
def queriesOnDestroy (i : Impact) : List Document :=
  i.destroyQueries.foldl (fun docs doc => if docs.contains doc then docs else docs ++ [doc]) i.queries

def fieldsOn (i : Impact) : StalePath → TypeFields
  | .anyChange => i.fieldsOnChange
  | .destroy => i.fieldsOnDestroy

end Impact

namespace DerivedField

/-- The table of the source evicts the field on the path that makes it stale. -/
def covered (d : DerivedField) : Bool :=
  ((Impact.of d.source).fieldsOn d.path).covers d.owner d.field

def uncovered (registry : List DerivedField) : List DerivedField :=
  registry.filter fun d => !d.covered

def gapText (d : DerivedField) : String :=
  let path :=
    match d.path with
    | .anyChange => ""
    | .destroy => " destroy"
  d.owner.name ++ "." ++ d.field ++ " is not evicted by " ++ d.source.name ++ path ++ " mutations"

end DerivedField

/-! ## JSON form -/

def Document.toJson (d : Document) : Json :=
  .object <| [("name", .string d.name), ("root_field", .string d.rootField)] ++
    match d.singleObject with
    | some t => [("single_object", .string t.name)]
    | none => []

namespace Impact

def documentsJson (docs : List Document) : Json := .array (docs.map Document.toJson)

def rowsJson (rows : List (Typename × List String)) : Json :=
  .array (rows.map fun row => .array [.string row.1.name, .strings row.2])

def tableJson (family : Family) : Json :=
  let i := of family
  .object [
    ("family", .string family.name),
    ("type_fields", rowsJson i.typeFields),
    ("queries", documentsJson i.queries),
    ("create_queries", .ofOption documentsJson i.createQueries),
    ("destroy_type_fields", rowsJson i.destroyTypeFields),
    ("destroy_queries", documentsJson i.destroyQueries),
    ("find_query", .ofOption Document.toJson i.findQuery),
    ("for_filter_query", .ofOption Document.toJson i.listQuery),
    ("created_stat", .ofOption .string i.createdStat),
    ("destroyed_stat", .ofOption .string i.destroyedStat),
    ("counter_queries", documentsJson i.counterQueries)]

end Impact

end MediaCache
