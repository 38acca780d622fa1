import MediaCache.Schema.Typename

/-!
# Queries

All the cache needs of a query is its name, the root field its result is stored under and, for a
look-up by id, the type of the object it finds.
-/

namespace MediaCache

structure Document where
  name : String
  rootField : String
  singleObject : Option Typename
deriving DecidableEq, Repr

namespace Document

def findScene : Document := ⟨"FindScene", "findScene", some .scene⟩

def findScenes : Document := ⟨"FindScenes", "findScenes", none⟩

def findImage : Document := ⟨"FindImage", "findImage", some .image⟩

def findImages : Document := ⟨"FindImages", "findImages", none⟩

def findMovie : Document := ⟨"FindMovie", "findMovie", some .movie⟩

def findMovies : Document := ⟨"FindMovies", "findMovies", none⟩

def allMoviesForFilter : Document := ⟨"AllMoviesForFilter", "allMovies", none⟩

def findSceneMarkers : Document := ⟨"FindSceneMarkers", "findSceneMarkers", none⟩

def markerStrings : Document := ⟨"MarkerStrings", "markerStrings", none⟩

def findSceneMarkerTags : Document := ⟨"FindSceneMarkerTags", "sceneMarkerTags", none⟩

def findGallery : Document := ⟨"FindGallery", "findGallery", some .gallery⟩

def findGalleries : Document := ⟨"FindGalleries", "findGalleries", none⟩

def findPerformer : Document := ⟨"FindPerformer", "findPerformer", some .performer⟩

def findPerformers : Document := ⟨"FindPerformers", "findPerformers", none⟩

def allPerformersForFilter : Document := ⟨"AllPerformersForFilter", "allPerformers", none⟩

def findStudio : Document := ⟨"FindStudio", "findStudio", some .studio⟩

def findStudios : Document := ⟨"FindStudios", "findStudios", none⟩

def allStudiosForFilter : Document := ⟨"AllStudiosForFilter", "allStudios", none⟩

def findTag : Document := ⟨"FindTag", "findTag", some .tag⟩

def findTags : Document := ⟨"FindTags", "findTags", none⟩

def allTagsForFilter : Document := ⟨"AllTagsForFilter", "allTags", none⟩

def findSavedFilter : Document := ⟨"FindSavedFilter", "findSavedFilter", some .savedFilter⟩

def findSavedFilters : Document := ⟨"FindSavedFilters", "findSavedFilters", none⟩

def findDefaultFilter : Document := ⟨"FindDefaultFilter", "findDefaultFilter", none⟩

def stats : Document := ⟨"Stats", "stats", none⟩

def configuration : Document := ⟨"Configuration", "configuration", none⟩

def systemStatus : Document := ⟨"SystemStatus", "systemStatus", none⟩

def all : List Document :=
  [findScene, findScenes, findImage, findImages, findMovie, findMovies, allMoviesForFilter,
    findSceneMarkers, markerStrings, findSceneMarkerTags, findGallery, findGalleries,
    findPerformer, findPerformers, allPerformersForFilter, findStudio, findStudios,
    allStudiosForFilter, findTag, findTags, allTagsForFilter, findSavedFilter, findSavedFilters,
    findDefaultFilter, stats, configuration, systemStatus]

def parse (name : String) : Except SchemaError Document :=
  match all.find? (·.name == name) with
  | some doc => .ok doc
  | none => .error (.unknownDocument name)

def ofRootField? (field : String) : Option Document := all.find? (·.rootField == field)

end Document

end MediaCache
