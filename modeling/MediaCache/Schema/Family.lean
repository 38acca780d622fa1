import MediaCache.Schema.Typename

/-!
# Entity families and derived fields

A family is the rows of one table on the server. A derived field is computed there from the rows of
another family, so a change of such a row can make every cached copy of the field stale.
-/

namespace MediaCache

inductive Family where
  | scene
  | image
  | movie
  | gallery
  | galleryChapter
  | performer
  | studio
  | tag
  | sceneMarker
deriving DecidableEq, Repr

namespace Family

def all : List Family :=
  [scene, image, movie, gallery, galleryChapter, performer, studio, tag, sceneMarker]

def name : Family → String
  | scene => "scene"
  | image => "image"
  | movie => "movie"
  | gallery => "gallery"
  | galleryChapter => "gallery_chapter"
  | performer => "performer"
  | studio => "studio"
  | tag => "tag"
  | sceneMarker => "scene_marker"

def typename : Family → Typename
  | scene => .scene
  | image => .image
  | movie => .movie
  | gallery => .gallery
  | galleryChapter => .galleryChapter
  | performer => .performer
  | studio => .studio
  | tag => .tag
  | sceneMarker => .sceneMarker

def ofName? (name : String) : Option Family := all.find? (·.name == name)

def parse (name : String) : Except SchemaError Family :=
  match ofName? name with
  | some f => .ok f
  | none => .error (.unknownFamily name)

theorem mem_all (f : Family) : f ∈ all := by cases f <;> decide

@[simp]
theorem ofName?_name (f : Family) : ofName? f.name = some f := by cases f <;> decide

theorem name_of_ofName? {s : String} {f : Family} (h : ofName? s = some f) : f.name = s := by
  simpa using List.find?_some h

end Family

/-- Which changes of a source row can make a derived field stale. -/
inductive StalePath where
  | anyChange
  | destroy
deriving DecidableEq, Repr

def StalePath.name : StalePath → String
  | anyChange => "any_change"
  | destroy => "destroy"

/-- A field of `owner` that is computed from the rows of `source`. -/
structure DerivedField where
  owner : Typename
  field : String
  source : Family
  path : StalePath
deriving DecidableEq, Repr

namespace DerivedField

def registry : List DerivedField :=
  [⟨.movie, "scenes", .scene, .anyChange⟩,
    ⟨.movie, "scene_count", .scene, .anyChange⟩,
    ⟨.gallery, "scenes", .scene, .anyChange⟩,
    ⟨.performer, "scenes", .scene, .anyChange⟩,
    ⟨.performer, "scene_count", .scene, .anyChange⟩,
    ⟨.performer, "movies", .scene, .anyChange⟩,
    ⟨.performer, "movie_count", .scene, .anyChange⟩,
    ⟨.performer, "performer_count", .scene, .anyChange⟩,
    ⟨.studio, "scene_count", .scene, .anyChange⟩,
    ⟨.studio, "performer_count", .scene, .anyChange⟩,
    ⟨.tag, "scene_count", .scene, .anyChange⟩,
    ⟨.gallery, "images", .image, .anyChange⟩,
    ⟨.gallery, "image_count", .image, .anyChange⟩,
    ⟨.performer, "image_count", .image, .anyChange⟩,
    ⟨.performer, "performer_count", .image, .anyChange⟩,
    ⟨.studio, "image_count", .image, .anyChange⟩,
    ⟨.studio, "performer_count", .image, .anyChange⟩,
    ⟨.tag, "image_count", .image, .anyChange⟩,
    ⟨.studio, "movie_count", .movie, .anyChange⟩,
    ⟨.scene, "movies", .movie, .destroy⟩,
    ⟨.performer, "movie_count", .movie, .destroy⟩,
    ⟨.tag, "scene_marker_count", .sceneMarker, .anyChange⟩,
    ⟨.scene, "galleries", .gallery, .anyChange⟩,
    ⟨.performer, "gallery_count", .gallery, .anyChange⟩,
    ⟨.performer, "performer_count", .gallery, .anyChange⟩,
    ⟨.studio, "gallery_count", .gallery, .anyChange⟩,
    ⟨.studio, "performer_count", .gallery, .anyChange⟩,
    ⟨.tag, "gallery_count", .gallery, .anyChange⟩,
    ⟨.gallery, "chapters", .galleryChapter, .anyChange⟩,
    ⟨.tag, "performer_count", .performer, .anyChange⟩,
    ⟨.performer, "performer_count", .performer, .destroy⟩,
    ⟨.studio, "performer_count", .performer, .destroy⟩,
    ⟨.studio, "child_studios", .studio, .anyChange⟩,
    ⟨.tag, "parents", .tag, .anyChange⟩,
    ⟨.tag, "children", .tag, .anyChange⟩]

def fedBy (source : Family) : List DerivedField := registry.filter (·.source == source)

end DerivedField

end MediaCache
