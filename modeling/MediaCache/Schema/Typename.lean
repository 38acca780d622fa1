/-!
# The object types of the server

Objects of these types carry an `id` and are stored once each. Their order is the order of this list.
-/

namespace MediaCache

inductive SchemaError where
  | unknownTypename (name : String)
  | malformedCacheId (text : String)
  | unknownDocument (name : String)
  | unknownFamily (name : String)
deriving DecidableEq, Repr

def SchemaError.message : SchemaError → String
  | .unknownTypename name => "unknown typename: " ++ name
  | .malformedCacheId text => "malformed cache id: " ++ text
  | .unknownDocument name => "unknown query document: " ++ name
  | .unknownFamily name => "unknown entity family: " ++ name

inductive Typename where
  | scene
  | image
  | gallery
  | galleryChapter
  | performer
  | studio
  | tag
  | movie
  | sceneMarker
  | savedFilter
  | videoFile
  | imageFile
  | galleryFile
deriving DecidableEq, Repr

namespace Typename

def all : List Typename :=
  [scene, image, gallery, galleryChapter, performer, studio, tag, movie, sceneMarker, savedFilter,
    videoFile, imageFile, galleryFile]

def name : Typename → String
  | scene => "Scene"
  | image => "Image"
  | gallery => "Gallery"
  | galleryChapter => "GalleryChapter"
  | performer => "Performer"
  | studio => "Studio"
  | tag => "Tag"
  | movie => "Movie"
  | sceneMarker => "SceneMarker"
  | savedFilter => "SavedFilter"
  | videoFile => "VideoFile"
  | imageFile => "ImageFile"
  | galleryFile => "GalleryFile"

def ofName? (name : String) : Option Typename := all.find? (·.name == name)

def parse (name : String) : Except SchemaError Typename :=
  match ofName? name with
  | some t => .ok t
  | none => .error (.unknownTypename name)

theorem mem_all (t : Typename) : t ∈ all := by cases t <;> decide

@[simp]
theorem ofName?_name (t : Typename) : ofName? t.name = some t := by cases t <;> decide

theorem name_of_ofName? {s : String} {t : Typename} (h : ofName? s = some t) : t.name = s := by
  simpa using List.find?_some h

/-! ## Order -/

def position : Typename → Nat
  | scene => 0
  | image => 1
  | gallery => 2
  | galleryChapter => 3
  | performer => 4
  | studio => 5
  | tag => 6
  | movie => 7
  | sceneMarker => 8
  | savedFilter => 9
  | videoFile => 10
  | imageFile => 11
  | galleryFile => 12

theorem position_inj {s t : Typename} (h : s.position = t.position) : s = t := by
  cases s <;> cases t <;> first | rfl | contradiction

instance : Ord Typename := ⟨fun s t => compare s.position t.position⟩

instance : Std.TransOrd Typename where
  eq_swap := (inferInstance : Std.TransOrd Nat).eq_swap
  isLE_trans := (inferInstance : Std.TransOrd Nat).isLE_trans

instance : Std.LawfulEqOrd Typename where
  compare_self := (inferInstance : Std.LawfulEqOrd Nat).compare_self
  eq_of_compare h := position_inj ((inferInstance : Std.LawfulEqOrd Nat).eq_of_compare h)

end Typename

/-- Abstract file types. A file of either is one of its possible types. -/
inductive Interface where
  | baseFile
  | visualFile
deriving DecidableEq, Repr

namespace Interface

def all : List Interface := [baseFile, visualFile]

def name : Interface → String
  | baseFile => "BaseFile"
  | visualFile => "VisualFile"

def ofName? (name : String) : Option Interface := all.find? (·.name == name)

def possibleTypes : Interface → List Typename
  | baseFile => [.videoFile, .imageFile, .galleryFile]
  | visualFile => [.videoFile, .imageFile]

end Interface

def Typename.implements (t : Typename) (i : Interface) : Bool := i.possibleTypes.contains t

end MediaCache
