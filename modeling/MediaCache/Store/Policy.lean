import MediaCache.Schema.Typename

/-!
# Read policies

A policy says how a field is read when its entry is absent or names an object that is gone.
-/

namespace MediaCache

inductive FieldPolicy where
  /-- A look-up by id falls back to the object of this type with the requested id. A detail page
  opened from a list then needs no request. -/
  | readReference (typename : Typename)
  /-- A reference to an object that is gone reads as `null`: the object was deleted. -/
  | danglingNull
deriving DecidableEq, Repr

structure Policies where
  root : String → Option FieldPolicy
  field : Typename → String → Option FieldPolicy

namespace Policies

def empty : Policies := ⟨fun _ => none, fun _ _ => none⟩

def withRoot (p : Policies) (field : String) (policy : FieldPolicy) : Policies :=
  { p with root := fun f => if f = field then some policy else p.root f }

def withField (p : Policies) (typename : Typename) (field : String) (policy : FieldPolicy) :
    Policies :=
  { p with field := fun t f => if t = typename ∧ f = field then some policy else p.field t f }

/-- Look-ups by id fall back to the stored object, and the studio of an object or the parent of a
studio may have been deleted. -/
def standard : Policies where
  root
    | "findImage" => some (.readReference .image)
    | "findPerformer" => some (.readReference .performer)
    | "findStudio" => some (.readReference .studio)
    | "findMovie" => some (.readReference .movie)
    | "findGallery" => some (.readReference .gallery)
    | "findScene" => some (.readReference .scene)
    | "findTag" => some (.readReference .tag)
    | "findSavedFilter" => some (.readReference .savedFilter)
    | "findDefaultFilter" => some .danglingNull
    | _ => none
  field
    | .scene, "studio" => some .danglingNull
    | .image, "studio" => some .danglingNull
    | .movie, "studio" => some .danglingNull
    | .gallery, "studio" => some .danglingNull
    | .studio, "parent_studio" => some .danglingNull
    | _, _ => none

end Policies

end MediaCache
