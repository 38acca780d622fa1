import MediaCache.Json.Decode
import MediaCache.Schema.Family

/-!
# Names as JSON

Types, interfaces and families are written as their names.
-/

namespace MediaCache

def Typename.ofJson? (v : Json) : Option Typename := v.unitName?.bind Typename.ofName?

def Interface.ofJson? (v : Json) : Option Interface := v.unitName?.bind Interface.ofName?

def Family.ofJson? (v : Json) : Option Family := v.unitName?.bind Family.ofName?

def DerivedField.toJson (d : DerivedField) : Json :=
  .object [("field", .string d.field), ("owner", .string d.owner.name), ("path", .string d.path.name),
    ("source", .string d.source.name)]

end MediaCache
