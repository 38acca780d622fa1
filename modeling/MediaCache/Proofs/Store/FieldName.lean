import MediaCache.Proofs.Json.Canonical
import MediaCache.Store.FieldName

/-!
# Root entries by name

The name of a root entry gives back its field, whatever the arguments are. Two queries share an entry only
if they ask for one field with the same arguments, as long as all numbers among these are integers of at
most 2^53.
-/

namespace MediaCache

def IsFieldName (s : String) : Prop :=
  s.toList.head?.any isNameStart = true ∧ ∀ c ∈ s.toList, isNameChar c = true

instance (s : String) : Decidable (IsFieldName s) :=
  decidable_of_iff (s.toList.head?.any isNameStart && s.toList.all isNameChar) (by simp [IsFieldName])

/-- The arguments that a query is asked with: `null` and an empty object are none. -/
def givenArgs : Option Json → Option Json
  | none | some .null | some (.object []) => none
  | some args => some args

def argumentText : Option Json → List Char
  | none => []
  | some args => '(' :: args.canonical ++ [')']

theorem toList_storeFieldName (field : String) (args : Option Json) :
    (storeFieldName field args).toList = field.toList ++ argumentText (givenArgs args) := by
  unfold storeFieldName givenArgs
  split <;> simp [argumentText]

theorem argumentText_inj {a b : Option Json} (ha : ∀ v ∈ a, v.Sorted ∧ v.Exact)
    (hb : ∀ v ∈ b, v.Sorted ∧ v.Exact) (h : argumentText a = argumentText b) : a = b := by
  cases a with
  | none =>
    cases b with
    | none => rfl
    | some w => cases h
  | some v =>
    cases b with
    | none => cases h
    | some w =>
      obtain ⟨hsorted, hexact⟩ := ha v rfl
      obtain ⟨hsorted', hexact'⟩ := hb w rfl
      have htext := List.append_cancel_right (List.cons.inj h).2
      rw [(Json.canonical_inj hsorted hsorted' hexact hexact').1 htext]

theorem mem_of_mem_givenArgs {args : Option Json} {v : Json} (h : v ∈ givenArgs args) : v ∈ args := by
  unfold givenArgs at h
  split at h
  · cases h
  · cases h
  · cases h
  · exact h

/-! ## The field of an entry -/

@[simp]
theorem takeWhile_argumentText (args : Option Json) : (argumentText args).takeWhile isNameChar = [] := by
  cases args <;> rfl

@[simp]
theorem isArguments_argumentText (args : Option Json) : isArguments (argumentText args) = true := by
  cases args with
  | none => rfl
  | some v =>
    have hline := Json.newline_not_mem_canonical v
    simp [argumentText, isArguments, hline]

theorem takeWhile_storeFieldName {field : String} (h : IsFieldName field) (args : Option Json) :
    (storeFieldName field args).toList.takeWhile isNameChar = field.toList := by
  rw [toList_storeFieldName, List.takeWhile_append_of_pos h.2, takeWhile_argumentText, List.append_nil]

theorem dropWhile_storeFieldName {field : String} (h : IsFieldName field) (args : Option Json) :
    (storeFieldName field args).toList.dropWhile isNameChar = argumentText (givenArgs args) := by
  rw [toList_storeFieldName, List.dropWhile_append_of_pos h.2]
  cases givenArgs args <;> rfl

/-- An entry is found by its field, with any arguments. -/
theorem baseFieldName_storeFieldName {field : String} (h : IsFieldName field) (args : Option Json) :
    baseFieldName (storeFieldName field args) = field := by
  unfold baseFieldName
  simp only [takeWhile_storeFieldName h, dropWhile_storeFieldName h, h.1, isArguments_argumentText,
    Bool.and_self, if_true, String.ofList_toList]

/-! ## Entries of different queries -/

/-- A name gives back its field, and it stands for one field and one value of arguments. The objects in
these have their keys in order, as everywhere. -/
theorem storeFieldName_eq_iff {f g : String} (hf : IsFieldName f) (hg : IsFieldName g)
    {a b : Option Json} (ha : ∀ v ∈ a, v.Sorted ∧ v.Exact) (hb : ∀ v ∈ b, v.Sorted ∧ v.Exact) :
    baseFieldName (storeFieldName f a) = f ∧
      (storeFieldName f a = storeFieldName g b ↔ f = g ∧ givenArgs a = givenArgs b) := by
  refine ⟨baseFieldName_storeFieldName hf a, fun h => ?_, fun h => ?_⟩
  · have hfield : f = g := by
      rw [← baseFieldName_storeFieldName hf a, h, baseFieldName_storeFieldName hg b]
    have htext : argumentText (givenArgs a) = argumentText (givenArgs b) := by
      rw [← dropWhile_storeFieldName hf a, h, dropWhile_storeFieldName hg b]
    exact ⟨hfield, argumentText_inj (fun v hv => ha v (mem_of_mem_givenArgs hv))
      (fun v hv => hb v (mem_of_mem_givenArgs hv)) htext⟩
  · apply String.toList_inj.1
    rw [toList_storeFieldName, toList_storeFieldName, h.1, h.2]

/-- A page of a search for a text that looks like the end of an entry's name. -/
def searchArgs (page : Int) : Json :=
  .object [("filter", .object [("page", .int page), ("q", .string "\")\n(\\é")]), ("tags", .array [])]

theorem exact_searchArgs {page : Int} (h : page.natAbs ≤ 2 ^ 53) : (searchArgs page).Exact := by
  intro n hn
  refine ⟨page, ?_, h⟩
  simpa [searchArgs, Json.int, Json.parts, Json.partsOfFields, Json.partsOfItems] using hn

theorem searchPages_apart :
    baseFieldName (storeFieldName "findScenes" (some (searchArgs 1))) = "findScenes" ∧
      storeFieldName "findScenes" (some (searchArgs 1)) ≠
        storeFieldName "findScenes" (some (searchArgs (-9007199254740992))) := by
  have hfirst : ∀ v ∈ some (searchArgs 1), v.Sorted ∧ v.Exact := by
    rintro v ⟨⟩
    exact ⟨by decide, exact_searchArgs (by decide)⟩
  have hlast : ∀ v ∈ some (searchArgs (-9007199254740992)), v.Sorted ∧ v.Exact := by
    rintro v ⟨⟩
    exact ⟨by decide, exact_searchArgs (by decide)⟩
  obtain ⟨hbase, hname⟩ := storeFieldName_eq_iff (f := "findScenes") (g := "findScenes")
    (by decide) (by decide) hfirst hlast
  exact ⟨hbase, fun heq => absurd (hname.1 heq).2 (by decide)⟩

end MediaCache
