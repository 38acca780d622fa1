import Mathlib.Data.List.Permutation
import MediaCache.Proofs.Store.Copied
import MediaCache.Proofs.Update.OneCopy
import MediaCache.Proofs.Update.Stored

/-!
# Which references a read resolves

The selection of a root entry is the shape of the data that was written, and no operation and no mutation
changes it later. A read resolves what the selection follows. A look-up that falls back to a stored object
has none, and a place that held nothing when it was written has a shape that ends there: what stands there
by now is copied with its references.
-/

namespace MediaCache

namespace Cache

/-- No selection has a field that is named like a reference. -/
def PlainSelections (c : Cache) : Prop :=
  ∀ name shape, c.selections.get? name = some shape → shape.avoids "__ref" = true

/-- No data for a root entry has a member that is named like a reference. -/
def Op.Plain : Op → Prop
  | writeRoot _ _ data => data.avoids "__ref" = true
  | restore _ => False
  | _ => True

def Action.Plain : Action → Prop
  | op o => o.Plain
  | mutation _ _ _ _ => True

theorem Op.Plain.recordsOnly {op : Op} (h : op.Plain) :
    op.RecordsOnly fun shape => shape.avoids "__ref" = true := by
  cases op with
  | writeRoot field args data => exact Shape.avoids_ofData data h
  | restore s => exact h.elim
  | _ => trivial

theorem PlainSelections.action {c : Cache} (h : c.PlainSelections) {a : Action} (ha : a.Plain) :
    (a.run c).PlainSelections := by
  cases a with
  | op o => exact Records.op h (Op.Plain.recordsOnly ha)
  | mutation options now m result =>
    have hshapes : c.Records fun shape => shape.avoids "__ref" = true := h
    exact hshapes.applyMutation rfl options now m result

theorem PlainSelections.after {c : Cache} (h : c.PlainSelections) {actions : List Action}
    (hactions : ∀ a ∈ actions, a.Plain) : (c.after actions).PlainSelections := by
  induction actions generalizing c with
  | nil => exact h
  | cons a rest ih =>
    have hfirst := h.action (hactions a List.mem_cons_self)
    exact ih hfirst fun b hb => hactions b (List.mem_cons_of_mem _ hb)

end Cache

namespace Json

@[simp]
theorem parts_reference (id : String) : (reference id).parts = [reference id, .string id] := rfl

mutual

theorem mem_references_of_part {w : Json} {id : String} (hid : referenceId? w = some id) :
    ∀ v : Json, w ∈ v.parts → id ∈ v.references
  | object fields, hw => by
    cases hself : referenceId? (object fields) with
    | some known =>
      -- A reference has itself and its text as parts.
      rw [eq_reference_of_referenceId? hself, parts_reference] at hw
      rw [references, hself]
      rcases List.mem_cons.1 hw with rfl | hw
      · rw [referenceId?_reference] at hid
        cases hid
        exact List.mem_singleton.2 rfl
      · rw [List.mem_singleton.1 hw] at hid
        cases hid
    | none =>
      rw [references, hself]
      rw [parts] at hw
      rcases List.mem_cons.1 hw with rfl | hw
      · rw [hself] at hid
        cases hid
      · exact mem_referencesOfFields_of_part hid fields hw
  | array items, hw => by
    rw [parts] at hw
    rw [references]
    rcases List.mem_cons.1 hw with rfl | hw
    · cases hid
    · exact mem_referencesOfItems_of_part hid items hw
  | null, hw | bool _, hw | number _, hw | string _, hw => by
    rw [parts_of_isScalar rfl, List.mem_singleton] at hw
    rw [hw] at hid
    cases hid

theorem mem_referencesOfFields_of_part {w : Json} {id : String} (hid : referenceId? w = some id) :
    ∀ fields : List (String × Json), w ∈ partsOfFields fields → id ∈ referencesOfFields fields
  | [], hw => by cases hw
  | (key, v) :: rest, hw => by
    rw [partsOfFields] at hw
    rw [referencesOfFields]
    rcases List.mem_append.1 hw with hw | hw
    · exact List.mem_append_left _ (mem_references_of_part hid v hw)
    · exact List.mem_append_right _ (mem_referencesOfFields_of_part hid rest hw)

theorem mem_referencesOfItems_of_part {w : Json} {id : String} (hid : referenceId? w = some id) :
    ∀ items : List Json, w ∈ partsOfItems items → id ∈ referencesOfItems items
  | [], hw => by cases hw
  | v :: rest, hw => by
    rw [partsOfItems] at hw
    rw [referencesOfItems]
    rcases List.mem_append.1 hw with hw | hw
    · exact List.mem_append_left _ (mem_references_of_part hid v hw)
    · exact List.mem_append_right _ (mem_referencesOfItems_of_part hid rest hw)

end

/-- The value has no part that is a reference. -/
def Resolved (v : Json) : Prop := ∀ w ∈ v.parts, isReference w = false

theorem resolved_of_references {v : Json} (h : v.references = []) : v.Resolved := by
  intro w hw
  cases hid : referenceId? w with
  | none => rw [isReference, hid]; rfl
  | some id =>
    have hmem := mem_references_of_part hid v hw
    rw [h] at hmem
    cases hmem

end Json

namespace Cache

/-- What a query returns holds references only in what it copies as it is stored. Where none of that
holds a reference, all are resolved. -/
theorem hit_resolved (policies : Policies) {actions : List Action} (hactions : ∀ a ∈ actions, a.Plain)
    {c : Cache} (hc : (new policies).after actions = c) {doc : Document} {args : Option Json} {v : Json}
    (hread : c.readQuery doc args = .hit v) :
    (∀ id ∈ v.references, ∃ u ∈ c.copiedBy doc.rootField args, id ∈ u.references) ∧
      ((∀ u ∈ c.copiedBy doc.rootField args, u.references = []) → v.Resolved) := by
  have hempty : (new policies).PlainSelections := by
    intro name shape hshape
    cases hshape
  have hplain : c.PlainSelections := hc ▸ hempty.after hactions
  have hstands := standsIn_readRoot (hplain _) hread
  refine ⟨hstands, fun hcopies => Json.resolved_of_references ?_⟩
  refine List.eq_nil_iff_forall_not_mem.2 fun id hid => ?_
  obtain ⟨u, hu, hin⟩ := hstands id hid
  rw [hcopies u hu] at hin
  cases hin

def studioData : Json :=
  .object [("__typename", .string "Studio"), ("id", .string "9"), ("name", .string "a")]

def sceneWith (studio : Json) : Json :=
  .object [("__typename", .string "Scene"), ("id", .string "1"), ("studio", studio)]

def sceneArgs : Json := .object [("id", .string "1")]

def sceneWritten : List Action :=
  [.op (.writeRoot "findScene" (some sceneArgs) (sceneWith studioData))]

theorem looked_up_scene_resolved :
    (∀ a ∈ sceneWritten, a.Plain) ∧
      ((new .standard).after sceneWritten).root.get? (storeFieldName "findScene" (some sceneArgs)) =
        some (reference "Scene:1") ∧
      ((new .standard).after sceneWritten).readQuery .findScene (some sceneArgs) =
        .hit (sceneWith studioData) ∧
      (sceneWith studioData).Resolved := by
  have hplain : ∀ a ∈ sceneWritten, a.Plain := by
    unfold sceneWritten
    simp only [List.forall_mem_cons, List.not_mem_nil, false_implies, implies_true, and_true,
      Action.Plain, Op.Plain]
    decide +kernel
  have hread : ((new .standard).after sceneWritten).readQuery .findScene (some sceneArgs) =
      .hit (sceneWith studioData) := by cbv
  exact ⟨hplain, by decide +kernel, hread, (hit_resolved .standard hplain rfl hread).2 (by decide +kernel)⟩

def pageData : Json := .object [("count", .int 1), ("scenes", .array [sceneWith studioData])]

def pageWritten : List Action := [.op (.writeRoot "findScenes" none pageData)]

/-- The look-up of a scene that only a page was asked for has no selection, so the record is copied. -/
theorem page_scene_copied :
    pageData.Resolved ∧
      ((new .standard).after pageWritten).readQuery .findScene (some sceneArgs) =
        .hit (sceneWith (reference "Studio:9")) ∧
      ¬(sceneWith (reference "Studio:9")).Resolved := by
  refine ⟨Json.resolved_of_references rfl, by cbv, fun hresolved => ?_⟩
  cases hresolved (reference "Studio:9") (by decide +kernel)

end Cache

end MediaCache
