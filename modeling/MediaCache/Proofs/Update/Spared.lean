import MediaCache.Proofs.Update.Destroyed
import MediaCache.Proofs.Update.Freshness
import MediaCache.Proofs.Update.Returned

/-!
# The spared object keeps what the result wrote

A mutation may exclude one object from the eviction of derived fields, because its result has just
written them. Nothing else in its plan is about that object, so the object is stored afterwards as the
result left it, or not at all.
-/

namespace MediaCache

namespace Cache

variable {c d e : Cache} {obj : ObjectRef}

/-! ## Leaving it alone -/

/-- The object is stored as it was, if it still is. -/
def Leaves (obj : ObjectRef) (c d : Cache) : Prop := d.contains obj = true → d.get? obj = c.get? obj

namespace Leaves

theorem refl (obj : ObjectRef) (c : Cache) : Leaves obj c c := fun _ => rfl

theorem trans (h : Leaves obj c d) (h' : Leaves obj d e) : Leaves obj c e := by
  intro hin
  have hsame := h' hin
  have hin' : d.contains obj = true := by
    rw [contains_eq, SortedMap.contains, ← get?_eq, ← hsame]
    exact hin
  rw [hsame, h hin']

theorem foldl {α : Type} {f : Cache → α → Cache} {l : List α}
    (hf : ∀ a ∈ l, ∀ c, Leaves obj c (f c a)) (c : Cache) : Leaves obj c (l.foldl f c) := by
  induction l generalizing c with
  | nil => exact refl obj c
  | cons a rest ih =>
    obtain ⟨hfirst, hrest⟩ := List.forall_mem_cons.1 hf
    exact (hfirst c).trans (ih hrest _)

theorem of_sameStore (h : SameStore c d) : Leaves obj c d := by
  intro _
  rw [get?_eq, h.objects, get?_eq]

theorem of_takes {loss : Loss} (h : loss.Takes c d) (hobj : ∀ r, loss.left obj.cacheId r = r) :
    Leaves obj c d := by
  intro _
  rw [get?_eq, h, hobj, get?_eq]

end Leaves

variable (c)

theorem leaves_evictObject {o : ObjectRef} (h : o ≠ obj) : Leaves obj c (c.evictObject o).2 := by
  refine .of_takes (takes_evictObject c o) fun r => ?_
  cases r <;> simp [Loss.left, Loss.ofObject, h.symm]

theorem leaves_deleteObject {o : ObjectRef} (h : o ≠ obj) (lookup : Document) :
    Leaves obj c (c.deleteObject o lookup) := by
  refine .of_takes (takes_deleteObject c o lookup) fun r => ?_
  cases r <;> simp [Loss.left, Loss.ofObject, h.symm]

theorem leaves_evictField {o : ObjectRef} (h : o ≠ obj) (field : String) :
    Leaves obj c (c.evictField o field).2 := by
  have hid : (obj.cacheId == o.cacheId) = false :=
    beq_eq_false_iff_ne.2 fun hid => h (ObjectRef.cacheId_inj hid).symm
  refine .of_takes (takes_evictField c o field) fun r => ?_
  cases r <;> simp [Loss.left, Loss.ofField, hid]

theorem leaves_evictTypeFields (fields : TypeFields) :
    Leaves obj c (c.evictTypeFields fields (some obj)).2 := by
  rw [evictTypeFields_eq]
  refine .foldl (fun row _ c => .foldl (fun o _ c => ?_) c) c
  split
  · exact .refl obj c
  · rename_i hignored
    rw [evictFields_eq]
    have hne : o ≠ obj := fun h => hignored (congrArg some h.symm)
    exact .foldl (fun name _ c => leaves_evictField c hne name) c

theorem leaves_evictQueries (docs : List Document) (options : Options) :
    Leaves obj c (c.evictQueries docs options).2 :=
  fun hin => get?_evictQueries_of_contains hin

end Cache

/-! ## Plans that spare an object -/

/-- The step is about other objects. A step that stores a field belongs to no plan that spares one. -/
def Step.Spares (obj : ObjectRef) : Step → Prop
  | appendReference .. | addToStat .. | evictQueries _ => True
  | deleteObject o _ | evictObject o | evictField o _ => o ≠ obj
  | evictTypeFields _ ignore => ignore = some obj
  | replaceField .. | addToField .. | countPlay _ | patchCounter .. => False

namespace Plan

def Spares (obj : ObjectRef) (plan : Plan) : Prop := ∀ step ∈ plan, step.Spares obj

variable {obj : ObjectRef} {plan more : Plan}

theorem Spares.append (h : plan.Spares obj) (h' : more.Spares obj) : Spares obj (plan ++ more) :=
  List.forall_mem_append.2 ⟨h, h'⟩

theorem spares_evictions (fields : TypeFields) (docs : List Document) :
    Spares obj [.evictTypeFields fields (some obj), .evictQueries docs] := by
  simp [Spares, Step.Spares]

theorem spares_appendIf (list : Option Document) (o : Option ObjectRef) :
    (appendIf list o).Spares obj := by
  cases list <;> cases o <;> simp [appendIf, Spares, Step.Spares]

theorem spares_addToStatIf (stat : Option String) (delta : Double) :
    (addToStatIf stat delta).Spares obj := by
  cases stat <;> simp [addToStatIf, Spares, Step.Spares]

theorem spares_deleteObjects {t : Typename} {ids : List String}
    (h : obj ∉ ids.map (⟨t, ·⟩ : String → ObjectRef)) (lookup : Option Document) :
    (deleteObjects t ids lookup).Spares obj := by
  intro step hstep
  obtain ⟨id, hid, rfl⟩ := List.mem_map.1 hstep
  have hne : (⟨t, id⟩ : ObjectRef) ≠ obj := fun heq => h (List.mem_map.2 ⟨id, hid, heq⟩)
  cases lookup <;> exact hne

end Plan

namespace Mutation

theorem typename?_of_spared? {m : Mutation} {result : Json} {obj : ObjectRef}
    (h : m.spared? result = some obj) : m.kind.subject.typename? = some obj.typename := by
  have hcreated {t : Typename} (h : resultObject? t result = some obj) : some t = some obj.typename := by
    obtain ⟨id, -, rfl⟩ := Option.map_eq_some_iff.1 h
    rfl
  cases m
  case tagCreate => exact hcreated h
  case sceneCreate fileIds => exact hcreated (Option.ite_none_left_eq_some.1 h).2
  case tagUpdate | tagsMerge | studioUpdate =>
    cases h
    rfl
  all_goals cases h

theorem plan_spares {m : Mutation} {result : Json} {obj : ObjectRef}
    (hspared : m.spared? result = some obj) (hdestroyed : obj ∉ m.destroyed) :
    (m.plan result).Spares obj := by
  cases m
  case tagCreate =>
    have hcreated : resultObject? .tag result = some obj := hspared
    unfold plan Plan.create
    simp only [if_true, Family.typename, hcreated]
    exact ((Plan.spares_appendIf _ _).append (Plan.spares_addToStatIf _ _)).append
      (Plan.spares_evictions _ _)
  case sceneCreate fileIds =>
    obtain ⟨hfiles, hcreated⟩ := Option.ite_none_left_eq_some.1 hspared
    unfold plan Plan.createScene
    simp only [if_neg hfiles, hcreated]
    exact (Plan.spares_addToStatIf _ _).append (Plan.spares_evictions _ _)
  case studioUpdate | tagUpdate =>
    cases hspared
    exact Plan.spares_evictions _ _
  case tagsMerge source destination =>
    cases hspared
    exact ((Plan.spares_deleteObjects hdestroyed _).append (Plan.spares_addToStatIf _ _)).append
      (Plan.spares_evictions _ _)
  all_goals cases hspared

end Mutation

namespace Cache

variable {obj : ObjectRef}

theorem leaves_step {step : Step} (h : step.Spares obj) (options : Options) (now : String) (c : Cache) :
    Leaves obj c (step.run options now c) := by
  cases step with
  | appendReference o list => exact .of_sameStore (sameStore_appendReference c o list)
  | addToStat stat delta => exact .of_sameStore (sameStore_addToStat c stat delta)
  | deleteObject o lookup => exact leaves_deleteObject c h lookup
  | evictObject o => exact leaves_evictObject c h
  | evictField o field => exact leaves_evictField c h field
  | evictTypeFields fields ignore =>
    have hignored : ignore = some obj := h
    rw [hignored]
    exact leaves_evictTypeFields c fields
  | evictQueries docs => exact leaves_evictQueries c docs options
  | replaceField | addToField | countPlay | patchCounter => exact h.elim

theorem leaves_plan {plan : Plan} (h : plan.Spares obj) (options : Options) (now : String) (c : Cache) :
    Leaves obj c (plan.run options now c) :=
  .foldl (fun step hstep c => leaves_step (h step hstep) options now c) c

/-- An object that the mutation spares and the result returns has, as long as it is stored, its fields
from before, overwritten by what was returned. -/
theorem spared_object_keeps_returned (c : Cache) (options : Options) (now : String) {m : Mutation}
    {fields : Json.Fields} {obj : ObjectRef} (hspared : m.spared? (.object fields) = some obj)
    (hdestroyed : obj ∉ m.destroyed) (hfields : Assoc.Ordered fields) (hreturns : Returns fields obj)
    (hinner : ∀ e ∈ Json.entitiesOfFields fields, e.1 ≠ obj)
    (hstored : (c.applyMutation options now m (some (.object fields))).2.contains obj = true) :
    (c.applyMutation options now m (some (.object fields))).2.get? obj =
      some ((((c.get? obj).getD ∅).insertAll (Json.normalizedFields fields)).insert "__typename"
        (.string obj.typename.name)) := by
  have haccepts : m.kind.accepts (.object fields) = true := by
    cases m <;> first | rfl | cases hspared
  rw [applyMutation, Option.filter_some, if_pos haccepts] at hstored ⊢
  have hleaves := leaves_plan (Mutation.plan_spares hspared hdestroyed) options now
    (c.writeResult m.kind.subject (.object fields))
  rw [hleaves hstored, hreturns.get?_writeResult hfields hinner (Mutation.typename?_of_spared? hspared)]

def namedTag : Cache :=
  (new .standard).run [
    .writeRoot "findTag" (some (.object [("id", .string "1")])) (.object [
      ("__typename", .string "Tag"), ("children", .array []), ("id", .string "1"), ("name", .string "a")])]

def tagWithChild : Json.Fields :=
  [("children", .array [.object [("__typename", .string "Tag"), ("id", .string "3")]]),
    ("id", .string "1")]

/-- Tag 2 is merged into tag 1. The name of tag 1 is the old one and its children are those returned. -/
theorem merged_tag_keeps_returned :
    (Mutation.tagsMerge ["2"] "1").spared? (.object tagWithChild) = some ⟨.tag, "1"⟩ ∧
      (⟨.tag, "1"⟩ : ObjectRef) ∉ (Mutation.tagsMerge ["2"] "1").destroyed ∧
      Assoc.Ordered tagWithChild ∧ Returns tagWithChild ⟨.tag, "1"⟩ ∧
      (∀ e ∈ Json.entitiesOfFields tagWithChild, e.1 ≠ ⟨.tag, "1"⟩) ∧
      (namedTag.applyMutation {} "" (.tagsMerge ["2"] "1") (some (.object tagWithChild))).2.contains
        ⟨.tag, "1"⟩ = true ∧
      (namedTag.applyMutation {} "" (.tagsMerge ["2"] "1") (some (.object tagWithChild))).2.get?
        ⟨.tag, "1"⟩ = some (SortedMap.ofList [("__typename", .string "Tag"),
          ("children", .array [reference "Tag:3"]), ("id", .string "1"), ("name", .string "a")]) := by
  have hdestroyed : (⟨.tag, "1"⟩ : ObjectRef) ∉ (Mutation.tagsMerge ["2"] "1").destroyed := by decide
  have hfields : Assoc.Ordered tagWithChild := List.pairwise_pair.2 (by decide)
  have hreturns : Returns tagWithChild ⟨.tag, "1"⟩ := ⟨rfl, fun t ht => by cases ht⟩
  have hinner : ∀ e ∈ Json.entitiesOfFields tagWithChild, e.1 ≠ ⟨.tag, "1"⟩ := by decide +kernel
  have hstored : (namedTag.applyMutation {} "" (.tagsMerge ["2"] "1")
      (some (.object tagWithChild))).2.contains ⟨.tag, "1"⟩ = true := by decide +kernel
  have hrecord := spared_object_keeps_returned namedTag {} "" (m := .tagsMerge ["2"] "1") rfl hdestroyed
    hfields hreturns hinner hstored
  have hfield : (((namedTag.get? ⟨.tag, "1"⟩).getD ∅).insertAll
      (Json.normalizedFields tagWithChild)).insert "__typename" (.string "Tag") =
      SortedMap.ofList [("__typename", .string "Tag"), ("children", .array [reference "Tag:3"]),
        ("id", .string "1"), ("name", .string "a")] := by decide +kernel
  exact ⟨rfl, hdestroyed, hfields, hreturns, hinner, hstored, hrecord.trans (congrArg some hfield)⟩

end Cache

end MediaCache
