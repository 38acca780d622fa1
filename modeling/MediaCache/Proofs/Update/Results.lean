import MediaCache.Proofs.Json.Sorted
import MediaCache.Proofs.Store.Index
import MediaCache.Update.Plan

/-!
# What a result stores

The objects that a mutation returned are written one after another, each with the objects inside it.
Nothing else comes into the store with them.
-/

namespace MediaCache

def returnedValues (result : Json) : List Json :=
  match result with
  | .array items => items
  | v => [v]

/-- The objects in a returned value, inner ones included, under the types they are stored with. -/
def returnedEntities (subject : Subject) (v : Json) : List (ObjectRef × Json.Fields) :=
  match v with
  | .object fields => (typedResult subject fields).entities
  | _ => []

def resultEntities (subject : Subject) (result : Json) : List (ObjectRef × Json.Fields) :=
  (returnedValues result).flatMap (returnedEntities subject)

theorem sorted_of_mem_returnedValues {result v : Json} (h : result.Sorted)
    (hv : v ∈ returnedValues result) : v.Sorted := by
  cases result with
  | array items => exact Json.sortedItems_iff.1 h v hv
  | _ =>
    obtain rfl := List.mem_singleton.1 hv
    exact h

theorem sorted_typedResult (subject : Subject) {fields : Json.Fields}
    (h : (Json.object fields).Sorted) : (typedResult subject fields).Sorted := by
  unfold typedResult
  split
  · split
    · exact h.insert _ trivial
    · exact h
  · exact h

namespace Cache

def writeReturned (subject : Subject) (c : Cache) (v : Json) : Cache :=
  match v with
  | .object fields => (c.writeObject (typedResult subject fields)).2
  | _ => c

theorem writeResult_eq (c : Cache) (subject : Subject) (result : Json) :
    c.writeResult subject result = (returnedValues result).foldl (writeReturned subject) c := by
  cases result <;> rfl

theorem writeResult_keeps {P : Cache → Prop} {subject : Subject} {result : Json}
    (hwrite : ∀ c fields, .object fields ∈ returnedValues result → P c →
      P (c.writeObject (typedResult subject fields)).2)
    {c : Cache} (h : P c) : P (c.writeResult subject result) := by
  rw [writeResult_eq]
  generalize returnedValues result = values at hwrite
  induction values generalizing c with
  | nil => exact h
  | cons v rest ih =>
    refine ih ?_ fun c fields hin => hwrite c fields (List.mem_cons_of_mem _ hin)
    cases v with
    | object fields => exact hwrite c fields List.mem_cons_self h
    | _ => exact h

theorem indexed_writeResult {c : Cache} (h : c.Indexed) (subject : Subject) (result : Json) :
    (c.writeResult subject result).Indexed :=
  writeResult_keeps (fun _ _ _ hc => hc.writeObject _) h

theorem contains_of_contains_writeReturned {c : Cache} {subject : Subject} {v : Json} {id : String}
    (h : (writeReturned subject c v).objects.contains id = true) :
    (∃ e ∈ returnedEntities subject v, id = e.1.cacheId) ∨ c.objects.contains id = true := by
  cases v with
  | object fields => exact contains_of_contains_writeObject h
  | _ => exact .inr h

theorem contains_of_contains_writeResult {c : Cache} {subject : Subject} {result : Json} {id : String}
    (h : (c.writeResult subject result).objects.contains id = true) :
    (∃ e ∈ resultEntities subject result, id = e.1.cacheId) ∨ c.objects.contains id = true := by
  rw [writeResult_eq] at h
  rw [resultEntities]
  generalize returnedValues result = values at h ⊢
  induction values generalizing c with
  | nil => exact .inr h
  | cons v rest ih =>
    rw [List.foldl_cons] at h
    rw [List.flatMap_cons]
    rcases ih h with ⟨e, he, hid⟩ | hone
    · exact .inl ⟨e, List.mem_append_right _ he, hid⟩
    · rcases contains_of_contains_writeReturned hone with ⟨e, he, hid⟩ | hold
      · exact .inl ⟨e, List.mem_append_left _ he, hid⟩
      · exact .inr hold

end Cache

end MediaCache
