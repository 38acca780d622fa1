import MediaCache.Config.Merge
import MediaCache.Proofs.Data.Merged
import MediaCache.Proofs.Json.Sorted

/-!
# Members of merged objects

A member that both layers have is merged, any other member is taken over. So an object that is merged
with the same overlay again stays as it is.
-/

namespace MediaCache.Config

variable {v base : Json}

theorem merge_of_not_isObject (base : Json) (h : v.isObject = false) : merge base v = v := by
  cases v with
  | object fields => cases h
  | _ => rfl

theorem merge_onto_not_isObject (h : base.isObject = false) (v : Json) : merge base v = v := by
  cases v with
  | object fields =>
    cases base with
    | object _ => cases h
    | _ => rfl
  | _ => rfl

@[simp]
theorem merge_null_left (v : Json) : merge .null v = v := merge_onto_not_isObject rfl v

theorem mergeFields_eq (base overlay : Json.Fields) :
    mergeFields base overlay = Assoc.mergeWith merge base overlay := by
  induction overlay generalizing base with
  | nil => rw [mergeFields, Assoc.mergeWith]
  | cons e rest ih =>
    obtain ⟨key, v⟩ := e
    rw [mergeFields, ih, Assoc.mergeWith]
    cases Assoc.get? key base with
    | none => rfl
    | some w => rfl

@[simp]
theorem merge_objects (fields overlay : Json.Fields) :
    merge (.object fields) (.object overlay) = .object (Assoc.mergeWith merge fields overlay) := by
  rw [merge, mergeFields_eq]

/-! ## Merging again -/

theorem mergeWith_again {fields overlay : Json.Fields} (hfields : (Json.object fields).Sorted)
    (hoverlay : Assoc.Ordered overlay)
    (hmembers : ∀ e ∈ overlay, ∀ u : Json, u.Sorted → merge (merge u e.2) e.2 = merge u e.2) :
    Assoc.mergeWith merge (Assoc.mergeWith merge fields overlay) overlay =
      Assoc.mergeWith merge fields overlay := by
  have hmerged := hfields.1.mergeWith merge overlay
  apply (hmerged.mergeWith merge overlay).ext hmerged
  intro key
  rw [Assoc.get?_mergeWith _ hoverlay.nodup_keys, Assoc.get?_mergeWith _ hoverlay.nodup_keys]
  cases hover : Assoc.get? key overlay with
  | none => rw [Option.merge_none_right]
  | some v =>
    have hv := hmembers _ (Assoc.mem_of_get? hover)
    cases hbelow : Assoc.get? key fields with
    | none =>
      have hself := hv .null trivial
      rw [merge_null_left] at hself
      rw [Option.merge_none_left, Option.merge_some_some, hself]
    | some u =>
      have hu := Json.sortedFields_iff.1 hfields.2 _ (Assoc.mem_of_get? hbelow)
      rw [Option.merge_some_some, Option.merge_some_some, hv u hu]

mutual

theorem merge_again : ∀ overlay base : Json, base.Sorted → overlay.Sorted →
    merge (merge base overlay) overlay = merge base overlay
  | .object overlay, base, hbase, hoverlay => by
    have hmembers := merge_again_of_mem overlay hoverlay.2
    cases hobject : base.isObject with
    | false =>
      have hempty : (Json.object []).Sorted := ⟨Assoc.ordered_nil, trivial⟩
      have hself := mergeWith_again hempty hoverlay.1 hmembers
      rw [Assoc.mergeWith_nil_left hoverlay.1] at hself
      rw [merge_onto_not_isObject hobject, merge_objects, hself]
    | true =>
      cases base with
      | object fields => rw [merge_objects, merge_objects, mergeWith_again hbase hoverlay.1 hmembers]
      | _ => cases hobject
  | .null, _, _, _ | .bool _, _, _, _ | .number _, _, _, _ | .string _, _, _, _
  | .array _, _, _, _ => rfl

theorem merge_again_of_mem : ∀ overlay : List (String × Json), Json.SortedFields overlay →
    ∀ e ∈ overlay, ∀ base : Json, base.Sorted → merge (merge base e.2) e.2 = merge base e.2
  | [], _, _, he => nomatch he
  | (_, v) :: rest, h, e, he => by
    intro base hbase
    rcases List.mem_cons.1 he with rfl | hrest
    · exact merge_again v base hbase h.1
    · exact merge_again_of_mem rest h.2 e hrest base hbase

end

theorem merge_self (h : v.Sorted) : merge v v = v := by
  have hself := merge_again v .null trivial h
  rw [merge_null_left] at hself
  exact hself

/-! ## Layers -/

theorem mergeLayers_append (layers : List Json) (v : Json) :
    mergeLayers (layers ++ [v]) = merge (mergeLayers layers) v := by
  rw [mergeLayers, List.foldl_append]
  rfl

end MediaCache.Config
