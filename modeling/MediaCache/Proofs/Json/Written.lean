import MediaCache.Proofs.Json.Sorted
import MediaCache.Store.Shape

/-!
# Values and how they are written

A value whose keys are in order is read back from the way it is written, wherever there is room for its
brackets. So is a shape.
-/

namespace MediaCache

namespace Json

mutual

def depth : Json → Nat
  | object fields => depthOfFields fields + 1
  | array items => depthOfItems items + 1
  | _ => 0

def depthOfFields : List (String × Json) → Nat
  | [] => 0
  | (_, v) :: rest => max (depth v) (depthOfFields rest)

def depthOfItems : List Json → Nat
  | [] => 0
  | v :: rest => max (depth v) (depthOfItems rest)

end

theorem depthOfFields_le_iff {fields : Fields} {n : Nat} :
    depthOfFields fields ≤ n ↔ ∀ e ∈ fields, e.2.depth ≤ n := by
  induction fields with
  | nil => simp [depthOfFields]
  | cons e rest ih =>
    obtain ⟨key, v⟩ := e
    rw [depthOfFields, Nat.max_le, ih, List.forall_mem_cons]

theorem depthOfItems_le_iff {items : List Json} {n : Nat} :
    depthOfItems items ≤ n ↔ ∀ v ∈ items, v.depth ≤ n := by
  induction items with
  | nil => simp [depthOfItems]
  | cons v rest ih => rw [depthOfItems, Nat.max_le, ih, List.forall_mem_cons]

end Json

namespace Written

/-! ## Room for brackets -/

/-- So many brackets may be open at once. -/
def Limit.Covers (limit : Limit) (n : Nat) : Prop := ∀ room ∈ limit, n ≤ room

theorem Limit.covers_none (n : Nat) : Limit.Covers none n := by
  intro room hroom
  cases hroom

theorem Limit.Covers.mono {limit : Limit} {m n : Nat} (h : limit.Covers n) (hle : m ≤ n) :
    limit.Covers m :=
  fun room hroom => Nat.le_trans hle (h room hroom)

theorem Limit.covers_some {room n : Nat} : Limit.Covers (some room) n ↔ n ≤ room := by
  simp [Limit.Covers]

theorem Limit.enter?_of_covers {limit : Limit} {n : Nat} (h : limit.Covers (n + 1)) :
    ∃ inner, Limit.enter? limit = some inner ∧ inner.Covers n := by
  match limit with
  | none => exact ⟨none, rfl, covers_none n⟩
  | some 0 => cases h 0 rfl
  | some (room + 1) => exact ⟨some room, rfl, covers_some.2 (Nat.le_of_succ_le_succ (h _ rfl))⟩

/-! ## Reading a value back -/

mutual

theorem value?_ofJson : ∀ (v : Json) {limit : Limit}, v.Sorted → limit.Covers v.depth →
    value? limit (ofJson v) = some v
  | .null, _, _, _ | .bool _, _, _, _ | .number _, _, _, _ | .string _, _, _, _ => by
    simp only [ofJson, value?, Option.map_some]
  | .array items, limit, h, hroom => by
    rw [Json.depth] at hroom
    obtain ⟨inner, henter, hinner⟩ := Limit.enter?_of_covers hroom
    rw [ofJson, value?, henter, Option.bind_some, values?_ofItems items h hinner, Option.map_some]
  | .object fields, limit, h, hroom => by
    rw [Json.depth] at hroom
    obtain ⟨inner, henter, hinner⟩ := Limit.enter?_of_covers hroom
    rw [ofJson, value?, henter, Option.bind_some, members?_ofFields fields h.2 hinner, Option.map_some]
    exact congrArg (some ∘ Json.object) h.1.ofList_eq

theorem values?_ofItems : ∀ (items : List Json) {limit : Limit}, Json.SortedItems items →
    limit.Covers (Json.depthOfItems items) → values? limit (ofItems items) = some items
  | [], _, _, _ => by rw [ofItems, values?]
  | v :: rest, limit, h, hroom => by
    rw [Json.depthOfItems] at hroom
    rw [ofItems, values?, value?_ofJson v h.1 (hroom.mono (Nat.le_max_left _ _)),
      values?_ofItems rest h.2 (hroom.mono (Nat.le_max_right _ _))]
    rfl

theorem members?_ofFields : ∀ (fields : Json.Fields) {limit : Limit} {read : Json.Fields},
    Json.SortedFields fields → limit.Covers (Json.depthOfFields fields) →
      members? limit (ofFields fields) read = some (Assoc.insertAll fields read)
  | [], _, _, _, _ => by
    rw [ofFields, members?]
    rfl
  | (key, v) :: rest, limit, read, h, hroom => by
    rw [Json.depthOfFields] at hroom
    rw [ofFields, members?, Option.bind_some, value?_ofJson v h.1 (hroom.mono (Nat.le_max_left _ _)),
      Option.bind_some, members?_ofFields rest h.2 (hroom.mono (Nat.le_max_right _ _))]
    rfl

end

end Written

/-! ## Shapes -/

namespace Shape

theorem depth_toJson_list (element : Shape) : (toJson (list element)).depth = element.toJson.depth + 1 := by
  simp [toJson, Json.depth, Json.depthOfFields]

theorem depth_toJson_object (fields : List (String × Shape)) :
    (toJson (object fields)).depth = Json.depthOfFields (toFields fields) + 1 + 1 := by
  simp [toJson, Json.depth, Json.depthOfFields]

mutual

theorem ofWritten?_toJson : ∀ (shape : Shape) {limit : Written.Limit}, shape.Sorted →
    limit.Covers shape.toJson.depth → ofWritten? limit (.ofJson shape.toJson) = some shape
  | leaf, _, _, _ => by
    simp only [toJson, Written.ofJson, ofWritten?]
  | list element, limit, h, hroom => by
    rw [depth_toJson_list] at hroom
    obtain ⟨inner, henter, hinner⟩ := Written.Limit.enter?_of_covers hroom
    simp only [toJson, Written.ofJson, Written.ofFields, ofWritten?, Option.bind_eq_bind, henter,
      Option.bind_some, ofWritten?_toJson element h hinner]
    rfl
  | object fields, limit, h, hroom => by
    rw [depth_toJson_object] at hroom
    obtain ⟨outer, houter, hroom⟩ := Written.Limit.enter?_of_covers hroom
    obtain ⟨inner, hinner, hroom⟩ := Written.Limit.enter?_of_covers hroom
    simp only [toJson, Written.ofJson, Written.ofFields, ofWritten?, Option.bind_eq_bind, houter,
      Option.bind_some, hinner, ofMembers?_toFields fields h.2 hroom]
    exact congrArg (some ∘ object) h.1.ofList_eq

theorem ofMembers?_toFields : ∀ (fields : List (String × Shape)) {limit : Written.Limit}
    {read : List (String × Shape)}, SortedFields fields →
      limit.Covers (Json.depthOfFields (toFields fields)) →
        ofMembers? limit (Written.ofFields (toFields fields)) read =
          some (Assoc.insertAll fields read)
  | [], _, _, _, _ => by
    rw [toFields, Written.ofFields, ofMembers?]
    rfl
  | (key, shape) :: rest, limit, read, h, hroom => by
    rw [toFields, Json.depthOfFields] at hroom
    rw [toFields, Written.ofFields, ofMembers?,
      ofWritten?_toJson shape h.1 (hroom.mono (Nat.le_max_left _ _))]
    exact ofMembers?_toFields rest h.2 (hroom.mono (Nat.le_max_right _ _))

end

end Shape

end MediaCache
