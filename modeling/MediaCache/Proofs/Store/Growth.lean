import MediaCache.Proofs.Store.Index
import MediaCache.Proofs.Store.Objects
import MediaCache.Proofs.Store.Read

/-!
# Reads of a growing cache

A cache grows when every field that is stored keeps its value and no reference that led nowhere leads
somewhere. A read that found all it needs still does in a cache that grew from this one. Without the
second condition it may not: a list leaves out a reference to nothing, and reads the object once it is
back.
-/

namespace MediaCache

namespace Record

/-- The fields of the first record stand in the second, which is of no other type. -/
structure Extends (r s : Record) : Prop where
  field : ∀ key v, r.get? key = some v → s.get? key = some v
  typed : s.get? "__typename" = r.get? "__typename"

theorem Extends.refl (r : Record) : r.Extends r := ⟨fun _ _ h => h, rfl⟩

/-- Members that are stored already, or are new and not the type, leave everything else as it is. -/
theorem Extends.insertAll {r s : Record} (h : r.Extends s) {members : Json.Fields}
    (hmembers : ∀ m ∈ members,
      r.get? m.1 = some m.2 ∨ (m.1 ≠ "__typename" ∧ r.get? m.1 = none)) :
    r.Extends (s.insertAll members) := by
  have hget (key : String) : (s.insertAll members).get? key =
      (Assoc.get? key members.reverse).or (s.get? key) := s.get?_insertAll members key
  have hwritten : ∀ key v, Assoc.get? key members.reverse = some v → (key, v) ∈ members :=
    fun key v hv => List.mem_reverse.1 (Assoc.mem_of_get? hv)
  refine ⟨fun key v hv => ?_, ?_⟩
  · rw [hget]
    cases hnew : Assoc.get? key members.reverse with
    | none => exact h.field key v hv
    | some w =>
      rcases hmembers _ (hwritten key w hnew) with hsame | ⟨-, hnone⟩
      · rw [Option.some_or, ← hsame, hv]
      · rw [hv] at hnone
        cases hnone
  · rw [hget]
    cases hnew : Assoc.get? "__typename" members.reverse with
    | none => exact h.typed
    | some w =>
      rcases hmembers _ (hwritten _ w hnew) with hsame | ⟨hne, -⟩
      · rw [Option.some_or, hsame]
      · exact absurd rfl hne

end Record

namespace Cache

/-- Some data in the cache refers to this cache id. -/
def Mentions (c : Cache) (id : String) : Prop :=
  (∃ name v, c.root.get? name = some v ∧ id ∈ v.references) ∨
    ∃ owner r, c.objects.get? owner = some r ∧ id ∈ Json.referencesOfFields r.entries

instance (c : Cache) (id : String) : Decidable (c.Mentions id) :=
  decidable_of_iff
    ((∃ e ∈ c.root.entries, id ∈ e.2.references) ∨
      ∃ e ∈ c.objects.entries, id ∈ Json.referencesOfFields e.2.entries)
    (or_congr (by simp [SortedMap.get?_eq_some_iff_mem]) (by simp [SortedMap.get?_eq_some_iff_mem]))

structure Grows (c d : Cache) : Prop where
  policies : d.policies = c.policies
  record : ∀ id r, c.objects.get? id = some r → ∃ s, d.objects.get? id = some s ∧ r.Extends s
  gone : ∀ id, c.Mentions id → c.objects.get? id = none → d.objects.get? id = none

def StaysGone (c d : Cache) (v : Json) : Prop :=
  ∀ id ∈ v.references, c.objects.get? id = none → d.objects.get? id = none

variable {c d : Cache} {parent : Option Typename} {field : String}

namespace Grows

theorem readDangling (h : c.Grows d) : d.readDangling parent field = c.readDangling parent field := by
  have hpolicy : d.policyOf parent field = c.policyOf parent field := by
    cases parent <;> simp only [policyOf, h.policies]
  rw [Cache.readDangling, hpolicy, Cache.readDangling]

theorem contains (h : c.Grows d) {id : String} (hid : c.objects.contains id = true) :
    d.objects.contains id = true := by
  obtain ⟨r, hr⟩ := Option.isSome_iff_exists.1 hid
  obtain ⟨s, hs, -⟩ := h.record id r hr
  exact Option.isSome_of_eq_some hs

theorem canRead (h : c.Grows d) {v : Json} (hv : c.canRead v = true) : d.canRead v = true :=
  canRead_iff.2 fun id hid => h.contains (canRead_iff.1 hv id hid)

/-- Data whose objects do not come back can be read afterwards just when it could before. -/
theorem canRead_eq (h : c.Grows d) {v : Json} (hv : StaysGone c d v) :
    d.canRead v = c.canRead v := by
  cases hc : c.canRead v with
  | true => exact h.canRead hc
  | false =>
    unfold Cache.canRead at hc ⊢
    cases hid : referenceId? v with
    | none =>
      rw [hid] at hc
      cases hc
    | some id =>
      simp only [hid, SortedMap.contains, Option.isSome_eq_false_iff, Option.isNone_iff_eq_none] at hc ⊢
      exact hv id (Json.mem_references_of_referenceId? hid) hc

theorem isSome_readUntracked (h : c.Grows d) {v : Json}
    (hread : (c.readUntracked parent field v).isSome = true) :
    (d.readUntracked parent field v).isSome = true := by
  cases harray : v.asItems? with
  | some items =>
    cases v with
    | array items =>
      rw [Cache.readUntracked, Option.isSome_map]
      exact isSome_readUntrackedItems items
    | _ => cases harray
  | none =>
    rw [readUntracked_of_not_array harray] at hread ⊢
    cases hid : referenceId? v with
    | none => rfl
    | some id =>
      simp only [hid] at hread ⊢
      cases hd : d.objects.get? id with
      -- The object came back or never went, and its fields are shown.
      | some s => rfl
      | none =>
        -- Then the object was gone before as well, and the policy is the same.
        cases hc : c.objects.get? id with
        | some r =>
          obtain ⟨s, hs, -⟩ := h.record id r hc
          rw [hd] at hs
          cases hs
        | none =>
          simp only [hc] at hread
          rwa [h.readDangling]

mutual

theorem isSome_readValue (h : c.Grows d) : ∀ (shape : Shape) {parent : Option Typename}
    {field : String} {v : Json}, StaysGone c d v → (c.readValue parent field v shape).isSome = true →
      (d.readValue parent field v shape).isSome = true
  | .leaf, parent, field, v, _, hread => by
    rw [readValue_leaf] at hread ⊢
    exact h.isSome_readUntracked hread
  | .object selected, parent, field, v, hv, hread => by
    cases v with
    | object fields =>
      rw [readValue] at hread ⊢
      cases hid : referenceId? (.object fields) with
      | none =>
        simp only [hid] at hread ⊢
        rw [StaysGone, Json.references_of_anonymous hid] at hv
        rw [readSelected, Option.isSome_map] at hread ⊢
        exact h.isSome_readFields selected (fun _ _ hw => hw) hv hread
      | some id =>
        simp only [hid] at hread ⊢
        cases hc : c.objects.get? id with
        -- A reference that led nowhere still leads nowhere.
        | none =>
          have hgone := hv id (Json.mem_references_of_referenceId? hid) hc
          simp only [hc, hgone] at hread ⊢
          rwa [h.readDangling]
        -- The record has only grown, so the selected fields are all there.
        | some r =>
          obtain ⟨s, hs, hextends⟩ := h.record id r hc
          have htype : typenameOf? s.entries = typenameOf? r.entries := by
            have htyped : Assoc.get? "__typename" s.entries = Assoc.get? "__typename" r.entries :=
              hextends.typed
            rw [typenameOf?, typenameOf?, htyped]
          have hgone : ∀ inner ∈ Json.referencesOfFields r.entries,
              c.objects.get? inner = none → d.objects.get? inner = none :=
            fun inner hinner => h.gone inner (.inr ⟨id, r, hc, hinner⟩)
          simp only [hc, hs] at hread ⊢
          rw [readSelected, Option.isSome_map] at hread ⊢
          rw [htype]
          exact h.isSome_readFields selected hextends.field hgone hread
    | _ =>
      rw [readValue_object_of_not_object rfl] at hread ⊢
      exact h.isSome_readUntracked hread
  | .list element, parent, field, v, hv, hread => by
    cases v with
    | array items =>
      have hitem : ∀ item ∈ items, StaysGone c d item :=
        fun item hin id hid => hv id (Json.references_of_item hin hid)
      have hsame : items.filter d.canRead = items.filter c.canRead :=
        List.filter_congr fun item hin => h.canRead_eq (hitem item hin)
      rw [readValue, Option.isSome_map] at hread ⊢
      rw [hsame]
      -- Each remaining item can be read by itself.
      refine isSome_mapM fun item hin => ?_
      exact h.isSome_readValue element (hitem item (List.mem_filter.1 hin).1)
        (isSome_of_mem_mapM hread item hin)
    | _ =>
      rw [readValue_list_of_not_array rfl] at hread ⊢
      exact h.isSome_readUntracked hread

theorem isSome_readFields (h : c.Grows d) : ∀ (selected : List (String × Shape))
    {parent : Option Typename} {before after : Json.Fields},
    (∀ key v, Assoc.get? key before = some v → Assoc.get? key after = some v) →
    (∀ id ∈ Json.referencesOfFields before, c.objects.get? id = none → d.objects.get? id = none) →
    ∀ {read read' : Json.Fields},
    (c.readFields parent before selected read).isSome = true →
      (d.readFields parent after selected read').isSome = true
  | [], parent, before, after, _, _, read, read', _ => by
    rw [readFields]
    rfl
  | (key, shape) :: rest, parent, before, after, hfields, hv, read, read', hread => by
    obtain ⟨out, hout⟩ := Option.isSome_iff_exists.1 hread
    rw [readFields] at hout
    obtain ⟨stored, hstored, hout⟩ := Option.bind_eq_some_iff.1 hout
    obtain ⟨v, hvalue, hout⟩ := Option.bind_eq_some_iff.1 hout
    have hgone : StaysGone c d stored := fun id hid => hv id (Json.references_of_member hstored hid)
    obtain ⟨w, hw⟩ := Option.isSome_iff_exists.1
      (h.isSome_readValue shape hgone (Option.isSome_of_eq_some hvalue))
    rw [readFields, hfields key stored hstored, Option.bind_some, hw, Option.bind_some]
    exact h.isSome_readFields rest hfields hv (Option.isSome_of_eq_some hout)

end

theorem fallback (h : c.Grows d) {typename : Typename} {args : Option Json} {obj : ObjectRef}
    (hobj : c.fallback? typename args = some obj) : d.fallback? typename args = some obj := by
  rw [fallback?_eq_some_iff] at hobj ⊢
  obtain ⟨htype, hid, hcontains⟩ := hobj
  exact ⟨htype, hid, h.contains hcontains⟩

theorem staysGone_of_contains {obj : ObjectRef} (hobj : c.contains obj = true) :
    StaysGone c d obj.toReference := by
  intro id hid hnone
  rw [Json.references_toReference, List.mem_singleton] at hid
  rw [contains_eq, SortedMap.contains, ← hid, hnone] at hobj
  cases hobj

theorem readRoot_hits (h : c.Grows d) {field : String} {args : Option Json}
    (hentry : d.entry (storeFieldName field args) = c.entry (storeFieldName field args))
    (hread : (c.readRoot field args).isMissing = false) :
    (d.readRoot field args).isMissing = false := by
  have hroot : d.root.get? (storeFieldName field args) = c.root.get? (storeFieldName field args) :=
    congrArg Prod.fst hentry
  have hshape : d.selections.get? (storeFieldName field args) =
      c.selections.get? (storeFieldName field args) := congrArg Prod.snd hentry
  have hvalue {v : Json} {shape : Shape} (hv : StaysGone c d v)
      (hhit : (ReadOutcome.ofOption (c.readValue none field v shape)).isMissing = false) :
      (ReadOutcome.ofOption (d.readValue none field v shape)).isMissing = false := by
    rw [ReadOutcome.isMissing_ofOption, Bool.not_eq_false'] at hhit ⊢
    exact h.isSome_readValue shape hv hhit
  have hstored : ∀ v, c.root.get? (storeFieldName field args) = some v → StaysGone c d v :=
    fun v hv id hid => h.gone id (.inl ⟨_, v, hv, hid⟩)
  have hfilter : (c.root.get? (storeFieldName field args)).filter d.canRead =
      (c.root.get? (storeFieldName field args)).filter c.canRead := by
    cases hv : c.root.get? (storeFieldName field args) with
    | none => rfl
    | some v => rw [Option.filter_some, Option.filter_some, h.canRead_eq (hstored v hv)]
  unfold readRoot at hread ⊢
  simp only [hroot, hshape, h.policies, hfilter] at hread ⊢
  cases hpolicy : c.policies.root field with
  | none =>
    cases hv : c.root.get? (storeFieldName field args) with
    | none => simp [hpolicy, hv, ReadOutcome.isMissing] at hread
    | some v =>
      simp only [hpolicy, hv] at hread ⊢
      exact hvalue (hstored v hv) hread
  | some policy =>
    cases policy with
    | danglingNull =>
      cases hv : c.root.get? (storeFieldName field args) with
      | none => simp [hpolicy, hv, ReadOutcome.isMissing] at hread
      | some v =>
        simp only [hpolicy, hv, h.canRead_eq (hstored v hv)] at hread ⊢
        cases hcan : c.canRead v with
        | false => rfl
        | true =>
          simp only [hcan, if_true] at hread ⊢
          exact hvalue (hstored v hv) hread
    | readReference typename =>
      cases hv : (c.root.get? (storeFieldName field args)).filter c.canRead with
      | some v =>
        simp only [hpolicy, hv] at hread ⊢
        exact hvalue (hstored v (Option.filter_eq_some_iff.1 hv).1) hread
      -- The fallback is still stored.
      | none =>
        simp only [hpolicy, hv] at hread ⊢
        cases hobj : c.fallback? typename args with
        | none => simp [hobj, ReadOutcome.isMissing] at hread
        | some obj =>
          simp only [hobj, h.fallback hobj] at hread ⊢
          exact hvalue (staysGone_of_contains (fallback?_eq_some_iff.1 hobj).2.2) hread

end Grows

/-! ## Writes that only add -/

/-- Of an object that is stored, the data repeats what is known or gives fields that were not stored,
and it brings back no object that the cache still refers to. -/
structure Agrees (c : Cache) (data : Json) : Prop where
  member : ∀ e ∈ data.entities, ∀ r, c.get? e.1 = some r → ∀ m ∈ e.2,
    r.get? m.1 = some m.2 ∨ (m.1 ≠ "__typename" ∧ r.get? m.1 = none)
  gone : ∀ e ∈ data.entities, c.Mentions e.1.cacheId → c.contains e.1 = true

instance (c : Cache) (data : Json) : Decidable (c.Agrees data) :=
  decidable_of_iff
    ((∀ e ∈ data.entities, ∀ r ∈ c.get? e.1, ∀ m ∈ e.2,
        r.get? m.1 = some m.2 ∨ (m.1 ≠ "__typename" ∧ r.get? m.1 = none)) ∧
      ∀ e ∈ data.entities, c.Mentions e.1.cacheId → c.contains e.1 = true)
    ⟨fun h => ⟨h.1, h.2⟩, fun h => ⟨h.member, h.gone⟩⟩

theorem Agrees.record {data : Json} (h : c.Agrees data) {id : String} {r : Record}
    (hr : c.objects.get? id = some r) :
    ∃ s, (c.storeEntities data).objects.get? id = some s ∧ r.Extends s := by
  have hfold : ∀ (pending : List (ObjectRef × Json.Fields)) (d : Cache) (s : Record),
      (∀ e ∈ pending, e ∈ data.entities) → d.objects.get? id = some s → r.Extends s →
        ∃ s, (pending.foldl (fun d e => d.mergeObject e.1 e.2) d).objects.get? id = some s ∧
          r.Extends s := by
    intro pending
    induction pending with
    | nil => exact fun _ s _ hs hextends => ⟨s, hs, hextends⟩
    | cons e rest ih =>
      intro d s hpending hs hextends
      have hrest := fun f hf => hpending f (List.mem_cons_of_mem e hf)
      rw [List.foldl_cons]
      by_cases hid : id = e.1.cacheId
      · have hmembers := h.member e (hpending e List.mem_cons_self) r (by rw [get?_eq, ← hid, hr])
        refine ih _ (s.insertAll e.2) hrest ?_ (hextends.insertAll hmembers)
        unfold mergeObject
        simp only [SortedMap.get?_insert, ← hid, hs, Option.getD_some, if_true]
      · refine ih _ s hrest ?_ hextends
        unfold mergeObject
        simp only [SortedMap.get?_insert, if_neg hid, hs]
  exact hfold data.entities c r (fun _ he => he) hr (.refl r)

theorem Agrees.grows {data : Json} (h : c.Agrees data) (field : String) (args : Option Json) :
    c.Grows (c.writeRoot field args data) := by
  refine ⟨(sameRoot_storeEntities c data).policies, fun id r hr => h.record hr, ?_⟩
  intro id hmentions hgone
  have hcontains := contains_storeEntities c data id
  cases hnew : (c.writeRoot field args data).objects.get? id with
  | none => rfl
  | some s =>
    rcases hcontains.1 (Option.isSome_of_eq_some hnew) with ⟨e, he, rfl⟩ | hold
    · have hstored := h.gone e he hmentions
      rw [contains_eq, SortedMap.contains, hgone] at hstored
      cases hstored
    · rw [SortedMap.contains, hgone] at hold
      cases hold

end Cache

end MediaCache
