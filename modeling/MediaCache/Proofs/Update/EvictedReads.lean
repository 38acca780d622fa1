import MediaCache.Proofs.Store.ReadBack
import MediaCache.Proofs.Store.Stored
import MediaCache.Proofs.Update.Resolutions

/-!
# Reads after an object is evicted

References to an evicted object stay behind. A read drops them from lists, reads them as `null` where the
policy of the field says so, and is missing where it does not. What the read found before tells which.
-/

namespace MediaCache

namespace Cache

structure Forgets (id : String) (c d : Cache) : Prop where
  policies : d.policies = c.policies
  objects : ∀ j, d.objects.get? j = if j = id then none else c.objects.get? j

/-- A read can do without the object wherever it has come to it. -/
def Spared (c : Cache) (id : String) (found : List Resolution) : Prop :=
  ∀ r ∈ found, r.id = id → r.Dispensable c

/-- A look-up that finds the object asks for it. Only a wrong entry leads to another one. -/
def AsksFor (c : Cache) (obj : ObjectRef) (field : String) (args : Option Json) : Prop :=
  c.source? field args = some obj.toReference → ∀ t other,
    c.policies.root field = some (.readReference t) → c.fallback? t args = some other → other = obj

def standsAt (id : String) (found : List Resolution) (p : Path) : Bool :=
  found.any fun r => r.id == id && r.place == p

/-- What becomes of an answer when the object is gone that some of these resolutions have come to. -/
structure Reduces (c : Cache) (id : String) (found : List Resolution) (out : Json)
    (read : Option Json) : Prop where
  hit : Spared c id found → read = some (out.cleared (standsAt id found))
  missing : ¬Spared c id found → read = none

theorem asksFor_of_source? {c : Cache} {obj : ObjectRef} {field : String} {args : Option Json} {w : Json}
    (hsource : c.source? field args = some w) (hother : w ≠ obj.toReference) : c.AsksFor obj field args :=
  fun hself => absurd (Option.some.inj (hsource.symm.trans hself)) hother

theorem standsAt_iff {id : String} {found : List Resolution} {p : Path} :
    standsAt id found p = true ↔ ∃ r ∈ found, r.id = id ∧ r.place = p := by
  simp [standsAt]

theorem standsAt_eq_false {id : String} {found : List Resolution} {p : Path} :
    standsAt id found p = false ↔ ∀ r ∈ found, r.id = id → r.place ≠ p := by
  rw [← Bool.not_eq_true, standsAt_iff]
  push Not
  rfl

variable {c d : Cache} {id : String} {found : List Resolution}

theorem spared_append {c : Cache} {id : String} {l m : List Resolution} :
    Spared c id (l ++ m) ↔ Spared c id l ∧ Spared c id m :=
  List.forall_mem_append

theorem spared_map_under {c : Cache} {id : String} {step : PathStep} {l : List Resolution} :
    Spared c id (l.map (.under step)) ↔ Spared c id l :=
  List.forall_mem_map

@[simp]
theorem standsAt_append {id : String} {l m : List Resolution} {p : Path} :
    standsAt id (l ++ m) p = (standsAt id l p || standsAt id m p) :=
  List.any_append

@[simp]
theorem standsAt_map_under {id : String} {step : PathStep} {l : List Resolution} {p : Path} :
    standsAt id (l.map (.under step)) (step :: p) = standsAt id l p := by
  simp [standsAt, List.any_map, Function.comp_def, Resolution.under]

theorem standsAt_map_under_of_ne {id : String} {step other : PathStep} (h : step ≠ other)
    {l : List Resolution} {p : Path} : standsAt id (l.map (.under step)) (other :: p) = false := by
  simp [standsAt, List.any_map, Function.comp_def, Resolution.under, h]

theorem standsAt_outsideItems_of_lt {id : String} {trace : Json → List Resolution}
    {position i : Nat} (h : i < position) (items : List Json) (p : Path) :
    standsAt id (outsideItems trace position items) (.element i :: p) = false := by
  refine standsAt_eq_false.2 fun r hr _ hplace => ?_
  obtain ⟨-, -, j, hj, s, -, rfl⟩ := mem_outsideItems hr
  cases hplace
  exact absurd hj (Nat.not_le.2 h)

theorem reduces_of_apart (h : ∀ r ∈ found, r.id ≠ id) {out : Json} {read : Option Json}
    (hread : read = some out) : Reduces c id found out read := by
  have hnone : standsAt id found = fun _ => false :=
    funext fun p => standsAt_eq_false.2 fun r hr hid => absurd hid (h r hr)
  refine ⟨fun _ => ?_, fun hspared => ?_⟩
  · rw [hnone, Json.cleared_nothing, hread]
  · exact absurd (fun r hr hid => absurd hid (h r hr)) hspared

/-- Other objects may be listed as well. -/
theorem Reduces.cons_of_ne {out : Json} {read : Option Json} (h : Reduces c id found out read)
    {r : Resolution} (hr : r.id ≠ id) : Reduces c id (r :: found) out read := by
  have hspared : Spared c id (r :: found) ↔ Spared c id found :=
    List.forall_mem_cons.trans (and_iff_right fun hid => absurd hid hr)
  have hstands : standsAt id (r :: found) = standsAt id found := by
    funext p
    simp [standsAt, hr]
  refine ⟨fun hall => ?_, fun hnot => h.missing (hspared.not.1 hnot)⟩
  rw [hstands]
  exact h.hit (hspared.1 hall)

namespace Forgets

variable {parent : Option Typename} {field : String} {slot : Slot}

theorem of_evictObject (c : Cache) (obj : ObjectRef) :
    Forgets obj.cacheId c (c.evictObject obj).2 :=
  ⟨(sameRoot_evictObject c obj).policies, get?_evictObject c obj⟩

theorem get?_of_ne (h : Forgets id c d) {j : String} (hj : j ≠ id) :
    d.objects.get? j = c.objects.get? j := by
  rw [h.objects, if_neg hj]

theorem get?_self (h : Forgets id c d) : d.objects.get? id = none := by
  rw [h.objects, if_pos rfl]

theorem policyOf (h : Forgets id c d) : d.policyOf parent field = c.policyOf parent field := by
  cases parent <;> simp only [Cache.policyOf, h.policies]

theorem readDangling (h : Forgets id c d) : d.readDangling parent field = c.readDangling parent field := by
  rw [Cache.readDangling, h.policyOf, Cache.readDangling]

theorem canRead (h : Forgets id c d) (v : Json) :
    d.canRead v = (c.canRead v && referenceId? v != some id) := by
  unfold Cache.canRead
  cases hid : referenceId? v with
  | none => rfl
  | some j =>
    by_cases hj : j = id
    · simp [hj, SortedMap.contains, h.get?_self]
    · simp [hj, SortedMap.contains, h.get?_of_ne hj]

theorem reduces_here (h : Forgets id c d) {shape : Shape} (out : Json) :
    Reduces c id [⟨⟨id, shape⟩, [], .field parent field⟩] out (d.readDangling parent field) := by
  have hspared : Spared c id [⟨⟨id, shape⟩, [], .field parent field⟩] ↔
      c.policyOf parent field = some .danglingNull := by
    simp [Spared, Resolution.Dispensable]
  have hhere : standsAt id [⟨⟨id, shape⟩, [], .field parent field⟩] [] = true :=
    standsAt_iff.2 ⟨_, List.mem_singleton_self _, rfl, rfl⟩
  rw [h.readDangling, Cache.readDangling]
  refine ⟨fun hpolicy => ?_, fun hpolicy => ?_⟩
  · rw [hspared.1 hpolicy, Json.cleared_of_gone hhere]
  · split
    · exact absurd (hspared.2 ‹_›) hpolicy
    · rfl

/-! ## Data that is read as it is stored -/

def Named (slot : Slot) (parent : Option Typename) (field id : String) (v : Json) : Prop :=
  slot = .field parent field ∨ referenceId? v ≠ some id

theorem reduces_of_not_array (h : Forgets id c d) {v : Json} (hv : v.asItems? = none) {shape : Shape}
    (hnamed : Named slot parent field id v) {out : Json}
    (hout : c.readUntracked parent field v = some out) :
    Reduces c id (c.outsideHere slot v shape) out (d.readUntracked parent field v) := by
  rw [readUntracked_of_not_array hv] at hout ⊢
  unfold outsideHere visitHere
  cases hid : referenceId? v with
  | none =>
    rw [hid] at hout
    exact reduces_of_apart (List.forall_mem_nil _) hout
  | some j =>
    simp only [hid] at hout ⊢
    by_cases hj : j = id
    · -- The reference is to the object.
      subst hj
      rcases hnamed with rfl | hother
      · rw [h.get?_self]
        by_cases hin : c.objects.contains j = true
        · rw [if_pos hin]
          exact h.reduces_here out
        · have hgone : c.objects.get? j = none := Option.not_isSome_iff_eq_none.1 hin
          rw [hgone] at hout
          rw [if_neg hin]
          exact reduces_of_apart (List.forall_mem_nil _) (h.readDangling.trans hout)
      · exact absurd hid hother
    · -- Another object is stored as before.
      rw [h.get?_of_ne hj, h.readDangling]
      refine reduces_of_apart (fun r hr => ?_) hout
      split at hr
      · obtain rfl := List.mem_singleton.1 hr
        exact hj
      · cases hr

/-! ## Lists -/

/-- A list is read without its elements that are the object, and its other elements are read by
themselves. -/
theorem reduces_items {f g : Json → Option Json} {trace : Json → List Resolution} {items : List Json}
    (hself : ∀ v ∈ items, referenceId? v = some id →
      ∃ shape, trace v = [⟨⟨id, shape⟩, [], .element⟩])
    (hothers : ∀ v ∈ items, referenceId? v ≠ some id →
      (∀ r ∈ trace v, r.id = id → r.place ≠ []) ∧
        ∀ out, f v = some out → Reduces c id (trace v) out (g v))
    (position : Nat) {outs : List Json} (houts : items.mapM f = some outs) :
    (Spared c id (outsideItems trace position items) →
      (items.filter fun v => referenceId? v != some id).mapM g =
        some (Json.clearedItems (standsAt id (outsideItems trace position items)) position outs)) ∧
    (¬Spared c id (outsideItems trace position items) →
      (items.filter fun v => referenceId? v != some id).mapM g = none) := by
  induction items generalizing position outs with
  | nil =>
    obtain rfl : [] = outs := Option.some.inj houts
    refine ⟨fun _ => ?_, fun hspared => absurd (List.forall_mem_nil _) hspared⟩
    rw [Json.clearedItems]
    rfl
  | cons v rest ih =>
    rw [List.mapM_cons] at houts
    obtain ⟨o, ho, houts⟩ := Option.bind_eq_some_iff.1 houts
    obtain ⟨os, hos, houts⟩ := Option.bind_eq_some_iff.1 houts
    cases houts
    obtain ⟨hself, hselves⟩ := List.forall_mem_cons.1 hself
    obtain ⟨hother, hothers⟩ := List.forall_mem_cons.1 hothers
    obtain ⟨hhit, hmissing⟩ := ih hselves hothers (position + 1) hos
    -- The places in the first element come from its own trace, those behind it from the others.
    have hhere (p : Path) : standsAt id (outsideItems trace position (v :: rest)) (.element position :: p) =
        standsAt id (trace v) p := by
      rw [outsideItems, standsAt_append, standsAt_map_under,
        standsAt_outsideItems_of_lt (Nat.lt_succ_self position), Bool.or_false]
    have hrest :
        Json.clearedItems (standsAt id (outsideItems trace position (v :: rest))) (position + 1) os =
          Json.clearedItems (standsAt id (outsideItems trace (position + 1) rest)) (position + 1) os := by
      refine Json.clearedItems_congr (fun i p hi => ?_) os
      have hne : PathStep.element position ≠ .element i := by
        rintro ⟨⟩
        exact absurd hi (Nat.not_succ_le_self position)
      rw [outsideItems, standsAt_append, standsAt_map_under_of_ne hne, Bool.false_or]
    have hspared : Spared c id (outsideItems trace position (v :: rest)) ↔
        Spared c id (trace v) ∧ Spared c id (outsideItems trace (position + 1) rest) := by
      rw [outsideItems, spared_append, spared_map_under]
    rw [hspared, Json.clearedItems, hhere, hrest]
    by_cases hid : referenceId? v = some id
    · -- The element is the object: it goes, and whatever stands inside it goes with it.
      obtain ⟨shape, htrace⟩ := hself hid
      have hgone : standsAt id (trace v) [] = true := by
        rw [htrace]
        exact standsAt_iff.2 ⟨_, List.mem_singleton_self _, rfl, rfl⟩
      have hdropped : Spared c id (trace v) := by
        rw [htrace]
        exact List.forall_mem_singleton.2 fun _ => trivial
      rw [List.filter_cons_of_neg (by simp [hid]), if_pos hgone]
      exact ⟨fun h => hhit h.2, fun h => hmissing fun hsome => h ⟨hdropped, hsome⟩⟩
    · -- The element stays if it can be read without the object.
      obtain ⟨hplaces, hread⟩ := hother hid
      have hkept : standsAt id (trace v) [] = false := standsAt_eq_false.2 hplaces
      rw [List.filter_cons_of_pos (by simp [hid]), List.mapM_cons, hkept, if_neg (by decide)]
      refine ⟨fun h => ?_, fun h => ?_⟩
      · rw [(hread o ho).hit h.1, hhit h.2, funext hhere]
        rfl
      · by_cases hfirst : Spared c id (trace v)
        · rw [hmissing fun hsome => h ⟨hfirst, hsome⟩]
          cases g v <;> rfl
        · rw [(hread o ho).missing hfirst]
          rfl

theorem reduces_array (h : Forgets id c d) {f g : Json → Option Json} {trace : Json → List Resolution}
    {items : List Json}
    (hself : ∀ v ∈ items.filter c.canRead, referenceId? v = some id →
      ∃ shape, trace v = [⟨⟨id, shape⟩, [], .element⟩])
    (hothers : ∀ v ∈ items.filter c.canRead, referenceId? v ≠ some id →
      (∀ r ∈ trace v, r.id = id → r.place ≠ []) ∧
        ∀ out, f v = some out → Reduces c id (trace v) out (g v))
    {out : Json} (hout : ((items.filter c.canRead).mapM f).map .array = some out) :
    Reduces c id (outsideItems trace 0 (items.filter c.canRead)) out
      (((items.filter d.canRead).mapM g).map .array) := by
  obtain ⟨outs, houts, rfl⟩ := Option.map_eq_some_iff.1 hout
  have hleft : items.filter d.canRead =
      (items.filter c.canRead).filter fun v => referenceId? v != some id := by
    rw [List.filter_filter]
    refine List.filter_congr fun v _ => ?_
    rw [h.canRead, Bool.and_comm]
  have htop : standsAt id (outsideItems trace 0 (items.filter c.canRead)) [] = false := by
    refine standsAt_eq_false.2 fun r hr _ hplace => ?_
    obtain ⟨-, -, i, -, s, -, rfl⟩ := mem_outsideItems hr
    cases hplace
  obtain ⟨hhit, hmissing⟩ := reduces_items hself hothers 0 houts
  rw [hleft]
  refine ⟨fun hspared => ?_, fun hspared => ?_⟩
  · rw [hhit hspared, Json.cleared_array htop, Option.map_some]
  · rw [hmissing hspared, Option.map_none]

/-- A value that is no reference to the object has it further down only. -/
theorem place_ne_nil {v : Json} (hid : referenceId? v ≠ some id) {shape : Shape} :
    ∀ r ∈ c.outside id slot v shape, r.id = id → r.place ≠ [] := by
  intro r hr hsame hplace
  rw [← hsame] at hid
  exact hid (referenceId?_of_mem_outside hr hplace)

mutual

theorem reduces_untracked (h : Forgets id c d) : ∀ (v : Json) {slot : Slot},
    Named slot parent field id v → ∀ {out : Json}, c.readUntracked parent field v = some out →
      Reduces c id (c.outsideUntracked slot v) out (d.readUntracked parent field v)
  | .array items, slot, _, out, hout => by
    rw [readUntracked, readUntrackedItems_eq] at hout ⊢
    rw [outsideUntracked, outsideUntrackedItems_eq]
    refine h.reduces_array (fun v hv hid => ⟨.leaf, ?_⟩) (fun v hv hid => ⟨?_, ?_⟩) hout
    · rw [← outside_leaf]
      exact outside_self hid (canRead_iff.1 (List.mem_filter.1 hv).2 id hid) .leaf
    · rw [← outside_leaf]
      exact place_ne_nil hid
    · exact h.reduces_untrackedItems items v (List.mem_filter.1 hv).1 hid
  | .object _, slot, hnamed, out, hout | .null, slot, hnamed, out, hout
  | .bool _, slot, hnamed, out, hout | .number _, slot, hnamed, out, hout
  | .string _, slot, hnamed, out, hout => by
    rw [outsideUntracked_of_not_array rfl]
    exact h.reduces_of_not_array rfl hnamed hout

theorem reduces_untrackedItems (h : Forgets id c d) : ∀ (items : List Json), ∀ v ∈ items,
    referenceId? v ≠ some id → ∀ out, c.readUntracked parent field v = some out →
      Reduces c id (c.outsideUntracked .element v) out (d.readUntracked parent field v)
  | v :: rest, w, hw, hid, out, hout => by
    rcases List.mem_cons.1 hw with hfirst | hw
    · rw [hfirst] at hid hout ⊢
      exact h.reduces_untracked v (.inr hid) hout
    · exact h.reduces_untrackedItems rest w hw hid out hout

end

/-! ## Data under a shape -/

/-- What the eviction makes of reads under the shape. -/
def ReducesUnder (id : String) (c d : Cache) (shape : Shape) : Prop :=
  ∀ (slot : Slot) (parent : Option Typename) (field : String) (v out : Json),
    Named slot parent field id v → c.readValue parent field v shape = some out →
      Reduces c id (c.outside id slot v shape) out (d.readValue parent field v shape)

/-- A field is selected once, so what stands in it is what its own data leads to. -/
theorem standsAt_outsideFields {stored : Json.Fields} {selected : List (String × Shape)}
    (hselected : Assoc.Ordered selected) {s : String × Shape} (hs : s ∈ selected) {w : Json}
    (hw : Assoc.get? s.1 stored = some w) (p : Path) :
    standsAt id (c.outsideFields id parent stored selected) (.member s.1 :: p) =
      standsAt id (c.outside id (.field parent s.1) w s.2) p := by
  rw [Bool.eq_iff_iff, standsAt_iff, standsAt_iff]
  constructor
  · rintro ⟨r, hr, hid, hplace⟩
    obtain ⟨⟨key, shape⟩, hs', v, hv, t, ht, rfl⟩ := mem_outsideFields.1 hr
    obtain ⟨hkey, hinner⟩ := List.cons.inj hplace
    obtain rfl : key = s.1 := PathStep.member.inj hkey
    have hshape : some shape = some s.2 :=
      (Assoc.get?_eq_of_mem hselected.nodup_keys hs').symm.trans
        (Assoc.get?_eq_of_mem hselected.nodup_keys hs)
    cases hshape
    rw [hw] at hv
    cases hv
    exact ⟨t, ht, hid, hinner⟩
  · rintro ⟨t, ht, hid, rfl⟩
    exact ⟨t.under (.member s.1), mem_outsideFields.2 ⟨s, hs, w, hw, t, ht, rfl⟩, hid, rfl⟩

theorem reduces_fields {stored : Json.Fields} {selected : List (String × Shape)}
    (hselected : Assoc.Ordered selected) (hfields : ∀ s ∈ selected, ReducesUnder id c d s.2)
    {read out : Json.Fields} (hread : Assoc.Ordered read)
    (hout : c.readFields parent stored selected read = some out) :
    (Spared c id (c.outsideFields id parent stored selected) →
      d.readFields parent stored selected read =
        some (Json.clearedFields (standsAt id (c.outsideFields id parent stored selected)) out)) ∧
    (¬Spared c id (c.outsideFields id parent stored selected) →
      d.readFields parent stored selected read = none) := by
  have hnodup := hselected.nodup_keys
  obtain ⟨hordered, hvalues, hother⟩ := readFields_collects hnodup hread hout
  have hreduces : ∀ s ∈ selected, ∃ w v, Assoc.get? s.1 stored = some w ∧ Assoc.get? s.1 out = some v ∧
      Reduces c id (c.outside id (.field parent s.1) w s.2) v (d.readValue parent s.1 w s.2) := by
    intro s hs
    obtain ⟨w, v, hw, hv, hvalue⟩ := hvalues s hs
    exact ⟨w, v, hw, hv, hfields s hs _ parent s.1 w v (.inl rfl) hvalue⟩
  have hget (gone : Path → Bool) (key : String) : Assoc.get? key (Json.clearedFields gone out) =
      (Assoc.get? key out).map fun v => v.cleared fun p => gone (.member key :: p) := by
    rw [Json.clearedFields_eq]
    exact get?_map_value (fun key v => Json.cleared (fun p => gone (.member key :: p)) v) out key
  constructor
  · -- Each field is read as it was, but for the places under it.
    intro hspared
    have hcleared : ∀ s ∈ selected, ∃ w v, Assoc.get? s.1 stored = some w ∧
        Assoc.get? s.1 (Json.clearedFields
          (standsAt id (c.outsideFields id parent stored selected)) out) = some v ∧
        d.readValue parent s.1 w s.2 = some v := by
      intro s hs
      obtain ⟨w, v, hw, hv, hvalue⟩ := hreduces s hs
      refine ⟨w, _, hw, by rw [hget, hv, Option.map_some], ?_⟩
      rw [funext (standsAt_outsideFields hselected hs hw)]
      exact hvalue.hit fun t ht => hspared (t.under (.member s.1))
        (mem_outsideFields.2 ⟨s, hs, w, hw, t, ht, rfl⟩)
    obtain ⟨out', hout', hordered', hkeys⟩ := readFields_of_selected hcleared hread
    rw [hout']
    congr 1
    refine hordered'.ext ?_ fun key => ?_
    · rw [Json.clearedFields_eq]
      exact List.pairwise_map.2 hordered
    · rw [hkeys]
      split
      · rfl
      · rename_i hkey
        -- A key that is not selected holds no place of the object.
        have hkept : (fun p => standsAt id (c.outsideFields id parent stored selected)
            (.member key :: p)) = fun _ => false := by
          funext p
          refine standsAt_eq_false.2 fun r hr _ hplace => ?_
          obtain ⟨s, hs, -, -, t, -, rfl⟩ := mem_outsideFields.1 hr
          cases hplace
          exact hkey (List.mem_map_of_mem hs)
        rw [hget, hkept, hother key hkey]
        simp [Json.cleared_nothing]
  · -- If the read succeeded, so would the read of the field that cannot do without the object.
    intro hspared
    cases hd : d.readFields parent stored selected read with
    | none => rfl
    | some out' =>
      obtain ⟨-, hvalues', -⟩ := readFields_collects hnodup hread hd
      refine absurd (fun r hr hid => ?_) hspared
      obtain ⟨s, hs, w, hw, t, ht, rfl⟩ := mem_outsideFields.1 hr
      obtain ⟨w', v', hw', -, hread'⟩ := hvalues' s hs
      obtain ⟨w'', v, hw'', -, hvalue⟩ := hreduces s hs
      rw [hw] at hw' hw''
      cases hw'
      cases hw''
      by_contra hlost
      rw [hvalue.missing fun hall => hlost (hall t ht hid)] at hread'
      cases hread'

theorem readSelected_eq (stored : Json.Fields) :
    ∃ typed : Json.Fields, Assoc.Ordered typed ∧ ∀ (c : Cache) (selected : List (String × Shape)),
      c.readSelected stored selected =
        (c.readFields (typenameOf? stored) stored selected typed).map .object := by
  cases ht : Assoc.get? "__typename" stored with
  | none => exact ⟨[], Assoc.ordered_nil, fun c selected => by rw [readSelected, ht]⟩
  | some t =>
    exact ⟨[("__typename", t)], List.pairwise_singleton _ _, fun c selected => by rw [readSelected, ht]⟩

theorem reduces_selected {stored : Json.Fields} {selected : List (String × Shape)}
    (hselected : Assoc.Ordered selected) (hfields : ∀ s ∈ selected, ReducesUnder id c d s.2) {out : Json}
    (hout : c.readSelected stored selected = some out) :
    Reduces c id (c.outsideFields id (typenameOf? stored) stored selected) out
      (d.readSelected stored selected) := by
  obtain ⟨typed, hordered, hselect⟩ := readSelected_eq stored
  rw [hselect] at hout ⊢
  obtain ⟨fields, hread, rfl⟩ := Option.map_eq_some_iff.1 hout
  obtain ⟨hhit, hmissing⟩ := reduces_fields hselected hfields hordered hread
  have htop : standsAt id (c.outsideFields id (typenameOf? stored) stored selected) [] = false := by
    refine standsAt_eq_false.2 fun r hr _ hplace => ?_
    obtain ⟨s, -, -, -, t, -, rfl⟩ := mem_outsideFields.1 hr
    cases hplace
  refine ⟨fun hspared => ?_, fun hspared => ?_⟩
  · rw [hhit hspared, Json.cleared_object htop, Option.map_some]
  · rw [hmissing hspared, Option.map_none]

mutual

theorem reducesUnder (h : Forgets id c d) : ∀ shape : Shape, shape.Sorted → ReducesUnder id c d shape
  | .leaf, _, slot, parent, field, v, out, hnamed, hout => by
    rw [readValue_leaf] at hout ⊢
    rw [outside_leaf]
    exact h.reduces_untracked v hnamed hout
  | .object selected, hsorted, slot, parent, field, v, out, hnamed, hout => by
    have hselected {stored : Json.Fields} (hout : c.readSelected stored selected = some out) :=
      reduces_selected hsorted.1 (h.reducesUnder_fields selected hsorted.2) hout
    cases v with
    | object fields =>
      rw [Cache.readValue] at hout ⊢
      rw [outside]
      cases hid : referenceId? (.object fields) with
      | none =>
        simp only [hid] at hout ⊢
        exact hselected hout
      | some j =>
        simp only [hid] at hout ⊢
        cases hr : c.objects.get? j with
        | none =>
          -- A dangling reference was to another object, or to this one all along.
          have hgone : d.objects.get? j = none := by
            rw [h.objects]
            split
            · rfl
            · exact hr
          simp only [hr, hgone] at hout ⊢
          exact reduces_of_apart (List.forall_mem_nil _) (h.readDangling.trans hout)
        | some record =>
          simp only [hr] at hout ⊢
          by_cases hj : j = id
          · -- In a field the object is the reference itself. Lists drop such elements before they are read.
            subst hj
            obtain rfl := hnamed.resolve_right (not_not_intro hid)
            simp only [h.get?_self, if_true]
            exact h.reduces_here out
          · -- Another object may hold this one further down.
            simp only [h.get?_of_ne hj, hr, if_neg hj]
            exact (hselected hout).cons_of_ne hj
    | _ =>
      rw [readValue_object_of_not_object rfl] at hout ⊢
      rw [outside_object_of_not_object rfl]
      exact h.reduces_untracked _ hnamed hout
  | .list element, hsorted, slot, parent, field, v, out, hnamed, hout => by
    cases v with
    | array items =>
      have helement := h.reducesUnder element hsorted
      rw [Cache.readValue] at hout ⊢
      rw [outside]
      refine h.reduces_array (fun v hv hid => ⟨element, ?_⟩)
        (fun v hv hid => ⟨place_ne_nil hid, ?_⟩) hout
      · -- The elements that are the object leave nothing but their own place.
        exact outside_self hid (canRead_iff.1 (List.mem_filter.1 hv).2 id hid) element
      · exact fun out => helement .element parent field v out (.inr hid)
    | _ =>
      rw [readValue_list_of_not_array rfl] at hout ⊢
      rw [outside_list_of_not_array rfl]
      exact h.reduces_of_not_array rfl hnamed hout

theorem reducesUnder_fields (h : Forgets id c d) : ∀ selected : List (String × Shape),
    Shape.SortedFields selected → ∀ s ∈ selected, ReducesUnder id c d s.2
  | (key, shape) :: rest, hsorted, s, hs => by
    rcases List.mem_cons.1 hs with rfl | hs
    · exact h.reducesUnder shape hsorted.1
    · exact h.reducesUnder_fields rest hsorted.2 s hs

end

/-! ## Queries -/

/-- What is no reference to the object is what the query starts from afterwards too. -/
theorem source?_eq (h : Forgets id c d) (hroot : d.root = c.root) {field : String} {args : Option Json}
    {w : Json} (hsource : c.source? field args = some w) (hother : referenceId? w ≠ some id) :
    d.source? field args = some w := by
  have hcan (v : Json) (hv : referenceId? v ≠ some id) : d.canRead v = c.canRead v := by
    rw [h.canRead]
    simp [hv]
  unfold Cache.source? at hsource ⊢
  simp only [hroot, h.policies] at hsource ⊢
  split at hsource
  · rcases Option.or_eq_some_iff.1 hsource with hstored | ⟨hunread, hfallback⟩
    · obtain ⟨hentry, hread⟩ := Option.filter_eq_some_iff.1 hstored
      rw [hentry, Option.filter_some, if_pos ((hcan w hother).trans hread), Option.some_or]
    · obtain ⟨obj, hobj, rfl⟩ := Option.map_eq_some_iff.1 hfallback
      have hunread' : (c.root.get? (storeFieldName field args)).filter d.canRead = none := by
        refine filter_canRead_eq_none_iff.2 fun v hv => ?_
        rw [h.canRead, filter_canRead_eq_none_iff.1 hunread v hv, Bool.false_and]
      obtain ⟨htype, hid, hin⟩ := fallback?_eq_some_iff.1 hobj
      have hin' : d.contains obj = true := by
        rw [← canRead_toReference] at hin ⊢
        exact (hcan _ hother).trans hin
      rw [hunread', fallback?_eq_some_iff.2 ⟨htype, hid, hin'⟩]
      rfl
  · exact hsource

theorem source?_eq_none {obj : ObjectRef} (h : Forgets obj.cacheId c d) (hroot : d.root = c.root)
    {field : String} {args : Option Json} {t : Typename}
    (hpolicy : c.policies.root field = some (.readReference t))
    (hsource : c.source? field args = some obj.toReference) (hasks : c.AsksFor obj field args) :
    d.source? field args = none := by
  have hfallback : d.fallback? t args = none := by
    refine Option.eq_none_iff_forall_ne_some.2 fun other hother => ?_
    obtain ⟨htype, hid, hin⟩ := fallback?_eq_some_iff.1 hother
    rw [← canRead_toReference, h.canRead, Bool.and_eq_true, canRead_toReference] at hin
    obtain rfl := hasks hsource t other hpolicy (fallback?_eq_some_iff.2 ⟨htype, hid, hin.1⟩)
    simp at hin
  have hstored : (c.root.get? (storeFieldName field args)).filter d.canRead = none := by
    refine filter_canRead_eq_none_iff.2 fun v hv => ?_
    rw [h.canRead]
    cases hread : c.canRead v with
    | false => rfl
    | true =>
      simp only [Cache.source?, hpolicy, hv, Option.filter_some, hread, if_true, Option.some_or,
        Option.some.injEq] at hsource
      simp [hsource]
  unfold Cache.source?
  simp only [hroot, h.policies, hpolicy, hstored, hfallback]
  rfl

theorem source?_cases {obj : ObjectRef} (h : Forgets obj.cacheId c d) (hroot : d.root = c.root)
    {field : String} {args : Option Json} {w : Json} (hasks : c.AsksFor obj field args)
    (hsource : c.source? field args = some w) :
    d.source? field args = some w ∨
      (d.source? field args = none ∧ w = obj.toReference ∧
        ∃ t, c.policies.root field = some (.readReference t)) := by
  by_cases hw : referenceId? w = some obj.cacheId
  · obtain rfl : w = obj.toReference := eq_reference_of_referenceId? hw
    by_cases hpolicy : ∃ t, c.policies.root field = some (.readReference t)
    · obtain ⟨t, hpolicy⟩ := hpolicy
      exact .inr ⟨h.source?_eq_none hroot hpolicy hsource hasks, rfl, t, hpolicy⟩
    · left
      unfold Cache.source? at hsource ⊢
      simp only [hroot, h.policies] at hsource ⊢
      split at hsource
      · exact absurd ⟨_, ‹_›⟩ hpolicy
      · exact hsource
  · exact .inl (h.source?_eq hroot hsource hw)

theorem reduces_query {obj : ObjectRef} (h : Forgets obj.cacheId c d) (hsame : SameRoot c d)
    (hshapes : c.Records Shape.Sorted) {field : String} {args : Option Json}
    (hasks : c.AsksFor obj field args) {v : Json} (hread : c.readRoot field args = .hit v) :
    (Spared c obj.cacheId (c.outsideBy obj.cacheId field args) →
      d.readRoot field args =
        .hit (v.cleared (standsAt obj.cacheId (c.outsideBy obj.cacheId field args)))) ∧
    (¬Spared c obj.cacheId (c.outsideBy obj.cacheId field args) → d.readRoot field args = .missing) := by
  have hsorted : ((c.selections.get? (storeFieldName field args)).getD .leaf).Sorted := by
    cases hshape : c.selections.get? (storeFieldName field args) with
    | none => trivial
    | some shape => exact hshapes _ shape hshape
  obtain ⟨w, hsource, hvalue⟩ := readRoot_eq_hit hread
  rw [readRoot_eq, hsame.selections, outsideBy, hsource]
  rcases h.source?_cases hsame.root hasks hsource with hstays | ⟨hgone, rfl, t, hpolicy⟩
  · have hreduces := h.reducesUnder _ hsorted (.field none field) none field w v (.inl rfl) hvalue
    rw [hstays, Option.bind_some]
    exact ⟨fun hspared => congrArg _ (hreduces.hit hspared),
      fun hspared => congrArg _ (hreduces.missing hspared)⟩
  · -- The answer is the object itself.
    have hin : c.objects.contains obj.cacheId = true :=
      canRead_iff.1 (canRead_of_source? hpolicy hsource) _ obj.referenceId?_toReference
    simp only [hgone, outside_self obj.referenceId?_toReference hin]
    refine ⟨fun hspared => ?_, fun _ => rfl⟩
    have hnull : c.policies.root field = some .danglingNull := hspared _ List.mem_cons_self rfl
    rw [hpolicy] at hnull
    cases hnull

end Forgets

theorem spared_iff {args : Option Json} {field : String} :
    Spared c id (c.outsideBy id field args) ↔ ∀ r ∈ c.resolvedTo id field args, r.Dispensable c := by
  simp [Spared, resolvedTo]

theorem standsAt_outsideBy {args : Option Json} {field : String} :
    standsAt id (c.outsideBy id field args) = (c.placesOf id field args).contains := by
  funext p
  rw [Bool.eq_iff_iff, standsAt_iff, List.contains_iff_mem, placesOf, List.mem_map]
  simp [resolvedTo, and_assoc]

theorem readRoot_evictObject (hshapes : c.Records Shape.Sorted) {obj : ObjectRef} {field : String}
    {args : Option Json} (hasks : c.AsksFor obj field args) {v : Json}
    (hread : c.readRoot field args = .hit v) :
    ((∀ r ∈ c.resolvedTo obj.cacheId field args, r.Dispensable c) →
      (c.evictObject obj).2.readRoot field args =
        .hit (v.cleared (c.placesOf obj.cacheId field args).contains)) ∧
    ((∃ r ∈ c.resolvedTo obj.cacheId field args, ¬r.Dispensable c) →
      (c.evictObject obj).2.readRoot field args = .missing) := by
  obtain ⟨hhit, hmissing⟩ := (Forgets.of_evictObject c obj).reduces_query (sameRoot_evictObject c obj)
    hshapes hasks hread
  rw [spared_iff, standsAt_outsideBy] at hhit
  rw [spared_iff] at hmissing
  exact ⟨hhit, fun ⟨r, hr, hlost⟩ => hmissing fun hall => hlost (hall r hr)⟩

/-- When an object is evicted, a read that never came to it finds what it found before. A read that came to
it in lists, or in fields that read as `null` without it, finds the same but for these places. A read that
came to it anywhere else is missing. What lies inside the object goes with it. -/
theorem evicted_object_reads {c : Cache} (hshapes : c.Records Shape.Sorted) {obj : ObjectRef}
    {doc : Document} {args : Option Json} {w v : Json}
    (hsource : c.source? doc.rootField args = some w) (hother : w ≠ obj.toReference)
    (hread : c.readQuery doc args = .hit v) :
    ((∀ visit ∈ c.visitsBy doc.rootField args, visit.id ≠ obj.cacheId) →
      (c.evictObject obj).2.readQuery doc args = .hit v) ∧
    ((∀ r ∈ c.resolvedTo obj.cacheId doc.rootField args, r.Dispensable c) →
      (c.evictObject obj).2.readQuery doc args =
        .hit (v.cleared (c.placesOf obj.cacheId doc.rootField args).contains)) ∧
    ((∃ r ∈ c.resolvedTo obj.cacheId doc.rootField args, ¬r.Dispensable c) →
      (c.evictObject obj).2.readQuery doc args = .missing) := by
  obtain ⟨hhit, hmissing⟩ := readRoot_evictObject hshapes (asksFor_of_source? hsource hother) hread
  refine ⟨fun hnever => ?_, hhit, hmissing⟩
  have hnone : c.resolvedTo obj.cacheId doc.rootField args = [] := by
    refine List.filter_eq_nil_iff.2 fun r hr => ?_
    rw [outsideBy, hsource] at hr
    rw [beq_iff_eq]
    refine hnever r.toVisit ?_
    rw [visitsBy, hsource]
    exact toVisit_mem_visits _ r hr
  have hnowhere : (c.placesOf obj.cacheId doc.rootField args).contains = fun _ => false := by
    rw [placesOf, hnone]
    rfl
  rw [hnone, hnowhere, Json.cleared_nothing] at hhit
  exact hhit (List.forall_mem_nil _)

def shoot (performers : List String) (studio : Json) : Json :=
  .array [.object [("__typename", .string "Scene"), ("id", .string "1"),
    ("performers", .array (performers.map fun id =>
      .object [("__typename", .string "Performer"), ("id", .string id)])),
    ("scene_markers", .array [.object [("__typename", .string "SceneMarker"), ("id", .string "1"),
      ("primary_tag", .object [("__typename", .string "Tag"), ("id", .string "1")])]]),
    ("studio", studio)]]

def shootStudio : Json := .object [("__typename", .string "Studio"), ("id", .string "1")]

def shootPage : Cache :=
  (new .standard).run [.writeRoot "findScenes" none (shoot ["1", "2"] shootStudio)]

def idOnly : Shape := .object [("id", .leaf)]

def shootShape : Shape :=
  .list (.object [("id", .leaf), ("performers", .list idOnly),
    ("scene_markers", .list (.object [("id", .leaf), ("primary_tag", idOnly)])), ("studio", idOnly)])

/-- Without the performer the cast is shorter, without the studio the field is `null`, and without the tag
of the marker the list must be fetched. A tag that is in none of this does not matter. -/
theorem shoot_evicted :
    shootPage.Records Shape.Sorted ∧
      shootPage.source? Document.findScenes.rootField none = some (.array [reference "Scene:1"]) ∧
      (∀ obj : ObjectRef, Json.array [reference "Scene:1"] ≠ obj.toReference) ∧
      shootPage.readQuery .findScenes none = .hit (shoot ["1", "2"] shootStudio) ∧
      (shootPage.evictObject ⟨.performer, "1"⟩).2.readQuery .findScenes none =
        .hit (shoot ["2"] shootStudio) ∧
      (shootPage.evictObject ⟨.studio, "1"⟩).2.readQuery .findScenes none =
        .hit (shoot ["1", "2"] .null) ∧
      (shootPage.evictObject ⟨.tag, "1"⟩).2.readQuery .findScenes none = .missing ∧
      (shootPage.evictObject ⟨.tag, "2"⟩).2.readQuery .findScenes none =
        .hit (shoot ["1", "2"] shootStudio) := by
  have hshapes : shootPage.Records Shape.Sorted := by
    refine (records_new .standard Shape.Sorted).writeRoot "findScenes" none (Shape.sorted_ofData _ ?_)
    decide +kernel
  have hsource : shootPage.source? Document.findScenes.rootField none =
      some (.array [reference "Scene:1"]) := by decide +kernel
  have hother (obj : ObjectRef) : Json.array [reference "Scene:1"] ≠ obj.toReference := nofun
  have hread : shootPage.readQuery .findScenes none = .hit (shoot ["1", "2"] shootStudio) := by
    have hshape : (shootPage.selections.get? (storeFieldName Document.findScenes.rootField none)).getD
        .leaf = shootShape := by decide +kernel
    have hvalue : shootPage.readValue none Document.findScenes.rootField
        (.array [reference "Scene:1"]) shootShape = some (shoot ["1", "2"] shootStudio) := by cbv
    exact readQuery_of_readValue hsource hshape hvalue
  have hperformer :=
    (evicted_object_reads hshapes hsource (hother ⟨.performer, "1"⟩) hread).2.1 (by decide +kernel)
  have hstudio := (evicted_object_reads hshapes hsource (hother ⟨.studio, "1"⟩) hread).2.1 (by decide +kernel)
  have htag := (evicted_object_reads hshapes hsource (hother ⟨.tag, "1"⟩) hread).2.2 (by decide +kernel)
  have hnever := (evicted_object_reads hshapes hsource (hother ⟨.tag, "2"⟩) hread).1 (by decide +kernel)
  refine ⟨hshapes, hsource, hother, hread, hperformer.trans (congrArg _ ?_),
    hstudio.trans (congrArg _ ?_), htag, hnever⟩
  · decide +kernel
  · decide +kernel

end Cache

end MediaCache
